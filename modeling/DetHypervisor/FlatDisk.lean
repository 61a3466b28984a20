import DetHypervisor.PvBlk

/-!
# pv-blk as a flat disk

The abstract device is a disk of bytes with the request registers; a transfer moves a part of
the request, from its start on. Every run of the device is a run of the flat disk.
-/

namespace DetHypervisor.Devices

open Bytes List Extent

/-- A write to the device's window; between two of them guest memory and the host
may change as they like. -/
structure MmioWrite where
  off : ℕ
  data : List UInt8
  ram : GuestRam
  host : ℕ → Bool

def MmioWrite.Commands (e : MmioWrite) (cmd : UInt32) : Prop :=
  (e.off = regCmd ∧ e.data.length = 4) ∧ ofLe UInt32 e.data = cmd

structure Served where
  write : MmioWrite
  ram : GuestRam
  written : List (ℕ × List UInt8)

structure Disk where
  capacity : ℕ
  content : ℕ → UInt8
  sector : UInt64
  bufGpa : UInt64
  count : UInt32
  status : UInt32

namespace Disk

def new (base : FileBase) : Disk := ⟨base.bytes.length / sectorSize, base.byteAt, 0, 0, 0, statusOk⟩

def latch (d : Disk) (off : ℕ) (data : List UInt8) : Disk :=
  if off = regSector ∧ data.length = 8 then { d with sector := ofLe UInt64 data }
  else if off = regBufGpa ∧ data.length = 8 then { d with bufGpa := ofLe UInt64 data }
  else if off = regCount ∧ data.length = 4 then { d with count := ofLe UInt32 data }
  else d

def OnDisk (d : Disk) : Prop := d.count ≠ 0 ∧ d.sector.toNat + d.count.toNat ≤ d.capacity

def offset (d : Disk) : ℕ := d.sector.toNat * sectorSize

def length (d : Disk) : ℕ := d.count.toNat * sectorSize

inductive Step : Served → Disk → Disk → Prop
  | register {d : Disk} {e : MmioWrite} (h : ¬(e.off = regCmd ∧ e.data.length = 4)) :
      Step ⟨e, e.ram, []⟩ d (d.latch e.off e.data)
  | read {d : Disk} {e : MmioWrite} {status : UInt32} {moved : ℕ} (h : e.Commands cmdRead)
      (hon : d.OnDisk) (hmoved : Moved e.host e.ram d.offset d.length d.bufGpa.toNat status moved) :
      Step ⟨e, e.ram.overwrite d.bufGpa.toNat (Extent.read d.content d.offset moved), []⟩ d
        { d with status := status }
  | write {d : Disk} {e : MmioWrite} {status : UInt32} {moved : ℕ} (h : e.Commands cmdWrite)
      (hon : d.OnDisk) (hmoved : Moved e.host e.ram d.offset d.length d.bufGpa.toNat status moved) :
      Step ⟨e, e.ram, [(d.offset, Extent.read e.ram.bytes d.bufGpa.toNat moved)]⟩ d
        { d with
          content := Extent.overwrite d.content d.offset
            (Extent.read e.ram.bytes d.bufGpa.toNat moved)
          status := status }
  | outside {d : Disk} {e : MmioWrite} (h : e.Commands cmdRead ∨ e.Commands cmdWrite)
      (hout : ¬d.OnDisk) : Step ⟨e, e.ram, []⟩ d { d with status := statusBadRequest }
  | flush {d : Disk} {e : MmioWrite} (h : e.Commands cmdFlush) :
      Step ⟨e, e.ram, []⟩ d { d with status := statusOk }
  | unknown {d : Disk} {e : MmioWrite} {cmd : UInt32} (h : e.Commands cmd) (hread : cmd ≠ cmdRead)
      (hwrite : cmd ≠ cmdWrite) (hflush : cmd ≠ cmdFlush) :
      Step ⟨e, e.ram, []⟩ d { d with status := statusBadRequest }

lemma content_latch (d : Disk) (off : ℕ) (data : List UInt8) :
    (d.latch off data).content = d.content := by
  rw [latch]
  split_ifs <;> rfl

lemma Step.content_eq {l : Served} {d d' : Disk} (h : Step l d d') :
    d'.content = l.written.foldl (fun f w => Extent.overwrite f w.1 w.2) d.content := by
  cases h with
  | register => exact content_latch _ _ _
  | read | write | outside | flush | unknown => rfl

lemma content_of_traced {labels : List Served} {d d' : Disk} (h : Traced Step labels d d') :
    d'.content =
      (labels.flatMap Served.written).foldl (fun f w => Extent.overwrite f w.1 w.2) d.content := by
  induction h with
  | nil d => rfl
  | cons hl _ ih => rw [ih, hl.content_eq, flatMap_cons, foldl_append]

end Disk

namespace PvBlk

variable {cmd : UInt32} {d : PvBlk} {e : MmioWrite}

def disk (d : PvBlk) : Disk := ⟨d.capacitySectors, d.content, d.sector, d.bufGpa, d.count, d.status⟩

def serve (d : PvBlk) (e : MmioWrite) : PvBlk × GuestRam := d.mmioWrite e.host e.off e.data e.ram

def run (d : PvBlk) (events : List MmioWrite) : PvBlk := events.foldl (fun d e => (d.serve e).1) d

def rams (d : PvBlk) : List MmioWrite → List GuestRam
  | [] => []
  | e :: events => (d.serve e).2 :: (d.serve e).1.rams events

lemma requestRange_of_onDisk (h : d.disk.OnDisk) :
    d.requestRange = .ok (d.disk.offset, d.disk.length) := by
  obtain ⟨hcount, hcapacity⟩ := h
  have hcapacity : d.sector.toNat + d.count.toNat ≤ d.capacitySectors := hcapacity
  have hlt : d.capacitySectors < 2 ^ 64 :=
    (Nat.div_le_self _ _).trans_lt d.base.length_lt
  have hcount : ¬d.count = 0 := hcount
  rw [requestRange, if_neg hcount]
  dsimp only
  rw [if_neg (by omega), if_neg (by omega)]
  rfl

lemma requestRange_of_not_onDisk (h : ¬d.disk.OnDisk) :
    d.requestRange = .error statusBadRequest := by
  rw [requestRange]
  by_cases hcount : d.count = 0
  · rw [if_pos hcount]
  · have hcapacity : ¬d.sector.toNat + d.count.toNat ≤ d.capacitySectors :=
      fun hle => h ⟨hcount, hle⟩
    rw [if_neg hcount]
    dsimp only
    split_ifs with hoverflow
    · rfl
    · rfl
    · omega

lemma Moves.disk_complete {d' : PvBlk} {off : ℕ} {data : List UInt8} (h : Moves d off data d')
    (status : UInt32) : (d'.complete status).disk =
      { d.disk with content := Extent.overwrite d.content off data, status := status } := by
  have hcontent := h.content_eq
  rw [h.rest_eq] at hcontent ⊢
  exact congrArg (Disk.mk d.capacitySectors · d.sector d.bufGpa d.count status) hcontent

lemma execute_step (d : PvBlk) (h : e.Commands cmd) :
    ∃ written, Disk.Step ⟨e, (d.execute e.host cmd e.ram).2, written⟩ d.disk
        (d.execute e.host cmd e.ram).1.disk ∧ (d.execute e.host cmd e.ram).1.base = d.base := by
  rw [execute]
  by_cases hread : cmd = cmdRead
  · rw [if_pos hread]
    by_cases hon : d.disk.OnDisk
    · obtain ⟨moved, hmoved, hram⟩ := doRead_spec (requestRange_of_onDisk hon) e.host e.ram
      refine ⟨[], ?_, rfl⟩
      dsimp only
      rw [hram]
      exact .read (hread ▸ h) hon hmoved
    · rw [doRead, requestRange_of_not_onDisk hon]
      exact ⟨[], .outside (.inl (hread ▸ h)) hon, rfl⟩
  · rw [if_neg hread]
    by_cases hwrite : cmd = cmdWrite
    · rw [if_pos hwrite]
      by_cases hon : d.disk.OnDisk
      · obtain ⟨moved, hmoved, hmoves⟩ := doWrite_spec (requestRange_of_onDisk hon) e.host e.ram
        generalize d.doWrite e.host e.ram = result at hmoved hmoves
        obtain ⟨status, d'⟩ := result
        dsimp only at hmoves ⊢
        have hbase : d'.base = d.base := by rw [hmoves.rest_eq]
        rw [hmoves.disk_complete]
        exact ⟨_, .write (hwrite ▸ h) hon hmoved, hbase⟩
      · rw [doWrite, requestRange_of_not_onDisk hon]
        exact ⟨[], .outside (.inr (hwrite ▸ h)) hon, rfl⟩
    · rw [if_neg hwrite]
      by_cases hflush : cmd = cmdFlush
      · rw [if_pos hflush]
        exact ⟨[], .flush (hflush ▸ h), rfl⟩
      · rw [if_neg hflush]
        exact ⟨[], .unknown h hread hwrite hflush, rfl⟩

lemma execute_write (d : PvBlk) (host : ℕ → Bool) (ram : GuestRam) : d.execute host cmdWrite ram =
      ((d.doWrite host ram).2.complete (d.doWrite host ram).1, ram) := by
  rw [execute, if_neg (by decide), if_pos rfl]

lemma serve_of_commands (d : PvBlk) (h : e.Commands cmd) :
    d.serve e = d.execute e.host cmd e.ram := by
  obtain ⟨⟨hoff, hlen⟩, rfl⟩ := h
  rw [serve, mmioWrite, hoff, if_neg (by simp [regCmd, regSector]),
    if_neg (by simp [regCmd, regBufGpa]), if_neg (by simp [regCmd, regCount]), if_pos ⟨rfl, hlen⟩]

lemma serve_step (d : PvBlk) (e : MmioWrite) :
    ∃ written, Disk.Step ⟨e, (d.serve e).2, written⟩ d.disk (d.serve e).1.disk ∧
      (d.serve e).1.base = d.base := by
  by_cases hcmd : e.off = regCmd ∧ e.data.length = 4
  · rw [d.serve_of_commands ⟨hcmd, rfl⟩]
    exact d.execute_step ⟨hcmd, rfl⟩
  · have hserve : (d.serve e).2 = e.ram ∧ (d.serve e).1.disk = d.disk.latch e.off e.data ∧
        (d.serve e).1.base = d.base := by
      rw [serve, mmioWrite, Disk.latch]
      split_ifs <;> exact ⟨rfl, rfl, rfl⟩
    obtain ⟨hram, hdisk, hbase⟩ := hserve
    rw [hram, hdisk]
    exact ⟨[], .register hcmd, hbase⟩

/-- The labels of a run of the flat disk, one for each write to the device. -/
structure RunsAs (d : PvBlk) (events : List MmioWrite) (labels : List Served) : Prop where
  traced : Traced Disk.Step labels d.disk (d.run events).disk
  write_eq : labels.map Served.write = events
  ram_eq : labels.map Served.ram = d.rams events

lemma exists_runsAs (d : PvBlk) (events : List MmioWrite) :
    (∃ labels, RunsAs d events labels) ∧ (d.run events).base = d.base := by
  induction events generalizing d with
  | nil => exact ⟨⟨[], .nil _, rfl, rfl⟩, rfl⟩
  | cons e events ih =>
    obtain ⟨written, hstep, hbase⟩ := d.serve_step e
    obtain ⟨⟨labels, htraced, hwrite, hram⟩, hrest⟩ := ih (d.serve e).1
    refine ⟨⟨⟨e, (d.serve e).2, written⟩ :: labels, .cons hstep htraced, ?_, ?_⟩, ?_⟩
    · rw [map_cons, hwrite]
    · rw [map_cons, hram]
      rfl
    · exact hrest.trans hbase

lemma RunsAs.content_eq {base : FileBase} {events : List MmioWrite} {labels : List Served}
    (h : RunsAs (new base) events labels) (i : ℕ) : ((new base).run events).content i =
      (Extent.lastWrite (labels.flatMap Served.written) i).getD (base.byteAt i) := by
  have hcontent := congrFun (Disk.content_of_traced h.traced) i
  rw [foldl_overwrite] at hcontent
  rw [← content_new base]
  exact hcontent

lemma statusHostIo_ne : statusHostIo ≠ statusOk := by decide

lemma statusMemFault_ne : statusMemFault ≠ statusOk := by decide

lemma statusBadRequest_ne : statusBadRequest ≠ statusOk := by decide

lemma serve_read (h : e.Commands cmdRead) (hok : (d.serve e).1.status = statusOk) {j : ℕ}
    (hj : j < d.disk.length) :
    (d.serve e).2.bytes (d.bufGpa.toNat + j) = d.content (d.disk.offset + j) := by
  obtain ⟨written, hstep, -⟩ := d.serve_step e
  have hstatus : (d.serve e).1.disk.status = statusOk := hok
  generalize (d.serve e).1.disk = d' at hstep hstatus
  generalize (d.serve e).2 = ram at hstep ⊢
  cases hstep with
  | read _ _ hmoved =>
    cases hmoved with
    | all => exact overwrite_add (Extent.getElem?_read hj)
    | hostFault => exact (statusHostIo_ne hstatus).elim
    | memFault => exact (statusMemFault_ne hstatus).elim
  | register hcmd => exact absurd h.1 hcmd
  | write hcmd | flush hcmd => exact absurd (h.2.symm.trans hcmd.2) (by decide)
  | outside => exact (statusBadRequest_ne hstatus).elim
  | unknown hcmd hread => exact absurd (hcmd.2.symm.trans h.2) hread

end PvBlk

lemma Moved.atBoundary {host : ℕ → Bool} {ram : GuestRam} {off len gpa moved : ℕ}
    {status : UInt32} (h : Moved host ram off len gpa status moved) (hstatus : status ≠ statusOk)
    (hnone : ∀ gpa len, ram.copied gpa len = 0) : moved < len ∧ AtBoundary off moved := by
  cases h with
  | all => exact absurd rfl hstatus
  | hostFault hm hboundary => exact ⟨hm, hboundary⟩
  | memFault hm hboundary =>
    rw [GuestRam.moved, hnone, Nat.zero_min, Nat.add_zero]
    exact ⟨hm, hboundary⟩

/-- Whatever is written and whatever faults, the device runs as the flat disk does, with the
same guest memory; a byte of it is the last one that was moved there, or else that of the
base, which stays as it is; and if refused accesses move nothing, faults fall between
clusters. -/
theorem pv_blk_refines_flat_disk (base : FileBase) (events : List MmioWrite) :
    ∃ labels, PvBlk.RunsAs (.new base) events labels ∧
      (∀ i, ((PvBlk.new base).run events).content i =
        (Extent.lastWrite (labels.flatMap Served.written) i).getD (base.byteAt i)) ∧
      (∀ e : MmioWrite, e.Commands cmdRead →
        (((PvBlk.new base).run events).serve e).1.status = statusOk →
        ∀ j < ((PvBlk.new base).run events).disk.length,
          (((PvBlk.new base).run events).serve e).2.bytes
              (((PvBlk.new base).run events).bufGpa.toNat + j) =
            (Extent.lastWrite (labels.flatMap Served.written)
              (((PvBlk.new base).run events).disk.offset + j)).getD
                (base.byteAt (((PvBlk.new base).run events).disk.offset + j))) ∧
      ((PvBlk.new base).run events).base = base ∧
      ∀ host ram off len gpa status moved, (∀ gpa len, ram.copied gpa len = 0) →
        Moved host ram off len gpa status moved → status ≠ statusOk →
        moved < len ∧ AtBoundary off moved := by
  obtain ⟨⟨labels, hlabels⟩, hbase⟩ := (PvBlk.new base).exists_runsAs events
  refine ⟨labels, hlabels, hlabels.content_eq, ?_, hbase,
    fun _ _ _ _ _ _ _ hnone hmoved hstatus => hmoved.atBoundary hstatus hnone⟩
  intro e he hok j hj
  rw [PvBlk.serve_read he hok hj, hlabels.content_eq]

lemma length_zeros_lt : (zeros 512).length < 2 ^ 64 := by
  rw [length_replicate]
  omega

def blankSector : FileBase := ⟨zeros 512, length_zeros_lt⟩

def shortRam : GuestRam := .ofMapping 1 (fun _ => 7) (Nat.one_lt_two_pow (Nat.succ_ne_zero 63))

def blankDevice : PvBlk := { PvBlk.new blankSector with count := 1 }

def shortWrite : MmioWrite := ⟨regCmd, toLe cmdWrite, shortRam, fun _ => true⟩

/-- The request faults in its only chunk, and yet its first byte is on the disk. -/
theorem pv_blk_moves_part_of_chunk :
    blankDevice =
      (PvBlk.new blankSector).run [⟨regCount, toLe (1 : UInt32), shortRam, fun _ => true⟩] ∧
    (blankDevice.serve shortWrite).1.status = statusMemFault ∧
    (blankDevice.serve shortWrite).1.content 0 = 7 ∧
    (blankDevice.serve shortWrite).1.content 1 = 0 ∧ blankSector.byteAt 0 = 0 ∧
    ¬AtBoundary 0 1 := by
  have hcommands : shortWrite.Commands cmdWrite := ⟨⟨rfl, rfl⟩, ofLe_toLe cmdWrite⟩
  have hon : blankDevice.disk.OnDisk := by
    have hcapacity : blankDevice.disk.capacity = 512 / sectorSize :=
      congrArg (· / sectorSize) length_replicate
    refine ⟨by decide, ?_⟩
    rw [hcapacity]
    decide
  obtain ⟨moved, hmoved, hmoves⟩ := PvBlk.doWrite_spec (PvBlk.requestRange_of_onDisk hon)
    (fun _ => true) shortRam
  have hserve : blankDevice.serve shortWrite =
      ((blankDevice.doWrite (fun _ => true) shortRam).2.complete
        (blankDevice.doWrite (fun _ => true) shortRam).1, shortRam) := by
    rw [PvBlk.serve_of_commands _ hcommands, PvBlk.execute_write]
    rfl
  rw [hserve]
  generalize blankDevice.doWrite (fun _ => true) shortRam = result at hmoved hmoves
  obtain ⟨status, d⟩ := result
  have hlen : blankDevice.disk.length = 512 := by decide
  have hboundary {m : ℕ} (hm : m < 512) (h : AtBoundary 0 m) : m = 0 := by
    obtain h | h := h
    · exact h
    · rw [Nat.zero_add] at h
      exact Nat.eq_zero_of_dvd_of_lt h (hm.trans (by decide))
  have houtcome : status = statusMemFault ∧ moved = 1 := by
    rw [hlen] at hmoved
    cases hmoved with
    | all hfits =>
      have hle : 0 + 512 ≤ 1 := hfits (by omega)
      omega
    | hostFault _ _ hfault =>
      obtain ⟨i, hi⟩ := hfault
      cases hi
    | memFault hm hmb =>
      obtain rfl := hboundary hm hmb
      exact ⟨rfl, by decide⟩
  obtain ⟨rfl, rfl⟩ := houtcome
  have hoff : blankDevice.disk.offset = 0 := by decide
  rw [hoff] at hmoves
  have hfirst : d.content 0 = 7 := by
    rw [hmoves.content_eq, ← Nat.zero_add 0]
    exact overwrite_add (Extent.getElem?_read (f := shortRam.bytes) Nat.one_pos)
  have hsecond : d.content 1 = 0 := by
    rw [hmoves.content_eq, overwrite_of_ge (by rw [length_read])]
    exact PvBlk.content_of_lookup_none (Finmap.lookup_empty _)
  exact ⟨rfl, rfl, hfirst, hsecond, rfl, fun h => absurd (hboundary (by omega) h) (by decide)⟩

end DetHypervisor.Devices
