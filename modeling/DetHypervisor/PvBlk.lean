import DetHypervisor.GuestRam
import DetHypervisor.Lib.Bytes
import DetHypervisor.Lib.Traced
import Mathlib.Data.Finmap

/-!
# pv-blk

A read-only base image under an overlay of clusters populated by their first write. A request
moves its bytes cluster by cluster and stops at the first fault.
-/

namespace DetHypervisor.Devices

open Bytes List Extent

structure FileBase where
  bytes : List UInt8
  length_lt : bytes.length < 2 ^ 64

namespace FileBase

variable {b : FileBase} {host : ℕ → Bool} {len offset : ℕ}

def byteAt (b : FileBase) (i : ℕ) : UInt8 := b.bytes[i]?.getD 0

/-- `host` tells whether the file can be read at an offset; the part of the buffer
past the end of the image stays zero. -/
def readAt (b : FileBase) (host : ℕ → Bool) (offset len : ℕ) : Option (List UInt8) :=
  if b.bytes.length ≤ offset then some (zeros len)
  else
    let take := min (b.bytes.length - offset) len
    if host offset then some (slice b.bytes offset (offset + take) ++ zeros (len - take)) else none

lemma readAt_eq_some {data : List UInt8} (h : b.readAt host offset len = some data) :
    data = Extent.read b.byteAt offset len := by
  have hbyte {i : ℕ} (hi : b.bytes.length ≤ i) : b.byteAt i = 0 := by
    rw [byteAt, List.getElem?_eq_none hi, Option.getD_none]
  rw [readAt] at h
  rw [eq_read_iff]
  split at h
  · next hpast =>
      cases h
      refine ⟨length_replicate, fun i hi => ?_⟩
      rw [List.getElem?_replicate, if_pos hi, hbyte (by omega)]
  · next hin =>
      simp only at h
      split at h
      · cases h
        have hlen : (slice b.bytes offset (offset + min (b.bytes.length - offset) len)).length =
            min (b.bytes.length - offset) len := by
          rw [length_slice (by omega), Nat.add_sub_cancel_left]
        refine ⟨by rw [length_append, hlen, length_replicate]; omega, fun i hi => ?_⟩
        obtain hi' | hi' := lt_or_ge i (min (b.bytes.length - offset) len)
        · rw [List.getElem?_append_left (by omega), slice, List.getElem?_take_of_lt (by omega),
            List.getElem?_drop, byteAt, List.getElem?_eq_getElem (by omega), Option.getD_some]
        · rw [List.getElem?_append_right (by omega), List.getElem?_replicate, if_pos (by omega),
            hbyte (by omega)]
      · cases h

lemma exists_of_readAt_eq_none (h : b.readAt host offset len = none) : ∃ i, host i = false := by
  rw [readAt] at h
  split at h
  · cases h
  · simp only at h
    split at h
    · cases h
    · next hhost => exact ⟨offset, Bool.not_eq_true _ ▸ hhost⟩

end FileBase

def sectorSize : ℕ := 512

def clusterSize : ℕ := 64 * 1024

abbrev Cluster := Fin clusterSize → UInt8

def Cluster.fill (c : Cluster) (within : ℕ) (data : List UInt8) : Cluster :=
  fun i => (Extent.covering within data i).getD (c i)

def regSector : ℕ := 0x08
def regBufGpa : ℕ := 0x10
def regCount : ℕ := 0x18
def regCmd : ℕ := 0x1C
def regStatus : ℕ := 0x20

def cmdRead : UInt32 := 1
def cmdWrite : UInt32 := 2
def cmdFlush : UInt32 := 3

def statusOk : UInt32 := 0
def statusBadRequest : UInt32 := 1
def statusMemFault : UInt32 := 2
def statusHostIo : UInt32 := 0xFE

structure PvBlk where
  base : FileBase
  overlay : Finmap fun _ : ℕ => Cluster
  sector : UInt64
  bufGpa : UInt64
  count : UInt32
  status : UInt32
  hostIoErrors : UInt64

def chunkLen (off remaining : ℕ) : ℕ := min remaining (clusterSize - off % clusterSize)

lemma clusterSize_pos : 0 < clusterSize := by decide

lemma chunkLen_pos {off remaining : ℕ} (h : remaining ≠ 0) : 0 < chunkLen off remaining := by
  have hmod := Nat.mod_lt off clusterSize_pos
  rw [chunkLen]
  omega

lemma chunkLen_le (off remaining : ℕ) : chunkLen off remaining ≤ remaining := min_le_left _ _

/-- The loop of `do_read` and `do_write`: `move` serves one chunk and answers with a status if
it faults. -/
def chunkLoop {σ : Type} (move : ℕ → ℕ → ℕ → σ → Option UInt32 × σ) (off remaining gpa : ℕ)
    (s : σ) : UInt32 × σ :=
  if _h : remaining = 0 then (statusOk, s)
  else
    let take := chunkLen off remaining
    match move off take gpa s with
    | (some status, s') => (status, s')
    | (none, s') => chunkLoop move (off + take) (remaining - take) (gpa + take) s'
termination_by remaining
decreasing_by exact Nat.sub_lt (Nat.pos_of_ne_zero _h) (chunkLen_pos _h)

namespace PvBlk

def new (base : FileBase) : PvBlk := ⟨base, ∅, 0, 0, 0, statusOk, 0⟩

variable (d : PvBlk) (host : ℕ → Bool) (ram : GuestRam)

def capacitySectors : ℕ := d.base.bytes.length / sectorSize

def requestRange : Except UInt32 (ℕ × ℕ) :=
  if d.count = 0 then .error statusBadRequest
  else
    let endSector := d.sector.toNat + d.count.toNat
    if 2 ^ 64 ≤ endSector then .error statusBadRequest
    else if d.capacitySectors < endSector then .error statusBadRequest
    else .ok (d.sector.toNat * sectorSize, d.count.toNat * sectorSize)

def chunkBytes (off take : ℕ) : Option (List UInt8) :=
  let within := off % clusterSize
  match d.overlay.lookup (off / clusterSize) with
  | some c => some (slice (List.ofFn c) within (within + take))
  | none => d.base.readAt host off take

def readChunk (off take gpa : ℕ) (ram : GuestRam) : Option UInt32 × GuestRam :=
  match d.chunkBytes host off take with
  | none => (some statusHostIo, ram)
  | some chunk =>
    match ram.write gpa chunk with
    | (false, ram') => (some statusMemFault, ram')
    | (true, ram') => (none, ram')

def doRead : UInt32 × GuestRam :=
  match d.requestRange with
  | .error s => (s, ram)
  | .ok (off, remaining) => chunkLoop (d.readChunk host) off remaining d.bufGpa.toNat ram

/-- The cluster as it is in the overlay, or as it is read from the base. -/
def populated (base : FileBase) (host : ℕ → Bool) (overlay : Finmap fun _ : ℕ => Cluster)
    (cluster : ℕ) : Option Cluster :=
  match overlay.lookup cluster with
  | some c => some c
  | none =>
    (base.readAt host (cluster * clusterSize) clusterSize).map fun fresh =>
      Cluster.fill (fun _ => 0) 0 fresh

/-- The body of the loop of `do_write`; the guest's bytes are read into the cluster
itself. -/
def writeChunk (off take gpa : ℕ) (d : PvBlk) : Option UInt32 × PvBlk :=
  let cluster := off / clusterSize
  let within := off % clusterSize
  match populated d.base host d.overlay cluster with
  | none => (some statusHostIo, d)
  | some c =>
    match ram.read gpa take with
    | .error part =>
      (some statusMemFault, { d with overlay := d.overlay.insert cluster (c.fill within part) })
    | .ok data => (none, { d with overlay := d.overlay.insert cluster (c.fill within data) })

def doWrite : UInt32 × PvBlk :=
  match d.requestRange with
  | .error s => (s, d)
  | .ok (off, remaining) => chunkLoop (writeChunk host ram) off remaining d.bufGpa.toNat d

def complete (status : UInt32) : PvBlk :=
  { d with
    status := status
    hostIoErrors := if status = statusHostIo then d.hostIoErrors + 1 else d.hostIoErrors }

def execute (cmd : UInt32) (ram : GuestRam) : PvBlk × GuestRam :=
  if cmd = cmdRead then
    let (status, ram') := d.doRead host ram
    (d.complete status, ram')
  else if cmd = cmdWrite then
    let (status, d') := d.doWrite host ram
    (d'.complete status, ram)
  else if cmd = cmdFlush then (d.complete statusOk, ram)
  else (d.complete statusBadRequest, ram)

def mmioRead (off len : ℕ) : List UInt8 :=
  if off = regSector ∧ len = 8 then toLe d.sector
  else if off = regBufGpa ∧ len = 8 then toLe d.bufGpa
  else if off = regCount ∧ len = 4 then toLe d.count
  else if off = regStatus ∧ len = 4 then toLe d.status
  else zeros len

def mmioWrite (off : ℕ) (data : List UInt8) (ram : GuestRam) : PvBlk × GuestRam :=
  if off = regSector ∧ data.length = 8 then ({ d with sector := ofLe UInt64 data }, ram)
  else if off = regBufGpa ∧ data.length = 8 then ({ d with bufGpa := ofLe UInt64 data }, ram)
  else if off = regCount ∧ data.length = 4 then ({ d with count := ofLe UInt32 data }, ram)
  else if off = regCmd ∧ data.length = 4 then d.execute host (ofLe UInt32 data) ram
  else (d, ram)

end PvBlk

/-- A request may stop where it starts and where a cluster does. -/
def AtBoundary (off moved : ℕ) : Prop := moved = 0 ∨ clusterSize ∣ off + moved

lemma atBoundary_add_chunkLen {off len moved : ℕ}
    (h : moved + chunkLen (off + moved) (len - moved) < len) :
    AtBoundary off (moved + chunkLen (off + moved) (len - moved)) := by
  have hfull : chunkLen (off + moved) (len - moved) =
      clusterSize - (off + moved) % clusterSize := by
    rw [chunkLen] at h ⊢
    omega
  have hlt := Nat.mod_lt (off + moved) clusterSize_pos
  have hdiv := Nat.div_add_mod (off + moved) clusterSize
  refine .inr ⟨(off + moved) / clusterSize + 1, ?_⟩
  rw [hfull, Nat.mul_add, Nat.mul_one]
  omega

section Loop

variable {σ : Type} (move : ℕ → ℕ → ℕ → σ → Option UInt32 × σ) (off len gpa : ℕ)

lemma chunkLoop_spec {I : ℕ → σ → Prop} {s : σ} (hs : I 0 s) (hchunk : ∀ m s s', m < len → I m s →
      move (off + m) (chunkLen (off + m) (len - m)) (gpa + m) s = (none, s') →
      I (m + chunkLen (off + m) (len - m)) s') :
    ((chunkLoop move off len gpa s).1 = statusOk ∧ I len (chunkLoop move off len gpa s).2) ∨
    ∃ m s', m < len ∧ AtBoundary off m ∧ I m s' ∧
      move (off + m) (chunkLen (off + m) (len - m)) (gpa + m) s' =
        (some (chunkLoop move off len gpa s).1, (chunkLoop move off len gpa s).2) := by
  -- The loop from the middle of the request on, by how much is left of it.
  suffices h : ∀ n m s, n = len - m → m ≤ len → (m < len → AtBoundary off m) → I m s →
      ((chunkLoop move (off + m) (len - m) (gpa + m) s).1 = statusOk ∧
        I len (chunkLoop move (off + m) (len - m) (gpa + m) s).2) ∨
      ∃ m' s', m' < len ∧ AtBoundary off m' ∧ I m' s' ∧
        move (off + m') (chunkLen (off + m') (len - m')) (gpa + m') s' =
          (some (chunkLoop move (off + m) (len - m) (gpa + m) s).1,
            (chunkLoop move (off + m) (len - m) (gpa + m) s).2) by
    exact h len 0 s rfl (Nat.zero_le len) (fun _ => .inl rfl) hs
  intro n
  induction n using Nat.strong_induction_on with
  | _ n ih =>
    intro m s hn hm hboundary hI
    rw [chunkLoop]
    by_cases hend : len - m = 0
    · rw [dif_pos hend]
      have hlen : m = len := by omega
      exact .inl ⟨rfl, hlen ▸ hI⟩
    · rw [dif_neg hend]
      have hlt : m < len := by omega
      have hpos : 0 < chunkLen (off + m) (len - m) := chunkLen_pos hend
      have hle := chunkLen_le (off + m) (len - m)
      dsimp only
      generalize hmove : move (off + m) (chunkLen (off + m) (len - m)) (gpa + m) s = result
      obtain ⟨status | status, s'⟩ := result
      · have hnext := hchunk m s s' hlt hI hmove
        have hrest := ih _ (by omega) (m + chunkLen (off + m) (len - m)) s' rfl (by omega)
          atBoundary_add_chunkLen hnext
        simpa only [Nat.add_assoc, Nat.sub_sub] using hrest
      · exact .inr ⟨m, s, hlt, hboundary hlt, hI, hmove⟩

end Loop

namespace PvBlk

variable {c : Cluster} {d : PvBlk} {host : ℕ → Bool} {i : ℕ}

def content (d : PvBlk) (i : ℕ) : UInt8 :=
  match d.overlay.lookup (i / clusterSize) with
  | some c => c ⟨i % clusterSize, Nat.mod_lt i clusterSize_pos⟩
  | none => d.base.byteAt i

lemma content_of_lookup (h : d.overlay.lookup (i / clusterSize) = some c) :
    d.content i = c ⟨i % clusterSize, Nat.mod_lt i clusterSize_pos⟩ := by
  rw [content, h]

lemma content_of_lookup_none (h : d.overlay.lookup (i / clusterSize) = none) :
    d.content i = d.base.byteAt i := by
  rw [content, h]

@[simp] lemma content_new (base : FileBase) : (new base).content = base.byteAt := by
  funext i
  exact content_of_lookup_none (Finmap.lookup_empty _)

lemma populated_apply (h : populated d.base host d.overlay (i / clusterSize) = some c) :
    c ⟨i % clusterSize, Nat.mod_lt i clusterSize_pos⟩ = d.content i := by
  have hi := Nat.mod_lt i clusterSize_pos
  rw [populated] at h
  cases hlookup : d.overlay.lookup (i / clusterSize) with
  | some c' =>
    rw [hlookup] at h
    cases h
    exact (content_of_lookup hlookup).symm
  | none =>
    rw [hlookup] at h
    obtain ⟨fresh, hfresh, rfl⟩ := Option.map_eq_some_iff.mp h
    have hbyte := (eq_read_iff.mp (FileBase.readAt_eq_some hfresh)).2 _ hi
    rw [Nat.mul_comm, Nat.div_add_mod] at hbyte
    rw [content_of_lookup_none hlookup, Cluster.fill, Extent.covering, if_pos (Nat.zero_le _),
      Nat.sub_zero, hbyte, Option.getD_some]

lemma content_insert {off : ℕ} {data : List UInt8}
    (h : populated d.base host d.overlay (off / clusterSize) = some c)
    (hdata : off % clusterSize + data.length ≤ clusterSize) : content { d with
      overlay := d.overlay.insert (off / clusterSize) (c.fill (off % clusterSize) data) } =
      Extent.overwrite d.content off data := by
  have hoff := Nat.div_add_mod off clusterSize
  funext i
  have hi := Nat.div_add_mod i clusterSize
  have hlt := Nat.mod_lt i clusterSize_pos
  by_cases hsame : i / clusterSize = off / clusterSize
  · rw [← hsame] at h hoff
    have hcovering : Extent.covering (off % clusterSize) data (i % clusterSize) =
        Extent.covering off data i := by
      have hsub : i % clusterSize - off % clusterSize = i - off := by omega
      have hle : off % clusterSize ≤ i % clusterSize ↔ off ≤ i := by omega
      simp only [Extent.covering, hsub, hle]
    have hlookup : (d.overlay.insert (off / clusterSize) (c.fill (off % clusterSize) data)).lookup
        (i / clusterSize) = some (c.fill (off % clusterSize) data) := by
      rw [hsame, Finmap.lookup_insert]
    rw [content_of_lookup hlookup, Cluster.fill, hcovering, populated_apply h]
    rfl
  · have hlookup : (d.overlay.insert (off / clusterSize) (c.fill (off % clusterSize) data)).lookup
        (i / clusterSize) = d.overlay.lookup (i / clusterSize) :=
      Finmap.lookup_insert_of_ne _ hsame
    refine Eq.trans (b := d.content i) (by simp only [content, hlookup]) ?_
    obtain hbelow | hbelow := lt_or_ge i off
    · exact (overwrite_of_lt hbelow).symm
    · refine (overwrite_of_ge ?_).symm
      have hdiv : off / clusterSize < i / clusterSize :=
        lt_of_le_of_ne (Nat.div_le_div_right hbelow) (Ne.symm hsame)
      have hmul : clusterSize * (off / clusterSize + 1) ≤ clusterSize * (i / clusterSize) :=
        Nat.mul_le_mul_left _ hdiv
      rw [Nat.mul_add, Nat.mul_one] at hmul
      omega

section Chunk

variable {off take : ℕ}

lemma fits_chunkLen (off remaining : ℕ) :
    off % clusterSize + chunkLen off remaining ≤ clusterSize := by
  have hmod := Nat.mod_lt off clusterSize_pos
  rw [chunkLen]
  omega

lemma div_add_of_fits (h : off % clusterSize + i < clusterSize) :
    (off + i) / clusterSize = off / clusterSize := by
  rw [Nat.add_div clusterSize_pos, Nat.div_eq_of_lt (a := i) (by omega),
    Nat.mod_eq_of_lt (a := i) (by omega), if_neg (by omega), Nat.add_zero]

lemma mod_add_of_fits (h : off % clusterSize + i < clusterSize) :
    (off + i) % clusterSize = off % clusterSize + i := by
  rw [Nat.add_mod, Nat.mod_eq_of_lt (a := i) (by omega), Nat.mod_eq_of_lt h]

lemma chunkBytes_eq_some {chunk : List UInt8} (h : off % clusterSize + take ≤ clusterSize)
    (hchunk : d.chunkBytes host off take = some chunk) :
    chunk = Extent.read d.content off take := by
  rw [chunkBytes] at hchunk
  cases hlookup : d.overlay.lookup (off / clusterSize) with
  | none =>
    simp only [hlookup] at hchunk
    rw [FileBase.readAt_eq_some hchunk]
    apply read_congr
    intro i hi
    apply Eq.symm
    apply content_of_lookup_none
    rw [div_add_of_fits (by omega), hlookup]
  | some c =>
    simp only [hlookup, Option.some.injEq] at hchunk
    have hlen : (List.ofFn c).length = clusterSize := length_ofFn
    rw [← hchunk, eq_read_iff, length_slice (by omega), Nat.add_sub_cancel_left]
    refine ⟨rfl, fun i hi => ?_⟩
    have hwithin : (off + i) % clusterSize = off % clusterSize + i := mod_add_of_fits (by omega)
    have hcluster : d.overlay.lookup ((off + i) / clusterSize) = some c := by
      rw [div_add_of_fits (by omega), hlookup]
    rw [content_of_lookup hcluster, slice, List.getElem?_take_of_lt (by omega),
      List.getElem?_drop, List.getElem?_ofFn, dif_pos (by omega)]
    simp only [hwithin]

variable (d) (host) (gpa : ℕ) (ram : GuestRam)

lemma readChunk_cases (h : off % clusterSize + take ≤ clusterSize) :
    ((∃ i, host i = false) ∧ d.readChunk host off take gpa ram = (some statusHostIo, ram)) ∨
    (gpa + take ≤ ram.size ∧ d.readChunk host off take gpa ram =
      (none, ram.overwrite gpa (Extent.read d.content off take))) ∨
    (ram.size < gpa + take ∧ d.readChunk host off take gpa ram =
      (some statusMemFault, ram.overwrite gpa
        (Extent.read d.content off (ram.moved gpa take)))) := by
  cases hchunk : d.chunkBytes host off take with
  | none =>
    refine .inl ⟨?_, by rw [readChunk, hchunk]⟩
    rw [chunkBytes] at hchunk
    split at hchunk
    · cases hchunk
    · exact FileBase.exists_of_readAt_eq_none hchunk
  | some chunk =>
    right
    obtain rfl := chunkBytes_eq_some h hchunk
    have hlen : (Extent.read d.content off take).length = take := length_read _ _ _
    rw [readChunk, hchunk]
    obtain hfits | hfits := le_or_gt (gpa + take) ram.size
    · refine .inl ⟨hfits, ?_⟩
      simp only [GuestRam.write_of_le (hlen.symm ▸ hfits)]
    · refine .inr ⟨hfits, ?_⟩
      simp only [GuestRam.write_of_gt (hlen.symm ▸ hfits), hlen, take_read,
        min_eq_left (ram.moved_le gpa take)]

/-- The device after bytes were moved to it: only the overlay differs. -/
structure Moves (off : ℕ) (data : List UInt8) (d' : PvBlk) : Prop where
  rest_eq : d' = { d with overlay := d'.overlay }
  content_eq : d'.content = Extent.overwrite d.content off data

lemma writeChunk_cases (h : off % clusterSize + take ≤ clusterSize) :
    ((∃ i, host i = false) ∧ writeChunk host ram off take gpa d = (some statusHostIo, d)) ∨
    (gpa + take ≤ ram.size ∧ ∃ d', writeChunk host ram off take gpa d = (none, d') ∧
      Moves d off (Extent.read ram.bytes gpa take) d') ∨
    (ram.size < gpa + take ∧ ∃ d', writeChunk host ram off take gpa d = (some statusMemFault, d') ∧
      Moves d off (Extent.read ram.bytes gpa (ram.moved gpa take)) d') := by
  cases hpopulated : populated d.base host d.overlay (off / clusterSize) with
  | none =>
    refine .inl ⟨?_, by simp only [writeChunk, hpopulated]⟩
    rw [populated] at hpopulated
    split at hpopulated
    · cases hpopulated
    · exact FileBase.exists_of_readAt_eq_none (Option.map_eq_none_iff.mp hpopulated)
  | some c =>
    right
    have hmoved := ram.moved_le gpa take
    obtain hfits | hfits := le_or_gt (gpa + take) ram.size
    · refine .inl ⟨hfits, { d with overlay := d.overlay.insert (off / clusterSize) (c.fill
        (off % clusterSize) (Extent.read ram.bytes gpa take)) }, ?_, rfl, ?_⟩
      · simp only [writeChunk, hpopulated, GuestRam.read_of_le hfits]
      · apply content_insert hpopulated
        rwa [length_read]
    · refine .inr ⟨hfits, { d with overlay := d.overlay.insert (off / clusterSize) (c.fill
        (off % clusterSize) (Extent.read ram.bytes gpa (ram.moved gpa take))) }, ?_, rfl, ?_⟩
      · simp only [writeChunk, hpopulated, GuestRam.read_of_gt hfits]
      · apply content_insert hpopulated
        rw [length_read]
        omega

end Chunk

end PvBlk

/-- How much of a request is moved, and the status it ends with. A fault leaves whole chunks
behind it, and what a refused access moved. -/
inductive Moved (host : ℕ → Bool) (ram : GuestRam) (off len gpa : ℕ) : UInt32 → ℕ → Prop
  | all (hfits : 0 < len → gpa + len ≤ ram.size) : Moved host ram off len gpa statusOk len
  | hostFault {m : ℕ} (hm : m < len) (hboundary : AtBoundary off m)
      (hfault : ∃ i, host i = false) : Moved host ram off len gpa statusHostIo m
  | memFault {m : ℕ} (hm : m < len) (hboundary : AtBoundary off m)
      (hfault : ram.size < gpa + m + chunkLen (off + m) (len - m)) :
      Moved host ram off len gpa statusMemFault
        (m + ram.moved (gpa + m) (chunkLen (off + m) (len - m)))

namespace PvBlk

variable {d : PvBlk} {len off : ℕ}

lemma doRead_spec (h : d.requestRange = .ok (off, len)) (host : ℕ → Bool) (ram : GuestRam) :
    ∃ moved, Moved host ram off len d.bufGpa.toNat (d.doRead host ram).1 moved ∧
      (d.doRead host ram).2 = ram.overwrite d.bufGpa.toNat (Extent.read d.content off moved) := by
  -- Chunk after chunk, guest memory is the old one with a longer part of the disk in it.
  have hnext (m n : ℕ) :
      (ram.overwrite d.bufGpa.toNat (Extent.read d.content off m)).overwrite (d.bufGpa.toNat + m)
        (Extent.read d.content (off + m) n) =
      ram.overwrite d.bufGpa.toNat (Extent.read d.content off (m + n)) := by
    rw [read_add, GuestRam.overwrite_append, length_read]
  have hloop := chunkLoop_spec (d.readChunk host) off len d.bufGpa.toNat (s := ram)
    (I := fun m r => r = ram.overwrite d.bufGpa.toNat (Extent.read d.content off m) ∧
      (0 < m → d.bufGpa.toNat + m ≤ ram.size))
    ⟨by rw [read_zero, GuestRam.overwrite_nil], fun h => absurd h (lt_irrefl 0)⟩ (by
      rintro m _ s' hm ⟨rfl, -⟩ hmove
      obtain ⟨-, hcase⟩ | ⟨hle, hcase⟩ | ⟨-, hcase⟩ := d.readChunk_cases host
        (d.bufGpa.toNat + m) (ram.overwrite d.bufGpa.toNat (Extent.read d.content off m))
        (fits_chunkLen (off + m) (len - m)) <;> cases hcase.symm.trans hmove
      exact ⟨hnext m _, fun _ => (Nat.add_assoc _ _ _).symm.trans_le hle⟩)
  have hdoRead : d.doRead host ram = chunkLoop (d.readChunk host) off len d.bufGpa.toNat ram := by
    simp only [doRead, h]
  rw [← hdoRead] at hloop
  obtain ⟨hstatus, hram, hfits⟩ | ⟨m, r, hm, hboundary, ⟨rfl, -⟩, hmove⟩ := hloop
  · rw [hstatus]
    exact ⟨len, .all hfits, hram⟩
  · generalize d.doRead host ram = result at hmove
    obtain ⟨status, ram'⟩ := result
    obtain ⟨hhost, hcase⟩ | ⟨-, hcase⟩ | ⟨hfault, hcase⟩ := d.readChunk_cases host
      (d.bufGpa.toNat + m) (ram.overwrite d.bufGpa.toNat (Extent.read d.content off m))
      (fits_chunkLen (off + m) (len - m)) <;> cases hcase.symm.trans hmove
    · exact ⟨m, .hostFault hm hboundary hhost, rfl⟩
    · exact ⟨_, .memFault hm hboundary hfault, hnext m _⟩

lemma Moves.trans {d1 d2 : PvBlk} {a b : List UInt8} (h : Moves d off a d1)
    (h' : Moves d1 (off + a.length) b d2) : Moves d off (a ++ b) d2 := by
  refine ⟨h'.rest_eq.trans ?_, ?_⟩
  · rw [h.rest_eq]
  · rw [h'.content_eq, h.content_eq, overwrite_append]

lemma doWrite_spec (h : d.requestRange = .ok (off, len)) (host : ℕ → Bool) (ram : GuestRam) :
    ∃ moved, Moved host ram off len d.bufGpa.toNat (d.doWrite host ram).1 moved ∧
      Moves d off (Extent.read ram.bytes d.bufGpa.toNat moved) (d.doWrite host ram).2 := by
  have hnext {m n : ℕ} {d1 d2 : PvBlk}
      (h1 : Moves d off (Extent.read ram.bytes d.bufGpa.toNat m) d1)
      (h2 : Moves d1 (off + m) (Extent.read ram.bytes (d.bufGpa.toNat + m) n) d2) :
      Moves d off (Extent.read ram.bytes d.bufGpa.toNat (m + n)) d2 := by
    rw [read_add]
    apply h1.trans
    rwa [length_read]
  have hloop := chunkLoop_spec (writeChunk host ram) off len d.bufGpa.toNat (s := d)
    (I := fun m d' => Moves d off (Extent.read ram.bytes d.bufGpa.toNat m) d' ∧
      (0 < m → d.bufGpa.toNat + m ≤ ram.size))
    ⟨⟨rfl, by rw [read_zero, overwrite_nil]⟩, fun h => absurd h (lt_irrefl 0)⟩ (by
      rintro m d1 d2 hm ⟨h1, -⟩ hmove
      obtain ⟨-, hcase⟩ | ⟨hle, d', hcase, hd'⟩ | ⟨-, d', hcase, -⟩ := d1.writeChunk_cases
        host (d.bufGpa.toNat + m) ram (fits_chunkLen (off + m) (len - m)) <;>
        cases hcase.symm.trans hmove
      exact ⟨hnext h1 hd', fun _ => (Nat.add_assoc _ _ _).symm.trans_le hle⟩)
  have hdoWrite : d.doWrite host ram =
      chunkLoop (writeChunk host ram) off len d.bufGpa.toNat d := by
    simp only [doWrite, h]
  rw [← hdoWrite] at hloop
  obtain ⟨hstatus, hmoves, hfits⟩ | ⟨m, d1, hm, hboundary, ⟨h1, -⟩, hmove⟩ := hloop
  · rw [hstatus]
    exact ⟨len, .all hfits, hmoves⟩
  · generalize d.doWrite host ram = result at hmove
    obtain ⟨status, d2⟩ := result
    obtain ⟨hhost, hcase⟩ | ⟨-, d', hcase, -⟩ | ⟨hfault, d', hcase, hd'⟩ := d1.writeChunk_cases
      host (d.bufGpa.toNat + m) ram (fits_chunkLen (off + m) (len - m)) <;>
      cases hcase.symm.trans hmove
    · exact ⟨m, .hostFault hm hboundary hhost, h1⟩
    · exact ⟨_, .memFault hm hboundary hfault, hnext h1 hd'⟩

end PvBlk

end DetHypervisor.Devices
