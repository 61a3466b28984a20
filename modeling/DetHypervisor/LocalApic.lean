import DetHypervisor.SnapshotSections

/-!
# The local APIC

The userspace xAPIC model. An access gives an answer, or an error, and the registers after it.
-/

namespace DetHypervisor.Lapic

open Bytes Checked
open Dhsnap (LapcSection)

def msrIa32ApicBase : UInt32 := 0x1B
def msrX2apicBase : UInt32 := 0x800
def msrX2apicEnd : UInt32 := 0x8FF

def xapicMmioBase : UInt64 := 0xfee00000
def xapicMmioLen : UInt64 := 0x1000

def apicBaseBsp : UInt64 := (1 : UInt64) <<< 8
def apicBaseX2apic : UInt64 := (1 : UInt64) <<< 10
def apicBaseEnable : UInt64 := (1 : UInt64) <<< 11
def apicBaseAddrMask : UInt64 := 0x000ffffffffff000
def resetApicBaseMsr : UInt64 := xapicMmioBase ||| apicBaseBsp ||| apicBaseEnable

def regId : UInt64 := 0x020
def regVersion : UInt64 := 0x030
def regTpr : UInt64 := 0x080
def regApr : UInt64 := 0x090
def regPpr : UInt64 := 0x0a0
def regEoi : UInt64 := 0x0b0
def regLdr : UInt64 := 0x0d0
def regDfr : UInt64 := 0x0e0
def regSvr : UInt64 := 0x0f0
def regIsrBase : UInt64 := 0x100
def regIsrEnd : UInt64 := 0x170
def regTmrBase : UInt64 := 0x180
def regTmrEnd : UInt64 := 0x1f0
def regIrrBase : UInt64 := 0x200
def regIrrEnd : UInt64 := 0x270
def regEsr : UInt64 := 0x280
def regIcrLow : UInt64 := 0x300
def regIcrHigh : UInt64 := 0x310
def regLvtTimer : UInt64 := 0x320
def regLvtThermal : UInt64 := 0x330
def regLvtPerf : UInt64 := 0x340
def regLvtLint0 : UInt64 := 0x350
def regLvtLint1 : UInt64 := 0x360
def regLvtError : UInt64 := 0x370
def regTimerInitial : UInt64 := 0x380
def regTimerCurrent : UInt64 := 0x390
def regTimerDivide : UInt64 := 0x3e0

def apicVersion : UInt32 := ((5 : UInt32) <<< 16) ||| 0x14
def svrSoftwareEnable : UInt32 := (1 : UInt32) <<< 8
def lvtMasked : UInt32 := (1 : UInt32) <<< 16

abbrev Vectors := List.Vector UInt32 8

structure LocalApic where
  apicBaseMsr : UInt64
  id : UInt8
  tpr : UInt8
  ldr : UInt32
  dfr : UInt32
  svr : UInt32
  isr : Vectors
  tmr : Vectors
  irr : Vectors
  esr : UInt32
  icrLow : UInt32
  icrHigh : UInt32
  lvtTimer : UInt32
  lvtThermal : UInt32
  lvtPerf : UInt32
  lvtLint0 : UInt32
  lvtLint1 : UInt32
  lvtError : UInt32
  timerInitial : UInt32
  timerDivide : UInt32
  deriving DecidableEq

inductive LapicError where
  | badAccess (offset : UInt64) (len : ℕ)
  | x2apicUnsupported
  | unsupportedApicBase (value : UInt64)
  | unsupportedIcr (offset : UInt64) (value : UInt32)
  | malformedSnapshot (text : String)
  | interruptsDisabled
  | badVector (vector : UInt8)
  deriving DecidableEq

variable (words : Vectors) (vector : UInt8)

def vectorWord : Fin 8 := ⟨vector.toNat / 32, by
  have hlt := vector.toNat_lt
  omega⟩

def vectorBit : UInt32 := (1 : UInt32) <<< (vector % 32).toUInt32

def setVector : Vectors :=
  words.set (vectorWord vector) (words.get (vectorWord vector) ||| vectorBit vector)

def clearVector : Vectors :=
  words.set (vectorWord vector) (words.get (vectorWord vector) &&& ~~~vectorBit vector)

def vectorIsSet : Bool := words.get (vectorWord vector) &&& vectorBit vector != 0

def vectorsDown : List UInt8 := ((List.range' 32 224).map UInt8.ofNat).reverse

namespace LocalApic

def default : LocalApic where
  apicBaseMsr := resetApicBaseMsr
  id := 0
  tpr := 0
  ldr := 0
  dfr := 0xffffffff
  svr := 0xff
  isr := .replicate 8 0
  tmr := .replicate 8 0
  irr := .replicate 8 0
  esr := 0
  icrLow := 0
  icrHigh := 0
  lvtTimer := lvtMasked
  lvtThermal := lvtMasked
  lvtPerf := lvtMasked
  lvtLint0 := lvtMasked
  lvtLint1 := lvtMasked
  lvtError := lvtMasked
  timerInitial := 0
  timerDivide := 0

def isLapicMsr (index : UInt32) : Bool :=
  index == msrIa32ApicBase || (decide (msrX2apicBase ≤ index) && decide (index ≤ msrX2apicEnd))

variable (s : LocalApic) (gpa : UInt64) (len : ℕ)

def readMsr (index : UInt32) : Exec LapicError UInt64 :=
  if index = msrIa32ApicBase then .ok s.apicBaseMsr
  else if msrX2apicBase ≤ index ∧ index ≤ msrX2apicEnd then reject .x2apicUnsupported
  else reject (.badAccess index.toUInt64 8)

def writeApicBaseMsr (value : UInt64) : Exec LapicError Unit × LocalApic :=
  if value &&& apicBaseX2apic ≠ 0 then (reject .x2apicUnsupported, s)
  else
    let base := value &&& apicBaseAddrMask
    if base ≠ xapicMmioBase then (reject (.unsupportedApicBase value), s)
    else (.ok (), { s with apicBaseMsr := base ||| apicBaseBsp ||| (value &&& apicBaseEnable) })

def writeMsr (index : UInt32) (value : UInt64) : Exec LapicError Unit × LocalApic :=
  if index = msrIa32ApicBase then s.writeApicBaseMsr value
  else if msrX2apicBase ≤ index ∧ index ≤ msrX2apicEnd then (reject .x2apicUnsupported, s)
  else (reject (.badAccess index.toUInt64 8), s)

def acceptInterrupt (vector : UInt8) : Exec LapicError Unit × LocalApic :=
  if vector < 32 then (reject (.badVector vector), s)
  else if s.apicBaseMsr &&& apicBaseEnable = 0 ∨ s.svr &&& svrSoftwareEnable = 0 then
    (reject .interruptsDisabled, s)
  else (.ok (), { s with irr := setVector s.irr vector })

/-- The vector is requested and its class is above the task priority. -/
def pending (vector : UInt8) : Bool :=
  !decide (vector &&& 0xf0 ≤ s.tpr &&& 0xf0) && vectorIsSet s.irr vector

def nextPendingInterrupt : Option UInt8 × LocalApic :=
  match vectorsDown.find? s.pending with
  | none => (none, s)
  | some vector => (some vector,
      { s with irr := clearVector s.irr vector, isr := setVector s.isr vector })

def eoi : LocalApic :=
  match vectorsDown.find? (vectorIsSet s.isr) with
  | none => s
  | some vector => { s with isr := clearVector s.isr vector }

/-- The word of one of the three vector registers at an offset. -/
def vectorsAt (words : Vectors) (base off : UInt64) : Exec LapicError UInt32 :=
  index words.toList ((off - base) / 0x10).toNat

def readReg32 (off : UInt64) : Exec LapicError UInt32 :=
  if off = regId then .ok (s.id.toUInt32 <<< 24)
  else if off = regVersion then .ok apicVersion
  else if off = regTpr then .ok s.tpr.toUInt32
  else if off = regApr ∨ off = regPpr then .ok 0
  else if off = regLdr then .ok s.ldr
  else if off = regDfr then .ok s.dfr
  else if off = regSvr then .ok s.svr
  else if regIsrBase ≤ off ∧ off ≤ regIsrEnd then vectorsAt s.isr regIsrBase off
  else if regTmrBase ≤ off ∧ off ≤ regTmrEnd then vectorsAt s.tmr regTmrBase off
  else if regIrrBase ≤ off ∧ off ≤ regIrrEnd then vectorsAt s.irr regIrrBase off
  else if off = regEsr then .ok s.esr
  else if off = regIcrLow then .ok s.icrLow
  else if off = regIcrHigh then .ok s.icrHigh
  else if off = regLvtTimer then .ok s.lvtTimer
  else if off = regLvtThermal then .ok s.lvtThermal
  else if off = regLvtPerf then .ok s.lvtPerf
  else if off = regLvtLint0 then .ok s.lvtLint0
  else if off = regLvtLint1 then .ok s.lvtLint1
  else if off = regLvtError then .ok s.lvtError
  else if off = regTimerInitial ∨ off = regTimerCurrent then .ok 0
  else if off = regTimerDivide then .ok s.timerDivide
  else .ok 0

/-- The registers that an accepted write leaves. The timer is persisted masked,
whatever the guest programs. -/
def store (off : UInt64) (value : UInt32) : LocalApic :=
  if off = regTpr then { s with tpr := (value &&& 0xff).toUInt8 }
  else if off = regEoi then s.eoi
  else if off = regLdr then { s with ldr := value }
  else if off = regDfr then { s with dfr := value }
  else if off = regSvr then { s with svr := value }
  else if off = regEsr then { s with esr := 0 }
  else if off = regIcrLow then { s with icrLow := 0 }
  else if off = regIcrHigh then { s with icrHigh := 0 }
  else if off = regLvtTimer then { s with lvtTimer := value ||| lvtMasked }
  else if off = regLvtThermal then { s with lvtThermal := value }
  else if off = regLvtPerf then { s with lvtPerf := value }
  else if off = regLvtLint0 then { s with lvtLint0 := value }
  else if off = regLvtLint1 then { s with lvtLint1 := value }
  else if off = regLvtError then { s with lvtError := value }
  else if off = regTimerInitial then { s with timerInitial := 0 }
  else if off = regTimerDivide then { s with timerDivide := value }
  else s

def writeReg32 (off : UInt64) (value : UInt32) : Exec LapicError Unit × LocalApic :=
  if (off = regIcrLow ∨ off = regIcrHigh) ∧ value ≠ 0 then
    (reject (.unsupportedIcr off value), s)
  else (.ok (), s.store off value)

def containsMmio : Bool :=
  decide (xapicMmioBase ≤ gpa) && decide (gpa < xapicMmioBase + xapicMmioLen)

def checkedMmioOffset : Exec LapicError UInt64 :=
  if ¬(len = 4 ∨ len = 8) ∨ containsMmio gpa = false then
    reject (.badAccess (if gpa < xapicMmioBase then 0 else gpa - xapicMmioBase) len)
  else
    let off := gpa - xapicMmioBase
    if ¬len ∣ off.toNat ∨ xapicMmioLen.toNat < off.toNat + len then reject (.badAccess off len)
    else .ok off

/-- Between the registers, which are 16 bytes apart, the page reads as zero. -/
def readAligned (off : UInt64) : Exec LapicError UInt32 :=
  if 0x10 ∣ off.toNat then s.readReg32 off else .ok 0

def readMmio : Exec LapicError (List UInt8) := do
  let off ← checkedMmioOffset gpa len
  let value ← s.readAligned off
  let tail ← sub len 4
  .ok (toLe value ++ zeros tail)

def writeMmio (data : List UInt8) : Exec LapicError Unit × LocalApic :=
  match checkedMmioOffset gpa data.length with
  | .error e => (.error e, s)
  | .ok off =>
    if ¬0x10 ∣ off.toNat then (.ok (), s)
    else
      match word UInt32 data 0 4 with
      | .error e => (.error e, s)
      | .ok value => s.writeReg32 off value

def toLapcSection : LapcSection where
  apicBaseMsr := s.apicBaseMsr
  id := s.id
  tpr := s.tpr
  ldr := s.ldr
  dfr := s.dfr
  svr := s.svr
  isr := s.isr
  tmr := s.tmr
  irr := s.irr
  esr := s.esr
  icrLow := s.icrLow
  icrHigh := s.icrHigh
  lvtTimer := s.lvtTimer
  lvtThermal := s.lvtThermal
  lvtPerf := s.lvtPerf
  lvtLint0 := s.lvtLint0
  lvtLint1 := s.lvtLint1
  lvtError := s.lvtError
  timerInitial := s.timerInitial
  timerDivide := s.timerDivide

def ofSection (c : LapcSection) : LocalApic where
  apicBaseMsr := c.apicBaseMsr
  id := c.id
  tpr := c.tpr
  ldr := c.ldr
  dfr := c.dfr
  svr := c.svr
  isr := c.isr
  tmr := c.tmr
  irr := c.irr
  esr := c.esr
  icrLow := c.icrLow
  icrHigh := c.icrHigh
  lvtTimer := c.lvtTimer
  lvtThermal := c.lvtThermal
  lvtPerf := c.lvtPerf
  lvtLint0 := c.lvtLint0
  lvtLint1 := c.lvtLint1
  lvtError := c.lvtError
  timerInitial := c.timerInitial
  timerDivide := c.timerDivide

def fromLapcSection (c : LapcSection) : Exec LapicError LocalApic := do
  let apicBase := c.apicBaseMsr
  rejectIf (apicBase &&& apicBaseX2apic ≠ 0) (.malformedSnapshot "x2APIC mode is not persisted")
  rejectIf (apicBase &&& apicBaseAddrMask ≠ xapicMmioBase)
    (.malformedSnapshot "APIC base address is not xAPIC")
  rejectIf (apicBase &&& ~~~(apicBaseAddrMask ||| apicBaseBsp ||| apicBaseEnable) ≠ 0)
    (.malformedSnapshot "APIC base has unsupported bits")
  rejectIf (apicBase &&& apicBaseBsp = 0) (.malformedSnapshot "BSP bit must remain set")
  rejectIf (c.lvtTimer &&& lvtMasked = 0) (.malformedSnapshot "unmasked lAPIC timer")
  rejectIf (c.timerInitial ≠ 0) (.malformedSnapshot "armed lAPIC timer")
  rejectIf (c.icrLow ≠ 0 ∨ c.icrHigh ≠ 0) (.malformedSnapshot "pending ICR delivery")
  .ok (ofSection c)

end LocalApic

inductive Access where
  | rdmsr (index : UInt32)
  | wrmsr (index : UInt32) (value : UInt64)
  | mmioRead (gpa : UInt64) (len : ℕ)
  | mmioWrite (gpa : UInt64) (data : List UInt8)
  | acceptInterrupt (vector : UInt8)
  | nextPendingInterrupt
  | eoi

inductive Answer where
  | done
  | value (value : UInt64)
  | bytes (bytes : List UInt8)
  | vector (vector : Option UInt8)

def perform (s : LocalApic) : Access → Exec LapicError Answer × LocalApic
  | .rdmsr index => ((s.readMsr index).map .value, s)
  | .wrmsr index value => (s.writeMsr index value).map (·.map fun _ => .done) id
  | .mmioRead gpa len => ((s.readMmio gpa len).map .bytes, s)
  | .mmioWrite gpa data => (s.writeMmio gpa data).map (·.map fun _ => .done) id
  | .acceptInterrupt vector => (s.acceptInterrupt vector).map (·.map fun _ => .done) id
  | .nextPendingInterrupt => s.nextPendingInterrupt.map (.ok ∘ .vector) id
  | .eoi => (.ok .done, s.eoi)

def run (accesses : List Access) : LocalApic :=
  accesses.foldl (fun s access => (perform s access).2) .default

/-- The registers that a section can carry: xAPIC mode at the fixed address, a
masked and unarmed timer and an empty ICR. -/
structure Persistent (s : LocalApic) : Prop where
  base : s.apicBaseMsr = xapicMmioBase ||| apicBaseBsp ∨ s.apicBaseMsr = resetApicBaseMsr
  masked : s.lvtTimer &&& lvtMasked ≠ 0
  unarmed : s.timerInitial = 0
  icrLow : s.icrLow = 0
  icrHigh : s.icrHigh = 0

/-- The access was answered, or it was rejected and has written nothing. -/
def Settled {α : Type} (s : LocalApic) (r : Exec LapicError α × LocalApic) : Prop :=
  (∃ a, r.1 = .ok a) ∨ (∃ e, r.1 = reject e) ∧ r.2 = s

lemma and_enable (v : UInt64) :
    v &&& apicBaseEnable = 0 ∨ v &&& apicBaseEnable = apicBaseEnable := by
  have h : v.toBitVec &&& BitVec.twoPow 64 11 =
      if v.toBitVec.getLsbD 11 then BitVec.twoPow 64 11 else 0 := BitVec.and_twoPow _ _
  by_cases hbit : v.toBitVec.getLsbD 11
  · rw [if_pos hbit] at h
    exact .inr (UInt64.toBitVec_inj.mp h)
  · rw [if_neg hbit] at h
    exact .inl (UInt64.toBitVec_inj.mp h)

lemma or_masked_and (v : UInt32) : (v ||| lvtMasked) &&& lvtMasked = lvtMasked := by
  apply UInt32.toBitVec_inj.mp
  ext i
  simp only [UInt32.toBitVec_and, UInt32.toBitVec_or, BitVec.getElem_and, BitVec.getElem_or]
  cases lvtMasked.toBitVec[i] <;> simp

namespace Persistent

variable {s : LocalApic}

lemma default : Persistent .default := ⟨.inr rfl, by decide, rfl, rfl, rfl⟩

lemma eoi (h : Persistent s) : Persistent s.eoi := by
  rw [LocalApic.eoi]
  split
  · exact h
  · exact ⟨h.base, h.masked, h.unarmed, h.icrLow, h.icrHigh⟩

lemma ite {p : Prop} [Decidable p] {a b : LocalApic} (ha : Persistent a) (hb : Persistent b) :
    Persistent (if p then a else b) := by
  split
  · exact ha
  · exact hb

section

variable (h : Persistent s)
include h

lemma store (off : UInt64) (value : UInt32) : Persistent (s.store off value) := by
  rw [LocalApic.store]
  repeat' apply Persistent.ite
  all_goals first
    | exact h.eoi
    | exact ⟨h.base, h.masked, h.unarmed, h.icrLow, h.icrHigh⟩
    | exact ⟨h.base, h.masked, h.unarmed, rfl, h.icrHigh⟩
    | exact ⟨h.base, h.masked, h.unarmed, h.icrLow, rfl⟩
    | exact ⟨h.base, h.masked, rfl, h.icrLow, h.icrHigh⟩
    | exact ⟨h.base, (or_masked_and value).trans_ne (by decide), h.unarmed, h.icrLow, h.icrHigh⟩

lemma writeMsr (index : UInt32) (value : UInt64) : Persistent (s.writeMsr index value).2 := by
  rw [LocalApic.writeMsr]
  split
  · rw [LocalApic.writeApicBaseMsr]
    split
    · exact h
    · dsimp only
      split
      · exact h
      · next hbase =>
          refine ⟨?_, h.masked, h.unarmed, h.icrLow, h.icrHigh⟩
          rw [not_not.mp hbase]
          obtain henable | henable := and_enable value
          · exact .inl (by rw [henable]; rfl)
          · exact .inr (by rw [henable]; rfl)
  · split
    · exact h
    · exact h

lemma writeMmio (gpa : UInt64) (data : List UInt8) : Persistent (s.writeMmio gpa data).2 := by
  rw [LocalApic.writeMmio]
  split
  · exact h
  · split
    · exact h
    · split
      · exact h
      · rw [LocalApic.writeReg32]
        split
        · exact h
        · exact h.store _ _

lemma acceptInterrupt (vector : UInt8) : Persistent (s.acceptInterrupt vector).2 := by
  rw [LocalApic.acceptInterrupt]
  split
  · exact h
  · split
    · exact h
    · exact ⟨h.base, h.masked, h.unarmed, h.icrLow, h.icrHigh⟩

lemma nextPendingInterrupt : Persistent s.nextPendingInterrupt.2 := by
  unfold LocalApic.nextPendingInterrupt
  generalize vectorsDown.find? s.pending = found
  cases found with
  | none => exact h
  | some vector => exact ⟨h.base, h.masked, h.unarmed, h.icrLow, h.icrHigh⟩

lemma perform (access : Access) : Persistent (perform s access).2 := by
  cases access with
  | rdmsr | mmioRead => exact h
  | wrmsr index value => exact h.writeMsr index value
  | mmioWrite gpa data => exact h.writeMmio gpa data
  | acceptInterrupt vector => exact h.acceptInterrupt vector
  | nextPendingInterrupt =>
    rw [Lapic.perform, Prod.map_snd]
    exact h.nextPendingInterrupt
  | eoi => exact h.eoi

end

lemma run (accesses : List Access) : Persistent (run accesses) := by
  induction accesses using List.reverseRecOn with
  | nil => exact .default
  | append_singleton accesses access ih =>
    rw [Lapic.run, List.foldl_append, List.foldl_cons, List.foldl_nil]
    exact ih.perform access

lemma fromLapcSection_toLapcSection (h : Persistent s) :
    LocalApic.fromLapcSection s.toLapcSection = .ok s := by
  obtain ⟨hx2apic, haddr, hbits, hbsp⟩ : s.apicBaseMsr &&& apicBaseX2apic = 0 ∧
      s.apicBaseMsr &&& apicBaseAddrMask = xapicMmioBase ∧
      s.apicBaseMsr &&& ~~~(apicBaseAddrMask ||| apicBaseBsp ||| apicBaseEnable) = 0 ∧
      s.apicBaseMsr &&& apicBaseBsp ≠ 0 := by
    obtain hbase | hbase := h.base
    · rw [hbase]
      decide
    · rw [hbase]
      decide
  have hicr : ¬(s.icrLow ≠ 0 ∨ s.icrHigh ≠ 0) := by simp [h.icrLow, h.icrHigh]
  simp only [LocalApic.fromLapcSection, Except.bind_eq_ok, rejectIf_eq_ok_iff, exists_const]
  exact ⟨not_not.mpr hx2apic, not_not.mpr haddr, not_not.mpr hbits, hbsp, h.masked,
    not_not.mpr h.unarmed, hicr, rfl⟩

end Persistent

section Settling

variable {s : LocalApic}

lemma settled_of_safely {α : Type} {x : Exec LapicError α} (h : Safely (fun _ => True) x) :
    Settled s (x, s) := by
  cases x with
  | ok a => exact .inl ⟨a, rfl⟩
  | error t =>
    obtain ⟨e, rfl⟩ := h
    exact .inr ⟨⟨e, rfl⟩, rfl⟩

lemma Settled.map {α β : Type} {r : Exec LapicError α × LocalApic} (h : Settled s r)
    (f : α → β) : Settled s (r.map (·.map f) id) := by
  obtain ⟨x, s'⟩ := r
  obtain ⟨a, ha⟩ | ⟨⟨e, he⟩, hs⟩ := h
  · exact .inl ⟨f a, congrArg (·.map f) ha⟩
  · exact .inr ⟨⟨e, congrArg (·.map f) he⟩, hs⟩

lemma checkedMmioOffset_safely (gpa : UInt64) (len : ℕ) :
    Safely (fun _ => 4 ≤ len) (LocalApic.checkedMmioOffset gpa len) := by
  rw [LocalApic.checkedMmioOffset]
  split
  · exact ⟨_, rfl⟩
  · next hlen =>
      dsimp only
      split
      · exact ⟨_, rfl⟩
      · change 4 ≤ len
        push Not at hlen
        omega

lemma vectorsAt_safely (words : Vectors) {base off : UInt64} (hle : base ≤ off)
    (hend : off.toNat ≤ base.toNat + 0x70) :
    Safely (fun _ => True) (LocalApic.vectorsAt words base off) := by
  have hoff : ((off - base) / 0x10).toNat = (off.toNat - base.toNat) / 16 := by
    rw [UInt64.toNat_div, UInt64.toNat_sub_of_le _ _ hle]
    rfl
  rw [LocalApic.vectorsAt, safely_index]
  · trivial
  · rw [hoff, List.Vector.toList_length]
    omega

lemma readReg32_safely (off : UInt64) : Safely (fun _ => True) (s.readReg32 off) := by
  have hvectors (words : Vectors) (base last : UInt64) (h : base ≤ off ∧ off ≤ last)
      (hlast : last.toNat ≤ base.toNat + 0x70) :
      Safely (fun _ => True) (LocalApic.vectorsAt words base off) :=
    vectorsAt_safely words h.1 ((UInt64.le_iff_toNat_le.mp h.2).trans hlast)
  rw [LocalApic.readReg32]
  repeat' first
    | apply safely_ite
    | intro _
  all_goals first
    | exact trivial
    | exact hvectors _ _ _ ‹_› (by decide)

lemma readMmio_safely (gpa : UInt64) (len : ℕ) : Safely (fun _ => True) (s.readMmio gpa len) := by
  rw [LocalApic.readMmio, safely_bind]
  apply (checkedMmioOffset_safely gpa len).weaken
  intro off hlen
  rw [safely_bind]
  have hread : Safely (fun _ => True) (s.readAligned off) :=
    safely_ite (fun _ => readReg32_safely off) fun _ => trivial
  apply hread.weaken
  intro value _
  rw [safely_bind, safely_sub hlen]
  trivial

lemma settled_writeMsr (index : UInt32) (value : UInt64) : Settled s (s.writeMsr index value) := by
  rw [LocalApic.writeMsr]
  split
  · rw [LocalApic.writeApicBaseMsr]
    split
    · exact .inr ⟨⟨_, rfl⟩, rfl⟩
    · dsimp only
      split
      · exact .inr ⟨⟨_, rfl⟩, rfl⟩
      · exact .inl ⟨_, rfl⟩
  · split
    · exact .inr ⟨⟨_, rfl⟩, rfl⟩
    · exact .inr ⟨⟨_, rfl⟩, rfl⟩

lemma settled_writeMmio (gpa : UInt64) (data : List UInt8) : Settled s (s.writeMmio gpa data) := by
  have hoffset := checkedMmioOffset_safely gpa data.length
  rw [LocalApic.writeMmio]
  cases hoff : LocalApic.checkedMmioOffset gpa data.length with
  | error t =>
    obtain ⟨e, rfl⟩ := hoffset.of_error hoff
    exact .inr ⟨⟨e, rfl⟩, rfl⟩
  | ok off =>
    have hlen : 4 ≤ data.length := hoffset.of_ok hoff
    have hword : Safely (fun _ => True) (word UInt32 data 0 4 : Exec LapicError UInt32) :=
      (safely_word hlen rfl).mpr trivial
    dsimp only
    split
    · exact .inl ⟨_, rfl⟩
    · cases hvalue : (word UInt32 data 0 4 : Exec LapicError UInt32) with
      | error t =>
        obtain ⟨e, rfl⟩ := hword.of_error hvalue
        exact .inr ⟨⟨e, rfl⟩, rfl⟩
      | ok value =>
        dsimp only
        rw [LocalApic.writeReg32]
        split
        · exact .inr ⟨⟨_, rfl⟩, rfl⟩
        · exact .inl ⟨_, rfl⟩

lemma settled_acceptInterrupt (vector : UInt8) : Settled s (s.acceptInterrupt vector) := by
  rw [LocalApic.acceptInterrupt]
  split
  · exact .inr ⟨⟨_, rfl⟩, rfl⟩
  · split
    · exact .inr ⟨⟨_, rfl⟩, rfl⟩
    · exact .inl ⟨_, rfl⟩

lemma readMsr_safely (index : UInt32) : Safely (fun _ => True) (s.readMsr index) :=
  safely_ite (fun _ => trivial) fun _ => safely_ite (fun _ => ⟨_, rfl⟩) fun _ => ⟨_, rfl⟩

lemma settled_perform (access : Access) : Settled s (perform s access) := by
  cases access with
  | rdmsr index => exact settled_of_safely (readMsr_safely index).map
  | wrmsr index value => exact (settled_writeMsr index value).map _
  | mmioRead gpa len => exact settled_of_safely (readMmio_safely gpa len).map
  | mmioWrite gpa data => exact (settled_writeMmio gpa data).map _
  | acceptInterrupt vector => exact (settled_acceptInterrupt vector).map _
  | nextPendingInterrupt => exact .inl ⟨_, by rw [perform, Prod.map_fst, Function.comp_apply]⟩
  | eoi => exact .inl ⟨.done, rfl⟩

end Settling

/-- After any accesses from reset: the timer is masked and unarmed and the ICR empty, a section
gives the registers back, and the next access is answered, or rejected with the registers as
they were. -/
theorem lapic_persists (accesses : List Access) : (run accesses).lvtTimer &&& lvtMasked ≠ 0 ∧
    (run accesses).timerInitial = 0 ∧ (run accesses).icrLow = 0 ∧ (run accesses).icrHigh = 0 ∧
    LocalApic.fromLapcSection (run accesses).toLapcSection = .ok (run accesses) ∧
    ∀ access, (∃ answer, (perform (run accesses) access).1 = .ok answer) ∨
      (∃ e, (perform (run accesses) access).1 = reject e) ∧
        (perform (run accesses) access).2 = run accesses := by
  have h := Persistent.run accesses
  exact ⟨h.masked, h.unarmed, h.icrLow, h.icrHigh, h.fromLapcSection_toLapcSection,
    fun access => settled_perform access⟩

end DetHypervisor.Lapic
