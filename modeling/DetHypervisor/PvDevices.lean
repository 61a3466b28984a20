import DetHypervisor.DevCtx
import DetHypervisor.SnapshotSections

/-!
# The register devices

pv-clock, pv-pad, pv-entropy, pv-net and the debug serial port: registers in a
window, the inputs that run control applies to them, and their snapshot sections.
-/

namespace DetHypervisor.Devices

variable {bytes : List UInt8} {len : ℕ} {v version : UInt16}

open Bytes Dhilog Checked Except

structure RestoreError where
  deriving DecidableEq

def restoring {σ : Type} (version : UInt16) (len : ℕ) (bytes : List UInt8) (secVersion : UInt16)
    (body : Exec RestoreError σ) : Exec RestoreError σ := do
  rejectIf (secVersion ≠ version ∨ bytes.length ≠ len) ⟨⟩
  body

lemma restoring_eq_ok_iff {σ ι : Type} {body : Exec RestoreError σ} {s : σ}
    {enc : ι → List UInt8} {f : ι → σ} (henc : ∀ i, (enc i).length = len)
    (hbody : bytes.length = len → (body = .ok s ↔ ∃ i, enc i <+: bytes.drop 0 ∧ s = f i)) :
    restoring version len bytes v body = .ok s ↔ v = version ∧ ∃ i, bytes = enc i ∧ s = f i := by
  simp only [restoring, bind_eq_ok, rejectIf_eq_ok_iff, not_or, not_not, ne_eq, exists_const,
    eq_iff_isPrefix_drop, henc, and_assoc, exists_and_left]
  exact and_congr_right fun _ => and_congr_right hbody

lemma restoring_eq_ok_iff_eq {σ : Type} {body : Exec RestoreError σ} {s : σ}
    {enc : σ → List UInt8} (henc : ∀ s, (enc s).length = len)
    (hbody : bytes.length = len → (body = .ok s ↔ enc s <+: bytes.drop 0)) :
    restoring version len bytes v body = .ok s ↔ v = version ∧ bytes = enc s := by
  rw [restoring_eq_ok_iff henc (f := id) fun hlen => (hbody hlen).trans (by simp)]
  simp

structure PvClock where
  num : UInt32
  den : UInt32
  vnsBase : UInt64
  timerDeadlineVns : UInt64
  timerVector : UInt32

namespace PvClock

def regVns : ℕ := 0x08
def regIcount : ℕ := 0x10
def regTimerDeadline : ℕ := 0x18
def regTimerVector : ℕ := 0x20
def regFreqNum : ℕ := 0x24
def regFreqDen : ℕ := 0x28

def sectionVersion : UInt16 := 1
def sectionLen : ℕ := 12

def new (num den : UInt32) : PvClock := ⟨num, den, 0, 0, 0x30⟩

variable (d : PvClock) (icount : UInt64) (off : ℕ)

def setVnsBase (base : UInt64) : PvClock := { d with vnsBase := base }

def vns : UInt64 :=
  let v := min (icount.toNat * d.num.toNat / d.den.toNat) (2 ^ 64 - 1)
  UInt64.ofNat (min (d.vnsBase.toNat + v) (2 ^ 64 - 1))

def armed : Option (UInt64 × UInt8) :=
  if d.timerDeadlineVns ≠ 0 then some (d.timerDeadlineVns, d.timerVector.toUInt8) else none

def disarm : PvClock := { d with timerDeadlineVns := 0 }

def serveU64 (value : UInt64) (offInReg len : ℕ) : List UInt8 :=
  if offInReg = 0 ∧ len = 8 then toLe value
  else if offInReg = 0 ∧ len = 4 then (toLe value).take 4
  else if offInReg = 4 ∧ len = 4 then (toLe value).drop 4
  else zeros len

def mmioRead (len : ℕ) : List UInt8 :=
  if off = regVns ∨ off = 0x0C then serveU64 (d.vns icount) (off - regVns) len
  else if off = regIcount ∨ off = 0x14 then serveU64 icount (off - regIcount) len
  else if off = regTimerDeadline ∨ off = 0x1C then
    serveU64 d.timerDeadlineVns (off - regTimerDeadline) len
  else if off = regTimerVector ∧ len = 4 then toLe d.timerVector
  else if off = regFreqNum ∧ len = 4 then toLe d.num
  else if off = regFreqDen ∧ len = 4 then toLe d.den
  else zeros len

def mmioWrite (data : List UInt8) : PvClock :=
  if off = regTimerDeadline ∧ data.length = 8 then { d with timerDeadlineVns := ofLe UInt64 data }
  else if off = regTimerVector ∧ data.length = 4 then
    { d with timerVector := ofLe UInt32 data &&& 0xFF }
  else d

def snapshot : List UInt8 := toLe d.timerDeadlineVns ++ toLe d.timerVector

def restore (bytes : List UInt8) (secVersion : UInt16) : Exec RestoreError PvClock :=
  restoring sectionVersion sectionLen bytes secVersion do
    let timerDeadlineVns ← word UInt64 bytes 0 8
    let timerVector ← word UInt32 bytes 8 12
    .ok { d with timerDeadlineVns := timerDeadlineVns, timerVector := timerVector }

lemma restore_eq_ok_iff {d d' : PvClock} :
    d.restore bytes v = .ok d' ↔ v = sectionVersion ∧ ∃ i : UInt64 × UInt32,
      bytes = toLe i.1 ++ toLe i.2 ∧
      d' = { d with timerDeadlineVns := i.1, timerVector := i.2 } := by
  refine restoring_eq_ok_iff (fun i => by simp [sectionLen]) fun hlen => ?_
  have hlen : bytes.length = 12 := hlen
  simp only [append_isPrefix_drop_iff, bind_eq_ok, word_eq_ok_iff, Except.ok.injEq, Prod.exists]
  simp only [isPrefix_drop_iff, length_toLe, size_uint64, size_uint32, hlen, Nat.reduceAdd,
    Nat.reduceLeDiff, true_and, and_assoc, exists_and_left, eq_comm (a := d')]

end PvClock

inductive PadError where
  | badPort
  deriving DecidableEq

structure PvPad where
  latch : Fin 4 → UInt32
  irqVector : UInt32
  frameCounter : UInt32

namespace PvPad

def regPad0 : ℕ := 0x08
def regIrqVector : ℕ := 0x18
def regFrameCounter : ℕ := 0x1C

def sectionVersion : UInt16 := 1
def sectionLen : ℕ := 24

def new : PvPad := ⟨fun _ => 0, 0, 0⟩

/-- The vector of the edge, if the latch has changed and the guest wants one. -/
def applyPadSet (d : PvPad) (port : UInt8) (buttons : UInt32) :
    Except PadError (Option UInt8 × PvPad) :=
  if h : port.toNat < 4 then
    let changed := d.latch ⟨port.toNat, h⟩ != buttons
    let vector := if changed && d.irqVector != 0 then some d.irqVector.toUInt8 else none
    .ok (vector, { d with latch := Function.update d.latch ⟨port.toNat, h⟩ buttons })
  else .error .badPort

lemma applyPadSet_eq_ok {d d' : PvPad} {port : UInt8} {buttons : UInt32} {vector : Option UInt8}
    (h : d.applyPadSet port buttons = .ok (vector, d')) :
    (∀ v ∈ vector, v = d.irqVector.toUInt8 ∧ d.irqVector ≠ 0) ∧
      d' = { d with latch := d'.latch } := by
  rw [applyPadSet] at h
  split at h
  · cases h
    refine ⟨?_, rfl⟩
    intro v hv
    rw [Option.mem_ite_none_right, Bool.and_eq_true, Option.mem_some_iff] at hv
    exact ⟨hv.2.symm, bne_iff_ne.mp hv.1.2⟩
  · cases h

def irqVectorU8 (d : PvPad) : UInt8 := d.irqVector.toUInt8

def mmioRead (d : PvPad) (off len : ℕ) : List UInt8 :=
  if len ≠ 4 then zeros len
  else if off = 0x08 then toLe (d.latch 0)
  else if off = 0x0C then toLe (d.latch 1)
  else if off = 0x10 then toLe (d.latch 2)
  else if off = 0x14 then toLe (d.latch 3)
  else if off = regIrqVector then toLe d.irqVector
  else if off = regFrameCounter then toLe d.frameCounter
  else toLe (0 : UInt32)

def mmioWrite (d : PvPad) (off : ℕ) (data : List UInt8) (ctx : DevCtx) : PvPad × DevCtx :=
  if data.length ≠ 4 then (d, ctx)
  else if off = regIrqVector then ({ d with irqVector := ofLe UInt32 data &&& 0xFF }, ctx)
  else if off = regFrameCounter then
    ({ d with frameCounter := ofLe UInt32 data }, ctx.logFrameMark (ofLe UInt32 data))
  else (d, ctx)

def snapshot (d : PvPad) : List UInt8 :=
  toLe (d.latch 0) ++ (toLe (d.latch 1) ++ (toLe (d.latch 2) ++ (toLe (d.latch 3) ++
    (toLe d.irqVector ++ toLe d.frameCounter))))

def restore (bytes : List UInt8) (secVersion : UInt16) : Exec RestoreError PvPad :=
  restoring sectionVersion sectionLen bytes secVersion do
    let latch0 ← word UInt32 bytes 0 4
    let latch1 ← word UInt32 bytes 4 8
    let latch2 ← word UInt32 bytes 8 12
    let latch3 ← word UInt32 bytes 12 16
    let irqVector ← word UInt32 bytes 16 20
    let frameCounter ← word UInt32 bytes 20 24
    .ok ⟨![latch0, latch1, latch2, latch3], irqVector, frameCounter⟩

lemma length_snapshot (d : PvPad) : d.snapshot.length = sectionLen := by
  simp [snapshot, sectionLen]

lemma restore_eq_ok_iff {d : PvPad} :
    restore bytes v = .ok d ↔ v = sectionVersion ∧ bytes = d.snapshot := by
  refine restoring_eq_ok_iff_eq length_snapshot fun hlen => ?_
  have hlen : bytes.length = 24 := hlen
  obtain ⟨latch, irqVector, frameCounter⟩ := d
  have hlatch (a b c e : UInt32) : ![a, b, c, e] = latch ↔
      a = latch 0 ∧ b = latch 1 ∧ c = latch 2 ∧ e = latch 3 := by
    rw [funext_iff, Fin.forall_fin_succ, Fin.forall_fin_succ, Fin.forall_fin_two]
    rfl
  simp only [snapshot, append_isPrefix_drop_iff, bind_eq_ok, word_eq_ok_iff,
    Except.ok.injEq, mk.injEq, hlatch, existsAndEq]
  simp only [isPrefix_drop_iff, length_toLe, size_uint32, hlen, Nat.reduceAdd, Nat.reduceLeDiff,
    true_and, and_true]

end PvPad

structure PvEntropy where
  bufGpa : UInt64
  len : UInt32
  status : UInt32

namespace PvEntropy

def regBufGpa : ℕ := 0x08
def regLen : ℕ := 0x10
def regDoorbell : ℕ := 0x14
def regStatus : ℕ := 0x18

def statusIdle : UInt32 := 0
def statusOk : UInt32 := 1
def statusFault : UInt32 := 2

def maxFill : ℕ := 2 ^ 20

def sectionVersion : UInt16 := 1
def sectionLen : ℕ := 16

def new : PvEntropy := ⟨0, 0, statusIdle⟩

variable (P : Primitives) (d : PvEntropy) (off : ℕ)

def doorbell (ctx : DevCtx) : PvEntropy × DevCtx :=
  if maxFill < d.len.toNat then ({ d with status := statusFault }, ctx)
  else
    let (bytes, entropy) := ctx.entropy.fill P d.len.toNat
    let (made, ram) := ctx.ram.write d.bufGpa.toNat bytes
    let ctx := { ctx with entropy := entropy, ram := ram }
    if made then ({ d with status := statusOk }, ctx.logEntropy d.len (P.digest8 bytes))
    else ({ d with status := statusFault }, ctx)

def mmioRead (len : ℕ) : List UInt8 :=
  if off = regBufGpa ∧ len = 8 then toLe d.bufGpa
  else if off = regLen ∧ len = 4 then toLe d.len
  else if off = regStatus ∧ len = 4 then toLe d.status
  else zeros len

def mmioWrite (data : List UInt8) (ctx : DevCtx) : PvEntropy × DevCtx :=
  if off = regBufGpa ∧ data.length = 8 then ({ d with bufGpa := ofLe UInt64 data }, ctx)
  else if off = regLen ∧ data.length = 4 then ({ d with len := ofLe UInt32 data }, ctx)
  else if off = regDoorbell ∧ data.length = 4 then d.doorbell P ctx
  else (d, ctx)

def snapshot : List UInt8 := toLe d.bufGpa ++ (toLe d.len ++ toLe d.status)

def restore (bytes : List UInt8) (secVersion : UInt16) : Exec RestoreError PvEntropy :=
  restoring sectionVersion sectionLen bytes secVersion do
    .ok {
      bufGpa := ← word UInt64 bytes 0 8
      len := ← word UInt32 bytes 8 12
      status := ← word UInt32 bytes 12 16 }

lemma length_snapshot : d.snapshot.length = sectionLen := by
  simp [snapshot, sectionLen]

lemma restore_eq_ok_iff {d : PvEntropy} :
    restore bytes v = .ok d ↔ v = sectionVersion ∧ bytes = d.snapshot := by
  refine restoring_eq_ok_iff_eq length_snapshot fun hlen => ?_
  have hlen : bytes.length = 16 := hlen
  obtain ⟨bufGpa, len, status⟩ := d
  simp only [snapshot, append_isPrefix_drop_iff, bind_eq_ok, word_eq_ok_iff,
    Except.ok.injEq, mk.injEq, existsAndEq]
  simp only [isPrefix_drop_iff, length_toLe, size_uint64, size_uint32, hlen, Nat.reduceAdd,
    Nat.reduceLeDiff, true_and, and_true]

open Dhsnap EntrSectionV2 in
/-- A restore finds this generator and these registers exactly in what a snapshot of them
writes. -/
theorem entropy_carried (prng : EntrSection) (d : PvEntropy) :
    (∃ s, decode bytes v = .ok s ∧ s.prng = prng ∧ restore s.deviceRegs 1 = .ok d) ↔
      v = EntrSectionV2.version ∧ ∃ s, fromParts prng d.snapshot = .ok s ∧ bytes = s.encode := by
  simp only [decode_eq_ok_iff, restore_eq_ok_iff]
  constructor
  · rintro ⟨s, ⟨hv, hbytes⟩, rfl, -, hregs⟩
    exact ⟨hv, s, hregs ▸ fromParts_prng_deviceRegs s, hbytes⟩
  · rintro ⟨hv, s, hparts, hbytes⟩
    have hall := fromParts_prng_deviceRegs
      ⟨prng.seed, prng.stream, prng.wordPos, d.bufGpa, d.len, d.status⟩
    cases hparts.symm.trans hall
    exact ⟨_, ⟨hv, hbytes⟩, rfl, rfl, rfl⟩

end PvEntropy

inductive NetRxError where
  | frameTooBig
  | noRxBuffer
  | memFault
  deriving DecidableEq

structure PvNet where
  txBufGpa : UInt64
  txLen : UInt32
  txStatus : UInt32
  rxBufGpa : UInt64
  rxCap : UInt32
  rxLen : UInt32
  rxVector : UInt32

namespace PvNet

def regTxBufGpa : ℕ := 0x08
def regTxLen : ℕ := 0x10
def regTxDoorbell : ℕ := 0x14
def regTxStatus : ℕ := 0x18
def regRxBufGpa : ℕ := 0x20
def regRxCap : ℕ := 0x28
def regRxLen : ℕ := 0x2C
def regRxVector : ℕ := 0x30

def statusIdle : UInt32 := 0
def statusOk : UInt32 := 1
def statusFault : UInt32 := 2

def maxFrame : ℕ := 2048

def sectionVersion : UInt16 := 1
def sectionLen : ℕ := 36

def new : PvNet := ⟨0, 0, statusIdle, 0, 0, 0, 0⟩

variable (P : Primitives) (d : PvNet) (off : ℕ)

def doorbell (ctx : DevCtx) : PvNet × DevCtx :=
  if d.txLen = 0 ∨ maxFrame < d.txLen.toNat then ({ d with txStatus := statusFault }, ctx)
  else
    match ctx.ram.read d.txBufGpa.toNat d.txLen.toNat with
    | .error _ => ({ d with txStatus := statusFault }, ctx)
    | .ok frame => ({ d with txStatus := statusOk }, ctx.logNetTx d.txLen (P.digest8 frame))

def txRegs : UInt64 × UInt32 × UInt32 := (d.txBufGpa, d.txLen, d.txStatus)

def rxVectorU8 : UInt8 := d.rxVector.toUInt8

def rxEdge : Option UInt8 := if d.rxVector ≠ 0 then some d.rxVector.toUInt8 else none

/-- A frame lands in the buffer of the guest. A refused copy has left the registers
alone. -/
def applyNetRx (frame : List UInt8) (ram : GuestRam) :
    Except NetRxError (Option UInt8 × PvNet) × GuestRam :=
  if d.rxBufGpa = 0 then (.error .noRxBuffer, ram)
  else if 2 ^ 32 ≤ frame.length then (.error .frameTooBig, ram)
  else if frame.length = 0 ∨ maxFrame < frame.length ∨ d.rxCap.toNat < frame.length then
    (.error .frameTooBig, ram)
  else
    match ram.write d.rxBufGpa.toNat frame with
    | (false, ram') => (.error .memFault, ram')
    | (true, ram') =>
      (.ok (d.rxEdge, { d with rxLen := UInt32.ofNat frame.length }), ram')

lemma mem_rxEdge {d : PvNet} {v : UInt8} :
    v ∈ d.rxEdge ↔ d.rxVector ≠ 0 ∧ v = d.rxVector.toUInt8 := by
  rw [rxEdge, Option.mem_ite_none_right, Option.mem_some_iff, eq_comm (a := v)]

lemma applyNetRx_cases (frame : List UInt8) (ram : GuestRam) :
    (∃ e, d.applyNetRx frame ram = (.error e, ram) ∧ e ≠ .memFault) ∨
    d.applyNetRx frame ram = (.error .memFault,
      ram.overwrite d.rxBufGpa.toNat (frame.take (ram.moved d.rxBufGpa.toNat frame.length))) ∨
    d.applyNetRx frame ram = (.ok (d.rxEdge, { d with rxLen := UInt32.ofNat frame.length }),
      ram.overwrite d.rxBufGpa.toNat frame) := by
  rw [applyNetRx]
  by_cases hbuf : d.rxBufGpa = 0
  · exact .inl ⟨_, if_pos hbuf, nofun⟩
  rw [if_neg hbuf]
  by_cases hbig : 2 ^ 32 ≤ frame.length
  · exact .inl ⟨_, if_pos hbig, nofun⟩
  rw [if_neg hbig]
  by_cases hlen : frame.length = 0 ∨ maxFrame < frame.length ∨ d.rxCap.toNat < frame.length
  · exact .inl ⟨_, if_pos hlen, nofun⟩
  rw [if_neg hlen]
  obtain hfits | hfits := le_or_gt (d.rxBufGpa.toNat + frame.length) ram.size
  · rw [GuestRam.write_of_le hfits]
    exact .inr (.inr rfl)
  · rw [GuestRam.write_of_gt hfits]
    exact .inr (.inl rfl)

lemma applyNetRx_eq_ok {d d' : PvNet} {frame : List UInt8} {ram ram' : GuestRam}
    {vector : Option UInt8} (h : d.applyNetRx frame ram = (.ok (vector, d'), ram')) :
    vector = d.rxEdge ∧ d' = { d with rxLen := UInt32.ofNat frame.length } ∧
      ram' = ram.overwrite d.rxBufGpa.toNat frame := by
  obtain ⟨e, hcase, -⟩ | hcase | hcase := d.applyNetRx_cases frame ram <;>
    cases hcase.symm.trans h
  exact ⟨rfl, rfl, rfl⟩

def mmioRead (len : ℕ) : List UInt8 :=
  if off = regTxBufGpa ∧ len = 8 then toLe d.txBufGpa
  else if off = regTxLen ∧ len = 4 then toLe d.txLen
  else if off = regTxStatus ∧ len = 4 then toLe d.txStatus
  else if off = regRxBufGpa ∧ len = 8 then toLe d.rxBufGpa
  else if off = regRxCap ∧ len = 4 then toLe d.rxCap
  else if off = regRxLen ∧ len = 4 then toLe d.rxLen
  else if off = regRxVector ∧ len = 4 then toLe d.rxVector
  else zeros len

def mmioWrite (data : List UInt8) (ctx : DevCtx) : PvNet × DevCtx :=
  if off = regTxBufGpa ∧ data.length = 8 then ({ d with txBufGpa := ofLe UInt64 data }, ctx)
  else if off = regTxLen ∧ data.length = 4 then ({ d with txLen := ofLe UInt32 data }, ctx)
  else if off = regTxDoorbell ∧ data.length = 4 then d.doorbell P ctx
  else if off = regRxBufGpa ∧ data.length = 8 then ({ d with rxBufGpa := ofLe UInt64 data }, ctx)
  else if off = regRxCap ∧ data.length = 4 then ({ d with rxCap := ofLe UInt32 data }, ctx)
  else if off = regRxLen ∧ data.length = 4 then ({ d with rxLen := ofLe UInt32 data }, ctx)
  else if off = regRxVector ∧ data.length = 4 then
    ({ d with rxVector := ofLe UInt32 data &&& 0xFF }, ctx)
  else (d, ctx)

def snapshot : List UInt8 :=
  toLe d.txBufGpa ++ (toLe d.txLen ++ (toLe d.txStatus ++ (toLe d.rxBufGpa ++ (toLe d.rxCap ++
    (toLe d.rxLen ++ toLe d.rxVector)))))

def restore (bytes : List UInt8) (secVersion : UInt16) : Exec RestoreError PvNet :=
  restoring sectionVersion sectionLen bytes secVersion do
    .ok {
      txBufGpa := ← word UInt64 bytes 0 8
      txLen := ← word UInt32 bytes 8 12
      txStatus := ← word UInt32 bytes 12 16
      rxBufGpa := ← word UInt64 bytes 16 24
      rxCap := ← word UInt32 bytes 24 28
      rxLen := ← word UInt32 bytes 28 32
      rxVector := ← word UInt32 bytes 32 36 }

lemma length_snapshot : d.snapshot.length = sectionLen := by
  simp [snapshot, sectionLen]

lemma restore_eq_ok_iff {d : PvNet} :
    restore bytes v = .ok d ↔ v = sectionVersion ∧ bytes = d.snapshot := by
  refine restoring_eq_ok_iff_eq length_snapshot fun hlen => ?_
  have hlen : bytes.length = 36 := hlen
  obtain ⟨txBufGpa, txLen, txStatus, rxBufGpa, rxCap, rxLen, rxVector⟩ := d
  simp only [snapshot, append_isPrefix_drop_iff, bind_eq_ok, word_eq_ok_iff,
    Except.ok.injEq, mk.injEq, existsAndEq]
  simp only [isPrefix_drop_iff, length_toLe, size_uint64, size_uint32, hlen, Nat.reduceAdd,
    Nat.reduceLeDiff, true_and, and_true]

end PvNet

structure DebugSerial where
  out : List UInt8
  -- a `u64` in the source, which `2 ^ 64` lost bytes would have to fill
  droppedBytes : ℕ

namespace DebugSerial

def pioBase : ℕ := 0x3F8
def pioLen : ℕ := 8
def maxPendingOutput : ℕ := 1024 * 1024

def sectionVersion : UInt16 := 1

def new : DebugSerial := ⟨[], 0⟩

def pushOutput (d : DebugSerial) (data : List UInt8) : DebugSerial :=
  let out := d.out ++ data
  if maxPendingOutput < out.length then
    let overflow := out.length - maxPendingOutput
    ⟨out.drop overflow, d.droppedBytes + overflow⟩
  else ⟨out, d.droppedBytes⟩

def regRead (reg : ℕ) : UInt8 := if reg = 5 then 0x60 else if reg = 2 then 0x01 else 0

def pioWrite (d : DebugSerial) (port : ℕ) (data : List UInt8) : DebugSerial :=
  if port = pioBase then d.pushOutput data else d

def pioRead (port len : ℕ) : List UInt8 := List.replicate len (regRead (port - pioBase))

def mmioRead (off len : ℕ) : List UInt8 :=
  if len ≠ 4 ∨ ¬(0x08 ≤ off ∧ off < 0x28) ∨ off % 4 ≠ 0 then zeros len
  else toLe (regRead ((off - 0x08) / 4)).toUInt32

def mmioWrite (d : DebugSerial) (off : ℕ) (data : List UInt8) : DebugSerial :=
  if data.length = 4 ∧ off = 0x08 then d.pushOutput (data.take 1) else d

def snapshot : List UInt8 := []

def restore (bytes : List UInt8) (secVersion : UInt16) : Exec RestoreError DebugSerial := do
  rejectIf (secVersion ≠ sectionVersion ∨ bytes ≠ []) ⟨⟩
  .ok new

end DebugSerial

end DetHypervisor.Devices
