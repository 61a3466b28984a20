import DetHypervisor.PvDevices

/-!
# Interrupt vectors

The vector registers are 32 bits wide and hold an 8-bit vector: writes mask them, a restore
copies the word of the section. So they are below 256 exactly if every restored word was.
-/

namespace DetHypervisor.Devices

open Bytes Dhilog Checked List

/-- A property that an event keeps exactly if the event is clean holds all along a
run exactly if all its events are clean. -/
lemma forall_isPrefix_foldl_iff {D E : Type*} {step : D → E → D} {good : D → Prop}
    {clean : E → Prop} (hstep : ∀ d e, good d → (good (step d e) ↔ clean e)) {d : D} (hd : good d)
    (events : List E) :
    (∀ pre, pre <+: events → good (pre.foldl step d)) ↔ ∀ e ∈ events, clean e := by
  induction events generalizing d with
  | nil =>
    refine iff_of_true (fun pre hpre => ?_) (by simp)
    rw [prefix_nil.mp hpre]
    exact hd
  | cons e events ih =>
    rw [forall_mem_cons]
    constructor
    · intro h
      have hnext : good (step d e) := h [e] (prefix_append [e] events)
      refine ⟨(hstep d e hd).mp hnext, (ih hnext).mp fun pre hpre => ?_⟩
      exact h (e :: pre) (cons_prefix_cons.mpr ⟨rfl, hpre⟩)
    · rintro ⟨he, hrest⟩ pre hpre
      cases pre with
      | nil => exact hd
      | cons e' pre =>
        obtain ⟨rfl, hrestPre⟩ := cons_prefix_cons.mp hpre
        exact (ih ((hstep d e' hd).mpr he)).mpr hrest pre hrestPre

@[simp] lemma value_toLe (w : UInt32) : value (toLe w) = w.toNat := by
  rw [toLe, value_digits]
  exact Nat.mod_eq_of_lt w.toNat_lt

lemma toNat_masked_lt (w : UInt32) : (w &&& 0xFF).toNat < 256 := by
  rw [UInt32.toNat_and]
  exact Nat.lt_succ_of_le Nat.and_le_right

lemma toNat_toUInt8_eq_iff (w : UInt32) : w.toUInt8.toNat = w.toNat ↔ w.toNat < 256 := by
  rw [UInt32.toNat_toUInt8]
  exact Nat.mod_eq_iff_lt (by decide)

lemma toUInt8_of_lt {w : UInt32} (h : w.toNat < 256) (hne : w ≠ 0) :
    w.toUInt8.toNat = w.toNat ∧ w.toUInt8 ≠ 0 := by
  have heq := (toNat_toUInt8_eq_iff w).mpr h
  refine ⟨heq, fun hzero => hne ?_⟩
  rw [hzero] at heq
  exact UInt32.toNat_inj.mp heq.symm

inductive PadEvent where
  | mmioWrite (off : ℕ) (data : List UInt8) (ctx : DevCtx)
  | padSet (port : UInt8) (buttons : UInt32)
  | restore (bytes : List UInt8) (secVersion : UInt16)

/-- The section is not accepted, or its vector word is an 8-bit vector. -/
def PadEvent.Clean : PadEvent → Prop
  | .restore bytes v =>
    (∃ d, PvPad.restore bytes v = .ok d) → value (Bytes.slice bytes 16 20) < 256
  | _ => True

namespace PvPad

def step (d : PvPad) : PadEvent → PvPad
  | .mmioWrite off data ctx => (d.mmioWrite off data ctx).1
  | .padSet port buttons =>
    match d.applyPadSet port buttons with
    | .ok (_, d') => d'
    | .error _ => d
  | .restore bytes v =>
    match restore bytes v with
    | .ok d' => d'
    | .error _ => d

def VectorsAgree (d : PvPad) : Prop :=
  ∃ w < 256, value (d.mmioRead regIrqVector 4) = w ∧ value (Bytes.slice d.snapshot 16 20) = w ∧
    d.irqVectorU8.toNat = w ∧
    ∀ port buttons v d', d.applyPadSet port buttons = .ok (some v, d') → v.toNat = w ∧ v ≠ 0

lemma slice_snapshot (d : PvPad) : Bytes.slice d.snapshot 16 20 = toLe d.irqVector := by
  have hfields : toLe (d.latch 0) ++ (toLe (d.latch 1) ++ (toLe (d.latch 2) ++ (toLe (d.latch 3) ++
      (toLe d.irqVector ++ toLe d.frameCounter)))) <+: d.snapshot.drop 0 := prefix_rfl
  simp only [append_isPrefix_drop_iff, length_toLe, size_uint32, Nat.reduceAdd] at hfields
  exact hfields.2.2.2.2.1

lemma vectorsAgree_iff (d : PvPad) : d.VectorsAgree ↔ d.irqVector.toNat < 256 := by
  have hread : value (d.mmioRead regIrqVector 4) = d.irqVector.toNat := value_toLe d.irqVector
  rw [VectorsAgree]
  constructor
  · rintro ⟨w, hw, hread', -⟩
    rwa [← hread, hread']
  · intro h
    refine ⟨d.irqVector.toNat, h, hread, ?_, (toNat_toUInt8_eq_iff _).mpr h, ?_⟩
    · rw [slice_snapshot, value_toLe]
    · intro port buttons v d' hset
      obtain ⟨rfl, hne⟩ := (applyPadSet_eq_ok hset).1 v rfl
      exact toUInt8_of_lt h hne

lemma step_iff (d : PvPad) (e : PadEvent) (hd : d.irqVector.toNat < 256) :
    (d.step e).irqVector.toNat < 256 ↔ e.Clean := by
  cases e with
  | mmioWrite off data ctx =>
    refine iff_of_true ?_ trivial
    rw [step, mmioWrite]
    split_ifs
    · exact hd
    · exact toNat_masked_lt _
    · exact hd
    · exact hd
  | padSet port buttons =>
    refine iff_of_true ?_ trivial
    cases hset : d.applyPadSet port buttons with
    | error e =>
      simp only [step, hset]
      exact hd
    | ok result =>
      simp only [step, hset]
      rw [(applyPadSet_eq_ok hset).2]
      exact hd
  | restore bytes v =>
    cases hrestore : restore bytes v with
    | error e =>
      simp only [step, PadEvent.Clean, hrestore]
      exact iff_of_true hd nofun
    | ok d' =>
      obtain ⟨-, rfl⟩ := restore_eq_ok_iff.mp hrestore
      simp only [step, PadEvent.Clean, hrestore, slice_snapshot, value_toLe]
      exact ⟨fun h _ => h, fun h => h ⟨d', rfl⟩⟩

end PvPad

inductive NetEvent where
  | mmioWrite (off : ℕ) (data : List UInt8) (ctx : DevCtx)
  | netRx (frame : List UInt8) (ram : GuestRam)
  | restore (bytes : List UInt8) (secVersion : UInt16)

def NetEvent.Clean : NetEvent → Prop
  | .restore bytes v =>
    (∃ d, PvNet.restore bytes v = .ok d) → value (Bytes.slice bytes 32 36) < 256
  | _ => True

namespace PvNet

variable (P : Primitives) (d : PvNet)

def step : NetEvent → PvNet
  | .mmioWrite off data ctx => (d.mmioWrite P off data ctx).1
  | .netRx frame ram =>
    match (d.applyNetRx frame ram).1 with
    | .ok (_, d') => d'
    | .error _ => d
  | .restore bytes v =>
    match restore bytes v with
    | .ok d' => d'
    | .error _ => d

def VectorsAgree : Prop :=
  ∃ w < 256, value (d.mmioRead regRxVector 4) = w ∧ value (Bytes.slice d.snapshot 32 36) = w ∧
    d.rxVectorU8.toNat = w ∧
    ∀ frame ram v d' ram', d.applyNetRx frame ram = (.ok (some v, d'), ram') → v.toNat = w ∧ v ≠ 0

lemma slice_snapshot : Bytes.slice d.snapshot 32 36 = toLe d.rxVector := by
  have hfields : toLe d.txBufGpa ++ (toLe d.txLen ++ (toLe d.txStatus ++ (toLe d.rxBufGpa ++
      (toLe d.rxCap ++ (toLe d.rxLen ++ toLe d.rxVector))))) <+: d.snapshot.drop 0 :=
    prefix_rfl
  simp only [append_isPrefix_drop_iff, length_toLe, size_uint32, size_uint64, Nat.reduceAdd]
    at hfields
  exact isPrefix_drop_iff.mp hfields.2.2.2.2.2.2

lemma vectorsAgree_iff : d.VectorsAgree ↔ d.rxVector.toNat < 256 := by
  have hread : value (d.mmioRead regRxVector 4) = d.rxVector.toNat := value_toLe d.rxVector
  rw [VectorsAgree]
  constructor
  · rintro ⟨w, hw, hread', -⟩
    rwa [← hread, hread']
  · intro h
    refine ⟨d.rxVector.toNat, h, hread, ?_, (toNat_toUInt8_eq_iff _).mpr h, ?_⟩
    · rw [slice_snapshot, value_toLe]
    · intro frame ram v d' ram' hrx
      have hv : v ∈ d.rxEdge := (applyNetRx_eq_ok hrx).1.symm
      obtain ⟨hne, rfl⟩ := mem_rxEdge.mp hv
      exact toUInt8_of_lt h hne

lemma rxVector_doorbell (ctx : DevCtx) : (d.doorbell P ctx).1.rxVector = d.rxVector := by
  rw [doorbell]
  split
  · rfl
  · split <;> rfl

lemma step_iff (e : NetEvent) (hd : d.rxVector.toNat < 256) :
    (d.step P e).rxVector.toNat < 256 ↔ e.Clean := by
  cases e with
  | mmioWrite off data ctx =>
    refine iff_of_true ?_ trivial
    rw [step, mmioWrite]
    split_ifs
    · exact hd
    · exact hd
    · rw [rxVector_doorbell]
      exact hd
    · exact hd
    · exact hd
    · exact hd
    · exact toNat_masked_lt _
    · exact hd
  | netRx frame ram =>
    refine iff_of_true ?_ trivial
    obtain ⟨e, hcase, -⟩ | hcase | hcase := d.applyNetRx_cases frame ram <;>
      simpa only [step, hcase] using hd
  | restore bytes v =>
    cases hrestore : restore bytes v with
    | error e =>
      simp only [step, NetEvent.Clean, hrestore]
      exact iff_of_true hd nofun
    | ok d' =>
      obtain ⟨-, rfl⟩ := restore_eq_ok_iff.mp hrestore
      simp only [step, NetEvent.Clean, hrestore, slice_snapshot, value_toLe]
      exact ⟨fun h _ => h, fun h => h ⟨d', rfl⟩⟩

end PvNet

inductive ClockEvent where
  | mmioWrite (off : ℕ) (data : List UInt8)
  | disarm
  | setVnsBase (base : UInt64)
  | restore (bytes : List UInt8) (secVersion : UInt16)

def ClockEvent.Clean : ClockEvent → Prop
  | .restore bytes v =>
    (∃ d d' : PvClock, d.restore bytes v = .ok d') → value (Bytes.slice bytes 8 12) < 256
  | _ => True

namespace PvClock

def step (d : PvClock) : ClockEvent → PvClock
  | .mmioWrite off data => d.mmioWrite off data
  | .disarm => d.disarm
  | .setVnsBase base => d.setVnsBase base
  | .restore bytes v =>
    match d.restore bytes v with
    | .ok d' => d'
    | .error _ => d

/-- The timer may have vector zero, which the guest can choose. -/
def VectorsAgree (d : PvClock) : Prop :=
  ∃ w < 256, (∀ icount, value (d.mmioRead icount regTimerVector 4) = w) ∧
    value (Bytes.slice d.snapshot 8 12) = w ∧
    ∀ deadline v, d.armed = some (deadline, v) → v.toNat = w

lemma slice_append_vector (deadline : UInt64) (vector : UInt32) :
    Bytes.slice (toLe deadline ++ toLe vector) 8 12 = toLe vector := by
  have hfields : toLe deadline ++ toLe vector <+: (toLe deadline ++ toLe vector).drop 0 :=
    prefix_rfl
  rw [append_isPrefix_drop_iff, isPrefix_drop_iff] at hfields
  simpa only [length_toLe, size_uint64, size_uint32, Nat.reduceAdd] using hfields.2

lemma vectorsAgree_iff (d : PvClock) : d.VectorsAgree ↔ d.timerVector.toNat < 256 := by
  have hread (icount : UInt64) :
      value (d.mmioRead icount regTimerVector 4) = d.timerVector.toNat := value_toLe d.timerVector
  rw [VectorsAgree]
  constructor
  · rintro ⟨w, hw, hread', -⟩
    rwa [← hread 0, hread' 0]
  · intro h
    refine ⟨d.timerVector.toNat, h, hread, ?_, ?_⟩
    · rw [snapshot, slice_append_vector, value_toLe]
    · intro deadline v harmed
      rw [armed, Option.ite_none_right_eq_some, Option.some.injEq, Prod.mk.injEq] at harmed
      rw [← harmed.2.2]
      exact (toNat_toUInt8_eq_iff _).mpr h

lemma step_iff (d : PvClock) (e : ClockEvent) (hd : d.timerVector.toNat < 256) :
    (d.step e).timerVector.toNat < 256 ↔ e.Clean := by
  cases e with
  | mmioWrite off data =>
    refine iff_of_true ?_ trivial
    rw [step, mmioWrite]
    split_ifs
    · exact hd
    · exact toNat_masked_lt _
    · exact hd
  | disarm | setVnsBase => exact iff_of_true hd trivial
  | restore bytes v =>
    cases hrestore : d.restore bytes v with
    | error e =>
      simp only [step, ClockEvent.Clean, hrestore]
      refine iff_of_true hd ?_
      rintro ⟨c, c', hc⟩
      obtain ⟨rfl, i, rfl, -⟩ := restore_eq_ok_iff.mp hc
      have hok := (restore_eq_ok_iff (d := d)).mpr ⟨rfl, i, rfl, rfl⟩
      cases hok.symm.trans hrestore
    | ok d' =>
      obtain ⟨-, i, rfl, rfl⟩ := restore_eq_ok_iff.mp hrestore
      simp only [step, ClockEvent.Clean, hrestore, slice_append_vector, value_toLe]
      exact ⟨fun h _ => h, fun h => h ⟨d, _, hrestore⟩⟩

end PvClock

/-- For every run of each of the three devices: all along it the vectors agree exactly
if the vector word of every section that it restores is below 256. -/
theorem vectors_agree_iff (P : Primitives) (num den : UInt32) (pads : List PadEvent)
    (nets : List NetEvent) (clocks : List ClockEvent) :
    ((∀ pre, pre <+: pads → (pre.foldl PvPad.step .new).VectorsAgree) ↔ ∀ e ∈ pads, e.Clean) ∧
    ((∀ pre, pre <+: nets → (pre.foldl (PvNet.step P) .new).VectorsAgree) ↔ ∀ e ∈ nets, e.Clean) ∧
    ((∀ pre, pre <+: clocks → (pre.foldl PvClock.step (.new num den)).VectorsAgree) ↔
      ∀ e ∈ clocks, e.Clean) := by
  simp only [PvPad.vectorsAgree_iff, PvNet.vectorsAgree_iff, PvClock.vectorsAgree_iff]
  refine ⟨?_, ?_, ?_⟩
  · exact forall_isPrefix_foldl_iff PvPad.step_iff (by decide) pads
  · exact forall_isPrefix_foldl_iff (PvNet.step_iff P) (by decide) nets
  · have hdefault : (PvClock.new num den).timerVector = 0x30 := rfl
    exact forall_isPrefix_foldl_iff PvClock.step_iff (by rw [hdefault]; decide) clocks

def wideVector : PvPad := ⟨fun _ => 0, 0x100, 0⟩

/-- It is accepted; the register then reads as 0x100 and the next input hands out
vector zero. -/
theorem wide_vector_hands_out_zero : PvPad.new.step (.restore wideVector.snapshot 1) = wideVector ∧
    value (wideVector.mmioRead PvPad.regIrqVector 4) = 0x100 ∧
    (∃ d, wideVector.applyPadSet 0 1 = .ok (some 0, d)) ∧ ¬wideVector.VectorsAgree := by
  refine ⟨?_, ?_, ⟨_, rfl⟩, ?_⟩
  · have hrestore : PvPad.restore wideVector.snapshot 1 = .ok wideVector :=
      PvPad.restore_eq_ok_iff.mpr ⟨rfl, rfl⟩
    simp only [PvPad.step, hrestore]
  · exact value_toLe 0x100
  · rw [PvPad.vectorsAgree_iff]
    decide

end DetHypervisor.Devices
