import DetHypervisor.DhilogRoundTrip

/-!
# Splicing a lineage of segments

A lineage is a sequence of sealed segments, each starting from the snapshot its predecessor
ended with. `Lineage.new` validates a sequence in three passes, `Lineage.extend` only the new
edge; the two agree.
-/

namespace DetHypervisor.Dhilog.Splice

open Bytes Checked List Except

inductive SpliceError where
  | empty
  | segment (index : ℕ) (err : ReadError)
  | brokenStitch (index : ℕ)
  | missingEndSnapshot (index : ℕ)
  | configMismatch (index : ℕ)
  | clockMismatch (index : ℕ)

structure Edge where
  index : ℕ
  baseSnapshotId : Hash
  log : LogReader

/-- The bytes of the segments with their headers, from the root. -/
structure Lineage where
  segments : List (List UInt8 × Header)

def zeroId : Hash := .replicate 32 0

section Checks

variable (blake3 : List UInt8 → Hash)

def parseSegment (index : ℕ) (bytes : List UInt8) : Exec SpliceError (List UInt8 × Header) := do
  let log ← (LogReader.parse blake3 bytes).mapError (Trap.map (.segment index))
  .ok (bytes, log.header)

def checkMachine (first : Header) (index : ℕ) (h : Header) : Exec SpliceError Unit := do
  rejectIf (h.machineConfigHash ≠ first.machineConfigHash) (.configMismatch index)
  rejectIf (h.clockNum ≠ first.clockNum ∨ h.clockDen ≠ first.clockDen) (.clockMismatch index)

def checkStitch (index : ℕ) (last next : Header) : Exec SpliceError Unit := do
  rejectIf (last.endSnapshotId = zeroId) (.missingEndSnapshot index)
  rejectIf (last.endSnapshotId ≠ next.baseSnapshotId) (.brokenStitch index)

namespace Lineage

def new (segments : List (List UInt8)) : Exec SpliceError Lineage := do
  rejectIf (segments = []) .empty
  let parsed ← eachFrom (parseSegment blake3) 0 segments
  let first ← index parsed 0
  let _ ← eachFrom (fun i s => checkMachine first.2 i s.2) 0 parsed
  let _ ← eachFrom (fun i p => checkStitch i p.1.2 p.2.2) 0 (parsed.zip parsed.tail)
  .ok ⟨parsed⟩

def extend (lineage : Lineage) (childSegment : List UInt8) : Exec SpliceError Lineage := do
  let child ← parseSegment blake3 lineage.segments.length childSegment
  let first ← index lineage.segments 0
  checkMachine first.2 lineage.segments.length child.2
  let lastIndex ← sub lineage.segments.length 1
  let last ← index lineage.segments lastIndex
  checkStitch lastIndex last.2 child.2
  .ok ⟨lineage.segments ++ [child]⟩

def edge (index : ℕ) (segment : List UInt8 × Header) : Exec Empty Edge :=
  match LogReader.parse blake3 segment.1 with
  | .ok log => .ok ⟨index, segment.2.baseSnapshotId, log⟩
  | .error .stuck => .error .stuck
  | .error _ => .error .panic

def edges (lineage : Lineage) : Exec Empty (List Edge) := eachFrom (edge blake3) 0 lineage.segments

end Lineage

end Checks

/-- The lineages that `new` and any sequence of `extend` produce, with the
segments they were given. -/
inductive Built (blake3 : List UInt8 → Hash) : List (List UInt8) → Lineage → Prop
  | new {segments : List (List UInt8)} {lineage : Lineage}
      (h : Lineage.new blake3 segments = .ok lineage) : Built blake3 segments lineage
  | extend {segments : List (List UInt8)} {lineage lineage' : Lineage} {child : List UInt8}
      (built : Built blake3 segments lineage) (h : lineage.extend blake3 child = .ok lineage') :
      Built blake3 (segments ++ [child]) lineage'

variable {blake3 : List UInt8 → Hash} {segments : List (List UInt8)} {child : List UInt8}
  {lineage lineage' : Lineage} {i : ℕ} {s : List UInt8 × Header} {u : Unit}

lemma parseSegment_eq_ok_iff {bytes : List UInt8} : parseSegment blake3 i bytes = .ok s ↔
      s.1 = bytes ∧ ∃ log, LogReader.parse blake3 bytes = .ok log ∧ log.header = s.2 := by
  simp only [parseSegment, bind_eq_ok, mapError_eq_ok, Except.ok.injEq]
  constructor
  · rintro ⟨log, hlog, rfl⟩
    exact ⟨rfl, log, hlog, rfl⟩
  · rintro ⟨hbytes, log, hlog, hheader⟩
    exact ⟨log, hlog, Prod.ext hbytes.symm hheader⟩

def SameMachine (a b : Header) : Prop :=
  a.machineConfigHash = b.machineConfigHash ∧ a.clockNum = b.clockNum ∧ a.clockDen = b.clockDen

def Stitched (a b : Header) : Prop := a.endSnapshotId ≠ zeroId ∧ a.endSnapshotId = b.baseSnapshotId

lemma checkMachine_eq_ok_iff {first h : Header} :
    checkMachine first i h = .ok u ↔ SameMachine h first := by
  simp only [checkMachine, bind_eq_ok, rejectIf_eq_ok_iff, exists_const, SameMachine, ne_eq,
    not_or, not_not]

lemma checkStitch_eq_ok_iff {a b : Header} : checkStitch i a b = .ok u ↔ Stitched a b := by
  simp only [checkStitch, bind_eq_ok, rejectIf_eq_ok_iff, exists_const, Stitched, ne_eq, not_not]

lemma zip_tail_snoc {α : Type} {xs : List α} {last : α} (h : xs.getLast? = some last) (x : α) :
    (xs ++ [x]).zip (xs ++ [x]).tail = xs.zip xs.tail ++ [(last, x)] := by
  obtain ⟨ys, rfl⟩ := getLast?_eq_some_iff.mp h
  induction ys with
  | nil => rfl
  | cons y ys ih =>
    have hlast : (ys ++ [last]).getLast? = some last := getLast?_concat
    cases ys with
    | nil => rfl
    | cons y' ys => simpa using ih hlast

lemma exists_getElem?_of_length_eq {α β : Type} {xs : List α} {ys : List β}
    (h : xs.length = ys.length) {x : α} (hx : xs[i]? = some x) : ∃ y, ys[i]? = some y := by
  obtain ⟨hlt, -⟩ := List.getElem?_eq_some_iff.mp hx
  exact ⟨_, List.getElem?_eq_getElem (h ▸ hlt)⟩

namespace Lineage

lemma extend_eq_new (h : new blake3 segments = .ok lineage) :
    lineage.extend blake3 child = new blake3 (segments ++ [child]) := by
  simp only [new, bind_eq_ok, rejectIf_eq_ok_iff, index_eq_ok_iff, Except.ok.injEq] at h
  obtain ⟨-, hne, parsed, hparsed, first, hfirst, ms, hms, ts, hts, rfl⟩ := h
  have hlen := (eachFrom_eq_ok_iff.mp hparsed).1
  have hpos : 0 < parsed.length := by
    rw [hlen]
    exact length_pos_of_ne_nil hne
  obtain ⟨last, hlast⟩ : ∃ last, parsed.getLast? = some last :=
    ⟨_, getLast?_eq_getLast_of_ne_nil (ne_nil_of_length_pos hpos)⟩
  have hlastIndex : parsed[parsed.length - 1]? = some last := by
    rw [← getLast?_eq_getElem?, hlast]
  have hpairs : (parsed.zip parsed.tail).length = parsed.length - 1 := by
    rw [length_zip, length_tail]
    omega
  have hsub : (sub parsed.length 1 : Exec SpliceError ℕ) = .ok (parsed.length - 1) :=
    sub_eq_ok_iff.mpr ⟨hpos, rfl⟩
  have hnonempty : (rejectIf (segments ++ [child] = []) .empty : Exec SpliceError Unit) = .ok () :=
    rejectIf_eq_ok_iff.mpr (by simp)
  rw [extend, new, hnonempty, ok_bind, eachFrom_snoc, hparsed, ok_bind, bind_assoc,
    Nat.zero_add, ← hlen]
  refine congrArg _ (funext fun c => ?_)
  have hfirst' : (parsed ++ [c])[0]? = some first := by rwa [getElem?_append_left hpos]
  simp only [ok_bind, index_eq_ok_iff.mpr hfirst, index_eq_ok_iff.mpr hfirst',
    index_eq_ok_iff.mpr hlastIndex, hsub, zip_tail_snoc hlast, eachFrom_snoc, hms, hts,
    Nat.zero_add, hpairs, bind_assoc]

lemma exists_new_of_snoc (hne : segments ≠ [])
    (h : new blake3 (segments ++ [child]) = .ok lineage') :
    ∃ lineage, new blake3 segments = .ok lineage := by
  simp only [new, eachFrom_snoc, bind_eq_ok, rejectIf_eq_ok_iff, index_eq_ok_iff,
    Except.ok.injEq] at h
  obtain ⟨-, -, _, ⟨parsed, hparsed, c, hc, rfl⟩, first, hfirst, _, hms, _, hts, rfl⟩ := h
  have hpos : 0 < parsed.length := by
    rw [(eachFrom_eq_ok_iff.mp hparsed).1]
    exact length_pos_of_ne_nil hne
  obtain ⟨last, hlast⟩ : ∃ last, parsed.getLast? = some last :=
    ⟨_, getLast?_eq_getLast_of_ne_nil (ne_nil_of_length_pos hpos)⟩
  rw [getElem?_append_left hpos] at hfirst
  rw [eachFrom_snoc, bind_eq_ok] at hms
  rw [zip_tail_snoc hlast, eachFrom_snoc, bind_eq_ok] at hts
  obtain ⟨ms, hms, -⟩ := hms
  obtain ⟨ts, hts, -⟩ := hts
  refine ⟨⟨parsed⟩, ?_⟩
  rw [new, rejectIf_eq_ok_iff (u := ()) |>.mpr hne, ok_bind, hparsed, ok_bind,
    index_eq_ok_iff.mpr hfirst, ok_bind, hms, ok_bind, hts, ok_bind]

end Lineage

lemma built_iff : Built blake3 segments lineage ↔ Lineage.new blake3 segments = .ok lineage := by
  refine ⟨fun h => ?_, .new⟩
  induction h with
  | new h => exact h
  | extend _ h ih => rw [← Lineage.extend_eq_new ih, h]

structure Spliced (blake3 : List UInt8 → Hash) (segments : List (List UInt8)) (lineage : Lineage) :
    Prop where
  length_eq : lineage.segments.length = segments.length
  parsed : ∀ (i : ℕ) (bytes : List UInt8) (s : List UInt8 × Header), segments[i]? = some bytes →
    lineage.segments[i]? = some s →
    s.1 = bytes ∧ ∃ log, LogReader.parse blake3 bytes = .ok log ∧ log.header = s.2
  stitched : ∀ (i : ℕ) (s t : List UInt8 × Header), lineage.segments[i]? = some s →
    lineage.segments[i + 1]? = some t → Stitched s.2 t.2
  oneMachine : ∀ s ∈ lineage.segments, ∀ t ∈ lineage.segments, SameMachine s.2 t.2

lemma spliced_of_new (h : Lineage.new blake3 segments = .ok lineage) :
    Spliced blake3 segments lineage := by
  simp only [Lineage.new, bind_eq_ok, rejectIf_eq_ok_iff, index_eq_ok_iff, Except.ok.injEq] at h
  obtain ⟨-, -, parsed, hparsed, first, -, ms, hms, ts, hts, rfl⟩ := h
  rw [eachFrom_eq_ok_iff] at hparsed hms hts
  have hfirst (s : List UInt8 × Header) (hs : s ∈ parsed) : SameMachine s.2 first.2 := by
    obtain ⟨i, hi⟩ := mem_iff_getElem?.mp hs
    obtain ⟨u, hu⟩ := exists_getElem?_of_length_eq hms.1.symm hi
    exact checkMachine_eq_ok_iff.mp (hms.2 i s u hi hu)
  refine ⟨hparsed.1, fun i bytes s hbytes hs => ?_, fun i s t hs ht => ?_, fun s hs t ht => ?_⟩
  · exact parseSegment_eq_ok_iff.mp (hparsed.2 i bytes s hbytes hs)
  · have hpair : (parsed.zip parsed.tail)[i]? = some (s, t) := by
      rw [getElem?_zip_eq_some, getElem?_tail]
      exact ⟨hs, ht⟩
    obtain ⟨u, hu⟩ := exists_getElem?_of_length_eq hts.1.symm hpair
    exact checkStitch_eq_ok_iff.mp (hts.2 i (s, t) u hpair hu)
  · have hs' := hfirst s hs
    have ht' := hfirst t ht
    exact ⟨hs'.1.trans ht'.1.symm, hs'.2.1.trans ht'.2.1.symm, hs'.2.2.trans ht'.2.2.symm⟩

lemma edge_eq_ok_iff {e : Edge} : Lineage.edge blake3 i s = .ok e ↔
      e.index = i ∧ e.baseSnapshotId = s.2.baseSnapshotId ∧
        LogReader.parse blake3 s.1 = .ok e.log := by
  cases hparse : LogReader.parse blake3 s.1 with
  | ok log =>
    simp only [Lineage.edge, hparse, Except.ok.injEq]
    constructor
    · rintro rfl
      exact ⟨rfl, rfl, rfl⟩
    · rintro ⟨hindex, hbase, hlog⟩
      rw [← hindex, ← hbase, hlog]
  | error t => cases t <;> simp [Lineage.edge, hparse]

lemma Spliced.edges (h : Spliced blake3 segments lineage) :
    ∃ es, lineage.edges blake3 = .ok es ∧ es.length = segments.length ∧
      ∀ (i : ℕ) (bytes : List UInt8) (e : Edge), segments[i]? = some bytes → es[i]? = some e →
        e.index = i ∧ LogReader.parse blake3 bytes = .ok e.log ∧
          e.baseSnapshotId = e.log.header.baseSnapshotId := by
  have hedge : ∀ k s, lineage.segments[k]? = some s →
      ∃ e, Lineage.edge blake3 (0 + k) s = .ok e := by
    intro k s hs
    obtain ⟨bytes, hbytes⟩ := exists_getElem?_of_length_eq h.length_eq hs
    obtain ⟨hs', log, hlog, -⟩ := h.parsed k bytes s hbytes hs
    exact ⟨⟨0 + k, s.2.baseSnapshotId, log⟩, edge_eq_ok_iff.mpr ⟨rfl, rfl, hs' ▸ hlog⟩⟩
  obtain ⟨es, hes⟩ := exists_eachFrom hedge
  have hspec := eachFrom_eq_ok_iff.mp hes
  refine ⟨es, hes, hspec.1.trans h.length_eq, fun i bytes e hbytes he => ?_⟩
  obtain ⟨s, hs⟩ := exists_getElem?_of_length_eq hspec.1 he
  obtain ⟨hindex, hbase, hlog⟩ := edge_eq_ok_iff.mp (hspec.2 i s e hs he)
  obtain ⟨hs', log, hparse, hheader⟩ := h.parsed i bytes s hbytes hs
  rw [hs', hparse, Except.ok.injEq] at hlog
  subst hlog
  exact ⟨by rw [hindex, Nat.zero_add], hparse, by rw [hbase, hheader]⟩

lemma Spliced.bytes_eq (h : Spliced blake3 segments lineage) :
    lineage.segments.map Prod.fst = segments := by
  refine ext_getElem? fun i => ?_
  rw [getElem?_map]
  cases hs : lineage.segments[i]? with
  | none =>
    rw [getElem?_eq_none_iff, h.length_eq] at hs
    exact (getElem?_eq_none_iff.mpr hs).symm
  | some s =>
    obtain ⟨bytes, hbytes⟩ := exists_getElem?_of_length_eq h.length_eq hs
    rw [Option.map_some, (h.parsed i bytes s hbytes hs).1, hbytes]

/-- Splicing is incremental, and every lineage is continuous. -/
theorem splice_incremental (blake3 : List UInt8 → Hash) (segments : List (List UInt8)) :
    (∀ (lineage : Lineage) (child : List UInt8), Built blake3 segments lineage →
      lineage.extend blake3 child = Lineage.new blake3 (segments ++ [child])) ∧
    (segments ≠ [] → ∀ (child : List UInt8) (lineage' : Lineage),
      (∃ lineage, Lineage.new blake3 segments = .ok lineage ∧
        lineage.extend blake3 child = .ok lineage') ↔
      Lineage.new blake3 (segments ++ [child]) = .ok lineage') ∧
    ∀ lineage : Lineage, Built blake3 segments lineage → lineage.segments.map Prod.fst = segments ∧
      (∀ (i : ℕ) (s t : List UInt8 × Header), lineage.segments[i]? = some s →
        lineage.segments[i + 1]? = some t → t.2.baseSnapshotId = s.2.endSnapshotId) ∧
      (∀ s ∈ lineage.segments, ∀ t ∈ lineage.segments,
        s.2.machineConfigHash = t.2.machineConfigHash ∧ s.2.clockNum = t.2.clockNum ∧
        s.2.clockDen = t.2.clockDen) ∧
      ∃ es, lineage.edges blake3 = .ok es ∧ es.length = segments.length ∧
        ∀ (i : ℕ) (bytes : List UInt8) (e : Edge), segments[i]? = some bytes → es[i]? = some e →
          e.index = i ∧ LogReader.parse blake3 bytes = .ok e.log ∧
            e.baseSnapshotId = e.log.header.baseSnapshotId := by
  refine ⟨fun lineage child h => Lineage.extend_eq_new (built_iff.mp h),
    fun hne child lineage' => ?_, fun lineage h => ?_⟩
  · constructor
    · rintro ⟨lineage, hnew, hextend⟩
      rw [← Lineage.extend_eq_new hnew, hextend]
    · intro h
      obtain ⟨lineage, hnew⟩ := Lineage.exists_new_of_snoc hne h
      exact ⟨lineage, hnew, (Lineage.extend_eq_new hnew).trans h⟩
  · have hspliced := spliced_of_new (built_iff.mp h)
    exact ⟨hspliced.bytes_eq, fun i s t hs ht => (hspliced.stitched i s t hs ht).2.symm,
      hspliced.oneMachine, hspliced.edges⟩

section Stitched

variable (blake3 : List UInt8 → Hash) (base middle last : Hash)

def betweenParams : SealParams := ⟨last, 9, 9, .replicate 32 7, 2⟩

def betweenHeader : Header :=
  sealedHeader blake3 ⟨base, zeroId, .replicate 32 2, 1, 1, 0⟩ (betweenParams last) []

/-- A log without inputs that leads from one snapshot to another. -/
def sealedBetween : List UInt8 :=
  (betweenHeader blake3 base last).bytes ++ image ([] ++ [(betweenParams last).record 0])

lemma parseSegment_sealedBetween (i : ℕ) :
    parseSegment blake3 i (sealedBetween blake3 base last) =
      .ok (sealedBetween blake3 base last, betweenHeader blake3 base last) := by
  have hparse : LogReader.parse blake3 (sealedBetween blake3 base last) = _ :=
    parse_sealedHeader blake3 (show (1 : UInt32) ≠ 0 by decide) (forall_mem_nil _)
      (sequenced_snoc.mpr ⟨sequenced_nil, (betweenParams last).valid_record _, rfl,
        fun h => absurd h (Nat.lt_irrefl 0)⟩)
  rw [parseSegment, hparse]
  rfl

lemma extend_sealedBetween (hmiddle : middle ≠ zeroId) (bytes : List UInt8) :
    Lineage.extend blake3 ⟨[(bytes, betweenHeader blake3 base middle)]⟩
        (sealedBetween blake3 middle last) =
      .ok ⟨[(bytes, betweenHeader blake3 base middle),
        (sealedBetween blake3 middle last, betweenHeader blake3 middle last)]⟩ := by
  rw [Lineage.extend, parseSegment_sealedBetween, ok_bind]
  have hmachine : checkMachine (betweenHeader blake3 base middle) 1
      (betweenHeader blake3 middle last) = .ok () := checkMachine_eq_ok_iff.mpr ⟨rfl, rfl, rfl⟩
  have hstitch : checkStitch 0 (betweenHeader blake3 base middle)
      (betweenHeader blake3 middle last) = .ok () := checkStitch_eq_ok_iff.mpr ⟨hmiddle, rfl⟩
  refine bind_eq_ok.mpr ⟨_, index_eq_ok_iff.mpr rfl, bind_eq_ok.mpr ⟨_, hmachine, ?_⟩⟩
  refine bind_eq_ok.mpr ⟨0, sub_eq_ok_iff.mpr ⟨le_rfl, rfl⟩, ?_⟩
  exact bind_eq_ok.mpr ⟨_, index_eq_ok_iff.mpr rfl, bind_eq_ok.mpr ⟨_, hstitch, rfl⟩⟩

end Stitched

/-- Two logs, the second based on the snapshot that ends the first. -/
theorem splice_incremental_stitched : ∃ lineage lineage' es,
    let blake3 : List UInt8 → Hash := fun _ => .replicate 32 9
    let first := sealedBetween blake3 (.replicate 32 1) (.replicate 32 3)
    let second := sealedBetween blake3 (.replicate 32 3) (.replicate 32 4)
    Lineage.new blake3 [first] = .ok lineage ∧ lineage.extend blake3 second = .ok lineage' ∧
      Lineage.new blake3 [first, second] = .ok lineage' ∧ lineage'.edges blake3 = .ok es ∧
      es.length = 2 := by
  let blake3 : List UInt8 → Hash := fun _ => .replicate 32 9
  have hnew : Lineage.new blake3 [sealedBetween blake3 (.replicate 32 1) (.replicate 32 3)] =
      .ok ⟨[(sealedBetween blake3 (.replicate 32 1) (.replicate 32 3),
        betweenHeader blake3 (.replicate 32 1) (.replicate 32 3))]⟩ := by
    simp only [Lineage.new, eachFrom, parseSegment_sealedBetween]
    rfl
  have hextend := extend_sealedBetween blake3 (.replicate 32 1) (.replicate 32 3)
    (.replicate 32 4) (by decide) (sealedBetween blake3 (.replicate 32 1) (.replicate 32 3))
  have hboth := ((splice_incremental blake3 [sealedBetween blake3 (.replicate 32 1)
    (.replicate 32 3)]).2.1 (cons_ne_nil _ _) _ _).mp ⟨_, hnew, hextend⟩
  obtain ⟨-, -, -, es, hes, hlength, -⟩ := (splice_incremental blake3 _).2.2 _ (.new hboth)
  exact ⟨_, _, es, hnew, hextend, hboth, hes, hlength⟩

end DetHypervisor.Dhilog.Splice
