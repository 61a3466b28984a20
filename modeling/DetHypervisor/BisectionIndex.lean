import DetHypervisor.DhilogRoundTrip

/-!
# The bisection index of a log

The index validates what holds between checkpoints: each follows the epoch hash it captures, and
its gap reaches back to the previous one. So the first checkpoint behind an epoch hash covers
it.
-/

namespace DetHypervisor.Dhilog.Bisection

open Bytes Checked List Except Option

@[ext]
structure RecordPosition where
  icount : UInt64
  seq : UInt32

namespace RecordPosition

def key (p : RecordPosition) : ℕ ×ₗ ℕ := toLex (p.icount.toNat, p.seq.toNat)

lemma key_injective : Function.Injective key := by
  intro p q h
  have hpair : (p.icount.toNat, p.seq.toNat) = (q.icount.toNat, q.seq.toNat) := toLex.injective h
  rw [Prod.mk.injEq] at hpair
  exact RecordPosition.ext (UInt64.toNat_inj.mp hpair.1) (UInt32.toNat_inj.mp hpair.2)

instance : LinearOrder RecordPosition := LinearOrder.lift' key key_injective

lemma lt_iff {p q : RecordPosition} : p < q ↔ p.icount.toNat < q.icount.toNat ∨
      p.icount.toNat = q.icount.toNat ∧ p.seq.toNat < q.seq.toNat := Prod.Lex.toLex_lt_toLex

lemma icount_le_of_le {p q : RecordPosition} (h : p ≤ q) : p.icount ≤ q.icount := by
  rw [UInt64.le_iff_toNat_le]
  by_contra hlt
  exact absurd h (not_le.mpr (lt_iff.mpr (.inl (not_le.mp hlt))))

end RecordPosition

def saturatingSub (a b : UInt64) : UInt64 := if b ≤ a then a - b else 0

lemma toNat_saturatingSub (a b : UInt64) : (saturatingSub a b).toNat = a.toNat - b.toNat := by
  rw [saturatingSub]
  split
  next h => exact UInt64.toNat_sub_of_le _ _ h
  next h =>
    rw [UInt64.le_iff_toNat_le] at h
    rw [UInt64.toNat_zero]
    omega

structure IndexedEpochHash where
  epochIndex : UInt64
  position : RecordPosition

structure IndexedBisectionCheckpoint where
  position : RecordPosition
  checkpointIcount : UInt64
  checkpointVns : UInt64
  checkpointSnapshotRef : Hash
  maxCoveredGap : UInt32
  precedingEpochHash : IndexedEpochHash

namespace IndexedBisectionCheckpoint

def coverageIcountLo (c : IndexedBisectionCheckpoint) : UInt64 :=
  saturatingSub c.checkpointIcount c.maxCoveredGap.toUInt64

def coverageIcountHi (c : IndexedBisectionCheckpoint) : UInt64 := c.checkpointIcount

def coversEpochPosition (c : IndexedBisectionCheckpoint) (p : RecordPosition) : Bool :=
  c.coverageIcountLo ≤ p.icount ∧
    (p.icount < c.checkpointIcount ∨ p.icount = c.checkpointIcount ∧ p < c.position)

end IndexedBisectionCheckpoint

inductive BisectionDivergenceSite where
  | epochHash (epochIndex : UInt64) (position : RecordPosition)
  | terminal (position : RecordPosition)

structure SelectedBisectionCheckpoint where
  checkpoint : IndexedBisectionCheckpoint
  divergence : BisectionDivergenceSite
  coverageIcountLo : UInt64
  coverageIcountHi : UInt64

structure BisectionCheckpointIndex where
  checkpoints : List IndexedBisectionCheckpoint
  epochHashes : List IndexedEpochHash
  endPosition : Option RecordPosition

inductive IndexError where
  | unsupportedFormatVersion (seq : UInt32) (found : UInt16)
  | invalidFlags (seq : UInt32) (flags : UInt16)
  | icountMismatch (seq : UInt32) (recordIcount checkpointIcount : UInt64)
  | missingPrecedingEpochHash (checkpoint : RecordPosition)
  | checkpointDoesNotFollowEpochHash (checkpoint epochHash : RecordPosition)
  | checkpointSeparatedFromEpochHashByCanonicalRecord
      (checkpoint epochHash canonical : RecordPosition)
  | inconsistentSequenceOrdering (previous current : RecordPosition)
  | gapTooNarrow (seq : UInt32) (checkpointIcount : UInt64)
      (previousCheckpointIcount : Option UInt64) (maxCoveredGap : UInt32) (requiredGap : UInt64)

/-- The latest epoch hash at an icount, and the first canonical record behind it
at that icount. -/
structure EpochHashContext where
  epochHash : IndexedEpochHash
  interveningCanonical : Option RecordPosition

structure BisectionCheckpointCandidate where
  position : RecordPosition
  formatVersion : UInt16
  flags : UInt16
  maxCoveredGap : UInt32
  checkpointSnapshotRef : Hash
  checkpointIcount : UInt64
  checkpointVns : UInt64
  precedingEpochHash : Option IndexedEpochHash
  interveningCanonical : Option RecordPosition

/-! ## Scanning the records -/

def recordPosition (r : Record) : RecordPosition := ⟨r.icount, r.seq⟩

structure Scan where
  epochHashByIcount : UInt64 → Option EpochHashContext
  epochHashes : List IndexedEpochHash
  candidates : List BisectionCheckpointCandidate
  endPosition : Option RecordPosition

def Scan.start : Scan := ⟨fun _ => none, [], [], none⟩

/-- What a canonical record at `position` does to the epoch hash of its icount. -/
def EpochHashContext.seen (position : RecordPosition) (c : EpochHashContext) : EpochHashContext :=
  if c.epochHash.position < position ∧ c.interveningCanonical = none then
    { c with interveningCanonical := some position }
  else c

def Scan.note (s : Scan) (r : Record) (b : RecordBody) : Scan :=
  let position := recordPosition r
  match b with
  | .epochHash epochIndex _ =>
    { s with
      epochHashByIcount := Function.update s.epochHashByIcount position.icount
        (some ⟨⟨epochIndex, position⟩, none⟩)
      epochHashes := s.epochHashes ++ [⟨epochIndex, position⟩] }
  | .bisectionCheckpoint formatVersion flags maxCoveredGap snapshotRef icount vns =>
    let context := s.epochHashByIcount position.icount
    { s with
      candidates := s.candidates ++ [{
        position := position
        formatVersion := formatVersion
        flags := flags
        maxCoveredGap := maxCoveredGap
        checkpointSnapshotRef := snapshotRef
        checkpointIcount := icount
        checkpointVns := vns
        precedingEpochHash := context.map EpochHashContext.epochHash
        interveningCanonical := context.bind EpochHashContext.interveningCanonical }] }
  | .end _ _ => { s with endPosition := some position }
  | _ =>
    if r.isAux then s
    else
      { s with
        epochHashByIcount := Function.update s.epochHashByIcount position.icount
          ((s.epochHashByIcount position.icount).map (.seen position)) }

/-- A computation that has no errors of its own, within one that has. -/
def lift {α : Type} (x : Exec Empty α) : Exec IndexError α := x.mapError (Trap.map Empty.elim)

def scanRecord (s : Scan) (r : Record) : Exec IndexError Scan := do
  let b ← lift r.body
  .ok (s.note r b)

structure Validation where
  checkpoints : List IndexedBisectionCheckpoint
  previousPosition : Option RecordPosition
  previousCheckpointIcount : Option UInt64

def Validation.start : Validation := ⟨[], none, none⟩

section Candidates

variable (s : Validation) (c : BisectionCheckpointCandidate)

def checkOrder : Exec IndexError Unit :=
  match s.previousPosition with
  | none => .ok ()
  | some previous =>
    rejectIf (c.position ≤ previous) (.inconsistentSequenceOrdering previous c.position)

def precedingEpochHash : Exec IndexError IndexedEpochHash :=
  match c.precedingEpochHash with
  | none => reject (.missingPrecedingEpochHash c.position)
  | some epochHash => .ok epochHash

def checkAdjacent (epochHash : IndexedEpochHash) : Exec IndexError Unit :=
  match c.interveningCanonical with
  | none => .ok ()
  | some canonical =>
    reject (.checkpointSeparatedFromEpochHashByCanonicalRecord c.position epochHash.position
      canonical)

-- the argument of `ok_or` is evaluated before the subtraction is looked at
def requiredGap : Exec IndexError UInt64 :=
  match s.previousCheckpointIcount with
  | none => .ok c.checkpointIcount
  | some previousIcount =>
    match s.previousPosition with
    | none => .error .panic
    | some previous =>
      if previousIcount ≤ c.checkpointIcount then .ok (c.checkpointIcount - previousIcount)
      else reject (.inconsistentSequenceOrdering previous c.position)

def validateCandidate : Exec IndexError Validation := do
  rejectIf (c.formatVersion ≠ bisectionCheckpointFormatVersion)
    (.unsupportedFormatVersion c.position.seq c.formatVersion)
  rejectIf (c.flags ≠ bisectionCheckpointFlags) (.invalidFlags c.position.seq c.flags)
  rejectIf (c.position.icount ≠ c.checkpointIcount)
    (.icountMismatch c.position.seq c.position.icount c.checkpointIcount)
  checkOrder s c
  let epochHash ← precedingEpochHash c
  rejectIf (epochHash.position.icount ≠ c.position.icount ∨ c.position ≤ epochHash.position)
    (.checkpointDoesNotFollowEpochHash c.position epochHash.position)
  checkAdjacent c epochHash
  let requiredGap ← requiredGap s c
  rejectIf (c.maxCoveredGap.toUInt64 < requiredGap)
    (.gapTooNarrow c.position.seq c.checkpointIcount s.previousCheckpointIcount c.maxCoveredGap
      requiredGap)
  .ok {
    checkpoints := s.checkpoints ++ [{
      position := c.position
      checkpointIcount := c.checkpointIcount
      checkpointVns := c.checkpointVns
      checkpointSnapshotRef := c.checkpointSnapshotRef
      maxCoveredGap := c.maxCoveredGap
      precedingEpochHash := epochHash }]
    previousPosition := some c.position
    previousCheckpointIcount := some c.checkpointIcount }

end Candidates

namespace BisectionCheckpointIndex

def fromCandidates (epochHashes : List IndexedEpochHash) (endPosition : Option RecordPosition)
    (candidates : List BisectionCheckpointCandidate) :
    Exec IndexError BisectionCheckpointIndex := do
  let s ← candidates.foldlM validateCandidate .start
  .ok ⟨s.checkpoints, epochHashes, endPosition⟩

def fromReader (reader : LogReader) : Exec IndexError BisectionCheckpointIndex := do
  let records ← lift reader.records
  let s ← records.foldlM scanRecord .start
  fromCandidates s.epochHashes s.endPosition s.candidates

def selectEpochHashDivergence (index : BisectionCheckpointIndex) (epochIndex atIcount : UInt64) :
    Option SelectedBisectionCheckpoint := do
  let epochHash ← index.epochHashes.find? fun epoch =>
    epoch.epochIndex == epochIndex && epoch.position.icount == atIcount
  (index.checkpoints.find? (·.coversEpochPosition epochHash.position)).map fun checkpoint => {
    checkpoint := checkpoint
    divergence := .epochHash epochIndex epochHash.position
    coverageIcountLo := checkpoint.coverageIcountLo
    coverageIcountHi := checkpoint.coverageIcountHi }

def selectTerminalDivergence (index : BisectionCheckpointIndex) (endIcount : UInt64) :
    Option SelectedBisectionCheckpoint := do
  let endPosition ← index.endPosition
  if endPosition.icount ≠ endIcount then none
  else
    (index.checkpoints.reverse.find? fun checkpoint =>
      decide (checkpoint.position < endPosition ∧ checkpoint.checkpointIcount ≤ endIcount)).map
        fun checkpoint => {
          checkpoint := checkpoint
          divergence := .terminal endPosition
          coverageIcountLo := checkpoint.coverageIcountLo
          coverageIcountHi := endIcount }

end BisectionCheckpointIndex

/-! ## What the scan collects -/

def epochHash? (r : Record) : Option IndexedEpochHash :=
  match r.body with
  | .ok (.epochHash epochIndex _) => some ⟨epochIndex, recordPosition r⟩
  | _ => none

def isCheckpoint (r : Record) : Bool :=
  match r.body with
  | .ok (.bisectionCheckpoint _ _ _ _ _ _) => true
  | _ => false

def BisectionCheckpointCandidate.Of (r : Record) (c : BisectionCheckpointCandidate) : Prop :=
  c.position = recordPosition r ∧ r.body = .ok (.bisectionCheckpoint c.formatVersion c.flags
    c.maxCoveredGap c.checkpointSnapshotRef c.checkpointIcount c.checkpointVns)

structure Scanned (rs : List Record) (s : Scan) : Prop where
  epochHashes : s.epochHashes = rs.filterMap epochHash?
  candidates : List.Forall₂ (fun r c => c.Of r) (rs.filter isCheckpoint) s.candidates

variable {c : BisectionCheckpointCandidate} {chainValue : Hash}
  {cps : List IndexedBisectionCheckpoint} {e r : Record} {epochIndex : UInt64}
  {index : BisectionCheckpointIndex} {p : RecordPosition} {post pre rs : List Record}
  {s : Validation}

lemma Scanned.note {s : Scan} (h : Scanned rs s) {b : RecordBody} (hb : r.body = .ok b) :
    Scanned (rs ++ [r]) (s.note r b) := by
  cases b with
  | epochHash | «end» =>
    constructor
    · simp [Scan.note, epochHash?, hb, h.epochHashes]
    · simpa [Scan.note, isCheckpoint, hb] using h.candidates
  | bisectionCheckpoint formatVersion flags maxCoveredGap snapshotRef icount vns =>
    constructor
    · simp [Scan.note, epochHash?, hb, h.epochHashes]
    · rw [filter_append]
      refine rel_append h.candidates ?_
      simp [isCheckpoint, hb, BisectionCheckpointCandidate.Of]
  | _ =>
    constructor
    · simp only [Scan.note]
      split <;> simp [epochHash?, hb, h.epochHashes]
    · simp only [Scan.note]
      split <;> simpa [isCheckpoint, hb] using h.candidates

lemma lift_eq_ok_iff {α : Type} {x : Exec Empty α} {a : α} : lift x = .ok a ↔ x = .ok a :=
  mapError_eq_ok

lemma scanned_of_foldlM {s : Scan} (h : rs.foldlM scanRecord .start = .ok s) : Scanned rs s := by
  refine foldlM_induct ⟨rfl, .nil⟩ (fun pre s r s' hs hr => ?_) h
  rw [scanRecord, bind_eq_ok] at hr
  obtain ⟨b, hb, hnote⟩ := hr
  cases hnote
  exact hs.note (lift_eq_ok_iff.mp hb)

/-! ## What the validation establishes -/

def lastIcount (cps : List IndexedBisectionCheckpoint) : UInt64 :=
  (cps.getLast?.map IndexedBisectionCheckpoint.checkpointIcount).getD 0

/-- Checkpoints in order, each at its own icount and with a window that reaches
back to the one before it. -/
structure Covering (cps : List IndexedBisectionCheckpoint) : Prop where
  ascending : cps.Pairwise fun c d => c.position < d.position
  anchored : ∀ c ∈ cps, c.checkpointIcount = c.position.icount
  reaches : ∀ pre c post, cps = pre ++ c :: post → c.coverageIcountLo ≤ lastIcount pre

lemma covering_nil : Covering [] where
  ascending := .nil
  anchored := by simp
  reaches := by simp

lemma Covering.snoc {c : IndexedBisectionCheckpoint} (h : Covering cps)
    (hlast : ∀ last ∈ cps.getLast?, last.position < c.position)
    (hicount : c.checkpointIcount = c.position.icount) (hlo : c.coverageIcountLo ≤ lastIcount cps) :
    Covering (cps ++ [c]) where
  ascending := by
    rw [pairwise_append]
    refine ⟨h.ascending, pairwise_singleton _ _, fun d hd c' hc' => ?_⟩
    rw [mem_singleton.mp hc']
    cases cps using reverseRecOn with
    | nil => cases hd
    | append_singleton cps last =>
      have hlt : last.position < c.position := hlast last (by simp)
      obtain hd | hd := mem_append.mp hd
      · exact ((pairwise_append.mp h.ascending).2.2 d hd last (by simp)).trans hlt
      · rwa [mem_singleton.mp hd]
  anchored d hd := by
    obtain hd | hd := mem_append.mp hd
    · exact h.anchored d hd
    · rwa [mem_singleton.mp hd]
  reaches pre d post hcut := by
    obtain ⟨rfl, hd, -⟩ | ⟨post', rfl, hcps⟩ : (pre = cps ∧ d = c ∧ post = []) ∨
        ∃ post', post = post' ++ [c] ∧ cps = pre ++ d :: post' := by
      cases post using reverseRecOn with
      | nil =>
        obtain ⟨hpre, hc⟩ := append_inj' hcut rfl
        exact .inl ⟨hpre.symm, (singleton_inj.mp hc).symm, rfl⟩
      | append_singleton post x =>
        rw [← cons_append, ← append_assoc] at hcut
        obtain ⟨hcps, hx⟩ := append_inj' hcut rfl
        exact .inr ⟨post, by rw [singleton_inj.mp hx], hcps⟩
    · rwa [hd]
    · exact h.reaches pre d post' hcps

def IndexedBisectionCheckpoint.From (c : BisectionCheckpointCandidate)
    (k : IndexedBisectionCheckpoint) : Prop :=
  k.position = c.position ∧ k.checkpointIcount = c.checkpointIcount ∧
    k.checkpointVns = c.checkpointVns ∧ k.checkpointSnapshotRef = c.checkpointSnapshotRef ∧
    k.maxCoveredGap = c.maxCoveredGap

lemma checkOrder_eq_ok_iff {u : Unit} :
    checkOrder s c = .ok u ↔ ∀ p ∈ s.previousPosition, p < c.position := by
  cases h : s.previousPosition with
  | none => simp [checkOrder, h]
  | some previous => simp [checkOrder, h, rejectIf_eq_ok_iff]

lemma le_of_requiredGap {gap : UInt64} (h : requiredGap s c = .ok gap) :
    c.checkpointIcount.toNat - gap.toNat ≤ (s.previousCheckpointIcount.getD 0).toNat := by
  cases hicount : s.previousCheckpointIcount with
  | none =>
    simp only [requiredGap, hicount, Except.ok.injEq] at h
    rw [h, Nat.sub_self]
    exact Nat.zero_le _
  | some previousIcount =>
    cases hposition : s.previousPosition with
    | none => simp [requiredGap, hicount, hposition] at h
    | some previous =>
      by_cases hle : previousIcount ≤ c.checkpointIcount
      · simp only [requiredGap, hicount, hposition, if_pos hle, Except.ok.injEq] at h
        rw [← h, UInt64.toNat_sub_of_le _ _ hle, getD_some]
        omega
      · simp [requiredGap, hicount, hposition, hle] at h

lemma validateCandidate_eq_ok {s' : Validation} (h : validateCandidate s c = .ok s') :
    ∃ k : IndexedBisectionCheckpoint,
      s' = ⟨s.checkpoints ++ [k], some k.position, some k.checkpointIcount⟩ ∧ k.From c ∧
      k.checkpointIcount = k.position.icount ∧ (∀ p ∈ s.previousPosition, p < k.position) ∧
      k.coverageIcountLo ≤ s.previousCheckpointIcount.getD 0 := by
  simp only [validateCandidate, bind_eq_ok, rejectIf_eq_ok_iff, checkOrder_eq_ok_iff, not_not,
    exists_const, ne_eq, Except.ok.injEq] at h
  obtain ⟨-, -, hicount, horder, epochHash, -, -, -, -, gap, hgap, hwide, rfl⟩ := h
  refine ⟨_, rfl, ⟨rfl, rfl, rfl, rfl, rfl⟩, hicount.symm, horder, ?_⟩
  have hreach := le_of_requiredGap hgap
  rw [UInt64.lt_iff_toNat_lt] at hwide
  rw [UInt64.le_iff_toNat_le, IndexedBisectionCheckpoint.coverageIcountLo, toNat_saturatingSub]
  dsimp only
  omega

structure Validated (cs : List BisectionCheckpointCandidate) (s : Validation) : Prop where
  made : List.Forall₂ (fun c k => k.From c) cs s.checkpoints
  previousPosition : s.previousPosition = s.checkpoints.getLast?.map (·.position)
  previousIcount : s.previousCheckpointIcount = s.checkpoints.getLast?.map (·.checkpointIcount)
  covering : Covering s.checkpoints

lemma validated_of_foldlM {cs : List BisectionCheckpointCandidate}
    (h : cs.foldlM validateCandidate .start = .ok s) : Validated cs s := by
  refine foldlM_induct ⟨.nil, rfl, rfl, covering_nil⟩ (fun pre s c s' hs hvalid => ?_) h
  obtain ⟨k, rfl, hfrom, hicount, horder, hlo⟩ := validateCandidate_eq_ok hvalid
  rw [hs.previousIcount] at hlo
  rw [hs.previousPosition] at horder
  refine ⟨rel_append hs.made (.cons hfrom .nil), by simp, by simp, ?_⟩
  exact hs.covering.snoc (fun last hlast => horder _ (mem_map_of_mem _ hlast)) hicount hlo

def IndexedBisectionCheckpoint.Of (r : Record) (k : IndexedBisectionCheckpoint) : Prop :=
  k.position = recordPosition r ∧ ∃ formatVersion flags, r.body = .ok (.bisectionCheckpoint
    formatVersion flags k.maxCoveredGap k.checkpointSnapshotRef k.checkpointIcount k.checkpointVns)

lemma IndexedBisectionCheckpoint.From.of {k : IndexedBisectionCheckpoint} (hk : k.From c)
    (hc : c.Of r) : k.Of r := by
  obtain ⟨hposition, hicount, hvns, href, hgap⟩ := hk
  refine ⟨hposition.trans hc.1, c.formatVersion, c.flags, ?_⟩
  rw [hicount, hvns, href, hgap]
  exact hc.2

structure Indexes (rs : List Record) (index : BisectionCheckpointIndex) : Prop where
  epochHashes : index.epochHashes = rs.filterMap epochHash?
  checkpoints : List.Forall₂ (fun r k => k.Of r) (rs.filter isCheckpoint) index.checkpoints
  covering : Covering index.checkpoints

lemma forall₂_comp {α β γ : Type} {R : α → β → Prop} {S : β → γ → Prop} {T : α → γ → Prop}
    (hT : ∀ a b c, R a b → S b c → T a c) {as : List α} {bs : List β} {cs : List γ}
    (hR : List.Forall₂ R as bs) (hS : List.Forall₂ S bs cs) : List.Forall₂ T as cs := by
  induction hR generalizing cs with
  | nil =>
    cases hS
    exact .nil
  | cons ha _ ih =>
    cases hS with
    | cons hb hrest => exact .cons (hT _ _ _ ha hb) (ih hrest)

lemma indexes_of_fromReader {reader : LogReader} (hrs : reader.records = .ok rs)
    (h : BisectionCheckpointIndex.fromReader reader = .ok index) :
    Indexes rs index ∧ ∃ s, rs.foldlM scanRecord .start = .ok s ∧
      index.endPosition = s.endPosition := by
  simp only [BisectionCheckpointIndex.fromReader, BisectionCheckpointIndex.fromCandidates,
    bind_eq_ok, lift_eq_ok_iff, Except.ok.injEq, hrs] at h
  obtain ⟨_, rfl, s, hscan, v, hvalid, rfl⟩ := h
  have hscanned := scanned_of_foldlM hscan
  have hvalidated := validated_of_foldlM hvalid
  exact ⟨⟨hscanned.epochHashes, forall₂_comp (fun _ _ _ hc hk => hk.of hc) hscanned.candidates
    hvalidated.made, hvalidated.covering⟩, s, hscan, rfl⟩

lemma IndexedBisectionCheckpoint.coversEpochPosition_iff {c : IndexedBisectionCheckpoint}
    (h : c.checkpointIcount = c.position.icount) :
    c.coversEpochPosition p = true ↔ c.coverageIcountLo ≤ p.icount ∧ p < c.position := by
  rw [coversEpochPosition, decide_eq_true_iff]
  refine and_congr_right fun _ => ?_
  rw [h, RecordPosition.lt_iff, UInt64.lt_iff_toNat_lt, ← UInt64.toNat_inj]
  omega

lemma lastIcount_le (hanchored : ∀ c ∈ cps, c.checkpointIcount = c.position.icount)
    (hp : ∀ c ∈ cps, ¬p < c.position) : lastIcount cps ≤ p.icount := by
  cases cps using reverseRecOn with
  | nil => simp [lastIcount]
  | append_singleton cps last =>
    have hmem : last ∈ cps ++ [last] := by simp
    have hlast : lastIcount (cps ++ [last]) = last.position.icount := by
      rw [← hanchored last hmem]
      simp [lastIcount]
    rw [hlast]
    exact RecordPosition.icount_le_of_le (not_lt.mp (hp last hmem))

lemma Covering.find?_covers (h : Covering cps) (p : RecordPosition) :
    cps.find? (·.coversEpochPosition p) = cps.find? fun c => decide (p < c.position) := by
  cases hfind : cps.find? fun c => decide (p < c.position) with
  | none =>
    rw [find?_eq_none] at hfind ⊢
    intro c hc hcovers
    apply hfind c hc
    rw [decide_eq_true_iff]
    exact ((IndexedBisectionCheckpoint.coversEpochPosition_iff (h.anchored c hc)).mp hcovers).2
  | some c =>
    rw [find?_eq_some_iff_append] at hfind ⊢
    obtain ⟨hc, pre, post, hcut, hpre⟩ := hfind
    have hbehind : ∀ d ∈ pre, ¬p < d.position := by
      intro d hd
      simpa using hpre d hd
    have hanchored (d : IndexedBisectionCheckpoint) (hd : d ∈ pre) :
        d.checkpointIcount = d.position.icount := h.anchored d (by simp [hcut, hd])
    have hlo : c.coverageIcountLo ≤ p.icount :=
      UInt64.le_trans (h.reaches pre c post hcut) (lastIcount_le hanchored hbehind)
    refine ⟨?_, pre, post, hcut, fun d hd => ?_⟩
    · rw [IndexedBisectionCheckpoint.coversEpochPosition_iff (h.anchored c (by simp [hcut]))]
      exact ⟨hlo, by simpa using hc⟩
    · rw [Bool.not_eq_true', ← Bool.not_eq_true,
        IndexedBisectionCheckpoint.coversEpochPosition_iff (hanchored d hd)]
      exact fun hcovers => hbehind d hd hcovers.2

lemma pairwise_position_of_sequenced (h : Sequenced rs) :
    rs.Pairwise fun r t => recordPosition r < recordPosition t := by
  have hicount := pairwise_iff_getElem.mp h.pairwise_icount
  rw [pairwise_iff_getElem]
  intro i j hi hj hij
  have hle := UInt64.le_iff_toNat_le.mp (hicount i j hi hj hij)
  have hseqi := h.seq_eq (getElem?_eq_getElem hi)
  have hseqj := h.seq_eq (getElem?_eq_getElem hj)
  rw [RecordPosition.lt_iff]
  simp only [recordPosition]
  omega

section

variable (h : Indexes rs index)
include h

lemma Indexes.find?_epochHash (hcut : rs = pre ++ e :: post)
    (he : e.body = .ok (.epochHash epochIndex chainValue))
    (hfirst : ∀ r ∈ pre, ∀ chainValue', r.body = .ok (.epochHash epochIndex chainValue') →
      r.icount ≠ e.icount) : index.epochHashes.find? (fun epoch => epoch.epochIndex == epochIndex &&
      epoch.position.icount == e.icount) = some ⟨epochIndex, recordPosition e⟩ := by
  have hhash : epochHash? e = some ⟨epochIndex, recordPosition e⟩ := by simp [epochHash?, he]
  rw [h.epochHashes, hcut, filterMap_append, filterMap_cons_some hhash,
    find?_append, find?_eq_none.mpr ?_, none_or, find?_cons_of_pos]
  · simp [recordPosition]
  · intro epoch hepoch hmatch
    obtain ⟨r, hr, hepoch⟩ := mem_filterMap.mp hepoch
    rw [Bool.and_eq_true, beq_iff_eq, beq_iff_eq] at hmatch
    cases hbody : r.body with
    | error t => simp [epochHash?, hbody] at hepoch
    | ok b =>
      cases b with
      | epochHash i v =>
        simp only [epochHash?, hbody] at hepoch
        cases hepoch
        obtain ⟨rfl, hicount⟩ := hmatch
        exact hfirst r hr v hbody hicount
      | _ => simp [epochHash?, hbody] at hepoch

lemma Indexes.positions_eq :
    index.checkpoints.map (·.position) = (rs.filter isCheckpoint).map recordPosition := by
  have hall := h.checkpoints
  generalize rs.filter isCheckpoint = ks at hall ⊢
  generalize index.checkpoints = cs at hall ⊢
  induction hall with
  | nil => rfl
  | cons hk _ ih => rw [map_cons, map_cons, hk.1, ih]

lemma Indexes.forall_position_iff {Q : RecordPosition → Prop} :
    (∀ k ∈ index.checkpoints, Q k.position) ↔
      ∀ r ∈ rs, isCheckpoint r = true → Q (recordPosition r) := by
  rw [← List.forall_mem_map, h.positions_eq, List.forall_mem_map, List.forall_mem_filter]

lemma Indexes.selectEpochHashDivergence_eq (hcut : rs = pre ++ e :: post)
    (he : e.body = .ok (.epochHash epochIndex chainValue))
    (hfirst : ∀ r ∈ pre, ∀ chainValue', r.body = .ok (.epochHash epochIndex chainValue') →
      r.icount ≠ e.icount) :
    index.selectEpochHashDivergence epochIndex e.icount =
      (index.checkpoints.find? fun c => decide (recordPosition e < c.position)).map fun c =>
        ⟨c, .epochHash epochIndex (recordPosition e), c.coverageIcountLo, c.coverageIcountHi⟩ := by
  rw [BisectionCheckpointIndex.selectEpochHashDivergence, h.find?_epochHash hcut he hfirst,
    ← h.covering.find?_covers]
  rfl

end

lemma scan_endPosition {stopReason : UInt8} {endStateHash : Hash} {s : Scan}
    (he : e.body = .ok (.end stopReason endStateHash))
    (h : (rs ++ [e]).foldlM scanRecord .start = .ok s) :
    s.endPosition = some (recordPosition e) := by
  rw [foldlM_append, bind_eq_ok] at h
  obtain ⟨s1, -, hlast⟩ := h
  rw [foldlM_cons, bind_eq_ok] at hlast
  obtain ⟨s2, hstep, hs⟩ := hlast
  cases hs
  rw [scanRecord, lift_eq_ok_iff.mpr he, ok_bind, Except.ok.injEq] at hstep
  rw [← hstep]
  rfl

lemma find?_eq_head?_of_forall {α : Type} {q : α → Bool} {l : List α} (h : ∀ a ∈ l, q a = true) :
    l.find? q = l.head? := by
  cases l with
  | nil => rfl
  | cons a l => rw [find?_cons_of_pos (h a mem_cons_self), head?_cons]

lemma selectTerminalDivergence_eq (hcovering : Covering index.checkpoints)
    (hend : index.endPosition = some p) (hbefore : ∀ c ∈ index.checkpoints, c.position < p) :
    index.selectTerminalDivergence p.icount = index.checkpoints.getLast?.map fun c =>
      ⟨c, .terminal p, c.coverageIcountLo, p.icount⟩ := by
  have hall : ∀ c ∈ index.checkpoints.reverse,
      decide (c.position < p ∧ c.checkpointIcount ≤ p.icount) = true := by
    intro c hc
    rw [mem_reverse] at hc
    rw [decide_eq_true_iff, hcovering.anchored c hc]
    exact ⟨hbefore c hc, RecordPosition.icount_le_of_le (hbefore c hc).le⟩
  rw [BisectionCheckpointIndex.selectTerminalDivergence, hend]
  simp only [bind_eq_bind, bind_some, ne_eq, not_true_eq_false, if_false,
    find?_eq_head?_of_forall hall, head?_reverse]

/-- The windows of the index: which checkpoint a divergence selects, and what its
window contains. -/
theorem bisection_windows_exact (blake3 : List UInt8 → Hash) (bytes : Slice) (reader : LogReader)
    (index : BisectionCheckpointIndex) (hparse : LogReader.parse blake3 bytes = .ok reader)
    (hindex : BisectionCheckpointIndex.fromReader reader = .ok index) :
    ∃ rs : List Record, reader.records = .ok rs ∧
      -- the index holds the checkpoint records of the log, in order
      List.Forall₂ (fun r k => k.Of r) (rs.filter isCheckpoint) index.checkpoints ∧
      index.checkpoints.Pairwise (fun c d => c.position < d.position) ∧
      -- the first epoch hash of its index and icount
      (∀ (pre post : List Record) (e : Record) (epochIndex : UInt64) (chainValue : Hash),
        rs = pre ++ e :: post → e.body = .ok (.epochHash epochIndex chainValue) →
        (∀ r ∈ pre, ∀ chainValue', r.body = .ok (.epochHash epochIndex chainValue') →
          r.icount ≠ e.icount) →
        (index.selectEpochHashDivergence epochIndex e.icount = none ↔
          ∀ r ∈ rs, isCheckpoint r = true → ¬recordPosition e < recordPosition r) ∧
        ∀ sel, index.selectEpochHashDivergence epochIndex e.icount = some sel →
          ∃ before after, index.checkpoints = before ++ sel.checkpoint :: after ∧
            recordPosition e < sel.checkpoint.position ∧
            (∀ c ∈ before, ¬recordPosition e < c.position) ∧
            sel.divergence = .epochHash epochIndex (recordPosition e) ∧
            sel.coverageIcountLo ≤ e.icount ∧ e.icount ≤ sel.coverageIcountHi ∧
            sel.coverageIcountHi = sel.checkpoint.checkpointIcount ∧
            sel.coverageIcountLo = sel.checkpoint.coverageIcountLo ∧
            sel.coverageIcountLo ≤ lastIcount before) ∧
      -- consecutive windows meet, the first one at the segment's start
      (∀ before c d after, index.checkpoints = before ++ c :: d :: after →
        d.coverageIcountLo ≤ c.coverageIcountHi) ∧
      (∀ c after, index.checkpoints = c :: after → c.coverageIcountLo = 0) ∧
      -- the end of the log
      ∃ e, rs.getLast? = some e ∧ e.isEnd = true ∧ e.icount = reader.header.endIcount ∧
        (∀ c ∈ index.checkpoints, c.position < recordPosition e) ∧
        index.selectTerminalDivergence reader.header.endIcount =
          index.checkpoints.getLast?.map fun c =>
            ⟨c, .terminal (recordPosition e), c.coverageIcountLo, reader.header.endIcount⟩ := by
  obtain ⟨header, body⟩ := reader
  obtain ⟨-, -, -, hbody, rs, e, hsealed⟩ := LogReader.sealedBody_of_parse hparse
  have hrs := hsealed.records_eq hbody
  obtain ⟨h, s, hscan, hend⟩ := indexes_of_fromReader hrs hindex
  refine ⟨rs ++ [e], hrs, h.checkpoints, h.covering.ascending, ?_, ?_, ?_, e, by simp,
    hsealed.isEnd, hsealed.endAgrees.icount, ?_⟩
  · intro pre post r epochIndex chainValue hcut hr hfirst
    rw [h.selectEpochHashDivergence_eq hcut hr hfirst]
    constructor
    · rw [map_eq_none_iff, find?_eq_none]
      simp only [decide_eq_true_iff]
      exact h.forall_position_iff (Q := fun p => ¬recordPosition r < p)
    · intro sel hsel
      obtain ⟨c, hc, rfl⟩ := map_eq_some_iff.mp hsel
      have hcovers : c.coversEpochPosition (recordPosition r) = true := by
        rw [← h.covering.find?_covers] at hc
        exact find?_some (p := fun k : IndexedBisectionCheckpoint =>
          k.coversEpochPosition (recordPosition r)) hc
      obtain ⟨hlt, before, after, hcheckpoints, hbefore⟩ := find?_eq_some_iff_append.mp hc
      have hmem : c ∈ index.checkpoints := by simp [hcheckpoints]
      have hanchored := h.covering.anchored c hmem
      obtain ⟨hlo, -⟩ :=
        (IndexedBisectionCheckpoint.coversEpochPosition_iff hanchored).mp hcovers
      rw [decide_eq_true_iff] at hlt
      have hhi : r.icount ≤ c.checkpointIcount := by
        rw [hanchored]
        exact RecordPosition.icount_le_of_le hlt.le
      exact ⟨before, after, hcheckpoints, hlt, by simpa using hbefore, rfl, hlo, hhi, rfl, rfl,
        h.covering.reaches before c after hcheckpoints⟩
  · intro before c d after hcut
    have hreaches := h.covering.reaches (before ++ [c]) d after (by simp [hcut])
    simpa [lastIcount, IndexedBisectionCheckpoint.coverageIcountHi] using hreaches
  · intro c after hcut
    have hreaches := h.covering.reaches [] c after hcut
    rw [UInt64.le_iff_toNat_le] at hreaches
    exact UInt64.toNat_inj.mp (Nat.le_zero.mp hreaches)
  · obtain ⟨stopReason, endStateHash, he⟩ :=
      (hsealed.sequenced.valid (by simp : e ∈ rs ++ [e])).body_of_isEnd hsealed.isEnd
    have hbefore : ∀ c ∈ index.checkpoints, c.position < recordPosition e := by
      rw [h.forall_position_iff (Q := (· < recordPosition e))]
      intro r hr hcheckpoint
      obtain hr | hr := mem_append.mp hr
      · exact (pairwise_append.mp (pairwise_position_of_sequenced hsealed.sequenced)).2.2 r hr e
          (by simp)
      · rw [mem_singleton.mp hr, isCheckpoint, he] at hcheckpoint
        cases hcheckpoint
    have hterminal := selectTerminalDivergence_eq h.covering
      (hend.trans (scan_endPosition he hscan)) hbefore
    have hicount : (recordPosition e).icount = header.endIcount := hsealed.endAgrees.icount
    rw [hicount] at hterminal
    exact ⟨hbefore, hterminal⟩

def sampleCalls : List Call :=
  [⟨5, 0x1000, .epochHash 1 (.replicate 32 7)⟩,
    ⟨5, 0x1000, .bisectionCheckpoint 5 (.replicate 32 3) 7⟩]

def sampleSegment : SegmentHeader := ⟨.replicate 32 1, .replicate 32 0, .replicate 32 2, 1, 1, 0⟩

def sampleParams : SealParams := ⟨.replicate 32 0, 9, 9, .replicate 32 7, 2⟩

lemma sequenced_sample :
    Sequenced (recordsOf sampleCalls ++ [sampleParams.record (recordsOf sampleCalls).length]) := by
  have hcalls : ∃ w, (LogWriter.new sampleSegment).appendAll sampleCalls = .ok w := ⟨_, rfl⟩
  obtain ⟨w, hw⟩ := hcalls
  have hrecords := (LogWriter.appendAll_new_eq_ok_iff.mp hw).1
  refine sequenced_snoc.mpr ⟨hrecords, sampleParams.valid_record _, rfl, fun _ => ?_⟩
  decide

def sampleLog : Slice :=
  ⟨(sealedHeader (fun _ => .replicate 32 9) sampleSegment sampleParams
      (recordsOf sampleCalls)).bytes ++
    image (recordsOf sampleCalls ++ [sampleParams.record (recordsOf sampleCalls).length]), by
      decide +kernel⟩

theorem bisection_windows_sampleLog : ∃ reader index c,
      LogReader.parse (fun _ => .replicate 32 9) sampleLog = .ok reader ∧
      BisectionCheckpointIndex.fromReader reader = .ok index ∧ index.checkpoints = [c] ∧
      c.coverageIcountLo = 0 ∧ c.coverageIcountHi = 5 := by
  have hclock : sampleSegment.clockDen ≠ 0 := by decide
  have hparse := parse_sealedHeader (fun _ => .replicate 32 9) hclock not_isEnd_recordsOf
    sequenced_sample
  have hrecords := (sealedBody_of_sequenced (fun _ => .replicate 32 9) sampleSegment
    not_isEnd_recordsOf sequenced_sample).records_eq sequenced_sample.length_image_lt
  obtain ⟨index, c, hindex, hc, hhi⟩ : ∃ index c,
      BisectionCheckpointIndex.fromReader ⟨sealedHeader (fun _ => .replicate 32 9) sampleSegment
        sampleParams (recordsOf sampleCalls), image (recordsOf sampleCalls ++
          [sampleParams.record (recordsOf sampleCalls).length])⟩ = .ok index ∧
      index.checkpoints = [c] ∧ c.coverageIcountHi = 5 := by
    rw [BisectionCheckpointIndex.fromReader, hrecords]
    exact ⟨_, _, rfl, rfl, rfl⟩
  obtain ⟨rs, -, -, -, -, -, hfirst, -⟩ :=
    bisection_windows_exact (fun _ => .replicate 32 9) sampleLog _ index hparse hindex
  exact ⟨_, index, c, hparse, hindex, hc, hfirst c [] hc, hhi⟩

end DetHypervisor.Dhilog.Bisection
