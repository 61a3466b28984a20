import DetHypervisor.Relog
import DetHypervisor.Sessions

/-!
# What a replay does not look at

A replay takes the instruction pointers and frame hints of canonical records from the log and
writes them into its own. So a log with others replays the same way.
-/

namespace DetHypervisor

open List Except RecordBody ReplayState

variable {H σ X : Type}

def RecordBody.withHint (hint : ℕ → ℕ) : RecordBody H → RecordBody H
  | .padSet port buttons frameHint => .padSet port buttons (hint frameHint)
  | body => body

/-- New instruction pointers and frame hints, count by count. Permutations keep
apart what was apart. -/
structure Retouch where
  rip : ℕ → Equiv.Perm ℕ
  hint : ℕ → Equiv.Perm ℕ

namespace Retouch

variable (t : Retouch) (P : Platform H σ X)

def record (r : Record H) : Record H :=
  if r.body.applied P then
    { r with
      boundaryRip := t.rip r.icount r.boundaryRip
      body := r.body.withHint (t.hint r.icount) }
  else r

variable {t P} {r : Record H}

lemma record_of_applied (h : r.body.applied P = true) :
    t.record P r = ⟨r.seq, r.icount, t.rip r.icount r.boundaryRip,
      r.body.withHint (t.hint r.icount)⟩ := if_pos h

lemma record_of_not_applied (h : r.body.applied P = false) : t.record P r = r :=
  if_neg ((Bool.not_eq_true _).mpr h)

@[simp] lemma record_seq (r : Record H) : (t.record P r).seq = r.seq := by
  unfold record
  split_ifs <;> rfl

@[simp] lemma record_icount (r : Record H) : (t.record P r).icount = r.icount := by
  unfold record
  split_ifs <;> rfl

lemma record_body_eq {α : Type} (f : RecordBody H → α)
    (hf : ∀ hint body, f (body.withHint hint) = f body) (r : Record H) :
    f (t.record P r).body = f r.body := by
  unfold record
  split_ifs
  · exact hf _ _
  · rfl

end Retouch

section Bodies

variable (hint : ℕ → ℕ) (body : RecordBody H)

lemma RecordBody.isCanonical_withHint : (body.withHint hint).isCanonical = body.isCanonical := by
  cases body <;> rfl

lemma RecordBody.isChannelGenerated_withHint :
    (body.withHint hint).isChannelGenerated = body.isChannelGenerated := by
  cases body <;> rfl

lemma RecordBody.layoutError_withHint : (body.withHint hint).layoutError = body.layoutError := by
  cases body <;> rfl

lemma RecordBody.isCheckpoint_withHint : (body.withHint hint).isCheckpoint = body.isCheckpoint := by
  cases body <;> rfl

lemma RecordBody.isChannelEvent_withHint (eventType : ℕ) :
    (body.withHint hint).isChannelEvent eventType = body.isChannelEvent eventType := by
  cases body <;> rfl

lemma isSdkEvent_withHint : isSdkEvent (body.withHint hint) = isSdkEvent body := by
  cases body <;> rfl

lemma RecordBody.applied_withHint (P : Platform H σ X) :
    (body.withHint hint).applied P = body.applied P := by
  rw [applied, applied, isCanonical_withHint, isChannelGenerated_withHint]

end Bodies

section Logs

variable {t : Retouch} {P : Platform H σ X} {body : RecordBody H} {icount rip : ℕ} {r : Record H}

lemma Retouch.record_cases (t : Retouch) (P : Platform H σ X) (r : Record H) :
    t.record P r = r ∨ r.body.isCanonical = true ∧ (t.record P r).body.isCanonical = true := by
  cases happlied : r.body.applied P with
  | false => exact .inl (record_of_not_applied happlied)
  | true =>
    have hcanonical : r.body.isCanonical = true := (Bool.and_eq_true_iff.mp happlied).1
    refine .inr ⟨hcanonical, ?_⟩
    rw [record_body_eq _ isCanonical_withHint]
    exact hcanonical

lemma Record.epoch?_of_canonical (h : r.body.isCanonical = true) : r.epoch? = none := by
  obtain ⟨seq, icount, rip, body⟩ := r
  cases body <;> first | rfl | cases h

lemma Record.isFrameMark_of_canonical (h : r.body.isCanonical = true) : r.isFrameMark = false := by
  obtain ⟨seq, icount, rip, body⟩ := r
  cases body <;> first | rfl | cases h

lemma sdkAt_of_canonical (icount : ℕ) (h : r.body.isCanonical = true) :
    SealedLog.sdkAt icount r = none := by
  obtain ⟨seq, n, rip, body⟩ := r
  cases body <;> first | rfl | cases h

@[simp] lemma Retouch.record_epoch? (r : Record H) : (t.record P r).epoch? = r.epoch? := by
  rcases t.record_cases P r with heq | ⟨h, h'⟩
  · rw [heq]
  · rw [Record.epoch?_of_canonical h, Record.epoch?_of_canonical h']

@[simp] lemma Retouch.record_sdkAt (icount : ℕ) (r : Record H) :
    SealedLog.sdkAt icount (t.record P r) = SealedLog.sdkAt icount r := by
  rcases t.record_cases P r with heq | ⟨h, h'⟩
  · rw [heq]
  · rw [sdkAt_of_canonical icount h, sdkAt_of_canonical icount h']

lemma scanRecords_retouch (count last : ℕ) (rs : List (Record H)) :
    scanRecords count last (rs.map (t.record P)) = scanRecords count last rs := by
  induction rs generalizing count last with
  | nil => rfl
  | cons r rs ih =>
    rw [map_cons, scanRecords, scanRecords, Retouch.record_seq, Retouch.record_icount,
      Retouch.record_body_eq _ layoutError_withHint, ih]

lemma lastIcount_retouch (rs : List (Record H)) :
    lastIcount (rs.map (t.record P)) = lastIcount rs := by
  unfold lastIcount
  rw [List.getLast?_map]
  cases rs.getLast? with
  | none => rfl
  | some r => exact Retouch.record_icount r

def LogWriter.retouch (t : Retouch) (P : Platform H σ X) (w : LogWriter H) : LogWriter H where
  header := w.header
  records := w.records.map (t.record P)
  valid := by
    rw [scanRecords_retouch, lastIcount_retouch]
    exact w.valid

def SealedLog.retouch (t : Retouch) (P : Platform H σ X) (log : SealedLog H) : SealedLog H :=
  { log with records := log.records.map (t.record P) }

lemma LogWriter.record_eq_error_iff {w : LogWriter H} {e : WriteError} :
    w.record icount rip body = .error e ↔ body.layoutError = some e ∨ body.layoutError = none ∧
        (icount < lastIcount w.records ∧ e = .icountRegressed ∨
          lastIcount w.records ≤ icount ∧ 2 ^ 32 ≤ w.recordCount ∧ e = .seqOverflow) := by
  unfold record
  split
  · rename_i e' he
    simp [he]
  · rename_i hnone
    split_ifs with hicount hseq
    · simp [hnone, hicount, Nat.not_le.mpr hicount, eq_comm]
    · simp only [Except.error.injEq, hnone, reduceCtorEq, hicount, false_and, false_or,
        Nat.not_lt.mp hicount, hseq, true_and]
      exact eq_comm
    · simp only [reduceCtorEq, hnone, hicount, hseq, false_and, and_false, or_self]

lemma LogWriter.record_retouch {rip' : ℕ} {body' : RecordBody H}
    (hlayout : body'.layoutError = body.layoutError)
    (hrecord : ∀ seq, t.record P ⟨seq, icount, rip, body⟩ = ⟨seq, icount, rip', body'⟩)
    (w : LogWriter H) : (w.retouch t P).record icount rip' body' =
      (w.record icount rip body).bimap id (LogWriter.retouch t P) := by
  have hlast : lastIcount (w.retouch t P).records = lastIcount w.records :=
    lastIcount_retouch w.records
  have hcount : (w.retouch t P).recordCount = w.recordCount := length_map _
  cases h : w.record icount rip body with
  | error e =>
    refine record_eq_error_iff.mpr ?_
    rw [hlayout, hlast, hcount]
    exact record_eq_error_iff.mp h
  | ok w' =>
    obtain ⟨hnone, hle, hlt, hheader, hrecords⟩ := record_eq_ok_iff.mp h
    refine record_eq_ok_iff.mpr ⟨hlayout.trans hnone, hlast.symm ▸ hle, hcount.symm ▸ hlt,
      hheader, ?_⟩
    change w'.records.map (t.record P) = w.records.map (t.record P) ++ _
    rw [hrecords, map_append, hcount]
    exact congrArg (_ ++ [·]) (hrecord _)

lemma rewrites_retouch (t : Retouch) (P : Platform H σ X) : Rewrites P (LogWriter.retouch t P) :=
  fun w _ _ _ hbody => w.record_retouch rfl fun _ => Retouch.record_of_not_applied hbody

lemma LogWriter.seal_retouch (w : LogWriter H) (params : SealParams H) :
    (w.retouch t P).seal params = (w.seal params).bimap id (SealedLog.retouch t P) := by
  unfold LogWriter.seal
  rw [show lastIcount (w.retouch t P).records = lastIcount w.records from
      lastIcount_retouch w.records,
    show (w.retouch t P).recordCount = w.recordCount from length_map _]
  split_ifs <;> rfl

end Logs

namespace SealedLog

variable {t : Retouch} {P : Platform H σ X}

variable (log : SealedLog H)

@[simp] lemma retouch_epochs : (log.retouch t P).epochs = log.epochs := by
  change (log.records.map (t.record P)).filterMap Record.epoch? = _
  rw [filterMap_map]
  exact filterMap_congr fun r _ => Retouch.record_epoch? r

@[simp] lemma retouch_terminalSdkTarget :
    (log.retouch t P).terminalSdkTarget = log.terminalSdkTarget := by
  change ((log.records.map (t.record P)).filterMap (sdkAt log.ending.endIcount)).getLast? = _
  rw [filterMap_map]
  exact congrArg List.getLast?
    (filterMap_congr fun r _ => Retouch.record_sdkAt log.ending.endIcount r)

@[simp] lemma retouch_frameMarks : (log.retouch t P).frameMarks = log.frameMarks := by
  have hmark : Record.isFrameMark ∘ t.record P = Record.isFrameMark (H := H) := by
    funext r
    change (t.record P r).isFrameMark = r.isFrameMark
    rcases t.record_cases P r with heq | ⟨h, h'⟩
    · rw [heq]
    · rw [Record.isFrameMark_of_canonical h, Record.isFrameMark_of_canonical h']
  change (log.records.map (t.record P)).filter Record.isFrameMark = _
  rw [filter_map, hmark]
  -- a frame mark is not canonical, so it is left as it is
  refine (map_congr_left fun r hr => ?_).trans (map_id _)
  rcases t.record_cases P r with heq | ⟨h, -⟩
  · exact heq
  · have hno := Record.isFrameMark_of_canonical h
    rw [(mem_filter.mp hr).2] at hno
    cases hno

@[simp] lemma retouch_canonical : (log.retouch t P).canonical = log.canonical.map (t.record P) := by
  change (log.records.map (t.record P)).filter Record.isCanonical = _
  rw [filter_map]
  refine congrArg (List.map _) (filter_congr fun r _ => ?_)
  exact Retouch.record_body_eq _ isCanonical_withHint r

lemma scanEpochAfterCanonical_retouch (current : Option ℕ) (saw : Bool) (rs : List (Record H)) :
    scanEpochAfterCanonical current saw (rs.map (t.record P)) =
      scanEpochAfterCanonical current saw rs := by
  induction rs generalizing current saw with
  | nil => rfl
  | cons r rs ih =>
    have hicount := Retouch.record_icount (t := t) (P := P) r
    rw [map_cons]
    rcases t.record_cases P r with heq | ⟨h, h'⟩
    · rw [heq]
      unfold scanEpochAfterCanonical
      simp only [ih]
    · have hscan {r : Record H} (h : r.body.isCanonical = true) (rs : List (Record H)) :
          scanEpochAfterCanonical current saw (r :: rs) =
            scanEpochAfterCanonical (some r.icount) true rs := by
        obtain ⟨seq, icount, rip, body⟩ := r
        cases body <;> first | rfl | cases h
      rw [hscan h, hscan h', hicount, ih]

@[simp] lemma retouch_epochAfterCanonical :
    (log.retouch t P).epochAfterCanonical = log.epochAfterCanonical :=
  scanEpochAfterCanonical_retouch none false log.records

@[simp] lemma retouch_wellFormed : (log.retouch t P).wellFormed = log.wellFormed := by
  unfold wellFormed
  rw [show scanRecords 0 0 (log.retouch t P).records = scanRecords 0 0 log.records from
    scanRecords_retouch 0 0 log.records]
  rfl

end SealedLog

def ReplayState.retouch (t : Retouch) (P : Platform H σ X) (st : ReplayState H σ) :
    ReplayState H σ := { st with rail := st.rail.relog (LogWriter.retouch t P) }

variable (t : Retouch) (P : Platform H σ X) (st : ReplayState H σ)

@[simp] lemma ReplayState.retouch_rail :
    (st.retouch t P).rail = st.rail.relog (LogWriter.retouch t P) := rfl

@[simp] lemma ReplayState.retouch_chain : (st.retouch t P).chain = st.chain := rfl

@[simp] lemma ReplayState.retouch_audit : (st.retouch t P).audit = st.audit := rfl

@[simp] lemma ReplayState.retouch_marks : (st.retouch t P).marks = st.marks := rfl

@[simp] lemma pushReplayLink_retouch (icount vns : ℕ) (st : ReplayState H σ) :
    pushReplayLink P icount vns (st.retouch t P) = (pushReplayLink P icount vns st).retouch t P :=
  rfl

def ReplayOutcome.retouch (t : Retouch) (P : Platform H σ X) (out : ReplayOutcome H) :
    ReplayOutcome H := { out with resealed := out.resealed.retouch t P }

def InputKind.withHint (hint : ℕ → ℕ) : InputKind → InputKind
  | .padSet port buttons frameHint => .padSet port buttons (hint frameHint)
  | kind => kind

lemma RecordBody.input?_withHint (hint : ℕ → ℕ) (body : RecordBody H) :
    (body.withHint hint).input? = body.input?.map (InputKind.withHint hint) := by
  cases body <;> rfl

lemma InputKind.body_withHint (hint : ℕ → ℕ) (kind : InputKind) :
    ((kind.withHint hint).body : RecordBody H) = (kind.body : RecordBody H).withHint hint := by
  cases kind <;> rfl

section Replays

variable [DecidableEq H] (t : Retouch) (P : Platform H σ X) (fuel : ℕ) (log : SealedLog H)

variable {kind : InputKind}

lemma silent_replayRequest (start : ℕ) (stop : Until) (hashFinalStop hashFinalEpoch : Bool) :
    Silent (LogWriter.retouch t P)
      (replayRequest log start stop hashFinalStop hashFinalEpoch : RunRequest H σ Audit) := by
  refine ⟨rfl, fun _ => rfl, fun index icount value w audit => ?_⟩
  change verifyEpoch log.epochs index icount value (w.retouch t P, audit) =
    (verifyEpoch log.epochs index icount value (w, audit)).bimap id _
  unfold verifyEpoch
  cases log.epochs[audit.verified]? with
  | none => rfl
  | some expected =>
    dsimp only
    split_ifs
    · rw [rewrites_retouch t P w icount 0 (.epochHash index value) rfl]
      cases w.record icount 0 (.epochHash index value) <;> rfl
    · rfl

lemma runTo_retouch (target : ℕ) (hashFinalStop hashFinalEpoch : Bool)
    (frameBudget : Option ℕ) (st : ReplayState H σ) :
    runTo P fuel (log.retouch t P) target hashFinalStop hashFinalEpoch frameBudget
        (st.retouch t P) =
      (runTo P fuel log target hashFinalStop hashFinalEpoch frameBudget st).bimap id
        (Prod.map id (ReplayState.retouch t P)) := by
  have hrequest (start : ℕ) (stop : Until) :
      (replayRequest (log.retouch t P) start stop hashFinalStop hashFinalEpoch :
        RunRequest H σ Audit) = replayRequest log start stop hashFinalStop hashFinalEpoch := by
    unfold replayRequest
    rw [SealedLog.retouch_epochs, SealedLog.retouch_terminalSdkTarget]
  unfold runTo
  dsimp only
  rw [show (st.retouch t P).rail.icount = st.rail.icount from rfl]
  split_ifs
  · rfl
  · rfl
  · cases quantumStop (target - st.rail.icount) frameBudget with
    | none => rfl
    | some stop =>
      dsimp only
      have hrun := runSegment_relog (rewrites_retouch t P) (silent_replayRequest t P log
        st.rail.icount stop hashFinalStop hashFinalEpoch) fuel st.rail st.chain st.audit
      rw [hrequest, retouch_rail, retouch_chain, retouch_audit, hrun]
      cases runSegment P fuel (replayRequest log st.rail.icount stop hashFinalStop
        hashFinalEpoch) st.rail st.chain st.audit <;> rfl

lemma verifyCurrentEpoch_retouch (icount : ℕ) (st : ReplayState H σ) :
    verifyCurrentEpoch P (log.retouch t P) icount (st.retouch t P) =
      (verifyCurrentEpoch P log icount st).bimap id (ReplayState.retouch t P) := by
  unfold verifyCurrentEpoch
  rw [SealedLog.retouch_epochs, retouch_audit]
  cases log.epochs[st.audit.verified]? with
  | none => rfl
  | some expected =>
    obtain ⟨eIndex, eIcount, eValue⟩ := expected
    dsimp only
    split_ifs with hcount
    · rfl
    · cases P.config.clock.vnsFromIcount icount with
      | none => rfl
      | some vns =>
        dsimp only
        rw [pushReplayLink_retouch]
        generalize pushReplayLink P icount vns st = st'
        rw [retouch_chain, retouch_rail,
          Rail.append_relog (rewrites_retouch t P) st'.rail icount 0 rfl]
        split_ifs
        · rfl
        · cases st'.rail.append icount 0
            (.epochHash (icount / max P.config.epochLen 1) st'.chain) <;> rfl

lemma replayFrameMarksBefore_retouch (seqLimit icountLimit : ℕ) (defer : Bool)
    (marks : List (Record H)) (st : ReplayState H σ) :
    replayFrameMarksBefore P fuel (log.retouch t P) seqLimit icountLimit defer marks
        (st.retouch t P) =
      (replayFrameMarksBefore P fuel log seqLimit icountLimit defer marks st).bimap id
        (ReplayState.retouch t P) := by
  induction marks generalizing st with
  | nil => rfl
  | cons mark marks ih =>
    unfold replayFrameMarksBefore
    split_ifs
    · rfl
    · have hrun := runTo_retouch t P fuel log mark.icount false
        (!(decide (mark.icount = icountLimit) && defer)) (some 1) { st with marks }
      refine (congrArg (· >>= _) hrun).trans ?_
      apply bimap_bind
      rintro ⟨out, st1⟩
      cases out with
      | none => rfl
      | some o =>
        dsimp only [Prod.map, id]
        split_ifs
        · exact ih st1
        · rfl

omit [DecidableEq H] in
lemma applyInput_retouch (icount rip : ℕ) (r : Rail H σ)
    (happlied : (kind.body : RecordBody H).applied P = true) :
    (r.relog (LogWriter.retouch t P)).applyInput P (kind.withHint (t.hint icount)) icount
        (t.rip icount rip) = (r.applyInput P kind icount rip).bimap id
        (Prod.map (Rail.relog (LogWriter.retouch t P)) id) := by
  have heffect : Rail.inputEffect (H := H) P r.machine (kind.withHint (t.hint icount)) =
      Rail.inputEffect P r.machine kind := by
    cases kind <;> rfl
  have hrecord (w : LogWriter H) : (w.retouch t P).record icount (t.rip icount rip)
      ((kind.body : RecordBody H).withHint (t.hint icount)) =
        (w.record icount rip kind.body).bimap id (LogWriter.retouch t P) :=
    w.record_retouch (layoutError_withHint (t.hint icount) kind.body)
      fun seq => Retouch.record_of_applied happlied
  unfold Rail.applyInput
  rw [Rail.relog_machine, heffect]
  cases Rail.inputEffect P r.machine kind with
  | error e => rfl
  | ok w =>
    obtain ⟨s, vector⟩ := w
    rw [ok_bind, ok_bind]
    unfold Rail.append
    rw [InputKind.body_withHint]
    dsimp only [Rail.relog]
    rw [hrecord]
    cases r.log.record icount rip kind.body <;> rfl

lemma applyRecord_retouch {r : Record H} (hkind : r.body.input? = some kind)
    (happlied : r.body.applied P = true) (defer last : Bool) (st : ReplayState H σ) :
    applyRecord P fuel (log.retouch t P) (t.record P r) (kind.withHint (t.hint r.icount)) defer last
        (st.retouch t P) =
      (applyRecord P fuel log r kind defer last st).bimap id (ReplayState.retouch t P) := by
  have hbody : (kind.body : RecordBody H).applied P = true := by
    rw [body_of_input hkind]
    exact happlied
  have hrip : (t.record P r).boundaryRip = t.rip r.icount r.boundaryRip := by
    rw [Retouch.record_of_applied happlied]
  unfold applyRecord
  rw [Retouch.record_icount, hrip, runTo_retouch]
  apply bimap_bind
  rintro ⟨out, st1⟩
  dsimp only [Prod.map, id]
  cases requireLanded out r.icount with
  | error e => rfl
  | ok _ =>
    rw [ok_bind, ok_bind, retouch_rail,
      applyInput_retouch t P r.icount r.boundaryRip st1.rail hbody]
    rcases st1.rail.applyInput P kind r.icount r.boundaryRip with e | ⟨rail, _ | vector⟩
    · rfl
    · have hverify : (if (last && defer) = true then
            verifyCurrentEpoch P (log.retouch t P) r.icount
              (ReplayState.retouch t P { st1 with rail })
          else .ok (ReplayState.retouch t P { st1 with rail })) =
          (if (last && defer) = true then verifyCurrentEpoch P log r.icount { st1 with rail }
          else .ok { st1 with rail }).bimap id (ReplayState.retouch t P) := by
        split_ifs
        · exact verifyCurrentEpoch_retouch t P log r.icount { st1 with rail }
        · rfl
      refine (congrArg (· >>= _) hverify).trans ?_
      exact bimap_bind fun st2 => rfl
    · rfl

lemma replayCanonical_retouch {rs : List (Record H)} (hrs : ∀ r ∈ rs, r.isCanonical = true)
    (st : ReplayState H σ) :
    replayCanonical P fuel (log.retouch t P) (rs.map (t.record P)) (st.retouch t P) =
      (replayCanonical P fuel log rs st).bimap id (ReplayState.retouch t P) := by
  induction rs generalizing st with
  | nil => rfl
  | cons r rs ih =>
    have hrest := ih fun r' hr' => hrs r' (mem_cons_of_mem r hr')
    have hhead : (rs.map (t.record P)).head?.map Record.icount = rs.head?.map Record.icount := by
      cases rs with
      | nil => rfl
      | cons r' rs => exact congrArg some (Retouch.record_icount r')
    have hregenerated : regenerated P (t.record P r) = regenerated P r :=
      congrArg (· && P.detchannel)
        (Retouch.record_body_eq _ isChannelGenerated_withHint r)
    rw [map_cons]
    unfold replayCanonical
    rw [SealedLog.retouch_epochAfterCanonical, Retouch.record_icount, Retouch.record_seq,
      retouch_marks, hregenerated, hhead]
    dsimp only
    rw [replayFrameMarksBefore_retouch]
    apply bimap_bind
    intro st1
    cases happlied : r.body.applied P with
    | false =>
      -- canonical but not applied: the channel writes it again
      rw [Retouch.record_of_not_applied happlied]
      have hcanonical : r.body.isCanonical = true := hrs r mem_cons_self
      have hagain : regenerated P r = true := by
        rw [RecordBody.applied, hcanonical, Bool.true_and, Bool.not_eq_false'] at happlied
        exact happlied
      cases r.body.input? with
      | none => rfl
      | some kind =>
        dsimp only
        rw [if_pos hagain, if_pos hagain]
        exact hrest st1
    | true =>
      have hinput : (t.record P r).body.input? =
          r.body.input?.map (InputKind.withHint (t.hint r.icount)) := by
        rw [Retouch.record_of_applied happlied]
        exact RecordBody.input?_withHint _ _
      rw [hinput]
      cases hkind : r.body.input? with
      | none => rfl
      | some kind =>
        dsimp only [Option.map]
        split_ifs
        · exact hrest st1
        · rw [applyRecord_retouch t P fuel log hkind happlied]
          exact bimap_bind hrest

variable (expected : StopReason) (st : ReplayState H σ)

lemma replayWalk_retouch : replayWalk P fuel (log.retouch t P) (st.retouch t P) =
      (replayWalk P fuel log st).bimap id (ReplayState.retouch t P) := by
  have hcanonical : ∀ r ∈ log.canonical, r.isCanonical = true :=
    fun r hr => (mem_filter.mp hr).2
  unfold replayWalk
  rw [SealedLog.retouch_canonical, replayCanonical_retouch t P fuel log hcanonical]
  exact bimap_bind fun st1 => replayFrameMarksBefore_retouch t P fuel log _ _ _ st1.marks st1

lemma terminalTail_retouch (target : SdkEvent) (st : ReplayState H σ) :
    terminalTail P fuel (log.retouch t P) expected target (st.retouch t P) =
      (terminalTail P fuel log expected target st).bimap id
        (Prod.map id (ReplayState.retouch t P)) := by
  unfold terminalTail
  dsimp only
  rw [show (log.retouch t P).ending = log.ending from rfl, runTo_retouch]
  apply bimap_bind
  rintro ⟨tail, st1⟩
  dsimp only [Prod.map, id]
  rw [retouch_rail, Rail.drainAtPause_relog (rewrites_retouch t P)]
  cases st1.rail.drainAtPause P log.ending.endIcount with
  | error e => rfl
  | ok w =>
    obtain ⟨rail, es⟩ := w
    dsimp only [Except.bimap, Prod.map, id]
    rw [retouch_audit]
    cases (noteTerminal (some target) log.ending.endIcount (es.filterMap Emit.sdk?)
      st1.audit).observed with
    | none => rfl
    | some observed =>
      cases tail with
      | none => rfl
      | some out =>
        dsimp only
        split_ifs <;> rfl

lemma exactTail_retouch : exactTail P fuel (log.retouch t P) expected (st.retouch t P) =
      (exactTail P fuel log expected st).bimap id (Prod.map id (ReplayState.retouch t P)) := by
  unfold exactTail
  rw [show (log.retouch t P).ending = log.ending from rfl, runTo_retouch]
  apply bimap_bind
  rintro ⟨tail, st1⟩
  cases tail with
  | none => rfl
  | some out =>
    dsimp only [Prod.map, id]
    split_ifs <;> rfl

lemma replayTail_retouch : replayTail P fuel (log.retouch t P) expected (st.retouch t P) =
      (replayTail P fuel log expected st).bimap id (Prod.map id (ReplayState.retouch t P)) := by
  have hlink (tail : Option (SegmentOutcome H)) (st : ReplayState H σ) :
      linkAtEnd P (log.retouch t P) tail (st.retouch t P) =
        (linkAtEnd P log tail st).retouch t P := by
    unfold linkAtEnd
    rw [retouch_rail, Rail.relog_icount, retouch_audit,
      show (log.retouch t P).ending = log.ending from rfl]
    split_ifs <;> rfl
  unfold replayTail
  rw [SealedLog.retouch_terminalSdkTarget]
  cases log.terminalSdkTarget with
  | none =>
    rw [exactTail_retouch]
    exact bimap_bind fun w => congrArg (fun st => Except.ok (w.1, st)) (hlink w.1 w.2)
  | some target =>
    dsimp only
    rw [terminalTail_retouch]
    exact bimap_bind fun w => congrArg (fun st => Except.ok (w.1, st)) (hlink w.1 w.2)

lemma haltRetry_retouch (chainBeforeTail liveEnd : H) (st : ReplayState H σ) :
    haltRetry P fuel (log.retouch t P) chainBeforeTail liveEnd (st.retouch t P) =
      (haltRetry P fuel log chainBeforeTail liveEnd st).bimap id
        (Prod.map id (ReplayState.retouch t P)) := by
  unfold haltRetry
  rw [show (log.retouch t P).ending = log.ending from rfl]
  cases checkedAdd log.ending.endIcount 1 with
  | none => rfl
  | some target =>
    have hrun := runTo_retouch t P fuel log target true true none
      { st with chain := chainBeforeTail }
    refine (congrArg (· >>= _) hrun).trans ?_
    apply bimap_bind
    rintro ⟨out, st1⟩
    cases out with
    | none => rfl
    | some o =>
      dsimp only [Prod.map, id]
      split_ifs <;> rfl

lemma liveEndOf_retouch (verifiedBeforeTail : ℕ) (chainBeforeTail : H)
    (tail : Option (SegmentOutcome H)) (st : ReplayState H σ) :
    liveEndOf P fuel (log.retouch t P) expected verifiedBeforeTail chainBeforeTail tail
        (st.retouch t P) =
      (liveEndOf P fuel log expected verifiedBeforeTail chainBeforeTail tail st).bimap id
        (Prod.map id (ReplayState.retouch t P)) := by
  unfold liveEndOf
  rw [show (log.retouch t P).ending = log.ending from rfl, SealedLog.retouch_terminalSdkTarget,
    retouch_chain, retouch_audit]
  dsimp only
  split_ifs <;> first | exact haltRetry_retouch t P fuel log _ _ st | rfl

end Replays

section Comparison

lemma RecordBody.withHint_injective {hint : ℕ → ℕ} (hhint : Function.Injective hint) :
    Function.Injective (RecordBody.withHint hint : RecordBody H → RecordBody H) := by
  intro body body' h
  cases body with
  | padSet port buttons frameHint =>
    cases body' with
    | padSet port' buttons' frameHint' =>
      obtain ⟨rfl, rfl, heq⟩ := RecordBody.padSet.inj h
      rw [hhint heq]
    | _ => cases h
  | _ => cases body' <;> first | exact h | cases h

def forgotten (normalize : Bool) (body : RecordBody H) : Bool :=
  normalize && (isSdkEvent body || body.isChannelGenerated)

lemma forgotten_withHint (normalize : Bool) (hint : ℕ → ℕ) (body : RecordBody H) :
    forgotten normalize (body.withHint hint) = forgotten normalize body := by
  rw [forgotten, forgotten, isSdkEvent_withHint, isChannelGenerated_withHint]

def Retouch.compared (t : Retouch) (P : Platform H σ X) (normalize : Bool)
    (c : ComparableRecord H) : ComparableRecord H :=
  if c.body.applied P && !forgotten normalize c.body then
    ⟨c.icount, t.rip c.icount c.boundaryRip, c.body.withHint (t.hint c.icount)⟩
  else c

variable (t : Retouch) (P : Platform H σ X) (normalize : Bool)

lemma comparable_retouch (r : Record H) :
    comparable normalize (t.record P r) = t.compared P normalize (comparable normalize r) := by
  have hforgotten : forgotten normalize (t.record P r).body = forgotten normalize r.body :=
    Retouch.record_body_eq _ (forgotten_withHint normalize) r
  change (if forgotten normalize (t.record P r).body then _ else _) =
    t.compared P normalize (if forgotten normalize r.body then _ else _)
  rw [hforgotten]
  unfold Retouch.compared
  cases hforget : forgotten normalize r.body with
  | true =>
    -- no frame hint in what is forgotten
    have hbody : (t.record P r).body = r.body := by
      unfold Retouch.record
      split_ifs
      · obtain ⟨seq, icount, rip, body⟩ := r
        cases body with
        | padSet port buttons frameHint => cases normalize <;> cases hforget
        | _ => rfl
      · rfl
    simp only [if_true, hforget, hbody, Bool.not_true, Bool.and_false, Bool.false_eq_true, if_false]
  | false =>
    cases happlied : r.body.applied P with
    | true => simp [hforget, happlied, Retouch.record_of_applied happlied]
    | false => simp [hforget, happlied, Retouch.record_of_not_applied happlied]

lemma Retouch.compared_injective : Function.Injective (t.compared P normalize) := by
  intro c c' h
  have hkind (c : ComparableRecord H) :
      ((t.compared P normalize c).body.applied P &&
          !forgotten normalize (t.compared P normalize c).body) =
        (c.body.applied P && !forgotten normalize c.body) := by
    unfold compared
    split_ifs
    · rw [applied_withHint, forgotten_withHint]
    · rfl
  have hsame : (c'.body.applied P && !forgotten normalize c'.body) =
      (c.body.applied P && !forgotten normalize c.body) := by
    rw [← hkind c, ← hkind c', h]
  unfold compared at h
  rw [hsame] at h
  split_ifs at h
  · obtain ⟨icount, rip, body⟩ := c
    obtain ⟨icount', rip', body'⟩ := c'
    obtain ⟨hicount, hrip, hbody⟩ := ComparableRecord.mk.inj h
    dsimp only at hicount hrip hbody
    subst hicount
    rw [(t.rip icount).injective hrip, withHint_injective (t.hint icount).injective hbody]
  · exact h

variable {t P} in
lemma Retouch.record_injective : Function.Injective (t.record P) := by
  intro r r' h
  have hseq : r.seq = r'.seq := by
    rw [← record_seq (t := t) (P := P) r, h, record_seq]
  have hcompared : comparable false r = comparable false r' := by
    apply t.compared_injective P false
    rw [← comparable_retouch, ← comparable_retouch, h]
  obtain ⟨seq, icount, rip, body⟩ := r
  obtain ⟨seq', icount', rip', body'⟩ := r'
  obtain ⟨rfl, rfl, rfl⟩ := ComparableRecord.mk.inj hcompared
  exact congrArg (Record.mk · icount rip body) hseq

lemma SealedLog.retouch_injective : Function.Injective (SealedLog.retouch t P) := by
  rintro ⟨header, ending, records⟩ ⟨header', ending', records'⟩ h
  obtain ⟨rfl, rfl, hrecords⟩ := SealedLog.mk.inj h
  have hsame := map_injective_iff.mpr Retouch.record_injective hrecords
  exact congrArg (SealedLog.mk header ending) hsame

lemma filter_isCheckpoint_retouch (log : SealedLog H) :
    (log.retouch t P).records.filter (fun r => !r.body.isCheckpoint) =
      (log.records.filter fun r => !r.body.isCheckpoint).map (t.record P) := by
  have hkeep : (fun r : Record H => !r.body.isCheckpoint) ∘ t.record P =
      fun r => !r.body.isCheckpoint :=
    funext fun r => congrArg (!·) (Retouch.record_body_eq _ isCheckpoint_withHint r)
  exact (filter_map ..).trans (by rw [hkeep])

lemma comparableRecords_retouch (log : SealedLog H) :
    comparableRecords normalize (log.retouch t P) =
      (comparableRecords normalize log).map (t.compared P normalize) := by
  rw [comparableRecords, filter_isCheckpoint_retouch, comparableRecords, map_map, map_map]
  exact map_congr_left fun r _ => comparable_retouch t P normalize r

lemma comparableRecords_retouch_eq_iff [DecidableEq H] (log log' : SealedLog H) :
    comparableRecords normalize (log.retouch t P) = comparableRecords normalize (log'.retouch t P) ↔
      comparableRecords normalize log = comparableRecords normalize log' := by
  rw [comparableRecords_retouch, comparableRecords_retouch]
  exact (map_injective_iff.mpr (t.compared_injective P normalize)).eq_iff

lemma hasCheckpoint_retouch (log : SealedLog H) :
    hasCheckpoint (log.retouch t P) = hasCheckpoint log := by
  change (log.records.map (t.record P)).any _ = log.records.any _
  rw [any_map]
  exact congrArg (log.records.any ·)
    (funext fun r => Retouch.record_body_eq _ isCheckpoint_withHint r)

variable [DecidableEq H]

lemma resealEquivalent_retouch (log log' : SealedLog H) :
    resealEquivalent (log.retouch t P) (log'.retouch t P) = resealEquivalent log log' := by
  unfold resealEquivalent
  simp only [SealedLog.retouch_epochs, hasCheckpoint_retouch, ne_eq,
    comparableRecords_retouch_eq_iff]
  rfl

lemma classifyResealDivergence_retouch (log resealed : SealedLog H) :
    classifyResealDivergence (log.retouch t P) (resealed.retouch t P) =
      classifyResealDivergence log resealed := by
  have hcompared (log : SealedLog H) : comparedRecords (log.retouch t P) =
      (comparedRecords log).map (Prod.map id (Option.map (t.record P))) := by
    have hending : (log.retouch t P).ending = log.ending := rfl
    simp [comparedRecords, filter_isCheckpoint_retouch, hending, Function.comp_def]
  have hdrift (e g : Option (ℕ × Option (Record H))) : classifyResealRecordDrift
      (Prod.map id (Option.map (t.record P)) <$> e) (Prod.map id (Option.map (t.record P)) <$> g) =
        classifyResealRecordDrift e g := by
    rcases e with _ | ⟨n, _ | r⟩ <;> rcases g with _ | ⟨m, _ | r'⟩ <;>
      simp [classifyResealRecordDrift, comparable_retouch, (t.compared_injective P true).eq_iff,
        Retouch.record_body_eq _ isCanonical_withHint,
        Retouch.record_body_eq _ fun hint body => isChannelEvent_withHint hint body _]
  unfold classifyResealDivergence
  simp only [hcompared, zipWithAll_map, hdrift]
  rfl

lemma concludeReplay_retouch (log : SealedLog H) (expected : StopReason) (liveEnd : H)
    (st : ReplayState H σ) : concludeReplay (log.retouch t P) expected liveEnd (st.retouch t P) =
      (concludeReplay log expected liveEnd st).bimap id (ReplayOutcome.retouch t P) := by
  unfold concludeReplay
  rw [SealedLog.retouch_epochs, retouch_audit, retouch_rail,
    Rail.relog_log, LogWriter.seal_retouch, show (log.retouch t P).ending = log.ending from rfl]
  split_ifs
  · rfl
  · rfl
  · cases st.rail.log.seal ⟨log.ending.endSnapshotId, log.ending.endIcount, log.ending.endVns,
      liveEnd, stopReasonU8 expected⟩ with
    | error e => rfl
    | ok resealed =>
      simp only [Except.bimap, resealEquivalent_retouch, classifyResealDivergence_retouch,
        (SealedLog.retouch_injective t P).ne_iff]
      split_ifs <;> rfl

end Comparison

/-- The two records differ at most in the pointer and the frame hint of an
applied input. -/
def RetouchedRecord (P : Platform H σ X) (r r' : Record H) : Prop :=
  r' = r ∨ r.body.applied P = true ∧ r'.seq = r.seq ∧ r'.icount = r.icount ∧
    ∃ hint, r'.body = r.body.withHint hint

/-- The second log is the first with other pointers and frame hints, sealed
again. -/
structure Retouched (P : Platform H σ X) (log log' : SealedLog H) : Prop where
  header_eq : log'.header = log.header
  ending_eq : log'.ending = log.ending
  records : List.Forall₂ (RetouchedRecord P) log.records log'.records

lemma retouched_retouch (t : Retouch) (P : Platform H σ X) (log : SealedLog H) :
    Retouched P log (log.retouch t P) := by
  refine ⟨rfl, rfl, ?_⟩
  change List.Forall₂ (RetouchedRecord P) log.records (log.records.map (t.record P))
  rw [forall₂_map_right_iff, forall₂_same]
  intro r _
  cases happlied : r.body.applied P with
  | false => exact .inl (Retouch.record_of_not_applied happlied)
  | true =>
    rw [Retouch.record_of_applied happlied]
    exact .inr ⟨happlied, rfl, rfl, _, rfl⟩

section Blind

variable [DecidableEq H] {P : Platform H σ X} {fuel : ℕ} {base : Restored H σ}
  {log log' : SealedLog H}

lemma replaySegment_retouch (t : Retouch) (P : Platform H σ X) (fuel : ℕ)
    (base : Restored H σ) (log : SealedLog H) : replaySegment P fuel base (log.retouch t P) =
      (replaySegment P fuel base log).bimap id (ReplayOutcome.retouch t P) := by
  have hstart : startReplay P base (log.retouch t P) = (startReplay P base log).retouch t P := by
    unfold startReplay
    rw [SealedLog.retouch_frameMarks]
    rfl
  have hfrom (expected : StopReason) (st : ReplayState H σ) :
      replayFrom P fuel (log.retouch t P) expected (st.retouch t P) =
        (replayFrom P fuel log expected st).bimap id
          (Prod.map (ReplayState.retouch t P) (ReplayOutcome.retouch t P)) := by
    unfold replayFrom
    rw [replayWalk_retouch]
    apply bimap_bind
    intro st1
    rw [replayTail_retouch]
    apply bimap_bind
    rintro ⟨tail, st2⟩
    dsimp only [Prod.map, id]
    rw [retouch_audit, retouch_chain, liveEndOf_retouch]
    apply bimap_bind
    rintro ⟨liveEnd, st3⟩
    dsimp only [Prod.map, id]
    rw [concludeReplay_retouch]
    exact bimap_bind fun outcome => rfl
  unfold replaySegment
  rw [SealedLog.retouch_wellFormed, hstart]
  split_ifs
  · rfl
  · have hheader : checkHeader P base (log.retouch t P) = checkHeader P base log := rfl
    rw [hheader, show (log.retouch t P).ending = log.ending from rfl]
    cases checkHeader P base log with
    | error e => rfl
    | ok _ =>
      rw [ok_bind, ok_bind]
      cases stopReasonFromU8 log.ending.stopReason with
      | none => rfl
      | some expected =>
        dsimp only
        rw [hfrom]
        cases replayFrom P fuel log expected (startReplay P base log) <;> rfl

omit [DecidableEq H] in
lemma Retouched.eq_of_none_applied (h : Retouched P log log')
    (hnone : ∀ r ∈ log.records, r.body.applied P = false) : log' = log := by
  have hsame {rs rs' : List (Record H)} (hrs : List.Forall₂ (RetouchedRecord P) rs rs')
      (hnone : ∀ r ∈ rs, r.body.applied P = false) : rs' = rs := by
    induction hrs with
    | nil => rfl
    | @cons r r' rs rs' hr _ ih =>
      rw [ih fun x hx => hnone x (mem_cons_of_mem r hx)]
      rcases hr with rfl | ⟨happlied, -⟩
      · rfl
      · rw [hnone r mem_cons_self] at happlied
        cases happlied
  obtain ⟨header, ending, records⟩ := log
  obtain ⟨header', ending', records'⟩ := log'
  obtain ⟨rfl, rfl, hrecords⟩ := h
  exact congrArg (SealedLog.mk header' ending') (hsame hrecords hnone)

def otherRip (r : Record H) : Retouch where
  rip := fun icount =>
    if icount = r.icount then .swap r.boundaryRip (if r.boundaryRip = 0 then 1 else 0) else .refl ℕ
  hint := fun _ => .refl ℕ

omit [DecidableEq H] in
lemma otherRip_ne {r : Record H} (happlied : r.body.applied P = true) :
    (otherRip r).record P r ≠ r := by
  intro heq
  rw [Retouch.record_of_applied happlied] at heq
  have hrip : (otherRip r).rip r.icount r.boundaryRip = r.boundaryRip :=
    congrArg Record.boundaryRip heq
  dsimp only [otherRip] at hrip
  rw [if_pos rfl, Equiv.swap_apply_left] at hrip
  split_ifs at hrip with hzero
  · rw [hzero] at hrip
    cases hrip
  · exact hzero hrip.symm

/-- A log that a replay accepts is accepted with every other pointer and frame
hint. So its retouches are all refused only if it has nothing to retouch. -/
theorem tamper_evident_iff {out : ReplayOutcome H} (h : replaySegment P fuel base log = .ok out) :
    (∀ t : Retouch, replaySegment P fuel base (log.retouch t P) = .ok (out.retouch t P)) ∧
      ((∀ log', Retouched P log log' → log' ≠ log →
          ∃ e, replaySegment P fuel base log' = .error e) ↔
        ∀ r ∈ log.records, r.body.applied P = false) := by
  have hblind (t : Retouch) :
      replaySegment P fuel base (log.retouch t P) = .ok (out.retouch t P) := by
    rw [replaySegment_retouch, h]
    rfl
  refine ⟨hblind, fun hevident r hr => ?_, fun hnone log' hretouched hne => ?_⟩
  · by_contra happlied
    rw [Bool.not_eq_false] at happlied
    have hne : log.retouch (otherRip r) P ≠ log := by
      intro heq
      have hrecords : log.records.map ((otherRip r).record P) = log.records.map id :=
        (congrArg SealedLog.records heq).trans (map_id _).symm
      exact otherRip_ne happlied (map_inj_left.mp hrecords r hr)
    obtain ⟨e, he⟩ := hevident _ (retouched_retouch (otherRip r) P log) hne
    cases (hblind (otherRip r)).symm.trans he
  · exact absurd (hretouched.eq_of_none_applied hnone) hne

end Blind

def padCounting : Platform LinkTrace ℕ Unit :=
  { counting 10 with config := ⟨ClockRatio.default, 10, .epochsOn, [deviceIdPvPad], []⟩ }

def padLog (events : List ScheduledEvent) : Option (SealedLog LinkTrace) :=
  let rt := inject padCounting events (openSegment padCounting ⟨[], 0, []⟩ none)
  (recordRuns padCounting 50 [{ stop := .icountBudget 12 }] rt).toOption.bind fun rt =>
    (sealSegment padCounting [] rt).toOption

def padReplay (log : SealedLog LinkTrace) :
    Except (ReplayError LinkTrace) (ReplayOutcome LinkTrace) :=
  replaySegment padCounting 50 ⟨[], 0, []⟩ log

/-- Without inputs there is nothing to retouch. -/
theorem tamper_evident_padLog : ∃ log out, padLog [] = some log ∧ padReplay log = .ok out ∧
      ∀ log', Retouched padCounting log log' → log' ≠ log → ∃ e, padReplay log' = .error e := by
  have hreplayed : (padLog []).map (fun log => ((padReplay log).toOption.isSome,
      log.records.all fun r => !r.body.applied padCounting)) = some (true, true) := by
    decide +kernel
  obtain ⟨log, hlog, hpair⟩ := Option.map_eq_some_iff.mp hreplayed
  obtain ⟨hok, hall⟩ := Prod.mk.inj hpair
  cases hreplay : padReplay log with
  | error e =>
    rw [hreplay] at hok
    cases hok
  | ok out =>
    refine ⟨log, out, hlog, hreplay, (tamper_evident_iff hreplay).2.mpr fun r hr => ?_⟩
    simpa using all_eq_true.mp hall r hr

def forged (log : SealedLog LinkTrace) : SealedLog LinkTrace :=
  log.retouch ⟨fun _ => .swap 5 999, fun _ => .swap frameHintNone 77⟩ padCounting

/-- A pad input at count 5 with the pointer 999 and the frame hint 77, of a frame the log does
not have, is accepted like the recorded one. -/
theorem forged_landing_accepted :
    ∃ log out, padLog [⟨some (.atIcount 5), some (.padSet 0 1)⟩] = some log ∧
      log.canonical = [⟨0, 5, 5, .padSet 0 1 frameHintNone⟩] ∧
      (forged log).canonical = [⟨0, 5, 999, .padSet 0 1 77⟩] ∧ (forged log).frameMarks = [] ∧
      padReplay (forged log) = .ok out ∧ out.recordsApplied = 1 := by
  have hlog : (padLog [⟨some (.atIcount 5), some (.padSet 0 1)⟩]).map (fun log =>
      decide (log.canonical = [⟨0, 5, 5, .padSet 0 1 frameHintNone⟩] ∧
        (forged log).canonical = [⟨0, 5, 999, .padSet 0 1 77⟩] ∧ (forged log).frameMarks = [])) =
      some true := by
    decide +kernel
  have hok : (padLog [⟨some (.atIcount 5), some (.padSet 0 1)⟩]).map (fun log =>
      (padReplay (forged log)).toOption.map ReplayOutcome.recordsApplied) = some (some 1) := by
    decide +kernel
  obtain ⟨log, hsome, hrecords⟩ := Option.map_eq_some_iff.mp hlog
  obtain ⟨hcanonical, hforged, hmarks⟩ := of_decide_eq_true hrecords
  rw [hsome] at hok
  obtain ⟨out, hout, hone⟩ := Option.map_eq_some_iff.mp (Option.some.inj hok)
  refine ⟨log, out, hsome, hcanonical, hforged, hmarks, ?_, hone⟩
  cases hreplay : padReplay (forged log) with
  | error e =>
    rw [hreplay] at hout
    cases hout
  | ok out' =>
    rw [hreplay] at hout
    exact congrArg Except.ok (Option.some.inj hout)

end DetHypervisor
