import DetHypervisor.BareRuns

/-!
# What a replay verdict rests on

For any log and guest, the links a replay has logged are the first EPOCH_HASH records of the
recording, and its chain ends in a link at its position. A verdict is read off these two.
-/

namespace DetHypervisor

open List Except

variable {H σ X : Type}

/-- What a replay does to its rail, its chain value and the value it keeps for the HLT retry. A
logged link is labelled with its EPOCH_HASH: the chain value after the link at the counter. -/
inductive Replays (P : Platform H σ X) :
    Option (ℕ × ℕ × H) → Rail H σ × H × H → Rail H σ × H × H → Prop
  | entry {r r' : Rail H σ} {c kept : H} (h : (enter P r).rail? = some r') :
      Replays P none (r, c, kept) (r', c, kept)
  | input {r r' : Rail H σ} {c kept : H} {kind : InputKind} {rip : ℕ}
      (h : r.applyInput P kind r.icount rip = .ok (r', none)) :
      Replays P none (r, c, kept) (r', c, kept)
  | drain {r r' : Rail H σ} {c kept : H} {icount : ℕ} {es : List Emit}
      (h : r.drainAtPause P icount = .ok (r', es)) : Replays P none (r, c, kept) (r', c, kept)
  | link (r : Rail H σ) (c kept : H) (vns : ℕ) :
      Replays P none (r, c, kept) (r, P.link c (P.image r.machine) r.icount vns, kept)
  | epoch {r r' : Rail H σ} {c value kept : H} {index vns : ℕ}
      (hlink : value = P.link c (P.image r.machine) r.icount vns)
      (h : r.append r.icount 0 (.epochHash index value) = .ok r') :
      Replays P (some (index, r.icount, value)) (r, c, kept) (r', value, kept)
  | keep (r : Rail H σ) (c kept : H) : Replays P none (r, c, kept) (r, c, c)
  | retry (r : Rail H σ) (c kept : H) : Replays P none (r, c, kept) (r, kept, kept)

/-- The links logged on the way from `start` are the recorded ones up to the cursor. -/
structure Audited (P : Platform H σ X) (log : SealedLog H) (start : Rail H σ × H × H) (kept : H)
    (r : Rail H σ) (chain : H) (a : Audit) : Prop where
  traced : ∃ moves, Traced (Replays P) moves start (r, chain, kept) ∧
    moves.reduceOption = log.epochs.take a.verified
  verified_le : a.verified ≤ log.epochs.length

def Latest (P : Platform H σ X) (chain : H) (a : Audit) : Prop :=
  ∀ n, a.lastEpochIcount = some n → LinkedAt P n chain

structure SameCursor (a a' : Audit) : Prop where
  verified_eq : a'.verified = a.verified
  last_eq : a'.lastEpochIcount = a.lastEpochIcount

section Audited

variable {P : Platform H σ X} {log : SealedLog H} {start : Rail H σ × H × H} {kept kept' : H}
  {r r' : Rail H σ} {a a' : Audit} {chain chain' : H}

lemma Audited.move (h : Audited P log start kept r chain a)
    (hmove : Replays P none (r, chain, kept) (r', chain', kept')) (hcursor : SameCursor a a') :
    Audited P log start kept' r' chain' a' := by
  obtain ⟨moves, htraced, hmoves⟩ := h.traced
  refine ⟨⟨moves ++ [none], htraced.append (.single hmove), ?_⟩, ?_⟩
  · simp [reduceOption_append, hmoves, hcursor.verified_eq]
  · exact hcursor.verified_eq ▸ h.verified_le

lemma Audited.verify {index vns : ℕ} {value : H} (h : Audited P log start kept r chain a)
    (hexpected : log.epochs[a.verified]? = some (index, r.icount, value))
    (hlink : value = P.link chain (P.image r.machine) r.icount vns)
    (happend : r.append r.icount 0 (.epochHash index value) = .ok r') :
    Audited P log start kept r' value
      { a with verified := a.verified + 1, lastEpochIcount := some r.icount } := by
  obtain ⟨moves, htraced, hmoves⟩ := h.traced
  obtain ⟨hlt, hget⟩ := List.getElem?_eq_some_iff.mp hexpected
  refine ⟨⟨_, htraced.append (.single (.epoch hlink happend)), ?_⟩, hlt⟩
  rw [reduceOption_append, hmoves, take_add_one, hexpected]
  rfl

lemma Latest.same (h : Latest P chain a) (hcursor : SameCursor a a') : Latest P chain a' := by
  intro n hn
  exact h n (hcursor.last_eq ▸ hn)

lemma noteTerminal_cursor (target : Option SdkEvent) (icount : ℕ) (events : List SdkEvent)
    (a : Audit) : SameCursor a (noteTerminal target icount events a) := by
  unfold noteTerminal
  split
  · split_ifs
    · exact ⟨rfl, rfl⟩
    · exact ⟨rfl, rfl⟩
  · exact ⟨rfl, rfl⟩

end Audited

section Entries

variable {P : Platform H σ X} {r r' : Rail H σ} {τ : Type} {req : RunRequest H σ τ}
  {s s' : Seg H σ τ}

lemma enter_log (h : (enter P r).rail? = some r') :
    ∃ new, Appended r.log new r'.log ∧ ∀ x ∈ new, x.epoch? = none := by
  cases henter : enter P r with
  | stepped r1 =>
    rw [henter] at h
    cases h
    exact ⟨[], (enter_eq_stepped henter).2 ▸ .refl _, by simp⟩
  | serviced r1 es =>
    rw [henter] at h
    cases h
    obtain ⟨-, new, happended, hnew⟩ := enter_eq_serviced henter
    exact ⟨new, happended, fun x hx => (hnew x hx).1.not_epoch⟩
  | frame frame r1 es =>
    rw [henter] at h
    cases h
    obtain ⟨-, new, happended, hnew⟩ := enter_eq_frame henter
    refine ⟨_, happended, ?_⟩
    intro x hx
    rcases mem_cons.mp hx with rfl | hx
    · rfl
    · exact (hnew x hx).1.not_epoch
  | halted r1 =>
    rw [henter] at h
    cases h
    exact ⟨[], (enter_eq_halted henter).2 ▸ .refl _, by simp⟩
  | failed e =>
    rw [henter] at h
    cases h

lemma InputKind.body_not_epoch (kind : InputKind) (seq icount rip : ℕ) :
    (⟨seq, icount, rip, kind.body⟩ : Record H).epoch? = none := by
  cases kind <;> rfl

lemma drainAtPause_log {icount : ℕ} {es : List Emit}
    (h : r.drainAtPause P icount = .ok (r', es)) :
    r'.icount = r.icount ∧ ∃ new, Appended r.log new r'.log ∧ ∀ x ∈ new, x.epoch? = none := by
  unfold Rail.drainAtPause at h
  split_ifs at h
  · obtain ⟨hicount, marks, new, happended, hnew, rfl⟩ := Rail.service_spec h
    exact ⟨hicount, new, happended, fun x hx => (hnew x hx).1.not_epoch⟩
  · cases h
    exact ⟨rfl, [], .refl _, by simp⟩

/-- The labels of a replay are the EPOCH_HASH records it has written. -/
lemma Replays.epochs_eq {m : Option (ℕ × ℕ × H)} {c c' : Rail H σ × H × H}
    (h : Replays P m c c') : c'.1.log.records.filterMap Record.epoch? =
      c.1.log.records.filterMap Record.epoch? ++ m.toList := by
  have hsilent {r r' : Rail H σ} {new : List (Record H)} (happended : Appended r.log new r'.log)
      (hnew : ∀ x ∈ new, x.epoch? = none) : r'.log.records.filterMap Record.epoch? =
        r.log.records.filterMap Record.epoch? ++ [] := by
    rw [happended.records_eq, filterMap_append, filterMap_eq_nil_iff.mpr hnew]
  cases h with
  | entry h =>
    obtain ⟨new, happended, hnew⟩ := enter_log h
    exact hsilent happended hnew
  | input h => exact hsilent (Rail.applyInput_spec h).2 (by simp [InputKind.body_not_epoch])
  | drain h =>
    obtain ⟨-, new, happended, hnew⟩ := drainAtPause_log h
    exact hsilent happended hnew
  | link | keep | retry => simp
  | epoch hlink h =>
    obtain ⟨w, hrecord, rfl⟩ := Rail.append_eq_ok.mp h
    rw [(LogWriter.appended_of_record hrecord).records_eq, filterMap_append]
    rfl

lemma epochs_of_traced {moves : List (Option (ℕ × ℕ × H))} {c c' : Rail H σ × H × H}
    (h : Traced (Replays P) moves c c') : c'.1.log.records.filterMap Record.epoch? =
      c.1.log.records.filterMap Record.epoch? ++ moves.reduceOption := by
  induction h with
  | nil => simp
  | @cons m moves c c1 c' hmove _ ih =>
    rw [ih, hmove.epochs_eq]
    cases m <;> simp

lemma holdFrame_bare (hbare : Bare req) (hlive : ∀ n, req.liveInputs n = []) {frame : ℕ}
    (h : holdFrame P req frame s = .ok s') :
    s'.rail = s.rail ∧ s'.chain = s.chain ∧ s'.caller = s.caller := by
  have hdue : dueAtFrame req frame s = [] := by
    unfold dueAtFrame
    rw [hbare.inputs_eq]
    simp
  unfold holdFrame at h
  split_ifs at h
  simp only [hdue, hlive, map_nil, applyAtFrame, ok_bind] at h
  cases h
  exact ⟨rfl, rfl, rfl⟩

lemma segOf_onEntered_bare (hbare : Bare req) (hlive : ∀ n, req.liveInputs n = [])
    {e : Entered H σ} (h : segOf? (onEntered P req s e) = some s') :
    e.rail? = some s'.rail ∧ s'.chain = s.chain ∧
      (s'.caller = s.caller ∨
        ∃ events, s'.caller = req.noteExit s'.rail.icount events s.caller) := by
  cases e with
  | stepped | halted =>
    cases h
    exact ⟨rfl, rfl, .inl rfl⟩
  | failed e => cases h
  | serviced r es =>
    cases segOf_checkSdkFeed.symm.trans h
    exact ⟨rfl, rfl, .inr ⟨_, rfl⟩⟩
  | frame frame r es =>
    obtain ⟨hrail, hchain, hcaller⟩ := holdFrame_bare hbare hlive (segOf_onEntered_frame h)
    exact ⟨congrArg some hrail.symm, hchain, .inr ⟨_, by rw [hcaller, hrail]; rfl⟩⟩

end Entries

section Quanta

variable [DecidableEq H] {P : Platform H σ X} {log : SealedLog H} {start : ℕ} {stop : Until}
  {hashFinalStop hashFinalEpoch : Bool}

lemma bare_replayRequest :
    Bare (replayRequest log start stop hashFinalStop hashFinalEpoch : RunRequest H σ Audit) :=
  ⟨rfl, rfl, rfl, fun _ => rfl⟩

lemma entry_cursor {s s' : Seg H σ Audit}
    (h : segOf? (onEntered P (replayRequest log start stop hashFinalStop hashFinalEpoch) s
      (enter P s.rail)) = some s') :
    (enter P s.rail).rail? = some s'.rail ∧ s'.chain = s.chain ∧ SameCursor s.caller s'.caller := by
  obtain ⟨hrail, hchain, hcaller⟩ := segOf_onEntered_bare bare_replayRequest (fun _ => rfl) h
  refine ⟨hrail, hchain, ?_⟩
  rcases hcaller with hsame | ⟨events, hnoted⟩
  · rw [hsame]
    exact ⟨rfl, rfl⟩
  · rw [hnoted]
    exact noteTerminal_cursor _ _ _ _

lemma verifyEpoch_eq_ok {expected : List (ℕ × ℕ × H)} {index icount : ℕ} {value : H}
    {w w' : LogWriter H} {a a' : Audit}
    (h : verifyEpoch expected index icount value (w, a) = .ok (w', a')) :
    expected[a.verified]? = some (index, icount, value) ∧
      w.record icount 0 (.epochHash index value) = .ok w' ∧
      a' = { a with verified := a.verified + 1, lastEpochIcount := some icount } := by
  unfold verifyEpoch at h
  cases hexpected : expected[a.verified]? with
  | none => simp [hexpected] at h
  | some e =>
    obtain ⟨eIndex, eIcount, eValue⟩ := e
    simp only [hexpected] at h
    split_ifs at h with hsame
    obtain ⟨rfl, rfl, rfl⟩ := hsame
    cases hrecord : w.record eIcount 0 (.epochHash eIndex eValue) with
    | error e => simp [hrecord] at h
    | ok log =>
      simp only [hrecord] at h
      cases h
      exact ⟨rfl, rfl, rfl⟩

lemma sinkEpoch_replay {icount : ℕ} {s s' : Seg H σ Audit}
    (h : sinkEpoch P (replayRequest log start stop hashFinalStop hashFinalEpoch) icount s =
      .ok s') : ∃ index, log.epochs[s.caller.verified]? = some (index, icount, s.chain) ∧
      s.rail.append icount 0 (.epochHash index s.chain) = .ok s'.rail ∧ s'.caller =
        { s.caller with verified := s.caller.verified + 1, lastEpochIcount := some icount } := by
  obtain ⟨⟨w, a⟩, hsink, h⟩ := bind_eq_ok.mp h
  cases h
  have hverify : verifyEpoch log.epochs (icount / max P.config.epochLen 1) icount s.chain
      (s.rail.log, s.caller) = .ok (w, a) := by
    change Flight.lift (verifyEpoch _ _ _ _ _) = _ at hsink
    cases hres : verifyEpoch log.epochs (icount / max P.config.epochLen 1) icount s.chain
        (s.rail.log, s.caller) with
    | error e => simp [hres, Flight.lift] at hsink
    | ok v => rw [hres] at hsink; exact congrArg _ (Except.ok.inj hsink)
  obtain ⟨hexpected, hrecord, ha⟩ := verifyEpoch_eq_ok hverify
  exact ⟨_, hexpected, Rail.append_eq_ok.mpr ⟨w, hrecord, rfl⟩, ha⟩

lemma carries_audited (origin : Rail H σ × H × H) (kept : H) :
    Carries P (replayRequest log start stop hashFinalStop hashFinalEpoch)
      (fun s => Audited P log origin kept s.rail s.chain s.caller) where
  entry := by
    intro s s' haudited hentry
    obtain ⟨hrail, hchain, hcursor⟩ := entry_cursor hentry
    rw [hchain]
    exact haudited.move (.entry hrail) hcursor
  epoch := by
    intro s s' vns haudited hsink
    obtain ⟨index, hexpected, happend, hcaller⟩ := sinkEpoch_replay hsink
    rw [hcaller, sinkEpoch_chain hsink]
    exact haudited.verify hexpected rfl happend

lemma carries_latest : Carries P (replayRequest log start stop hashFinalStop hashFinalEpoch)
      (fun s => Latest P s.chain s.caller) where
  entry := by
    intro s s' hlatest hentry
    obtain ⟨-, hchain, hcursor⟩ := entry_cursor hentry
    rw [hchain]
    exact hlatest.same hcursor
  epoch := by
    intro s s' vns _ hsink n hn
    obtain ⟨index, -, -, hcaller⟩ := sinkEpoch_replay hsink
    rw [hcaller] at hn
    obtain rfl : s.rail.icount = n := Option.some.inj hn
    rw [sinkEpoch_chain hsink]
    exact linkedAt_pushLink P _ vns s

end Quanta

section RunTo

variable [DecidableEq H] {P : Platform H σ X} {fuel : ℕ} {log : SealedLog H} {target : ℕ}
  {hashFinalStop hashFinalEpoch : Bool} {frameBudget : Option ℕ} {st st' : ReplayState H σ}
  {tail : Option (SegmentOutcome H)}

lemma runTo_cases
    (h : runTo P fuel log target hashFinalStop hashFinalEpoch frameBudget st = .ok (tail, st')) :
    (tail = none ∧ st' = st ∧ st.rail.icount = target) ∨ ∃ out s stop, tail = some out ∧
        runSegment P fuel (replayRequest log st.rail.icount stop hashFinalStop hashFinalEpoch)
          st.rail st.chain st.audit = .ok (out, s) ∧
        st' = { st with rail := s.rail, chain := s.chain, audit := s.caller } := by
  unfold runTo at h
  dsimp only at h
  split_ifs at h with hbehind hthere
  · cases h
    exact .inl ⟨rfl, rfl, hthere.1.symm⟩
  cases hstop : quantumStop (target - st.rail.icount) frameBudget with
  | none => simp [hstop] at h
  | some stop =>
    simp only [hstop] at h
    cases hrun : runSegment P fuel
        (replayRequest log st.rail.icount stop hashFinalStop hashFinalEpoch)
        st.rail st.chain st.audit with
    | error e => simp [hrun] at h
    | ok w =>
      obtain ⟨out, s⟩ := w
      simp only [hrun] at h
      cases h
      exact .inr ⟨out, s, stop, rfl, hrun, rfl⟩

structure Ran (P : Platform H σ X) (log : SealedLog H) (target : ℕ) (hashFinalStop : Bool)
    (st st' : ReplayState H σ) (tail : Option (SegmentOutcome H)) : Prop where
  audited : ∀ origin kept, Audited P log origin kept st.rail st.chain st.audit →
    Audited P log origin kept st'.rail st'.chain st'.audit
  latest : hashFinalStop = false → Latest P st.chain st.audit → Latest P st'.chain st'.audit
  idle : tail = none → st' = st ∧ st.rail.icount = target
  boundary_eq : ∀ out, tail = some out → out.boundary.icount = st'.rail.icount
  linked : hashFinalStop = true → ∀ out, tail = some out → LinkedAt P st'.rail.icount st'.chain

lemma ran_of_runTo
    (h : runTo P fuel log target hashFinalStop hashFinalEpoch frameBudget st = .ok (tail, st')) :
    Ran P log target hashFinalStop st st' tail := by
  rcases runTo_cases h with ⟨rfl, rfl, hat⟩ | ⟨out, s, stop, rfl, hrun, rfl⟩
  · exact ⟨fun _ _ => id, fun _ => id, fun _ => ⟨rfl, hat⟩, nofun, fun _ => nofun⟩
  · obtain ⟨s1, boundary, vns, hashed, hclosing⟩ := Carries.runSegment_closing
      (I := fun _ => True) ⟨fun _ _ => trivial, fun _ _ => trivial⟩ bare_replayRequest trivial hrun
    refine ⟨fun origin kept haudited => ?_, fun hno hlatest => ?_, nofun, ?_, ?_⟩
    · obtain ⟨s2, _, _, _, hclosing⟩ :=
        (carries_audited origin kept).runSegment_closing bare_replayRequest haudited hrun
      rcases hclosing.chain_cases with hchain | ⟨vns, hchain⟩
      all_goals
        dsimp only
        rw [hclosing.rail_eq.1, hclosing.caller_eq, hchain]
      · exact hclosing.carried
      · exact hclosing.carried.move (.link _ _ _ vns) ⟨rfl, rfl⟩
    · obtain ⟨s2, _, _, _, hclosing⟩ :=
        carries_latest.runSegment_closing bare_replayRequest hlatest hrun
      rw [hclosing.eq_of_no_link hno]
      exact hclosing.carried
    · rintro _ ⟨⟩
      exact hclosing.rail_eq.2
    · rintro hfinal _ ⟨⟩
      exact hclosing.linkedAt hfinal

end RunTo

section Walk

variable {P : Platform H σ X} {fuel : ℕ} {log : SealedLog H}
  {start : Rail H σ × H × H} {kept : H} {st st' : ReplayState H σ}

structure OnCourse (P : Platform H σ X) (log : SealedLog H) (start : Rail H σ × H × H) (kept : H)
    (st : ReplayState H σ) : Prop where
  audited : Audited P log start kept st.rail st.chain st.audit
  latest : Latest P st.chain st.audit

/-- The value kept for the retry may be set anew before the tail. -/
lemma onCourse_keep (h : OnCourse P log start kept st) : OnCourse P log start st.chain st :=
  ⟨h.audited.move (.keep ..) ⟨rfl, rfl⟩, h.latest⟩

lemma requireLanded_icount {hashFinalStop : Bool} {out : Option (SegmentOutcome H)} {target : ℕ}
    (hran : Ran P log target hashFinalStop st st' out) (h : requireLanded out target = .ok ()) :
    st'.rail.icount = target := by
  unfold requireLanded at h
  split at h
  · obtain ⟨rfl, hat⟩ := hran.idle rfl
    exact hat
  · rename_i o
    split_ifs at h with hlanded
    exact (hran.boundary_eq o rfl).symm.trans hlanded.2

variable [DecidableEq H]

lemma OnCourse.runTo {target : ℕ} {hashFinalEpoch : Bool} {frameBudget : Option ℕ}
    {tail : Option (SegmentOutcome H)} (h : OnCourse P log start kept st)
    (hrun : runTo P fuel log target false hashFinalEpoch frameBudget st = .ok (tail, st')) :
    OnCourse P log start kept st' := by
  have hran := ran_of_runTo hrun
  exact ⟨hran.audited _ _ h.audited, hran.latest rfl h.latest⟩

lemma OnCourse.verifyCurrentEpoch {icount : ℕ} (h : OnCourse P log start kept st)
    (hicount : st.rail.icount = icount)
    (hverify : verifyCurrentEpoch P log icount st = .ok st') : OnCourse P log start kept st' := by
  unfold DetHypervisor.verifyCurrentEpoch at hverify
  cases hexpected : log.epochs[st.audit.verified]? with
  | none =>
    simp only [hexpected, Except.ok.injEq] at hverify
    exact hverify ▸ h
  | some e =>
    obtain ⟨eIndex, eIcount, eValue⟩ := e
    simp only [hexpected] at hverify
    by_cases hcount : eIcount ≠ icount
    · rw [if_pos hcount] at hverify
      exact Except.ok.inj hverify ▸ h
    rw [if_neg hcount] at hverify
    obtain rfl := not_not.mp hcount
    cases hvns : P.config.clock.vnsFromIcount eIcount with
    | none => simp [hvns] at hverify
    | some vns =>
      simp only [hvns] at hverify
      split_ifs at hverify with hdiffers
      obtain ⟨hindex, hvalue⟩ := not_or.mp hdiffers
      obtain rfl := not_not.mp hindex
      cases happend : Rail.append (pushReplayLink P eIcount vns st).rail eIcount 0
          (.epochHash (eIcount / max P.config.epochLen 1)
            (pushReplayLink P eIcount vns st).chain) with
      | error e => simp [happend] at hverify
      | ok rail =>
        simp only [happend] at hverify
        cases hverify
        rw [not_not.mp hvalue] at hexpected
        subst hicount
        refine ⟨h.audited.verify hexpected rfl happend, ?_⟩
        intro n hn
        obtain rfl : st.rail.icount = n := Option.some.inj hn
        exact ⟨_, _, _, rfl⟩

lemma OnCourse.replayFrameMarksBefore {seqLimit icountLimit : ℕ} {defer : Bool}
    {marks : List (Record H)} (h : OnCourse P log start kept st)
    (hmarks : replayFrameMarksBefore P fuel log seqLimit icountLimit defer marks st = .ok st') :
    OnCourse P log start kept st' := by
  induction marks generalizing st with
  | nil =>
    cases hmarks
    exact ⟨h.audited, h.latest⟩
  | cons mark marks ih =>
    unfold DetHypervisor.replayFrameMarksBefore at hmarks
    split_ifs at hmarks
    · cases hmarks
      exact ⟨h.audited, h.latest⟩
    · obtain ⟨⟨out, st1⟩, hrun, hmarks⟩ := bind_eq_ok.mp hmarks
      have hnext : OnCourse P log start kept { st with marks } := ⟨h.audited, h.latest⟩
      cases out with
      | none => cases hmarks
      | some o =>
        dsimp only at hmarks
        split_ifs at hmarks
        exact ih (hnext.runTo hrun) hmarks

lemma OnCourse.applyRecord {r : Record H} {kind : InputKind} {defer last : Bool}
    (h : OnCourse P log start kept st)
    (happly : applyRecord P fuel log r kind defer last st = .ok st') :
    OnCourse P log start kept st' := by
  obtain ⟨⟨out, st1⟩, hrun, happly⟩ := bind_eq_ok.mp happly
  obtain ⟨_, hlanded, happly⟩ := bind_eq_ok.mp happly
  have h1 := h.runTo hrun
  have hat := requireLanded_icount (ran_of_runTo hrun) hlanded
  cases hinput : st1.rail.applyInput P kind r.icount r.boundaryRip with
  | error e => simp [hinput] at happly
  | ok w =>
    obtain ⟨rail, vector⟩ := w
    cases vector with
    | some v => simp [hinput] at happly
    | none =>
      simp only [hinput] at happly
      obtain ⟨st2, hverify, happly⟩ := bind_eq_ok.mp happly
      cases happly
      have hcount := (Rail.applyInput_spec hinput).1.trans hat
      have hinput : OnCourse P log start kept { st1 with rail } :=
        ⟨h1.audited.move (.input (hat.symm ▸ hinput)) ⟨rfl, rfl⟩, h1.latest⟩
      have hverified : OnCourse P log start kept st2 := by
        split_ifs at hverify
        · exact hinput.verifyCurrentEpoch hcount hverify
        · exact Except.ok.inj hverify ▸ hinput
      exact ⟨hverified.audited, hverified.latest⟩

lemma OnCourse.replayCanonical {rs : List (Record H)} (h : OnCourse P log start kept st)
    (hwalk : replayCanonical P fuel log rs st = .ok st') : OnCourse P log start kept st' := by
  induction rs generalizing st with
  | nil => exact Except.ok.inj hwalk ▸ h
  | cons r rest ih =>
    obtain ⟨st1, hmarks, hwalk⟩ := bind_eq_ok.mp hwalk
    have h1 := h.replayFrameMarksBefore hmarks
    cases hkind : r.body.input? with
    | none => simp [hkind] at hwalk
    | some kind =>
      simp only [hkind] at hwalk
      split_ifs at hwalk
      · exact ih h1 hwalk
      · obtain ⟨st2, happly, hwalk⟩ := bind_eq_ok.mp hwalk
        exact ih (h1.applyRecord happly) hwalk

lemma OnCourse.replayWalk (h : OnCourse P log start kept st)
    (hwalk : replayWalk P fuel log st = .ok st') : OnCourse P log start kept st' := by
  obtain ⟨st1, hcanonical, hmarks⟩ := bind_eq_ok.mp hwalk
  exact (h.replayCanonical hcanonical).replayFrameMarksBefore hmarks

end Walk

section End

variable {P : Platform H σ X} {fuel : ℕ} {log : SealedLog H}
  {expected : StopReason} {start : Rail H σ × H × H} {kept : H} {st0 st st' : ReplayState H σ}
  {tail : Option (SegmentOutcome H)}

structure AtEnd (P : Platform H σ X) (log : SealedLog H) (st : ReplayState H σ) : Prop where
  icount_eq : st.rail.icount = log.ending.endIcount
  linked : LinkedAt P log.ending.endIcount st.chain

def TrueEnd (tail : Option (SegmentOutcome H)) (st : ReplayState H σ) : Prop :=
  ∀ out, tail = some out → out.boundary.icount = st.rail.icount

lemma atEnd_linkAtEnd (hlatest : Latest P st.chain st.audit)
    (hicount : st.rail.icount = log.ending.endIcount) : AtEnd P log (linkAtEnd P log none st) := by
  unfold linkAtEnd
  by_cases hlast : st.audit.lastEpochIcount = some log.ending.endIcount
  · rw [if_neg (by simp [hlast])]
    exact ⟨hicount, hlatest _ hlast⟩
  · rw [if_pos (by simp [hlast, hicount])]
    exact ⟨hicount, _, _, _, rfl⟩

lemma linkAtEnd_keeps (tail : Option (SegmentOutcome H)) (st : ReplayState H σ) :
    (linkAtEnd P log tail st).rail = st.rail ∧ (linkAtEnd P log tail st).audit = st.audit := by
  unfold linkAtEnd
  split_ifs <;> exact ⟨rfl, rfl⟩

lemma Audited.linkAtEnd (h : Audited P log start kept st.rail st.chain st.audit) :
    Audited P log start kept (linkAtEnd P log tail st).rail (linkAtEnd P log tail st).chain
      (linkAtEnd P log tail st).audit := by
  unfold DetHypervisor.linkAtEnd
  split_ifs with hlink
  · have hat : st.rail.icount = log.ending.endIcount := by
      simp only [Bool.and_eq_true, decide_eq_true_iff] at hlink
      exact hlink.1.2
    exact h.move (hat ▸ .link st.rail st.chain kept log.ending.endVns) ⟨rfl, rfl⟩
  · exact h

lemma substitutionAllowed_short {observed : Option ℕ} {endIcount : ℕ}
    (h : substitutionAllowed tail observed endIcount expected = true) :
    ∃ out, tail = some out ∧ out.boundary.icount < endIcount := by
  unfold substitutionAllowed at h
  split at h
  · exact ⟨_, rfl, (decide_eq_true_iff.mp h).2.2.2⟩
  · cases h

variable [DecidableEq H]

/-- A guest that goes idle before the recorded end: the log ends on an SDK event, its END says
BudgetReached, and the tail, run from `st0`, stopped on HLT short of the end. -/
structure HaltedEarly (P : Platform H σ X) (fuel : ℕ) (log : SealedLog H)
    (expected : StopReason) (st0 st : ReplayState H σ) : Prop where
  target : log.terminalSdkTarget.isSome = true
  reason : expected = .budgetReached
  halted : ∃ out st1, runTo P fuel log log.ending.endIcount false true none st0 =
    .ok (some out, st1) ∧ out.reason = .guestHalted ∧ out.boundary.icount = st.rail.icount
  observed : ∃ seen, st.audit.observed = some seen ∧ seen ≤ st.rail.icount
  short : st.rail.icount < log.ending.endIcount

lemma exactTail_end (h : OnCourse P log start kept st0)
    (htail : exactTail P fuel log expected st0 = .ok (tail, st)) :
    Audited P log start kept st.rail st.chain st.audit ∧ TrueEnd tail st ∧
      AtEnd P log (linkAtEnd P log tail st) := by
  obtain ⟨⟨out, st1⟩, hrun, htail⟩ := bind_eq_ok.mp htail
  have hran := ran_of_runTo hrun
  cases out with
  | none =>
    cases htail
    obtain ⟨rfl, hicount⟩ := hran.idle rfl
    exact ⟨h.audited, nofun, atEnd_linkAtEnd h.latest hicount⟩
  | some out =>
    dsimp only at htail
    split_ifs at htail with hreason hvns
    cases htail
    have hicount := (hran.boundary_eq out rfl).symm.trans hreason.2
    refine ⟨hran.audited _ _ h.audited, hran.boundary_eq, hicount, ?_⟩
    exact hicount ▸ hran.linked rfl out rfl

lemma terminalTail_end {target : SdkEvent} (htarget : log.terminalSdkTarget = some target)
    (h : OnCourse P log start kept st0)
    (htail : terminalTail P fuel log expected target st0 = .ok (tail, st)) :
    Audited P log start kept st.rail st.chain st.audit ∧ TrueEnd tail st ∧
      (AtEnd P log (linkAtEnd P log tail st) ∨
        HaltedEarly P fuel log expected st0 (linkAtEnd P log tail st)) := by
  obtain ⟨⟨out, st1⟩, hrun, htail⟩ := bind_eq_ok.mp htail
  have hran := ran_of_runTo hrun
  have h1 := h.runTo hrun
  cases hdrain : st1.rail.drainAtPause P log.ending.endIcount with
  | error e => simp [hdrain] at htail
  | ok w =>
    obtain ⟨rail, es⟩ := w
    simp only [hdrain] at htail
    have hstays := (drainAtPause_log hdrain).1
    have hcursor := noteTerminal_cursor (some target) log.ending.endIcount
      (es.filterMap Emit.sdk?) st1.audit
    have haudited := h1.audited.move (.drain hdrain) hcursor
    cases hseen : (noteTerminal (some target) log.ending.endIcount
        (es.filterMap Emit.sdk?) st1.audit).observed with
    | none => simp [hseen] at htail
    | some observed =>
      simp only [hseen] at htail
      cases out with
      | none =>
        cases htail
        obtain ⟨rfl, hicount⟩ := hran.idle rfl
        refine ⟨haudited, nofun, .inl (atEnd_linkAtEnd (h1.latest.same hcursor) ?_)⟩
        exact hstays.trans hicount
      | some out =>
        dsimp only at htail
        have hboundary := (hran.boundary_eq out rfl).trans hstays.symm
        have hstanding : ∀ o, some out = some o → o.boundary.icount = rail.icount := by
          rintro _ ⟨⟩
          exact hboundary
        split_ifs at htail with hmatch hend hvns
        · cases htail
          have hat := hboundary.symm.trans hend
          refine ⟨?_, hstanding, .inl ⟨hat, ⟨_, _, _, rfl⟩⟩⟩
          exact haudited.move (hat ▸ .link rail st1.chain kept log.ending.endVns) ⟨rfl, rfl⟩
        · cases htail
          rw [Bool.not_eq_false, terminalTailMatches, Bool.or_eq_true, decide_eq_true_iff,
            decide_eq_true_iff] at hmatch
          rcases hmatch with hexact | ⟨rfl, hhalted, hle, hle'⟩
          · exact absurd hexact.2 hend
          · refine ⟨haudited, hstanding, .inr ⟨by rw [htarget]; rfl, rfl,
              ⟨out, st1, hrun, hhalted, hboundary⟩, ⟨observed, hseen, ?_⟩, ?_⟩⟩
            · exact hle.trans hboundary.le
            · exact hboundary.symm.trans_lt (lt_of_le_of_ne hle' hend)

lemma replayTail_end (h : OnCourse P log start kept st0)
    (htail : replayTail P fuel log expected st0 = .ok (tail, st)) :
    Audited P log start kept st.rail st.chain st.audit ∧ TrueEnd tail st ∧
      (AtEnd P log st ∨ HaltedEarly P fuel log expected st0 st) := by
  obtain ⟨⟨out, st1⟩, hrun, htail⟩ := bind_eq_ok.mp htail
  cases htail
  have hend : Audited P log start kept st1.rail st1.chain st1.audit ∧ TrueEnd tail st1 ∧
      (AtEnd P log (linkAtEnd P log tail st1) ∨
        HaltedEarly P fuel log expected st0 (linkAtEnd P log tail st1)) := by
    cases htarget : log.terminalSdkTarget with
    | none =>
      rw [htarget] at hrun
      exact (exactTail_end h hrun).imp_right fun hend => hend.imp_right .inl
    | some target =>
      rw [htarget] at hrun
      exact terminalTail_end htarget h hrun
  refine ⟨hend.1.linkAtEnd, ?_, hend.2.2⟩
  unfold TrueEnd
  rw [(linkAtEnd_keeps tail st1).1]
  exact hend.2.1

lemma haltRetry_end {liveEnd value : H}
    (haudited : Audited P log start kept st.rail st.chain st.audit)
    (h : haltRetry P fuel log kept liveEnd st = .ok (value, st')) : value = liveEnd ∨
      Audited P log start kept st'.rail st'.chain st'.audit ∧ AtEnd P log st' ∧
        value = st'.chain := by
  unfold haltRetry at h
  cases htarget : checkedAdd log.ending.endIcount 1 with
  | none => simp [htarget] at h
  | some target =>
    simp only [htarget] at h
    obtain ⟨⟨out, st1⟩, hrun, h⟩ := bind_eq_ok.mp h
    have hran := ran_of_runTo hrun
    cases out with
    | none =>
      cases h
      exact .inl rfl
    | some out =>
      dsimp only at h
      split_ifs at h with hhalted hvns
      · cases h
        have hicount := (hran.boundary_eq out rfl).symm.trans hhalted.2
        refine .inr ⟨hran.audited _ _ (haudited.move (.retry ..) ⟨rfl, rfl⟩), ⟨hicount, ?_⟩, rfl⟩
        exact hicount ▸ hran.linked rfl out rfl
      · cases h
        exact .inl rfl

lemma liveEndOf_end {verifiedBeforeTail : ℕ}
    (haudited : Audited P log start kept st.rail st.chain st.audit) (hstanding : TrueEnd tail st)
    (hend : AtEnd P log st ∨ HaltedEarly P fuel log expected st0 st)
    (h : liveEndOf P fuel log expected verifiedBeforeTail kept tail st =
      .ok (log.ending.endStateHash, st')) : Audited P log start kept st'.rail st'.chain st'.audit ∧
      (AtEnd P log st' ∧ st'.chain = log.ending.endStateHash ∨
        HaltedEarly P fuel log expected st0 st') := by
  unfold liveEndOf at h
  dsimp only at h
  by_cases hsubst : st.chain ≠ log.ending.endStateHash ∧ log.terminalSdkTarget.isSome = true ∧
      substitutionAllowed tail st.audit.observed log.ending.endIcount expected = true
  · rw [if_pos hsubst, if_neg (fun h => h.1 rfl)] at h
    cases h
    refine ⟨haudited, hend.elim (fun hatEnd => ?_) .inr⟩
    obtain ⟨out, htail, hlt⟩ := substitutionAllowed_short hsubst.2.2
    have hicount := (hstanding out htail).trans hatEnd.icount_eq
    omega
  · rw [if_neg hsubst] at h
    split_ifs at h with hretry
    · rcases haltRetry_end haudited h with hsame | ⟨haudited', hatEnd, hvalue⟩
      · exact absurd hsame.symm hretry.1
      · exact ⟨haudited', .inl ⟨hatEnd, hvalue.symm⟩⟩
    · obtain ⟨hvalue, rfl⟩ := Prod.mk.inj (Except.ok.inj h)
      exact ⟨haudited, hend.imp_left fun hatEnd => ⟨hatEnd, hvalue⟩⟩

lemma concludeReplay_end {liveEnd : H} {outcome : ReplayOutcome H}
    (h : concludeReplay log expected liveEnd st = .ok outcome) :
    st.audit.verified = log.epochs.length ∧ liveEnd = log.ending.endStateHash ∧
      outcome.resealed.records = st.rail.log.records := by
  unfold concludeReplay at h
  split_ifs at h with hcount hvalue
  cases hseal : st.rail.log.seal ⟨log.ending.endSnapshotId, log.ending.endIcount,
      log.ending.endVns, liveEnd, stopReasonU8 expected⟩ with
  | error e => simp [hseal] at h
  | ok resealed =>
    simp only [hseal] at h
    split_ifs at h
    cases h
    obtain ⟨-, -, rfl⟩ := LogWriter.seal_eq_ok_iff.mp hseal
    exact ⟨not_not.mp hcount, not_not.mp hvalue, rfl⟩

end End

/-- `replay_segment` succeeds only if the recorded EPOCH_HASH records are, in order, the chain
values after the links the replay pushed and logged at its counter, and it stands at the recorded
end with the recorded hash as its chain value there, or the early-halt accommodation applies. -/
theorem replay_verdict_sound [DecidableEq H] {P : Platform H σ X} {fuel : ℕ}
    {base : Restored H σ} {log : SealedLog H} {outcome : ReplayOutcome H}
    (h : replaySegment P fuel base log = .ok outcome) :
    ∃ expected st0 st moves kept, stopReasonFromU8 log.ending.stopReason = some expected ∧
      replayWalk P fuel log (startReplay P base log) = .ok st0 ∧
      replayFrom P fuel log expected (startReplay P base log) = .ok (st, outcome) ∧
      Traced (Replays P) moves ((startReplay P base log).rail, base.chain, base.chain)
        (st.rail, st.chain, kept) ∧ moves.reduceOption = log.epochs ∧
      outcome.resealed.epochs = log.epochs ∧ outcome.resealed.records = st.rail.log.records ∧
      (st.rail.icount = log.ending.endIcount ∧ LinkedAt P log.ending.endIcount st.chain ∧
          st.chain = log.ending.endStateHash ∨ HaltedEarly P fuel log expected st0 st) := by
  unfold replaySegment at h
  split_ifs at h with hformed
  obtain ⟨-, -, h⟩ := bind_eq_ok.mp h
  cases hreason : stopReasonFromU8 log.ending.stopReason with
  | none => simp [hreason] at h
  | some expected =>
    simp only [hreason] at h
    obtain ⟨⟨st, out⟩, hfrom, rfl⟩ := map_eq_ok.mp h
    have hreplay := hfrom
    obtain ⟨st0, hwalk, hfrom⟩ := bind_eq_ok.mp hfrom
    obtain ⟨⟨tail, st1⟩, htail, hfrom⟩ := bind_eq_ok.mp hfrom
    obtain ⟨⟨liveEnd, st2⟩, hlive, hfrom⟩ := bind_eq_ok.mp hfrom
    obtain ⟨outcome, hconclude, hfrom⟩ := bind_eq_ok.mp hfrom
    obtain ⟨rfl, rfl⟩ := Prod.mk.inj (Except.ok.inj hfrom)
    obtain ⟨hcount, rfl, hrecords⟩ := concludeReplay_end hconclude
    have hstart : OnCourse P log ((startReplay P base log).rail, base.chain, base.chain) base.chain
        (startReplay P base log) := ⟨⟨⟨[], .nil _, rfl⟩, Nat.zero_le _⟩, nofun⟩
    have htrack := onCourse_keep (hstart.replayWalk hwalk)
    obtain ⟨haudited, hstanding, hend⟩ := replayTail_end htrack htail
    obtain ⟨haudited', hend'⟩ := liveEndOf_end haudited hstanding hend hlive
    obtain ⟨moves, hmoves, hepochs⟩ := haudited'.traced
    rw [hcount, take_length] at hepochs
    refine ⟨expected, st0, st2, moves, st0.chain, rfl, hwalk, hreplay, hmoves, hepochs, ?_,
      hrecords, ?_⟩
    · rw [SealedLog.epochs, hrecords, epochs_of_traced hmoves, hepochs]
      rfl
    · exact hend'.imp_left fun hatEnd => ⟨hatEnd.1.icount_eq, hatEnd.1.linked, hatEnd.2⟩

def bareLog (records : List (Record LinkTrace)) (endIcount : ℕ) (endStateHash : LinkTrace) :
    SealedLog LinkTrace where
  header := ⟨[], none, [], ClockRatio.default.num, ClockRatio.default.den, 0⟩
  ending := ⟨[], endIcount, endIcount, endStateHash, stopReasonU8 .budgetReached⟩
  records := records

/-- The chain of the counting guest after its links at `counts`, latest first. -/
def countedChain (counts : List ℕ) : LinkTrace :=
  counts.map fun n => (⟨[], [], [[UInt8.ofNat n]]⟩, n, n)

theorem replay_verdict_sound_counting :
    ∃ st, st.rail.icount = 15 ∧ st.chain = countedChain [15, 10] ∧
      ∃ outcome, replayFrom (counting 10) 50
        (bareLog [⟨0, 10, 0, .epochHash 1 (countedChain [10])⟩] 15 (countedChain [15, 10]))
        .budgetReached (startReplay (counting 10) ⟨[], 0, []⟩
          (bareLog [⟨0, 10, 0, .epochHash 1 (countedChain [10])⟩] 15 (countedChain [15, 10]))) =
        .ok (st, outcome) := by
  obtain ⟨outcome, hreplay⟩ : ∃ outcome, replaySegment (counting 10) 50 ⟨[], 0, []⟩
      (bareLog [⟨0, 10, 0, .epochHash 1 (countedChain [10])⟩] 15 (countedChain [15, 10])) =
        .ok outcome := exists_eq_ok (by decide +kernel)
  obtain ⟨expected, st0, st, moves, kept, hreason, -, hfrom, -, -, -, -, hend⟩ :=
    replay_verdict_sound hreplay
  obtain rfl : StopReason.budgetReached = expected := Option.some.inj hreason
  rcases hend with ⟨hicount, -, hchain⟩ | hearly
  · exact ⟨st, hicount, hchain, outcome, hfrom⟩
  · exact absurd hearly.target (by decide)

def idling : Platform LinkTrace ℕ (List Emit) :=
  scripted 100 (fun s => if s = 3 then .device [.sdk ⟨1, 0, 0⟩] 50 else if s = 50 then .debug 1 4
    else if s = 5 then .hlt 5 else .debug 1 (s + 1)) (fun s => (s, []))

/-- A log that has the event at its end at 10, with an end hash out of nowhere. -/
def idlingLog : SealedLog LinkTrace :=
  bareLog [⟨0, 10, 0, .sdkEvent ⟨1, 0, 0⟩⟩] 10 (countedChain [77])

/-- The replay stops at 5 with the chain value of the base, and the log passes. -/
theorem early_halt_accepted :
    (replaySegment idling 50 ⟨[], 0, []⟩ idlingLog).toOption.isSome = true ∧
      (replayFrom idling 50 idlingLog .budgetReached
          (startReplay idling ⟨[], 0, []⟩ idlingLog)).toOption.map
        (fun r => (r.1.rail.icount, r.1.chain)) = some (5, []) ∧
      idlingLog.ending.endIcount = 10 ∧ idlingLog.ending.endStateHash ≠ [] := by
  decide +kernel

end DetHypervisor
