import DetHypervisor.FaithfulReplay

/-!
# The log a replay writes

From a replay that succeeds back to the log it was given: between two records its own log grows
by stretches without inputs, and the inputs it adds are those of the recording.
-/

namespace DetHypervisor

open List Except Rail

variable {H σ X : Type} {P : Platform H σ X} {fuel : ℕ} {log : SealedLog H}

section Quanta

variable {τ : Type} {req : RunRequest H σ τ} {s s' : Seg H σ τ} {out : SegmentOutcome H}

lemma runSegment_stretch {b : ℕ} {rail : Rail H σ} {chain : H} {caller : τ} (hplain : Plain req)
    (hfinal : req.finalStop = .icountBudget b ∨ req.finalStop = .hardCap b)
    (hinputs : req.inputs = []) (hlive : ∀ frame, req.liveInputs frame = [])
    (hframe : req.frameTarget ≠ some 0)
    (h : runSegment P fuel req rail chain caller = .ok (out, s')) :
    (∃ new, Stretch P rail s'.rail new) ∧ out.boundary.icount = s'.rail.icount ∧
      rail.icount + b < 2 ^ 64 := by
  obtain ⟨-, hlt, kind, result, -, hcourse, hsettle⟩ :=
    runSegment_eq_ok hplain hfinal (.inr hinputs) hframe h
  have hdue : dueInputs req (rail.icount + b) = [] := by simp [dueInputs, hinputs]
  rw [hdue] at hcourse
  cases hcourse with
  | final hfinished =>
    obtain ⟨hrail, hboundary⟩ := finish_rail (Except.ok.inj hsettle)
    obtain ⟨xs, hxs⟩ := hfinished.journey.stretch (hfinished.took.eq_nil rfl hlive)
    obtain ⟨n, -, hcoast⟩ := hfinished.coast
    obtain ⟨ys, hys, -⟩ := hcoast.stretch
    refine ⟨⟨_, hrail ▸ hxs.trans hys⟩, ?_, hlt⟩
    rw [hboundary, hfinished.boundary_eq, hrail, hfinished.landed]
  | frame hjourney _ htook =>
    obtain ⟨hrail, hboundary⟩ := finishAtCounter_rail hsettle
    obtain ⟨xs, hxs⟩ := hjourney.stretch (htook.eq_nil rfl hlive)
    exact ⟨⟨xs, hrail ▸ hxs⟩, hrail ▸ hboundary, hlt⟩
  | halted hjourney _ hcoast _ _ henter htook =>
    obtain ⟨hrail, hboundary⟩ := finishAtCounter_rail hsettle
    obtain ⟨hicount, hlog⟩ := enter_eq_halted henter
    obtain ⟨xs, hxs⟩ := hjourney.stretch (htook.eq_nil rfl hlive)
    obtain ⟨ys, hys, -⟩ := hcoast.stretch
    have hstay : Stretch P _ _ [] := .of_emitted hicount.ge ⟨by rw [hlog], by simp [hlog]⟩
      (by simp)
    exact ⟨⟨_, hrail ▸ (hxs.trans hys).trans hstay⟩, hrail ▸ hboundary, hlt⟩
  | withInputs hne => exact absurd hinputs hne
  | failed e => cases hsettle

end Quanta

variable {st st' : ReplayState H σ} {out : Option (SegmentOutcome H)}

lemma Rail.drainAtPause_spec {n : ℕ} {r r' : Rail H σ} {es : List Emit}
    (h : r.drainAtPause P n = .ok (r', es)) :
    ∃ new, Appended r.log new r'.log ∧ ∀ x ∈ new, Emitted P x := by
  unfold Rail.drainAtPause at h
  split_ifs at h
  · obtain ⟨-, marks, new, happended, hnew, hmarks⟩ := service_spec h
    obtain rfl : marks = [] := hmarks
    exact ⟨new, happended, fun x hx => (hnew x hx).1⟩
  · cases h
    exact ⟨[], .refl _, by simp⟩

structure RanTo (P : Platform H σ X) (t : ℕ) (frameBudget : Option ℕ) (st st' : ReplayState H σ)
    (out : Option (SegmentOutcome H)) : Prop where
  stretch : ∃ new, Stretch P st.rail st'.rail new
  marks_eq : st'.marks = st.marks
  applied_eq : st'.recordsApplied = st.recordsApplied
  stayed : out = none → st' = st ∧ st.rail.icount = t
  boundary_eq : ∀ o, out = some o → o.boundary.icount = st'.rail.icount
  margin : frameBudget = some 1 → t + 1000000 < 2 ^ 64

variable {frameBudget : Option ℕ}

lemma RanTo.landed {t : ℕ} (h : RanTo P t frameBudget st st' out)
    (hlanded : requireLanded out t = .ok ()) : st'.rail.icount = t := by
  cases out with
  | none =>
    obtain ⟨rfl, ht⟩ := h.stayed rfl
    exact ht
  | some o =>
    rw [requireLanded] at hlanded
    split_ifs at hlanded with ho
    exact (h.boundary_eq o rfl).symm.trans ho.2

/-! ## What the log accounts for -/

lemma RecordBody.body_of_input {b : RecordBody H} {kind : InputKind}
    (h : b.input? = some kind) : kind.body = b := by
  cases b <;> cases h <;> rfl

def ownInput (P : Platform H σ X) (r : Record H) : Bool := r.isCanonical && !regenerated P r

def ownInputsAt (P : Platform H σ X) (n : ℕ) (rs : List (Record H)) : ℕ :=
  rs.countP fun r => ownInput P r && decide (r.icount = n)

lemma Ordered.beyond_of_head {r : Record H} {rest : List (Record H)} (h : Ordered (r :: rest))
    (hhead : rest.head?.map Record.icount ≠ some r.icount) : ∀ d ∈ rest, r.icount < d.icount := by
  cases rest with
  | nil => simp
  | cons x rest =>
    have hall := pairwise_cons.mp h
    have hx : r.icount < x.icount :=
      (hall.1 x mem_cons_self).2.lt_of_ne fun heq => hhead (by simp [heq])
    intro d hd
    rcases mem_cons.mp hd with rfl | hd
    · exact hx
    · exact hx.trans_le ((pairwise_cons.mp hall.2).1 d hd).2

lemma ownInputsAt_append (n : ℕ) (xs ys : List (Record H)) :
    ownInputsAt P n (xs ++ ys) = ownInputsAt P n xs + ownInputsAt P n ys := countP_append

lemma ownInputsAt_eq_zero {n : ℕ} {rs : List (Record H)}
    (h : ∀ x ∈ rs, x.isCanonical = true → regenerated P x = true) : ownInputsAt P n rs = 0 := by
  refine countP_eq_zero.mpr fun x hx hown => ?_
  simp only [ownInput, Bool.and_eq_true, Bool.not_eq_true'] at hown
  rw [h x hx hown.1.1] at hown
  cases hown.1.2

lemma ownInputsAt_canonical (n : ℕ) :
    ownInputsAt P n log.canonical = ownInputsAt P n log.records := by
  unfold ownInputsAt SealedLog.canonical
  rw [countP_filter]
  refine countP_congr fun x _ => ?_
  simp only [ownInput, Bool.and_eq_true]
  tauto

variable (P) (log) (past : List (Record H))

/-- A link behind the last canonical record of its count, which replay applied
itself. -/
def Behind (old : List (Record H)) (e : Record H) : Prop :=
  ownInputsAt P e.icount old = ownInputsAt P e.icount log.canonical ∧
    ∃ r ∈ log.canonical, r.icount = e.icount ∧ ownInput P r = true ∧
      ∀ d ∈ log.canonical, d.icount = e.icount → d.seq ≤ r.seq

/-- A replay that has gone through the canonical records `past`: its own log
accounts for them. -/
structure Accounted (st : ReplayState H σ) : Prop where
  links : Linkwise (fun old e => Beyond old e ∨ Behind P log old e) [] st.rail.log.records
  count_eq : ∀ n, ownInputsAt P n st.rail.log.records = ownInputsAt P n past
  applied_eq : st.recordsApplied = past.countP (ownInput P)
  marks : ∃ popped, log.frameMarks = popped ++ st.marks ∧
    ∀ mark ∈ popped, mark.icount + 1000000 < 2 ^ 64

structure Written (st : ReplayState H σ) : Prop extends Accounted P log past st where
  bounded : ∀ x ∈ st.rail.log.records, x.icount ≤ st.rail.icount

variable {P} {log}

namespace Written

variable {past : List (Record H)}

lemma start (P : Platform H σ X) (base : Restored H σ) (log : SealedLog H) :
    Written P log [] (startReplay P base log) where
  bounded := by rintro x ⟨⟩
  links := trivial
  count_eq := fun _ => rfl
  applied_eq := rfl
  marks := ⟨[], rfl, by simp⟩

variable (h : Written P log past st)
include h

lemma stretch {rail : Rail H σ} {new : List (Record H)}
    (hnew : Stretch P st.rail rail new) (hrail : st'.rail = rail) (hmarks : st'.marks = st.marks)
    (happlied : st'.recordsApplied = st.recordsApplied) : Written P log past st' := by
  subst hrail
  refine ⟨⟨?_, ?_, happlied.trans h.applied_eq, hmarks ▸ h.marks⟩, hnew.bounded h.bounded⟩
  · rw [hnew.appended.records_eq]
    refine linkwise_append.mpr ⟨h.links, ?_⟩
    exact (hnew.fresh h.bounded).mono fun _ _ hbeyond => .inl hbeyond
  · intro n
    rw [hnew.appended.records_eq, ownInputsAt_append, ownInputsAt_eq_zero hnew.regenerated,
      Nat.add_zero]
    exact h.count_eq n

lemma ranTo {t : ℕ} {frameBudget : Option ℕ}
    (hran : RanTo P t frameBudget st st' out) : Written P log past st' := by
  obtain ⟨new, hnew⟩ := hran.stretch
  exact h.stretch hnew rfl hran.marks_eq hran.applied_eq

lemma input {kind : InputKind} {r : Record H} {rail : Rail H σ} {vector : Option ℕ}
    (hcanonical : r.isCanonical = true)
    (hkind : r.body.input? = some kind) (hown : regenerated P r = false)
    (hicount : st.rail.icount = r.icount)
    (happly : st.rail.applyInput P kind r.icount r.boundaryRip = .ok (rail, vector)) :
    Written P log (past ++ [r]) { st with rail, recordsApplied := st.recordsApplied + 1 } := by
  obtain ⟨hrail, happended⟩ := applyInput_spec happly
  have hbody : (kind.body : RecordBody H) = r.body := RecordBody.body_of_input hkind
  have hr : ownInput P r = true := by simp [ownInput, hcanonical, hown]
  refine ⟨⟨?_, ?_, ?_, h.marks⟩, ?_⟩
  · rw [happended.records_eq]
    refine linkwise_append.mpr ⟨h.links, linkwise_of_no_epoch fun x hx => ?_⟩
    obtain rfl := mem_singleton.mp hx
    cases kind <;> rfl
  · intro n
    rw [happended.records_eq, ownInputsAt_append, ownInputsAt_append, h.count_eq]
    congr 1
    have hnew : ownInput P ⟨st.rail.log.recordCount, r.icount, r.boundaryRip, kind.body⟩ =
        ownInput P r := by
      unfold ownInput regenerated Record.isCanonical Record.isChannelGenerated
      rw [hbody]
    simp [ownInputsAt, hnew]
  · simp [h.applied_eq, hr]
  · intro x hx
    rw [happended.records_eq] at hx
    rcases mem_append.mp hx with hx | hx
    · exact (h.bounded x hx).trans hrail.ge
    · obtain rfl := mem_singleton.mp hx
      exact (hrail.trans hicount).ge

lemma drained {n : ℕ} {es : List Emit}
    (hdrain : st.rail.drainAtPause P n = .ok (st'.rail, es)) (hmarks : st'.marks = st.marks)
    (happlied : st'.recordsApplied = st.recordsApplied) : Accounted P log past st' := by
  obtain ⟨new, happended, hnew⟩ := drainAtPause_spec hdrain
  refine ⟨?_, fun n => ?_, happlied.trans h.applied_eq, hmarks ▸ h.marks⟩
  · rw [happended.records_eq]
    exact linkwise_append.mpr ⟨h.links, linkwise_of_no_epoch fun x hx => (hnew x hx).not_epoch⟩
  · rw [happended.records_eq, ownInputsAt_append,
      ownInputsAt_eq_zero fun x hx => (hnew x hx).regenerated, Nat.add_zero]
    exact h.count_eq n

end Written

/-- A link behind the last canonical record of its count leaves no record of that count to come. -/
lemma Accounted.unmixed (h : Accounted P log log.canonical st)
    (hrecords : st.rail.log.records = log.records) : log.Unmixed := by
  intro c hc e he d hd hcCanonical hepoch hdCanonical hce hed ⟨hcAt, hdAt⟩
  obtain ⟨xs, ys, hsplit⟩ := append_of_mem he
  have hordered : Ordered (xs ++ e :: ys) := hsplit ▸ hrecords ▸ st.rail.log.ordered
  have hlinks := h.links
  rw [hrecords, hsplit] at hlinks
  rcases hlinks.at_link hepoch with hbeyond | ⟨hcount, r, hr, hrAt, hown, hlast⟩
  · have := hbeyond c (hordered.mem_of_seq_lt (hsplit ▸ hc) hce)
    omega
  · have hdr : d.seq ≤ r.seq := hlast d (mem_filter.mpr ⟨hd, hdCanonical⟩) hdAt
    have hbehind : r ∈ ys := by
      refine hordered.mem_of_lt_seq (hsplit ▸ (mem_filter.mp hr).1) ?_
      omega
    have hpos : 0 < ownInputsAt P e.icount (e :: ys) :=
      countP_pos_iff.mpr ⟨r, mem_cons_of_mem e hbehind, by simp [hown, hrAt]⟩
    rw [nil_append, ownInputsAt_canonical, hsplit, ownInputsAt_append] at hcount
    omega

lemma LogWriter.icount_le_lastIcount (w : LogWriter H) {x : Record H} (hx : x ∈ w.records) :
    x.icount ≤ lastIcount w.records := by
  rcases eq_nil_or_concat w.records with hnil | ⟨rs, r, hrs⟩
  · simp [hnil] at hx
  · have hordered := w.ordered
    rw [hrs, concat_eq_append] at hordered hx ⊢
    rw [lastIcount_append_singleton]
    rcases mem_append.mp hx with hx | hx
    · exact ((pairwise_append.mp hordered).2.2 x hx r (by simp)).2
    · rw [mem_singleton.mp hx]

/-! ## Calls of run control -/

lemma quantumStop_eq_some {distance : ℕ} {stop : Until}
    (h : quantumStop distance frameBudget = some stop) :
    (frameBudget = none ∧ stop = .icountBudget distance) ∨
      ∃ frames cap, frameBudget = some frames ∧ cap = distance + 1000000 ∧
        stop = .frameBudget frames cap := by
  cases frameBudget with
  | none => exact .inl ⟨rfl, (Option.some.inj h).symm⟩
  | some frames =>
    rw [quantumStop] at h
    obtain ⟨cap, hcap, rfl⟩ := Option.map_eq_some_iff.mp h
    exact .inr ⟨frames, cap, rfl, (checkedAdd_eq_some_iff.mp hcap).1, rfl⟩

variable {a b m z : Station H σ} {base : Restored H σ} {fin t : ℕ} {grid : Option ℕ}
  {kinds : List InputKind} {result : ReplayOutcome H}

lemma countP_ownInput_eq_zero {rs : List (Record H)}
    (h : ∀ x ∈ rs, x.isCanonical = true → regenerated P x = true) : rs.countP (ownInput P) = 0 := by
  refine countP_eq_zero.mpr fun x hx hown => ?_
  simp only [ownInput, Bool.and_eq_true, Bool.not_eq_true'] at hown
  rw [h x hx hown.1] at hown
  cases hown.2

instance (kind : InputKind) : Decidable (Applicable P kind) :=
  inferInstanceAs (Decidable (_ = false))

lemma countP_inputRecords {rip seq : ℕ} : (inputRecords t rip seq kinds).countP (ownInput P) =
      kinds.countP fun kind => decide (Applicable P kind) := by
  induction kinds generalizing seq with
  | nil => rfl
  | cons kind rest ih =>
    rw [inputRecords, countP_cons, countP_cons, ih]
    congr 2
    simp [ownInput, regenerated, Record.isCanonical, Record.isChannelGenerated, Applicable]

lemma Leg.ownInputs (h : Leg P grid fuel fin kinds a b) :
    ∃ new, Appended a.rail.log new b.rail.log ∧
      new.countP (ownInput P) = kinds.countP fun kind => decide (Applicable P kind) := by
  cases h with
  | frame hcoast _ _ _ _ henter _ happlied =>
    obtain ⟨xs, hxs, -⟩ := hcoast.stretch
    obtain ⟨ys, hys⟩ := stretch_of_frame henter
    refine ⟨_, (hxs.appended.trans hys.appended).trans happlied.log, ?_⟩
    rw [countP_append, countP_inputRecords, countP_append,
      countP_ownInput_eq_zero hxs.regenerated, countP_ownInput_eq_zero hys.regenerated,
      Nat.zero_add]
  | stop harrive _ _ happlied =>
    obtain ⟨n, -, hcoast⟩ := harrive.coast
    obtain ⟨xs, hxs, -⟩ := hcoast.stretch
    refine ⟨_, hxs.appended.trans happlied.log, ?_⟩
    rw [countP_append, countP_inputRecords, countP_ownInput_eq_zero hxs.regenerated, Nat.zero_add]
  | epoch harrive _ happlied hlinked =>
    obtain ⟨n, -, hcoast⟩ := harrive.coast
    obtain ⟨xs, hxs, -⟩ := hcoast.stretch
    refine ⟨_, (hxs.appended.trans happlied.log).trans hlinked.log, ?_⟩
    rw [countP_append, countP_append, countP_inputRecords,
      countP_ownInput_eq_zero hxs.regenerated, Nat.zero_add]
    rfl

lemma Journey.ownInputs (h : Journey P grid fuel fin kinds a b) :
    ∃ new, Appended a.rail.log new b.rail.log ∧
      new.countP (ownInput P) = kinds.countP fun kind => decide (Applicable P kind) := by
  induction h with
  | refl a => exact ⟨[], .refl _, rfl⟩
  | cons hleg _ ih =>
    obtain ⟨xs, hxs, hcount⟩ := hleg.ownInputs
    obtain ⟨ys, hys, hcount'⟩ := ih
    exact ⟨_, hxs.trans hys, by rw [countP_append, countP_append, hcount, hcount']⟩

variable [DecidableEq H]

lemma runTo_eq_ok {hfs hfe : Bool} (hbudget : frameBudget ≠ some 0)
    (h : runTo P fuel log t hfs hfe frameBudget st = .ok (out, st')) :
    RanTo P t frameBudget st st' out := by
  unfold runTo at h
  dsimp only at h
  split_ifs at h with hbehind hhere
  · cases h
    refine ⟨⟨[], .refl _⟩, rfl, rfl, fun _ => ⟨rfl, hhere.1.symm⟩, by simp, ?_⟩
    intro hframe
    rw [hhere.2] at hframe
    cases hframe
  · cases hstop : quantumStop (t - st.rail.icount) frameBudget with
    | none => simp [hstop] at h
    | some stop =>
      simp only [hstop] at h
      cases hrun : runSegment P fuel (replayRequest log st.rail.icount stop hfs hfe)
          st.rail st.chain st.audit with
      | error e => simp [hrun] at h
      | ok w =>
        obtain ⟨o, s⟩ := w
        simp only [hrun] at h
        cases h
        let q : Quantum H := ⟨log, st.rail.icount, stop, hfs, hfe⟩
        have hrun : runSegment P fuel q.request st.rail st.chain st.audit = .ok (o, s) := hrun
        have hstretch : (∃ new, Stretch P st.rail s.rail new) ∧
            o.boundary.icount = s.rail.icount ∧
            (frameBudget = some 1 → t + 1000000 < 2 ^ 64) := by
          rcases quantumStop_eq_some hstop with ⟨rfl, rfl⟩ | ⟨frames, cap, rfl, hcap, rfl⟩
          · obtain ⟨hnew, hboundary, -⟩ := runSegment_stretch (Quantum.plain rfl) (.inl rfl)
              rfl (fun _ => rfl) (by rintro ⟨⟩) hrun
            exact ⟨hnew, hboundary, by rintro ⟨⟩⟩
          · have htarget : (q.request : RunRequest H σ Audit).frameTarget ≠ some 0 := hbudget
            obtain ⟨hnew, hboundary, hlt⟩ := runSegment_stretch (Quantum.plain rfl) (.inr rfl)
              rfl (fun _ => rfl) htarget hrun
            refine ⟨hnew, hboundary, fun _ => ?_⟩
            omega
        refine ⟨hstretch.1, rfl, rfl, by rintro ⟨⟩, ?_, hstretch.2.2⟩
        intro o' ho'
        cases ho'
        exact hstretch.2.1

lemma verifyCurrentEpoch_eq_ok {n : ℕ} (h : verifyCurrentEpoch P log n st = .ok st') :
    st' = st ∨ ∃ vns rail, P.config.clock.vnsFromIcount n = some vns ∧
      log.epochs[st.audit.verified]? = some (n / max P.config.epochLen 1, n,
        P.link st.chain (P.image st.rail.machine) n vns) ∧
      st.rail.append n 0 (.epochHash (n / max P.config.epochLen 1)
        (P.link st.chain (P.image st.rail.machine) n vns)) = .ok rail ∧ st' = { st with
        rail
        chain := P.link st.chain (P.image st.rail.machine) n vns
        audit := { st.audit with
          verified := st.audit.verified + 1, lastEpochIcount := some n } } := by
  unfold verifyCurrentEpoch at h
  cases hexpected : log.epochs[st.audit.verified]? with
  | none =>
    simp only [hexpected] at h
    exact .inl (Except.ok.inj h).symm
  | some expected =>
    obtain ⟨eIndex, eIcount, eValue⟩ := expected
    simp only [hexpected] at h
    split_ifs at h with hicount
    · exact .inl (Except.ok.inj h).symm
    · cases hvns : P.config.clock.vnsFromIcount n with
      | none => simp [hvns] at h
      | some vns =>
        simp only [hvns] at h
        split_ifs at h with hvalue
        simp only [ne_eq, not_or, not_not] at hicount hvalue
        cases happend : (pushReplayLink P n vns st).rail.append n 0
            (.epochHash (n / max P.config.epochLen 1) (pushReplayLink P n vns st).chain) with
        | error e => simp [happend] at h
        | ok rail =>
          simp only [happend, Except.ok.injEq] at h
          refine .inr ⟨vns, rail, rfl, ?_, happend, h.symm⟩
          rw [hicount, hvalue.1, hvalue.2]
          rfl

lemma applyRecord_eq_ok {r : Record H} {kind : InputKind} {defer last : Bool}
    (h : applyRecord P fuel log r kind defer last st = .ok st') :
    st'.rail.icount = r.icount ∧ st'.marks = st.marks := by
  obtain ⟨⟨out, st1⟩, hto, h⟩ := bind_eq_ok.mp h
  obtain ⟨_, hlanded, h⟩ := bind_eq_ok.mp h
  have hran := runTo_eq_ok (by simp) hto
  have hicount : st1.rail.icount = r.icount := hran.landed hlanded
  cases happly : st1.rail.applyInput P kind r.icount r.boundaryRip with
  | error e => simp [happly] at h
  | ok w =>
    obtain ⟨rail, _ | vector⟩ := w
    · simp only [happly] at h
      obtain ⟨st2, hverify, h⟩ := bind_eq_ok.mp h
      cases h
      have hrail : rail.icount = r.icount := (applyInput_spec happly).1.trans hicount
      split_ifs at hverify with hlast
      · rcases verifyCurrentEpoch_eq_ok hverify with rfl | ⟨vns, rail', -, -, happend, rfl⟩
        · exact ⟨hrail, hran.marks_eq⟩
        · exact ⟨(append_spec happend).2.1.trans hrail, hran.marks_eq⟩
      · cases hverify
        exact ⟨hrail, hran.marks_eq⟩
    · simp [happly] at h

/-! ## The tail, step by step -/

section Tail

variable {expected : StopReason}

lemma exactTail_eq_ok (h : exactTail P fuel log expected st = .ok (out, st')) :
    runTo P fuel log log.ending.endIcount true true none st = .ok (out, st') ∧
      ∀ o, out = some o → o.boundary.icount = log.ending.endIcount := by
  obtain ⟨⟨out1, st1⟩, hto, h⟩ := bind_eq_ok.mp h
  cases out1 with
  | none =>
    cases h
    exact ⟨hto, by simp⟩
  | some o =>
    simp only at h
    split_ifs at h with hreason hvns
    cases h
    exact ⟨hto, fun o' ho' => Option.some.inj ho' ▸ hreason.2⟩

lemma terminalTail_eq_ok {target : SdkEvent}
    (h : terminalTail P fuel log expected target st = .ok (out, st')) :
    ∃ st1 rail es observed, runTo P fuel log log.ending.endIcount false true none st =
        .ok (out, st1) ∧ st1.rail.drainAtPause P log.ending.endIcount = .ok (rail, es) ∧
      st'.rail = rail ∧ st'.marks = st1.marks ∧ st'.recordsApplied = st1.recordsApplied ∧
      st'.audit = noteTerminal (some target) log.ending.endIcount (es.filterMap Emit.sdk?)
        st1.audit ∧ st'.audit.observed = some observed ∧ (∀ o, out = some o →
        terminalTailMatches o observed log.ending.endIcount expected = true) ∧
      st'.chain = if out.map (·.boundary.icount) = some log.ending.endIcount then
        P.link st1.chain (P.image rail.machine) log.ending.endIcount log.ending.endVns
      else st1.chain := by
  obtain ⟨⟨out1, st1⟩, hto, h⟩ := bind_eq_ok.mp h
  simp only at h
  cases hdrain : st1.rail.drainAtPause P log.ending.endIcount with
  | error e => simp [hdrain] at h
  | ok w =>
  obtain ⟨rail, es⟩ := w
  simp only [hdrain] at h
  cases hobserved : (noteTerminal (some target) log.ending.endIcount (es.filterMap Emit.sdk?)
      st1.audit).observed with
  | none => simp [hobserved] at h
  | some observed =>
    simp only [hobserved] at h
    cases out1 with
    | none =>
      cases h
      exact ⟨st1, rail, es, observed, hto, hdrain, rfl, rfl, rfl, rfl, hobserved, by simp,
        by simp⟩
    | some o =>
      simp only at h
      split_ifs at h with hmatch hend hvns
      all_goals
        cases h
        refine ⟨st1, rail, es, observed, hto, hdrain, rfl, rfl, rfl, rfl, hobserved, ?_, ?_⟩
        · intro o' ho'
          cases ho'
          simpa using hmatch
        · simp [hend, pushReplayLink]

lemma replayTail_eq_ok (h : replayTail P fuel log expected st = .ok (out, st')) :
    (log.terminalSdkTarget = none ∧ ∃ st1, exactTail P fuel log expected st = .ok (out, st1) ∧
        st' = linkAtEnd P log out st1) ∨ ∃ target st1, log.terminalSdkTarget = some target ∧
        terminalTail P fuel log expected target st = .ok (out, st1) ∧
        st' = linkAtEnd P log out st1 := by
  obtain ⟨⟨out1, st1⟩, htail, h⟩ := bind_eq_ok.mp h
  cases h
  cases htarget : log.terminalSdkTarget with
  | none =>
    simp only [htarget] at htail
    exact .inl ⟨rfl, st1, htail, rfl⟩
  | some target =>
    simp only [htarget] at htail
    exact .inr ⟨target, st1, rfl, htail, rfl⟩

variable {st1 : ReplayState H σ}

lemma haltRetry_eq_ok {chain live liveEnd : H}
    (h : haltRetry P fuel log chain live st1 = .ok (liveEnd, st')) :
    ∃ out', runTo P fuel log (log.ending.endIcount + 1) true true none { st1 with chain } =
        .ok (out', st') ∧ (liveEnd = live ∨ (liveEnd = st'.chain ∧
        ∃ o, out' = some o ∧ o.boundary.icount = log.ending.endIcount)) := by
  unfold haltRetry at h
  cases hadd : checkedAdd log.ending.endIcount 1 with
  | none => simp [hadd] at h
  | some t =>
    simp only [hadd] at h
    obtain ⟨⟨out', st2⟩, hto, h⟩ := bind_eq_ok.mp h
    rw [(checkedAdd_eq_some_iff.mp hadd).1] at hto
    cases out' with
    | none =>
      cases h
      exact ⟨none, hto, .inl rfl⟩
    | some o =>
      simp only at h
      split_ifs at h with hhalt hvns
      · cases h
        exact ⟨some o, hto, .inr ⟨rfl, o, rfl, hhalt.2⟩⟩
      · cases h
        exact ⟨some o, hto, .inl rfl⟩

/-- The value compared with the recorded end is the chain the replay computed, unless the early
halt of a log with a terminal SDK event replaced it. -/
lemma liveEndOf_eq_ok {verified : ℕ} {chain liveEnd : H}
    (h : liveEndOf P fuel log expected verified chain out st1 = .ok (liveEnd, st')) :
    (st' = st1 ∧ (liveEnd = st1.chain ∨ (log.terminalSdkTarget.isSome = true ∧
          substitutionAllowed out st1.audit.observed log.ending.endIcount expected = true))) ∨
      (log.terminalSdkTarget = none ∧ ∃ out',
        runTo P fuel log (log.ending.endIcount + 1) true true none { st1 with chain } =
          .ok (out', st') ∧ (liveEnd = log.ending.endStateHash → liveEnd = st'.chain ∧
          ∃ o, out' = some o ∧ o.boundary.icount = log.ending.endIcount)) := by
  unfold liveEndOf at h
  dsimp only at h
  by_cases hsub : st1.chain ≠ log.ending.endStateHash ∧ log.terminalSdkTarget.isSome = true ∧
      substitutionAllowed out st1.audit.observed log.ending.endIcount expected = true
  · rw [if_pos hsub, if_neg fun hne => hne.1 rfl] at h
    cases h
    exact .inl ⟨rfl, .inr hsub.2⟩
  · rw [if_neg hsub] at h
    split_ifs at h with hretry
    · obtain ⟨out', hto, hlive⟩ := haltRetry_eq_ok h
      refine .inr ⟨hretry.2.1, out', hto, fun hend => ?_⟩
      rcases hlive with rfl | hlive
      · exact absurd hend hretry.1
      · exact hlive
    · cases h
      exact .inl ⟨rfl, .inl rfl⟩

end Tail

namespace Written

variable {past : List (Record H)} {defer : Bool} {r : Record H} {rest : List (Record H)}

lemma marksBefore {seqLimit icountLimit : ℕ} {marks : List (Record H)}
    (h : Written P log past st) (hmarks : st.marks = marks)
    (hrun : replayFrameMarksBefore P fuel log seqLimit icountLimit defer marks st = .ok st') :
    Written P log past st' ∧ ∀ mark ∈ st'.marks.head?,
      icountLimit < mark.icount ∨ (mark.icount = icountLimit ∧ seqLimit ≤ mark.seq) := by
  induction marks generalizing st with
  | nil =>
    cases hrun
    rw [← hmarks]
    exact ⟨h, by simp [hmarks]⟩
  | cons mark marks ih =>
    rw [replayFrameMarksBefore] at hrun
    split_ifs at hrun with hlimit
    · cases hrun
      rw [← hmarks]
      refine ⟨h, ?_⟩
      rw [hmarks]
      simpa using hlimit
    · obtain ⟨⟨out, st1⟩, hto, hrun⟩ := bind_eq_ok.mp hrun
      have hran := runTo_eq_ok (by simp) hto
      cases out with
      | none => cases hrun
      | some o =>
        simp only at hrun
        split_ifs at hrun with hout
        refine ih ?_ hran.marks_eq hrun
        obtain ⟨popped, hpopped, hmargin⟩ := h.marks
        have hnow : Written P log past { st with marks } :=
          { h with
            marks := by
              refine ⟨popped ++ [mark], by simp [hpopped, hmarks], ?_⟩
              intro x hx
              rcases mem_append.mp hx with hx | hx
              · exact hmargin x hx
              · obtain rfl := mem_singleton.mp hx
                exact hran.margin rfl }
        exact hnow.ranTo hran

lemma verified (hr : ownInput P r = true) (hmem : r ∈ log.canonical)
    (hpast : ownInputsAt P r.icount (past ++ [r]) = ownInputsAt P r.icount log.canonical)
    (hlast : ∀ d ∈ log.canonical, d.icount = r.icount → d.seq ≤ r.seq)
    (hicount : st.rail.icount = r.icount)
    (h : Written P log (past ++ [r]) { st with recordsApplied := st.recordsApplied + 1 })
    (hverify : verifyCurrentEpoch P log r.icount st = .ok st') :
    Written P log (past ++ [r]) { st' with recordsApplied := st'.recordsApplied + 1 } := by
  rcases verifyCurrentEpoch_eq_ok hverify with rfl | ⟨vns, rail, -, -, happend, rfl⟩
  · exact h
  obtain ⟨-, hrail, happended⟩ := append_spec happend
  refine ⟨⟨?_, ?_, h.applied_eq, h.marks⟩, ?_⟩
  · rw [happended.records_eq]
    refine linkwise_append.mpr ⟨h.links, fun _ => .inr ⟨?_, r, hmem, rfl, hr, hlast⟩, trivial⟩
    exact (h.count_eq r.icount).trans hpast
  · intro n
    rw [happended.records_eq, ownInputsAt_append]
    exact h.count_eq n
  · intro x hx
    rw [happended.records_eq] at hx
    rcases mem_append.mp hx with hx | hx
    · exact (h.bounded x hx).trans hrail.ge
    · obtain rfl := mem_singleton.mp hx
      exact (hrail.trans hicount).ge

lemma record {kind : InputKind} (h : Written P log past st) (hordered : Ordered log.records)
    (hsplit : log.canonical = past ++ r :: rest) (hkind : r.body.input? = some kind)
    (hown : regenerated P r = false) (hrun : applyRecord P fuel log r kind defer
      (decide (rest.head?.map Record.icount ≠ some r.icount)) st = .ok st') :
    Written P log (past ++ [r]) st' := by
  obtain ⟨⟨out, st1⟩, hto, hrun⟩ := bind_eq_ok.mp hrun
  obtain ⟨_, hlanded, hrun⟩ := bind_eq_ok.mp hrun
  have hran := runTo_eq_ok (by simp) hto
  have hicount : st1.rail.icount = r.icount := hran.landed hlanded
  have hcanonical : r ∈ log.canonical := by simp [hsplit]
  cases happly : st1.rail.applyInput P kind r.icount r.boundaryRip with
  | error e => simp [happly] at hrun
  | ok w =>
    obtain ⟨rail, _ | vector⟩ := w
    · simp only [happly] at hrun
      obtain ⟨st2, hverify, hrun⟩ := bind_eq_ok.mp hrun
      cases hrun
      have hinput := (h.ranTo hran).input (mem_filter.mp hcanonical).2 hkind hown hicount
        happly
      split_ifs at hverify with hlast
      · have hhead : rest.head?.map Record.icount ≠ some r.icount := by
          simpa using (Bool.and_eq_true_iff.mp hlast).1
        have hcanonicals : Ordered (past ++ r :: rest) := hsplit ▸ hordered.filter _
        have hbeyond := Ordered.beyond_of_head (pairwise_append.mp hcanonicals).2.1 hhead
        refine verified (by simp [ownInput, hown, (mem_filter.mp hcanonical).2]) hcanonical
          ?_ ?_ ((applyInput_spec happly).1.trans hicount) hinput hverify
        · have hnone : ownInputsAt P r.icount rest = 0 := by
            refine countP_eq_zero.mpr fun d hd hat => ?_
            have := hbeyond d hd
            simp only [Bool.and_eq_true, decide_eq_true_eq] at hat
            omega
          have hsplit' : log.canonical = (past ++ [r]) ++ rest := by simp [hsplit]
          rw [hsplit', ownInputsAt_append _ _ rest, hnone, Nat.add_zero]
        · intro d hd hat
          rw [hsplit] at hd
          rcases mem_append.mp hd with hd | hd
          · exact ((pairwise_append.mp hcanonicals).2.2 d hd r mem_cons_self).1.le
          · rcases mem_cons.mp hd with rfl | hd
            · exact le_rfl
            · exact absurd hat (hbeyond d hd).ne'
      · cases hverify
        exact hinput
    · simp [happly] at hrun

lemma canonical (h : Written P log past st) (hordered : Ordered log.records)
    (hsplit : log.canonical = past ++ rest) (hrun : replayCanonical P fuel log rest st = .ok st') :
    Written P log log.canonical st' := by
  induction rest generalizing past st with
  | nil =>
    cases hrun
    rw [hsplit, append_nil]
    exact h
  | cons r rest ih =>
    obtain ⟨st1, hmarks, hrun⟩ := bind_eq_ok.mp hrun
    have h1 := (h.marksBefore rfl hmarks).1
    have hsplit' : log.canonical = (past ++ [r]) ++ rest := by simp [hsplit]
    cases hkind : r.body.input? with
    | none => simp [hkind] at hrun
    | some kind =>
      simp only [hkind] at hrun
      split_ifs at hrun with hown
      · -- The channel writes this record itself.
        refine ih ?_ hsplit' hrun
        refine { h1 with count_eq := fun n => ?_, applied_eq := ?_ }
        · rw [ownInputsAt_append, ← h1.count_eq]
          simp [ownInputsAt, ownInput, hown]
        · rw [h1.applied_eq]
          simp [ownInput, hown]
      · obtain ⟨st2, hrecord, hrun⟩ := bind_eq_ok.mp hrun
        exact ih (h1.record hordered hsplit hkind (by simpa using hown) hrecord) hsplit' hrun

lemma walk (h : Written P log [] st) (hordered : Ordered log.records)
    (hrun : replayWalk P fuel log st = .ok st') :
    Written P log log.canonical st' ∧ ∀ mark ∈ st'.marks.head?, log.ending.endIcount < mark.icount ∨
        (mark.icount = log.ending.endIcount ∧ 2 ^ 32 - 1 ≤ mark.seq) := by
  obtain ⟨st1, hcanonical, hmarks⟩ := bind_eq_ok.mp hrun
  exact (h.canonical hordered rfl hcanonical).marksBefore rfl hmarks

lemma toEnd {expected : StopReason} {verified : ℕ} {chain liveEnd : H} {st1 : ReplayState H σ}
    (h : Written P log past st) (htail : replayTail P fuel log expected st = .ok (out, st1))
    (hend : liveEndOf P fuel log expected verified chain out st1 = .ok (liveEnd, st')) :
    Accounted P log past st' := by
  have hlink : ∀ {st : ReplayState H σ}, Accounted P log past st →
      Accounted P log past (linkAtEnd P log out st) := by
    intro st h
    unfold linkAtEnd
    split_ifs
    · exact ⟨h.links, h.count_eq, h.applied_eq, h.marks⟩
    · exact h
  rcases replayTail_eq_ok htail with ⟨htarget, st2, hexact, rfl⟩ |
    ⟨target, st2, htarget, hterm, rfl⟩
  · have h2 := h.ranTo (runTo_eq_ok (by simp) (exactTail_eq_ok hexact).1)
    have h1 : Written P log past (linkAtEnd P log out st2) := by
      refine { hlink h2.toAccounted with bounded := ?_ }
      unfold linkAtEnd
      split_ifs <;> exact h2.bounded
    rcases liveEndOf_eq_ok hend with ⟨rfl, -⟩ | ⟨-, out', hretry, -⟩
    · exact h1.toAccounted
    · have h0 : Written P log past { linkAtEnd P log out st2 with chain } :=
        ⟨⟨h1.links, h1.count_eq, h1.applied_eq, h1.marks⟩, h1.bounded⟩
      exact (h0.ranTo (runTo_eq_ok (by simp) hretry)).toAccounted
  · obtain ⟨st3, rail, es, -, hto, hdrain, hrail, hmarks, happlied, -⟩ := terminalTail_eq_ok hterm
    have h2 := (h.ranTo (runTo_eq_ok (by simp) hto)).drained (hrail ▸ hdrain) hmarks happlied
    rcases liveEndOf_eq_ok hend with ⟨rfl, -⟩ | ⟨hnone, -⟩
    · exact hlink h2
    · rw [htarget] at hnone
      cases hnone

end Written

/-! ## Back to the recording -/

lemma concludeReplay_eq_ok {expected : StopReason} {liveEnd : H}
    (h : concludeReplay log expected liveEnd st = .ok result) :
    st.audit.verified = log.epochs.length ∧ liveEnd = log.ending.endStateHash ∧
      st.rail.log.seal { log.ending with
        endStateHash := liveEnd, stopReason := stopReasonU8 expected } = .ok result.resealed ∧
      result.recordsApplied = st.recordsApplied := by
  unfold concludeReplay at h
  split_ifs at h with hverified hend
  split at h
  · cases h
  · rename_i resealed hseal
    split_ifs at h with hequivalent
    cases h
    exact ⟨not_not.mp hverified, not_not.mp hend, hseal, rfl⟩

lemma replaySegment_eq_ok (h : replaySegment P fuel base log = .ok result) :
    log.wellFormed = true ∧ checkHeader P base log = .ok () ∧ ∃ expected st1 out st2 liveEnd st',
      stopReasonFromU8 log.ending.stopReason = some expected ∧
      replayWalk P fuel log (startReplay P base log) = .ok st1 ∧
      replayTail P fuel log expected st1 = .ok (out, st2) ∧
      liveEndOf P fuel log expected st1.audit.verified st1.chain out st2 = .ok (liveEnd, st') ∧
      concludeReplay log expected liveEnd st' = .ok result := by
  unfold replaySegment at h
  split_ifs at h with hformed
  obtain ⟨_, hheader, h⟩ := bind_eq_ok.mp h
  cases hexpected : stopReasonFromU8 log.ending.stopReason with
  | none => simp [hexpected] at h
  | some expected =>
    simp only [hexpected] at h
    obtain ⟨⟨st', outcome⟩, hfrom, rfl⟩ := map_eq_ok.mp h
    obtain ⟨st1, hwalk, hfrom⟩ := bind_eq_ok.mp hfrom
    obtain ⟨⟨out, st2⟩, htail, hfrom⟩ := bind_eq_ok.mp hfrom
    obtain ⟨⟨liveEnd, st3⟩, hlive, hfrom⟩ := bind_eq_ok.mp hfrom
    obtain ⟨outcome', hconclude, hfrom⟩ := bind_eq_ok.mp hfrom
    obtain ⟨rfl, rfl⟩ := Prod.mk.inj (Except.ok.inj hfrom)
    exact ⟨by simpa using hformed, hheader, expected, st1, out, st2, liveEnd, st3, rfl, hwalk,
      htail, hlive, hconclude⟩

lemma of_resealed (h : replaySegment P fuel base log = .ok result)
    (hresealed : result.resealed = log) : log.Unmixed ∧ log.FramesFit ∧
      result.recordsApplied = log.records.countP (ownInput P) := by
  obtain ⟨-, -, expected, st1, out, st2, liveEnd, st', -, hwalk, htail, hlive, hconclude⟩ :=
    replaySegment_eq_ok h
  obtain ⟨-, -, hseal, happlied⟩ := concludeReplay_eq_ok hconclude
  obtain ⟨hlast, hcount, hlog⟩ := LogWriter.seal_eq_ok_iff.mp hseal
  have hrecords : st'.rail.log.records = log.records := by
    rw [← hresealed, hlog]
  have hordered : Ordered log.records := hrecords ▸ st'.rail.log.ordered
  obtain ⟨hwritten, hmarks⟩ := (Written.start P base log).walk hordered hwalk
  have hend := hwritten.toEnd htail hlive
  refine ⟨hend.unmixed hrecords, ?_, ?_⟩
  · -- Every mark lies before the end, so the walk has replayed them all.
    have hnone : st1.marks = [] := by
      obtain ⟨popped, hpopped, -⟩ := hwritten.marks
      cases hleft : st1.marks with
      | nil => rfl
      | cons mark marks =>
        have hmem : mark ∈ st'.rail.log.records := by
          have : mark ∈ log.frameMarks := by simp [hpopped, hleft]
          exact hrecords ▸ (mem_filter.mp this).1
        have hicount := (st'.rail.log.icount_le_lastIcount hmem).trans hlast
        have hseq := ((ordered_of_scanRecords st'.rail.log.valid).2 mark hmem).2.1
        have hlimit := hmarks mark (by simp [hleft])
        unfold LogWriter.recordCount at hcount
        simp only at hicount
        omega
    obtain ⟨popped, hpopped, hmargin⟩ := hwritten.marks
    intro x hx hmark
    refine hmargin x ?_
    have : x ∈ log.frameMarks := mem_filter.mpr ⟨hx, hmark⟩
    simpa [hpopped, hnone] using this
  · rw [happlied, hend.applied_eq, SealedLog.canonical, countP_filter]
    refine countP_congr fun x _ => ?_
    simp only [ownInput, Bool.and_eq_true]
    tauto

/-! ## Exactly the logs that replay -/

/-- A recorded itinerary is reproduced, with every input fed in again, exactly when no link is
mixed in between canonical records of its count, no frame mark comes too late, and no input
is taken for a record of the channel. -/
lemma TracedLog.reproduces_iff (h : TracedLog P fuel base log kinds m z)
    (hheader : checkHeader P base log = .ok ()) :
    Reproduces P fuel base log kinds.length ↔ log.Unmixed ∧ log.FramesFit ∧
      ∀ kind ∈ kinds, Applicable P kind := by
  constructor
  · rintro ⟨-, out, -, hreplay, -, hresealed, hcount⟩
    obtain ⟨hunmixed, hframes, happlied⟩ := of_resealed hreplay hresealed
    refine ⟨hunmixed, hframes, ?_⟩
    have hall : kinds.countP (fun kind => decide (Applicable P kind)) = kinds.length := by
      obtain ⟨new, hnew, hnewCount⟩ := h.journey.ownInputs
      obtain ⟨emits, hemits, hregenerated⟩ := h.tail
      rw [← hcount, happlied, ← h.records_eq, hemits.records_eq, hnew.records_eq,
        countP_append, countP_ownInput_eq_zero fun x hx => (hregenerated x hx).1.regenerated]
      exact hnewCount.symm
    intro kind hkind
    simpa using countP_eq_length.mp hall kind hkind
  · rintro ⟨hunmixed, hframes, hkinds⟩
    exact h.replay hheader hunmixed hframes hkinds

lemma TracedLog.reproduces_queued_iff {inputs : List QueuedInput}
    (h : TracedLog P fuel base log kinds m z) (hheader : checkHeader P base log = .ok ())
    (hkinds : kinds.Perm (inputs.map (·.kind))) :
    Reproduces P fuel base log inputs.length ↔ log.Unmixed ∧ log.FramesFit ∧
      ∀ input ∈ inputs, Applicable P input.kind := by
  have hlength : inputs.length = kinds.length := by rw [hkinds.length_eq, length_map]
  have hall : (∀ kind ∈ kinds, Applicable P kind) ↔ ∀ input ∈ inputs, Applicable P input.kind := by
    simp only [hkinds.mem_iff, mem_map, forall_exists_index, and_imp, forall_apply_eq_imp_iff₂]
  rw [hlength, h.reproduces_iff hheader, hall]

end DetHypervisor
