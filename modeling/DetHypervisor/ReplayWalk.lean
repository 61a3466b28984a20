import DetHypervisor.ReplayRuns

/-!
# The canonical walk along an itinerary

A replay goes from canonical record to canonical record, the itinerary from stop to stop. Where
a stop has no record that replay applies, the replay makes up the way in its next quantum.
-/

namespace DetHypervisor

open List Except Record

variable {H σ X : Type} {P : Platform H σ X} {fuel : ℕ} {log : SealedLog H}
  {e : Record H} {n : ℕ} {rs xs ys : List (Record H)}

/-- No epoch link has canonical records of its own count on both sides. -/
def SealedLog.Unmixed (log : SealedLog H) : Prop :=
  ∀ c ∈ log.records, ∀ e ∈ log.records, ∀ d ∈ log.records,
    c.isCanonical = true → e.epoch? ≠ none → d.isCanonical = true →
      c.seq < e.seq → e.seq < d.seq → ¬(c.icount = e.icount ∧ d.icount = e.icount)

instance (log : SealedLog H) : Decidable log.Unmixed := by
  unfold SealedLog.Unmixed
  infer_instance

lemma Ordered.mem_of_seq_lt {c : Record H} (hordered : Ordered (xs ++ e :: ys))
    (hc : c ∈ xs ++ e :: ys) (hlt : c.seq < e.seq) : c ∈ xs := by
  rcases mem_append.mp hc with hc | hc
  · exact hc
  · have htail := pairwise_cons.mp (pairwise_append.mp hordered).2.1
    rcases mem_cons.mp hc with rfl | hc
    · omega
    · have := (htail.1 c hc).1
      omega

lemma Ordered.mem_of_lt_seq {d : Record H} (hordered : Ordered (xs ++ e :: ys))
    (hd : d ∈ xs ++ e :: ys) (hlt : e.seq < d.seq) : d ∈ ys := by
  rcases mem_append.mp hd with hd | hd
  · have := ((pairwise_append.mp hordered).2.2 d hd e mem_cons_self).1
    omega
  · rcases mem_cons.mp hd with rfl | hd
    · omega
    · exact hd

def EpochBehind (rs : List (Record H)) (n : ℕ) : Prop :=
  ∃ c ∈ rs, ∃ e ∈ rs, c.isCanonical = true ∧ e.epoch? ≠ none ∧ c.seq < e.seq ∧
    c.icount = n ∧ e.icount = n

lemma scanEpochAfterCanonical_cons (current : Option ℕ) (saw : Bool) (r : Record H)
    (rs : List (Record H)) : scanEpochAfterCanonical current saw (r :: rs) =
      if r.isCanonical = true then scanEpochAfterCanonical (some r.icount) true rs
      else
        (if r.epoch? ≠ none ∧ saw = true ∧ current = some r.icount then [r.icount] else []) ++
          scanEpochAfterCanonical (some r.icount) (saw && decide (current = some r.icount)) rs := by
  unfold Record.isCanonical Record.epoch?
  rw [scanEpochAfterCanonical]
  cases r.body <;> simp [RecordBody.isCanonical]
  split_ifs <;> simp

lemma epochBehind_cons {r : Record H} (hordered : Ordered (r :: rs)) : EpochBehind (r :: rs) n ↔
      (r.isCanonical = true ∧ r.icount = n ∧ ∃ e ∈ rs, e.epoch? ≠ none ∧ e.icount = n) ∨
        EpochBehind rs n := by
  have hseq := (pairwise_cons.mp hordered).1
  constructor
  · rintro ⟨c, hc, e, he, hcanonical, hepoch, hlt, hcn, hen⟩
    rcases mem_cons.mp he with rfl | he'
    · rcases mem_cons.mp hc with rfl | hc'
      · omega
      · have := hseq c hc'
        omega
    · rcases mem_cons.mp hc with rfl | hc'
      · exact .inl ⟨hcanonical, hcn, e, he', hepoch, hen⟩
      · exact .inr ⟨c, hc', e, he', hcanonical, hepoch, hlt, hcn, hen⟩
  · rintro (⟨hcanonical, hn, e, he, hepoch, hen⟩ | ⟨c, hc, e, he, h⟩)
    · exact ⟨r, mem_cons_self, e, mem_cons_of_mem r he, hcanonical, hepoch, (hseq e he).1, hn, hen⟩
    · exact ⟨c, mem_cons_of_mem r hc, e, mem_cons_of_mem r he, h⟩

lemma mem_scanEpochAfterCanonical {current : Option ℕ} {saw : Bool} (hordered : Ordered rs)
    (hcurrent : ∀ m, current = some m → ∀ x ∈ rs, m ≤ x.icount) :
    n ∈ scanEpochAfterCanonical current saw rs ↔
      (saw = true ∧ current = some n ∧ ∃ e ∈ rs, e.epoch? ≠ none ∧ e.icount = n) ∨
        EpochBehind rs n := by
  induction rs generalizing current saw with
  | nil => simp [scanEpochAfterCanonical, EpochBehind]
  | cons r rs ih =>
    have hrest := pairwise_cons.mp hordered
    have hnext : ∀ m, some r.icount = some m → ∀ x ∈ rs, m ≤ x.icount := by
      rintro m hm x hx
      cases hm
      exact (hrest.1 x hx).2
    rw [scanEpochAfterCanonical_cons, epochBehind_cons hordered]
    by_cases hcanonical : r.isCanonical = true
    · have hnone := (kinds_of_isCanonical hcanonical).2
      rw [if_pos hcanonical, ih hrest.2 hnext]
      simp only [true_and, Option.some.injEq, hcanonical]
      constructor
      · rintro (h | h)
        · exact .inr (.inl h)
        · exact .inr (.inr h)
      · rintro (⟨-, hn, e, he, hepoch, hen⟩ | h | h)
        · rcases mem_cons.mp he with rfl | he
          · exact absurd hnone hepoch
          · have hle := hcurrent n hn r mem_cons_self
            have hge := (hrest.1 e he).2
            exact .inl ⟨by omega, e, he, hepoch, hen⟩
        · exact .inl h
        · exact .inr h
    · rw [if_neg hcanonical, mem_append, ih hrest.2 hnext]
      simp only [hcanonical, Bool.false_eq_true, false_and, false_or, Bool.and_eq_true,
        decide_eq_true_eq, Option.some.injEq]
      constructor
      · rintro (h | ⟨⟨hsaw, hcur⟩, hn, e, he, hepoch, hen⟩ | h)
        · split_ifs at h with hif
          · obtain rfl := mem_singleton.mp h
            exact .inl ⟨hif.2.1, hif.2.2, r, mem_cons_self, hif.1, rfl⟩
          · cases h
        · exact .inl ⟨hsaw, hn ▸ hcur, e, mem_cons_of_mem r he, hepoch, hen⟩
        · exact .inr h
      · rintro (⟨hsaw, hcur, e, he, hepoch, hen⟩ | h)
        · rcases mem_cons.mp he with rfl | he
          · refine .inl ?_
            rw [if_pos ⟨hepoch, hsaw, hen ▸ hcur⟩, hen]
            exact mem_singleton_self n
          · have hle := hcurrent n hcur r mem_cons_self
            have hge := (hrest.1 e he).2
            have hr : r.icount = n := by omega
            exact .inr (.inl ⟨⟨hsaw, hr ▸ hcur⟩, hr, e, he, hepoch, hen⟩)
        · exact .inr (.inr h)

lemma mem_epochAfterCanonical (hordered : Ordered log.records) :
    n ∈ log.epochAfterCanonical ↔ EpochBehind log.records n := by
  rw [SealedLog.epochAfterCanonical, mem_scanEpochAfterCanonical hordered (by simp)]
  simp

lemma RecordBody.input_body (kind : InputKind) : (kind.body : RecordBody H).input? = some kind := by
  cases kind <;> rfl

lemma RecordBody.exists_input {b : RecordBody H} (h : b.isCanonical = true) :
    ∃ kind, b.input? = some kind := by
  cases b <;> simp_all [RecordBody.isCanonical, RecordBody.input?]

variable {st st' : ReplayState H σ} {emits tl : List (Record H)} {t rip seq : ℕ}
  {kinds : List InputKind}

def Applicable (P : Platform H σ X) (kind : InputKind) : Prop :=
  ((kind.body : RecordBody H).isChannelGenerated && P.detchannel) = false

lemma marks_beyond {x : Record H} (hordered : Ordered (x :: tl))
    (hmarks : st.marks = tl.filter Record.isFrameMark) :
    ∀ mark ∈ st.marks, x.seq ≤ mark.seq ∧ x.icount ≤ mark.icount := by
  intro mark hmark
  rw [hmarks] at hmark
  have := (pairwise_cons.mp hordered).1 mark (mem_filter.mp hmark).1
  exact ⟨this.1.le, this.2⟩

lemma filter_marks_inputRecords : (inputRecords t rip seq kinds ++ tl).filter Record.isFrameMark =
      tl.filter Record.isFrameMark := by
  rw [filter_append, filter_eq_nil_iff.mpr, nil_append]
  intro x hx
  rw [(kinds_of_isCanonical (isCanonical_of_mem_inputRecords hx)).1]
  exact Bool.false_ne_true

/-- The cap of a replay's frame quantum at every mark is below 2^64. -/
def SealedLog.FramesFit (log : SealedLog H) : Prop :=
  ∀ x ∈ log.records, x.isFrameMark = true → x.icount + 1000000 < 2 ^ 64

structure Followable (P : Platform H σ X) (log : SealedLog H) : Prop where
  ordered : Ordered log.records
  seq_lt : ∀ x ∈ log.records, x.seq < 2 ^ 32 - 1
  icount_le : ∀ x ∈ log.records, x.icount ≤ log.ending.endIcount
  on_grid : ∀ x ∈ log.records, x.epoch? ≠ none → OnGrid (epochGrid P {}) x.icount
  unmixed : log.Unmixed
  frames : ∀ x ∈ log.records, x.isFrameMark = true → x.icount + 1000000 < 2 ^ 64
  end_lt : log.ending.endIcount < 2 ^ 64
  clock : P.config.clock.vnsFromIcount log.ending.endIcount = some log.ending.endVns

/-- A replay on its way: it stands at a station from which glides lead to `a`,
and `tl` is what the log holds behind `a`. -/
structure OnTrack (P : Platform H σ X) (fuel : ℕ) (log : SealedLog H) (a : Station H σ)
    (tl : List (Record H)) (st : ReplayState H σ) : Prop where
  records_eq : log.records = a.rail.log.records ++ tl
  later : ∀ x ∈ tl, x.epoch? ≠ none → a.rail.icount < x.icount
  marks_eq : st.marks = tl.filter Record.isFrameMark
  lags : ∃ b, StateAt b st ∧ Relation.ReflTransGen (Glide P (epochGrid P {}) fuel) b a

lemma Followable.vns (h : Followable P log) {n : ℕ} (hn : n ≤ log.ending.endIcount) :
    ∃ vns, P.config.clock.vnsFromIcount n = some vns :=
  P.config.clock.vnsFromIcount_of_le hn h.clock

lemma filter_marks_of_emitted (h : ∀ x ∈ emits, Emitted P x) :
    (emits ++ tl).filter Record.isFrameMark = tl.filter Record.isFrameMark := by
  rw [filter_append, filter_eq_nil_iff.mpr, nil_append]
  intro x hx
  rw [(h x hx).not_mark]
  exact Bool.false_ne_true

lemma exists_mem_inputRecords (hne : kinds ≠ []) :
    ∃ c : Record H, c ∈ inputRecords t rip seq kinds := by
  cases kinds with
  | nil => exact absurd rfl hne
  | cons kind kinds => exact ⟨_, mem_cons_self⟩

lemma auditAt_of_applied {r r' : Rail H σ} {o : Option ℕ}
    (h : Applied P t rip kinds r r') : auditAt r'.log.records o = auditAt r.log.records o := by
  rw [h.log.records_eq]
  apply auditAt_append
  intro x hx
  exact (kinds_of_isCanonical (isCanonical_of_mem_inputRecords hx)).2

variable [DecidableEq H]

/-- The rest of the walk: the canonical records left and then the marks. -/
def resume (P : Platform H σ X) (fuel : ℕ) (log : SealedLog H) (recs : List (Record H))
    (st : ReplayState H σ) : Except (ReplayError H) (ReplayState H σ) := do
  let st ← replayCanonical P fuel log recs st
  replayFrameMarksBefore P fuel log (2 ^ 32 - 1) log.ending.endIcount false st.marks st

lemma replayWalk_eq_resume : replayWalk P fuel log st = resume P fuel log log.canonical st := rfl

lemma marksBefore_of_beyond {seqLimit icountLimit : ℕ} {defer : Bool}
    (h : ∀ mark ∈ st.marks, seqLimit ≤ mark.seq ∧ icountLimit ≤ mark.icount) :
    replayFrameMarksBefore P fuel log seqLimit icountLimit defer st.marks st = .ok st := by
  cases hmarks : st.marks with
  | nil =>
    rw [replayFrameMarksBefore, ← hmarks]
  | cons mark marks =>
    have hmark := h mark (hmarks ▸ mem_cons_self)
    rw [replayFrameMarksBefore, if_pos (by omega), ← hmarks]

lemma replayCanonical_cons {r : Record H} {rest : List (Record H)} {kind : InputKind}
    (hkind : r.body.input? = some kind)
    (h : ∀ mark ∈ st.marks, r.seq ≤ mark.seq ∧ r.icount ≤ mark.icount) :
    replayCanonical P fuel log (r :: rest) st =
      if regenerated P r = true then replayCanonical P fuel log rest st
      else applyRecord P fuel log r kind (log.epochAfterCanonical.contains r.icount)
          (decide (rest.head?.map Record.icount ≠ some r.icount)) st >>=
        replayCanonical P fuel log rest := by
  rw [replayCanonical, marksBefore_of_beyond h]
  simp only [ok_bind, hkind]

lemma resume_skip (hordered : Ordered (emits ++ tl)) (hemits : ∀ x ∈ emits, Emitted P x)
    (hmarks : st.marks = tl.filter Record.isFrameMark) :
    resume P fuel log ((emits ++ tl).filter Record.isCanonical) st =
      resume P fuel log (tl.filter Record.isCanonical) st := by
  induction emits with
  | nil => rfl
  | cons x emits ih =>
    have hrest := pairwise_cons.mp hordered
    have ih := ih hrest.2 fun y hy => hemits y (mem_cons_of_mem x hy)
    rw [cons_append, filter_cons]
    split_ifs with hcanonical
    · obtain ⟨kind, hkind⟩ := RecordBody.exists_input hcanonical
      rw [← ih, resume, replayCanonical_cons hkind, if_pos]
      · rfl
      · exact (hemits x mem_cons_self).regenerated hcanonical
      · intro mark hmark
        rw [hmarks] at hmark
        have := hrest.1 mark (mem_append_right emits (mem_filter.mp hmark).1)
        exact ⟨this.1.le, this.2⟩
    · exact ih

lemma resume_of_mark {mark : Record H} {marks recs : List (Record H)}
    {R : ReplayState H σ → Prop} (hmarks : st.marks = mark :: marks)
    (hhead : ∀ r ∈ recs.head?, mark.seq < r.seq ∧ mark.icount ≤ r.icount)
    (hseq : mark.seq < 2 ^ 32 - 1) (hend : mark.icount ≤ log.ending.endIcount)
    (hrun : ∀ hashFinalEpoch, ∃ out st', runTo P fuel log mark.icount false hashFinalEpoch
        (some 1) { st with marks } = .ok (some out, st') ∧
      (out.reason = .budgetReached ∧ out.boundary.icount = mark.icount ∧
        out.framesElapsed = 1) ∧ st'.marks = marks ∧ R st') : ∃ st', R st' ∧ st'.marks = marks ∧
      resume P fuel log recs st = resume P fuel log recs st' := by
  have hpop : ∀ (seqLimit icountLimit : ℕ) (defer : Bool), mark.icount ≤ icountLimit →
      mark.seq < seqLimit → ∃ st', R st' ∧ st'.marks = marks ∧
        replayFrameMarksBefore P fuel log seqLimit icountLimit defer st.marks st =
          replayFrameMarksBefore P fuel log seqLimit icountLimit defer st'.marks st' := by
    intro seqLimit icountLimit defer hicount hlt
    obtain ⟨out, st', hrun, hout, hmarks', hR⟩ :=
      hrun (!(decide (mark.icount = icountLimit) && defer))
    refine ⟨st', hR, hmarks', ?_⟩
    rw [hmarks, replayFrameMarksBefore, if_neg (by omega), hrun]
    simp only [ok_bind, if_pos hout, hmarks']
  cases recs with
  | nil =>
    obtain ⟨st', hR, hmarks', heq⟩ := hpop (2 ^ 32 - 1) log.ending.endIcount false hend hseq
    exact ⟨st', hR, hmarks', heq⟩
  | cons r rest =>
    obtain ⟨hlt, hle⟩ := hhead r rfl
    obtain ⟨st', hR, hmarks', heq⟩ :=
      hpop r.seq r.icount (log.epochAfterCanonical.contains r.icount) hle hlt
    refine ⟨st', hR, hmarks', ?_⟩
    unfold resume
    rw [replayCanonical, replayCanonical, heq]

section Records

variable {r : Record H} {rest : List (Record H)} {kind : InputKind}

lemma resume_run {out : Option (SegmentOutcome H)} (hkind : r.body.input? = some kind)
    (hregenerated : regenerated P r = false)
    (hmarks : ∀ mark ∈ st.marks, r.seq ≤ mark.seq ∧ r.icount ≤ mark.icount)
    (hrun : runTo P fuel log r.icount false (!log.epochAfterCanonical.contains r.icount) none st =
      .ok (out, st')) (hlanded : requireLanded out r.icount = .ok ())
    (hmarks' : st'.marks = st.marks) (hicount : st'.rail.icount = r.icount) :
    resume P fuel log (r :: rest) st = resume P fuel log (r :: rest) st' := by
  have hstay : runTo P fuel log r.icount false (!log.epochAfterCanonical.contains r.icount) none
      st' = .ok (none, st') := runTo_of_eq hicount
  have hhere : requireLanded (none : Option (SegmentOutcome H)) r.icount = .ok () := rfl
  unfold resume
  rw [replayCanonical_cons hkind hmarks, replayCanonical_cons hkind (by rwa [hmarks']),
    hregenerated]
  unfold applyRecord
  simp only [hrun, hstay, ok_bind, hlanded, hhere, Bool.false_eq_true, if_false]

lemma resume_apply {rail : Rail H σ} (hkind : r.body.input? = some kind)
    (hregenerated : regenerated P r = false)
    (hmarks : ∀ mark ∈ st.marks, r.seq ≤ mark.seq ∧ r.icount ≤ mark.icount)
    (hicount : st.rail.icount = r.icount)
    (happly : st.rail.applyInput P kind r.icount r.boundaryRip = .ok (rail, none)) :
    resume P fuel log (r :: rest) st =
      (if decide (rest.head?.map Record.icount ≠ some r.icount) &&
          log.epochAfterCanonical.contains r.icount then
        verifyCurrentEpoch P log r.icount { st with rail }
      else .ok { st with rail }) >>= fun st =>
        resume P fuel log rest { st with recordsApplied := st.recordsApplied + 1 } := by
  have hstay : runTo P fuel log r.icount false (!log.epochAfterCanonical.contains r.icount) none
      st = .ok (none, st) := runTo_of_eq hicount
  have hhere : requireLanded (none : Option (SegmentOutcome H)) r.icount = .ok () := rfl
  unfold resume
  rw [replayCanonical_cons hkind hmarks, hregenerated]
  unfold applyRecord
  simp only [hstay, ok_bind, hhere, happly, Bool.false_eq_true, if_false]
  split_ifs
  · cases verifyCurrentEpoch P log r.icount { st with rail } <;> rfl
  · rfl

end Records

section Inputs

variable {r r' : Rail H σ}

lemma resume_input {kind : InputKind} (hordered : Ordered (⟨seq, t, rip, kind.body⟩ :: tl))
    (hmarks : st.marks = tl.filter Record.isFrameMark) (hkind : Applicable P kind)
    (hicount : st.rail.icount = t) (happly : st.rail.applyInput P kind t rip = .ok (r, none)) :
    resume P fuel log ((⟨seq, t, rip, kind.body⟩ :: tl).filter Record.isCanonical) st =
      (if decide ((tl.filter Record.isCanonical).head?.map Record.icount ≠ some t) &&
          log.epochAfterCanonical.contains t then
        verifyCurrentEpoch P log t { st with rail := r }
      else .ok { st with rail := r }) >>= fun st =>
        resume P fuel log (tl.filter Record.isCanonical)
          { st with recordsApplied := st.recordsApplied + 1 } := by
  have hcanonical : (⟨seq, t, rip, kind.body⟩ : Record H).isCanonical = true :=
    InputKind.isCanonical_body kind
  rw [filter_cons_of_pos hcanonical]
  exact resume_apply (RecordBody.input_body kind) hkind (marks_beyond hordered hmarks) hicount
    happly

/-- The inputs of one count are applied in a row; a link deferred to behind them is verified after
the last. -/
lemma resume_inputs {r'' : Rail H σ} {chain : H} {audit : Audit}
    (hordered : Ordered (inputRecords t rip seq kinds ++ tl))
    (hmarks : st.marks = tl.filter Record.isFrameMark) (hkinds : ∀ kind ∈ kinds, Applicable P kind)
    (hicount : st.rail.icount = t) (happlied : Applied P t rip kinds st.rail r')
    (hlast : ∀ k, (if kinds ≠ [] ∧ (decide ((tl.filter Record.isCanonical).head?.map Record.icount ≠
        some t) && log.epochAfterCanonical.contains t) = true then
        verifyCurrentEpoch P log t { st with rail := r', recordsApplied := k }
      else .ok { st with rail := r', recordsApplied := k }) =
      .ok { st with rail := r'', chain, audit, recordsApplied := k }) :
    resume P fuel log ((inputRecords t rip seq kinds ++ tl).filter Record.isCanonical) st =
      resume P fuel log (tl.filter Record.isCanonical)
        { st with
          rail := r'', chain, audit, recordsApplied := st.recordsApplied + kinds.length } := by
  induction kinds generalizing st seq with
  | nil =>
    obtain rfl : r' = st.rail := happlied
    rw [← Except.ok.inj ((if_neg (by simp)).symm.trans (hlast (st.recordsApplied + [].length)))]
    rfl
  | cons kind kinds ih =>
    obtain ⟨r1, happly, hrest⟩ := happlied
    rw [inputRecords, cons_append] at hordered ⊢
    rw [resume_input hordered (hmarks.trans filter_marks_inputRecords.symm)
      (hkinds kind mem_cons_self) hicount happly]
    cases kinds with
    | nil =>
      obtain rfl : r' = r1 := hrest
      have hlink := hlast st.recordsApplied
      simp only [ne_eq, cons_ne_nil, not_false_eq_true, true_and] at hlink
      exact congrArg (· >>= _) hlink
    | cons kind' kinds =>
      have hnext : ((inputRecords t rip (seq + 1) (kind' :: kinds) ++ tl).filter
          Record.isCanonical).head?.map Record.icount = some t := by
        have hcanonical : (⟨seq + 1, t, rip, kind'.body⟩ : Record H).isCanonical = true :=
          InputKind.isCanonical_body kind'
        rw [inputRecords, cons_append, filter_cons_of_pos hcanonical]
        rfl
      simp only [hnext, ne_eq, not_true_eq_false, decide_false, Bool.false_and, Bool.false_eq_true,
        if_false, ok_bind]
      rw [@ih { st with rail := r1, recordsApplied := st.recordsApplied + 1 } (seq + 1)
        (pairwise_cons.mp hordered).2 hmarks (fun k hk => hkinds k (mem_cons_of_mem kind hk))
        ((Rail.applyInput_spec happly).1.trans hicount) hrest (by simpa using hlast),
        Nat.add_right_comm]
      rfl

end Inputs

lemma verifyCurrentEpoch_of_linked {t : ℕ} {a b : Station H σ}
    (hlog : log.records = b.rail.log.records ++ tl) (h : Linked P t a b) {o : Option ℕ}
    (hrail : st.rail = a.rail) (hchain : st.chain = a.chain)
    (haudit : st.audit = auditAt a.rail.log.records o) :
    verifyCurrentEpoch P log t st = .ok { st with
      rail := b.rail, chain := b.chain, audit := auditAt b.rail.log.records o } := by
  obtain ⟨vns, hvns, hlink⟩ := h.chain_eq
  obtain ⟨w, hrecord, hbrail⟩ := h.rail_eq
  have hexpected : log.epochs[(auditAt a.rail.log.records o).verified]? =
      some (t / max P.config.epochLen 1, t, b.chain) := by
    rw [SealedLog.epochs, hlog, h.log.records_eq]
    simp [auditAt, Record.epoch?]
  have happend : a.rail.append t 0 (.epochHash (t / max P.config.epochLen 1) b.chain) =
      .ok b.rail := Rail.append_eq_ok.mpr ⟨w, hrecord, hbrail⟩
  have haudit' : auditAt b.rail.log.records o =
      { auditAt a.rail.log.records o with
        verified := (auditAt a.rail.log.records o).verified + 1, lastEpochIcount := some t } := by
    rw [h.log.records_eq]
    simp [auditAt, Record.epoch?, lastEpoch]
  unfold verifyCurrentEpoch
  simp only [haudit, hexpected, hvns, pushReplayLink, hrail, hchain, ← hlink, ne_eq,
    not_true_eq_false, or_self, if_false, happend, haudit']

/-- The replay resumed at `st`, with `tl` ahead, applies `n` records and is on track for `a`. -/
def Resumes (P : Platform H σ X) (fuel : ℕ) (log : SealedLog H) (tl : List (Record H))
    (st : ReplayState H σ) (n : ℕ) (a : Station H σ) (tl' : List (Record H)) : Prop :=
  ∃ st', OnTrack P fuel log a tl' st' ∧ st'.recordsApplied = st.recordsApplied + n ∧
    resume P fuel log (tl.filter Record.isCanonical) st =
      resume P fuel log (tl'.filter Record.isCanonical) st'

namespace OnTrack

variable {a a' : Station H σ} {tl' new : List (Record H)} {w : LogWriter H}

omit [DecidableEq H] in
lemma tail_eq (h : OnTrack P fuel log a tl st) (happended : Appended a.rail.log new w)
    (hrest : log.records = w.records ++ tl') : tl = new ++ tl' := by
  have heq : a.rail.log.records ++ tl = a.rail.log.records ++ (new ++ tl') := by
    rw [← h.records_eq, hrest, happended.records_eq, append_assoc]
  exact append_cancel_left heq

omit [DecidableEq H] in
lemma ordered_tail (h : OnTrack P fuel log a tl st) (hlog : Followable P log) : Ordered tl := by
  have := hlog.ordered
  rw [h.records_eq] at this
  exact (pairwise_append.mp this).2.1

lemma glide (h : OnTrack P fuel log a tl st) (hlog : Followable P log)
    (hglide : Glide P (epochGrid P {}) fuel a a') (hrest : log.records = a'.rail.log.records ++ tl')
    (hlater : ∀ x ∈ tl', x.epoch? ≠ none → a'.rail.icount < x.icount) :
    OnTrack P fuel log a' tl' st ∧ resume P fuel log (tl.filter Record.isCanonical) st =
        resume P fuel log (tl'.filter Record.isCanonical) st := by
  obtain ⟨b, hst, hglides⟩ := h.lags
  obtain ⟨t, r, harrive, hon, hlinked⟩ := id hglide
  obtain ⟨n, -, hcoast⟩ := harrive.coast
  obtain ⟨emits, happended, hemits⟩ := hcoast.log
  have hemitted : ∀ x ∈ emits, Emitted P x := fun x hx => (hemits x hx).1
  have htl := h.tail_eq (happended.trans hlinked.log) hrest
  rw [append_assoc] at htl
  have hordered := h.ordered_tail hlog
  have hmarks := h.marks_eq
  rw [htl] at hordered hmarks
  rw [filter_marks_of_emitted hemitted] at hmarks
  refine ⟨⟨hrest, hlater, hmarks, b, hst, hglides.tail hglide⟩, ?_⟩
  rw [htl, resume_skip hordered hemitted hmarks]
  rfl

section Inputs

variable {r r' : Rail H σ}

section

variable (h : OnTrack P fuel log a tl st) (hlog : Followable P log)
include h hlog

variable (harrive : Arrives P (epochGrid P {}) fuel a t r)
include harrive

lemma arrive (hend : t ≤ log.ending.endIcount)
    (hhash : log.epochAfterCanonical.contains t = true ∨ ¬OnGrid (epochGrid P {}) t)
    (hkinds : ∀ kind ∈ kinds, Applicable P kind) (hne : kinds ≠ [])
    (hrest : log.records = r.log.records ++ (inputRecords t rip seq kinds ++ tl')) :
    ∃ st1, StateAt ⟨r, a.chain⟩ st1 ∧ st1.marks = tl'.filter Record.isFrameMark ∧
      st1.recordsApplied = st.recordsApplied ∧ Ordered (inputRecords t rip seq kinds ++ tl') ∧
      resume P fuel log (tl.filter Record.isCanonical) st =
        resume P fuel log ((inputRecords t rip seq kinds ++ tl').filter Record.isCanonical)
          st1 := by
  obtain ⟨b, hst, hglides⟩ := h.lags
  obtain ⟨n, -, hcoast⟩ := harrive.coast
  obtain ⟨emits, happended, hemits⟩ := hcoast.log
  have hemitted : ∀ x ∈ emits, Emitted P x := fun x hx => (hemits x hx).1
  have htl := h.tail_eq happended hrest
  have hordered := h.ordered_tail hlog
  have hmarks := h.marks_eq
  rw [htl] at hordered hmarks
  rw [filter_marks_of_emitted hemitted] at hmarks
  have hordered' := (pairwise_append.mp hordered).2.1
  obtain ⟨vns, hvns⟩ := hlog.vns hend
  obtain ⟨out, o, hrun, hreason, hboundary, -⟩ := runTo_of_arrival false
    (!log.epochAfterCanonical.contains t) hst hglides harrive
    (hhash.imp_left fun hc => by rw [hc]; rfl) h.records_eq (hend.trans_lt hlog.end_lt) hvns
  refine ⟨{ st with rail := r, chain := a.chain, audit := auditAt r.log.records o },
    ⟨rfl, rfl, o, rfl⟩, hmarks.trans filter_marks_inputRecords, rfl, hordered', ?_⟩
  rw [htl, resume_skip hordered hemitted hmarks]
  cases kinds with
  | nil => exact absurd rfl hne
  | cons kind kinds =>
    rw [inputRecords, cons_append] at hordered' hmarks ⊢
    have hcanonical : (⟨seq, t, rip, kind.body⟩ : Record H).isCanonical = true :=
      InputKind.isCanonical_body kind
    have hnotMark := (kinds_of_isCanonical hcanonical).1
    rw [filter_cons_of_neg (by simp [hnotMark])] at hmarks
    rw [filter_cons_of_pos hcanonical]
    refine resume_run (RecordBody.input_body kind) (hkinds kind mem_cons_self)
      (marks_beyond hordered' hmarks) hrun ?_ rfl harrive.landed
    simp only [requireLanded, hreason, hboundary, and_self, if_true]

lemma stop (hoff : ¬OnGrid (epochGrid P {}) t)
    (hne : kinds ≠ []) (happlied : Applied P t rip kinds r r') (hend : t ≤ log.ending.endIcount)
    (hkinds : ∀ kind ∈ kinds, Applicable P kind) (hrest : log.records = r'.log.records ++ tl')
    (hlater : ∀ x ∈ tl', x.epoch? ≠ none → t < x.icount) :
    Resumes P fuel log tl st kinds.length ⟨r', a.chain⟩ tl' := by
  have hrecords := hrest
  rw [happlied.log.records_eq, append_assoc] at hrecords
  have hdefer : log.epochAfterCanonical.contains t = false := by
    rw [← Bool.not_eq_true, contains_iff_mem, mem_epochAfterCanonical hlog.ordered]
    rintro ⟨c, -, e, he, -, hepoch, -, -, rfl⟩
    exact hoff (hlog.on_grid e he hepoch)
  obtain ⟨st1, hst1, hmarks, happlied1, hordered, hrun⟩ :=
    h.arrive hlog harrive hend (.inr hoff) hkinds hne hrecords
  have hat : r'.icount = t := happlied.icount_eq.trans harrive.landed
  obtain ⟨o, ho⟩ := hst1.audit_eq
  have hrail : st1.rail = r := hst1.rail_eq
  exact ⟨{ st1 with rail := r', recordsApplied := st1.recordsApplied + kinds.length },
    ⟨hrest, by rwa [hat], hmarks, ⟨r', a.chain⟩, ⟨rfl, hst1.chain_eq, o,
      ho.trans (auditAt_of_applied happlied).symm⟩, .refl⟩,
    congrArg (· + kinds.length) happlied1, hrun.trans (resume_inputs hordered hmarks hkinds
      (hrail ▸ harrive.landed) (hrail ▸ happlied) fun _ => if_neg fun h =>
        Bool.false_ne_true (by simpa only [hdefer, Bool.and_false] using h.2))⟩

/-- Inputs with a link behind them are replayed in place. -/
lemma epoch (hne : kinds ≠ [])
    (happlied : Applied P t rip kinds r r') (hlinked : Linked P t ⟨r', a.chain⟩ a')
    (hend : t ≤ log.ending.endIcount) (hkinds : ∀ kind ∈ kinds, Applicable P kind)
    (hrest : log.records = a'.rail.log.records ++ tl')
    (hlater : ∀ x ∈ tl', x.epoch? ≠ none → t < x.icount) :
    Resumes P fuel log tl st kinds.length a' tl' := by
  have hrecords := hrest
  rw [hlinked.log.records_eq, happlied.log.records_eq, append_assoc, append_assoc]
    at hrecords
  have hat : a'.rail.icount = t :=
    hlinked.icount_eq.trans (happlied.icount_eq.trans harrive.landed)
  obtain ⟨c, hc⟩ : ∃ c : Record H, c ∈ inputRecords t rip r.log.recordCount kinds :=
    exists_mem_inputRecords hne
  -- The link stands directly behind the inputs, so the count is deferred.
  generalize hlink : (⟨r'.log.recordCount, t, 0, .epochHash (t / max P.config.epochLen 1)
    a'.chain⟩ : Record H) = e at hrecords
  have hepoch : e.epoch? ≠ none := by rw [← hlink]; simp [Record.epoch?]
  have hicount : e.icount = t := by rw [← hlink]
  have hordered := hlog.ordered
  rw [hrecords] at hordered
  have hinputs := pairwise_append.mp (pairwise_append.mp hordered).2.1
  have hce := (hinputs.2.2 c hc e mem_cons_self).1
  have hcMem : c ∈ log.records := by rw [hrecords]; simp [hc]
  have heMem : e ∈ log.records := by rw [hrecords]; simp
  have hcanonical := isCanonical_of_mem_inputRecords hc
  have hct := (mem_inputRecords hc).1
  have hdefer : log.epochAfterCanonical.contains t = true := by
    rw [contains_iff_mem, mem_epochAfterCanonical hlog.ordered]
    exact ⟨c, hcMem, e, heMem, hcanonical, hepoch, hce, hct, hicount⟩
  obtain ⟨st1, hst1, hmarks, happlied1, hordered1, hrun⟩ :=
    h.arrive hlog harrive hend (.inl hdefer) hkinds hne hrecords
  have hrail : st1.rail = r := hst1.rail_eq
  have heMark : e.isFrameMark = false := by rw [← hlink]; rfl
  have heCanonical : e.isCanonical = false := by rw [← hlink]; rfl
  -- Nothing canonical of this count follows the link.
  have hlast : (([e] ++ tl').filter Record.isCanonical).head?.map Record.icount ≠ some t := by
    rw [singleton_append, filter_cons_of_neg (by simp [heCanonical])]
    intro hhead
    obtain ⟨d, hd, hdt⟩ := Option.map_eq_some_iff.mp hhead
    obtain ⟨hd, hdCanonical⟩ := mem_filter.mp (mem_of_mem_head? hd)
    have hed := ((pairwise_cons.mp hinputs.2.1).1 d hd).1
    have hdMem : d ∈ log.records := by rw [hrest]; simp [hd]
    exact hlog.unmixed c hcMem e heMem d hdMem hcanonical hepoch hdCanonical hce hed
      ⟨hct.trans hicount.symm, hdt.trans hicount.symm⟩
  obtain ⟨o, ho⟩ := hst1.audit_eq
  have haudit := ho.trans (auditAt_of_applied happlied).symm
  rw [resume_inputs hordered1 hmarks hkinds (hrail ▸ harrive.landed) (hrail ▸ happlied) fun k =>
    (if_pos ⟨hne, by rw [hdefer, Bool.and_true]; exact decide_eq_true hlast⟩).trans
      (verifyCurrentEpoch_of_linked hrest hlinked rfl hst1.chain_eq haudit),
    singleton_append, filter_cons_of_neg (by simp [heCanonical])] at hrun
  rw [singleton_append, filter_cons_of_neg (by simp [heMark])] at hmarks
  exact ⟨{ st1 with
      rail := a'.rail
      chain := a'.chain
      audit := auditAt a'.rail.log.records o
      recordsApplied := st1.recordsApplied + kinds.length },
    ⟨hrest, by rwa [hat], hmarks, a', ⟨rfl, rfl, o, rfl⟩, .refl⟩,
    congrArg (· + kinds.length) happlied1, hrun⟩

end

lemma mark {n frame : ℕ} {es : List Emit} (h : OnTrack P fuel log a tl st)
    (hlog : Followable P log) (hcoast : Coast P t n a.rail r) (hfuel : n < fuel)
    (hlt : r.icount < t) (hgrid : ∀ i, a.rail.icount < i → i < t → ¬OnGrid (epochGrid P {}) i)
    (henter : enter P r = .frame frame r' es) (hframe : 0 < frame)
    (hend : r.icount ≤ log.ending.endIcount) (hrest : log.records = r'.log.records ++ tl') :
    ∃ st1, StateAt ⟨r', a.chain⟩ st1 ∧ st1.marks = tl'.filter Record.isFrameMark ∧
      st1.recordsApplied = st.recordsApplied ∧ Ordered tl' ∧
      resume P fuel log (tl.filter Record.isCanonical) st =
        resume P fuel log (tl'.filter Record.isCanonical) st1 := by
  obtain ⟨b, hst, hglides⟩ := h.lags
  obtain ⟨emits, happended, hemits⟩ := hcoast.log
  obtain ⟨hicount, emits', happended', hemits'⟩ := enter_eq_frame henter
  have hemitted : ∀ x ∈ emits, Emitted P x := fun x hx => (hemits x hx).1
  have hemitted' : ∀ x ∈ emits', Emitted P x := fun x hx => (hemits' x hx).1
  generalize hmark : (⟨r.log.recordCount, r.icount, 0, .frameMark frame⟩ : Record H) = mark
    at happended'
  have hmarkIcount : mark.icount = r.icount := by rw [← hmark]
  have hmarkFrame : mark.isFrameMark = true := by rw [← hmark]; rfl
  have hmarkCanonical : mark.isCanonical = false := by rw [← hmark]; rfl
  have htl := h.tail_eq (happended.trans happended') hrest
  rw [append_assoc, cons_append] at htl
  have hordered := h.ordered_tail hlog
  have hmarks := h.marks_eq
  rw [htl] at hordered hmarks
  rw [filter_marks_of_emitted hemitted] at hmarks
  have hordered1 := pairwise_cons.mp (pairwise_append.mp hordered).2.1
  have hmem : mark ∈ log.records := by rw [h.records_eq, htl]; simp
  have hcap := hlog.frames mark hmem hmarkFrame
  rw [hmarkIcount] at hcap
  obtain ⟨vns, hvns⟩ := hlog.vns hend
  have hrun : ∀ hashFinalEpoch, ∃ out st', runTo P fuel log mark.icount false hashFinalEpoch
      (some 1) { st with marks := (emits' ++ tl').filter Record.isFrameMark } =
        .ok (some out, st') ∧
      (out.reason = .budgetReached ∧ out.boundary.icount = mark.icount ∧
        out.framesElapsed = 1) ∧ st'.marks = (emits' ++ tl').filter Record.isFrameMark ∧
      StateAt ⟨r', a.chain⟩ st' ∧ st'.recordsApplied = st.recordsApplied := by
    intro hashFinalEpoch
    have hst' : StateAt b { st with marks := (emits' ++ tl').filter Record.isFrameMark } :=
      ⟨hst.rail_eq, hst.chain_eq, hst.audit_eq⟩
    obtain ⟨out, o, hrun, hout⟩ := runTo_of_frame hashFinalEpoch hst' hglides hcoast hfuel hlt
      hgrid henter hframe h.records_eq hcap hvns
    rw [hmarkIcount]
    exact ⟨out, _, hrun, hout, rfl, ⟨rfl, rfl, o, rfl⟩, rfl⟩
  obtain ⟨st1, ⟨hst1, happlied1⟩, hmarks1, hresume⟩ :=
    resume_of_mark (hmarks.trans (filter_cons_of_pos hmarkFrame))
      (fun x hx => hordered1.1 x (mem_filter.mp (mem_of_mem_head? hx)).1)
      (hlog.seq_lt mark hmem) (hlog.icount_le mark hmem) hrun
  rw [filter_marks_of_emitted hemitted'] at hmarks1
  refine ⟨st1, hst1, hmarks1, happlied1, (pairwise_append.mp hordered1.2).2.1, ?_⟩
  rw [htl, resume_skip hordered hemitted hmarks,
    filter_cons_of_neg (by simp [hmarkCanonical]), hresume,
    resume_skip hordered1.2 hemitted' hmarks1]

lemma frame {frame : ℕ} {r1 r2 : Rail H σ} {es : List Emit} (h : OnTrack P fuel log a tl st)
    (hlog : Followable P log) (hcoast : Coast P t n a.rail r) (hfuel : n < fuel)
    (hlt : r.icount < t) (hgrid : ∀ i, a.rail.icount < i → i < t → ¬OnGrid (epochGrid P {}) i)
    (henter : enter P r = .frame frame r1 es) (hframe : 0 < frame)
    (happlied : Applied P r.icount 0 kinds r1 r2) (hend : r.icount ≤ log.ending.endIcount)
    (hkinds : ∀ kind ∈ kinds, Applicable P kind) (hrest : log.records = r2.log.records ++ tl')
    (hlater : ∀ x ∈ tl', x.epoch? ≠ none → r.icount < x.icount) :
    Resumes P fuel log tl st kinds.length ⟨r2, a.chain⟩ tl' := by
  have hrecords := hrest
  rw [happlied.log.records_eq, append_assoc] at hrecords
  obtain ⟨st1, hst1, hmarks, happlied1, hordered, hrun⟩ :=
    h.mark hlog hcoast hfuel hlt hgrid henter hframe hend hrecords
  rw [filter_marks_inputRecords] at hmarks
  have hrail : st1.rail = r1 := hst1.rail_eq
  have hicount : r1.icount = r.icount := (enter_eq_frame henter).1
  have hat : r2.icount = r.icount := happlied.icount_eq.trans hicount
  -- A link of this count lies before the inputs, so none is deferred to them.
  have hdefer : kinds ≠ [] → log.epochAfterCanonical.contains r.icount = false := by
    intro hne
    rw [← Bool.not_eq_true, contains_iff_mem, mem_epochAfterCanonical hlog.ordered]
    rintro ⟨c, hc, e, he, hcanonical, hepoch, hce, hct, het⟩
    obtain ⟨d, hd⟩ : ∃ d : Record H, d ∈ inputRecords r.icount 0 r1.log.recordCount kinds :=
      exists_mem_inputRecords hne
    have hdMem : d ∈ log.records := by rw [hrecords]; simp [hd]
    have hall := hlog.ordered
    rw [hrecords] at hall he
    rcases mem_append.mp he with he | he
    · have hed := (pairwise_append.mp hall).2.2 e he d (mem_append_left _ hd)
      exact hlog.unmixed c hc e (by rw [hrecords]; simp [he]) d hdMem hcanonical hepoch
        (isCanonical_of_mem_inputRecords hd) hce hed.1
        ⟨hct.trans het.symm, (mem_inputRecords hd).1.trans het.symm⟩
    · rcases mem_append.mp he with he | he
      · exact hepoch (kinds_of_isCanonical (isCanonical_of_mem_inputRecords he)).2
      · exact absurd het (hlater e he hepoch).ne'
  obtain ⟨o, ho⟩ := hst1.audit_eq
  exact ⟨{ st1 with rail := r2, recordsApplied := st1.recordsApplied + kinds.length },
    ⟨hrest, by rwa [hat], hmarks, ⟨r2, a.chain⟩, ⟨rfl, hst1.chain_eq, o,
      ho.trans (auditAt_of_applied happlied).symm⟩, .refl⟩,
    congrArg (· + kinds.length) happlied1, hrun.trans (resume_inputs hordered hmarks hkinds
      (hrail ▸ hicount) (hrail ▸ happlied) fun _ => if_neg fun h =>
        Bool.false_ne_true (by simpa only [hdefer h.1, Bool.and_false] using h.2))⟩

end Inputs

lemma leg {fin : ℕ} {kinds : List InputKind} (h : OnTrack P fuel log a tl st)
    (hlog : Followable P log) (hleg : Leg P (epochGrid P {}) fuel fin kinds a a')
    (hend : a'.rail.icount ≤ log.ending.endIcount) (hkinds : ∀ kind ∈ kinds, Applicable P kind)
    (hrest : log.records = a'.rail.log.records ++ tl')
    (hlater : ∀ x ∈ tl', x.epoch? ≠ none → a'.rail.icount < x.icount) :
    Resumes P fuel log tl st kinds.length a' tl' := by
  cases hleg with
  | @frame _ t n frame _ es r r1 r2 hcoast hfuel hlt hfin hgrid henter hframe happlied =>
    have hat : r2.icount = r.icount := happlied.icount_eq.trans (enter_eq_frame henter).1
    exact h.frame hlog hcoast hfuel hlt hgrid henter hframe happlied (hat ▸ hend) hkinds hrest
      (hat ▸ hlater)
  | @stop _ t rip _ r r' harrive hoff hne happlied =>
    have hat : r'.icount = t := happlied.icount_eq.trans harrive.landed
    exact h.stop hlog harrive hoff hne happlied (hat ▸ hend) hkinds hrest (hat ▸ hlater)
  | @epoch _ _ t rip _ r r' harrive hon happlied hlinked =>
    have hat : a'.rail.icount = t :=
      hlinked.icount_eq.trans (happlied.icount_eq.trans harrive.landed)
    cases kinds with
    | nil =>
      obtain rfl : r' = r := happlied
      obtain ⟨htrack, hresume⟩ := h.glide hlog ⟨t, r', harrive, hon, hlinked⟩ hrest hlater
      exact ⟨st, htrack, rfl, hresume⟩
    | cons kind kinds =>
      exact h.epoch hlog harrive (cons_ne_nil _ _) happlied hlinked (hat ▸ hend) hkinds
        hrest (hat ▸ hlater)

lemma journey {fin : ℕ} {kinds : List InputKind} {m : Station H σ}
    (h : OnTrack P fuel log a tl st) (hlog : Followable P log)
    (hjourney : Journey P (epochGrid P {}) fuel fin kinds a m)
    (hend : m.rail.icount ≤ log.ending.endIcount) (hkinds : ∀ kind ∈ kinds, Applicable P kind)
    (hrest : log.records = m.rail.log.records ++ tl')
    (hlater : ∀ x ∈ tl', x.epoch? ≠ none → m.rail.icount < x.icount) :
    Resumes P fuel log tl st kinds.length m tl' := by
  induction hjourney generalizing tl st with
  | refl a =>
    obtain rfl : tl = tl' := append_cancel_left (h.records_eq.symm.trans hrest)
    exact ⟨st, h, rfl, rfl⟩
  | @cons kinds kinds' a b m hleg hjourney ih =>
    obtain ⟨new, hnew⟩ := hjourney.between
    have hrest' : log.records = b.rail.log.records ++ (new ++ tl') := by
      rw [hrest, hnew.appended.records_eq, append_assoc]
    have hlater' : ∀ x ∈ new ++ tl', x.epoch? ≠ none → b.rail.icount < x.icount := by
      intro x hx hepoch
      rcases mem_append.mp hx with hx | hx
      · exact (hnew.epochs x hx hepoch).1
      · exact hnew.icount_le.trans_lt (hlater x hx hepoch)
    obtain ⟨st1, h1, happlied1, hresume1⟩ := h.leg hlog hleg (hnew.icount_le.trans hend)
      (fun kind hkind => hkinds kind (mem_append_left _ hkind)) hrest' hlater'
    obtain ⟨st2, h2, happlied2, hresume2⟩ := ih h1 hend
      (fun kind hkind => hkinds kind (mem_append_right _ hkind)) hrest hlater
    refine ⟨st2, h2, ?_, hresume1.trans hresume2⟩
    rw [happlied2, happlied1, length_append, Nat.add_assoc]

end OnTrack

end DetHypervisor
