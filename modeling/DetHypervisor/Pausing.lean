import DetHypervisor.Delivery

/-!
# Pauses and scheduled inputs

The pause flag is sampled after agenda points. Away from an epoch point `run_segment` rolls
forward to the next multiple of the epoch length in one landing, over whatever the agenda has on
the way.
-/

namespace DetHypervisor

open List AgendaIter

variable {H σ X τ : Type} {P : Platform H σ X} {req : RunRequest H σ τ} {fuel : ℕ}
  {rail : Rail H σ} {chain : H} {caller : τ} {s s' : Seg H σ τ} {out : SegmentOutcome H}
  {hash : Bool} {injections : List ScheduledInjection} {it : AgendaIter} {k : ℕ}
  {reason : StopReason} {timerSlot : Option ℕ} {w : AgendaIter × Seg H σ τ}

/-- Where a run ends that is heading for the point `p`, and which of the
point's inputs it has applied. -/
inductive Place (P : Platform H σ X) (req : RunRequest H σ τ) (fuel : ℕ)
    (injections : List ScheduledInjection) (p : StopPoint) (s : Seg H σ τ)
    (out : SegmentOutcome H) : List ℕ → Prop
  | point (hboundary : out.boundary.icount = p.icount)
      (hpaused : out.reason = .paused → p.finalStop = none ∧ p.epochHash = true) :
      Place P req fuel injections p s out p.inputs
  | rolled {s1 : Seg H σ τ} {queued : List ℕ} (hpoised : Poised P req fuel p s s1 queued)
      (hfinal : p.finalStop = none) (hpause : req.pause p.icount = true)
      (hepoch : p.epochHash = false) (hge : p.icount ≤ out.boundary.icount)
      (hle : out.boundary.icount ≤ pauseTarget P p.icount)
      (hpaused : out.reason = .paused → out.boundary.icount = pauseTarget P p.icount ∨
        ∃ frame, req.frameStop frame = true) :
      Place P req fuel injections p s out p.inputs
  | deferred {s1 : Seg H σ τ} {queued : List ℕ} (hpoised : Poised P req fuel p s s1 queued)
      (hslow : ¬Prompt P (dueVectors injections queued p) s1)
      (hge : p.icount ≤ out.boundary.icount) :
      Place P req fuel injections p s out p.inputs
  | before (hlt : out.boundary.icount < p.icount) (hge : s.rail.icount ≤ out.boundary.icount)
      (hpaused : out.reason = .paused → ∃ frame, req.frameStop frame = true) :
      Place P req fuel injections p s out []

lemma finish_reason {hashed : Bool} {boundary : Boundary} {vns : ℕ}
    (h : finish P hash reason boundary vns hashed s = (out, s')) : out.reason = reason := by
  cases h
  rfl

lemma finishAtCounter_reason (h : finishAtCounter P hash reason s = .ok (out, s')) :
    out.reason = reason := by
  unfold finishAtCounter at h
  split at h
  · exact finish_reason (Except.ok.inj h)
  · cases h

lemma Ending.place {p : StopPoint} (h : Ending P req fuel injections timerSlot p s out s') :
    ∃ indices ds done links, Conduct P req timerSlot s s' ds
        (indices.map fun index => (index, p.icount, p.icount)) done links ∧
      Place P req fuel injections p s out indices := by
  cases h with
  | @stop s1 vns boundary hhandled hboundary hafter =>
    obtain ⟨ds, done, hdeeds⟩ := hhandled.deeds
    obtain ⟨s2, queued, hpoised, -⟩ := hdeeds.poised
    obtain ⟨ds', links, hds', -⟩ := (hafter.reports hboundary hhandled.vns_eq).conduct
    have hall := hdeeds.conduct.trans hds'
    rw [append_nil] at hall
    refine ⟨p.inputs, _, _, _, hall, ?_⟩
    generalize hres : (Sum.inr (out, s') : Seg H σ τ ⊕ SegmentOutcome H × Seg H σ τ) = res
      at hafter
    cases hafter with
    | onward => cases hres
    | finish hreason hstop =>
      have hfinish := (Sum.inr.inj hres).symm
      apply Place.point
      · rw [(finish_rail hfinish).2, hboundary]
      · intro hpaused
        exact absurd ((finish_reason hfinish).symm.trans hpaused) hreason
    | paused hfinal hpause hepoch =>
      cases hres
      exact .point hboundary fun _ => ⟨hfinal, hepoch⟩
    | rolled hfinal hpause hepoch hflown hicount hvns hsink =>
      cases hres
      apply Place.rolled hpoised hfinal hpause hepoch
      · exact (le_pauseTarget P p.icount).trans (ge_of_eq hicount)
      · exact le_of_eq hicount
      · exact fun _ => .inl hicount
  | @cut s1 reason hcut hfinish hframe =>
    obtain ⟨ds', links, hds', -⟩ := (reports_of_finishAtCounter req timerSlot hfinish).conduct
    have hboundary : out.boundary.icount = s1.rail.icount := (finishAtCounter_rail hfinish).2
    have hreason := finishAtCounter_reason hfinish
    cases hcut with
    | flight hflown hlt =>
      obtain ⟨ds, hds⟩ := hflown.conduct
      refine ⟨[], _, _, _, hds.trans hds', .before (hboundary ▸ hlt) ?_ ?_⟩
      · exact hboundary ▸ hflown.icount_le
      · exact fun hpaused => hframe (hreason.symm.trans hpaused)
    | deferral hpoised h _ hslow =>
      obtain ⟨⟨ds, hds⟩, hicount⟩ := hpoised.conduct timerSlot
      have hall := (hds.trans h).trans hds'
      rw [append_nil, append_nil] at hall
      refine ⟨p.inputs, _, _, _, hall, .deferred hpoised hslow ?_⟩
      rw [hboundary, ← hicount]
      exact h.icount_le
    | roll hhandled hfinal hpause hepoch hflown hlt =>
      obtain ⟨ds, done, hdeeds⟩ := hhandled.deeds
      obtain ⟨s2, queued, hpoised, -⟩ := hdeeds.poised
      obtain ⟨ds'', hds''⟩ := hflown.conduct
      have hall := (hdeeds.conduct.trans hds'').trans hds'
      rw [append_nil, append_nil] at hall
      refine ⟨p.inputs, _, _, _, hall, .rolled hpoised hfinal hpause hepoch ?_ ?_ ?_⟩
      · exact hboundary ▸ hdeeds.icount_le.trans hflown.icount_le
      · exact hboundary ▸ hlt.le
      · exact fun hpaused => .inr (hframe (hreason.symm.trans hpaused))

def RunRequest.ScheduledAt (req : RunRequest H σ τ) (index n : ℕ) : Prop :=
  ∃ input, req.inputs[index]? = some input ∧ input.due = .icount n

/-- Exactly the inputs scheduled after the start and up to `b` are applied, each
once, at its count and in order of count and index. -/
structure Complete (req : RunRequest H σ τ) (b : ℕ) (applied : List (ℕ × ℕ × ℕ)) : Prop where
  counter_eq : ∀ d ∈ applied, d.2.2 = d.2.1
  ordered : applied.Pairwise fun a b => a.2.1 < b.2.1 ∨ a.2.1 = b.2.1 ∧ a.1 < b.1
  mem_iff : ∀ index n, (∃ counter, (index, n, counter) ∈ applied) ↔
    req.ScheduledAt index n ∧ req.startIcount < n ∧ n ≤ b

lemma mem_inputs_iff (hnew : AgendaIter.new (agendaInputs P req injections) = some it)
    {index n : ℕ} : (n, index) ∈ it.inputs ↔
      req.ScheduledAt index n ∧ req.startIcount < n ∧ n ≤ it.finalIcount := by
  obtain ⟨-, hinputs, -⟩ := agenda_window hnew
  rw [hinputs, mem_queue_iff]
  rw [RunRequest.scheduledInputs, List.getElem?_map, Option.map_eq_some_iff]
  constructor
  · rintro ⟨⟨input, hinput, hdue⟩, hstart, hfinal⟩
    refine ⟨⟨input, hinput, ?_⟩, hstart, hfinal⟩
    -- a frame-scheduled input stands at the start, outside the window
    split at hdue <;> rename_i m hm
    · rw [hm, hdue]
    · exact absurd hdue hstart.ne
  · rintro ⟨⟨input, hinput, hdue⟩, hstart, hfinal⟩
    refine ⟨⟨input, hinput, ?_⟩, hstart, hfinal⟩
    rw [hdue]

/-- A run that took the head `applied` off its queue is complete at `b` when
everything scheduled after the head lies beyond `b`. -/
lemma complete_of_split {b : ℕ} {applied : List (ℕ × ℕ × ℕ)} (later : List (ℕ × ℕ))
    (hnew : AgendaIter.new (agendaInputs P req injections) = some it)
    (hsplit : it.inputs = applied.map (fun d => (d.2.1, d.1)) ++ later)
    (hcounter : ∀ d ∈ applied, d.2.2 = d.2.1) (hle : ∀ d ∈ applied, d.2.1 ≤ b)
    (hlater : ∀ q ∈ later, b < q.1)
    (hbeyond : ∀ index n, req.ScheduledAt index n → it.finalIcount < n → b < n) :
    Complete req b applied := by
  refine ⟨hcounter, ?_, fun index n => ⟨?_, ?_⟩⟩
  · have hordered := queue_ordered req.startIcount it.finalIcount req.scheduledInputs
    obtain ⟨-, hinputs, -⟩ := agenda_window hnew
    change it.inputs = AgendaIter.queue req.startIcount it.finalIcount req.scheduledInputs
      at hinputs
    rw [← hinputs, hsplit, pairwise_append] at hordered
    exact pairwise_map.mp hordered.1
  · rintro ⟨counter, hmem⟩
    have hqueue : (n, index) ∈ it.inputs := by
      rw [hsplit]
      exact mem_append_left _ (mem_map_of_mem hmem)
    obtain ⟨hscheduled, hstart, -⟩ := (mem_inputs_iff hnew).mp hqueue
    exact ⟨hscheduled, hstart, hle _ hmem⟩
  · rintro ⟨hscheduled, hstart, hn⟩
    have hfinal : n ≤ it.finalIcount := by
      by_contra hgt
      exact absurd hn (Nat.not_le.mpr (hbeyond index n hscheduled (Nat.not_le.mp hgt)))
    have hqueue := (mem_inputs_iff hnew).mpr ⟨hscheduled, hstart, hfinal⟩
    rw [hsplit] at hqueue
    rcases mem_append.mp hqueue with hmem | hmem
    · obtain ⟨⟨i, m, counter⟩, hd, hpair⟩ := mem_map.mp hmem
      cases hpair
      exact ⟨counter, hd⟩
    · exact absurd hn (Nat.not_le.mpr (hlater _ hmem))

/-- Nothing scheduled comes between a point and where the run can end from it: a slow delivery
has no later input, and a roll-forward ends before the next one. -/
structure Unskipping (P : Platform H σ X) (fuel : ℕ) (req : RunRequest H σ τ) (rail : Rail H σ)
    (chain : H) (caller : τ) : Prop where
  delivery : ∀ p rest s vectors, ComesTo P fuel req rail chain caller p rest s vectors →
    Prompt P vectors s ∨ ∀ index n, req.ScheduledAt index n → n ≤ p.icount
  pause : ∀ p rest s vectors, ComesTo P fuel req rail chain caller p rest s vectors →
    p.finalStop = none → p.epochHash = false → req.pause p.icount = true →
    ∀ index n, req.ScheduledAt index n → p.icount < n → pauseTarget P p.icount < n

lemma Walks.inputs_upto (h : Walks P fuel req rail chain caller injections timerSlot it k w) :
    ∃ cur ds inputs vectors links,
      Progress P req injections timerSlot it (startSeg req rail chain caller) w cur ds inputs
        vectors links ∧ ∀ d ∈ inputs, d.2.1 ≤ cur := by
  refine h.induct (I := fun _ _ cur _ inputs _ _ => ∀ d ∈ inputs, d.2.1 ≤ cur) (by simp) ?_
  intro k w cur ds inputs vectors links p it' s' vns ds' done _ hprogress hupto hnext _ _ _ _ _ d hd
  rcases mem_append.mp hd with hd | hd
  · exact (hupto d hd).trans (hprogress.window.yields_of_next hnext).cur_le
  · obtain ⟨index, -, rfl⟩ := mem_map.mp hd
    exact le_rfl

/-- Where nothing is skipped over, a run has applied exactly the inputs
scheduled up to its boundary. -/
theorem inputs_applied_upto (hskip : Unskipping P fuel req rail chain caller)
    (h : runSegment P fuel req rail chain caller = .ok (out, s')) :
    ∃ timerSlot ds, Traced (Does P req timerSlot) ds (startSeg req rail chain caller) s' ∧
      Complete req out.boundary.icount (ds.filterMap Deed.input?) := by
  obtain ⟨hstart, hfinish | ⟨injections, timerSlot, it, k, w, p, rest, hwalks, hnext, hending⟩⟩ :=
    runSegment_ends h
  · obtain ⟨ds, links, hds, -⟩ := (reports_of_finishAtCounter req none hfinish).conduct
    refine ⟨none, ds, hds.traced, ?_⟩
    rw [hds.inputs_eq, (finishAtCounter_rail hfinish).2]
    refine ⟨by simp, .nil, fun index n => ⟨by simp, ?_⟩⟩
    rintro ⟨-, hlt, hle⟩
    have hzero : (startSeg req rail chain caller).rail.icount = req.startIcount := hstart
    omega
  · obtain ⟨cur, ds, inputs, vectors, links, hprogress, hupto⟩ := hwalks.inputs_upto
    have hyields := hprogress.window.yields_of_next hnext
    have hfinal : p.icount ≤ it.finalIcount := hprogress.final_eq ▸ hyields.le_final
    have hcounter := hprogress.tally.inputs_at
    have hsplit := hprogress.tally.inputs_eq
    -- the point's own inputs are applied, and nothing scheduled lies after it up to `b`
    have hpoint {b : ℕ} (hb : p.icount ≤ b)
        (hbeyond : ∀ index n, req.ScheduledAt index n → p.icount < n → b < n) :
        Complete req b (inputs ++ p.inputs.map fun index => (index, p.icount, p.icount)) := by
      apply complete_of_split rest.inputs hwalks.new_eq
      · rw [hsplit, hyields.inputs_eq, map_append, append_assoc, map_map]
        rfl
      · intro d hd
        rcases mem_append.mp hd with hd | hd
        · exact hcounter d hd
        · obtain ⟨index, -, rfl⟩ := mem_map.mp hd
          rfl
      · intro d hd
        rcases mem_append.mp hd with hd | hd
        · exact ((hupto d hd).trans hyields.cur_le).trans hb
        · obtain ⟨index, -, rfl⟩ := mem_map.mp hd
          exact hb
      · rintro ⟨n, index⟩ hq
        have hqueue : (n, index) ∈ it.inputs := by
          rw [hsplit, hyields.inputs_eq]
          exact mem_append_right _ (mem_append_right _ hq)
        exact hbeyond index n ((mem_inputs_iff hwalks.new_eq).mp hqueue).1 (hyields.later _ hq)
      · exact fun index n hscheduled hn => hbeyond index n hscheduled (hfinal.trans_lt hn)
    obtain ⟨indices, ds', done, links', hds', hplace⟩ := hending.place
    have hall := hprogress.tally.conduct.trans hds'
    refine ⟨timerSlot, _, hall.traced, ?_⟩
    rw [hall.inputs_eq]
    cases hplace with
    | point hboundary _ => exact hpoint hboundary.ge fun _ _ _ hn => hboundary ▸ hn
    | rolled hpoised hnone hpause hepoch hge hle _ =>
      have hcomes : ComesTo P fuel req rail chain caller p rest _ _ :=
        ⟨_, _, _, _, _, _, hwalks, hnext, hpoised, rfl⟩
      apply hpoint hge
      intro index n hscheduled hn
      exact hle.trans_lt (hskip.pause p rest _ _ hcomes hnone hepoch hpause index n hscheduled hn)
    | deferred hpoised hslow hge =>
      have hcomes : ComesTo P fuel req rail chain caller p rest _ _ :=
        ⟨_, _, _, _, _, _, hwalks, hnext, hpoised, rfl⟩
      apply hpoint hge
      intro index n hscheduled hn
      have hnone := (hskip.delivery p rest _ _ hcomes).resolve_left hslow
      exact absurd (hnone index n hscheduled) (Nat.not_le.mpr hn)
    | before hlt hge _ =>
      rw [map_nil, append_nil]
      have hcur := hprogress.cur_le.trans hge
      apply complete_of_split _ hwalks.new_eq hsplit hcounter
      · exact fun d hd => (hupto d hd).trans hcur
      · intro q hq
        rw [hyields.inputs_eq] at hq
        rcases mem_append.mp hq with hq | hq
        · obtain ⟨index, -, rfl⟩ := mem_map.mp hq
          exact hlt
        · exact hlt.trans (hyields.later q hq)
      · exact fun index n _ hn => hlt.trans (hfinal.trans_lt hn)

def padsAt (counts : List ℕ) : Recording LinkTrace ℕ :=
  (queueInputsFromProto (counting 10)
    (counts.map fun n => ⟨some (.atIcount n), some (.padSet 0 1)⟩) (freshCount (counting 10))).2

def pausedRun (counts : List ℕ) (budget k : ℕ) : RunRequest LinkTrace ℕ Unit :=
  recordRequest { stop := .icountBudget budget, pause := fun n => decide (k ≤ n) } (padsAt counts)

lemma pausedRun_ok : ∃ r, runSegment (counting 10) 50 (pausedRun [3, 7] 20 7)
    (padsAt [3, 7]).rail [] () = .ok r := Except.exists_eq_ok (by decide +kernel)

/-- A pause at the second PAD_SET rolls forward over nothing. -/
theorem inputs_applied_padsAt : ∃ out s' timerSlot ds,
      runSegment (counting 10) 50 (pausedRun [3, 7] 20 7) (padsAt [3, 7]).rail [] () =
        .ok (out, s') ∧ Traced (Does (counting 10) (pausedRun [3, 7] 20 7) timerSlot) ds
        (startSeg (pausedRun [3, 7] 20 7) (padsAt [3, 7]).rail [] ()) s' ∧
      Complete (pausedRun [3, 7] 20 7) out.boundary.icount (ds.filterMap Deed.input?) := by
  have hdue : ∀ input ∈ (padsAt [3, 7]).queued, input.due = .icount 3 ∨ input.due = .icount 7 := by
    decide +kernel
  have hskip : Unskipping (counting 10) 50 (pausedRun [3, 7] 20 7) (padsAt [3, 7]).rail [] () := by
    constructor
    · intro p rest s vectors hcomes
      exact .inl (.inl (length_eq_zero_iff.mp
        (Nat.le_zero.mp (hcomes.length_le (counting_quiet 10) rfl))))
    · rintro p rest s vectors - - - hpause index n ⟨input, hinput, hn⟩ hlt
      have hseven : 7 ≤ p.icount := by simpa [pausedRun, recordRequest] using hpause
      rcases hdue input (mem_of_getElem? hinput) with h | h
      · cases hn.symm.trans h
        omega
      · cases hn.symm.trans h
        omega
  obtain ⟨r, hrun⟩ := pausedRun_ok
  obtain ⟨timerSlot, ds, htraced, hcomplete⟩ := inputs_applied_upto hskip hrun
  exact ⟨r.1, r.2, timerSlot, ds, hrun, htraced, hcomplete⟩

/-- A pause at the first PAD_SET rolls forward over the second: the run stops at
10, and the input scheduled at 7 was never applied. -/
theorem pause_skips_input : (pausedRun [3, 7] 20 3).inputs.map (·.due) = [.icount 3, .icount 7] ∧
    (runSegment (counting 10) 50 (pausedRun [3, 7] 20 3) (padsAt [3, 7]).rail [] ()).toOption.map
        (fun r => (r.1.reason, r.1.boundary.icount, r.2.consumed.map (·.due))) =
      some (.paused, 10, [.icount 3]) := by
  decide +kernel

/-- Every epoch multiple inside the run at which the flag is up has an agenda
point at or before it that sees the flag. -/
def Sampled (P : Platform H σ X) (req : RunRequest H σ τ) : Prop :=
  ∀ injections timerSlot it, timed P req = some (injections, timerSlot) →
    AgendaIter.new (agendaInputs P req injections) = some it →
    ∀ m, max P.config.epochLen 1 ∣ m → req.startIcount < m → m < it.finalIcount →
      req.pause m = true → ∃ q, it.Has q ∧ q.icount ≤ m ∧ req.pause q.icount = true

lemma sampled_of_epochs {len : ℕ} (h : epochGrid P req.options = some len) : Sampled P req := by
  intro injections timerSlot it _ hnew m hd hstart hfinal hpause
  have hgridded : it.Gridded (epochGrid P req.options) req.startIcount :=
    gridded_of_new hnew (hstart.trans hfinal) fun _ => epochGrid_pos
  have hm : OnGrid (epochGrid P req.options) m := ⟨len, h, epochGrid_eq_some h ▸ hd⟩
  obtain ⟨q, hq, hqm⟩ := hgridded.has_point (agenda_window hnew).1 hm hstart hfinal.le
  exact ⟨q, hq, hqm.le, hqm ▸ hpause⟩

/-- Deliveries are prompt, a roll-forward has room before the final stop, no frame sink stops
the run, and the flag is sampled in time. -/
structure Punctual (P : Platform H σ X) (fuel : ℕ) (req : RunRequest H σ τ) (rail : Rail H σ)
    (chain : H) (caller : τ) : Prop where
  prompt : ∀ p rest s vectors, ComesTo P fuel req rail chain caller p rest s vectors →
    Prompt P vectors s
  room : ∀ p rest s vectors, ComesTo P fuel req rail chain caller p rest s vectors →
    p.finalStop = none → p.epochHash = false → req.pause p.icount = true →
    pauseTarget P p.icount ≤ rest.finalIcount
  frames : ∀ frame, req.frameStop frame = false
  sampled : Sampled P req

lemma Walks.unsampled (h : Walks P fuel req rail chain caller injections timerSlot it k w) :
    ∃ cur ds inputs vectors links,
      Progress P req injections timerSlot it (startSeg req rail chain caller) w cur ds inputs
        vectors links ∧ req.startIcount ≤ cur ∧
      (req.startIcount < it.finalIcount → w.1.Gridded (epochGrid P req.options) cur) ∧
      ∀ q, it.Has q → req.pause q.icount = true → w.1.Has q := by
  refine h.induct (I := fun _ w cur _ _ _ _ => req.startIcount ≤ cur ∧
    (req.startIcount < it.finalIcount → w.1.Gridded (epochGrid P req.options) cur) ∧
      ∀ q, it.Has q → req.pause q.icount = true → w.1.Has q) ?_ ?_
  · refine ⟨le_rfl, fun hlt => ?_, fun q hq _ => hq⟩
    exact gridded_of_new h.new_eq hlt fun _ => epochGrid_pos
  · rintro k w cur ds inputs vectors links p it' s' vns ds' done _ hprogress
      ⟨hstart, hgridded, hahead⟩ hnext hfinal hpause _ _ _
    have hwindow := hprogress.window
    have hyields := hwindow.yields_of_next hnext
    refine ⟨hstart.trans hyields.cur_le, fun hlt => ?_, fun q hq hqpause => ?_⟩
    · have hcur := (hwindow.rest_of_next hnext hfinal).1
      exact ((hgridded hlt).of_next hwindow (hyields.cur_le.trans_lt hcur) hnext).2.2
    · rcases (hahead q hq hqpause).of_next hnext with rfl | hq
      · rw [hpause] at hqpause
        cases hqpause
      · exact hq

/-- A punctual run stays within its final stop, a pause ends on the epoch grid,
and it ends no later than the first epoch multiple after the request. -/
theorem pause_within_limits (hpunctual : Punctual P fuel req rail chain caller)
    (h : runSegment P fuel req rail chain caller = .ok (out, s')) :
    (∀ final kind, AgendaIter.finalOf (agendaInputs P req []) = some (final, kind) →
      out.boundary.icount ≤ final) ∧
    (out.reason = .paused → max P.config.epochLen 1 ∣ out.boundary.icount) ∧
    ∀ k, (∀ n, k ≤ n → req.pause n = true) → ∀ e, k ≤ e → req.startIcount < e →
      ∀ m, max P.config.epochLen 1 ∣ m → e ≤ m → out.boundary.icount ≤ m := by
  obtain ⟨hstart, hfinish | ⟨injections, timerSlot, it, k, w, p, rest, hwalks, hnext, hending⟩⟩ :=
    runSegment_ends h
  · have hboundary : out.boundary.icount = req.startIcount :=
      (finishAtCounter_rail hfinish).2.trans hstart
    refine ⟨fun final kind hfinal => ?_, fun hpaused => ?_, fun k _ e _ he m _ hem => ?_⟩
    · exact hboundary ▸ (finalOf_spec hfinal).1
    · cases (finishAtCounter_reason hfinish).symm.trans hpaused
    · omega
  · obtain ⟨cur, ds, inputs, vectors, links, hprogress, hcur, hgridded, hahead⟩ :=
      hwalks.unsampled
    have hwindow := hprogress.window
    have hyields := hwindow.yields_of_next hnext
    have hcomes {s1 : Seg H σ τ} {queued : List ℕ} (hpoised : Poised P req fuel p w.2 s1 queued) :
        ComesTo P fuel req rail chain caller p rest s1 (dueVectors injections queued p) :=
      ⟨_, _, _, _, _, _, hwalks, hnext, hpoised, rfl⟩
    obtain ⟨indices, -, -, -, -, hplace⟩ := hending.place
    have hupto : out.boundary.icount ≤ it.finalIcount ∧
        ∀ m, max P.config.epochLen 1 ∣ m → p.icount ≤ m → out.boundary.icount ≤ m := by
      have hple : p.icount ≤ it.finalIcount := hprogress.final_eq ▸ hyields.le_final
      cases hplace with
      | point hboundary _ => exact ⟨hboundary ▸ hple, fun m _ hm => hboundary ▸ hm⟩
      | rolled hpoised hnone hpause hepoch hge hle _ =>
        have hlt := (hwindow.rest_of_next hnext hnone).1
        have hpos : 0 < p.icount :=
          Nat.zero_lt_of_lt (hyields.cur_lt (hyields.cur_le.trans_lt hlt))
        have hroom := hpunctual.room p rest _ _ (hcomes hpoised) hnone hepoch hpause
        rw [hyields.rest_final, hprogress.final_eq] at hroom
        exact ⟨hle.trans hroom, fun m hm hpm => hle.trans (pauseTarget_le hpos hm hpm)⟩
      | deferred hpoised hslow _ =>
        exact absurd (hpunctual.prompt p rest _ _ (hcomes hpoised)) hslow
      | before hlt _ _ => exact ⟨(hlt.trans_le hple).le, fun m _ hm => (hlt.trans_le hm).le⟩
    refine ⟨fun final kind hfinal => ?_, fun hpaused => ?_, fun k hflag e hke he m hm hem => ?_⟩
    · rw [hwalks.finalOf_eq] at hfinal
      exact (Prod.mk.inj (Option.some.inj hfinal)).1 ▸ hupto.1
    · have hframe {C : Prop} : (∃ frame, req.frameStop frame = true) → C := by
        rintro ⟨frame, hstop⟩
        rw [hpunctual.frames frame] at hstop
        cases hstop
      cases hplace with
      | point hboundary hstop =>
        obtain ⟨hnone, hepoch⟩ := hstop hpaused
        have hlt := (hwindow.rest_of_next hnext hnone).1
        have hcurlt := hyields.cur_le.trans_lt hlt
        have hgrid := hgridded (hprogress.final_eq ▸ hcur.trans_lt hcurlt)
        obtain ⟨len, hlen, hd⟩ := ((hgrid.of_next hwindow hcurlt hnext).1).mp hepoch
        rw [hboundary, ← epochGrid_eq_some hlen]
        exact hd
      | rolled _ _ _ _ _ _ hstop =>
        rcases hstop hpaused with heq | hstop
        · rw [heq]
          exact dvd_pauseTarget P p.icount
        · exact hframe hstop
      | deferred hpoised hslow _ =>
        exact absurd (hpunctual.prompt p rest _ _ (hcomes hpoised)) hslow
      | before _ _ hstop => exact hframe (hstop hpaused)
    · rcases Nat.lt_or_ge m it.finalIcount with hlt | hge
      · obtain ⟨q, hq, hqm, hqpause⟩ := hpunctual.sampled injections timerSlot it
          hwalks.timed_eq hwalks.new_eq m hm (he.trans_le hem) hlt (hflag m (hke.trans hem))
        exact hupto.2 m hm (((hahead q hq hqpause).le hwindow hnext).trans hqm)
      · exact hupto.1.trans hge

/-- A pause off the grid with room to the final stop. -/
theorem pause_within_limits_padsAt :
    ∃ out s', runSegment (counting 10) 50 (pausedRun [3, 7] 20 7) (padsAt [3, 7]).rail [] () =
        .ok (out, s') ∧ out.boundary.icount ≤ 20 ∧
      (out.reason = .paused → 10 ∣ out.boundary.icount) ∧ out.boundary.icount ≤ 10 := by
  have hpunctual : Punctual (counting 10) 50 (pausedRun [3, 7] 20 7)
      (padsAt [3, 7]).rail [] () := by
    constructor
    · intro p rest s vectors hcomes
      exact .inl (length_eq_zero_iff.mp
        (Nat.le_zero.mp (hcomes.length_le (counting_quiet 10) rfl)))
    · intro p rest s vectors hcomes _ _ hpause
      have hseven : 7 ≤ p.icount := by simpa [pausedRun, recordRequest] using hpause
      obtain ⟨hle, kind, hfinal⟩ := hcomes.final
      have htwenty : 20 = rest.finalIcount := (Prod.mk.inj (Option.some.inj hfinal)).1
      rw [← htwenty] at hle ⊢
      exact pauseTarget_le (by omega) (by decide) hle
    · exact fun _ => rfl
    · exact sampled_of_epochs rfl
  obtain ⟨r, hrun⟩ := pausedRun_ok
  obtain ⟨hfinal, hgrid, hstop⟩ := pause_within_limits hpunctual hrun
  refine ⟨r.1, r.2, hrun, hfinal 20 .budget rfl, hgrid, ?_⟩
  exact hstop 7 (by simp [pausedRun, recordRequest]) 7 le_rfl (by decide) 10 (by decide)
    (by decide)

def finalOnly (epochLen : ℕ) : Platform LinkTrace ℕ Unit :=
  { counting epochLen with config := ⟨ClockRatio.default, epochLen, .finalOnly, [], []⟩ }

/-- A pause at 12 carries a run with the budget 15 on to 20, and without epoch
points a pause at 5 does not stop a run before its final stop at 40. -/
theorem pause_beyond_limits :
    (runSegment (counting 10) 50 (pausedRun [12] 15 12) (padsAt [12]).rail [] ()).toOption.map
        (fun r => (r.1.reason, r.1.boundary.icount)) = some (.paused, 20) ∧
    (runSegment (finalOnly 10) 50 (pausedRun [] 40 5) (padsAt []).rail [] ()).toOption.map
        (fun r => (r.1.reason, r.1.boundary.icount)) = some (.budgetReached, 40) := by
  decide +kernel

end DetHypervisor
