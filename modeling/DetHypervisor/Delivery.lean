import DetHypervisor.Faults
import DetHypervisor.Recording

/-!
# Interrupt delivery

A point's vectors are delivered after its inputs and before its hash link, each deferred until
the guest's interrupt window is open. The link keeps the count of the point.
-/

namespace DetHypervisor

open List Except

variable {H σ X τ : Type} {P : Platform H σ X} {req : RunRequest H σ τ} {fuel : ℕ}
  {rail : Rail H σ} {chain : H} {caller : τ} {s s' : Seg H σ τ} {out : SegmentOutcome H}
  {boundary : Boundary} {done : List (ℕ × Option ℕ × ℕ)} {ds : List Deed} {hash : Bool}
  {injections : List ScheduledInjection} {it rest : AgendaIter} {k vector vns : ℕ} {p : StopPoint}
  {queued : List ℕ} {reason : StopReason} {timerSlot : Option ℕ} {vectors : List (ℕ × Option ℕ)}
  {w : AgendaIter × Seg H σ τ}

/-- A call of `run_segment` comes to the point `p` in the state `s` after the inputs, with
`vectors` to deliver. -/
def ComesTo (P : Platform H σ X) (fuel : ℕ) (req : RunRequest H σ τ) (rail : Rail H σ)
    (chain : H) (caller : τ) (p : StopPoint) (rest : AgendaIter) (s : Seg H σ τ)
    (vectors : List (ℕ × Option ℕ)) : Prop :=
  ∃ injections timerSlot it k w queued,
    Walks P fuel req rail chain caller injections timerSlot it k w ∧
      w.1.next = some (p, rest) ∧ Poised P req fuel p w.2 s queued ∧
      vectors = dueVectors injections queued p

def StopPoint.Labels (p : StopPoint) : Prop :=
  p.epochHash = true ∨ p.goalPoll = true ∨ p.finalStop.isSome = true

def TrueLabel (P : Platform H σ X) (link : ℕ × ℕ × ℕ) : Prop :=
  link.2.2 = link.1 ∧ P.config.clock.vnsFromIcount link.1 = some link.2.1

def PromptLabels (P : Platform H σ X) (fuel : ℕ) (req : RunRequest H σ τ) (rail : Rail H σ)
    (chain : H) (caller : τ) : Prop :=
  ∀ p rest s vectors, ComesTo P fuel req rail chain caller p rest s vectors → p.Labels →
    Prompt P vectors s

lemma Handled.Deeds.icount_eq
    (hdeeds : Handled.Deeds P req fuel injections timerSlot p w.2 s' vns ds done)
    (hwalks : Walks P fuel req rail chain caller injections timerSlot it k w)
    (hnext : w.1.next = some (p, rest))
    (hprompt : ∀ s vectors, ComesTo P fuel req rail chain caller p rest s vectors →
      Prompt P vectors s) : s'.rail.icount = p.icount := by
  obtain ⟨s1, queued, hpoised, -, hicount⟩ := hdeeds.poised
  exact hicount (hprompt s1 _ ⟨_, _, _, _, _, _, hwalks, hnext, hpoised, rfl⟩)

lemma finish_conduct {hashed : Bool} (req : RunRequest H σ τ) (timerSlot : Option ℕ)
    (h : finish P hash reason boundary vns hashed s = (out, s')) :
    ∃ ds, Conduct P req timerSlot s s' ds [] []
        (if hash && !hashed then [(boundary.icount, vns, s.rail.icount)] else []) ∧
      out.boundary = boundary ∧ out.vns = vns ∧ s'.rail = s.rail ∧
      out.timerFired = s'.timerFired := by
  cases h
  by_cases hlink : (hash && !hashed) = true
  · rw [if_pos hlink, if_pos hlink]
    exact ⟨_, .of_does (.link boundary.icount vns), rfl, rfl, rfl, rfl⟩
  · rw [if_neg hlink, if_neg hlink]
    exact ⟨_, .refl s, rfl, rfl, rfl, rfl⟩

/-- What a run reports at its end, and whether its last labels are true. -/
structure Reports (P : Platform H σ X) (req : RunRequest H σ τ) (timerSlot : Option ℕ)
    (true_ : Prop) (s : Seg H σ τ) (out : SegmentOutcome H) (s' : Seg H σ τ) : Prop where
  conduct : ∃ ds links, Conduct P req timerSlot s s' ds [] [] links ∧
    (true_ → ∀ l ∈ links, TrueLabel P l)
  boundary_eq : true_ → out.boundary.icount = s'.rail.icount
  vns_eq : P.config.clock.vnsFromIcount out.boundary.icount = some out.vns
  timerFired_eq : out.timerFired = s'.timerFired

lemma reports_of_finishAtCounter (req : RunRequest H σ τ) (timerSlot : Option ℕ)
    (h : finishAtCounter P hash reason s = .ok (out, s')) :
    Reports P req timerSlot True s out s' := by
  unfold finishAtCounter at h
  cases hvns : P.config.clock.vnsFromIcount s.rail.icount with
  | none => simp [hvns] at h
  | some vns =>
    simp only [hvns] at h
    obtain ⟨ds, hds, hboundary, hout, hrail, hfired⟩ :=
      finish_conduct req timerSlot (Except.ok.inj h)
    refine ⟨⟨ds, _, hds, fun _ l hl => ?_⟩, fun _ => ?_, ?_, hfired⟩
    · rw [mem_singleton.mp (mem_ite_nil_right.mp hl).2]
      exact ⟨rfl, hvns⟩
    · rw [hboundary, hrail]
      rfl
    · rw [hboundary, hout]
      exact hvns

lemma After.reports (h : After P req timerSlot p boundary vns s (.inr (out, s')))
    (hboundary : boundary.icount = p.icount)
    (hvns : P.config.clock.vnsFromIcount p.icount = some vns) :
    Reports P req timerSlot (p.Labels → s.rail.icount = p.icount) s out s' := by
  generalize hres : (Sum.inr (out, s') : Seg H σ τ ⊕ SegmentOutcome H × Seg H σ τ) = res at h
  cases h with
  | onward => cases hres
  | @finish reason hreason hstop =>
    obtain ⟨ds, hds, hbound, hout, hrail, hfired⟩ :=
      finish_conduct req timerSlot (Sum.inr.inj hres).symm
    have hlabels : p.Labels := .inr hstop
    refine ⟨⟨ds, _, hds, fun hstand l hl => ?_⟩, fun hstand => ?_, ?_, hfired⟩
    · rw [mem_singleton.mp (mem_ite_nil_right.mp hl).2, hboundary]
      exact ⟨hstand hlabels, hvns⟩
    · rw [hbound, hrail, hboundary, hstand hlabels]
    · rw [hbound, hboundary, hout, hvns]
  | paused hfinal hpause hepoch =>
    cases hres
    refine ⟨⟨_, _, .refl s, fun _ => forall_mem_nil _⟩, fun hstand => ?_, ?_, rfl⟩
    · exact hboundary.trans (hstand (.inl hepoch)).symm
    · exact hboundary ▸ hvns
  | @rolled s1 s2 vns' hfinal hpause hepoch hflown hicount hclock hsink =>
    cases hres
    obtain ⟨ds, hds⟩ := hflown.conduct
    have hlink := hds.trans (.of_does (.link s1.rail.icount vns'))
    have htrue : ∀ l ∈ [] ++ (Deed.link s1.rail.icount vns' s1.rail.icount).link?.toList,
        TrueLabel P l := by
      intro l hl
      rw [mem_singleton.mp hl]
      exact ⟨rfl, hclock⟩
    rcases hsink with rfl | hsink
    · exact ⟨⟨_, _, hlink, fun _ => htrue⟩, fun _ => rfl, hclock, rfl⟩
    · refine ⟨⟨_, _, hlink.trans (.of_does (.sink hsink)), fun _ => by
        simpa [Deed.link?] using htrue⟩,
        fun _ => (sinkEpoch_icount hsink).symm, hclock, rfl⟩

lemma Cut.conduct (h : Cut P req fuel injections timerSlot p s s') :
    ∃ ds inputs done queued, Conduct P req timerSlot s s' ds inputs done [] ∧
      done.map delivery <+: dueVectors injections queued p := by
  cases h with
  | flight h _ =>
    obtain ⟨ds, hds⟩ := h.conduct
    exact ⟨ds, _, _, [], hds, nil_prefix⟩
  | @deferral s1 queued ds done hpoised h hdone _ =>
    obtain ⟨⟨ds', hds'⟩, -⟩ := hpoised.conduct timerSlot
    exact ⟨_, _, _, queued, hds'.trans h, hdone⟩
  | roll hhandled _ _ hepoch h _ =>
    obtain ⟨ds, done, hdeeds⟩ := hhandled.deeds
    obtain ⟨s1, queued, -, hdone, -⟩ := hdeeds.poised
    obtain ⟨ds', hds'⟩ := h.conduct
    have hconduct := hdeeds.conduct.trans hds'
    rw [show hashedAt req p = false by rw [hashedAt, hepoch, Bool.false_and]] at hconduct
    refine ⟨_, _, _, queued, hconduct, ?_⟩
    rw [append_nil, hdone]

lemma labels_of_hashedAt (h : hashedAt req p = true) : p.Labels :=
  .inl (Bool.and_eq_true_iff.mp h).1

lemma Walks.true_labels (h : Walks P fuel req rail chain caller injections timerSlot it k w)
    (hprompt : PromptLabels P fuel req rail chain caller) : ∃ cur ds inputs vectors links,
      Progress P req injections timerSlot it (startSeg req rail chain caller) w cur ds inputs
        vectors links ∧ ∀ l ∈ links, TrueLabel P l := by
  refine h.induct (I := fun _ _ _ _ _ _ links => ∀ l ∈ links, TrueLabel P l) (by simp) ?_
  intro k w cur ds inputs vectors links p it' s' vns ds' done hwalks _ htrue hnext _ _ hvns hdeeds
    _ l hl
  rcases mem_append.mp hl with hl | hl
  · exact htrue l hl
  · split_ifs at hl with hhashed
    · have hicount := hdeeds.icount_eq hwalks hnext fun s vectors hcomes =>
        hprompt p it' s vectors hcomes (labels_of_hashedAt hhashed)
      rw [mem_singleton.mp hl]
      exact ⟨hicount, hvns⟩
    · cases hl

/-- Where delivery is prompt, a run reports where the machine is, every link
carries the counter and time of its moment, and the next run may start there. -/
theorem outcome_at_counter (hprompt : PromptLabels P fuel req rail chain caller)
    (h : runSegment P fuel req rail chain caller = .ok (out, s')) :
    out.boundary.icount = s'.rail.icount ∧
      P.config.clock.vnsFromIcount out.boundary.icount = some out.vns ∧
      (∃ timerSlot ds, Traced (Does P req timerSlot) ds (startSeg req rail chain caller) s' ∧
        ∀ icount vns counter, .link icount vns counter ∈ ds →
          icount = counter ∧ P.config.clock.vnsFromIcount counter = some vns) ∧
      ∀ (fuel' : ℕ) (req' : RunRequest H σ τ) (chain' : H) (caller' : τ),
        req'.startIcount = out.boundary.icount →
        ∀ message, runSegment P fuel' req' s'.rail chain' caller' ≠ .error (.kvm message) := by
  have hreports : ∃ timerSlot ds inputs vectors links,
      Conduct P req timerSlot (startSeg req rail chain caller) s' ds inputs vectors links ∧
        (∀ l ∈ links, TrueLabel P l) ∧ out.boundary.icount = s'.rail.icount ∧
        P.config.clock.vnsFromIcount out.boundary.icount = some out.vns := by
    obtain ⟨-, hfinish | ⟨injections, timerSlot, it, k, w, p, it', hwalks, hnext, hending⟩⟩ :=
      runSegment_ends h
    · have hrep := reports_of_finishAtCounter req none hfinish
      obtain ⟨ds, links, hds, htrue⟩ := hrep.conduct
      exact ⟨none, ds, _, _, links, hds, htrue trivial, hrep.boundary_eq trivial, hrep.vns_eq⟩
    · obtain ⟨cur, ds, inputs, vectors, links, hprogress, htrue⟩ := hwalks.true_labels hprompt
      have hsofar := hprogress.tally.conduct
      cases hending with
      | @stop s1 vns boundary hhandled hboundary hafter =>
        obtain ⟨ds', done, hdeeds⟩ := hhandled.deeds
        have hstand (hlabels : p.Labels) : s1.rail.icount = p.icount :=
          hdeeds.icount_eq hwalks hnext fun s vectors hcomes =>
            hprompt p it' s vectors hcomes hlabels
        have hrep := hafter.reports hboundary hhandled.vns_eq
        obtain ⟨ds'', links', hds'', htrue'⟩ := hrep.conduct
        refine ⟨timerSlot, _, _, _, _, (hsofar.trans hdeeds.conduct).trans hds'', ?_,
          hrep.boundary_eq hstand, hrep.vns_eq⟩
        intro l hl
        rcases mem_append.mp hl with hl | hl
        · rcases mem_append.mp hl with hl | hl
          · exact htrue l hl
          · split_ifs at hl with hhashed
            · rw [mem_singleton.mp hl]
              exact ⟨hstand (labels_of_hashedAt hhashed), hhandled.vns_eq⟩
            · cases hl
        · exact htrue' hstand l hl
      | @cut s1 reason hcut hfinish _ =>
        obtain ⟨ds', inputs', done, -, hds', -⟩ := hcut.conduct
        have hrep := reports_of_finishAtCounter req timerSlot hfinish
        obtain ⟨ds'', links', hds'', htrue'⟩ := hrep.conduct
        refine ⟨timerSlot, _, _, _, _, (hsofar.trans hds').trans hds'', ?_,
          hrep.boundary_eq trivial, hrep.vns_eq⟩
        intro l hl
        rcases mem_append.mp hl with hl | hl
        · exact htrue l (by simpa using hl)
        · exact htrue' trivial l hl
  obtain ⟨timerSlot, ds, inputs, vectors, links, hds, htrue, hboundary, hvns⟩ := hreports
  refine ⟨hboundary, hvns, ⟨timerSlot, ds, hds.traced, ?_⟩, ?_⟩
  · intro icount vns counter hmem
    have hlink : (icount, vns, counter) ∈ links := by
      rw [← hds.links_eq]
      exact mem_filterMap.mpr ⟨_, hmem, rfl⟩
    obtain ⟨rfl, htime⟩ : counter = icount ∧ _ := htrue _ hlink
    exact ⟨rfl, htime⟩
  · intro fuel' req' chain' caller' hstart message hkvm
    rcases runSegment_throws hkvm with hord | hagenda | hfeed | ⟨_, -, hne⟩ |
      ⟨_, _, _, _, _, _, _, s1, _, -, -, -, hdeliver⟩
    · exact hord
    · cases hagenda
    · cases hfeed
    · exact hne (hboundary.symm.trans hstart.symm)
    · rcases (deliver_throws true _ s1).of_error hdeliver _ rfl with hord | ⟨_, hpanic⟩
      · exact hord
      · cases hpanic

/-- The counting guest with its interrupt window closed before `opens`. -/
def masked (epochLen opens : ℕ) : Platform LinkTrace ℕ Unit :=
  { counting epochLen with injectable := fun s => decide (opens ≤ s) }

def freshCount {X : Type} (P : Platform LinkTrace ℕ X) : Recording LinkTrace ℕ :=
  openSegment P ⟨[], 0, []⟩ none

def injectedRun {X : Type} (P : Platform LinkTrace ℕ X) (stop : Until)
    (injections : List ScheduledInjection) : RunRequest LinkTrace ℕ Unit :=
  { recordRequest { stop } (freshCount P) with injections }

lemma applyInputs_quiet
    (hquiet : ∀ kind m m' v, Rail.inputEffect P m kind = .ok (m', v) → v = none) {at_ : Boundary}
    {indices : List ℕ} (h : applyInputs P req at_ indices s = .ok (s', queued)) : queued = [] := by
  induction indices generalizing s s' queued with
  | nil =>
    cases h
    rfl
  | cons index rest ih =>
    unfold applyInputs at h
    cases hinput : req.inputs[index]? with
    | none => simp [hinput] at h
    | some input =>
      simp only [hinput] at h
      obtain ⟨⟨r, vector⟩, hlift, h⟩ := bind_eq_ok.mp h
      obtain ⟨⟨s1, vectors⟩, hrest, h⟩ := bind_eq_ok.mp h
      cases h
      cases happly : s.rail.applyInput P input.kind at_.icount at_.rip with
      | error e => simp [Flight.lift, happly] at hlift
      | ok w =>
        simp only [Flight.lift, happly] at hlift
        cases hlift
        obtain ⟨⟨m, v⟩, heffect, happly⟩ := bind_eq_ok.mp happly
        obtain ⟨r', -, happly⟩ := bind_eq_ok.mp happly
        cases happly
        rw [hquiet _ _ _ _ heffect, ih hrest]
        rfl

lemma Walks.finalOf_eq (h : Walks P fuel req rail chain caller injections timerSlot it k w) :
    AgendaIter.finalOf (agendaInputs P req []) = some (it.finalIcount, it.stopKind) := by
  have hfinal := AgendaIter.finalOf_of_new h.new_eq
  exact hfinal

section

variable (h : ComesTo P fuel req rail chain caller p rest s vectors)
include h

lemma ComesTo.length_le (hquiet : ∀ kind m m' v, Rail.inputEffect P m kind = .ok (m', v) → v = none)
    (htimer : req.timer = none) : vectors.length ≤ req.injections.length := by
  obtain ⟨injections, timerSlot, it, k, w, queued, hwalks, hnext, ⟨s1, -, happly⟩, rfl⟩ := h
  obtain ⟨cur, ds, inputs, done, links, hprogress⟩ := hwalks.progress
  have hyields := hprogress.window.yields_of_next hnext
  have hinjections : injections = req.injections := by
    have htimed := hwalks.timed_eq
    simp only [timed, htimer, Option.some.injEq, Prod.mk.injEq] at htimed
    exact htimed.1.symm
  have hdue : (dueVectors injections queued p).length ≤ p.injections.length := by
    rw [dueVectors, applyInputs_quiet hquiet happly]
    exact length_filterMap_le _ _
  have hpoint : p.injections.length ≤ it.injections.length := by
    have hmap := congrArg List.length hprogress.tally.injections_eq
    rw [hyields.injections_eq] at hmap
    simp only [length_map, length_append] at hmap
    omega
  have hit : it.injections.length ≤ injections.length := by
    obtain ⟨-, -, hqueue⟩ := agenda_window hwalks.new_eq
    rw [hqueue]
    refine (AgendaIter.length_queue_le _ _ _).trans ?_
    simp
  exact hinjections ▸ hdue.trans (hpoint.trans hit)

lemma ComesTo.prompt_of_open
    (hquiet : ∀ kind m m' v, Rail.inputEffect P m kind = .ok (m', v) → v = none)
    (htimer : req.timer = none) (hone : req.injections.length ≤ 1)
    (hopen : ∀ m, P.injectable m = true) : Prompt P vectors s := by
  rcases Nat.le_one_iff_eq_zero_or_eq_one.mp ((h.length_le hquiet htimer).trans hone) with
    hzero | hone
  · exact .inl (length_eq_zero_iff.mp hzero)
  · exact .inr ⟨hone, hopen _⟩

lemma ComesTo.final :
    p.icount ≤ rest.finalIcount ∧ ∃ kind,
      AgendaIter.finalOf (agendaInputs P req []) = some (rest.finalIcount, kind) := by
  obtain ⟨injections, timerSlot, it, k, w, queued, hwalks, hnext, -, -⟩ := h
  obtain ⟨cur, ds, inputs, vectors, links, hprogress⟩ := hwalks.progress
  have hyields := hprogress.window.yields_of_next hnext
  rw [hyields.rest_final]
  refine ⟨hyields.le_final, it.stopKind, ?_⟩
  rw [hprogress.final_eq]
  exact hwalks.finalOf_eq

end

lemma counting_quiet (epochLen : ℕ) (kind : InputKind) (m m' : ℕ) (v : Option ℕ)
    (h : Rail.inputEffect (counting epochLen) m kind = .ok (m', v)) : v = none := by
  cases kind <;> exact (Prod.mk.inj (Except.ok.inj h)).2.symm

/-- A vector on the epoch grid of the counting guest. -/
theorem outcome_at_counter_counting :
    ∃ out s', runSegment (counting 10) 50 (injectedRun (counting 10) (.icountBudget 20) [⟨10, 64⟩])
        (freshCount (counting 10)).rail [] () = .ok (out, s') ∧
      out.boundary.icount = s'.rail.icount := by
  obtain ⟨r, hrun⟩ : ∃ r, runSegment (counting 10) 50 (injectedRun (counting 10)
      (.icountBudget 20) [⟨10, 64⟩]) (freshCount (counting 10)).rail [] () = .ok r :=
    exists_eq_ok (by decide +kernel)
  have hprompt : PromptLabels (counting 10) 50
      (injectedRun (counting 10) (.icountBudget 20) [⟨10, 64⟩])
      (freshCount (counting 10)).rail [] () :=
    fun p rest s vectors hcomes _ =>
      hcomes.prompt_of_open (counting_quiet 10) rfl (by decide) fun _ => rfl
  exact ⟨r.1, r.2, hrun, (outcome_at_counter hprompt hrun).1⟩

/-- The window opens four instructions after the final stop. The link of the
stop hashes the guest at 9 under the count 5, and 5 is what the run reports. -/
theorem deferral_leaves_boundary :
    (runSegment (masked 10 9) 50 (injectedRun (masked 10 9) (.icountBudget 5) [⟨5, 64⟩])
        (freshCount (masked 10 9)).rail [] ()).toOption.map
      (fun r => (r.1.boundary.icount, r.2.rail.icount, r.2.chain)) =
    some (5, 9, [(⟨[], [], [[9]]⟩, 5, 5)]) := by
  decide +kernel

def timerSlotOf (req : RunRequest H σ τ) : Option ℕ := req.timer.map fun _ => req.injections.length

def noteFired (req : RunRequest H σ τ) (fired : Option TimerFired) (d : ℕ × Option ℕ × ℕ) :
    Option TimerFired :=
  if timerSlotOf req = d.2.1 then req.timer.map fun timer => ⟨d.1, timer.deadlineVns, d.2.2⟩
  else fired

lemma timed_eq_some (h : timed P req = some (injections, timerSlot)) :
    timerSlot = timerSlotOf req ∧ ∀ timer, req.timer = some timer →
      (injections[req.injections.length]?).map (·.vector) = some timer.vector := by
  unfold timed at h
  cases htimer : req.timer with
  | none =>
    simp only [htimer, Option.some.injEq, Prod.mk.injEq] at h
    obtain ⟨-, rfl⟩ := h
    exact ⟨by rw [timerSlotOf, htimer]; rfl, by simp⟩
  | some timer =>
    simp only [htimer] at h
    obtain ⟨injection, hinjection, h⟩ := Option.map_eq_some_iff.mp h
    cases h
    obtain ⟨icount, -, hinjection⟩ := Option.bind_eq_some_iff.mp hinjection
    cases hinjection
    refine ⟨by rw [timerSlotOf, htimer]; rfl, fun timer' htimer' => ?_⟩
    cases htimer'
    simp

lemma noteDelivery_fired {injection : Option ℕ}
    (h : noteDelivery req (timerSlotOf req) injection vector s = .ok s') :
    s'.timerFired = noteFired req s.timerFired (vector, injection, s.rail.icount) := by
  unfold noteDelivery at h
  unfold noteFired
  split_ifs at h ⊢ with hslot
  · cases htimer : req.timer with
    | none => simp [htimer] at h
    | some timer =>
      simp only [htimer] at h
      cases h
      rfl
  · cases h
    rfl

lemma timerFired_of_traced (h : Traced (Does P req (timerSlotOf req)) ds s s') :
    s'.timerFired = (ds.filterMap Deed.vector?).foldl (noteFired req) s.timerFired := by
  induction h with
  | nil s => rfl
  | @cons d ds s s1 s' hdoes _ ih =>
    rw [ih]
    cases hdoes with
    | entry h =>
      have hseg : segOf? (onEntered P req s (enter P s.rail)) = some s1 := by rw [h]; rfl
      obtain ⟨-, -, -, hkept⟩ := segOf_onEntered hseg
      rw [hkept.timerFired_eq]
      rfl
    | leave h hu =>
      have hseg : segOf? (onEntered P req s (enter P s.rail)) = some s1 := by rw [h]; exact hu
      obtain ⟨-, -, -, hkept⟩ := segOf_onEntered hseg
      rw [hkept.timerFired_eq]
      rfl
    | input | link => rfl
    | vector hopen h hnote =>
      rw [noteDelivery_fired hnote, queueVector_eq_ok h]
      rfl
    | sink h =>
      obtain ⟨⟨log, caller⟩, -, h⟩ := bind_eq_ok.mp h
      cases h
      rfl

lemma foldl_noteFired_none (htimer : req.timer = none) (vectors : List (ℕ × Option ℕ × ℕ)) :
    vectors.foldl (noteFired req) none = none := by
  induction vectors with
  | nil => rfl
  | cons d rest ih =>
    have hnote : noteFired req none d = none := by
      unfold noteFired
      split_ifs
      · rw [htimer]
        rfl
      · rfl
    rw [foldl_cons, hnote, ih]

lemma foldl_noteFired {timer : TimerArm} (htimer : req.timer = some timer)
    {vectors : List (ℕ × Option ℕ × ℕ)} (hnodup : (vectors.filterMap (·.2.1)).Nodup)
    (fired : TimerFired) : vectors.foldl (noteFired req) none = some fired ↔
      ∃ d ∈ vectors, d.2.1 = some req.injections.length ∧
        fired = ⟨d.1, timer.deadlineVns, d.2.2⟩ := by
  have hslot : timerSlotOf req = some req.injections.length := by rw [timerSlotOf, htimer]; rfl
  have hmiss {vectors : List (ℕ × Option ℕ × ℕ)} (acc : Option TimerFired)
      (h : ∀ d ∈ vectors, d.2.1 ≠ some req.injections.length) :
      vectors.foldl (noteFired req) acc = acc := by
    induction vectors generalizing acc with
    | nil => rfl
    | cons d rest ih =>
      have hd : timerSlotOf req ≠ d.2.1 := hslot ▸ (h d mem_cons_self).symm
      rw [foldl_cons, noteFired, if_neg hd]
      exact ih acc fun d' hd' => h d' (mem_cons_of_mem d hd')
  induction vectors with
  | nil => simp
  | cons d rest ih =>
    by_cases hd : d.2.1 = some req.injections.length
    · have hcons : (d :: rest).filterMap (·.2.1) =
          req.injections.length :: rest.filterMap (·.2.1) := filterMap_cons_some hd
      rw [hcons, nodup_cons] at hnodup
      have hrest : ∀ d' ∈ rest, d'.2.1 ≠ some req.injections.length := fun d' hd' heq =>
        hnodup.1 (mem_filterMap.mpr ⟨d', hd', heq⟩)
      rw [foldl_cons, noteFired, if_pos (hslot.trans hd.symm), htimer, hmiss _ hrest]
      constructor
      · intro hfired
        exact ⟨d, mem_cons_self, hd, (Option.some.inj hfired).symm⟩
      · rintro ⟨d', hd', hindex, rfl⟩
        rcases mem_cons.mp hd' with rfl | hd'
        · rfl
        · exact absurd hindex (hrest d' hd')
    · have hnodup' : (rest.filterMap (·.2.1)).Nodup :=
        hnodup.sublist (List.Sublist.filterMap _ (sublist_cons_self d rest))
      have hne : timerSlotOf req ≠ d.2.1 := hslot ▸ Ne.symm hd
      rw [foldl_cons, noteFired, if_neg hne]
      refine (ih hnodup').trans ⟨?_, ?_⟩
      · rintro ⟨d', hd', h⟩
        exact ⟨d', mem_cons_of_mem d hd', h⟩
      · rintro ⟨d', hd', hindex, hfired⟩
        rcases mem_cons.mp hd' with rfl | hd'
        · exact absurd hindex hd
        · exact ⟨d', hd', hindex, hfired⟩

/-- Wherever the deliveries of a point end, no injection of the run was
delivered twice. -/
lemma Progress.nodup_injections {cur : ℕ} {inputs : List (ℕ × ℕ × ℕ)}
    {vectors : List (ℕ × Option ℕ × ℕ)} {links : List (ℕ × ℕ × ℕ)}
    (h : Progress P req injections timerSlot it s w cur ds inputs vectors links)
    (hnew : AgendaIter.new (agendaInputs P req injections) = some it)
    (hnext : w.1.next = some (p, rest))
    (hdone : done.map delivery <+: dueVectors injections queued p) :
    ((vectors ++ done).filterMap (·.2.1)).Nodup ∧
      ∀ d ∈ vectors ++ done, ∀ index, d.2.1 = some index →
        (injections[index]?).map (·.vector) = some d.1 := by
  have hyields := h.window.yields_of_next hnext
  have hpoint : w.1.injections.map Prod.snd = p.injections ++ rest.injections.map Prod.snd := by
    rw [hyields.injections_eq, map_append, map_map]
    exact congrArg (· ++ _) (map_id p.injections)
  have hindex : ∀ index ∈ p.injections, index < injections.length := by
    intro index hindex
    have hmem : index ∈ it.injections.map Prod.snd := by
      rw [h.tally.injections_eq, hpoint]
      exact mem_append_right _ (mem_append_left _ hindex)
    obtain ⟨q, hq, rfl⟩ := mem_map.mp hmem
    exact injections_valid hnew q hq
  constructor
  · have hprefix : done.filterMap (·.2.1) <+: p.injections := by
      rw [← dueVectors_injections queued hindex]
      have hmap : done.filterMap (·.2.1) = (done.map delivery).filterMap Prod.snd := by
        rw [filterMap_map]
        rfl
      rw [hmap]
      exact hdone.filterMap _
    have hsub : ((vectors ++ done).filterMap (·.2.1)).Sublist (it.injections.map Prod.snd) := by
      rw [filterMap_append, h.tally.injections_eq, hpoint]
      refine List.Sublist.append_left ?_ _
      exact hprefix.sublist.trans (sublist_append_left _ _)
    refine List.Nodup.sublist hsub ?_
    obtain ⟨-, -, hinjections⟩ := agenda_window hnew
    rw [hinjections]
    exact AgendaIter.queue_indices_nodup _ _ _
  · intro d hd index heq
    rcases mem_append.mp hd with hd | hd
    · exact h.tally.vectors_eq d hd index heq
    · refine vector_of_mem_dueVectors (hdone.subset ?_)
      rw [← heq]
      exact mem_map_of_mem hd

lemma runSegment_deliveries (h : runSegment P fuel req rail chain caller = .ok (out, s')) :
    ∃ ds vectors, Traced (Does P req (timerSlotOf req)) ds (startSeg req rail chain caller) s' ∧
      ds.filterMap Deed.vector? = vectors ∧ (vectors.filterMap (·.2.1)).Nodup ∧
      (∀ timer, req.timer = some timer → ∀ d ∈ vectors, d.2.1 = some req.injections.length →
        d.1 = timer.vector) ∧ out.timerFired = s'.timerFired := by
  obtain ⟨-, hfinish | ⟨injections, timerSlot, it, k, w, p, rest, hwalks, hnext, hending⟩⟩ :=
    runSegment_ends h
  · have hrep := reports_of_finishAtCounter req (timerSlotOf req) hfinish
    obtain ⟨ds, links, hds, -⟩ := hrep.conduct
    exact ⟨ds, [], hds.traced, hds.vectors_eq, by simp, by simp, hrep.timerFired_eq⟩
  obtain ⟨rfl, htimer⟩ := timed_eq_some hwalks.timed_eq
  obtain ⟨cur, ds, inputs, vectors, links, hprogress⟩ := hwalks.progress
  have hsofar := hprogress.tally.conduct
  have hvector {done : List (ℕ × Option ℕ × ℕ)}
      (hvalid : ∀ d ∈ vectors ++ done, ∀ index, d.2.1 = some index →
        (injections[index]?).map (·.vector) = some d.1) :
      ∀ timer, req.timer = some timer → ∀ d ∈ vectors ++ done,
        d.2.1 = some req.injections.length → d.1 = timer.vector := by
    intro timer hsome d hd hindex
    exact Option.some.inj ((hvalid d hd _ hindex).symm.trans (htimer timer hsome))
  cases hending with
  | @stop s1 vns boundary hhandled hboundary hafter =>
    obtain ⟨ds', done, hdeeds⟩ := hhandled.deeds
    obtain ⟨s2, queued, -, hdone, -⟩ := hdeeds.poised
    have hrep := hafter.reports hboundary hhandled.vns_eq
    obtain ⟨ds'', links', hds'', -⟩ := hrep.conduct
    have hprefix : done.map delivery <+: dueVectors injections queued p := by rw [hdone]
    obtain ⟨hnodup, hvalid⟩ := hprogress.nodup_injections hwalks.new_eq hnext hprefix
    have hall := (hsofar.trans hdeeds.conduct).trans hds''
    exact ⟨_, vectors ++ done, hall.traced, by simpa using hall.vectors_eq, hnodup,
      hvector hvalid, hrep.timerFired_eq⟩
  | @cut s1 reason hcut hfinish _ =>
    obtain ⟨ds', inputs', done, queued, hds', hdone⟩ := hcut.conduct
    have hrep := reports_of_finishAtCounter req (timerSlotOf req) hfinish
    obtain ⟨ds'', links', hds'', -⟩ := hrep.conduct
    obtain ⟨hnodup, hvalid⟩ := hprogress.nodup_injections hwalks.new_eq hnext hdone
    have hall := (hsofar.trans hds').trans hds''
    exact ⟨_, vectors ++ done, hall.traced, by simpa using hall.vectors_eq, hnodup,
      hvector hvalid, hrep.timerFired_eq⟩

/-- There is a timer report exactly when the timer's own injection was delivered, with its
vector, deadline and place. -/
def Attributed (P : Platform H σ X) (req : RunRequest H σ τ) (rail : Rail H σ) (chain : H)
    (caller : τ) (out : SegmentOutcome H) (s' : Seg H σ τ) : Prop :=
  ∃ ds, Traced (Does P req (timerSlotOf req)) ds (startSeg req rail chain caller) s' ∧
    ∀ fired, out.timerFired = some fired ↔ ∃ timer counter, req.timer = some timer ∧
      fired = ⟨timer.vector, timer.deadlineVns, counter⟩ ∧
      .vector timer.vector (some req.injections.length) counter ∈ ds

lemma attributed_of_runSegment (h : runSegment P fuel req rail chain caller = .ok (out, s')) :
    Attributed P req rail chain caller out s' := by
  obtain ⟨ds, vectors, hds, hvectors, hnodup, hvector, hout⟩ := runSegment_deliveries h
  refine ⟨ds, hds, fun fired => ?_⟩
  have hfold := timerFired_of_traced hds
  rw [hvectors] at hfold
  rw [hout, hfold]
  change vectors.foldl (noteFired req) none = some fired ↔ _
  cases htimer : req.timer with
  | none =>
    simp [foldl_noteFired_none htimer]
  | some timer =>
    rw [foldl_noteFired htimer hnodup]
    constructor
    · rintro ⟨d, hd, hindex, rfl⟩
      obtain ⟨vector, injection, counter⟩ := d
      obtain rfl : vector = timer.vector := hvector timer htimer _ hd hindex
      obtain rfl : injection = some req.injections.length := hindex
      refine ⟨timer, counter, rfl, rfl, ?_⟩
      rw [← hvectors] at hd
      obtain ⟨deed, hdeed, heq⟩ := mem_filterMap.mp hd
      cases deed <;> simp_all [Deed.vector?]
    · rintro ⟨timer', counter, htimer', rfl, hmem⟩
      cases htimer'
      refine ⟨(timer.vector, some req.injections.length, counter), ?_, rfl, rfl⟩
      rw [← hvectors]
      exact mem_filterMap.mpr ⟨_, hmem, rfl⟩

lemma deliver_panics {s1 : Seg H σ τ} (htimer : req.timer = none)
    (hinject : injectAtBoundary P req fuel vector injectDeferBudget s = .ok s1) :
    deliver P req fuel none true ((vector, none) :: vectors) s =
      .error (.error (.panicked "timer_slot implies timer")) := by
  simp [deliver, hinject, noteDelivery, htimer, Flight.fail]

lemma inject_of_deliver_panics {message : String}
    (h : deliver P req fuel none true (dueVectors injections queued p) s =
      .error (.error (.panicked message))) :
    ∃ vector vectors s1, dueVectors injections queued p = (vector, none) :: vectors ∧
      injectAtBoundary P req fuel vector injectDeferBudget s = .ok s1 := by
  cases queued with
  | nil =>
    have hord : (deliver P req fuel none true (dueVectors injections [] p) s).Post
        (fun _ => True) (Throws RunError.Ordinary) := by
      refine deliver_ordinary fun v hv hnone => ?_
      obtain ⟨index, -, hindex⟩ := mem_filterMap.mp hv
      obtain ⟨injection, -, rfl⟩ := Option.map_eq_some_iff.mp hindex
      cases hnone
    exact (hord.of_error h _ rfl).elim
  | cons vector queued =>
    refine ⟨vector, dueVectors injections queued p, ?_⟩
    cases hinject : injectAtBoundary P req fuel vector injectDeferBudget s with
    | ok s1 => exact ⟨s1, rfl, rfl⟩
    | error u =>
      have hdeliver : deliver P req fuel none true
          (dueVectors injections (vector :: queued) p) s = .error u := by
        simp [dueVectors, deliver, hinject]
      cases hdeliver.symm.trans h
      exact ((injectAtBoundary_ordinary fuel vector _ s).of_error hinject _ rfl).elim

/-- A run panics exactly when it has no timer and queues the vector of an
input; otherwise its report on the timer is right. -/
theorem timer_attribution_iff (P : Platform H σ X) (fuel : ℕ) (req : RunRequest H σ τ)
    (rail : Rail H σ) (chain : H) (caller : τ) :
    ((∀ message, runSegment P fuel req rail chain caller ≠ .error (.panicked message)) ∧
      ∀ out s', runSegment P fuel req rail chain caller = .ok (out, s') →
        Attributed P req rail chain caller out s') ↔ (req.timer = none → ∀ p rest s vector vectors,
      ComesTo P fuel req rail chain caller p rest s ((vector, none) :: vectors) →
      ∀ s', injectAtBoundary P req fuel vector injectDeferBudget s ≠ .ok s') := by
  constructor
  · rintro ⟨hsafe, -⟩ htimer p rest s vector vectors
      ⟨injections, timerSlot, it, k, w, queued, hwalks, hnext, ⟨s1, hland, happly⟩, hdue⟩ s' hinject
    obtain rfl : timerSlot = none := by
      rw [(timed_eq_some hwalks.timed_eq).1, timerSlotOf, htimer]
      rfl
    have hpoint : atPoint P req fuel injections none p w.2 =
        .error (.error (.panicked "timer_slot implies timer")) := by
      simp only [atPoint, hland, ok_bind, happly]
      change (deliver P req fuel none true (dueVectors injections queued p) s >>= _) = _
      rw [← hdue, deliver_panics htimer hinject]
      rfl
    have hdone : walkStep P req fuel injections none w =
        .done (.error (.error (.panicked "timer_slot implies timer"))) := by
      simp only [walkStep, hnext, hpoint]
    exact hsafe _ (hwalks.runSegment_eq hdone)
  · intro hclosed
    refine ⟨fun message hpanic => ?_, fun out s' h => attributed_of_runSegment h⟩
    rcases runSegment_throws hpanic with hord | hagenda | hfeed | ⟨_, hkvm, -⟩ |
      ⟨injections, timerSlot, it, k, w, p, rest, s1, queued, hwalks, hnext, hpoised, hdeliver⟩
    · exact hord
    · cases hagenda
    · cases hfeed
    · cases hkvm
    · by_cases htimer : req.timer = none
      · obtain rfl : timerSlot = none := by
          rw [(timed_eq_some hwalks.timed_eq).1, timerSlotOf, htimer]
          rfl
        obtain ⟨vector, vectors, s2, hdue, hinject⟩ := inject_of_deliver_panics hdeliver
        exact hclosed htimer p rest s1 vector vectors
          ⟨injections, none, it, k, w, queued, hwalks, hnext, hpoised, hdue.symm⟩ s2 hinject
      · exact (deliver_ordinary (fun _ _ _ => htimer)).of_error hdeliver _ rfl

def edgePad (epochLen : ℕ) : Platform LinkTrace ℕ Unit :=
  { counting epochLen with applyPadSet := fun _ _ s => .ok (s, some 64) }

/-- One accepted PAD_SET, and the `Run` that reaches it panics. -/
theorem pad_edge_panics : (driveRecordedRun (edgePad 10) 50 { stop := .icountBudget 20 }
        (queueInputsFromProto (edgePad 10) [⟨some (.atIcount 5), some (.padSet 0 1)⟩]
          (freshCount (edgePad 10))).2).map (fun _ => ()) =
      .error (.panicked "timer_slot implies timer") := by
  decide +kernel

end DetHypervisor
