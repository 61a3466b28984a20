import DetHypervisor.Deeds

/-!
# The agenda walk, point by point

What `run_segment` does at one agenda point, on the way over its agenda and at
its end, for every request: which deeds it makes and how far the agenda has
come.
-/

namespace DetHypervisor

open List Except

variable {H σ X τ : Type} {P : Platform H σ X} {req : RunRequest H σ τ} {timerSlot : Option ℕ}
  {fuel : ℕ} {s s' : Seg H σ τ} {Q : Seg H σ τ → Prop} {caller : τ} {chain : H} {icount : ℕ}
  {injections : List ScheduledInjection} {it : AgendaIter} {out : SegmentOutcome H}
  {p : StopPoint} {queued : List ℕ} {rail : Rail H σ} {s1 : Seg H σ τ} {u : Unwind H σ τ}

/-- Delivery takes no step: there is at most one vector, and its window is
open. -/
def Prompt (P : Platform H σ X) (vectors : List (ℕ × Option ℕ)) (s : Seg H σ τ) : Prop :=
  vectors = [] ∨ vectors.length = 1 ∧ P.injectable s.rail.machine = true

def delivery (d : ℕ × Option ℕ × ℕ) : ℕ × Option ℕ := (d.1, d.2.1)

lemma Flown.conduct {left : Bool} (h : Flown P req timerSlot left s s') :
    ∃ ds, Conduct P req timerSlot s s' ds [] [] [] := by
  obtain ⟨n, h⟩ := h
  exact ⟨_, h⟩

/-- Vectors are delivered in order; a stop comes behind a front of them. -/
lemma deliver_spec (P : Platform H σ X) (req : RunRequest H σ τ) (timerSlot : Option ℕ)
    (fuel : ℕ) (first : Bool) (vectors : List (ℕ × Option ℕ)) (s : Seg H σ τ) :
    (deliver P req fuel timerSlot first vectors s).Post
      (fun s' => ∃ ds done, Conduct P req timerSlot s s' ds [] done [] ∧
        done.map delivery = vectors)
      (Stopped P req fun s' => ∃ ds done, Conduct P req timerSlot s s' ds [] done [] ∧
        done.map delivery <+: vectors) := by
  induction vectors generalizing first s with
  | nil => exact ⟨[], [], .refl s, rfl⟩
  | cons v rest ih =>
    obtain ⟨vector, injection⟩ := v
    have hchain : (if first then .ok s else stepOneEntry P req fuel s :
        Flight H σ τ (Seg H σ τ)).Post (Flown P req timerSlot false s)
          (Stopped P req (Flown P req timerSlot true s)) := by
      split_ifs
      · exact .refl s
      · exact stepOneEntry_spec P req timerSlot fuel s
    have hcut {s' : Seg H σ τ} (h : Flown P req timerSlot true s s') :
        ∃ ds done, Conduct P req timerSlot s s' ds [] done [] ∧
          done.map delivery <+: (vector, injection) :: rest := by
      obtain ⟨ds, hds⟩ := h.conduct
      exact ⟨ds, [], hds, nil_prefix⟩
    refine hchain.bind ?_ fun u h => h.imp fun s' => hcut
    intro s1 _ hflown
    refine (injectAtBoundary_spec P req timerSlot fuel vector injectDeferBudget s1).bind ?_
      fun u h => h.imp fun s' hs' => hcut (hflown.trans hs'.1)
    rintro s2 - ⟨s3, hdefer⟩
    cases hnote : noteDelivery req timerSlot injection vector s2 with
    | error u =>
      unfold noteDelivery at hnote
      split_ifs at hnote
      split at hnote
      · cases hnote
      · cases hnote
        exact stopped_error _
    | ok s4 =>
      obtain ⟨ds, hds⟩ := (hflown.trans hdefer.flown).conduct
      have hvector := hds.trans (.of_does (.vector hdefer.window hdefer.queued hnote))
      refine (ih false s4).mono ?_ ?_
      · rintro s' ⟨ds', done, h, hdone⟩
        exact ⟨_, _, hvector.trans h, by simp [Deed.vector?, delivery, hdone]⟩
      · refine fun u h => h.imp ?_
        rintro s' ⟨ds', done, h, hdone⟩
        refine ⟨_, _, hvector.trans h, ?_⟩
        simpa [Deed.vector?, delivery] using hdone

lemma deliver_prompt {vectors : List (ℕ × Option ℕ)} (hprompt : Prompt P vectors s) :
    (deliver P req fuel timerSlot true vectors s).Post
      (fun s' => s'.rail.icount = s.rail.icount) (Stopped P req fun _ => False) := by
  rcases hprompt with rfl | ⟨hlength, hopen⟩
  · exact rfl
  · obtain ⟨⟨vector, injection⟩, rfl⟩ := length_eq_one_iff.mp hlength
    refine (injectAtBoundary_spec P req timerSlot fuel vector injectDeferBudget s).bind ?_ ?_
    · rintro s2 - ⟨s1, hdefer⟩
      obtain rfl := hdefer.prompt hopen
      cases hnote : noteDelivery req timerSlot injection vector s2 with
      | error u =>
        unfold noteDelivery at hnote
        split_ifs at hnote
        split at hnote
        · cases hnote
        · cases hnote
          exact stopped_error _
      | ok s3 =>
        change s3.rail.icount = s1.rail.icount
        rw [noteDelivery_rail hnote, queueVector_eq_ok hdefer.queued]
    · refine fun u h => h.imp fun s' hs' => ?_
      rw [hopen] at hs'
      cases hs'.2

variable (P) (req) (fuel) (injections)

lemma applyInputs_spec (timerSlot : Option ℕ) (at_ : Boundary) (indices : List ℕ) (s : Seg H σ τ) :
    (applyInputs P req at_ indices s).Post
      (fun w => (∃ ds, Conduct P req timerSlot s w.1 ds
        (indices.map fun index => (index, at_.icount, s.rail.icount)) [] []) ∧
          w.1.rail.icount = s.rail.icount) (Stopped P req fun _ => False) := by
  induction indices generalizing s with
  | nil => exact ⟨⟨[], .refl s⟩, rfl⟩
  | cons index rest ih =>
    unfold applyInputs
    cases hinput : req.inputs[index]? with
    | none => exact stopped_error _
    | some input =>
      cases happly : s.rail.applyInput P input.kind at_.icount at_.rip with
      | error e =>
        simp only [Flight.lift, happly, error_bind]
        exact stopped_error _
      | ok w =>
        obtain ⟨r, vector⟩ := w
        simp only [Flight.lift, happly, ok_bind]
        have hdoes : Does P req timerSlot (.input index at_.icount s.rail.icount) s
            { s with rail := r, consumed := s.consumed ++ [input] } := .input hinput happly
        refine (ih { s with rail := r, consumed := s.consumed ++ [input] }).andThen ?_
        rintro ⟨s', vectors⟩ - ⟨⟨ds, h⟩, hicount'⟩
        have hicount : r.icount = s.rail.icount := (Rail.applyInput_spec happly).1
        refine ⟨⟨[.input index at_.icount s.rail.icount] ++ ds, ?_⟩, hicount'.trans hicount⟩
        simpa [Deed.input?, Deed.vector?, Deed.link?, hicount] using
          (Conduct.of_does hdoes).trans h

def dueVectors (queued : List ℕ) (p : StopPoint) : List (ℕ × Option ℕ) :=
  queued.map (·, none) ++
    p.injections.filterMap fun index => (injections[index]?).map (·.vector, some index)

/-- The run is poised at a point: landed, its inputs applied, `queued` and its injections still
to be delivered. -/
def Poised (p : StopPoint) (s s' : Seg H σ τ) (queued : List ℕ) : Prop :=
  ∃ s1, landAt P req fuel p.icount s = .ok s1 ∧
    applyInputs P req (s1.rail.boundary P) p.inputs s1 = .ok (s', queued)

def hashedAt (p : StopPoint) : Bool :=
  p.epochHash && (p.finalStop.isNone || req.options.hashFinalEpoch)

structure Handled (timerSlot : Option ℕ) (p : StopPoint) (s s' : Seg H σ τ) (vns : ℕ) : Prop where
  poised : ∃ s1 queued s2, Poised P req fuel p s s1 queued ∧
    deliver P req fuel timerSlot true (dueVectors injections queued p) s1 = .ok s2 ∧
    (if hashedAt req p then sinkEpoch P req p.icount (s2.pushLink P p.icount vns)
      else .ok s2) = .ok s'
  vns_eq : P.config.clock.vnsFromIcount p.icount = some vns

variable {P} {req} {fuel} {injections}

inductive After (P : Platform H σ X) (req : RunRequest H σ τ) (timerSlot : Option ℕ)
    (p : StopPoint) (boundary : Boundary) (vns : ℕ) (s : Seg H σ τ) :
    Seg H σ τ ⊕ SegmentOutcome H × Seg H σ τ → Prop
  | onward (hfinal : p.finalStop = none) (hpause : req.pause p.icount = false) :
      After P req timerSlot p boundary vns s (.inl s)
  | finish {reason : StopReason} (hreason : reason ≠ .paused)
      (hstop : p.goalPoll = true ∨ p.finalStop.isSome = true) :
      After P req timerSlot p boundary vns s
        (.inr (finish P req.options.hashFinalStop reason boundary vns (hashedAt req p) s))
  | paused (hfinal : p.finalStop = none) (hpause : req.pause p.icount = true)
      (hepoch : p.epochHash = true) :
      After P req timerSlot p boundary vns s (.inr (s.outcome .paused boundary vns, s))
  | rolled {s1 s2 : Seg H σ τ} {vns' : ℕ} (hfinal : p.finalStop = none)
      (hpause : req.pause p.icount = true) (hepoch : p.epochHash = false)
      (hflown : Flown P req timerSlot false s s1)
      (hicount : s1.rail.icount = pauseTarget P p.icount)
      (hvns : P.config.clock.vnsFromIcount s1.rail.icount = some vns')
      (hsink : s2 = s1.pushLink P s1.rail.icount vns' ∨
        sinkEpoch P req s1.rail.icount (s1.pushLink P s1.rail.icount vns') = .ok s2) :
      After P req timerSlot p boundary vns s
        (.inr (s2.outcome .paused (s1.rail.boundary P) vns', s2))

/-- How the flight of a point can be unwound: before the point, in a deferred
delivery, or in the roll-forward of a pause. -/
inductive Cut (P : Platform H σ X) (req : RunRequest H σ τ) (fuel : ℕ)
    (injections : List ScheduledInjection) (timerSlot : Option ℕ) (p : StopPoint)
    (s s' : Seg H σ τ) : Prop
  | flight (h : Flown P req timerSlot true s s') (hlt : s'.rail.icount < p.icount)
  | deferral {s1 : Seg H σ τ} {queued : List ℕ} {ds : List Deed}
      {done : List (ℕ × Option ℕ × ℕ)} (hpoised : Poised P req fuel p s s1 queued)
      (h : Conduct P req timerSlot s1 s' ds [] done [])
      (hdone : done.map delivery <+: dueVectors injections queued p)
      (hslow : ¬Prompt P (dueVectors injections queued p) s1)
  | roll {s1 : Seg H σ τ} {vns : ℕ} (hhandled : Handled P req fuel injections timerSlot p s s1 vns)
      (hfinal : p.finalStop = none) (hpause : req.pause p.icount = true)
      (hepoch : p.epochHash = false) (h : Flown P req timerSlot true s1 s')
      (hlt : s'.rail.icount < pauseTarget P p.icount)

lemma sinkEpoch_stopped : (sinkEpoch P req icount s).Post (fun _ => True) (Stopped P req Q) := by
  unfold sinkEpoch
  cases hsink : req.epochSink (icount / max P.config.epochLen 1) icount s.chain
      (s.rail.log, s.caller) with
  | ok w => exact trivial
  | error e => exact stopped_error _

lemma clockAt_spec : (clockAt P icount : Flight H σ τ ℕ).Post
      (fun vns => P.config.clock.vnsFromIcount icount = some vns) (Stopped P req Q) := by
  unfold clockAt
  cases hvns : P.config.clock.vnsFromIcount icount with
  | some vns => exact rfl
  | none => exact stopped_error _

lemma pauseAt_spec (timerSlot : Option ℕ) (fuel : ℕ) (boundary : Boundary) (vns : ℕ)
    (s : Seg H σ τ) (hfinal : p.finalStop = none) (hpause : req.pause p.icount = true) :
    (pauseAt P req fuel p boundary vns s).Post
      (fun out => After P req timerSlot p boundary vns s (.inr out))
      (Stopped P req fun s' => p.epochHash = false ∧ Flown P req timerSlot true s s' ∧
        s'.rail.icount < pauseTarget P p.icount) := by
  unfold pauseAt
  split_ifs with hepoch hgrid
  · exact .paused hfinal hpause hepoch
  · have hepoch : p.epochHash = false := by simpa using hepoch
    refine (landAt_spec P req timerSlot fuel _ s).bind ?_
      fun u h => h.imp fun s' hs' => ⟨hepoch, hs'⟩
    rintro s1 - ⟨hflown, hicount⟩
    refine clockAt_spec.andThen ?_
    intro vns' _ hvns
    refine sinkEpoch_stopped.andThen ?_
    intro s2 hsink _
    exact .rolled hfinal hpause hepoch hflown hicount hvns (.inr hsink)
  · have hepoch : p.epochHash = false := by simpa using hepoch
    refine (landAt_spec P req timerSlot fuel _ s).bind ?_
      fun u h => h.imp fun s' hs' => ⟨hepoch, hs'⟩
    rintro s1 - ⟨hflown, hicount⟩
    refine clockAt_spec.andThen ?_
    intro vns' _ hvns
    exact .rolled hfinal hpause hepoch hflown hicount hvns (.inl rfl)

lemma afterPoint_spec (P : Platform H σ X) (req : RunRequest H σ τ) (timerSlot : Option ℕ)
    (fuel : ℕ) (p : StopPoint) (boundary : Boundary) (vns : ℕ) (s : Seg H σ τ) :
    (afterPoint P req fuel p boundary vns (hashedAt req p) s).Post
      (After P req timerSlot p boundary vns s)
      (Stopped P req fun s' => p.finalStop = none ∧ req.pause p.icount = true ∧
        p.epochHash = false ∧
        Flown P req timerSlot true s s' ∧ s'.rail.icount < pauseTarget P p.icount) := by
  unfold afterPoint
  by_cases hgoal : (p.goalPoll && req.goal s.rail.machine) = true
  · rw [if_pos hgoal]
    exact .finish (by decide) (.inl (Bool.and_eq_true_iff.mp hgoal).1)
  · rw [if_neg hgoal]
    cases hfinal : p.finalStop with
    | some kind => cases kind <;> exact .finish (by decide) (.inr (by rw [hfinal]; rfl))
    | none =>
      by_cases hpause : req.pause p.icount = true
      · rw [if_pos hpause]
        have hspec := pauseAt_spec (P := P) timerSlot fuel boundary vns s hfinal hpause
        cases hres : pauseAt P req fuel p boundary vns s with
        | ok out => exact hspec.of_ok hres
        | error u => exact (hspec.of_error hres).imp fun s' hs' => ⟨rfl, hpause, hs'⟩
      · rw [if_neg hpause]
        exact .onward hfinal (by simpa using hpause)

/-- A point whose vectors are delivered is handled, unless the run fails; after
that only the roll-forward of a pause can be unwound. -/
lemma atPoint_delivered {s2 : Seg H σ τ} (hpoised : Poised P req fuel p s s1 queued)
    (hdeliver : deliver P req fuel timerSlot true (dueVectors injections queued p) s1 = .ok s2) :
    (atPoint P req fuel injections timerSlot p s).Post
      (fun res => ∃ s' vns boundary, Handled P req fuel injections timerSlot p s s' vns ∧
        boundary.icount = p.icount ∧ After P req timerSlot p boundary vns s' res)
      (Stopped P req fun s' => ∃ s3 vns, Handled P req fuel injections timerSlot p s s3 vns ∧
        p.finalStop = none ∧ req.pause p.icount = true ∧ p.epochHash = false ∧
        Flown P req timerSlot true s3 s' ∧ s'.rail.icount < pauseTarget P p.icount) := by
  obtain ⟨s0, hland, happly⟩ := hpoised
  obtain ⟨-, hicount⟩ := (landAt_spec P req timerSlot fuel p.icount s).of_ok hland
  simp only [atPoint, hland, happly, ok_bind]
  change (deliver P req fuel timerSlot true (dueVectors injections queued p) s1 >>= _).Post _ _
  rw [hdeliver, ok_bind]
  refine clockAt_spec.andThen ?_
  intro vns _ hvns
  have hlink : (if hashedAt req p then sinkEpoch P req p.icount (s2.pushLink P p.icount vns)
      else .ok s2).Post (fun _ => True) (Stopped P req fun s' => ∃ s3 vns,
        Handled P req fuel injections timerSlot p s s3 vns ∧ p.finalStop = none ∧
        req.pause p.icount = true ∧ p.epochHash = false ∧
        Flown P req timerSlot true s3 s' ∧ s'.rail.icount < pauseTarget P p.icount) := by
    split_ifs
    · exact sinkEpoch_stopped
    · exact trivial
  refine hlink.andThen ?_
  intro s3 hlinked _
  have hhandled : Handled P req fuel injections timerSlot p s s3 vns :=
    ⟨⟨s1, queued, s2, ⟨s0, hland, happly⟩, hdeliver, hlinked⟩, hvns⟩
  refine (afterPoint_spec P req timerSlot fuel p _ vns s3).mono ?_ fun u h => h.imp ?_
  · exact fun res hafter => ⟨s3, vns, _, hhandled, hicount, hafter⟩
  · exact fun s' h => ⟨s3, vns, hhandled, h⟩

lemma atPoint_of_landAt_error (injections : List ScheduledInjection) (timerSlot : Option ℕ)
    (h : landAt P req fuel p.icount s = .error u) :
    atPoint P req fuel injections timerSlot p s = .error u := by
  simp only [atPoint, h, error_bind]

lemma atPoint_of_deliver_error (hpoised : Poised P req fuel p s s1 queued)
    (h : deliver P req fuel timerSlot true (dueVectors injections queued p) s1 = .error u) :
    atPoint P req fuel injections timerSlot p s = .error u := by
  obtain ⟨s0, hland, happly⟩ := hpoised
  simp only [atPoint, hland, happly, ok_bind]
  change (deliver P req fuel timerSlot true (dueVectors injections queued p) s1 >>= _) = _
  rw [h, error_bind]

variable (P) (req) (fuel) (injections)

lemma atPoint_stages (timerSlot : Option ℕ) (p : StopPoint) (s : Seg H σ τ) :
    (∃ u, landAt P req fuel p.icount s = .error u ∧
        atPoint P req fuel injections timerSlot p s = .error u) ∨
      (∃ e, atPoint P req fuel injections timerSlot p s = .error (.error e)) ∨
      ∃ s1 queued, Poised P req fuel p s s1 queued ∧
        ((∃ u, deliver P req fuel timerSlot true (dueVectors injections queued p) s1 = .error u ∧
            atPoint P req fuel injections timerSlot p s = .error u) ∨
          ∃ s2, deliver P req fuel timerSlot true (dueVectors injections queued p) s1 =
            .ok s2) := by
  cases hland : landAt P req fuel p.icount s with
  | error u => exact .inl ⟨u, rfl, atPoint_of_landAt_error injections timerSlot hland⟩
  | ok s0 =>
    refine .inr ?_
    cases happly : applyInputs P req (s0.rail.boundary P) p.inputs s0 with
    | error u =>
      have hpoint : atPoint P req fuel injections timerSlot p s = .error u := by
        simp only [atPoint, hland, happly, ok_bind, error_bind]
      have hspec := (applyInputs_spec P req timerSlot _ p.inputs s0).of_error happly
      cases u with
      | error e => exact .inl ⟨e, hpoint⟩
      | halted s1 | frameSinkStop s1 | eventStop s1 => exact (hspec s1 rfl).1.elim
    | ok w =>
      obtain ⟨s1, queued⟩ := w
      have hpoised : Poised P req fuel p s s1 queued := ⟨s0, hland, happly⟩
      refine .inr ⟨s1, queued, hpoised, ?_⟩
      cases hdeliver :
          deliver P req fuel timerSlot true (dueVectors injections queued p) s1 with
      | error u => exact .inl ⟨u, rfl, atPoint_of_deliver_error hpoised hdeliver⟩
      | ok s2 => exact .inr ⟨s2, rfl⟩

lemma atPoint_spec (timerSlot : Option ℕ) (p : StopPoint) (s : Seg H σ τ) :
    (atPoint P req fuel injections timerSlot p s).Post
      (fun res => ∃ s' vns boundary, Handled P req fuel injections timerSlot p s s' vns ∧
        boundary.icount = p.icount ∧ After P req timerSlot p boundary vns s' res)
      (Stopped P req (Cut P req fuel injections timerSlot p s)) := by
  rcases atPoint_stages P req fuel injections timerSlot p s with ⟨u, hland, hpoint⟩ |
    ⟨e, hpoint⟩ | ⟨s1, queued, hpoised, ⟨u, hdeliver, hpoint⟩ | ⟨s2, hdeliver⟩⟩
  · rw [hpoint]
    exact ((landAt_spec P req timerSlot fuel p.icount s).of_error hland).imp
      fun s' hs' => .flight hs'.1 hs'.2
  · rw [hpoint]
    exact stopped_error e
  · rw [hpoint]
    intro s' hu
    obtain ⟨⟨ds, done, h, hdone⟩, hexit⟩ :=
      (deliver_spec P req timerSlot fuel true _ s1).of_error hdeliver s' hu
    refine ⟨.deferral hpoised h hdone fun hprompt => ?_, hexit⟩
    exact ((deliver_prompt hprompt).of_error hdeliver s' hu).1
  · refine (atPoint_delivered hpoised hdeliver).mono (fun _ h => h) fun u h => h.imp ?_
    rintro s' ⟨s3, vns, hhandled, hfinal, hpause, hepoch, hflown, hlt⟩
    exact .roll hhandled hfinal hpause hepoch hflown hlt

variable {P} {req} {fuel} {injections}

lemma Poised.conduct (timerSlot : Option ℕ) (h : Poised P req fuel p s s' queued) :
    (∃ ds, Conduct P req timerSlot s s' ds
      (p.inputs.map fun index => (index, p.icount, p.icount)) [] []) ∧
      s'.rail.icount = p.icount := by
  obtain ⟨s1, hland, happly⟩ := h
  obtain ⟨hflown, hicount⟩ := (landAt_spec P req timerSlot fuel p.icount s).of_ok hland
  obtain ⟨ds, hds⟩ := hflown.conduct
  obtain ⟨⟨ds', hds'⟩, hicount'⟩ :=
    (applyInputs_spec P req timerSlot (s1.rail.boundary P) p.inputs s1).of_ok happly
  have hcount : (s1.rail.boundary P).icount = p.icount := hicount
  rw [hcount, hicount] at hds'
  exact ⟨⟨_, hds.trans hds'⟩, hicount'.trans hicount⟩

structure Handled.Deeds (P : Platform H σ X) (req : RunRequest H σ τ) (fuel : ℕ)
    (injections : List ScheduledInjection) (timerSlot : Option ℕ) (p : StopPoint)
    (s s' : Seg H σ τ) (vns : ℕ) (ds : List Deed) (done : List (ℕ × Option ℕ × ℕ)) : Prop where
  conduct : Conduct P req timerSlot s s' ds
    (p.inputs.map fun index => (index, p.icount, p.icount)) done
    (if hashedAt req p then [(p.icount, vns, s'.rail.icount)] else [])
  poised : ∃ s1 queued, Poised P req fuel p s s1 queued ∧
    done.map delivery = dueVectors injections queued p ∧
    (Prompt P (dueVectors injections queued p) s1 → s'.rail.icount = p.icount)
  icount_le : p.icount ≤ s'.rail.icount

lemma Handled.deeds {vns : ℕ} (h : Handled P req fuel injections timerSlot p s s' vns) :
    ∃ ds done, Handled.Deeds P req fuel injections timerSlot p s s' vns ds done := by
  obtain ⟨⟨s1, queued, s2, hpoised, hdeliver, hlink⟩, -⟩ := h
  obtain ⟨⟨ds, hds⟩, hicount⟩ := hpoised.conduct timerSlot
  obtain ⟨ds', done, hds', hdone⟩ :=
    (deliver_spec P req timerSlot fuel true _ s1).of_ok hdeliver
  have hprompt (hp : Prompt P (dueVectors injections queued p) s1) : s2.rail.icount = p.icount :=
    ((deliver_prompt hp).of_ok hdeliver).trans hicount
  have hle : p.icount ≤ s2.rail.icount := hicount ▸ hds'.icount_le
  cases hhashed : hashedAt req p with
  | false =>
    simp only [hhashed, Bool.false_eq_true, if_false] at hlink
    obtain rfl := Except.ok.inj hlink
    have hconduct : Conduct P req timerSlot s s2 (ds ++ ds')
        (p.inputs.map fun index => (index, p.icount, p.icount)) done [] := by
      simpa using hds.trans hds'
    exact ⟨_, done, ⟨by simpa [hhashed] using hconduct,
      ⟨s1, queued, hpoised, hdone, hprompt⟩, hle⟩⟩
  | true =>
    simp only [hhashed, if_true] at hlink
    have hsame := sinkEpoch_icount hlink
    change s'.rail.icount = s2.rail.icount at hsame
    rw [← hsame] at hprompt hle
    have hlinked := (hds.trans hds').trans
      ((Conduct.of_does (.link p.icount vns)).trans (.of_does (.sink hlink)))
    exact ⟨_, done, ⟨by simpa [hhashed, Deed.input?, Deed.vector?, Deed.link?, hsame] using hlinked,
      ⟨s1, queued, hpoised, hdone, hprompt⟩, hle⟩⟩

variable (P) (req) (fuel)

def timed : Option (List ScheduledInjection × Option ℕ) :=
  match req.timer with
  | none => some (req.injections, none)
  | some timer => (timerToInjection P req.startIcount timer).map fun injection =>
      (req.injections ++ [injection], some req.injections.length)

/-- A call of `run_segment` passes its checks and comes to `w` after `k` points
of its agenda. -/
structure Walks (req : RunRequest H σ τ) (rail : Rail H σ) (chain : H) (caller : τ)
    (injections : List ScheduledInjection) (timerSlot : Option ℕ) (it : AgendaIter) (k : ℕ)
    (w : AgendaIter × Seg H σ τ) : Prop where
  start_eq : rail.icount = req.startIcount
  clock_ne : P.config.clock.vnsFromIcount req.startIcount ≠ none
  feed_ok : (req.awaitsSdkEvent && req.sdkFilter.isNone) = false
  frame_ne : req.frameTarget ≠ some 0
  timed_eq : timed P req = some (injections, timerSlot)
  new_eq : AgendaIter.new (agendaInputs P req injections) = some it
  path : Fuel.Path (walkStep P req fuel injections timerSlot) k
    (it, startSeg req rail chain caller) w

/-- The checks of `run_segment`, up to its agenda. There is none when no frame
is left to wait for. -/
def opening (rail : Rail H σ) :
    Except (RunError H) (Option (List ScheduledInjection × Option ℕ × AgendaIter)) :=
  if rail.icount ≠ req.startIcount then .error (.kvm "start_icount differs from the counter")
  else if P.config.clock.vnsFromIcount req.startIcount = none then .error .clockOverflow
  else if req.awaitsSdkEvent && req.sdkFilter.isNone then .error .missingSdkEventFeed
  else if req.frameTarget = some 0 then .ok none
  else
    match timed P req with
    | none => .error .clockOverflow
    | some (injections, timerSlot) =>
      match AgendaIter.new (agendaInputs P req injections) with
      | none => .error .agenda
      | some it => .ok (some (injections, timerSlot, it))

def runOpened (req : RunRequest H σ τ) (s : Seg H σ τ) :
    Option (List ScheduledInjection × Option ℕ × AgendaIter) →
      Except (RunError H) (SegmentOutcome H × Seg H σ τ)
  | none => finishAtCounter P req.options.hashFinalStop .budgetReached s
  | some (injections, timerSlot, it) =>
    settle P req (walkAgenda P req fuel injections timerSlot it s)

lemma runSegment_eq_opening (req : RunRequest H σ τ) (rail : Rail H σ) (chain : H) (caller : τ) :
    runSegment P fuel req rail chain caller =
      opening P req rail >>= runOpened P fuel req (startSeg req rail chain caller) := by
  unfold runSegment opening timed
  split_ifs
  · rfl
  · rfl
  · rfl
  · rfl
  cases req.timer with
  | none =>
    dsimp only
    cases AgendaIter.new (agendaInputs P req req.injections) <;> rfl
  | some timer =>
    dsimp only
    cases timerToInjection P req.startIcount timer with
    | none => rfl
    | some injection =>
      dsimp only [Option.map_some]
      cases AgendaIter.new (agendaInputs P req (req.injections ++ [injection])) <;> rfl

variable {P} {req} {fuel}

lemma opening_none (h : opening P req rail = .ok none) : rail.icount = req.startIcount := by
  unfold opening at h
  split_ifs at h with hstart
  · exact not_not.mp hstart
  · exact not_not.mp hstart

lemma opening_error {e : RunError H} (h : opening P req rail = .error e) :
    (∃ message, e = .kvm message ∧ rail.icount ≠ req.startIcount) ∨ e = .clockOverflow ∨
      e = .missingSdkEventFeed ∨ e = .agenda := by
  unfold opening at h
  split_ifs at h with hstart
  · exact .inl ⟨_, (Except.error.inj h).symm, hstart⟩
  · exact .inr (.inl (Except.error.inj h).symm)
  · exact .inr (.inr (.inl (Except.error.inj h).symm))
  · split at h
    · exact .inr (.inl (Except.error.inj h).symm)
    · split at h
      · exact .inr (.inr (.inr (Except.error.inj h).symm))
      · cases h

lemma walks_of_opening (h : opening P req rail = .ok (some (injections, timerSlot, it))) :
    Walks P fuel req rail chain caller injections timerSlot it 0
      (it, startSeg req rail chain caller) := by
  unfold opening at h
  split_ifs at h with hstart hclock hfeed hzero
  · cases h
  cases htimed : timed P req with
  | none => simp [htimed] at h
  | some y =>
    obtain ⟨injections', timerSlot'⟩ := y
    simp only [htimed] at h
    cases hnew : AgendaIter.new (agendaInputs P req injections') with
    | none => simp [hnew] at h
    | some it' =>
      simp only [hnew] at h
      cases h
      exact ⟨not_not.mp hstart, hclock, (Bool.not_eq_true _).mp hfeed, hzero, htimed, hnew, .refl _⟩

lemma Walks.opening_eq {k : ℕ} {w : AgendaIter × Seg H σ τ}
    (h : Walks P fuel req rail chain caller injections timerSlot it k w) :
    opening P req rail = .ok (some (injections, timerSlot, it)) := by
  unfold opening
  rw [if_neg (not_not.mpr h.start_eq), if_neg h.clock_ne, if_neg (by simp [h.feed_ok]),
    if_neg h.frame_ne, h.timed_eq]
  dsimp only
  rw [h.new_eq]

section Walk

variable {w w' : AgendaIter × Seg H σ τ}

lemma walkStep_next (h : walkStep P req fuel injections timerSlot w = .next w') :
    ∃ p vns, w.1.next = some (p, w'.1) ∧
      Handled P req fuel injections timerSlot p w.2 w'.2 vns ∧ p.finalStop = none ∧
      req.pause p.icount = false := by
  unfold walkStep at h
  cases hnext : w.1.next with
  | none => simp [hnext] at h
  | some y =>
    obtain ⟨p, it⟩ := y
    simp only [hnext] at h
    cases hpoint : atPoint P req fuel injections timerSlot p w.2 with
    | error u => simp [hpoint] at h
    | ok res =>
      obtain ⟨s', vns, boundary, hhandled, -, hafter⟩ :=
        (atPoint_spec P req fuel injections timerSlot p w.2).of_ok hpoint
      cases hafter with
      | onward hfinal hpause =>
        simp only [hpoint] at h
        cases h
        exact ⟨p, vns, rfl, hhandled, hfinal, hpause⟩
      | finish | paused | rolled => simp [hpoint] at h

lemma walkStep_done {r : Flight H σ τ (SegmentOutcome H × Seg H σ τ)}
    (h : walkStep P req fuel injections timerSlot w = .done r) :
    w.1.next = none ∨ ∃ p it, w.1.next = some (p, it) ∧ r.Post
      (fun out => ∃ s1 vns boundary, Handled P req fuel injections timerSlot p w.2 s1 vns ∧
        boundary.icount = p.icount ∧ After P req timerSlot p boundary vns s1 (.inr out))
      (Stopped P req (Cut P req fuel injections timerSlot p w.2)) := by
  unfold walkStep at h
  cases hnext : w.1.next with
  | none => exact .inl rfl
  | some y =>
    obtain ⟨p, it⟩ := y
    refine .inr ⟨p, it, rfl, ?_⟩
    simp only [hnext] at h
    have hspec := atPoint_spec P req fuel injections timerSlot p w.2
    cases hpoint : atPoint P req fuel injections timerSlot p w.2 with
    | error u =>
      simp only [hpoint, Fuel.Step.done.injEq] at h
      exact h ▸ hspec.of_error hpoint
    | ok res =>
      obtain ⟨s', vns, boundary, hhandled, hboundary, hafter⟩ := hspec.of_ok hpoint
      cases res with
      | inl s1 => simp [hpoint] at h
      | inr out =>
        simp only [hpoint, Fuel.Step.done.injEq] at h
        exact h ▸ ⟨s', vns, boundary, hhandled, hboundary, hafter⟩

variable (P) (req) (injections)

/-- What the deeds from `s` to `s'` took from the queues of the agenda `it`;
`rest` is left of it. -/
structure Tally (timerSlot : Option ℕ) (it : AgendaIter) (s : Seg H σ τ) (rest : AgendaIter)
    (s' : Seg H σ τ) (ds : List Deed) (inputs : List (ℕ × ℕ × ℕ))
    (vectors : List (ℕ × Option ℕ × ℕ)) (links : List (ℕ × ℕ × ℕ)) : Prop where
  conduct : Conduct P req timerSlot s s' ds inputs vectors links
  inputs_eq : it.inputs = inputs.map (fun d => (d.2.1, d.1)) ++ rest.inputs
  inputs_at : ∀ d ∈ inputs, d.2.2 = d.2.1
  injections_eq : it.injections.map Prod.snd =
    vectors.filterMap (·.2.1) ++ rest.injections.map Prod.snd
  vectors_eq : ∀ d ∈ vectors, ∀ index, d.2.1 = some index →
    (injections[index]?).map (·.vector) = some d.1

structure Progress (timerSlot : Option ℕ) (it : AgendaIter) (s : Seg H σ τ)
    (w : AgendaIter × Seg H σ τ) (cur : ℕ) (ds : List Deed) (inputs : List (ℕ × ℕ × ℕ))
    (vectors : List (ℕ × Option ℕ × ℕ)) (links : List (ℕ × ℕ × ℕ)) : Prop where
  tally : Tally P req injections timerSlot it s w.1 w.2 ds inputs vectors links
  window : w.1.Window cur
  final_eq : w.1.finalIcount = it.finalIcount
  cur_le : cur ≤ w.2.rail.icount

variable {P} {req} {injections}

lemma dueVectors_injections (queued : List ℕ)
    (hvalid : ∀ index ∈ p.injections, index < injections.length) :
    (dueVectors injections queued p).filterMap Prod.snd = p.injections := by
  unfold dueVectors
  rw [filterMap_append, filterMap_map, filterMap_filterMap]
  have hnone : (queued.filterMap (Prod.snd ∘ fun x => (x, (none : Option ℕ)))) = [] := by
    simp
  rw [hnone, nil_append]
  refine (filterMap_congr fun index hindex => ?_).trans filterMap_some
  simp [getElem?_eq_getElem (hvalid index hindex)]

lemma vector_of_mem_dueVectors {vector index : ℕ}
    (h : (vector, some index) ∈ dueVectors injections queued p) :
    (injections[index]?).map (·.vector) = some vector := by
  rcases mem_append.mp h with h | h
  · obtain ⟨v, -, hv⟩ := mem_map.mp h
    cases hv
  · obtain ⟨i, -, hi⟩ := mem_filterMap.mp h
    obtain ⟨injection, hinjection, hpair⟩ := Option.map_eq_some_iff.mp hi
    cases hpair
    rw [hinjection]
    rfl

lemma agenda_window (hnew : AgendaIter.new (agendaInputs P req injections) = some it) :
    it.Window req.startIcount ∧
      it.inputs = AgendaIter.queue req.startIcount it.finalIcount req.scheduledInputs ∧
      it.injections = AgendaIter.queue req.startIcount it.finalIcount (injections.map (·.icount)) :=
  AgendaIter.window_of_new hnew (fun _ => epochGrid_pos) fun _ => RunRequest.goalPollPeriod_pos

lemma injections_valid (hnew : AgendaIter.new (agendaInputs P req injections) = some it) :
    ∀ q ∈ it.injections, q.2 < injections.length := by
  intro q hq
  obtain ⟨-, -, hinjections⟩ := agenda_window hnew
  rw [hinjections] at hq
  have hget := (AgendaIter.mem_queue_iff.mp hq).1
  simpa using (List.getElem?_eq_some_iff.mp hget).1

variable {cur : ℕ} {ds ds' : List Deed} {inputs : List (ℕ × ℕ × ℕ)}
  {vectors done : List (ℕ × Option ℕ × ℕ)} {links : List (ℕ × ℕ × ℕ)} {k vns : ℕ}

lemma Tally.point {rest rest' : AgendaIter}
    (h : Tally P req injections timerSlot it s rest s1 ds inputs vectors links)
    (hvalid : ∀ q ∈ it.injections, q.2 < injections.length)
    (hyields : AgendaIter.Yields cur rest p rest')
    (hdeeds : Handled.Deeds P req fuel injections timerSlot p s1 s' vns ds' done) :
    Tally P req injections timerSlot it s rest' s' (ds ++ ds')
      (inputs ++ p.inputs.map fun index => (index, p.icount, p.icount)) (vectors ++ done)
      (links ++ if hashedAt req p then [(p.icount, vns, s'.rail.icount)] else []) := by
  obtain ⟨s2, queued, -, hdone, -⟩ := hdeeds.poised
  refine ⟨h.conduct.trans hdeeds.conduct, ?_, ?_, ?_, ?_⟩
  · rw [h.inputs_eq, hyields.inputs_eq, map_append, append_assoc, map_map]
    rfl
  · intro d hd
    rcases mem_append.mp hd with hd | hd
    · exact h.inputs_at d hd
    · obtain ⟨index, -, rfl⟩ := mem_map.mp hd
      rfl
  · have hpoint : rest.injections.map Prod.snd = p.injections ++ rest'.injections.map Prod.snd := by
      rw [hyields.injections_eq, map_append, map_map]
      exact congrArg (· ++ _) (map_id p.injections)
    have hindex : ∀ index ∈ p.injections, index < injections.length := by
      intro index hindex
      have hmem : index ∈ it.injections.map Prod.snd := by
        rw [h.injections_eq, hpoint]
        exact mem_append_right _ (mem_append_left _ hindex)
      obtain ⟨q, hq, rfl⟩ := mem_map.mp hmem
      exact hvalid q hq
    have hdelivered : done.filterMap (·.2.1) = p.injections := by
      rw [← dueVectors_injections queued hindex, ← hdone, filterMap_map]
      rfl
    rw [h.injections_eq, hpoint, filterMap_append, hdelivered, append_assoc]
  · intro d hd index hindex
    rcases mem_append.mp hd with hd | hd
    · exact h.vectors_eq d hd index hindex
    · have hmem : (d.1, some index) ∈ dueVectors injections queued p := by
        rw [← hdone, ← hindex]
        exact mem_map_of_mem hd
      exact vector_of_mem_dueVectors hmem

lemma Progress.step {it' : AgendaIter}
    (h : Progress P req injections timerSlot it s w cur ds inputs vectors links)
    (hvalid : ∀ q ∈ it.injections, q.2 < injections.length) (hnext : w.1.next = some (p, it'))
    (hfinal : p.finalStop = none)
    (hdeeds : Handled.Deeds P req fuel injections timerSlot p w.2 s' vns ds' done) :
    Progress P req injections timerSlot it s (it', s') p.icount (ds ++ ds')
      (inputs ++ p.inputs.map fun index => (index, p.icount, p.icount)) (vectors ++ done)
      (links ++ if hashedAt req p then [(p.icount, vns, s'.rail.icount)] else []) := by
  have hyields := h.window.yields_of_next hnext
  exact ⟨h.tally.point hvalid hyields hdeeds, (h.window.rest_of_next hnext hfinal).2,
    hyields.rest_final.trans h.final_eq, hdeeds.icount_le⟩

lemma Progress.start (hnew : AgendaIter.new (agendaInputs P req injections) = some it)
    (hicount : s.rail.icount = req.startIcount) :
    Progress P req injections timerSlot it s (it, s) req.startIcount [] [] [] [] := by
  obtain ⟨hwindow, -, -⟩ := agenda_window hnew
  exact ⟨⟨.refl s, rfl, by simp, rfl, by simp⟩, hwindow, rfl, hicount.ge⟩

lemma Walks.induct {I : ℕ → AgendaIter × Seg H σ τ → ℕ → List Deed → List (ℕ × ℕ × ℕ) →
      List (ℕ × Option ℕ × ℕ) → List (ℕ × ℕ × ℕ) → Prop}
    (h : Walks P fuel req rail chain caller injections timerSlot it k w)
    (hstart : I 0 (it, startSeg req rail chain caller) req.startIcount [] [] [] [])
    (hstep : ∀ {k w cur ds inputs vectors links p it' s' vns ds' done},
      Walks P fuel req rail chain caller injections timerSlot it k w →
      Progress P req injections timerSlot it (startSeg req rail chain caller) w cur ds inputs
        vectors links →
      I k w cur ds inputs vectors links → w.1.next = some (p, it') → p.finalStop = none →
      req.pause p.icount = false → P.config.clock.vnsFromIcount p.icount = some vns →
      Handled.Deeds P req fuel injections timerSlot p w.2 s' vns ds' done →
      walkStep P req fuel injections timerSlot w = .next (it', s') →
      I (k + 1) (it', s') p.icount (ds ++ ds')
        (inputs ++ p.inputs.map fun index => (index, p.icount, p.icount)) (vectors ++ done)
        (links ++ if hashedAt req p then [(p.icount, vns, s'.rail.icount)] else [])) :
    ∃ cur ds inputs vectors links,
      Progress P req injections timerSlot it (startSeg req rail chain caller) w cur ds inputs
        vectors links ∧ I k w cur ds inputs vectors links := by
  obtain ⟨hicount, hclock, hfeed, hframe, htimed, hnew, hpath⟩ := h
  have hvalid := injections_valid hnew
  generalize hfirst : (it, startSeg req rail chain caller) = first at hpath
  induction hpath with
  | refl a =>
    subst hfirst
    exact ⟨_, _, _, _, _, .start hnew hicount, hstart⟩
  | @tail k a b c hpath hturn ih =>
    subst hfirst
    obtain ⟨cur, ds, inputs, vectors, links, hprogress, hI⟩ := ih rfl
    obtain ⟨p, vns, hnext, hhandled, hfinal, hpause⟩ := walkStep_next hturn
    obtain ⟨ds', done, hdeeds⟩ := hhandled.deeds
    refine ⟨_, _, _, _, _, hprogress.step hvalid hnext hfinal hdeeds, ?_⟩
    exact hstep ⟨hicount, hclock, hfeed, hframe, htimed, hnew, hpath⟩ hprogress hI hnext
      hfinal hpause hhandled.vns_eq hdeeds hturn

lemma Walks.progress (h : Walks P fuel req rail chain caller injections timerSlot it k w) :
    ∃ cur ds inputs vectors links,
      Progress P req injections timerSlot it (startSeg req rail chain caller) w cur ds inputs
        vectors links := by
  obtain ⟨cur, ds, inputs, vectors, links, hprogress, -⟩ :=
    h.induct (I := fun _ _ _ _ _ _ _ => True) trivial fun _ _ _ _ _ _ _ _ _ => trivial
  exact ⟨cur, ds, inputs, vectors, links, hprogress⟩

end Walk

inductive Ending (P : Platform H σ X) (req : RunRequest H σ τ) (fuel : ℕ)
    (injections : List ScheduledInjection) (timerSlot : Option ℕ) (p : StopPoint)
    (s : Seg H σ τ) (out : SegmentOutcome H) (s' : Seg H σ τ) : Prop
  | stop {s1 : Seg H σ τ} {vns : ℕ} {boundary : Boundary}
      (hhandled : Handled P req fuel injections timerSlot p s s1 vns)
      (hboundary : boundary.icount = p.icount)
      (hafter : After P req timerSlot p boundary vns s1 (.inr (out, s')))
  | cut {s1 : Seg H σ τ} {reason : StopReason}
      (hcut : Cut P req fuel injections timerSlot p s s1)
      (hfinish : finishAtCounter P req.options.hashFinalStop reason s1 = .ok (out, s'))
      (hreason : reason = .paused → ∃ frame, req.frameStop frame = true)

lemma frameStop_of_onEntered {e : Entered H σ}
    (h : onEntered P req s e = .error (.frameSinkStop s')) :
    ∃ frame, req.frameStop frame = true := by
  have hfeed {s1 : Seg H σ τ} (h : checkSdkFeed req s1 = .error (.frameSinkStop s')) : False := by
    unfold checkSdkFeed at h
    split_ifs at h
    cases h
  cases e with
  | stepped | halted | failed => cases h
  | serviced r es => exact (hfeed h).elim
  | frame frame r es =>
    simp only [onEntered] at h
    cases hframe : onFrame P req frame (noteExit req r es s) with
    | ok s1 =>
      rw [hframe, ok_bind] at h
      exact (hfeed h).elim
    | error u =>
      rw [hframe, error_bind] at h
      cases h
      unfold onFrame at hframe
      cases hhold : holdFrame P req frame (noteExit req r es s) with
      | error u =>
        obtain ⟨e, rfl⟩ := holdFrame_error hhold
        rw [hhold] at hframe
        cases hframe
      | ok s1 =>
        rw [hhold, ok_bind] at hframe
        by_cases hstop : req.frameStop frame = true
        · exact ⟨frame, hstop⟩
        · rw [if_neg hstop] at hframe
          split_ifs at hframe
          cases hframe

lemma ending_of_settle {r : Flight H σ τ (SegmentOutcome H × Seg H σ τ)} (hpost : r.Post
      (fun out => ∃ s1 vns boundary, Handled P req fuel injections timerSlot p s s1 vns ∧
        boundary.icount = p.icount ∧ After P req timerSlot p boundary vns s1 (.inr out))
      (Stopped P req (Cut P req fuel injections timerSlot p s)))
    (h : settle P req r = .ok (out, s')) : Ending P req fuel injections timerSlot p s out s' := by
  cases r with
  | ok done =>
    cases h
    obtain ⟨s1, vns, boundary, hhandled, hboundary, hafter⟩ := hpost
    exact .stop hhandled hboundary hafter
  | error u =>
    cases u with
    | error e => cases h
    | halted s1 => exact .cut (hpost s1 rfl).1 h nofun
    | frameSinkStop s1 =>
      obtain ⟨hcut, s0, hexit⟩ := hpost s1 rfl
      exact .cut hcut h fun _ => frameStop_of_onEntered hexit
    | eventStop s1 =>
      refine .cut (hpost s1 rfl).1 h fun hreason => ?_
      unfold RunRequest.eventReason at hreason
      split at hreason <;> cases hreason

lemma runSegment_last (h : runSegment P fuel req rail chain caller = .ok (out, s')) :
    opening P req rail = .ok none ∧ finishAtCounter P req.options.hashFinalStop .budgetReached
          (startSeg req rail chain caller) = .ok (out, s') ∨ ∃ injections timerSlot it k w p it' r,
        Walks P fuel req rail chain caller injections timerSlot it k w ∧
          w.1.next = some (p, it') ∧ walkStep P req fuel injections timerSlot w = .done r ∧
          settle P req r = .ok (out, s') := by
  rw [runSegment_eq_opening] at h
  obtain ⟨opened, hopening, h⟩ := bind_eq_ok.mp h
  match opened with
  | none => exact .inl ⟨hopening, h⟩
  | some (injections, timerSlot, it) =>
    have hstart : Walks P fuel req rail chain caller injections timerSlot it 0
        (it, startSeg req rail chain caller) := walks_of_opening hopening
    refine .inr ?_
    unfold runOpened walkAgenda at h
    cases hrun : Fuel.run (walkStep P req fuel injections timerSlot)
        (it.finalIcount - req.startIcount + 1) (it, startSeg req rail chain caller) with
    | none => simp [hrun, settle] at h
    | some result =>
      simp only [hrun, Option.getD_some] at h
      obtain ⟨k, w, -, hpath, hdone⟩ := Fuel.exists_path_of_run hrun
      rcases walkStep_done hdone with hnone | ⟨p, it', hnext, -⟩
      · simp only [walkStep, hnone] at hdone
        cases hdone
        cases h
      · exact ⟨injections, timerSlot, it, k, w, p, it', result, { hstart with path := hpath },
          hnext, hdone, h⟩

lemma runSegment_ends (h : runSegment P fuel req rail chain caller = .ok (out, s')) :
    rail.icount = req.startIcount ∧ (finishAtCounter P req.options.hashFinalStop .budgetReached
          (startSeg req rail chain caller) = .ok (out, s') ∨ ∃ injections timerSlot it k w p it',
          Walks P fuel req rail chain caller injections timerSlot it k w ∧
          w.1.next = some (p, it') ∧ Ending P req fuel injections timerSlot p w.2 out s') := by
  rcases runSegment_last h with ⟨hopening, hfinish⟩ |
    ⟨injections, timerSlot, it, k, w, p, it', r, hwalks, hnext, hdone, hsettle⟩
  · exact ⟨opening_none hopening, .inl hfinish⟩
  · refine ⟨hwalks.start_eq, .inr ⟨injections, timerSlot, it, k, w, p, it', hwalks, hnext, ?_⟩⟩
    rcases walkStep_done hdone with hnone | ⟨p1, it1, hnext1, hpost⟩
    · cases hnone.symm.trans hnext
    · cases hnext1.symm.trans hnext
      exact ending_of_settle hpost hsettle

end DetHypervisor
