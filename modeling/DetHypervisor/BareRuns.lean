import DetHypervisor.Delivery
import DetHypervisor.Replay

/-!
# Bare runs

The runs of a replay: no inputs, no injections, no timer and no pause. All that
happens in such a run is VM entries and epoch links, so an invariant of these
two is an invariant of the run.
-/

namespace DetHypervisor

variable {H σ X τ : Type} {P : Platform H σ X} {req : RunRequest H σ τ} {fuel : ℕ}
  {s s' : Seg H σ τ}

variable (P) (req) (I : Seg H σ τ → Prop)

structure Bare : Prop where
  inputs_eq : req.inputs = []
  injections_eq : req.injections = []
  timer_eq : req.timer = none
  pause_eq : ∀ n, req.pause n = false

/-- `I` survives every VM entry, also one that unwinds, and every epoch link
pushed at the counter. -/
structure Carries : Prop where
  entry : ∀ {s s'}, I s → segOf? (onEntered P req s (enter P s.rail)) = some s' → I s'
  epoch : ∀ {s s' vns}, I s →
    sinkEpoch P req s.rail.icount (s.pushLink P s.rail.icount vns) = .ok s' → I s'

/-- How a bare run ends: `finish` at the counter, from a state that `I` holds of. -/
structure Closing (out : SegmentOutcome H) (s' s : Seg H σ τ) (boundary : Boundary) (vns : ℕ)
    (hashed : Bool) : Prop where
  carried : I s
  boundary_eq : boundary.icount = s.rail.icount
  vns_eq : P.config.clock.vnsFromIcount s.rail.icount = some vns
  finish_eq : finish P req.options.hashFinalStop out.reason boundary vns hashed s = (out, s')
  linked : hashed = true → ∃ (s0 : Seg H σ τ) (vns0 : ℕ),
    sinkEpoch P req s.rail.icount (s0.pushLink P s.rail.icount vns0) = .ok s

variable {P} {req}

namespace Bare

lemma applyInputs_eq (hbare : Bare req) {at_ : Boundary} {indices queued : List ℕ}
    (h : applyInputs P req at_ indices s = .ok (s', queued)) : s' = s ∧ queued = [] := by
  cases indices with
  | nil =>
    cases h
    exact ⟨rfl, rfl⟩
  | cons index rest =>
    unfold applyInputs at h
    rw [hbare.inputs_eq] at h
    cases h

lemma handled (hbare : Bare req) {timerSlot : Option ℕ} {p : StopPoint} {vns : ℕ}
    (h : Handled P req fuel [] timerSlot p s s' vns) : ∃ s1, landAt P req fuel p.icount s = .ok s1 ∧
      (if hashedAt req p then sinkEpoch P req p.icount (s1.pushLink P p.icount vns)
        else .ok s1) = .ok s' := by
  obtain ⟨s2, queued, s3, ⟨s1, hland, happly⟩, hdeliver, hlink⟩ := h.poised
  obtain ⟨rfl, rfl⟩ := hbare.applyInputs_eq happly
  have hnone : dueVectors [] [] p = [] := by simp [dueVectors]
  rw [hnone] at hdeliver
  obtain rfl : s2 = s3 := Except.ok.inj hdeliver
  exact ⟨s2, hland, hlink⟩

lemma injections_nil (hbare : Bare req) {rail : Rail H σ} {chain : H} {caller : τ}
    {injections : List ScheduledInjection} {timerSlot : Option ℕ} {it : AgendaIter} {k : ℕ}
    {w : AgendaIter × Seg H σ τ}
    (h : Walks P fuel req rail chain caller injections timerSlot it k w) : injections = [] := by
  have htimed := h.timed_eq
  unfold timed at htimed
  rw [hbare.timer_eq, hbare.injections_eq] at htimed
  exact (congrArg Prod.fst (Option.some.inj htimed)).symm

end Bare

namespace Carries

variable {I : Seg H σ τ → Prop} {out : SegmentOutcome H} {timerSlot : Option ℕ}

lemma closing_of_finishAtCounter {reason : StopReason} (hs : I s)
    (h : finishAtCounter P req.options.hashFinalStop reason s = .ok (out, s')) :
    ∃ boundary vns hashed, Closing P req I out s' s boundary vns hashed := by
  unfold finishAtCounter at h
  cases hvns : P.config.clock.vnsFromIcount s.rail.icount with
  | none => simp [hvns] at h
  | some vns =>
    simp only [hvns] at h
    have hfinish := Except.ok.inj h
    obtain rfl : out.reason = reason := congrArg (·.1.reason) hfinish.symm
    exact ⟨s.rail.boundary P, vns, false, hs, rfl, hvns, hfinish, nofun⟩

variable (hcarries : Carries P req I)
include hcarries

lemma landAt_post (target : ℕ) (hs : I s) :
    (landAt P req fuel target s).Post (fun s' => I s' ∧ s'.rail.icount = target)
      (fun u => ∀ s', u.seg? = some s' → I s') := by
  refine landAt_rule (I := I) ?_ (fun s hI hat => ⟨hI, hat⟩) (fun _ _ _ => nofun)
    (fun _ _ => nofun) hs
  intro s hI _
  cases hentered : onEntered P req s (enter P s.rail) with
  | ok s1 => exact hcarries.entry hI (by rw [hentered]; rfl)
  | error u => exact fun s' hu => hcarries.entry hI (by rw [hentered]; exact hu)

lemma flown {left : Bool} (hs : I s)
    (h : Flown P req timerSlot left s s') : I s' := by
  obtain ⟨n, hconduct⟩ := h
  refine hconduct.traced.invariant (fun d hd s1 s2 hdoes hI => ?_) hs
  cases hdoes with
  | entry h => exact hcarries.entry hI (by rw [h]; rfl)
  | leave h hu => exact hcarries.entry hI (by rw [h]; exact hu)
  | input | vector | link | sink => cases left <;> simp at hd

lemma handled (hbare : Bare req) {p : StopPoint} {vns : ℕ}
    (hs : I s) (h : Handled P req fuel [] timerSlot p s s' vns) :
    I s' ∧ s'.rail.icount = p.icount ∧ (hashedAt req p = true → ∃ (s0 : Seg H σ τ) (vns0 : ℕ),
      sinkEpoch P req s'.rail.icount (s0.pushLink P s'.rail.icount vns0) = .ok s') := by
  obtain ⟨s1, hland, hlink⟩ := hbare.handled h
  obtain ⟨hI, hicount⟩ := (hcarries.landAt_post p.icount hs).of_ok hland
  by_cases hhashed : hashedAt req p = true
  · rw [if_pos hhashed, ← hicount] at hlink
    have hsame := sinkEpoch_icount hlink
    change s'.rail.icount = s1.rail.icount at hsame
    refine ⟨hcarries.epoch hI hlink, hsame.trans hicount, fun _ => ⟨s1, vns, ?_⟩⟩
    rw [hsame]
    exact hlink
  · rw [if_neg hhashed] at hlink
    cases hlink
    exact ⟨hI, hicount, fun h => absurd h hhashed⟩

lemma runSegment_closing (hbare : Bare req) {rail : Rail H σ}
    {chain : H} {caller : τ} (hstart : I (startSeg req rail chain caller))
    (h : runSegment P fuel req rail chain caller = .ok (out, s')) :
    ∃ s boundary vns hashed, Closing P req I out s' s boundary vns hashed := by
  obtain ⟨-, hfinish | ⟨injections, timerSlot, it, k, w, p, it', hwalks, hnext, hending⟩⟩ :=
    runSegment_ends h
  · exact ⟨_, closing_of_finishAtCounter hstart hfinish⟩
  obtain rfl := hbare.injections_nil hwalks
  have hI : I w.2 := by
    obtain ⟨-, -, -, -, -, -, hI⟩ := hwalks.induct (I := fun _ w _ _ _ _ _ => I w.2) hstart <| by
      intro k w cur ds inputs vectors links p it' s' vns ds' done _ _ hI _ _ _ _ _ hturn
      obtain ⟨p', vns', -, hhandled, -⟩ := walkStep_next hturn
      exact (hcarries.handled hbare hI hhandled).1
    exact hI
  cases hending with
  | @stop s1 vns boundary hhandled hboundary hafter =>
    obtain ⟨hI1, hicount, hlinked⟩ := hcarries.handled hbare hI hhandled
    generalize hres : (Sum.inr (out, s') : Seg H σ τ ⊕ SegmentOutcome H × Seg H σ τ) = res
      at hafter
    cases hafter with
    | onward => cases hres
    | @finish reason hreason hstop =>
      have hfinish := (Sum.inr.inj hres).symm
      obtain rfl : out.reason = reason := congrArg (·.1.reason) hfinish.symm
      exact ⟨s1, boundary, vns, _, hI1, hboundary.trans hicount.symm,
        hicount ▸ hhandled.vns_eq, hfinish, hlinked⟩
    | paused hfinal hpause | rolled hfinal hpause =>
      rw [hbare.pause_eq] at hpause
      cases hpause
  | @cut s1 reason hcut hfinish _ =>
    cases hcut with
    | flight hflown _ => exact ⟨_, closing_of_finishAtCounter (hcarries.flown hI hflown) hfinish⟩
    | @deferral s2 queued ds done hpoised h hdone hslow =>
      obtain ⟨s3, -, happly⟩ := hpoised
      obtain ⟨rfl, rfl⟩ := hbare.applyInputs_eq happly
      exact absurd (.inl (by simp [dueVectors])) hslow
    | roll hhandled hfinal hpause =>
      rw [hbare.pause_eq] at hpause
      cases hpause

end Carries

namespace Closing

variable {I : Seg H σ τ → Prop} {out : SegmentOutcome H} {boundary : Boundary} {vns : ℕ}
  {hashed : Bool}

variable (h : Closing P req I out s' s boundary vns hashed)
include h

lemma rail_eq : s'.rail = s.rail ∧ out.boundary.icount = s'.rail.icount := by
  obtain ⟨hrail, hboundary⟩ := finish_rail h.finish_eq
  exact ⟨hrail, by rw [hboundary, h.boundary_eq, hrail]⟩

lemma caller_eq : s'.caller = s.caller := by
  obtain ⟨-, rfl⟩ := Prod.mk.inj h.finish_eq
  split_ifs <;> rfl

lemma chain_cases : s'.chain = s.chain ∨
    ∃ vns, s'.chain = P.link s.chain (P.image s.rail.machine) s.rail.icount vns := by
  have hboundary := h.boundary_eq
  obtain ⟨-, rfl⟩ := Prod.mk.inj h.finish_eq
  split_ifs
  · exact .inr ⟨vns, by rw [← hboundary]; rfl⟩
  · exact .inl rfl

lemma eq_of_no_link (hno : req.options.hashFinalStop = false) : s' = s := by
  obtain ⟨-, rfl⟩ := Prod.mk.inj h.finish_eq
  rw [hno]
  rfl

end Closing

def LinkedAt (P : Platform H σ X) (n : ℕ) (chain : H) : Prop :=
  ∃ prev machine vns, chain = P.link prev (P.image machine) n vns

lemma linkedAt_pushLink (P : Platform H σ X) (n vns : ℕ) (s : Seg H σ τ) :
    LinkedAt P n (s.pushLink P n vns).chain := ⟨_, _, _, rfl⟩

lemma sinkEpoch_chain {icount : ℕ} (h : sinkEpoch P req icount s = .ok s') :
    s'.chain = s.chain := by
  obtain ⟨⟨log, caller⟩, -, h⟩ := Except.bind_eq_ok.mp h
  cases h
  rfl

lemma Closing.linkedAt {I : Seg H σ τ → Prop} {out : SegmentOutcome H} {boundary : Boundary}
    {vns : ℕ} {hashed : Bool} (h : Closing P req I out s' s boundary vns hashed)
    (hfinal : req.options.hashFinalStop = true) : LinkedAt P s'.rail.icount s'.chain := by
  have hicount : s'.rail.icount = s.rail.icount := congrArg Rail.icount h.rail_eq.1
  obtain ⟨-, rfl⟩ := Prod.mk.inj h.finish_eq
  rw [hicount]
  cases hashed with
  | false =>
    rw [hfinal, ← h.boundary_eq]
    exact linkedAt_pushLink P _ _ _
  | true =>
    obtain ⟨s0, vns0, hsink⟩ := h.linked rfl
    rw [hfinal]
    exact sinkEpoch_chain hsink ▸ linkedAt_pushLink P _ vns0 s0

end DetHypervisor
