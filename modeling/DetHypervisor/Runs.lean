import DetHypervisor.Landing

/-!
# Runs follow itineraries

From the single agenda point to `run_segment`: a plain request goes over a
chain of legs and then coasts to where it stops.
-/

namespace DetHypervisor

open List Except

variable {H σ X τ : Type} {P : Platform H σ X} {fuel : ℕ} {req : RunRequest H σ τ}
  {s s' : Seg H σ τ}
  {b cur fin t vns : ℕ} {caller : τ} {chain : H} {grid : Option ℕ} {indices : List ℕ}
  {it it' : AgendaIter} {kind : StopKind} {out : SegmentOutcome H} {p : StopPoint}
  {rail : Rail H σ} {rest : List QueuedInput}
  {result : Flight H σ τ (SegmentOutcome H × Seg H σ τ)} {u : Unwind H σ τ}
  {w : AgendaIter × Seg H σ τ}

lemma applyInputs_eq_ok {at_ : Boundary} {vectors : List ℕ}
    (h : applyInputs P req at_ indices s = .ok (s', vectors)) :
    ∃ taken, indices.filterMap (req.inputs[·]?) = taken ∧
      s' = { s with rail := s'.rail, consumed := s.consumed ++ taken } ∧
      (vectors = [] → Applied P at_.icount at_.rip (taken.map (·.kind)) s.rail s'.rail) ∧
      (taken = [] → indices = []) := by
  induction indices generalizing s vectors with
  | nil =>
    obtain ⟨rfl, -⟩ : s = s' ∧ [] = vectors := by simpa [applyInputs] using h
    exact ⟨[], rfl, by simp, fun _ => rfl, fun _ => rfl⟩
  | cons index rest ih =>
    unfold applyInputs at h
    cases hinput : req.inputs[index]? with
    | none => simp [hinput] at h
    | some input =>
      simp only [hinput] at h
      obtain ⟨⟨r, vector⟩, hlift, h⟩ := bind_eq_ok.mp h
      obtain ⟨⟨s2, vectors'⟩, hrest, h⟩ := bind_eq_ok.mp h
      obtain ⟨rfl, rfl⟩ : s2 = s' ∧ vector.toList ++ vectors' = vectors := by simpa using h
      obtain ⟨taken, htaken, hs', happlied, -⟩ := ih hrest
      refine ⟨input :: taken, by simp [hinput, htaken], ?_, ?_, by simp⟩
      · rw [hs']
        simp
      · intro hnone
        obtain ⟨hvector, hvectors⟩ := append_eq_nil_iff.mp hnone
        rw [Option.toList_eq_nil_iff] at hvector
        subst hvector
        exact ⟨r, Flight.lift_eq_ok.mp hlift, happlied hvectors⟩

lemma deliver_inputs_eq_ok (hplain : Plain req) {queued : List ℕ}
    (h : deliver P req fuel none true (queued.map (·, none)) s = .ok s') :
    queued = [] ∧ s' = s := by
  cases queued with
  | nil =>
    obtain rfl : s = s' := by simpa [deliver] using h
    exact ⟨rfl, rfl⟩
  | cons vector rest =>
    obtain ⟨s1, -, h⟩ := bind_eq_ok.mp h
    obtain ⟨s2, -, h⟩ := bind_eq_ok.mp h
    obtain ⟨s3, hnote, -⟩ := bind_eq_ok.mp h
    simp [noteDelivery, hplain.timer_eq] at hnote

lemma linked_of_sinkEpoch (hplain : Plain req) (hvns : P.config.clock.vnsFromIcount t = some vns)
    (h : sinkEpoch P req t (s.pushLink P t vns) = .ok s') :
    Linked P t ⟨s.rail, s.chain⟩ ⟨s'.rail, s'.chain⟩ ∧ s'.consumed = s.consumed ∧
      s'.pendingFrames = s.pendingFrames := by
  obtain ⟨⟨log, caller⟩, hsink, h⟩ := bind_eq_ok.mp h
  cases h
  have hrecord := hplain.sink (Flight.lift_eq_ok.mp hsink)
  exact ⟨⟨⟨vns, hvns, rfl⟩, ⟨log, hrecord, rfl⟩⟩, rfl, rfl⟩

/-- A point ahead of the position `cur` with no grid point in between. -/
structure Ahead (grid : Option ℕ) (cur : ℕ) (p : StopPoint) : Prop where
  cur_le : cur ≤ p.icount
  injections_eq : p.injections = []
  goalPoll_eq : p.goalPoll = false
  no_grid : ∀ i, cur < i → i < p.icount → ¬OnGrid grid i
  epochHash : p.epochHash = true → OnGrid grid p.icount ∧ cur < p.icount
  inputs : p.inputs ≠ [] → cur < p.icount ∧ (p.epochHash = false → ¬OnGrid grid p.icount)

lemma AgendaIter.NextSpec.ahead (h : NextSpec grid cur it p it') : Ahead grid cur p := by
  refine ⟨h.cur_lt.le, h.injections_eq, h.goalPoll_eq, h.no_grid, ?_, ?_⟩
  · intro hepoch
    exact ⟨h.epochHash_iff.mp hepoch, h.cur_lt⟩
  · intro _
    refine ⟨h.cur_lt, fun hepoch hon => ?_⟩
    rw [h.epochHash_iff.mpr hon] at hepoch
    cases hepoch

/-- The state of a run at a point, before what follows the hash: over legs to
the station `m`, and from there coasting to the point. -/
structure Reached (P : Platform H σ X) (grid : Option ℕ) (fuel fin : ℕ) (req : RunRequest H σ τ)
    (p : StopPoint) (s s1 : Seg H σ τ) (m : Station H σ) (hashed : Bool)
    (kinds : List InputKind) : Prop where
  journey : Journey P grid fuel fin kinds ⟨s.rail, s.chain⟩ m
  coast : ∃ n < fuel, Coast P p.icount n m.rail s1.rail
  landed : s1.rail.icount = p.icount
  chain_eq : s1.chain = m.chain
  closed : hashed = true ∨ p.inputs ≠ [] → m = ⟨s1.rail, s1.chain⟩
  epoch_eq : hashed = true → lastEpoch s1.rail.log.records = some p.icount
  took : Took req (p.inputs.filterMap (req.inputs[·]?) ++ pendingInputs req s)
    (pendingInputs req s1) s s1 kinds

lemma clockAt_eq_ok :
    (clockAt P t : Flight H σ τ ℕ) = .ok vns ↔ P.config.clock.vnsFromIcount t = some vns := by
  unfold clockAt
  cases P.config.clock.vnsFromIcount t <;> simp

lemma took_inputs {taken : List QueuedInput} (htaken : indices.filterMap (req.inputs[·]?) = taken)
    (hconsumed : s'.consumed = s.consumed ++ taken) (hframes : s'.pendingFrames = s.pendingFrames) :
    Took req (indices.filterMap (req.inputs[·]?) ++ rest) rest s s'
      (taken.map (·.kind)) :=
  ⟨taken, [], hconsumed, by simp, by simp, by rw [htaken], fun _ hp => hframes ▸ hp⟩

/-- A point that succeeds was landed on, its inputs went in and its link, if
it has one, was pushed and logged. -/
lemma atPoint_eq_ok {res : Seg H σ τ ⊕ SegmentOutcome H × Seg H σ τ} (hplain : Plain req)
    (hahead : Ahead grid s.rail.icount p) (hle : p.icount ≤ fin)
    (hinputs : req.options.hashFinalEpoch = true ∨ p.inputs = [])
    (h : atPoint P req fuel [] none p s = .ok res) :
    ∃ m s1 boundary vns hashed kinds, Reached P grid fuel fin req p s s1 m hashed kinds ∧
      P.config.clock.vnsFromIcount p.icount = some vns ∧ boundary.icount = p.icount ∧
      hashed = (p.epochHash && (p.finalStop.isNone || req.options.hashFinalEpoch)) ∧
      afterPoint P req fuel p boundary vns hashed s1 = .ok res := by
  obtain ⟨s2, hland, h1⟩ := bind_eq_ok.mp h
  have htouch := landAt_touchdown P fuel hplain hle hahead.no_grid
  rw [hland] at htouch
  cases htouch with
  | @landed _ b n kinds hn hway hicount =>
  obtain ⟨⟨s3, queued⟩, happly, h2⟩ := bind_eq_ok.mp h1
  obtain ⟨taken, htaken, hs3, happlied, hempty⟩ := applyInputs_eq_ok happly
  simp only [hahead.injections_eq, filterMap_nil, append_nil] at h2
  obtain ⟨s4, hdeliver, h3⟩ := bind_eq_ok.mp h2
  obtain ⟨rfl, rfl⟩ := deliver_inputs_eq_ok hplain hdeliver
  obtain ⟨vns, hclock, h4⟩ := bind_eq_ok.mp h3
  obtain ⟨s5, hlink, h⟩ := bind_eq_ok.mp h4
  have hvns := clockAt_eq_ok.mp hclock
  have happlied : Applied P p.icount (P.rip s2.rail.machine) (taken.map (·.kind))
      s2.rail s4.rail := by
    rw [← hicount]
    exact happlied rfl
  have hchain : s4.chain = b.chain := by
    rw [hs3, hway.station_chain]
    exact hway.chain_eq
  have hpending : pendingInputs req s4 = pendingInputs req s2 := by
    unfold pendingInputs
    rw [hs3]
  have htook : Took req (p.inputs.filterMap (req.inputs[·]?) ++ pendingInputs req s)
      (pendingInputs req s4) s s4 (kinds ++ taken.map (·.kind)) := by
    rw [hpending]
    exact (hway.took.append_left _).trans (took_inputs htaken (by rw [hs3]) (by rw [hs3]))
  have harrive (hlt : s.rail.icount < p.icount) : Arrives P grid fuel b p.icount s2.rail := by
    have hb : s.rail.icount ≤ b.rail.icount := hway.journey.between.choose_spec.icount_le
    refine ⟨?_, ?_, ⟨n, hn, hway.coast⟩, hicount⟩
    · rcases hway.station_icount with hb | hb
      · exact hb ▸ hlt
      · exact hb
    · intro i hi
      exact hahead.no_grid i (hb.trans_lt hi)
  have hlt_of_inputs (hne : taken ≠ []) : s.rail.icount < p.icount :=
    (hahead.inputs fun hnil => hne (by rw [← htaken, hnil]; rfl)).1
  cases hhashed : p.epochHash && (p.finalStop.isNone || req.options.hashFinalEpoch) with
  | true =>
    -- The grid point: inputs and link together close an epoch leg.
    simp only [hhashed, if_true] at hlink h
    obtain ⟨hlinked, hconsumed, hframes⟩ := linked_of_sinkEpoch hplain hvns hlink
    obtain ⟨hon, hlt⟩ := hahead.epochHash (Bool.and_eq_true_iff.mp hhashed).1
    have hleg : Leg P grid fuel fin (taken.map (·.kind)) b ⟨s5.rail, s5.chain⟩ :=
      .epoch (harrive hlt) hon happlied (hchain ▸ hlinked)
    have hicount5 : s5.rail.icount = p.icount :=
      hlinked.icount_eq.trans (happlied.icount_eq.trans hicount)
    refine ⟨⟨s5.rail, s5.chain⟩, s5, _, vns, true, _,
      ⟨hway.journey.trans hleg.journey, ⟨0, by omega, .refl _⟩, hicount5, rfl, fun _ => rfl,
        fun _ => hlinked.lastEpoch_eq, ?_⟩,
      hvns, hicount, rfl, h⟩
    unfold Took pendingInputs at htook ⊢
    rwa [hconsumed, hframes]
  | false =>
    simp only [hhashed, Bool.false_eq_true, if_false] at hlink h
    cases hlink
    have hicount4 : s4.rail.icount = p.icount := happlied.icount_eq.trans hicount
    by_cases hnone : taken = []
    · -- Nothing happens here: the run keeps coasting.
      subst hnone
      have hrail : s4.rail = s2.rail := happlied
      refine ⟨b, s4, _, vns, false, kinds ++ [],
        ⟨by simpa using hway.journey, ⟨n, hn, hrail ▸ hway.coast⟩, hicount4, hchain, ?_,
          by simp, htook⟩, hvns, hicount, rfl, h⟩
      rintro (hfalse | hne)
      · cases hfalse
      · exact absurd (hempty rfl) hne
    · have hoff : ¬OnGrid grid p.icount := by
        have hne : p.inputs ≠ [] := fun hnil => hnone (by rw [← htaken, hnil]; rfl)
        refine (hahead.inputs hne).2 ?_
        rcases hinputs with hfinal | hnil
        · simpa [hfinal] using hhashed
        · exact absurd hnil hne
      have hleg : Leg P grid fuel fin (taken.map (·.kind)) b ⟨s4.rail, b.chain⟩ :=
        .stop (harrive (hlt_of_inputs hnone)) hoff (by simpa using hnone) happlied
      rw [← hchain] at hleg
      exact ⟨⟨s4.rail, s4.chain⟩, s4, _, vns, false, _,
        ⟨hway.journey.trans hleg.journey, ⟨0, by omega, .refl _⟩, hicount4, rfl,
          fun _ => rfl, by simp, htook⟩, hvns, hicount, rfl, h⟩

lemma afterPoint_eq {boundary : Boundary} {hashed : Bool} (hplain : Plain req)
    (hgoal : p.goalPoll = false) :
    afterPoint P req fuel p boundary vns hashed s = .ok (match p.finalStop with
      | some kind =>
        .inr (finish P req.options.hashFinalStop kind.reason boundary vns hashed s)
      | none => .inl s) := by
  unfold afterPoint
  simp only [hgoal, Bool.false_and, Bool.false_eq_true, if_false, hplain.pause_eq]
  rcases p.finalStop with _ | _ | _ <;> rfl

lemma sinkEpoch_error (h : sinkEpoch P req t s = .error u) : ∃ e, u = .error e := by
  unfold sinkEpoch at h
  cases hsink : req.epochSink (t / max P.config.epochLen 1) t s.chain (s.rail.log, s.caller) with
  | ok w => simp [hsink, Flight.lift] at h
  | error e =>
    simp only [hsink, Flight.lift, error_bind, Except.error.injEq] at h
    exact ⟨_, h.symm⟩

lemma atPoint_error (hplain : Plain req) (hinjections : p.injections = [])
    (hinputs : p.inputs = []) (hgoal : p.goalPoll = false)
    (h : atPoint P req fuel [] none p s = .error u) :
    landAt P req fuel p.icount s = .error u ∨ ∃ e, u = .error e := by
  unfold atPoint at h
  cases hland : landAt P req fuel p.icount s with
  | error u' =>
    rw [hland, error_bind, Except.error.injEq] at h
    exact .inl (h ▸ rfl)
  | ok s2 =>
    right
    simp only [hland, hinjections, hinputs, applyInputs, map_nil, filterMap_nil,
      append_nil, deliver, ok_bind, afterPoint_eq hplain hgoal] at h
    cases hclock : P.config.clock.vnsFromIcount p.icount with
    | none =>
      simp only [clockAt, hclock, error_bind, Except.error.injEq] at h
      exact ⟨_, h.symm⟩
    | some vns =>
      simp only [clockAt, hclock, ok_bind] at h
      split_ifs at h with hhashed
      · cases hsink : sinkEpoch P req p.icount (s2.pushLink P p.icount vns) with
        | ok s3 => simp [hsink] at h
        | error u' =>
          rw [hsink, error_bind, Except.error.injEq] at h
          exact h ▸ sinkEpoch_error hsink
      · simp at h

def agendaRest (req : RunRequest H σ τ) (it : AgendaIter) : List QueuedInput :=
  it.inputs.filterMap fun q => req.inputs[q.2]?

structure Finished (P : Platform H σ X) (grid : Option ℕ) (fuel : ℕ) (req : RunRequest H σ τ)
    (fin : ℕ) (rest : List QueuedInput) (s s1 : Seg H σ τ) (m : Station H σ) (boundary : Boundary)
    (vns : ℕ) (hashed : Bool) (kinds : List InputKind) : Prop where
  journey : Journey P grid fuel fin kinds ⟨s.rail, s.chain⟩ m
  coast : ∃ n < fuel, Coast P fin n m.rail s1.rail
  landed : s1.rail.icount = fin
  no_grid : ∀ i, m.rail.icount < i → i < fin → ¬OnGrid grid i
  chain_eq : s1.chain = m.chain
  closed : hashed = true → m = ⟨s1.rail, s1.chain⟩
  epoch_eq : hashed = true → lastEpoch s1.rail.log.records = some fin
  hashed_iff : hashed = true ↔
    OnGrid grid fin ∧ s.rail.icount < fin ∧ req.options.hashFinalEpoch = true
  vns_eq : P.config.clock.vnsFromIcount fin = some vns
  boundary_eq : boundary.icount = fin
  took : Took req rest (pendingInputs req s1) s s1 kinds

/-- How the agenda walk can end; the stops on the way are described only for a
request without inputs of its own. -/
inductive Course (P : Platform H σ X) (grid : Option ℕ) (fuel : ℕ) (req : RunRequest H σ τ)
    (fin : ℕ) (kind : StopKind) (rest : List QueuedInput) (s : Seg H σ τ) :
    Flight H σ τ (SegmentOutcome H × Seg H σ τ) → Prop
  | final {s1 : Seg H σ τ} {m : Station H σ} {boundary : Boundary} {vns : ℕ} {hashed : Bool}
      {kinds : List InputKind}
      (h : Finished P grid fuel req fin rest s s1 m boundary vns hashed kinds) :
      Course P grid fuel req fin kind rest s
        (.ok (finish P req.options.hashFinalStop kind.reason boundary vns hashed s1))
  | frame {s' : Seg H σ τ} {kinds : List InputKind}
      (h : Journey P grid fuel fin kinds ⟨s.rail, s.chain⟩ ⟨s'.rail, s'.chain⟩)
      (htarget : req.frameTarget = some s'.framesSeen) {rest' : List QueuedInput}
      (htook : Took req rest rest' s s' kinds) :
      Course P grid fuel req fin kind rest s (.error (.eventStop s'))
  | halted {s' s1 : Seg H σ τ} {r : Rail H σ} {b : Station H σ} {t n : ℕ}
      {kinds : List InputKind}
      (h : Journey P grid fuel fin kinds ⟨s.rail, s.chain⟩ b) (hchain : s'.chain = b.chain)
      (hcoast : Coast P t n b.rail r) (hlt : r.icount < t) (hfin : r.icount < fin)
      (henter : enter P r = .halted s'.rail) {rest' : List QueuedInput}
      (htook : Took req rest rest' s s1 kinds) :
      Course P grid fuel req fin kind rest s (.error (.halted s'))
  | withInputs {u : Unwind H σ τ} (h : req.inputs ≠ []) :
      Course P grid fuel req fin kind rest s (.error u)
  | failed (e : RunError H) : Course P grid fuel req fin kind rest s (.error (.error e))

lemma agendaRest_next (h : AgendaIter.NextSpec grid cur it p it') :
    (agendaRest req it).Perm (p.inputs.filterMap (req.inputs[·]?) ++ agendaRest req it') := by
  unfold agendaRest
  rw [h.inputs_eq, h.rest_inputs, filterMap_map, Function.comp_def, ← filterMap_append]
  refine List.Perm.filterMap _ ?_
  have hsplit := filter_append_perm (fun q : ℕ × ℕ => decide (q.1 = p.icount)) it.inputs
  refine hsplit.symm.trans (List.Perm.of_eq ?_)
  congr 1
  refine filter_congr fun q hq => ?_
  have := h.no_input q hq
  simp only [← decide_not, decide_eq_decide]
  omega

structure Walking (P : Platform H σ X) (grid : Option ℕ) (fuel : ℕ) (req : RunRequest H σ τ)
    (fin : ℕ) (kind : StopKind) (rest : List QueuedInput) (s : Seg H σ τ)
    (w : AgendaIter × Seg H σ τ) : Prop where
  agenda : w.1.At grid w.2.rail.icount
  final_eq : w.1.finalIcount = fin
  kind_eq : w.1.stopKind = kind
  inputs_ok : req.options.hashFinalEpoch = true ∨ w.1.inputs = []
  no_inputs : req.inputs = [] → w.1.inputs = []
  icount_le : s.rail.icount ≤ w.2.rail.icount
  moving : w.2.rail.icount < fin ∨ w.2.rail.icount = s.rail.icount
  journey : ∃ kinds, Journey P grid fuel fin kinds ⟨s.rail, s.chain⟩ ⟨w.2.rail, w.2.chain⟩ ∧
    Took req rest (agendaRest req w.1 ++ pendingInputs req w.2) s w.2 kinds

section

variable (h : Walking P grid fuel req fin kind rest s w)
include h

lemma Walking.next :
    ∃ p it', w.1.next = some (p, it') ∧ Ahead grid w.2.rail.icount p ∧ p.icount ≤ fin ∧
      p.finalStop = (if p.icount = fin then some kind else none) ∧
      (p.epochHash = true ↔ OnGrid grid p.icount ∧ w.2.rail.icount < p.icount) ∧
      (p.icount < fin → AgendaIter.NextSpec grid w.2.rail.icount w.1 p it') ∧ (p.icount = fin →
        (agendaRest req w.1).Perm (p.inputs.filterMap (req.inputs[·]?))) ∧
      (w.1.inputs = [] → p.inputs = []) := by
  have hle := h.agenda.cur_le
  rcases Nat.lt_or_eq_of_le hle with hlt | heq
  · obtain ⟨p, it', hnext, hspec⟩ := h.agenda.next_spec hlt
    refine ⟨p, it', hnext, hspec.ahead, h.final_eq ▸ hspec.le_final, ?_, ?_, fun _ => hspec, ?_, ?_⟩
    · rw [hspec.finalStop_eq, h.final_eq, h.kind_eq]
    · rw [hspec.epochHash_iff]
      exact ⟨fun hon => ⟨hon, hspec.cur_lt⟩, fun hon => hon.1⟩
    · intro hfin
      refine (agendaRest_next hspec).trans (List.Perm.of_eq ?_)
      have hnone : it'.inputs = [] := by
        rw [hspec.rest_inputs, filter_eq_nil_iff]
        intro q hq
        have := (h.agenda.inputs_mem q hq).2
        have := h.final_eq
        simp only [decide_eq_true_eq]
        omega
      simp [agendaRest, hnone]
    · intro hnil
      simp [hspec.inputs_eq, hnil]
  · obtain ⟨it', hnext⟩ := h.agenda.next_of_final heq
    have hinputs : w.1.inputs = [] := by
      rw [eq_nil_iff_forall_not_mem]
      intro q hq
      have := h.agenda.inputs_mem q hq
      omega
    refine ⟨_, it', hnext, ⟨heq.le, rfl, rfl, ?_, by simp, by simp⟩,
      h.final_eq.le, ?_, ?_, ?_, ?_, ?_⟩
    · intro i hi hi'
      simp only at hi'
      omega
    · simp [h.final_eq, h.kind_eq]
    · simp only [Bool.false_eq_true, false_iff, not_and]
      omega
    · intro hlt
      simp only [h.final_eq] at hlt
      omega
    · intro _
      simp [agendaRest, hinputs]
    · intro _
      rfl

lemma Walking.step {w' : AgendaIter × Seg H σ τ}
    (hplain : Plain req) (hstep : walkStep P req fuel [] none w = .next w') :
    Walking P grid fuel req fin kind rest s w' := by
  obtain ⟨p, it', hnext, hahead, hle, hfinal, hepoch, hspec, -, hnil⟩ := h.next
  simp only [walkStep, hnext] at hstep
  cases hpoint : atPoint P req fuel [] none p w.2 with
  | error u => simp [hpoint] at hstep
  | ok res =>
  obtain ⟨m, s2, boundary, vns, hashed, kinds, hreached, -, -, hhashed, hafter⟩ :=
    atPoint_eq_ok hplain hahead hle (h.inputs_ok.imp_right hnil) hpoint
  rw [afterPoint_eq hplain hahead.goalPoll_eq, Except.ok.injEq] at hafter
  by_cases hfin : p.icount = fin
  · simp only [hfinal, hfin, if_true] at hafter
    simp [hpoint, ← hafter] at hstep
  · simp only [hfinal, hfin, if_false] at hafter
    simp only [hpoint, ← hafter, Fuel.Step.next.injEq] at hstep
    have hspec := hspec (by omega)
    -- The point has a cause, so it closed a leg.
    have hm : m = ⟨s2.rail, s2.chain⟩ := by
      refine hreached.closed ?_
      rcases hspec.cause with hend | hon | hne
      · exact absurd (hend.trans h.final_eq) hfin
      · left
        rw [hhashed, hspec.epochHash_iff.mpr hon, hfinal, if_neg hfin]
        rfl
      · exact .inr hne
    subst hstep
    obtain ⟨kinds0, hjourney, htook⟩ := h.journey
    refine
      { agenda := hreached.landed ▸ hspec.rest (by have := h.final_eq; omega)
        final_eq := hspec.rest_final.trans h.final_eq
        kind_eq := hspec.rest_kind.trans h.kind_eq
        inputs_ok := h.inputs_ok.imp_right fun hnone => by simp [hspec.rest_inputs, hnone]
        no_inputs := fun hnone => by simp [hspec.rest_inputs, h.no_inputs hnone]
        icount_le := h.icount_le.trans (hreached.landed ▸ hahead.cur_le)
        moving := .inl (hreached.landed ▸ by omega)
        journey := ⟨kinds0 ++ kinds, hjourney.trans (hm ▸ hreached.journey), htook.trans ?_⟩ }
    refine (hreached.took.append_left (agendaRest req it')).perm_left ?_
    rw [← append_assoc]
    exact ((agendaRest_next hspec).trans perm_append_comm).append_right _

lemma Walking.done (hplain : Plain req)
    (hstep : walkStep P req fuel [] none w = .done result) :
    Course P grid fuel req fin kind rest s result := by
  obtain ⟨p, it', hnext, hahead, hle, hfinal, hepoch, -, hlast, hnil⟩ := h.next
  obtain ⟨kinds0, hjourney, htook⟩ := h.journey
  simp only [walkStep, hnext] at hstep
  cases hpoint : atPoint P req fuel [] none p w.2 with
  | error u =>
    simp only [hpoint] at hstep
    cases hstep
    by_cases hinputs : req.inputs = []
    · rcases atPoint_error hplain hahead.injections_eq (hnil (h.no_inputs hinputs))
        hahead.goalPoll_eq hpoint with hland | ⟨e, rfl⟩
      · have htouch := landAt_touchdown P fuel hplain hle hahead.no_grid
        rw [hland] at htouch
        cases htouch with
        | frame hframe _ _ htarget hframeTook =>
          exact .frame (hjourney.trans hframe) htarget
            (htook.trans (hframeTook.append_left _))
        | halted hway hlt henter hchain =>
          exact .halted (hjourney.trans hway.journey) (hchain.trans hway.station_chain.symm)
            hway.coast hlt (hlt.trans_le hle) henter (htook.trans (hway.took.append_left _))
        | failed e => exact .failed e
      · exact .failed e
    · exact .withInputs hinputs
  | ok res =>
  obtain ⟨m, s2, boundary, vns, hashed, kinds, hreached, hvns, hboundary, hhashed, hafter⟩ :=
    atPoint_eq_ok hplain hahead hle (h.inputs_ok.imp_right hnil) hpoint
  rw [afterPoint_eq hplain hahead.goalPoll_eq, Except.ok.injEq] at hafter
  by_cases hfin : p.icount = fin
  · simp only [hfinal, hfin, if_true] at hafter
    simp only [hpoint, ← hafter] at hstep
    cases hstep
    have hm : w.2.rail.icount ≤ m.rail.icount :=
      hreached.journey.between.choose_spec.icount_le
    rw [hfin] at hvns hboundary hepoch
    have hcoast := hreached.coast
    have hlanded := hreached.landed
    rw [hfin] at hcoast hlanded
    have hiff : hashed = true ↔
        OnGrid grid fin ∧ s.rail.icount < fin ∧ req.options.hashFinalEpoch = true := by
      rw [hhashed, hfinal, if_pos hfin]
      simp only [Option.isNone_some, Bool.false_or, Bool.and_eq_true, hepoch, and_assoc]
      have hmoving := h.moving
      have hicount := h.icount_le
      constructor
      · rintro ⟨hon, hlt, hhash⟩
        exact ⟨hon, by omega, hhash⟩
      · rintro ⟨hon, hlt, hhash⟩
        exact ⟨hon, by omega, hhash⟩
    have hfinished : Finished P grid fuel req fin rest s s2 m boundary vns hashed
        (kinds0 ++ kinds) :=
      { journey := hjourney.trans hreached.journey
        coast := hcoast
        landed := hlanded
        no_grid := fun i hi hi' => hahead.no_grid i (hm.trans_lt hi) (hfin ▸ hi')
        chain_eq := hreached.chain_eq
        closed := fun hh => hreached.closed (.inl hh)
        epoch_eq := fun hh => hfin ▸ hreached.epoch_eq hh
        hashed_iff := hiff
        vns_eq := hvns
        boundary_eq := hboundary
        took := htook.trans (hreached.took.perm_left ((hlast hfin).append_right _)) }
    exact .final hfinished
  · simp only [hfinal, hfin, if_false] at hafter
    simp [hpoint, ← hafter] at hstep

end

lemma walk_course {n : ℕ} (hplain : Plain req) (hw : Walking P grid fuel req fin kind rest s w)
    (h : Fuel.run (walkStep P req fuel [] none) n w = some result) :
    Course P grid fuel req fin kind rest s result := by
  refine Fuel.run_induction (I := Walking P grid fuel req fin kind rest s)
    (Q := Course P grid fuel req fin kind rest s) ?_ ?_ hw h
  · rintro ⟨it, s1⟩ w' hwalk hstep
    exact hwalk.step hplain hstep
  · rintro ⟨it, s1⟩ result hwalk hstep
    exact hwalk.done hplain hstep

/-- The inputs a run up to `fin` can apply: those due inside its window and
those that wait for a frame. -/
def dueInputs (req : RunRequest H σ τ) (fin : ℕ) : List QueuedInput :=
  req.inputs.filter fun input =>
    match input.due with
    | .icount n => decide (req.startIcount < n ∧ n ≤ fin)
    | .frame _ => true

lemma filterMap_getElem?_zipIdx {α : Type} (xs : List α) (keep : α → Bool) :
    (xs.zipIdx.filter fun q => keep q.1).filterMap (fun q => xs[q.2]?) = xs.filter keep := by
  have hlookup : ∀ q ∈ xs.zipIdx.filter fun q => keep q.1, xs[q.2]? = some q.1 := by
    intro q hq
    exact mem_zipIdx_iff_getElem?.mp (mem_filter.mp hq).1
  rw [filterMap_congr hlookup, filterMap_eq_map']
  have hfilter := filter_map (f := Prod.fst) (p := keep) (l := xs.zipIdx)
  rw [zipIdx_map_fst] at hfilter
  exact hfilter.symm

lemma scheduled_lookup (fin : ℕ) :
    ((req.scheduledInputs.zipIdx.filter fun p =>
        decide (req.startIcount < p.1 ∧ p.1 ≤ fin)).filterMap fun q => req.inputs[q.2]?) =
      req.inputs.filter fun input =>
        match input.due with
        | .icount n => decide (req.startIcount < n ∧ n ≤ fin)
        | .frame _ => false := by
  unfold RunRequest.scheduledInputs
  rw [zipIdx_map, filter_map, filterMap_map, ← filterMap_getElem?_zipIdx req.inputs]
  refine congrArg (List.filterMap _) (filter_congr ?_)
  rintro ⟨⟨due, kind, order⟩, index⟩ -
  cases due <;> simp

lemma frames_lookup :
    (req.frameInputs.filterMap fun q => req.inputs[q.2]?) =
      req.inputs.filter fun input =>
        match input.due with
        | .icount _ => false
        | .frame _ => true := by
  unfold RunRequest.frameInputs
  rw [filterMap_filterMap, ← filterMap_getElem?_zipIdx, filterMap_filter]
  refine filterMap_congr ?_
  rintro ⟨⟨due, kind, order⟩, index⟩ -
  cases due <;> simp

lemma dueInputs_perm
    (hinputs : it.inputs = AgendaIter.queue req.startIcount fin req.scheduledInputs) :
    (agendaRest req it ++ pendingInputs req (startSeg req rail chain caller)).Perm
      (dueInputs req fin) := by
  have hagenda : (agendaRest req it).Perm ((dueInputs req fin).filter fun input =>
      match input.due with
      | .icount _ => true
      | .frame _ => false) := by
    unfold agendaRest AgendaIter.queue at *
    rw [hinputs]
    refine ((perm_insertionSort _ _).filterMap _).trans (List.Perm.of_eq ?_)
    rw [scheduled_lookup, dueInputs, filter_filter]
    refine filter_congr ?_
    rintro ⟨due, kind, order⟩ -
    cases due <;> simp
  have hframes : pendingInputs req (startSeg req rail chain caller) =
      (dueInputs req fin).filter fun input =>
        !(match input.due with
          | .icount _ => true
          | .frame _ => false) := by
    change (req.frameInputs.filterMap fun q => req.inputs[q.2]?) = _
    rw [frames_lookup, dueInputs, filter_filter]
    refine filter_congr ?_
    rintro ⟨due, kind, order⟩ -
    cases due <;> simp
  rw [hframes]
  exact (hagenda.append_right _).trans (filter_append_perm _ _)

lemma walking_start (hplain : Plain req)
    (hfinal : req.finalStop = .icountBudget b ∨ req.finalStop = .hardCap b)
    (hinputs : req.options.hashFinalEpoch = true ∨ req.inputs = [])
    (hstart : rail.icount = req.startIcount)
    (h : AgendaIter.new (agendaInputs P req []) = some it) :
    Walking P (epochGrid P req.options) fuel req (rail.icount + b) it.stopKind
      (dueInputs req (rail.icount + b)) (startSeg req rail chain caller)
      (it, startSeg req rail chain caller) := by
  obtain ⟨hat, hfin, hqueue, -⟩ := AgendaIter.at_of_new h hfinal rfl hplain.goal_eq
    (fun len hlen => epochGrid_pos hlen)
  have hfin : it.finalIcount = rail.icount + b := by rw [hfin, hstart]; rfl
  rw [hfin] at hqueue
  have hnil : req.inputs = [] → it.inputs = [] := by
    intro hnone
    simp [hqueue, agendaInputs, RunRequest.scheduledInputs, hnone, AgendaIter.queue]
  refine ⟨?_, hfin, rfl, hinputs.imp_right hnil, hnil, le_rfl, .inr rfl, [], .refl _, ?_⟩
  · simp only [startSeg, hstart]
    exact hat
  · exact (Took.refl _ _).perm_left (dueInputs_perm hqueue).symm

lemma runSegment_eq_ok (hplain : Plain req)
    (hfinal : req.finalStop = .icountBudget b ∨ req.finalStop = .hardCap b)
    (hinputs : req.options.hashFinalEpoch = true ∨ req.inputs = [])
    (hframe : req.frameTarget ≠ some 0)
    (h : runSegment P fuel req rail chain caller = .ok (out, s')) :
    rail.icount = req.startIcount ∧ rail.icount + b < 2 ^ 64 ∧ ∃ kind result,
      (req.finalStop = .icountBudget b → kind = .budget) ∧
      Course P (epochGrid P req.options) fuel req (rail.icount + b) kind
        (dueInputs req (rail.icount + b)) (startSeg req rail chain caller) result ∧
      settle P req result = .ok (out, s') := by
  unfold runSegment at h
  split_ifs at h with hstart hclock hfeed
  have hstart : rail.icount = req.startIcount := by simpa using hstart
  simp only [hplain.timer_eq, hplain.injections_eq] at h
  cases hnew : AgendaIter.new (agendaInputs P req []) with
  | none => simp [hnew] at h
  | some it =>
    simp only [hnew] at h
    obtain ⟨hat, hend, -, hkind⟩ := AgendaIter.at_of_new hnew hfinal rfl hplain.goal_eq
      fun len hlen => epochGrid_pos hlen
    have hlt : rail.icount + b < 2 ^ 64 := by
      rw [hstart]
      exact hend ▸ hat.final_lt
    refine ⟨hstart, hlt, it.stopKind, _, hkind, ?_, h⟩
    unfold walkAgenda
    cases hrun : Fuel.run (walkStep P req fuel [] none) (it.finalIcount - req.startIcount + 1)
        (it, startSeg req rail chain caller) with
    | none => exact .failed _
    | some result =>
      exact walk_course hplain (walking_start hplain hfinal hinputs hstart hnew) hrun

lemma settle_error (hstop : req.stop = .icountBudget b)
    (h : settle P req (.error u) = .ok (out, s')) : out.reason ≠ .budgetReached := by
  have hcounter : ∀ {hash : Bool} {reason : StopReason} {s : Seg H σ τ},
      finishAtCounter P hash reason s = .ok (out, s') → out.reason = reason := by
    intro hash reason s hfinish
    unfold finishAtCounter at hfinish
    split at hfinish
    · cases hfinish
      rfl
    · cases hfinish
  cases u with
  | halted | frameSinkStop => simp [hcounter h]
  | eventStop s => simp [hcounter h, RunRequest.eventReason, hstop]
  | error e => cases h

lemma runSegment_budget (hplain : Plain req) (hstop : req.stop = .icountBudget b)
    (hfinal : req.options.hashFinalEpoch = true)
    (h : runSegment P fuel req rail chain caller = .ok (out, s'))
    (hreason : out.reason = .budgetReached) :
    rail.icount = req.startIcount ∧ rail.icount + b < 2 ^ 64 ∧ ∃ s1 m boundary vns hashed kinds,
        Finished P (epochGrid P req.options) fuel req (rail.icount + b)
          (dueInputs req (rail.icount + b)) (startSeg req rail chain caller) s1 m boundary vns
          hashed kinds ∧
      (out, s') = finish P req.options.hashFinalStop .budgetReached boundary vns hashed s1 := by
  have hfinalStop : req.finalStop = .icountBudget b := by simp [RunRequest.finalStop, hstop]
  have htarget : req.frameTarget = none := by simp [RunRequest.frameTarget, hstop]
  obtain ⟨hstart, hlt, kind, result, hkind, hcourse, hsettle⟩ :=
    runSegment_eq_ok hplain (.inl hfinalStop) (.inl hfinal) (by simp [htarget]) h
  obtain rfl := hkind hfinalStop
  refine ⟨hstart, hlt, ?_⟩
  cases hcourse with
  | final hfinished =>
    refine ⟨_, _, _, _, _, _, hfinished, ?_⟩
    exact (Except.ok.inj hsettle).symm
  | frame | halted | withInputs | failed => exact absurd hreason (settle_error hstop hsettle)

end DetHypervisor
