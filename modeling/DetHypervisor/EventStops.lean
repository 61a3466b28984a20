import DetHypervisor.GuestExits

/-!
# Event stops

The exit that brings the awaited event is the last one of a run. A run that never sees it goes
on until the guest halts, its hard cap, a pause or a stop of the frame sink.
-/

namespace DetHypervisor

open List Except Option Nat AgendaIter

variable {H σ X τ : Type} {P : Platform H σ X} {req : RunRequest H σ τ} {fuel : ℕ}
  {s s' : Seg H σ τ} {exits : List SeenExit}

inductive Leaves (req : RunRequest H σ τ) (exit : GuestExit) (s' : Seg H σ τ) : Unwind H σ τ → Prop
  | halted (hexit : exit = .halted) : Leaves req exit s' (.halted s')
  | sink {value : ℕ} (hframe : exit.frame? = some value) (hstop : req.frameStop value = true) :
      Leaves req exit s' (.frameSinkStop s')
  | budget {value : ℕ} (hframe : exit.frame? = some value)
      (htarget : req.frameTarget = some s'.framesSeen) : Leaves req exit s' (.eventStop s')
  | feed (hawaits : req.awaitsSdkEvent = true) (hfeed : 0 < s'.sdkEvents) :
      Leaves req exit s' (.eventStop s')

lemma leaves_of_checkSdkFeed {u : Unwind H σ τ} {exit : GuestExit}
    (h : checkSdkFeed req s = .error u) : Leaves req exit s u := by
  unfold checkSdkFeed at h
  split_ifs at h with hfeed
  cases h
  obtain ⟨hawaits, hpos⟩ := Bool.and_eq_true_iff.mp hfeed
  exact .feed hawaits (of_decide_eq_true hpos)

lemma checkSdkFeed_eq_ok (h : checkSdkFeed req s = .ok s') :
    s' = s ∧ (req.awaitsSdkEvent = true → s.sdkEvents = 0) := by
  unfold checkSdkFeed at h
  split_ifs at h with hfeed
  refine ⟨(Except.ok.inj h).symm, fun hawaits => ?_⟩
  rw [hawaits, Bool.true_and, decide_eq_true_iff] at hfeed
  exact Nat.eq_zero_of_not_pos hfeed

lemma leaves_of_onEntered {e : Entered H σ} {u : Unwind H σ τ}
    (h : onEntered P req s e = .error u) (hu : u.seg? = some s') :
    ∃ exit, e.exit? = some exit ∧ Leaves req exit s' u := by
  cases e with
  | stepped r => cases h
  | halted r =>
    cases h
    cases hu
    exact ⟨.halted, rfl, .halted rfl⟩
  | failed e =>
    cases h
    cases hu
  | serviced r es =>
    have hseg : segOf? (checkSdkFeed req (noteExit req r es s)) = some (noteExit req r es s) :=
      segOf_checkSdkFeed
    rw [show checkSdkFeed req (noteExit req r es s) = .error u from h] at hseg
    cases hseg.symm.trans hu
    exact ⟨_, rfl, leaves_of_checkSdkFeed h⟩
  | frame value r es =>
    refine ⟨_, rfl, ?_⟩
    have hhold : holdFrame P req value (noteExit req r es s) = .ok s' := by
      apply segOf_onEntered_frame
      rw [h]
      exact hu
    simp only [onEntered, onFrame, hhold, ok_bind] at h
    by_cases hsink : req.frameStop value = true
    · rw [if_pos hsink] at h
      cases h
      exact .sink rfl hsink
    rw [if_neg hsink] at h
    by_cases htarget : req.frameTarget = some s'.framesSeen
    · rw [if_pos htarget] at h
      cases h
      exact .budget rfl htarget
    · rw [if_neg htarget, ok_bind] at h
      exact leaves_of_checkSdkFeed h

lemma onEntered_goes_on {e : Entered H σ} (h : onEntered P req s e = .ok s') :
    ∃ exit, e.exit? = some exit ∧ exit ≠ .halted ∧
      (∀ value, exit.frame? = some value → req.frameTarget ≠ some s'.framesSeen) ∧
      (exit ≠ .trap → req.awaitsSdkEvent = true → s'.sdkEvents = 0) := by
  cases e with
  | stepped r => exact ⟨.trap, rfl, nofun, nofun, fun h => absurd rfl h⟩
  | halted | failed => cases h
  | serviced r es =>
    obtain ⟨rfl, hfeed⟩ := checkSdkFeed_eq_ok h
    exact ⟨_, rfl, nofun, nofun, fun _ => hfeed⟩
  | frame value r es =>
    obtain ⟨s1, hframe, hcheck⟩ := bind_eq_ok.mp h
    obtain ⟨rfl, hfeed⟩ := checkSdkFeed_eq_ok hcheck
    refine ⟨_, rfl, nofun, fun _ _ => ?_, fun _ => hfeed⟩
    obtain ⟨s2, hhold, hframe⟩ := bind_eq_ok.mp hframe
    split_ifs at hframe with hsink htarget
    cases hframe
    exact htarget

def EventReached (req : RunRequest H σ τ) (exits : List SeenExit) : Prop :=
  (∃ n, req.frameTarget = some n ∧ n ≤ (framesOf exits).length) ∨
    (req.awaitsSdkEvent = true ∧ 0 < feedOf req exits)

structure Passing (P : Platform H σ X) (req : RunRequest H σ τ) (s : Seg H σ τ)
    (exits : List SeenExit) (s' : Seg H σ τ) : Prop where
  saw : Saw P req s exits s'
  waiting : ¬EventReached req exits
  running : ∀ x ∈ exits, x.exit ≠ .halted

inductive Unwound (P : Platform H σ X) (req : RunRequest H σ τ) (fuel : ℕ) (s : Seg H σ τ) :
    Unwind H σ τ → Prop
  | left {exits : List SeenExit} {s1 : Seg H σ τ} {u : Unwind H σ τ}
      (hpassing : Passing P req s exits s1)
      (h : onEntered P req s1 (enter P s1.rail) = .error u) (hu : u ≠ .error .outOfFuel) :
      Unwound P req fuel s u
  | failed {e : RunError H} (he : e ≠ .outOfFuel) : Unwound P req fuel s (.error e)
  | spent {exits : List SeenExit} {s1 : Seg H σ τ} (hlength : fuel ≤ exits.length)
      (hpassing : Passing P req s exits s1) : Unwound P req fuel s (.error .outOfFuel)

section Start

variable {rail : Rail H σ} {chain : H} {caller : τ}
  {cap k n : ℕ} {injections : List ScheduledInjection} {it it' : AgendaIter}
  {out : SegmentOutcome H} {p : StopPoint} {timerSlot : Option ℕ} {w : AgendaIter × Seg H σ τ}

lemma not_reached_nil (htarget : req.frameTarget ≠ some 0) : ¬EventReached req [] := by
  rintro (⟨n, hn, hle⟩ | ⟨-, hpos⟩)
  · rw [le_zero.mp hle] at hn
    exact htarget hn
  · exact hpos.ne rfl

lemma Passing.entry (h : Passing P req (startSeg req rail chain caller) exits s)
    (hs' : onEntered P req s (enter P s.rail) = .ok s') :
    ∃ x, Passing P req (startSeg req rail chain caller) (exits ++ [x]) s' := by
  obtain ⟨exit, hexit, hrunning, hframe, hfeed⟩ := onEntered_goes_on hs'
  have hsees : Sees P req (some ⟨exit, s.rail.icount, appliedAt exit s⟩) s s' := by
    refine .exit hexit ?_
    rw [hs']
    rfl
  have hsaw := h.saw.snoc hsees
  have hcounted' := Counted.of_saw hsaw
  refine ⟨_, hsaw, ?_, ?_⟩
  · rintro (⟨n, hn, hle⟩ | ⟨hawaits, hpos⟩)
    · have hbefore : (framesOf exits).length < n :=
        Nat.not_le.mp fun hle => h.waiting (.inl ⟨n, hn, hle⟩)
      rw [framesOf_snoc, length_append] at hle
      cases hvalue : exit.frame? with
      | none =>
        simp only [hvalue, Option.toList_none, length_nil] at hle
        omega
      | some value =>
        refine hframe value hvalue (hn.trans (congrArg some ?_))
        rw [hcounted'.frames_eq, framesOf_snoc, length_append]
        simp only [hvalue, Option.toList_some, length_singleton] at hle ⊢
        omega
    · have hbefore : feedOf req exits = 0 :=
        Nat.eq_zero_of_not_pos fun hpos => h.waiting (.inr ⟨hawaits, hpos⟩)
      by_cases htrap : exit = .trap
      · subst htrap
        rw [feedOf_snoc, hbefore] at hpos
        simp [GuestExit.events] at hpos
      · rw [← hcounted'.feed_eq, hfeed htrap hawaits] at hpos
        exact hpos.ne rfl
  · intro x hx
    obtain hx | hx := mem_append.mp hx
    · exact h.running x hx
    · rw [mem_singleton.mp hx]
      exact hrunning

lemma Passing.entries (h : Passing P req (startSeg req rail chain caller) exits s)
    (hs' : Traced (Does P req (timerSlotOf req)) (List.replicate n .entry) s s') :
    ∃ more, more.length = n ∧
      Passing P req (startSeg req rail chain caller) (exits ++ more) s' := by
  induction n generalizing s exits with
  | zero =>
    cases hs'
    exact ⟨[], rfl, (append_nil exits).symm ▸ h⟩
  | succ n ih =>
    cases hs' with
    | cons hdoes hrest =>
      cases hdoes with
      | entry hentered =>
        obtain ⟨x, hx⟩ := h.entry hentered
        obtain ⟨more, hlength, hmore⟩ := ih hx hrest
        refine ⟨x :: more, congrArg Nat.succ hlength, ?_⟩
        rwa [append_assoc] at hmore

section Runs

variable {I : Seg H σ τ → Prop} {B : Unwind H σ τ → Prop}

lemma Walks.inputs_scheduled (h : Walks P fuel req rail chain caller injections timerSlot it k w)
    (hnext : w.1.next = some (p, it')) : ∀ index ∈ p.inputs, req.ScheduledAt index p.icount := by
  intro index hindex
  obtain ⟨cur, ds, inputs, vectors, links, hprogress⟩ := h.progress
  apply And.left
  apply (mem_inputs_iff h.new_eq).mp
  rw [hprogress.tally.inputs_eq, (hprogress.window.yields_of_next hnext).inputs_eq]
  apply mem_append_right
  exact mem_append_left _ (mem_map_of_mem hindex)

namespace Guards

variable (g : Guards P req fuel (timerSlotOf req) req.ScheduledAt I B)
  (hpanic : ∀ message, B (.error (.panicked message)))
  (hs : I (startSeg req rail chain caller))

include g hpanic

lemma atWalk (h : Walks P fuel req rail chain caller injections timerSlot it k w)
    (hnext : w.1.next = some (p, it')) (hw : I w.2) :
    (DetHypervisor.atPoint P req fuel injections timerSlot p w.2).Post (Onward req I p) B := by
  obtain ⟨rfl, -⟩ := timed_eq_some h.timed_eq
  apply g.atPoint injections (h.inputs_scheduled hnext) _ hw
  intro s1 queued _ hs1
  apply g.deliver true _ hs1
  intro v _ s2 u hnote
  obtain ⟨⟨message, rfl⟩, -⟩ := noteDelivery_error hnote
  exact hpanic message

include hs

lemma walks (h : Walks P fuel req rail chain caller injections timerSlot it k w) : I w.2 := by
  obtain ⟨_, _, _, _, _, -, hI⟩ := h.induct (I := fun _ w _ _ _ _ _ => I w.2) hs <| by
    intro k w cur ds inputs vectors links p it' s' vns ds' done hwalks _ hw hnext _ _ _ _ hstep
    have hspec := g.atWalk hpanic hwalks hnext hw
    simp only [walkStep, hnext] at hstep
    cases hpoint : DetHypervisor.atPoint P req fuel injections timerSlot p w.2 with
    | error u => simp [hpoint] at hstep
    | ok res =>
      cases res with
      | inr done => simp [hpoint] at hstep
      | inl s1 =>
        simp only [hpoint, Fuel.Step.next.injEq, Prod.mk.injEq, true_and] at hstep
        exact hstep ▸ hspec.of_ok hpoint
  exact hI

lemma runSegment_ok (h : runSegment P fuel req rail chain caller = .ok (out, s')) :
    (opening P req rail = .ok none ∧ finishAtCounter P req.options.hashFinalStop .budgetReached
        (startSeg req rail chain caller) = .ok (out, s')) ∨ (∃ injections timerSlot it k w p it',
      Walks P fuel req rail chain caller injections timerSlot it k w ∧
        w.1.next = some (p, it') ∧ Concluded req I p (out, s')) ∨
    ∃ u, B u ∧ settle P req (.error u) = .ok (out, s') := by
  obtain hopening | ⟨injections, timerSlot, it, k, w, p, it', r, hwalks, hnext, hdone,
    hsettle⟩ := runSegment_last h
  · exact .inl hopening
  have hspec := g.atWalk hpanic hwalks hnext (g.walks hpanic hs hwalks)
  refine .inr ?_
  simp only [walkStep, hnext] at hdone
  cases hpoint : DetHypervisor.atPoint P req fuel injections timerSlot p w.2 with
  | error u =>
    simp only [hpoint] at hdone
    cases hdone
    exact .inr ⟨u, hspec.of_error hpoint, hsettle⟩
  | ok res =>
    cases res with
    | inl s1 => simp [hpoint] at hdone
    | inr done =>
      simp only [hpoint] at hdone
      cases hdone
      obtain rfl : done = (out, s') := Except.ok.inj hsettle
      exact .inl ⟨injections, _, it, k, w, p, it', hwalks, hnext, hspec.of_ok hpoint⟩

lemma runSegment_outOfFuel (h : runSegment P fuel req rail chain caller = .error .outOfFuel) :
    B (.error .outOfFuel) := by
  obtain ⟨_, hkvm, -⟩ | hfeed | hagenda | hclock |
    ⟨injections, timerSlot, it, k, w, p, it', hwalks, hnext, hpoint⟩ := runSegment_fails h
  · cases hkvm
  · cases hfeed
  · cases hagenda
  · cases hclock
  · exact (g.atWalk hpanic hwalks hnext (g.walks hpanic hs hwalks)).of_error hpoint

end Guards

end Runs

lemma guards_passing (P : Platform H σ X) (req : RunRequest H σ τ) (fuel : ℕ)
    (rail : Rail H σ) (chain : H) (caller : τ) : Guards P req fuel (timerSlotOf req) req.ScheduledAt
      (fun s => ∃ exits, Passing P req (startSeg req rail chain caller) exits s)
      (Unwound P req fuel (startSeg req rail chain caller)) where
  entry := by
    rintro s ⟨exits, hpassing⟩
    cases hentered : onEntered P req s (enter P s.rail) with
    | ok s' =>
      obtain ⟨x, hx⟩ := hpassing.entry hentered
      exact ⟨_, hx⟩
    | error u =>
      refine .left hpassing hentered ?_
      rintro rfl
      have hthrows : (onEntered P req s (enter P s.rail)).Post (fun _ => True)
          (Throws (· ≠ .outOfFuel)) := onEntered_throws (fun _ => nofun) P req _ s
      exact hthrows.of_error hentered .outOfFuel rfl rfl
  host := by
    rintro d s s' hdoes hd ht ⟨exits, hpassing⟩
    exact ⟨exits, hpassing.saw.host hd ht hdoes, hpassing.waiting, hpassing.running⟩
  fails _ := .failed
  spent := by
    rintro s s' ⟨exits, hpassing⟩ hentries
    obtain ⟨more, hlength, hmore⟩ := hpassing.entries hentries
    refine .spent ?_ hmore
    rw [length_append, hlength]
    exact le_add_left _ _

/-- What can stop a run before its event: the guest halts, the hard cap, a pause that
was asked for, or the frame sink. -/
inductive Interrupted (req : RunRequest H σ τ) (reached : List SeenExit → Prop) (cap : ℕ)
    (exits : List SeenExit) (out : SegmentOutcome H) : Prop
  | halted {front : List SeenExit} {x : SeenExit} (hexits : exits = front ++ [x])
      (hx : x.exit = .halted) (hreason : out.reason = .guestHalted)
      (hat : out.boundary.icount = x.counter)
  | hardCap (hreason : out.reason = .hardCap)
      (hat : out.boundary.icount = req.startIcount + cap) (hwaiting : ¬reached exits)
  | paused {point : ℕ} (hpause : req.pause point = true) (hreason : out.reason = .paused)
      (hwaiting : ¬reached exits)
  | sink {front : List SeenExit} {x : SeenExit} {value : ℕ} (hexits : exits = front ++ [x])
      (hx : x.exit.frame? = some value) (hstop : req.frameStop value = true)
      (hreason : out.reason = .paused) (hat : out.boundary.icount = x.counter)

/-- A run that stops at the exit that brings its event, unless it is interrupted. -/
structure StopsFor (req : RunRequest H σ τ) (reached : List SeenExit → Prop)
    (reason : StopReason) (cap : ℕ) (exits : List SeenExit) (out : SegmentOutcome H) : Prop where
  first : ∀ front x rest, exits = front ++ x :: rest → ¬reached front
  stop : (∃ front x, exits = front ++ [x] ∧ reached exits ∧ out.reason = reason ∧
    out.boundary.icount = x.counter) ∨ Interrupted req reached cap exits out

lemma EventReached.mono {more : List SeenExit} (h : EventReached req exits) :
    EventReached req (exits ++ more) := by
  rcases h with ⟨n, hn, hle⟩ | ⟨hawaits, hpos⟩
  · refine .inl ⟨n, hn, hle.trans ?_⟩
    rw [framesOf, framesOf, filterMap_append, length_append]
    exact le_add_right _ _
  · refine .inr ⟨hawaits, hpos.trans_le ?_⟩
    rw [feedOf, feedOf, map_append, sum_append_nat]
    exact le_add_right _ _

lemma first_of_waiting {x y : SeenExit} {front rest : List SeenExit} (h : ¬EventReached req exits)
    (hsplit : exits ++ [x] = front ++ y :: rest) : ¬EventReached req front := by
  intro hfront
  apply h
  obtain ⟨more, rfl⟩ : front <+: exits := by
    obtain ⟨init, z, hlast⟩ : ∃ init z, y :: rest = init ++ [z] :=
      ⟨_, _, (dropLast_append_getLast (cons_ne_nil y rest)).symm⟩
    rw [hlast, ← append_assoc] at hsplit
    exact ⟨init, (append_inj' hsplit rfl).1.symm⟩
  exact hfront.mono

lemma finishAtCounter_saw {reason : StopReason} {hash : Bool} {s0 : Seg H σ τ}
    (hsaw : Saw P req s0 exits s) (h : finishAtCounter P hash reason s = .ok (out, s')) :
    Saw P req s0 exits s' ∧ out.framesElapsed = s'.framesSeen ∧ out.reason = reason ∧
      out.boundary.icount = s.rail.icount := by
  have hat := (finishAtCounter_rail h).2
  unfold finishAtCounter at h
  split at h
  · cases h
    refine ⟨?_, rfl, rfl, hat⟩
    split_ifs
    · exact hsaw.host (d := .link _ _ _) rfl trivial (.link _ _)
    · exact hsaw
  · cases h

lemma AgendaIter.next_keeps (h : it.next = some (p, it')) : it'.stopKind = it.stopKind ∧
      (it.goalNext = none → p.goalPoll = false ∧ it'.goalNext = none) := by
  unfold next at h
  split_ifs at h
  cases h
  refine ⟨rfl, fun hnone => ?_⟩
  simp [hnone, advance]

lemma Walks.final_only (h : Walks P fuel req rail chain caller injections timerSlot it k w)
    (hgoal : req.goalPollPeriod = none) (hnext : w.1.next = some (p, it')) : p.goalPoll = false ∧
      ∀ kind, p.finalStop = some kind → p.icount = it.finalIcount ∧ kind = it.stopKind := by
  have hit : it.goalNext = none := by
    have hnew := h.new_eq
    obtain ⟨final, -, hit⟩ := bind_eq_some_iff.mp hnew
    cases hit
    simp [agendaInputs, hgoal]
  have hkept : w.1.stopKind = it.stopKind ∧ w.1.goalNext = none := by
    refine h.path.preserves (I := fun w => w.1.stopKind = it.stopKind ∧ w.1.goalNext = none) ?_
      ⟨rfl, hit⟩
    rintro w w' ⟨hkind, hnone⟩ hstep
    obtain ⟨q, vns, hnext, -⟩ := walkStep_next hstep
    obtain ⟨hkind', hpolls⟩ := next_keeps hnext
    exact ⟨hkind'.trans hkind, (hpolls hnone).2⟩
  refine ⟨((next_keeps hnext).2 hkept.2).1, fun kind hkind => ?_⟩
  obtain ⟨cur, ds, inputs, vectors, links, hprogress⟩ := h.progress
  rw [(hprogress.window.yields_of_next hnext).finalStop_eq] at hkind
  split_ifs at hkind with hat
  exact ⟨hat.trans hprogress.final_eq, (Option.some.inj hkind).symm.trans hkept.1⟩

lemma Unwound.stops {u : Unwind H σ τ} (h : Unwound P req fuel (startSeg req rail chain caller) u)
    (hsettle : settle P req (.error u) = .ok (out, s')) :
    ∃ exits, Saw P req (startSeg req rail chain caller) exits s' ∧
      out.framesElapsed = s'.framesSeen ∧
      ∀ cap, StopsFor req (EventReached req) req.eventReason cap exits out := by
  cases h with
  | failed | spent => cases hsettle
  | @left exits s1 u hpassing hleft _ =>
    obtain ⟨s2, hseg⟩ : ∃ s2, u.seg? = some s2 := by
      cases u with
      | halted s2 | frameSinkStop s2 | eventStop s2 => exact ⟨s2, rfl⟩
      | error e => cases hsettle
    obtain ⟨exit, hexit, hleaves⟩ := leaves_of_onEntered hleft hseg
    have hsees : Sees P req (some ⟨exit, s1.rail.icount, appliedAt exit s1⟩) s1 s2 := by
      refine .exit hexit ?_
      rw [hleft]
      exact hseg
    have hsaw := hpassing.saw.snoc hsees
    have hcounted := Counted.of_saw hsaw
    have hcounter := onEntered_unwound hleft hseg
    refine ⟨exits ++ [⟨exit, s1.rail.icount, appliedAt exit s1⟩], ?_⟩
    have hfirst (front : List SeenExit) (x : SeenExit) (rest : List SeenExit)
        (hsplit : exits ++ [⟨exit, s1.rail.icount, appliedAt exit s1⟩] = front ++ x :: rest) :
        ¬EventReached req front := first_of_waiting hpassing.waiting hsplit
    cases hleaves with
    | halted hhalted =>
      obtain ⟨hsaw', hframes, hreason, hat⟩ := finishAtCounter_saw hsaw hsettle
      exact ⟨hsaw', hframes, fun _ =>
        ⟨hfirst, .inr (.halted rfl hhalted hreason (hat.trans hcounter))⟩⟩
    | sink hvalue hstop =>
      obtain ⟨hsaw', hframes, hreason, hat⟩ := finishAtCounter_saw hsaw hsettle
      exact ⟨hsaw', hframes, fun _ =>
        ⟨hfirst, .inr (.sink rfl hvalue hstop hreason (hat.trans hcounter))⟩⟩
    | budget hvalue htarget =>
      obtain ⟨hsaw', hframes, hreason, hat⟩ := finishAtCounter_saw hsaw hsettle
      refine ⟨hsaw', hframes, fun _ =>
        ⟨hfirst, .inl ⟨_, _, rfl, .inl ?_, hreason, hat.trans hcounter⟩⟩⟩
      exact ⟨_, htarget, hcounted.frames_eq.le⟩
    | feed hawaits hpos =>
      obtain ⟨hsaw', hframes, hreason, hat⟩ := finishAtCounter_saw hsaw hsettle
      refine ⟨hsaw', hframes, fun _ =>
        ⟨hfirst, .inl ⟨_, _, rfl, .inr ?_, hreason, hat.trans hcounter⟩⟩⟩
      exact ⟨hawaits, hcounted.feed_eq ▸ hpos⟩

lemma Concluded.stops
    (h : Concluded req (fun s => ∃ exits, Passing P req (startSeg req rail chain caller) exits s) p
      (out, s')) (hwalks : Walks P fuel req rail chain caller injections timerSlot it k w)
    (hnext : w.1.next = some (p, it')) :
    ∃ exits, Saw P req (startSeg req rail chain caller) exits s' ∧
      out.framesElapsed = s'.framesSeen ∧
      ∀ cap, req.finalStop = .hardCap cap → req.goalPollPeriod = none →
        StopsFor req (EventReached req) req.eventReason cap exits out := by
  obtain ⟨⟨exits, hpassing⟩, reason, boundary, vns, hout, hstop⟩ := h
  obtain rfl : out = s'.outcome reason boundary vns := hout
  refine ⟨exits, hpassing.saw, rfl, fun cap hcap hgoal => ⟨?_, .inr ?_⟩⟩
  · rintro front x rest rfl hfront
    exact hpassing.waiting hfront.mono
  · obtain ⟨hnopoll, hfinal⟩ := hwalks.final_only hgoal hnext
    cases hstop with
    | goal hpoll => exact absurd hpoll (by simp [hnopoll])
    | paused hpause => exact .paused hpause rfl hpassing.waiting
    | @final _ kind hkind hat =>
      obtain ⟨hicount, rfl⟩ := hfinal kind hkind
      have hcapped := finalOf_of_new hwalks.new_eq
      simp only [AgendaIter.finalOf, agendaInputs, hcap, map_eq_some_iff] at hcapped
      obtain ⟨final, hadd, hpair⟩ := hcapped
      obtain ⟨rfl, hkind⟩ := Prod.mk.inj hpair
      refine .hardCap ?_ ?_ hpassing.waiting
      · rw [← hkind]
        rfl
      · change boundary.icount = _
        rw [hat, hicount]
        exact (checkedAdd_eq_some_iff.mp hadd).1

lemma opening_frameTarget (h : opening P req rail = .ok none) : req.frameTarget = some 0 := by
  unfold opening at h
  split_ifs at h with _ _ _ htarget
  · exact htarget
  · split at h
    · cases h
    · split at h <;> cases h

lemma runSegment_stops (h : runSegment P fuel req rail chain caller = .ok (out, s')) :
    ∃ exits, Saw P req (startSeg req rail chain caller) exits s' ∧
      out.framesElapsed = s'.framesSeen ∧
      ∀ cap, req.finalStop = .hardCap cap → req.goalPollPeriod = none → req.frameTarget ≠ some 0 →
        StopsFor req (EventReached req) req.eventReason cap exits out := by
  by_cases htarget : req.frameTarget = some 0
  · obtain ⟨-, hfinish⟩ | ⟨_, _, _, _, _, _, _, _, hwalks, -⟩ := runSegment_last h
    · obtain ⟨hsaw, hframes, -⟩ := finishAtCounter_saw (.refl _) hfinish
      exact ⟨[], hsaw, hframes, fun _ _ _ hne => absurd htarget hne⟩
    · exact absurd htarget hwalks.frame_ne
  have hstart : ∃ exits, Passing P req (startSeg req rail chain caller) exits
      (startSeg req rail chain caller) := ⟨[], .refl _, not_reached_nil htarget, by simp⟩
  obtain ⟨hopening, -⟩ | ⟨_, _, _, _, _, _, _, hwalks, hnext, hconcluded⟩ |
    ⟨u, hunwound, hsettle⟩ :=
    (guards_passing P req fuel rail chain caller).runSegment_ok (fun _ => .failed (by simp))
      hstart h
  · exact absurd (opening_frameTarget hopening) htarget
  · obtain ⟨exits, hsaw, hframes, hstops⟩ := hconcluded.stops hwalks hnext
    exact ⟨exits, hsaw, hframes, fun cap hcap hgoal _ => hstops cap hcap hgoal⟩
  · obtain ⟨exits, hsaw, hframes, hstops⟩ := hunwound.stops hsettle
    exact ⟨exits, hsaw, hframes, fun cap _ _ _ => hstops cap⟩

lemma eventReached_frames (h : req.stop = .frameBudget n cap) :
    EventReached req = fun exits => n ≤ (framesOf exits).length := by
  funext exits
  simp [EventReached, RunRequest.frameTarget, RunRequest.awaitsSdkEvent, h]

lemma eventReached_feed (h : req.stop = .nextSdkEvent cap) :
    EventReached req = fun exits => 0 < feedOf req exits := by
  funext exits
  simp [EventReached, RunRequest.frameTarget, RunRequest.awaitsSdkEvent, h]

lemma length_framesOf_le
    (h : ∀ front x rest, exits = front ++ x :: rest → ¬n ≤ (framesOf front).length) :
    (framesOf exits).length ≤ n := by
  rcases eq_nil_or_concat exits with rfl | ⟨front, x, rfl⟩
  · exact zero_le n
  · have hlt := not_le.mp (h front x [] concat_eq_append)
    rw [concat_eq_append, framesOf_snoc, length_append]
    have hone : x.exit.frame?.toList.length ≤ 1 := by cases x.exit.frame? <;> simp
    omega

/-- A run to an event stops at the exit that brings it, unless it is interrupted; it counts its
frames and applies every frame-scheduled input at its frame. -/
theorem event_stops_exact (P : Platform H σ X) (fuel : ℕ) (req : RunRequest H σ τ)
    (rail : Rail H σ) (chain : H) (caller : τ) :
    (∀ out s', runSegment P fuel req rail chain caller = .ok (out, s') →
      ∃ exits, Saw P req (startSeg req rail chain caller) exits s' ∧
        (req.startFrame :: framesOf exits).Pairwise (· < ·) ∧
        out.framesElapsed = (framesOf exits).length ∧ (exits.flatMap SeenExit.applied).Nodup ∧
        (∀ x ∈ exits, ∀ index, index ∈ x.applied ↔ ∃ value input,
          x.exit.frame? = some value ∧ req.inputs[index]? = some input ∧ input.due = .frame value) ∧
        s'.consumed.filter (·.frame?.isSome) =
          (exits.flatMap SeenExit.applied).filterMap (req.inputs[·]?) ∧
        (∀ n cap, req.stop = .frameBudget n cap → 0 < n → (framesOf exits).length ≤ n ∧
          StopsFor req (fun exits => n ≤ (framesOf exits).length) .budgetReached cap exits out) ∧
        ∀ cap, req.stop = .nextSdkEvent cap →
          StopsFor req (fun exits => 0 < feedOf req exits) .nextSdkEvent cap exits out) ∧
    (runSegment P fuel req rail chain caller = .error .outOfFuel →
      (∀ cap, req.stop ≠ .frameBudget 0 cap) → ∃ exits s', fuel ≤ exits.length ∧
        Passing P req (startSeg req rail chain caller) exits s') := by
  constructor
  · intro out s' h
    obtain ⟨exits, hsaw, hframes, hstops⟩ := runSegment_stops h
    have hcounted := Counted.of_saw hsaw
    refine ⟨exits, hsaw, hcounted.increasing, hframes.trans hcounted.frames_eq,
      hcounted.nodup_applied, fun x hx _ => hcounted.mem_applied_iff hx, hcounted.taken, ?_, ?_⟩
    · intro n cap hstop hn
      have hstopped := hstops cap (by simp [RunRequest.finalStop, hstop])
        (by simp [RunRequest.goalPollPeriod, hstop])
        (by simpa [RunRequest.frameTarget, hstop] using hn.ne')
      rw [eventReached_frames hstop, RunRequest.eventReason, hstop] at hstopped
      exact ⟨length_framesOf_le hstopped.first, hstopped⟩
    · intro cap hstop
      have hstopped := hstops cap (by simp [RunRequest.finalStop, hstop])
        (by simp [RunRequest.goalPollPeriod, hstop]) (by simp [RunRequest.frameTarget, hstop])
      rwa [eventReached_feed hstop, RunRequest.eventReason, hstop] at hstopped
  · intro h hstop
    have htarget : req.frameTarget ≠ some 0 := by
      unfold RunRequest.frameTarget
      split
      · rename_i n cap hn
        intro hzero
        exact hstop cap (Option.some.inj hzero ▸ hn)
      · simp
    have hunwound := (guards_passing P req fuel rail chain caller).runSegment_outOfFuel
      (fun _ => .failed (by simp)) ⟨[], .refl _, not_reached_nil htarget, by simp⟩ h
    cases hunwound with
    | left _ _ hu => exact absurd rfl hu
    | failed he => exact absurd rfl he
    | spent hlength hpassing => exact ⟨_, _, hlength, hpassing⟩

end Start

def framing : Platform LinkTrace ℕ (List Emit) :=
  scripted 10 (fun s => if s % 2 = 0 then .debug 1 (s + 1) else .frameCounter (s / 2 + 1) (s + 1))
    fun s => (s, [])

def framedRun (frames : ℕ) (pause frameStop : ℕ → Bool) : RunRequest LinkTrace ℕ Unit :=
  recordRequest { stop := .frameBudget frames 40, pause, frameStop } (freshCount framing)

theorem event_stops_framing : ∃ out s' exits,
    runSegment framing 50 (framedRun 3 (fun _ => false) fun _ => false) (freshCount framing).rail
      [] () = .ok (out, s') ∧
    out.reason = .budgetReached ∧ out.boundary.icount = 3 ∧ out.framesElapsed = 3 ∧
    (framesOf exits).length = 3 ∧
    StopsFor (framedRun 3 (fun _ => false) fun _ => false)
      (fun exits => 3 ≤ (framesOf exits).length) .budgetReached 40 exits out := by
  have hok : (runSegment framing 50 (framedRun 3 (fun _ => false) fun _ => false)
      (freshCount framing).rail [] ()).toOption.map
        (fun r => (r.1.reason, r.1.boundary.icount, r.1.framesElapsed)) =
      some (.budgetReached, 3, 3) := by
    decide +kernel
  cases hrun : runSegment framing 50 (framedRun 3 (fun _ => false) fun _ => false)
      (freshCount framing).rail [] () with
  | error e =>
    rw [hrun] at hok
    cases hok
  | ok r =>
    rw [hrun] at hok
    obtain ⟨hreason, hat, hframes⟩ : r.1.reason = .budgetReached ∧ r.1.boundary.icount = 3 ∧
        r.1.framesElapsed = 3 := by simpa [Except.toOption] using hok
    obtain ⟨exits, -, -, hcount, -, -, -, hstops, -⟩ :=
      (event_stops_exact framing 50 (framedRun 3 (fun _ => false) fun _ => false)
        (freshCount framing).rail [] ()).1 r.1 r.2 hrun
    exact ⟨r.1, r.2, exits, rfl, hreason, hat, hframes, hcount.symm.trans hframes,
      (hstops 3 40 rfl (by decide)).2⟩

/-- A pause, and a stop of the frame sink, come before the budget. -/
theorem event_stops_interrupted :
    (runSegment framing 50 (framedRun 15 (fun _ => true) fun _ => false) (freshCount framing).rail
        [] ()).toOption.map (fun r => (r.1.reason, r.1.boundary.icount, r.1.framesElapsed)) =
      some (.paused, 10, 9) ∧
    (runSegment framing 50 (framedRun 3 (fun _ => false) fun value => value = 2)
        (freshCount framing).rail [] ()).toOption.map
          (fun r => (r.1.reason, r.1.boundary.icount, r.1.framesElapsed)) =
      some (.paused, 2, 2) := by
  decide +kernel

end DetHypervisor
