import DetHypervisor.Lib.Traced

/-!
# The pause flag

`Pause` raises a flag that the run loop samples, and then queues a command on the slot's actor.
A `Run` clears the flag after it has marked its slot Running.
-/

namespace DetHypervisor.PauseFlag

/-- What is queued on the actor of a slot. The `Run`s are numbered. -/
inductive Command where
  | run (id : ℕ)
  | pause
  deriving DecidableEq

/-- Where the actor is: the slot is Running from `marked` on, until the run is finished. -/
inductive Phase where
  | parked
  | marked (id : ℕ)
  | looping (id : ℕ)
  | pausing (id : ℕ)
  | faulted
  deriving DecidableEq

inductive Act where
  | raise
  | queueRun
  | queuePause
  | take (accepted : Bool)
  | clear
  | sample
  | finish (ok : Bool)

structure Actor where
  flag : Bool
  phase : Phase
  queue : List Command
  runs : ℕ
  deriving DecidableEq

namespace Actor

/-- One step of a handler or of the actor, if it is at such a step. -/
def step (s : Actor) : Act → Option Actor
  | .raise => some { s with flag := true }
  | .queueRun => some { s with queue := s.queue ++ [.run s.runs], runs := s.runs + 1 }
  | .queuePause => some { s with queue := s.queue ++ [.pause] }
  | .take accepted =>
    match s.queue, s.phase with
    -- `mark_running` may refuse the lease, and refuses every Faulted slot
    | .run id :: queue, .parked =>
      some { s with queue, phase := if accepted then .marked id else .parked }
    | .run _ :: queue, .faulted => some { s with queue }
    | .pause :: queue, .parked => some { s with queue, flag := false }
    | .pause :: queue, .faulted => some { s with queue, flag := false }
    | _, _ => none
  | .clear =>
    match s.phase with
    | .marked id => some { s with flag := false, phase := .looping id }
    | _ => none
  | .sample =>
    match s.phase with
    | .looping id => some { s with phase := if s.flag then .pausing id else .looping id }
    | _ => none
  | .finish ok =>
    let finished := if ok then { s with flag := false, phase := .parked }
      else { s with phase := .faulted }
    match s.phase with
    | .looping _ => some finished
    | .pausing _ => some finished
    | _ => none

end Actor

abbrev Does (a : Act) (s s' : Actor) : Prop := s.step a = some s'

/-- From here on every sample of the run `id` stops it as Paused. -/
def Kept (id : ℕ) (s : Actor) : Prop :=
  ∀ acts s', Traced Does acts s s' → s'.phase = .looping id →
    s'.step .sample = some { s' with phase := .pausing id }

variable {id : ℕ} {s s' : Actor} {a : Act}

structure Seen (id : ℕ) (s : Actor) : Prop where
  known : id < s.runs
  unmarked : s.phase ≠ .marked id
  refused : .run id ∈ s.queue → s.phase = .faulted
  raised : s.phase = .looping id → s.flag = true

lemma Seen.step (h : Seen id s) (hstep : Does a s s') : Seen id s' := by
  obtain ⟨flag, phase, queue, runs⟩ := s
  obtain ⟨hknown, hunmarked, hrefused, hraised⟩ := h
  dsimp only at hknown hunmarked hrefused hraised
  have hnot (hne : phase ≠ .faulted) : .run id ∉ queue := fun hmem => hne (hrefused hmem)
  cases a with
  | raise =>
    cases hstep
    exact ⟨hknown, hunmarked, hrefused, fun _ => rfl⟩
  | queueRun =>
    cases hstep
    refine ⟨Nat.lt_succ_of_lt hknown, hunmarked, fun hmem => hrefused ?_, hraised⟩
    simpa [hknown.ne] using hmem
  | queuePause =>
    cases hstep
    exact ⟨hknown, hunmarked, fun hmem => hrefused (by simpa using hmem), hraised⟩
  | take accepted =>
    cases queue with
    | nil => cases hstep
    | cons c queue =>
      have htail (hmem : .run id ∈ queue) : phase = .faulted :=
        hrefused (List.mem_cons_of_mem c hmem)
      cases c with
      | run j =>
        -- the run that is taken up is another one
        have hj (hne : phase ≠ .faulted) : j ≠ id := by
          rintro rfl
          exact hnot hne List.mem_cons_self
        cases phase <;> cases accepted <;> cases hstep <;>
          exact ⟨hknown, by simp [hj], fun hmem => by cases htail hmem <;> rfl, by simp⟩
      | pause => cases phase <;> cases hstep <;> exact ⟨hknown, hunmarked, htail, by simp⟩
  | clear =>
    cases phase <;> cases hstep
    refine ⟨hknown, by simp, fun hmem => absurd hmem (hnot (by simp)), fun hj => ?_⟩
    cases hj
    exact absurd rfl hunmarked
  | sample =>
    cases phase <;> cases hstep
    cases flag with
    | true => exact ⟨hknown, by simp, fun hmem => absurd hmem (hnot (by simp)), by simp⟩
    | false => exact ⟨hknown, hunmarked, hrefused, hraised⟩
  | finish ok =>
    cases phase <;> cases ok <;> cases hstep <;>
      exact ⟨hknown, by simp, fun hmem => absurd hmem (hnot (by simp)), by simp⟩

/-- The commands ahead of a run are refused or clear the flag, and so does the run itself. -/
lemma lost_of_parked {flag : Bool} {queue : List Command} {runs : ℕ} (hmem : .run id ∈ queue) :
    ∃ acts s', Traced Does acts ⟨flag, .parked, queue, runs⟩ s' ∧ s'.phase = .looping id ∧
      s'.flag = false := by
  induction queue generalizing flag with
  | nil => cases hmem
  | cons c queue ih =>
    by_cases hc : c = .run id
    · subst hc
      exact ⟨[.take true, .clear], _, .cons rfl (.single rfl), rfl, rfl⟩
    · have htail := (List.mem_cons.mp hmem).resolve_left (Ne.symm hc)
      cases c <;>
      · obtain ⟨acts, s', hacts, hlost⟩ := ih htail
        exact ⟨.take false :: acts, s', .cons rfl hacts, hlost⟩

lemma lost_of_queued (hmem : .run id ∈ s.queue) (hphase : s.phase ≠ .faulted) :
    ∃ acts s', Traced Does acts s s' ∧ s'.phase = .looping id ∧ s'.flag = false := by
  obtain ⟨flag, phase, queue, runs⟩ := s
  obtain ⟨acts, s', hacts, hlost⟩ := lost_of_parked hmem
  cases phase with
  | parked => exact lost_of_parked hmem
  | marked j => exact ⟨.clear :: .finish true :: acts, s', .cons rfl (.cons rfl hacts), hlost⟩
  | faulted => exact absurd rfl hphase
  | _ => exact ⟨.finish true :: acts, s', .cons rfl hacts, hlost⟩

lemma not_kept {acts : List Act} (hacts : Traced Does acts s s') (hphase : s'.phase = .looping id)
    (hflag : s'.flag = false) : ¬Kept id s := by
  intro h
  have hsample := h acts s' hacts hphase
  simp [Actor.step, hphase, hflag] at hsample

/-- A flag that is raised while the run `id` is queued, or between its crossing to
Running and its own clearing of the flag, is lost; any other is seen. -/
theorem pause_kept_iff (s : Actor) (hknown : id < s.runs) : Kept id { s with flag := true } ↔
      s.phase ≠ .marked id ∧ (.run id ∈ s.queue → s.phase = .faulted) := by
  constructor
  · intro h
    refine ⟨fun hmarked => ?_, fun hmem => ?_⟩
    · obtain ⟨flag, phase, queue, runs⟩ := s
      cases hmarked
      exact not_kept (.single (l := .clear) rfl) rfl rfl h
    · by_contra hphase
      obtain ⟨acts, s', hacts, hlooping, hflag⟩ :=
        lost_of_queued (s := { s with flag := true }) hmem hphase
      exact not_kept hacts hlooping hflag h
  · rintro ⟨hunmarked, hrefused⟩ acts s' hacts hphase
    have hseen : Seen id s' := hacts.invariant (fun a _ s s' hstep h => h.step hstep)
      ⟨hknown, hunmarked, hrefused, fun _ => rfl⟩
    simp [Actor.step, hphase, hseen.raised hphase]

theorem pause_kept_looping : Kept 0 ⟨true, .looping 0, [], 1⟩ :=
  (pause_kept_iff ⟨false, .looping 0, [], 1⟩ (by decide)).mpr ⟨by decide, by decide⟩

/-- A flag raised on a Running slot before the run clears it, and one raised while the
run is queued: the run goes on behind its next sample. -/
theorem pause_lost : (∃ s, Traced Does [.queueRun, .take true, .raise, .queuePause, .clear, .sample]
      ⟨false, .parked, [], 0⟩ s ∧ s.phase = .looping 0) ∧
    ∃ s, Traced Does [.queueRun, .raise, .queuePause, .take true, .clear, .sample]
      ⟨false, .parked, [], 0⟩ s ∧ s.phase = .looping 0 :=
  ⟨⟨_, .cons rfl (.cons rfl (.cons rfl (.cons rfl (.cons rfl (.single rfl))))), rfl⟩,
    _, .cons rfl (.cons rfl (.cons rfl (.cons rfl (.cons rfl (.single rfl))))), rfl⟩

end DetHypervisor.PauseFlag
