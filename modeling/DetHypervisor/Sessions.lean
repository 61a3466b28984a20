import DetHypervisor.RecordedRuns
import DetHypervisor.ReplayedLog

/-!
# Sessions with inputs

A segment recorded in rounds of injected inputs and runs. The queue gives every input its own
order number. The recorder links at the end of every `Run`, a replay once at the end of the segment.
-/

namespace DetHypervisor

open List

variable {H σ X : Type} {P : Platform H σ X} {queue : List QueuedInput} {next : ℕ}

/-- Every cut between two runs lies on the grid, and a run is empty only if it is the whole
segment. -/
def Aligned (grid : Option ℕ) : ℕ → List ℕ → Prop
  | _, [] => False
  | start, [b] => start = 0 ∨ 0 < b
  | start, b :: rest => 0 < b ∧ OnGrid grid (start + b) ∧ Aligned grid (start + b) rest

structure Numbered (queue : List QueuedInput) (next : ℕ) : Prop where
  nodup : (queue.map (·.order)).Nodup
  lt_next : ∀ input ∈ queue, input.order < next

lemma Numbered.filter (h : Numbered queue next) (keep : QueuedInput → Bool) :
    Numbered (queue.filter keep) next := by
  refine ⟨h.nodup.sublist ((filter_sublist).map _), fun input hinput => ?_⟩
  exact h.lt_next input (mem_filter.mp hinput).1

def acceptedInputs (P : Platform H σ X) (events : List ScheduledEvent) (rt : Recording H σ) :
    List QueuedInput :=
  if 2 ^ 32 ≤ events.length then []
  else
    match (acceptEvents P rt 0 events rt.nextInputOrder).1 with
    | .ok inputs => inputs
    | .error _ => []

def inject (P : Platform H σ X) (events : List ScheduledEvent) (rt : Recording H σ) :
    Recording H σ := (queueInputsFromProto P events rt).2

lemma inject_spec (P : Platform H σ X) (events : List ScheduledEvent) (rt : Recording H σ) :
    (inject P events rt).rail = rt.rail ∧ (inject P events rt).chain = rt.chain ∧
      (inject P events rt).queued.Perm (rt.queued ++ acceptedInputs P events rt) := by
  unfold inject queueInputsFromProto acceptedInputs
  split_ifs
  · exact ⟨rfl, rfl, by simp⟩
  · generalize acceptEvents P rt 0 events rt.nextInputOrder = w
    obtain ⟨accepted, order⟩ := w
    cases accepted with
    | error e => exact ⟨rfl, rfl, by simp⟩
    | ok inputs => exact ⟨rfl, rfl, perm_insertionSort _ _⟩

structure Round where
  events : List ScheduledEvent
  budget : ℕ
  liveInputs : ℕ → List InputKind

/-- A session whose runs all use up their budgets and leave no event in the
channel. `inputs` is what the injections put on the queue. -/
inductive Session (P : Platform H σ X) (fuel : ℕ) :
    List Round → Recording H σ → List QueuedInput → Recording H σ → Prop
  | nil (rt : Recording H σ) : Session P fuel [] rt [] rt
  | cons {round : Round} {rest : List Round} {rt rt1 rt' : Recording H σ}
      {inputs : List QueuedInput} {out : SegmentOutcome H} {s : Seg H σ Unit}
      (hrun : runSegment P fuel
        (recordRequest (.ofBudget round.budget round.liveInputs) (inject P round.events rt))
        (inject P round.events rt).rail (inject P round.events rt).chain () = .ok (out, s))
      (hreason : out.reason = .budgetReached)
      (hquiet : P.detchannel = true →
        P.service s.rail.icount .pauseDrain s.rail.machine = .ok (s.rail.machine, []))
      (hdrive : driveRecordedRun P fuel (.ofBudget round.budget round.liveInputs)
        (inject P round.events rt) = .ok (out, rt1))
      (hrest : Session P fuel rest rt1 inputs rt') :
      Session P fuel (round :: rest) rt (acceptedInputs P round.events rt ++ inputs) rt'

end DetHypervisor
