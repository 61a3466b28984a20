import DetHypervisor.AgendaSpec
import DetHypervisor.Lib.Checked
import DetHypervisor.RunControl
import Mathlib.Order.GaloisConnection.Basic

/-!
# Clock conversions

The conversions of `vt.rs` are the adjoints between counts and times, cut off at `u64`. The
unchecked addition of `timer_to_injection` is brought back here in both builds.
-/

namespace DetHypervisor

open Checked AgendaIter

namespace ClockRatio

variable (c : ClockRatio)

lemma gc_reaches_image : GaloisConnection c.reaches c.image := fun _ _ => c.le_image_iff.symm

lemma isLeast_reaches (target : ℕ) : IsLeast {m | target ≤ c.image m} (c.reaches target) :=
  c.gc_reaches_image.isLeast_l

lemma isLeast_reaches_from (start target : ℕ) :
    IsLeast {m | start ≤ m ∧ target ≤ c.image m} (max (c.reaches target) start) :=
  c.isLeast_vns start target

lemma icountForVnsTarget_le_iff {targetVns icount n vns : ℕ}
    (hn : c.icountForVnsTarget targetVns = some n) (hvns : c.vnsFromIcount icount = some vns) :
    n ≤ icount ↔ targetVns ≤ vns := by
  obtain ⟨rfl, -⟩ := icountForVnsTarget_eq_some_iff.mp hn
  obtain ⟨rfl, -⟩ := vnsFromIcount_eq_some_iff.mp hvns
  exact c.le_image_iff.symm

end ClockRatio

namespace AgendaIter

variable {inputs : AgendaInputs} {b : ℕ}

lemma finalOf_vnsBudget (hstart : inputs.startIcount < 2 ^ 64)
    (hstop : inputs.finalStop = .vnsBudget b) : finalOf inputs =
      if inputs.clock.image inputs.startIcount + b < 2 ^ 64 ∧
          max (inputs.clock.reaches (inputs.clock.image inputs.startIcount + b))
            inputs.startIcount < 2 ^ 64 then
        some (max (inputs.clock.reaches (inputs.clock.image inputs.startIcount + b))
          inputs.startIcount, .budget)
      else none := by
  apply Option.ext
  rintro ⟨n, kind⟩
  simp only [finalOf, hstop, Option.bind_eq_bind, Option.bind_eq_some_iff,
    checkedAdd_eq_some_iff, ClockRatio.vnsFromIcount_eq_some_iff,
    ClockRatio.icountForVnsTarget_eq_some_iff, Option.ite_none_right_eq_some, Option.some.injEq]
  constructor
  · rintro ⟨_, ⟨rfl, -⟩, _, ⟨rfl, htime⟩, _, ⟨rfl, hcount⟩, h⟩
    exact ⟨⟨htime, max_lt hcount hstart⟩, h⟩
  · rintro ⟨⟨htime, hcount⟩, h⟩
    exact ⟨_, ⟨rfl, (Nat.le_add_right _ _).trans_lt htime⟩, _, ⟨rfl, htime⟩, _,
      ⟨rfl, (le_max_left _ _).trans_lt hcount⟩, h⟩

end AgendaIter

/-- The conversions are adjoint, and the agenda of a budget of virtual time ends
at the least count from its start whose time has advanced by the budget. -/
theorem clock_conversions_adjoint (inputs : AgendaInputs) (h : inputs.Fits) (b : ℕ)
    (hstop : inputs.finalStop = .vnsBudget b) :
    (∀ targetVns icount m vns, inputs.clock.icountForVnsTarget targetVns = some m →
      inputs.clock.vnsFromIcount icount = some vns → (m ≤ icount ↔ targetVns ≤ vns)) ∧
    ∃ n, IsLeast {i | inputs.startIcount ≤ i ∧
        inputs.clock.image inputs.startIcount + b ≤ inputs.clock.image i} n ∧
      (AgendaIter.finalOf inputs = none ↔ 2 ^ 64 ≤ inputs.clock.image inputs.startIcount ∨
        2 ^ 64 ≤ inputs.clock.image inputs.startIcount + b ∨ 2 ^ 64 ≤ n) ∧
      (∀ final kind, AgendaIter.finalOf inputs = some (final, kind) → final = n) ∧
      (AgendaIter.newU64 inputs = .budgetOverflow ↔ AgendaIter.finalOf inputs = none) ∧
      ∀ it, AgendaIter.newU64 inputs = .agenda it → it.finalIcount = n := by
  refine ⟨fun _ _ _ _ => inputs.clock.icountForVnsTarget_le_iff, _,
    inputs.clock.isLeast_reaches_from _ _, ?_⟩
  have hfinal := finalOf_vnsBudget h.start_lt hstop
  generalize max (inputs.clock.reaches (inputs.clock.image inputs.startIcount + b))
    inputs.startIcount = n at hfinal ⊢
  have hend (final : ℕ) (kind : StopKind) (hsome : AgendaIter.finalOf inputs = some (final, kind)) :
      final = n := by
    rw [hfinal, Option.ite_none_right_eq_some, Option.some.injEq, Prod.mk.injEq] at hsome
    exact hsome.2.1.symm
  refine ⟨?_, hend, ?_, fun it hit => ?_⟩
  · rw [hfinal, ite_eq_right_iff]
    simp only [reduceCtorEq, imp_false]
    omega
  · rw [newU64_eq_budgetOverflow_iff h, AgendaInputs.CountFits, ← new_eq_none_iff h]
    cases hnone : AgendaIter.finalOf inputs <;> simp [AgendaIter.new, hnone]
  · obtain ⟨hnew, -⟩ := (newU64_eq_agenda_iff h).mp hit
    exact hend _ _ (finalOf_of_new hnew)

/-- A budget of one nanosecond at two instructions per nanosecond, from count 3. -/
def slowBudget : AgendaInputs where
  startIcount := 3
  scheduledInputs := []
  injections := []
  epochLen := none
  goalPollPeriod := none
  finalStop := .vnsBudget 1
  clock := ⟨1, 2, Nat.one_pos, Nat.two_pos⟩

lemma slowBudget_fits : slowBudget.Fits := by
  refine ⟨by decide, by simp [slowBudget], by simp [slowBudget], ?_, ?_, by decide, by decide⟩ <;>
    · intro n hn
      cases hn

theorem clock_conversions_slowBudget :
    slowBudget.Fits ∧ AgendaIter.finalOf slowBudget = some (4, .budget) ∧
      IsLeast {i | 3 ≤ i ∧ slowBudget.clock.image 3 + 1 ≤ slowBudget.clock.image i} 4 := by
  obtain ⟨-, n, hleast, -, hend, -⟩ := clock_conversions_adjoint slowBudget slowBudget_fits 1 rfl
  have hfinal : AgendaIter.finalOf slowBudget = some (4, .budget) := by decide
  have hn : 4 = n := hend 4 .budget hfinal
  subst hn
  exact ⟨slowBudget_fits, hfinal, hleast⟩

inductive OverflowChecks where
  | panics
  | wraps
  deriving DecidableEq

def plusOne {ε : Type} (checks : OverflowChecks) (n : ℕ) : Exec ε ℕ :=
  if n + 1 < 2 ^ 64 then .ok (n + 1)
  else match checks with
    | .panics => .error .panic
    | .wraps => .ok ((n + 1) % 2 ^ 64)

inductive ClockOverflow where
  | clockOverflow
  deriving DecidableEq

def timerToInjectionU64 (checks : OverflowChecks) (timer : TimerArm) (clock : ClockRatio)
    (startIcount : ℕ) : Exec ClockOverflow ScheduledInjection := do
  let icount ← (clock.icountForVnsTarget timer.deadlineVns).elim (reject .clockOverflow) .ok
  let next ← plusOne checks startIcount
  .ok ⟨max icount next, timer.vector⟩

variable {ε : Type} {n : ℕ}

lemma plusOne_eq_ok {checks : OverflowChecks} (h : n + 1 < 2 ^ 64) :
    plusOne checks n = (.ok (n + 1) : Exec ε ℕ) := if_pos h

lemma plusOne_panics (h : ¬n + 1 < 2 ^ 64) :
    plusOne .panics n = (.error .panic : Exec ε ℕ) := if_neg h

lemma plusOne_wraps (h : ¬n + 1 < 2 ^ 64) :
    plusOne .wraps n = (.ok ((n + 1) % 2 ^ 64) : Exec ε ℕ) := if_neg h

section Timers

variable {checks : OverflowChecks} {timer : TimerArm} {clock : ClockRatio} {start : ℕ}

lemma timerToInjectionU64_of_overflow (h : 2 ^ 64 ≤ clock.reaches timer.deadlineVns) :
    timerToInjectionU64 checks timer clock start = reject .clockOverflow := by
  rw [timerToInjectionU64, ClockRatio.icountForVnsTarget_eq_none_iff.mpr h]
  rfl

lemma timerToInjectionU64_of_lt (h : clock.reaches timer.deadlineVns < 2 ^ 64) :
    timerToInjectionU64 checks timer clock start = (do
      let next ← plusOne checks start
      .ok ⟨max (clock.reaches timer.deadlineVns) next, timer.vector⟩) := by
  rw [timerToInjectionU64, ClockRatio.icountForVnsTarget_eq_some_iff.mpr ⟨rfl, h⟩]
  rfl

lemma timerToInjectionU64_of_start (h : clock.reaches timer.deadlineVns < 2 ^ 64)
    (hstart : start + 1 < 2 ^ 64) : timerToInjectionU64 checks timer clock start =
      .ok ⟨max (clock.reaches timer.deadlineVns) (start + 1), timer.vector⟩ := by
  rw [timerToInjectionU64_of_lt h, plusOne_eq_ok hstart]
  rfl

lemma timerToInjection_eq {H σ X : Type} {P : Platform H σ X} (hstart : start + 1 < 2 ^ 64) :
    timerToInjection P start timer =
      (timerToInjectionU64 checks timer P.config.clock start).toOption := by
  rw [timerToInjection]
  by_cases h : P.config.clock.reaches timer.deadlineVns < 2 ^ 64
  · rw [timerToInjectionU64_of_start h hstart,
      ClockRatio.icountForVnsTarget_eq_some_iff.mpr ⟨rfl, h⟩]
    rfl
  · rw [timerToInjectionU64_of_overflow (not_lt.mp h),
      ClockRatio.icountForVnsTarget_eq_none_iff.mpr (not_lt.mp h)]
    rfl

end Timers

/-- The outcome is the larger of `start + 1` and the least count that reaches the
deadline, or the clock error if that is no `u64`. -/
def ConvertsTimer (timer : TimerArm) (clock : ClockRatio) (start : ℕ) :
    Exec ClockOverflow ScheduledInjection → Prop
  | .ok injection => ∃ least, IsLeast {m | timer.deadlineVns ≤ clock.image m} least ∧
      injection = ⟨max (start + 1) least, timer.vector⟩ ∧ max (start + 1) least < 2 ^ 64
  | .error (.error .clockOverflow) => ∃ least,
      IsLeast {m | timer.deadlineVns ≤ clock.image m} least ∧ 2 ^ 64 ≤ max (start + 1) least
  | .error .panic => False
  | .error .stuck => False

/-- The conversion is right unless the run starts at the last `u64` and the
deadline has a count; a start between the first one and the firing point leads to
the same point. -/
theorem timer_conversion_iff (checks : OverflowChecks) (timer : TimerArm) (clock : ClockRatio)
    (start : ℕ) (hstart : start < 2 ^ 64) :
    (ConvertsTimer timer clock start (timerToInjectionU64 checks timer clock start) ↔
      ¬(start = 2 ^ 64 - 1 ∧ ∃ m < 2 ^ 64, timer.deadlineVns ≤ clock.image m)) ∧
    ∀ injection start', timerToInjectionU64 checks timer clock start = .ok injection →
      start ≤ start' → start' < injection.icount →
      timerToInjectionU64 checks timer clock start' = .ok injection := by
  have hleast := clock.isLeast_reaches timer.deadlineVns
  have hreached : (∃ m < 2 ^ 64, timer.deadlineVns ≤ clock.image m) ↔
      clock.reaches timer.deadlineVns < 2 ^ 64 :=
    ⟨fun ⟨m, hm, hreach⟩ => (hleast.2 hreach).trans_lt hm, fun h => ⟨_, h, hleast.1⟩⟩
  rw [hreached]
  by_cases hcount : clock.reaches timer.deadlineVns < 2 ^ 64
  · by_cases hlast : start + 1 < 2 ^ 64
    · rw [timerToInjectionU64_of_start hcount hlast]
      refine ⟨⟨fun _ => by omega, fun _ => ⟨_, hleast, by rw [max_comm], max_lt hlast hcount⟩⟩, ?_⟩
      rintro _ start' ⟨⟩ hle hfires
      have hfires : start' < max (clock.reaches timer.deadlineVns) (start + 1) := hfires
      rw [timerToInjectionU64_of_start hcount (by omega), Except.ok.injEq,
        ScheduledInjection.mk.injEq]
      exact ⟨by omega, rfl⟩
    · have hover : ¬max (start + 1) (clock.reaches timer.deadlineVns) < 2 ^ 64 := by omega
      have hstays : (start = 2 ^ 64 - 1 ∧ clock.reaches timer.deadlineVns < 2 ^ 64) :=
        ⟨by omega, hcount⟩
      rw [timerToInjectionU64_of_lt hcount]
      cases checks with
      | panics =>
        rw [plusOne_panics hlast]
        exact ⟨⟨False.elim, fun h => h hstays⟩, fun _ _ h => by cases h⟩
      | wraps =>
        rw [plusOne_wraps hlast]
        refine ⟨⟨fun ⟨least, hleast', _, hlt⟩ => ?_, fun h => absurd hstays h⟩, ?_⟩
        · exact absurd (hleast'.unique hleast ▸ hlt) hover
        · rintro _ start' ⟨⟩ hle hfires
          have hfires : start' < max (clock.reaches timer.deadlineVns) ((start + 1) % 2 ^ 64) :=
            hfires
          omega
  · rw [timerToInjectionU64_of_overflow (not_lt.mp hcount)]
    refine ⟨⟨fun _ h => hcount h.2, fun _ => ⟨_, hleast, ?_⟩⟩, fun _ _ h => by cases h⟩
    exact (not_lt.mp hcount).trans (le_max_right _ _)

/-- A timer at nanosecond 7 on a clock of two instructions per nanosecond. -/
theorem timer_conversion_from_five :
    timerToInjectionU64 .panics ⟨7, 0x30⟩ slowBudget.clock 5 = .ok ⟨14, 0x30⟩ ∧
      ConvertsTimer ⟨7, 0x30⟩ slowBudget.clock 5
        (timerToInjectionU64 .panics ⟨7, 0x30⟩ slowBudget.clock 5) ∧
      timerToInjectionU64 .panics ⟨7, 0x30⟩ slowBudget.clock 13 = .ok ⟨14, 0x30⟩ := by
  have hfires : timerToInjectionU64 .panics ⟨7, 0x30⟩ slowBudget.clock 5 = .ok ⟨14, 0x30⟩ := by
    decide
  obtain ⟨hconverts, hsplit⟩ :=
    timer_conversion_iff .panics ⟨7, 0x30⟩ slowBudget.clock 5 (by decide)
  refine ⟨hfires, hconverts.mpr fun h => absurd h.1 (by decide), ?_⟩
  exact hsplit _ 13 hfires (by decide) (by decide)

/-- At the last `u64` the addition panics, or wraps and the timer fires at a count
that is already past. -/
theorem timer_conversion_last :
    timerToInjectionU64 .panics ⟨7, 0x30⟩ .default (2 ^ 64 - 1) = .error .panic ∧
      timerToInjectionU64 .wraps ⟨7, 0x30⟩ .default (2 ^ 64 - 1) = .ok ⟨7, 0x30⟩ ∧
      ∀ checks, ¬ConvertsTimer ⟨7, 0x30⟩ .default (2 ^ 64 - 1)
        (timerToInjectionU64 checks ⟨7, 0x30⟩ .default (2 ^ 64 - 1)) := by
  have hpanics : timerToInjectionU64 .panics ⟨7, 0x30⟩ .default (2 ^ 64 - 1) = .error .panic := by
    decide
  have hwraps : timerToInjectionU64 .wraps ⟨7, 0x30⟩ .default (2 ^ 64 - 1) = .ok ⟨7, 0x30⟩ := by
    decide
  refine ⟨hpanics, hwraps, fun checks => ?_⟩
  cases checks with
  | panics =>
    rw [hpanics]
    exact id
  | wraps =>
    rw [hwraps]
    rintro ⟨least, -, -, hlt⟩
    omega

end DetHypervisor
