import Mathlib.Tactic

/-!
# What a queue of timed items owes

Items come in, each with the time it is due, and a clock ticks. A queue is
honoured when every tick serves what is due by then, in the order in which it
came in, and nothing else.
-/

inductive OwedEvent (α : Type*) where
  | accept (items : List α)
  | tick (time : ℕ) (served : List α)

namespace OwedEvent

variable {α : Type*}

def accepted : OwedEvent α → List α
  | accept items => items
  | tick _ _ => []

def isTick : OwedEvent α → Bool
  | accept _ => false
  | tick _ _ => true

def time? : OwedEvent α → Option ℕ
  | accept _ => none
  | tick time _ => some time

end OwedEvent

namespace Owed

variable {α : Type*} (due : α → ℕ)

def owed : List α → List (OwedEvent α) → List α
  | waiting, [] => waiting
  | waiting, .accept items :: es => owed (waiting ++ items) es
  | waiting, .tick time _ :: es => owed (waiting.filter fun x => decide (time < due x)) es

def Honoured : List α → List (OwedEvent α) → Prop
  | _, [] => True
  | waiting, .accept items :: es => Honoured (waiting ++ items) es
  | waiting, .tick time served :: es =>
    served = waiting.filter (fun x => decide (due x ≤ time)) ∧
      Honoured (waiting.filter fun x => decide (time < due x)) es

def Timely : List (OwedEvent α) → Prop
  | [] => True
  | .accept _ :: es => Timely es
  | .tick time _ :: es => (∀ x ∈ es.flatMap OwedEvent.accepted, time < due x) ∧ Timely es

variable {due} {waiting : List α} {es es' : List (OwedEvent α)}

lemma owed_append : owed due waiting (es ++ es') = owed due (owed due waiting es) es' := by
  induction es generalizing waiting with
  | nil => rfl
  | cons e es ih => cases e <;> exact ih

lemma honoured_append : Honoured due waiting (es ++ es') ↔
      Honoured due waiting es ∧ Honoured due (owed due waiting es) es' := by
  induction es generalizing waiting with
  | nil => exact (iff_of_eq (true_and _)).symm
  | cons e es ih =>
    cases e with
    | accept items => exact ih
    | tick time served => exact (and_congr_right fun _ => ih).trans and_assoc.symm

lemma Honoured.early (h : Honoured due waiting es) (htimely : Timely due es) :
    Honoured due (waiting ++ es.flatMap OwedEvent.accepted) (es.filter OwedEvent.isTick) ∧
      owed due (waiting ++ es.flatMap OwedEvent.accepted) (es.filter OwedEvent.isTick) =
        owed due waiting es := by
  induction es generalizing waiting with
  | nil => simp [Honoured, owed]
  | cons e es ih =>
    cases e with
    | accept items =>
      have hrest := ih h htimely
      rw [List.append_assoc] at hrest
      exact hrest
    | tick time served =>
      obtain ⟨hserved, hrest⟩ := h
      obtain ⟨hlate, htimely⟩ := htimely
      have hnone : (es.flatMap OwedEvent.accepted).filter
          (fun x => decide (due x ≤ time)) = [] := by
        refine List.filter_eq_nil_iff.mpr fun x hx => ?_
        simpa using hlate x hx
      have hall : (es.flatMap OwedEvent.accepted).filter
          (fun x => decide (time < due x)) = es.flatMap OwedEvent.accepted := by
        refine List.filter_eq_self.mpr fun x hx => ?_
        simpa using hlate x hx
      obtain ⟨hticks, howed⟩ := ih hrest htimely
      refine ⟨⟨?_, ?_⟩, ?_⟩
      · change served = ((waiting ++ es.flatMap OwedEvent.accepted).filter _)
        rw [List.filter_append, hnone, List.append_nil, hserved]
      · change Honoured due ((waiting ++ es.flatMap OwedEvent.accepted).filter _) _
        rw [List.filter_append, hall]
        exact hticks
      · change owed due ((waiting ++ es.flatMap OwedEvent.accepted).filter _) _ =
          owed due (waiting.filter _) es
        rw [List.filter_append, hall]
        exact howed

lemma Honoured.eq_of_times (h : Honoured due waiting es) (h' : Honoured due waiting es')
    (htick : ∀ e ∈ es, e.isTick = true) (htick' : ∀ e ∈ es', e.isTick = true)
    (htimes : es.map OwedEvent.time? = es'.map OwedEvent.time?) : es = es' := by
  induction es generalizing waiting es' with
  | nil => exact (List.map_eq_nil_iff.mp htimes.symm).symm
  | cons e es ih =>
    cases es' with
    | nil => cases htimes
    | cons e' es' =>
      rw [List.forall_mem_cons] at htick htick'
      obtain ⟨htime, hrestTimes⟩ := List.cons.inj htimes
      cases e with
      | accept items => cases htick.1
      | tick time served =>
        cases e' with
        | accept items => cases htick'.1
        | tick time' served' =>
          cases htime
          obtain ⟨hserved, hrest⟩ := h
          obtain ⟨hserved', hrest'⟩ := h'
          rw [hserved, hserved', ih hrest hrest' htick.2 htick'.2 hrestTimes]

end Owed
