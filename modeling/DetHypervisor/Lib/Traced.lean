import Mathlib.Tactic

/-!
# Labelled traces

A system moves by labelled steps; a trace is the list of labels of a finite
run.
-/

variable {S L : Type*} {step : L → S → S → Prop}

/-- `Traced step ls s s'`: steps labelled `ls`, one after the other, lead from
`s` to `s'`. -/
inductive Traced (step : L → S → S → Prop) : List L → S → S → Prop where
  | nil (s : S) : Traced step [] s s
  | cons {l : L} {ls : List L} {s s1 s' : S} (hl : step l s s1) (h : Traced step ls s1 s') :
      Traced step (l :: ls) s s'

namespace Traced

variable {l : L} {ls ls' : List L} {s s' s1 : S}

lemma single (h : step l s s') : Traced step [l] s s' := .cons h (.nil s')

lemma append (h : Traced step ls s s1) (h' : Traced step ls' s1 s') :
    Traced step (ls ++ ls') s s' := by
  induction h with
  | nil s => exact h'
  | cons hl _ ih => exact .cons hl (ih h')

lemma snoc_replicate {n : ℕ} (h : Traced step (List.replicate n l) s s1) (hl : step l s1 s') :
    Traced step (List.replicate (n + 1) l) s s' := by
  rw [List.replicate_succ']
  exact h.append (.single hl)

lemma split (h : Traced step (ls ++ ls') s s') :
    ∃ s1, Traced step ls s s1 ∧ Traced step ls' s1 s' := by
  induction ls generalizing s with
  | nil => exact ⟨s, .nil s, h⟩
  | cons l ls ih =>
    cases h with
    | cons hl h =>
      obtain ⟨s1, hfirst, hrest⟩ := ih h
      exact ⟨s1, .cons hl hfirst, hrest⟩

lemma induct {I : List L → S → Prop} (h : Traced step ls s s') (hs : I [] s)
    (hstep : ∀ {ls l s1 s2}, Traced step ls s s1 → I ls s1 → step l s1 s2 → I (ls ++ [l]) s2) :
    I ls s' := by
  induction h generalizing I with
  | nil s => exact hs
  | @cons l ls s s1 s' hl _ ih =>
    refine ih (I := fun ls s => I (l :: ls) s) (hstep (.nil s) hs hl) ?_
    exact fun h hI hl' => hstep (.cons hl h) hI hl'

lemma invariant {I : S → Prop} (h : Traced step ls s s')
    (hstep : ∀ l ∈ ls, ∀ s s', step l s s' → I s → I s') (hs : I s) : I s' := by
  induction h with
  | nil s => exact hs
  | @cons l ls s s1 s' hl _ ih =>
    refine ih (fun l' hl' => hstep l' (List.mem_cons_of_mem l hl')) ?_
    exact hstep l List.mem_cons_self _ _ hl hs

end Traced
