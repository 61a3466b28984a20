import Mathlib.Tactic

/-!
# Loops that run until a step says stop

A loop is a step function into `next` or `done`, run under a bound on its steps. More fuel never
changes an answer, an invariant of the step holds of the answer, and related steps give related
answers.
-/

namespace Fuel

/-- One turn of a loop: go round again, or leave with a result. -/
inductive Step (α : Type*) (ρ : Type*) where
  | next (a : α)
  | done (r : ρ)

variable {α β ρ π : Type*}
  {I : α → Prop} {Q : ρ → Prop} {c : α} {m n : ℕ} {r' : ρ} {step : α → Step α ρ}
  {step' : β → Step β π}

/-- `N` holds of the state a turn goes on with, `D` of what it leaves with. -/
def Step.Post (N : α → Prop) (D : ρ → Prop) : Step α ρ → Prop
  | .next a => N a
  | .done r => D r

namespace Step.Post

variable {N N' : α → Prop} {D D' : ρ → Prop} {x : Step α ρ}

variable (h : x.Post N D)
include h

lemma of_next {a : α} (hx : x = .next a) : N a := by
  subst hx
  exact h

lemma of_done {r : ρ} (hx : x = .done r) : D r := by
  subst hx
  exact h

lemma mono (hN : ∀ a, N a → N' a) (hD : ∀ r, D r → D' r) : x.Post N' D' := by
  cases x with
  | next a => exact hN a h
  | done r => exact hD r h

lemma done_imp (hD : ∀ r, D r → D' r) : x.Post N D' := h.mono (fun _ h => h) hD

end Step.Post

def run (step : α → Step α ρ) : ℕ → α → Option ρ
  | 0, _ => none
  | n + 1, a =>
    match step a with
    | .next a' => run step n a'
    | .done r => some r

lemma run_succ_next {a a' : α} (h : step a = .next a') (n : ℕ) :
    run step (n + 1) a = run step n a' := by
  simp only [run, h]

variable {r : ρ}

lemma run_succ_done {a : α} (h : step a = .done r) (n : ℕ) : run step (n + 1) a = some r := by
  simp only [run, h]

lemma run_mono {a : α} (h : run step n a = some r) (hnm : n ≤ m) : run step m a = some r := by
  induction n generalizing m a with
  | zero => cases h
  | succ n ih =>
    obtain ⟨k, rfl⟩ : ∃ k, m = k + 1 := ⟨m - 1, by omega⟩
    cases hs : step a with
    | next a' =>
      rw [run_succ_next hs] at h ⊢
      exact ih h (by omega)
    | done r' =>
      rw [run_succ_done hs] at h ⊢
      exact h

lemma run_induction (hnext : ∀ a a', I a → step a = .next a' → I a')
    (hdone : ∀ a r, I a → step a = .done r → Q r) {a : α} (ha : I a)
    (h : run step n a = some r) : Q r := by
  induction n generalizing a with
  | zero => cases h
  | succ n ih =>
    cases hs : step a with
    | next a' =>
      rw [run_succ_next hs] at h
      exact ih (hnext a a' ha hs) h
    | done r' =>
      rw [run_succ_done hs, Option.some.injEq] at h
      exact h ▸ hdone a r' ha hs

lemma run_induction_count {I : ℕ → α → Prop}
    (hnext : ∀ k a a', k < n → I k a → step a = .next a' → I (k + 1) a')
    (hdone : ∀ k a r, k < n → I k a → step a = .done r → Q r) {a : α} (ha : I 0 a)
    (h : run step n a = some r) : Q r := by
  suffices hgen : ∀ m k a, k + m ≤ n → I k a → run step m a = some r → Q r from
    hgen n 0 a (by omega) ha h
  intro m
  induction m with
  | zero => intro k a _ _ h; cases h
  | succ m ih =>
    intro k a hkm hk h
    cases hs : step a with
    | next a' =>
      rw [run_succ_next hs] at h
      exact ih (k + 1) a' (by omega) (hnext k a a' (by omega) hk hs) h
    | done r' =>
      rw [run_succ_done hs, Option.some.injEq] at h
      exact h ▸ hdone k a r' (by omega) hk hs

inductive Path (step : α → Step α ρ) : ℕ → α → α → Prop where
  | refl (a : α) : Path step 0 a a
  | tail {n : ℕ} {a b c : α} (h : Path step n a b) (hs : step b = .next c) :
      Path step (n + 1) a c

lemma Path.run {a b : α} (h : Path step n a b) (m : ℕ) : run step (n + m) a = run step m b := by
  induction h generalizing m with
  | refl a => rw [Nat.zero_add]
  | @tail n a b c h hs ih =>
    rw [Nat.add_right_comm, Nat.add_assoc, ih, run_succ_next hs]

lemma exists_path_of_run {a : α} (h : run step n a = some r) :
    ∃ k b, k < n ∧ Path step k a b ∧ step b = .done r := by
  refine run_induction_count (I := fun k b => Path step k a b)
    (Q := fun r => ∃ k b, k < n ∧ Path step k a b ∧ step b = .done r) ?_ ?_ (.refl a) h
  · intro k b c _ hpath hs
    exact hpath.tail hs
  · intro k b r hk hpath hs
    exact ⟨k, b, hk, hpath, hs⟩

lemma exists_path_of_run_eq_none {a : α} (h : run step n a = none) : ∃ b, Path step n a b := by
  suffices hgen : ∀ m k b, k + m = n → Path step k a b → run step m b = none →
      ∃ c, Path step n a c from hgen n 0 a (by omega) (.refl a) h
  intro m
  induction m with
  | zero =>
    intro k b hk hpath _
    exact ⟨b, (Nat.add_zero k ▸ hk) ▸ hpath⟩
  | succ m ih =>
    intro k b hk hpath h
    cases hs : step b with
    | next c =>
      rw [run_succ_next hs] at h
      exact ih (k + 1) c (by omega) (hpath.tail hs) h
    | done r =>
      rw [run_succ_done hs] at h
      cases h

lemma Path.answer_eq {a b : α} (h : Path step n a b) (hs : step b = .done r)
    (hrun : Fuel.run step m a = some r') : r' = r := by
  have hanswer : Fuel.run step (n + 1) a = some r := (h.run 1).trans (run_succ_done hs 0)
  have hleft := run_mono hanswer (Nat.le_add_right (n + 1) m)
  have hright := run_mono hrun (Nat.le_add_left m (n + 1))
  exact Option.some.inj (hright.symm.trans hleft)

lemma Path.eq_of_done {a b : α} (h : Path step n a b) (hs : step a = .done r) : a = b := by
  induction h with
  | refl => rfl
  | @tail n a b c _ hb ih =>
    rw [← ih hs, hs] at hb
    cases hb

lemma Path.onward {a b : α} (h : Path step n a b) (h' : Path step m a c) (hle : n ≤ m) :
    Path step (m - n) b c := by
  induction h' generalizing n b with
  | refl =>
    obtain rfl : n = 0 := Nat.le_zero.mp hle
    cases h
    exact .refl _
  | @tail m a c d _ hd ih =>
    rcases hle.eq_or_lt with rfl | hlt
    · cases h with
      | tail h hb =>
        have hsame := ih h le_rfl
        rw [Nat.sub_self] at hsame ⊢
        cases hsame
        obtain rfl := Step.next.inj (hb.symm.trans hd)
        exact .refl _
    · rw [Nat.succ_sub (Nat.lt_succ_iff.mp hlt)]
      exact (ih h (Nat.lt_succ_iff.mp hlt)).tail hd

lemma Path.end_eq {a b : α} (h : Path step n a b) (hb : step b = .done r)
    (h' : Path step m a c) (hc : step c = .done r') : b = c := by
  rcases le_total n m with hle | hle
  · exact (h.onward h' hle).eq_of_done hb
  · exact ((h'.onward h hle).eq_of_done hc).symm

lemma Path.preserves (hnext : ∀ a a', I a → step a = .next a' → I a') {a b : α}
    (h : Path step n a b) (ha : I a) : I b := by
  induction h with
  | refl => exact ha
  | tail _ hs ih => exact hnext _ _ (ih ha) hs

def Step.map (f : α → β) (g : ρ → π) : Step α ρ → Step β π
  | .next a => .next (f a)
  | .done r => .done (g r)

lemma run_map {f : α → β} {g : ρ → π} (hstep : ∀ a, step' (f a) = (step a).map f g) (n : ℕ)
    (a : α) : run step' n (f a) = (run step n a).map g := by
  induction n generalizing a with
  | zero => rfl
  | succ n ih =>
    have hs := hstep a
    cases ha : step a with
    | next a' =>
      rw [ha] at hs
      rw [run_succ_next ha, run_succ_next hs, ih]
    | done r =>
      rw [ha] at hs
      rw [run_succ_done ha, run_succ_done hs]
      rfl

end Fuel
