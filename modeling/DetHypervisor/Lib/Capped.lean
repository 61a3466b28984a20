import DetHypervisor.Lib.Fuel
import DetHypervisor.Lib.Outcome

/-!
# Running under a cap

A run with a cap on a rising level does what the free run does as long as the level stays below
the cap, and fails once it has reached it.
-/

namespace Except

universe u v

variable {ε : Type u} {α β : Type v}

def levelOf (failLevel : ε → Option ℕ) (level : α → ℕ) : Except ε α → Option ℕ
  | .ok a => some (level a)
  | .error e => failLevel e

/-- The free run `x` and the capped run `y`, both from the level `start`. -/
structure Capped (failLevel : ε → Option ℕ) (full : ε) (cap start : ℕ) (level : α → ℕ)
    (x y : Except ε α) : Prop where
  grows : ∀ k, levelOf failLevel level x = some k → start ≤ k
  capped : start < cap →
    (y = x ∧ ∀ k, levelOf failLevel level x = some k → k < cap) ∨
      (y = .error full ∧ ∀ k, levelOf failLevel level x = some k → cap ≤ k)

namespace Capped

variable {failLevel : ε → Option ℕ} {full : ε} {cap start : ℕ} {level : α → ℕ}
  {x y : Except ε α} {f g : α → Except ε β} {level' : β → ℕ} {start' : ℕ}

lemma same (hx : ∀ k, levelOf failLevel level x = some k → k = start) :
    Capped failLevel full cap start level x x :=
  ⟨fun k hk => (hx k hk).ge, fun hlt => .inl ⟨rfl, fun k hk => (hx k hk).trans_lt hlt⟩⟩

lemma ok {a : α} (h : level a = start) : Capped failLevel full cap start level (.ok a) (.ok a) :=
  same fun _ hk => (Option.some.inj hk).symm.trans h

lemma fail {e : ε} (h : failLevel e = none) :
    Capped failLevel full cap start level (.error e) (.error e) :=
  same fun k hk => by cases h.symm.trans hk

lemma bind (h : Capped failLevel full cap start level x y)
    (hf : ∀ a, x = .ok a → Capped failLevel full cap (level a) level' (f a) (g a)) :
    Capped failLevel full cap start level' (x >>= f) (y >>= g) := by
  cases x with
  | error e =>
    refine ⟨h.grows, fun hlt => ?_⟩
    rcases h.capped hlt with ⟨rfl, hbelow⟩ | ⟨rfl, habove⟩
    · exact .inl ⟨rfl, hbelow⟩
    · exact .inr ⟨rfl, habove⟩
  | ok a =>
    have hrest := hf a rfl
    refine ⟨fun k hk => (h.grows _ rfl).trans (hrest.grows k hk), fun hlt => ?_⟩
    rcases h.capped hlt with ⟨rfl, hbelow⟩ | ⟨rfl, habove⟩
    · exact hrest.capped (hbelow _ rfl)
    · exact .inr ⟨rfl, fun k hk => (habove _ rfl).trans (hrest.grows k hk)⟩

lemma seq (level : α → ℕ) (h : Capped failLevel full cap start level x y)
    (hf : ∀ a, x = .ok a → Capped failLevel full cap (level a) level' (f a) (g a)) :
    Capped failLevel full cap start level' (x >>= f) (y >>= g) := h.bind hf

lemma map {f : α → β} (h : Capped failLevel full cap start level x y)
    (hf : ∀ a, level' (f a) = level a) :
    Capped failLevel full cap start level' (x.map f) (y.map f) := by
  have hmap (z : Except ε α) : z.map f = z >>= fun a => .ok (f a) := by cases z <;> rfl
  rw [hmap, hmap]
  exact h.bind fun a _ => ok (hf a)

lemma of_le (h : Capped failLevel full cap start' level x y) (hle : start ≤ start')
    (hlt : start < cap → start' < cap) : Capped failLevel full cap start level x y :=
  ⟨fun k hk => hle.trans (h.grows k hk), fun hstart => h.capped (hlt hstart)⟩

lemma of_full (h : Capped failLevel full cap start' level x y) (hle : start ≤ start')
    (hcap : cap ≤ start') : Capped failLevel full cap start level x (.error full) :=
  ⟨fun k hk => hle.trans (h.grows k hk), fun _ => .inr ⟨rfl, fun k hk => hcap.trans (h.grows k hk)⟩⟩

def turn : Fuel.Step α (Except ε β) → Except ε (α ⊕ β)
  | .next a => .ok (.inl a)
  | .done (.ok b) => .ok (.inr b)
  | .done (.error e) => .error e

lemma run_eq_bind (step : α → Fuel.Step α (Except ε β)) (out : ε) (n : ℕ) (a : α) :
    (Fuel.run step (n + 1) a).getD (.error out) =
      turn (step a) >>= Sum.elim (fun a' => (Fuel.run step n a').getD (.error out)) .ok := by
  cases hs : step a with
  | next a' => rw [Fuel.run_succ_next hs]; rfl
  | done r =>
    rw [Fuel.run_succ_done hs]
    cases r <;> rfl

lemma run (level : α → ℕ) {step step' : α → Fuel.Step α (Except ε β)} {out : ε}
    (hout : failLevel out = none)
    (hstep : ∀ a, Capped failLevel full cap (level a) (Sum.elim level level')
      (turn (step a)) (turn (step' a))) (n : ℕ) (a : α) :
    Capped failLevel full cap (level a) level' ((Fuel.run step n a).getD (.error out))
      ((Fuel.run step' n a).getD (.error out)) := by
  induction n generalizing a with
  | zero => exact fail hout
  | succ n ih =>
    rw [run_eq_bind, run_eq_bind]
    refine (hstep a).bind fun c _ => ?_
    cases c with
    | inl a' => exact ih a'
    | inr b => exact ok rfl

end Capped

end Except
