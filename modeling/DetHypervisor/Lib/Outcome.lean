import Mathlib.Tactic

/-!
# Sequencing of fallible steps

How a `do` block over `Except` decomposes into its steps, and the rules of
postconditions: `Post A B` says that success gives `A` and failure gives `B`.
-/

namespace Except

universe u v

variable {ε : Type u} {α β : Type v} {b : β} {f : α → Except ε β} {x : Except ε α}

@[simp] lemma ok_bind (a : α) (f : α → Except ε β) : (Except.ok a >>= f) = f a := rfl

@[simp] lemma error_bind (e : ε) (f : α → Except ε β) :
    ((Except.error e : Except ε α) >>= f) = .error e := rfl

lemma bind_eq_ok : x >>= f = .ok b ↔ ∃ a, x = .ok a ∧ f a = .ok b := by
  cases x with
  | error | ok => simp

lemma map_eq_ok {f : α → β} : x.map f = .ok b ↔ ∃ a, x = .ok a ∧ f a = b := by
  cases x with
  | error | ok => simp [Except.map]

lemma mapError_eq_ok {ε' : Type*} {f : ε → ε'} {a : α} : x.mapError f = .ok a ↔ x = .ok a := by
  cases x with
  | error | ok => simp [Except.mapError]

lemma exists_eq_ok (h : x.toOption.isSome = true) : ∃ a, x = .ok a := by
  cases x with
  | error e => cases h
  | ok a => exact ⟨a, rfl⟩

lemma mapM_eq_ok {xs : List α} {ys : List β} :
    xs.mapM f = .ok ys ↔ List.Forall₂ (fun x y => f x = .ok y) xs ys := by
  induction xs generalizing ys with
  | nil => simp [pure, Except.pure, eq_comm]
  | cons x xs ih =>
    simp only [List.mapM_cons, bind_eq_ok, ih, pure, Except.pure, Except.ok.injEq]
    constructor
    · rintro ⟨y, hy, ys, hys, rfl⟩
      exact .cons hy hys
    · intro h
      cases h with
      | cons hy hys => exact ⟨_, hy, _, hys, rfl⟩

lemma foldlM_induct {σ : Type v} {f : σ → α → Except ε σ} {I : List α → σ → Prop} {s0 s : σ}
    {l : List α} (hzero : I [] s0)
    (hstep : ∀ pre s a s', I pre s → f s a = .ok s' → I (pre ++ [a]) s')
    (h : l.foldlM f s0 = .ok s) : I l s := by
  suffices hgen : ∀ pre t, I pre t → l.foldlM f t = .ok s → I (pre ++ l) s from
    hgen [] s0 hzero h
  clear h hzero
  induction l with
  | nil =>
    intro pre t ht h
    cases h
    rwa [List.append_nil]
  | cons a l ih =>
    intro pre t ht h
    rw [List.foldlM_cons, bind_eq_ok] at h
    obtain ⟨t', ha, hl⟩ := h
    simpa using ih (pre ++ [a]) t' (hstep pre t a t' ht ha) hl

def bimap {ε' : Type u} {α' : Type v} (g : ε → ε') (f : α → α') : Except ε α → Except ε' α'
  | .ok a => .ok (f a)
  | .error e => .error (g e)

lemma bimap_bind {ε' : Type u} {α' β' : Type v} {g : ε → ε'} {f : α → α'} {f' : β → β'}
    {k : α → Except ε β} {k' : α' → Except ε' β'} (h : ∀ a, k' (f a) = (k a).bimap g f') :
    x.bimap g f >>= k' = (x >>= k).bimap g f' := by
  cases x with
  | ok a => exact h a
  | error e => rfl

def Post (A : α → Prop) (B : ε → Prop) : Except ε α → Prop
  | .ok a => A a
  | .error e => B e

namespace Post

variable {A : α → Prop} {B : ε → Prop}

lemma of_ok {a : α} (h : Post A B x) (hx : x = .ok a) : A a := by
  subst hx
  exact h

lemma of_error {e : ε} (h : Post A B x) (hx : x = .error e) : B e := by
  subst hx
  exact h

lemma exists_ok (h : Post A (fun _ => False) x) : ∃ a, x = .ok a ∧ A a := by
  cases x with
  | ok a => exact ⟨a, rfl, h⟩
  | error e => exact h.elim

lemma keep (h : Post A B x) : Post (fun a => x = .ok a ∧ A a) B x := by
  cases x with
  | ok a => exact ⟨rfl, h⟩
  | error e => exact h

variable {A' : α → Prop} {B' : ε → Prop}

variable (h : Post A B x)
include h

lemma mono (hA : ∀ a, A a → A' a) (hB : ∀ e, B e → B' e) : Post A' B' x := by
  cases x with
  | ok a => exact hA a h
  | error e => exact hB e h

lemma imp (hA : ∀ a, A a → A' a) : Post A' B x := h.mono hA fun _ h => h

lemma bind {A' : β → Prop} (hf : ∀ a, x = .ok a → A a → Post A' B' (f a)) (hB : ∀ e, B e → B' e) :
    Post A' B' (x >>= f) := by
  cases x with
  | ok a => exact hf a rfl h
  | error e => exact hB e h

lemma andThen {f : α → Except ε β} {A' : β → Prop}
    (hf : ∀ a, x = .ok a → A a → Post A' B (f a)) : Post A' B (x >>= f) := h.bind hf fun _ h => h

end Post

end Except
