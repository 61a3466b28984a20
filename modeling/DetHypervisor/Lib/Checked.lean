import DetHypervisor.Lib.Bytes
import DetHypervisor.Lib.Fuel
import DetHypervisor.Lib.Outcome

/-!
# Computations that can panic

A panic is kept apart from an error, and so is a loop that outlives its bound. `Safely Q x` says
that `x` returns a value with `Q` or an error of its own.
-/

namespace Checked

open Bytes List Except

inductive Trap (ε : Type) where
  | panic
  | stuck
  | error (e : ε)
  deriving DecidableEq

abbrev Exec (ε : Type) := Except (Trap ε)

variable {ε α β ρ : Type}

def Trap.map {ε' : Type} (f : ε → ε') : Trap ε → Trap ε'
  | .panic => .panic
  | .stuck => .stuck
  | .error e => .error (f e)

def reject (e : ε) : Exec ε α := .error (.error e)

def rejectIf (p : Prop) [Decidable p] (e : ε) : Exec ε Unit := if p then reject e else .ok ()

def slice (b : List α) (i j : ℕ) : Exec ε (List α) :=
  if i ≤ j ∧ j ≤ b.length then .ok (Bytes.slice b i j) else .error .panic

def suffix (b : List α) (i : ℕ) : Exec ε (List α) :=
  if i ≤ b.length then .ok (b.drop i) else .error .panic

def index (b : List α) (i : ℕ) : Exec ε α := b[i]?.elim (.error .panic) .ok

def array (n : ℕ) (b : List UInt8) (i j : ℕ) : Exec ε (List.Vector UInt8 n) := do
  let s ← slice b i j
  if h : s.length = n then .ok ⟨s, h⟩ else .error .panic

def word (α : Type) [Word α] (b : List UInt8) (i j : ℕ) : Exec ε α := do
  let s ← array (Word.size α) b i j
  .ok (ofLe α s.toList)

def add (m n : ℕ) : Exec ε ℕ := if m + n < 2 ^ 64 then .ok (m + n) else .error .panic

def addOr (e : ε) (m n : ℕ) : Exec ε ℕ := if m + n < 2 ^ 64 then .ok (m + n) else reject e

def sub (m n : ℕ) : Exec ε ℕ := if n ≤ m then .ok (m - n) else .error .panic

def loop (step : α → Exec ε (Fuel.Step α ρ)) : ℕ → α → Exec ε ρ
  | 0, _ => .error .stuck
  | n + 1, a => do
      match ← step a with
      | .next a' => loop step n a'
      | .done r => .ok r

/-- Run `f` on every element and its index, counted from `i`, and stop at the
first failure. -/
def eachFrom (f : ℕ → α → Exec ε β) : ℕ → List α → Exec ε (List β)
  | _, [] => .ok []
  | i, x :: xs => do
      let y ← f i x
      let ys ← eachFrom f (i + 1) xs
      .ok (y :: ys)

section Values

@[simp] lemma reject_ne_ok (e : ε) (a : α) : (reject e : Exec ε α) ≠ .ok a := by simp [reject]

lemma rejectIf_eq_ok_iff {p : Prop} [Decidable p] {e : ε} {u : Unit} :
    rejectIf p e = .ok u ↔ ¬p := by
  by_cases h : p <;> simp [rejectIf, h]

lemma slice_eq_ok_iff {b s : List α} {i j : ℕ} :
    (slice b i j : Exec ε (List α)) = .ok s ↔ i ≤ j ∧ j ≤ b.length ∧ Bytes.slice b i j = s := by
  by_cases h : i ≤ j ∧ j ≤ b.length
  · simp [slice, h]
  · simp only [slice, if_neg h, reduceCtorEq, false_iff]
    exact fun hs => h ⟨hs.1, hs.2.1⟩

lemma suffix_eq_ok_iff {b s : List α} {i : ℕ} :
    (suffix b i : Exec ε (List α)) = .ok s ↔ i ≤ b.length ∧ b.drop i = s := by
  by_cases h : i ≤ b.length <;> simp [suffix, h]

lemma index_eq_ok_iff {b : List α} {i : ℕ} {a : α} :
    (index b i : Exec ε α) = .ok a ↔ b[i]? = some a := by
  cases h : b[i]? <;> simp [index, h]

lemma array_eq_ok_iff {n : ℕ} {b : List UInt8} {i j : ℕ} {v : List.Vector UInt8 n} :
    (array n b i j : Exec ε (List.Vector UInt8 n)) = .ok v ↔
      i ≤ j ∧ j ≤ b.length ∧ Bytes.slice b i j = v.toList := by
  rw [array, bind_eq_ok]
  constructor
  · rintro ⟨s, hs, hv⟩
    obtain ⟨hij, hj, rfl⟩ := slice_eq_ok_iff.mp hs
    by_cases hlen : (Bytes.slice b i j).length = n
    · rw [dif_pos hlen] at hv
      cases hv
      exact ⟨hij, hj, rfl⟩
    · rw [dif_neg hlen] at hv
      cases hv
  · rintro ⟨hij, hj, hv⟩
    have hlen : (Bytes.slice b i j).length = n := by rw [hv, List.Vector.toList_length]
    refine ⟨_, slice_eq_ok_iff.mpr ⟨hij, hj, rfl⟩, ?_⟩
    rw [dif_pos hlen]
    exact congrArg _ (List.Vector.eq _ _ hv)

lemma word_eq_ok_iff [Word α] {b : List UInt8} {i j : ℕ} {a : α} :
    (word α b i j : Exec ε α) = .ok a ↔ i ≤ j ∧ j ≤ b.length ∧ Bytes.slice b i j = toLe a := by
  rw [word, bind_eq_ok]
  constructor
  · rintro ⟨v, hv, ha⟩
    rw [Except.ok.injEq] at ha
    obtain ⟨hij, hj, hslice⟩ := array_eq_ok_iff.mp hv
    refine ⟨hij, hj, ?_⟩
    rw [hslice, ← ha, toLe_ofLe (List.Vector.toList_length v)]
  · rintro ⟨hij, hj, ha⟩
    refine ⟨⟨toLe a, length_toLe a⟩, array_eq_ok_iff.mpr ⟨hij, hj, ha⟩, ?_⟩
    exact congrArg _ (ofLe_toLe a)

variable {m n k : ℕ}

lemma add_eq_ok_iff : (add m n : Exec ε ℕ) = .ok k ↔ m + n < 2 ^ 64 ∧ m + n = k := by
  by_cases h : m + n < 2 ^ 64
  · rw [add, if_pos h, Except.ok.injEq]
    exact ⟨fun hk => ⟨h, hk⟩, And.right⟩
  · rw [add, if_neg h]
    exact ⟨fun hk => absurd hk (by simp), fun hk => absurd hk.1 h⟩

lemma addOr_eq_ok {m n : ℕ} (h : m + n < 2 ^ 64) (e : ε) : addOr e m n = .ok (m + n) := if_pos h

lemma addOr_eq_ok_iff {e : ε} : addOr e m n = .ok k ↔ m + n < 2 ^ 64 ∧ m + n = k := by
  by_cases h : m + n < 2 ^ 64
  · rw [addOr_eq_ok h, Except.ok.injEq]
    exact ⟨fun hk => ⟨h, hk⟩, And.right⟩
  · rw [addOr, if_neg h]
    exact ⟨fun hk => absurd hk (reject_ne_ok _ _), fun hk => absurd hk.1 h⟩

lemma sub_eq_ok_iff : (sub m n : Exec ε ℕ) = .ok k ↔ n ≤ m ∧ m - n = k := by
  by_cases h : n ≤ m <;> simp [sub, h]

end Values

section Enumeration

variable {f : ℕ → α → Exec ε β}

lemma eachFrom_snoc (i : ℕ) (xs : List α) (x : α) : eachFrom f i (xs ++ [x]) = (do
      let ys ← eachFrom f i xs
      let y ← f (i + xs.length) x
      .ok (ys ++ [y])) := by
  induction xs generalizing i with
  | nil => simp [eachFrom]
  | cons x' xs ih =>
    have hnext : i + 1 + xs.length = i + (xs.length + 1) := by omega
    simp only [cons_append, eachFrom, ih, bind_assoc, ok_bind, length_cons, hnext]

lemma eachFrom_eq_ok_iff {i : ℕ} {xs : List α} {ys : List β} :
    eachFrom f i xs = .ok ys ↔ ys.length = xs.length ∧
      ∀ k x y, xs[k]? = some x → ys[k]? = some y → f (i + k) x = .ok y := by
  induction xs generalizing i ys with
  | nil => simp [eachFrom, eq_comm]
  | cons x xs ih =>
    simp only [eachFrom, bind_eq_ok, ih, Except.ok.injEq]
    constructor
    · rintro ⟨y, hy, ys, ⟨hlen, hys⟩, rfl⟩
      refine ⟨by simp [hlen], fun k x' y' hx' hy' => ?_⟩
      cases k with
      | zero =>
        cases hx'
        cases hy'
        exact hy
      | succ k =>
        rw [← Nat.succ_add_eq_add_succ]
        exact hys k x' y' hx' hy'
    · rintro ⟨hlen, hys⟩
      cases ys with
      | nil => simp at hlen
      | cons y ys =>
        refine ⟨y, hys 0 x y rfl rfl, ys, ⟨by simpa using hlen, fun k x' y' hx' hy' => ?_⟩, rfl⟩
        rw [Nat.succ_add_eq_add_succ]
        exact hys (k + 1) x' y' hx' hy'

lemma exists_eachFrom {i : ℕ} {xs : List α}
    (h : ∀ k x, xs[k]? = some x → ∃ y, f (i + k) x = .ok y) : ∃ ys, eachFrom f i xs = .ok ys := by
  induction xs generalizing i with
  | nil => exact ⟨[], rfl⟩
  | cons x xs ih =>
    obtain ⟨y, hy⟩ := h 0 x rfl
    obtain ⟨ys, hys⟩ := ih (i := i + 1) fun k x' hx' => by
      rw [Nat.succ_add_eq_add_succ]
      exact h (k + 1) x' hx'
    rw [Nat.add_zero] at hy
    exact ⟨y :: ys, by rw [eachFrom, hy, ok_bind, hys, ok_bind]⟩

end Enumeration

/-! Reading at an offset of a concatenation. -/

section Reads

variable {b : List UInt8} {i j : ℕ}

variable {a : List UInt8} {n : ℕ}

lemma array_append (h : a.length ≤ i) (hij : i ≤ j) :
    (array n (a ++ b) i j : Exec ε _) = array n b (i - a.length) (j - a.length) := by
  have hbound : i ≤ j ∧ j ≤ (a ++ b).length ↔
      i - a.length ≤ j - a.length ∧ j - a.length ≤ b.length := by
    rw [length_append]
    omega
  simp only [array, slice, hbound, slice_append_right h]

lemma array_toList_append (v : List.Vector UInt8 n) :
    (array n (v.toList ++ b) 0 n : Exec ε _) = .ok v := by
  have hlen : v.toList.length = n := v.toList_length
  rw [array_eq_ok_iff, slice_append_left hlen.ge, slice_full hlen]
  exact ⟨Nat.zero_le n, by simp, rfl⟩

lemma array_toList (v : List.Vector UInt8 n) : (array n v.toList 0 n : Exec ε _) = .ok v := by
  simpa only [append_nil] using array_toList_append (ε := ε) (b := []) v

lemma array_cons (x : UInt8) (h : 1 ≤ i) (hij : i ≤ j) :
    (array n (x :: b) i j : Exec ε _) = array n b (i - 1) (j - 1) := array_append (a := [x]) h hij

lemma word_append [Word α] (h : a.length ≤ i) (hij : i ≤ j) :
    (word α (a ++ b) i j : Exec ε α) = word α b (i - a.length) (j - a.length) := by
  rw [word, word, array_append h hij]

lemma word_toLe_append [Word α] (a : α) (hj : j = Word.size α) :
    (word α (toLe a ++ b) 0 j : Exec ε α) = .ok a := by
  subst hj
  have hlen := length_toLe a
  rw [word_eq_ok_iff, slice_append_left hlen.ge, slice_full hlen]
  exact ⟨Nat.zero_le _, by simp, rfl⟩

lemma word_toLe [Word α] (a : α) (hj : j = Word.size α) :
    (word α (toLe a) 0 j : Exec ε α) = .ok a := by
  simpa only [append_nil] using word_toLe_append (ε := ε) (b := []) a hj

lemma word_cons [Word α] (x : UInt8) (h : 1 ≤ i) (hij : i ≤ j) :
    (word α (x :: b) i j : Exec ε α) = word α b (i - 1) (j - 1) := word_append (a := [x]) h hij

lemma suffix_append (h : a.length ≤ i) :
    (suffix (a ++ b) i : Exec ε _) = suffix b (i - a.length) := by
  have hbound : i ≤ (a ++ b).length ↔ i - a.length ≤ b.length := by
    rw [length_append]
    omega
  simp only [suffix, hbound, drop_append, drop_eq_nil_of_le h, nil_append]

lemma suffix_zero : (suffix b 0 : Exec ε _) = .ok b := rfl

lemma index_cons_zero (x : UInt8) : (index (x :: b) 0 : Exec ε UInt8) = .ok x := rfl

end Reads

def Trap.Reported (t : Trap ε) : Prop := ∃ e, t = .error e

abbrev Safely (Q : α → Prop) (x : Exec ε α) : Prop := x.Post Q Trap.Reported

namespace Safely

variable {Q : α → Prop} {x : Exec ε α}

lemma ne_panic (h : Safely Q x) : x ≠ .error .panic := by
  rintro rfl
  obtain ⟨e, he⟩ := h
  cases he

lemma ne_stuck (h : Safely Q x) : x ≠ .error .stuck := by
  rintro rfl
  obtain ⟨e, he⟩ := h
  cases he

lemma weaken {R : α → Prop} (h : Safely Q x) (hQR : ∀ a, Q a → R a) : Safely R x :=
  h.mono hQR fun _ ht => ht

lemma map {R : β → Prop} {f : α → β} (h : Safely (R ∘ f) x) : Safely R (x.map f) := by
  cases x with
  | ok | error => exact h

lemma returns {x : Exec Empty α} (h : Safely Q x) : ∃ a, x = .ok a ∧ Q a := by
  apply Except.Post.exists_ok
  apply h.mono fun _ ha => ha
  rintro _ ⟨e, -⟩
  exact e.elim

end Safely

/-! What each operation needs in order not to panic, as rewrite rules for `Safely`. -/

section Rules

variable {Q : α → Prop}

lemma safely_ok {a : α} : Safely Q (.ok a : Exec ε α) ↔ Q a := Iff.rfl

lemma safely_reject {e : ε} : Safely Q (reject e) ↔ True := iff_true_intro ⟨e, rfl⟩

lemma safely_bind {x : Exec ε α} {f : α → Exec ε β} {R : β → Prop} :
    Safely R (x >>= f) ↔ Safely (fun a => Safely R (f a)) x := by
  cases x with
  | ok | error => rfl

lemma safely_rejectIf {p : Prop} [Decidable p] {e : ε} {Q : Unit → Prop} :
    Safely Q (rejectIf p e) ↔ (¬p → Q ()) := by
  by_cases hp : p
  · simp [rejectIf, hp, safely_reject]
  · simp [rejectIf, hp, safely_ok]

lemma safely_ite {p : Prop} [Decidable p] {x y : Exec ε α} (hx : p → Safely Q x)
    (hy : ¬p → Safely Q y) : Safely Q (if p then x else y) := by
  split
  · next hp => exact hx hp
  · next hp => exact hy hp

lemma safely_iff_of_eq_ok {x : Exec ε α} {a : α} (h : x = .ok a) : Safely Q x ↔ Q a := by
  rw [h, safely_ok]

lemma safely_slice {b : List α} {Q : List α → Prop} {i j : ℕ} (hij : i ≤ j)
    (hj : j ≤ b.length) : Safely Q (slice b i j : Exec ε _) ↔ Q (Bytes.slice b i j) :=
  safely_iff_of_eq_ok (slice_eq_ok_iff.mpr ⟨hij, hj, rfl⟩)

lemma safely_suffix {b : List α} {Q : List α → Prop} {i : ℕ} (hi : i ≤ b.length) :
    Safely Q (suffix b i : Exec ε _) ↔ Q (b.drop i) :=
  safely_iff_of_eq_ok (suffix_eq_ok_iff.mpr ⟨hi, rfl⟩)

lemma safely_index {b : List α} {i : ℕ} (hi : i < b.length) :
    Safely Q (index b i : Exec ε α) ↔ Q b[i] :=
  safely_iff_of_eq_ok (index_eq_ok_iff.mpr (List.getElem?_eq_getElem hi))

lemma safely_array {n : ℕ} {b : List UInt8} {i j : ℕ} {Q : List.Vector UInt8 n → Prop}
    (hj : j ≤ b.length) (hn : j = i + n) : Safely Q (array n b i j : Exec ε _) ↔
      Q ⟨Bytes.slice b i j, by rw [length_slice hj]; omega⟩ :=
  safely_iff_of_eq_ok (array_eq_ok_iff.mpr ⟨by omega, hj, rfl⟩)

lemma safely_word [Word α] {b : List UInt8} {i j : ℕ} (hj : j ≤ b.length)
    (hsize : j = i + Word.size α) :
    Safely Q (word α b i j : Exec ε α) ↔ Q (ofLe α (Bytes.slice b i j)) := by
  have hlen : (Bytes.slice b i j).length = Word.size α := by
    rw [length_slice hj]
    omega
  exact safely_iff_of_eq_ok (word_eq_ok_iff.mpr ⟨by omega, hj, (toLe_ofLe hlen).symm⟩)

lemma safely_add {m n : ℕ} {Q : ℕ → Prop} (h : m + n < 2 ^ 64) :
    Safely Q (add m n : Exec ε ℕ) ↔ Q (m + n) := safely_iff_of_eq_ok (add_eq_ok_iff.mpr ⟨h, rfl⟩)

lemma safely_addOr {e : ε} {m n : ℕ} {Q : ℕ → Prop} (h : m + n < 2 ^ 64) :
    Safely Q (addOr e m n) ↔ Q (m + n) := safely_iff_of_eq_ok (addOr_eq_ok h e)

lemma safely_sub {m n : ℕ} {Q : ℕ → Prop} (h : n ≤ m) : Safely Q (sub m n : Exec ε ℕ) ↔ Q (m - n) :=
  safely_iff_of_eq_ok (sub_eq_ok_iff.mpr ⟨h, rfl⟩)

end Rules

section Loops

variable {step : α → Exec ε (Fuel.Step α ρ)} {I : α → Prop} {Q : ρ → Prop} {μ : α → ℕ}

/-- What a turn must give back: the loop goes on with `I` and a smaller `μ`, or
leaves with `Q`. -/
def Turns (I : α → Prop) (Q : ρ → Prop) (μ : α → ℕ) (a : α) : Fuel.Step α ρ → Prop
  | .next a' => I a' ∧ μ a' < μ a
  | .done r => Q r

/-- The rule for loops: within `μ + 1` turns the loop has returned a value with
`Q`, or a turn has failed. -/
lemma post_loop {B : Trap ε → Prop} (hstep : ∀ a, I a → (step a).Post (Turns I Q μ a) B)
    {n : ℕ} {a : α} (ha : I a) (hn : μ a < n) : (loop step n a).Post Q B := by
  induction n generalizing a with
  | zero => omega
  | succ n ih =>
    rw [loop]
    apply (hstep a ha).bind _ fun _ ht => ht
    intro s _ hs
    cases s with
    | next a' =>
      have hlt : μ a' < μ a := hs.2
      exact ih hs.1 (by omega)
    | done r => exact hs

lemma loop_eq_ok (hstep : ∀ a, I a → ∃ s, step a = .ok s ∧ Turns I Q μ a s) {n : ℕ} {a : α}
    (ha : I a) (hn : μ a < n) : ∃ r, loop step n a = .ok r ∧ Q r := by
  apply Except.Post.exists_ok
  apply post_loop _ ha hn
  intro a ha
  obtain ⟨s, hs, hturns⟩ := hstep a ha
  rw [hs]
  exact hturns

end Loops

/-- A byte slice: no allocation is larger than `isize::MAX` bytes. -/
abbrev Slice := {b : List UInt8 // b.length < 2 ^ 63}

end Checked
