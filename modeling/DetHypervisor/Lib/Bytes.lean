import Mathlib.Data.Vector.Basic
import Mathlib.Tactic

/-!
# Little-endian words and byte strings

`toLe` writes a word as its bytes, least significant first, and `ofLe` reads it back; `slice b i
j` is the part of `b` from offset `i` up to offset `j`.
-/

namespace Bytes

open List

/-- The `k` low digits of `n` in base 256, least significant first. -/
def digits : ℕ → ℕ → List UInt8
  | 0, _ => []
  | k + 1, n => UInt8.ofNat n :: digits k (n / 256)

def value : List UInt8 → ℕ
  | [] => 0
  | b :: bs => b.toNat + 256 * value bs

@[simp] lemma length_digits (k n : ℕ) : (digits k n).length = k := by
  induction k generalizing n with
  | zero => simp [digits]
  | succ k ih => simp [digits, ih]

lemma value_lt (bs : List UInt8) : value bs < 256 ^ bs.length := by
  induction bs with
  | nil => simp [value]
  | cons b bs ih =>
    have hb := b.toNat_lt
    simp only [value, length_cons, pow_succ]
    omega

lemma value_digits (k n : ℕ) : value (digits k n) = n % 256 ^ k := by
  induction k generalizing n with
  | zero => simp [digits, value, Nat.mod_one]
  | succ k ih =>
    simp only [digits, value, ih, UInt8.toNat_ofNat', pow_succ']
    exact (Nat.mod_mul).symm

lemma digits_value (bs : List UInt8) : digits bs.length (value bs) = bs := by
  induction bs with
  | nil => simp [digits]
  | cons b bs ih =>
    have hb := b.toNat_lt
    have hdiv : (b.toNat + 256 * value bs) / 256 = value bs := by omega
    have hdigit : UInt8.ofNat (b.toNat + 256 * value bs) = b := by
      apply UInt8.toNat_inj.mp
      rw [UInt8.toNat_ofNat']
      omega
    simp only [length_cons, digits, value, hdiv, hdigit, ih]

class Word (α : Type) where
  size : ℕ
  toNat : α → ℕ
  ofNat : ℕ → α
  toNat_lt : ∀ a, toNat a < 256 ^ size
  ofNat_toNat : ∀ a, ofNat (toNat a) = a
  toNat_ofNat : ∀ n, n < 256 ^ size → toNat (ofNat n) = n

instance : Word UInt16 where
  size := 2
  toNat := UInt16.toNat
  ofNat := UInt16.ofNat
  toNat_lt a := a.toNat_lt
  ofNat_toNat a := by simp
  toNat_ofNat n h := Nat.mod_eq_of_lt h

instance : Word UInt32 where
  size := 4
  toNat := UInt32.toNat
  ofNat := UInt32.ofNat
  toNat_lt a := a.toNat_lt
  ofNat_toNat a := by simp
  toNat_ofNat n h := Nat.mod_eq_of_lt h

instance : Word UInt64 where
  size := 8
  toNat := UInt64.toNat
  ofNat := UInt64.ofNat
  toNat_lt a := a.toNat_lt
  ofNat_toNat a := by simp
  toNat_ofNat n h := Nat.mod_eq_of_lt h

instance : Word (BitVec 128) where
  size := 16
  toNat := BitVec.toNat
  ofNat := BitVec.ofNat 128
  toNat_lt a := a.isLt
  ofNat_toNat a := by simp
  toNat_ofNat n h := Nat.mod_eq_of_lt h

@[simp] lemma size_uint16 : Word.size UInt16 = 2 := by decide

@[simp] lemma size_uint32 : Word.size UInt32 = 4 := by decide

@[simp] lemma size_uint64 : Word.size UInt64 = 8 := by decide

@[simp] lemma size_bitVec128 : Word.size (BitVec 128) = 16 := by decide

section Words

variable {α : Type} [Word α]

def toLe (a : α) : List UInt8 := digits (Word.size α) (Word.toNat a)

def ofLe (α : Type) [Word α] (bs : List UInt8) : α := Word.ofNat (value bs)

@[simp] lemma length_toLe (a : α) : (toLe a).length = Word.size α := length_digits _ _

@[simp] lemma ofLe_toLe (a : α) : ofLe α (toLe a) = a := by
  rw [ofLe, toLe, value_digits, Nat.mod_eq_of_lt (Word.toNat_lt a), Word.ofNat_toNat]

lemma toLe_ofLe {bs : List UInt8} (h : bs.length = Word.size α) : toLe (ofLe α bs) = bs := by
  have hlt : value bs < 256 ^ Word.size α := h ▸ value_lt bs
  rw [toLe, ofLe, Word.toNat_ofNat _ hlt, ← h, digits_value]

lemma toLe_injective : Function.Injective (toLe : α → List UInt8) :=
  Function.LeftInverse.injective ofLe_toLe

end Words

section Slices

variable {α : Type*} {a b f : List α} {i j n : ℕ}

def slice (b : List α) (i j : ℕ) : List α := (b.drop i).take (j - i)

lemma length_slice (h : j ≤ b.length) : (slice b i j).length = j - i := by
  simp only [slice, length_take, length_drop]
  omega

lemma drop_eq_slice_append (h : i ≤ j) (b : List α) : b.drop i = slice b i j ++ b.drop j := by
  have hdrop : b.drop j = (b.drop i).drop (j - i) := by
    rw [drop_drop, Nat.add_sub_cancel' h]
  rw [hdrop, slice, take_append_drop]

lemma take_eq_slice (b : List α) (j : ℕ) : b.take j = slice b 0 j := rfl

lemma drop_eq_slice (h : b.length = n) (i : ℕ) : b.drop i = slice b i n := by
  rw [slice, take_of_length_le (by rw [length_drop, h])]

lemma slice_append_slice {k : ℕ} (hij : i ≤ j) (hjk : j ≤ k) (b : List α) :
    slice b i j ++ slice b j k = slice b i k := by
  have hsum : k - i = (j - i) + (k - j) := by omega
  have hdrop : b.drop j = (b.drop i).drop (j - i) := by
    rw [drop_drop, Nat.add_sub_cancel' hij]
  rw [slice, slice, slice, hdrop, hsum, ← take_add]

lemma slice_append_left (h : j ≤ a.length) (b : List α) : slice (a ++ b) i j = slice a i j := by
  by_cases hij : i ≤ j
  · rw [slice, slice, drop_append_of_le_length (by omega),
      take_append_of_le_length (by rw [length_drop]; omega)]
  · simp [slice, Nat.sub_eq_zero_of_le (Nat.le_of_not_le hij)]

lemma slice_append_right (h : a.length ≤ i) (b : List α) :
    slice (a ++ b) i j = slice b (i - a.length) (j - a.length) := by
  have hlen : j - i = (j - a.length) - (i - a.length) := by omega
  rw [slice, slice, drop_append, drop_eq_nil_of_le h, nil_append, hlen]

lemma slice_append_add (a b : List α) (i j : ℕ) :
    slice (a ++ b) (a.length + i) (a.length + j) = slice b i j := by
  rw [slice_append_right (Nat.le_add_right _ _), Nat.add_sub_cancel_left, Nat.add_sub_cancel_left]

lemma slice_cons (h : 1 ≤ i) (x : α) (b : List α) : slice (x :: b) i j = slice b (i - 1) (j - 1) :=
  slice_append_right (a := [x]) h b

lemma slice_full (h : b.length = n) : slice b 0 n = b := by
  rw [slice, drop_zero, Nat.sub_zero, ← h, take_length]

lemma slice_succ {a : α} (h : b[i]? = some a) : slice b i (i + 1) = [a] := by
  obtain ⟨hi, rfl⟩ := List.getElem?_eq_some_iff.mp h
  rw [slice, drop_eq_getElem_cons hi, Nat.add_sub_cancel_left, take_succ_cons, take_zero]

lemma isPrefix_drop_iff : f <+: b.drop i ↔ slice b i (i + f.length) = f := by
  rw [prefix_iff_eq_take, slice, Nat.add_sub_cancel_left, eq_comm]

lemma append_isPrefix_drop_iff {g : List α} :
    f ++ g <+: b.drop i ↔ slice b i (i + f.length) = f ∧ g <+: b.drop (i + f.length) := by
  rw [← isPrefix_drop_iff, ← drop_drop]
  constructor
  · rintro ⟨rest, hrest⟩
    rw [← hrest, append_assoc]
    exact ⟨prefix_append _ _, by simp⟩
  · rintro ⟨⟨rest, hf⟩, hg⟩
    rw [← hf, drop_left] at hg
    rw [← hf]
    exact (prefix_append_right_inj f).mpr hg

lemma eq_iff_isPrefix_drop {l : List α} : b = l ↔ b.length = l.length ∧ l <+: b.drop 0 := by
  constructor
  · rintro rfl
    exact ⟨rfl, prefix_rfl⟩
  · rintro ⟨hlen, hl⟩
    exact (hl.eq_of_length hlen.symm).symm

end Slices

section Runs

variable {α β : Type*} {f : α → List β} {body : List β} {xs : List α}

lemma starts_snoc {x : α} (hxs : ∃ rest, body = xs.flatMap f ++ rest)
    (hx : ∃ rest, body.drop (xs.flatMap f).length = f x ++ rest) :
    ∃ rest, body = (xs ++ [x]).flatMap f ++ rest := by
  obtain ⟨rest, rfl⟩ := hxs
  obtain ⟨rest', hx⟩ := hx
  rw [drop_left] at hx
  refine ⟨rest', ?_⟩
  rw [hx]
  simp

lemma eq_flatMap_of_length_le (hxs : ∃ rest, body = xs.flatMap f ++ rest)
    (hlen : body.length ≤ (xs.flatMap f).length) : body = xs.flatMap f := by
  obtain ⟨rest, rfl⟩ := hxs
  rw [length_append] at hlen
  rw [eq_nil_of_length_eq_zero (by omega : rest.length = 0), append_nil]

end Runs

section Codes

variable {α β : Type*} {P : α → Prop} {f : α → List β}

/-- Wherever the code of a value stands, the value and what follows it can be
read off. -/
def Delimited (P : α → Prop) (f : α → List β) : Prop :=
  ∀ ⦃a b : α⦄, P a → P b → ∀ ⦃r s : List β⦄, f a ++ r = f b ++ s → a = b ∧ r = s

lemma Delimited.of_length {n : ℕ} (hlen : ∀ a, P a → (f a).length = n)
    (hinj : ∀ a b, P a → P b → f a = f b → a = b) : Delimited P f := by
  intro a b ha hb r s h
  have hparts := append_inj h ((hlen a ha).trans (hlen b hb).symm)
  exact ⟨hinj a b ha hb hparts.1, hparts.2⟩

lemma Delimited.flatMap_inj (hf : Delimited P f) (hne : ∀ a, P a → f a ≠ []) {xs ys : List α}
    (hxs : ∀ x ∈ xs, P x) (hys : ∀ y ∈ ys, P y) (h : xs.flatMap f = ys.flatMap f) : xs = ys := by
  induction xs generalizing ys with
  | nil =>
    cases ys with
    | nil => rfl
    | cons y ys =>
      rw [flatMap_nil, flatMap_cons, eq_comm, append_eq_nil_iff] at h
      exact absurd h.1 (hne y (hys y mem_cons_self))
  | cons x xs ih =>
    cases ys with
    | nil =>
      rw [flatMap_nil, flatMap_cons, append_eq_nil_iff] at h
      exact absurd h.1 (hne x (hxs x mem_cons_self))
    | cons y ys =>
      rw [flatMap_cons, flatMap_cons] at h
      have hhead := hf (hxs x mem_cons_self) (hys y mem_cons_self) h
      have htail := ih (fun z hz => hxs z (mem_cons_of_mem _ hz))
        (fun z hz => hys z (mem_cons_of_mem _ hz)) hhead.2
      rw [hhead.1, htail]

def prefixed (α : Type) [Word α] (b : List UInt8) : List UInt8 :=
  toLe (Word.ofNat b.length : α) ++ b

@[simp] lemma length_prefixed (α : Type) [Word α] (b : List UInt8) :
    (prefixed α b).length = Word.size α + b.length := by
  rw [prefixed, length_append, length_toLe]

lemma delimited_prefixed (α : Type) [Word α] :
    Delimited (fun b => b.length < 256 ^ Word.size α) (prefixed α) := by
  intro b c hb hc r s h
  rw [prefixed, prefixed, append_assoc, append_assoc] at h
  have hparts := append_inj h (by rw [length_toLe, length_toLe])
  have hcount := congrArg Word.toNat (toLe_injective hparts.1)
  rw [Word.toNat_ofNat _ hb, Word.toNat_ofNat _ hc] at hcount
  exact append_inj hparts.2 hcount

end Codes

def ascii (cs : List Char) : List UInt8 := cs.map Char.toUInt8

@[simp] lemma length_ascii (cs : List Char) : (ascii cs).length = cs.length := length_map _

abbrev zeros (n : ℕ) : List UInt8 := List.replicate n 0

/-- The bytes that bring a string of `n` bytes to a multiple of eight. -/
def padLen (n : ℕ) : ℕ := (8 - n % 8) % 8

lemma padLen_lt (n : ℕ) : padLen n < 8 := Nat.mod_lt _ (by omega)

lemma eq_zeros_iff {b : List UInt8} {n : ℕ} :
    b = zeros n ↔ b.length = n ∧ ∀ x ∈ b, x = 0 := eq_replicate_iff

end Bytes
