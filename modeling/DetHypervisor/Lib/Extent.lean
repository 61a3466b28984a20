import Mathlib.Tactic

/-!
# Extents

Storage is a function from positions to contents. What a sequence of writes leaves at a position
is what the last write to cover it put there.
-/

namespace Extent

open List

variable {α : Type*} {bytes : List α} {f : ℕ → α} {i len off : ℕ}

def read (f : ℕ → α) (off len : ℕ) : List α := (List.range len).map fun i => f (off + i)

def covering (off : ℕ) (bytes : List α) (i : ℕ) : Option α :=
  if off ≤ i then bytes[i - off]? else none

def overwrite (f : ℕ → α) (off : ℕ) (bytes : List α) : ℕ → α :=
  fun i => (covering off bytes i).getD (f i)

@[simp] lemma length_read (f : ℕ → α) (off len : ℕ) : (read f off len).length = len := by
  simp [read]

@[simp] lemma read_zero (f : ℕ → α) (off : ℕ) : read f off 0 = [] := rfl

lemma getElem?_read (h : i < len) : (read f off len)[i]? = some (f (off + i)) := by
  simp [read, h]

lemma read_add (f : ℕ → α) (off m n : ℕ) :
    read f off (m + n) = read f off m ++ read f (off + m) n := by
  simp [read, range_add, Nat.add_assoc]

lemma take_read (f : ℕ → α) (off len n : ℕ) : (read f off len).take n = read f off (min n len) := by
  rw [read, ← map_take, take_range]
  rfl

lemma read_congr {g : ℕ → α} (h : ∀ i < len, f (off + i) = g (off + i)) :
    read f off len = read g off len := map_congr_left fun i hi => h i (mem_range.mp hi)

lemma eq_read_iff :
    bytes = read f off len ↔ bytes.length = len ∧ ∀ i < len, bytes[i]? = some (f (off + i)) := by
  constructor
  · rintro rfl
    exact ⟨length_read f off len, fun i hi => getElem?_read hi⟩
  · rintro ⟨hlen, h⟩
    apply ext_getElem?
    intro i
    obtain hi | hi := lt_or_ge i len
    · rw [h i hi, getElem?_read hi]
    · rw [getElem?_eq_none (hlen.trans_le hi), getElem?_eq_none]
      rwa [length_read]

@[simp] lemma overwrite_nil (f : ℕ → α) (off : ℕ) : overwrite f off [] = f := by
  funext i
  simp [overwrite, covering]

lemma overwrite_of_lt (h : i < off) : overwrite f off bytes i = f i := by
  rw [overwrite, covering, if_neg (not_le.mpr h), Option.getD_none]

lemma overwrite_of_ge (h : off + bytes.length ≤ i) : overwrite f off bytes i = f i := by
  rw [overwrite, covering, if_pos (by omega), getElem?_eq_none (by omega), Option.getD_none]

lemma overwrite_add {a : α} (h : bytes[i]? = some a) : overwrite f off bytes (off + i) = a := by
  rw [overwrite, covering, if_pos (Nat.le_add_right off i), Nat.add_sub_cancel_left, h,
    Option.getD_some]

variable (f) (writes : List (ℕ × List α))

lemma overwrite_append (off : ℕ) (a b : List α) :
    overwrite f off (a ++ b) = overwrite (overwrite f off a) (off + a.length) b := by
  funext i
  obtain hlow | hlow := lt_or_ge i off
  · rw [overwrite_of_lt hlow, overwrite_of_lt (by omega), overwrite_of_lt hlow]
  · obtain hin | hin := lt_or_ge i (off + a.length)
    · rw [overwrite_of_lt hin, overwrite, overwrite, covering, covering, if_pos hlow, if_pos hlow,
        getElem?_append_left (by omega)]
    · have hsub : i - off - a.length = i - (off + a.length) := by omega
      rw [overwrite, covering, if_pos hlow, getElem?_append_right (by omega), hsub, overwrite,
        covering, if_pos hin, overwrite_of_ge hin]

def lastWrite (i : ℕ) : Option α := writes.reverse.findSome? fun w => covering w.1 w.2 i

lemma lastWrite_snoc (w : ℕ × List α) (i : ℕ) :
    lastWrite (writes ++ [w]) i = (covering w.1 w.2 i).or (lastWrite writes i) := by
  rw [lastWrite, reverse_append, reverse_singleton, singleton_append, findSome?_cons]
  cases covering w.1 w.2 i <;> rfl

lemma foldl_overwrite (i : ℕ) :
    writes.foldl (fun f w => overwrite f w.1 w.2) f i = (lastWrite writes i).getD (f i) := by
  induction writes using reverseRecOn with
  | nil => rfl
  | append_singleton writes w ih =>
    rw [foldl_append, foldl_cons, foldl_nil, overwrite, ih, lastWrite_snoc]
    cases covering w.1 w.2 i <;> rfl

end Extent
