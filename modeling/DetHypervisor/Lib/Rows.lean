import Mathlib.Tactic
import Mathlib.Algebra.BigOperators.Fin

/-!
# Tables of rows

A table assigns a row to every index of a finite type. What is needed of it is
how many rows meet a predicate, and how that number moves when one row is
replaced.
-/

namespace Rows

variable {ι α : Type*} [Fintype ι] {q : α → Bool} {rows rows' : ι → α} {i : ι} {a : α}

def count (q : α → Bool) (rows : ι → α) : ℕ := ∑ i, if q (rows i) then 1 else 0

lemma count_congr (h : ∀ j, q (rows' j) = q (rows j)) : count q rows' = count q rows := by
  simp only [count, h]

lemma count_eq_zero_iff : count q rows = 0 ↔ ∀ j, q (rows j) = false := by
  simp [count]

lemma count_pos_iff : 0 < count q rows ↔ ∃ j, q (rows j) = true := by
  rw [Nat.pos_iff_ne_zero, ne_eq, count_eq_zero_iff]
  simp

lemma count_eq_add_length [DecidableEq ι] {l : List ι} (hl : l.Nodup)
    (hout : ∀ j ∉ l, q (rows' j) = q (rows j))
    (hin : ∀ j ∈ l, q (rows j) = false ∧ q (rows' j) = true) :
    count q rows' = count q rows + l.length := by
  have hrow : ∀ j, (if q (rows' j) then 1 else 0) =
      (if q (rows j) then 1 else 0) + if j ∈ l.toFinset then 1 else 0 := by
    intro j
    by_cases hj : j ∈ l
    · simp [hin j hj, hj]
    · simp [hout j hj, hj]
  unfold count
  rw [Finset.sum_congr rfl fun j _ => hrow j, Finset.sum_add_distrib, Finset.sum_ite_mem,
    Finset.univ_inter, Finset.sum_const, List.toFinset_card_of_nodup hl, smul_eq_mul, mul_one]

lemma count_lt_card (h : q (rows i) = false) : count q rows < Fintype.card ι := by
  have hbound : ∀ j ∈ Finset.univ, (if q (rows j) then 1 else 0) ≤ 1 := by
    intro j _
    split_ifs <;> omega
  calc count q rows < ∑ _j : ι, 1 :=
        Finset.sum_lt_sum hbound ⟨i, Finset.mem_univ i, by simp [h]⟩
    _ = Fintype.card ι := by simp

variable [DecidableEq ι]

lemma count_update (q : α → Bool) (rows : ι → α) (i : ι) (a : α) :
    count q (Function.update rows i a) + (if q (rows i) then 1 else 0) =
      count q rows + if q a then 1 else 0 := by
  have hrest : ∑ j ∈ Finset.univ.erase i, (if q (Function.update rows i a j) then 1 else 0) =
      ∑ j ∈ Finset.univ.erase i, if q (rows j) then 1 else 0 := by
    apply Finset.sum_congr rfl
    intro j hj
    rw [Function.update_of_ne (Finset.ne_of_mem_erase hj)]
  unfold count
  rw [← Finset.add_sum_erase _ _ (Finset.mem_univ i),
    ← Finset.add_sum_erase _ (fun j => if q (rows j) then 1 else 0) (Finset.mem_univ i), hrest,
    Function.update_self]
  omega

lemma count_update_of_eq (h : q a = q (rows i)) :
    count q (Function.update rows i a) = count q rows := by
  have := count_update q rows i a
  rw [h] at this
  omega

end Rows
