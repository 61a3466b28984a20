import Mathlib.Tactic

/-!
# The next point of a source

A source is a set of points on the line. A merge keeps for each source the least point of the
open window, and moves the window to the point it hands out.
-/

/-- `next` is the least point of `S` in the window `(cur, final]`. -/
structure Upcoming (S : ℕ → Prop) (cur final : ℕ) (next : Option ℕ) : Prop where
  sound : ∀ n, next = some n → cur < n ∧ n ≤ final ∧ S n
  least : ∀ m, S m → cur < m → m ≤ final → ∃ n, next = some n ∧ n ≤ m

namespace Upcoming

variable {S : ℕ → Prop} {cur final at_ : ℕ} {next : Option ℕ}

lemma of_bounded {n : ℕ} (hn : cur < n) (hS : S n) (hleast : ∀ m, S m → cur < m → n ≤ m) :
    Upcoming S cur final (if n ≤ final then some n else none) := by
  constructor
  · intro k hk
    split_ifs at hk with hle
    cases hk
    exact ⟨hn, hle, hS⟩
  · intro m hm hcur hfinal
    have hle := hleast m hm hcur
    exact ⟨n, if_pos (hle.trans hfinal), hle⟩

lemma of_empty (h : ∀ n, ¬S n) : Upcoming S cur final none :=
  ⟨fun _ hn => (Option.some_ne_none _ hn.symm).elim, fun m hm => (h m hm).elim⟩

variable (h : Upcoming S cur final next)
include h

lemma hit_iff (hcur : cur < at_) (hfinal : at_ ≤ final)
    (hmin : ∀ n, next = some n → at_ ≤ n) : next = some at_ ↔ S at_ := by
  constructor
  · exact fun hnext => (h.sound at_ hnext).2.2
  · intro hS
    obtain ⟨n, hn, hle⟩ := h.least at_ hS hcur hfinal
    rw [hn, le_antisymm hle (hmin n hn)]

lemma not_of_lt (hfinal : at_ ≤ final)
    (hmin : ∀ n, next = some n → at_ ≤ n) {m : ℕ} (hcur : cur < m) (hm : m < at_) : ¬S m := by
  intro hS
  obtain ⟨n, hn, hle⟩ := h.least m hS hcur (hm.le.trans hfinal)
  have := hmin n hn
  omega

lemma skip (hcur : cur ≤ at_)
    (hmin : ∀ n, next = some n → at_ ≤ n) (hmiss : next ≠ some at_) :
    Upcoming S at_ final next := by
  constructor
  · intro n hn
    obtain ⟨-, hle, hS⟩ := h.sound n hn
    have hne : at_ ≠ n := fun heq => hmiss (heq ▸ hn)
    exact ⟨lt_of_le_of_ne (hmin n hn) hne, hle, hS⟩
  · intro m hS hlt hle
    exact h.least m hS (hcur.trans_lt hlt) hle

lemma stride {len : ℕ}
    (hstride : ∀ n, cur < n → S n → S (n + len) ∧ ∀ m, n < m → m < n + len → ¬S m)
    (hlen : 0 < len) (hhit : next = some at_) :
    Upcoming S at_ final (if at_ + len ≤ final then some (at_ + len) else none) := by
  obtain ⟨hcur, -, hS⟩ := h.sound at_ hhit
  obtain ⟨hnext, hgap⟩ := hstride at_ hcur hS
  apply of_bounded (Nat.lt_add_of_pos_right hlen) hnext
  intro m hm hlt
  exact Nat.not_lt.mp fun hshort => hgap m hlt hshort hm

end Upcoming
