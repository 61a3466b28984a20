import Mathlib.Tactic

/-!
# Virtual time

`vns` is a function of the retired-instruction count through the rational clock of the machine
(`vt.rs`); checked 64-bit arithmetic keeps its bound.
-/

namespace DetHypervisor

def checkedAdd (a b : ℕ) : Option ℕ := if a + b < 2 ^ 64 then some (a + b) else none

def checkedMul (a b : ℕ) : Option ℕ := if a * b < 2 ^ 64 then some (a * b) else none

lemma checkedAdd_eq_some_iff {a b c : ℕ} :
    checkedAdd a b = some c ↔ c = a + b ∧ a + b < 2 ^ 64 := by
  unfold checkedAdd
  split <;> simp_all [eq_comm]

lemma checkedMul_eq_some_iff {a b c : ℕ} :
    checkedMul a b = some c ↔ c = a * b ∧ a * b < 2 ^ 64 := by
  unfold checkedMul
  split <;> simp_all [eq_comm]

structure ClockRatio where
  num : ℕ
  den : ℕ
  num_pos : 0 < num
  den_pos : 0 < den

namespace ClockRatio

variable {c : ClockRatio} {i icount j target targetVns vns : ℕ}

def default : ClockRatio := ⟨1, 1, Nat.one_pos, Nat.one_pos⟩

/-- `vns = icount * num / den`, `none` when the result exceeds a `u64`. -/
def vnsFromIcount (c : ClockRatio) (icount : ℕ) : Option ℕ :=
  if icount * c.num / c.den < 2 ^ 64 then some (icount * c.num / c.den) else none

lemma vnsFromIcount_of_le (hle : i ≤ j) (h : c.vnsFromIcount j = some vns) :
    ∃ vns', c.vnsFromIcount i = some vns' := by
  unfold vnsFromIcount at h ⊢
  split_ifs at h with hj
  have hmono : i * c.num / c.den ≤ j * c.num / c.den :=
    Nat.div_le_div_right (Nat.mul_le_mul_right c.num hle)
  exact ⟨_, if_pos (hmono.trans_lt hj)⟩

/-- `ceil (target * den / num)`: the smallest count whose `vns` reaches the
target. -/
def icountForVnsTarget (c : ClockRatio) (targetVns : ℕ) : Option ℕ :=
  if (targetVns * c.den + c.num - 1) / c.num < 2 ^ 64 then
    some ((targetVns * c.den + c.num - 1) / c.num)
  else none

lemma le_vns_iff (c : ClockRatio) : targetVns ≤ icount * c.num / c.den ↔
      (targetVns * c.den + c.num - 1) / c.num ≤ icount := by
  have hnum := c.num_pos
  rw [Nat.le_div_iff_mul_le c.den_pos, ← Nat.lt_succ_iff (m := (_ / _)),
    Nat.div_lt_iff_lt_mul hnum, Nat.succ_mul]
  omega

lemma isLeast_vns (c : ClockRatio) (start targetVns : ℕ) :
    IsLeast {m | start ≤ m ∧ targetVns ≤ m * c.num / c.den}
      (max ((targetVns * c.den + c.num - 1) / c.num) start) := by
  constructor
  · exact ⟨le_max_right _ _, c.le_vns_iff.mpr (le_max_left _ _)⟩
  · rintro m ⟨hstart, hm⟩
    exact max_le (c.le_vns_iff.mp hm) hstart

lemma icountForVnsTarget_lt {n : ℕ} (h : c.icountForVnsTarget targetVns = some n) : n < 2 ^ 64 := by
  unfold icountForVnsTarget at h
  split_ifs at h with hlt
  exact Option.some.inj h ▸ hlt

def image (c : ClockRatio) (icount : ℕ) : ℕ := icount * c.num / c.den

lemma image_mono (c : ClockRatio) (h : i ≤ j) : c.image i ≤ c.image j :=
  Nat.div_le_div_right (Nat.mul_le_mul_right c.num h)

@[simp] lemma image_zero (c : ClockRatio) : c.image 0 = 0 := by
  simp [image]

lemma vnsFromIcount_eq_some_iff :
    c.vnsFromIcount icount = some vns ↔ vns = c.image icount ∧ c.image icount < 2 ^ 64 := by
  unfold vnsFromIcount image
  split_ifs with h
  · rw [Option.some.injEq, eq_comm]
    exact ⟨fun heq => ⟨heq, h⟩, And.left⟩
  · exact ⟨nofun, fun heq => absurd heq.2 h⟩

/-- The first count at which a clock that starts at zero has reached a time. -/
def reaches (c : ClockRatio) (target : ℕ) : ℕ := (target * c.den + c.num - 1) / c.num

lemma reaches_le_iff (c : ClockRatio) :
    c.reaches target ≤ icount ↔ target * c.den ≤ icount * c.num := by
  rw [reaches, ← c.le_vns_iff, Nat.le_div_iff_mul_le c.den_pos]

lemma icountForVnsTarget_eq_some_iff : c.icountForVnsTarget target = some icount ↔
      icount = c.reaches target ∧ c.reaches target < 2 ^ 64 := by
  unfold icountForVnsTarget reaches
  split_ifs with h
  · rw [Option.some.injEq, eq_comm]
    exact ⟨fun heq => ⟨heq, h⟩, And.left⟩
  · exact ⟨nofun, fun heq => absurd heq.2 h⟩

lemma icountForVnsTarget_eq_none_iff :
    c.icountForVnsTarget target = none ↔ 2 ^ 64 ≤ c.reaches target := by
  unfold icountForVnsTarget reaches
  split_ifs with h
  · exact ⟨nofun, fun hle => absurd h (not_lt.mpr hle)⟩
  · exact ⟨fun _ => not_lt.mp h, fun _ => rfl⟩

lemma le_image_iff (c : ClockRatio) {m : ℕ} :
    target ≤ c.image m ↔ c.reaches target ≤ m := c.le_vns_iff

end ClockRatio

end DetHypervisor
