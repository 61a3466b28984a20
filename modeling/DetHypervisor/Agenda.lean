import DetHypervisor.VirtualTime
import Mathlib.Data.List.Sort
import Mathlib.Data.List.TakeWhile

/-!
# The agenda of a run

`Run(until)` is compiled to a stream of stop points (`agenda.rs`); actions at one count share a
point. The iterator keeps two sorted queues and two grids.
-/

namespace DetHypervisor

open List Option Nat

variable {len m n : ℕ}

inductive FinalStop where
  | icountBudget (budget : ℕ)
  | vnsBudget (budget : ℕ)
  | hardCap (cap : ℕ)
  deriving DecidableEq

inductive StopKind where
  | budget
  | hardCap
  deriving DecidableEq

def nonZero (n : ℕ) : Option ℕ := if n = 0 then none else some n

structure AgendaInputs where
  startIcount : ℕ
  scheduledInputs : List ℕ
  injections : List ℕ
  epochLen : Option ℕ
  goalPollPeriod : Option ℕ
  finalStop : FinalStop
  clock : ClockRatio

structure StopPoint where
  icount : ℕ
  inputs : List ℕ
  injections : List ℕ
  epochHash : Bool
  goalPoll : Bool
  finalStop : Option StopKind
  deriving DecidableEq

structure AgendaIter where
  finalIcount : ℕ
  stopKind : StopKind
  /-- `(icount, original index)` inside `(start, final]`, sorted. -/
  inputs : List (ℕ × ℕ)
  injections : List (ℕ × ℕ)
  epochNext : Option ℕ
  epochLen : ℕ
  goalNext : Option ℕ
  goalPeriod : ℕ
  done : Bool
  deriving DecidableEq

namespace AgendaIter

def finalOf (inputs : AgendaInputs) : Option (ℕ × StopKind) :=
  match inputs.finalStop with
  | .icountBudget b => (checkedAdd inputs.startIcount b).map (·, .budget)
  | .hardCap b => (checkedAdd inputs.startIcount b).map (·, .hardCap)
  | .vnsBudget b => do
      let startVns ← inputs.clock.vnsFromIcount inputs.startIcount
      let targetVns ← checkedAdd startVns b
      let target ← inputs.clock.icountForVnsTarget targetVns
      some (max target inputs.startIcount, .budget)

def queueLe (a b : ℕ × ℕ) : Prop := a.1 < b.1 ∨ (a.1 = b.1 ∧ a.2 ≤ b.2)

instance : DecidableRel queueLe := fun a b =>
  inferInstanceAs (Decidable (a.1 < b.1 ∨ (a.1 = b.1 ∧ a.2 ≤ b.2)))

/-- The entries of one source inside `(start, final]`, with their indices. -/
def queue (start final : ℕ) (points : List ℕ) : List (ℕ × ℕ) :=
  (points.zipIdx.filter fun p => decide (start < p.1 ∧ p.1 ≤ final)).insertionSort queueLe

/-- The first multiple of the epoch length after `start`, inside the window. -/
def firstEpoch (start final len : ℕ) : Option ℕ :=
  (checkedMul (start / len + 1) len).filter fun at_ => decide (at_ ≤ final)

/-- The agenda of a run. Its products and the first grid index are unbounded here; `newU64`
is the constructor on machine words, which stops where one of them leaves `u64`. -/
def new (inputs : AgendaInputs) : Option AgendaIter := do
  let (final, kind) ← finalOf inputs
  let start := inputs.startIcount
  some {
    finalIcount := final
    stopKind := kind
    inputs := queue start final inputs.scheduledInputs
    injections := queue start final inputs.injections
    epochNext := inputs.epochLen.bind (firstEpoch start final)
    epochLen := inputs.epochLen.getD 0
    goalNext := inputs.goalPollPeriod.bind fun period =>
      (checkedAdd start period).filter fun at_ => decide (at_ ≤ final)
    goalPeriod := inputs.goalPollPeriod.getD 0
    done := false }

def minWith (at_ : ℕ) : Option ℕ → ℕ
  | some a => min at_ a
  | none => at_

def nextIcount (it : AgendaIter) : ℕ :=
  minWith
    (minWith
      (minWith (minWith it.finalIcount (it.inputs.head?.map Prod.fst))
        (it.injections.head?.map Prod.fst))
      it.epochNext)
    it.goalNext

def advance (at_ final len : ℕ) (grid : Option ℕ) : Option ℕ :=
  if grid = some at_ then (checkedAdd at_ len).filter fun n => decide (n ≤ final) else grid

def next (it : AgendaIter) : Option (StopPoint × AgendaIter) :=
  if it.done then none
  else
    let at_ := it.nextIcount
    let here : ℕ × ℕ → Bool := fun p => p.1 == at_
    some (
      { icount := at_
        inputs := (it.inputs.takeWhile here).map Prod.snd
        injections := (it.injections.takeWhile here).map Prod.snd
        epochHash := decide (it.epochNext = some at_)
        goalPoll := decide (it.goalNext = some at_)
        finalStop := if at_ = it.finalIcount then some it.stopKind else none },
      { it with
        inputs := it.inputs.dropWhile here
        injections := it.injections.dropWhile here
        epochNext := advance at_ it.finalIcount it.epochLen it.epochNext
        goalNext := advance at_ it.finalIcount it.goalPeriod it.goalNext
        done := decide (at_ = it.finalIcount) })

end AgendaIter

def epochAfter (len n : ℕ) : ℕ := (n / len + 1) * len

def OnGrid (grid : Option ℕ) (n : ℕ) : Prop := ∃ len, grid = some len ∧ len ∣ n

instance (grid : Option ℕ) (n : ℕ) : Decidable (OnGrid grid n) :=
  match grid with
  | none => .isFalse (by rintro ⟨_, h, _⟩; cases h)
  | some len => decidable_of_iff (len ∣ n) ⟨fun h => ⟨len, rfl, h⟩,
      by rintro ⟨_, h, hd⟩; cases h; exact hd⟩

@[simp] lemma not_onGrid_none (n : ℕ) : ¬OnGrid none n := by
  rintro ⟨_, h, _⟩
  cases h

@[simp] lemma onGrid_some (len n : ℕ) : OnGrid (some len) n ↔ len ∣ n := by
  constructor
  · rintro ⟨_, h, hd⟩
    cases h
    exact hd
  · exact fun h => ⟨len, rfl, h⟩

lemma lt_epochAfter (hlen : 0 < len) (n : ℕ) : n < epochAfter len n := by
  unfold epochAfter
  have := div_add_mod n len
  have := mod_lt n hlen
  nlinarith

lemma dvd_epochAfter (len n : ℕ) : len ∣ epochAfter len n := ⟨_, mul_comm _ _⟩

lemma epochAfter_le (hlen : 0 < len) (hd : len ∣ m) (hnm : n < m) : epochAfter len n ≤ m := by
  obtain ⟨k, rfl⟩ := hd
  unfold epochAfter
  have hk : n / len < k := (div_lt_iff_lt_mul hlen).mpr (by rwa [mul_comm] at hnm)
  rw [mul_comm]
  exact mul_le_mul_left len hk

lemma epochAfter_eq_of_lt (hlen : 0 < len) (hnm : n ≤ m) (hm : m < epochAfter len n) :
    epochAfter len m = epochAfter len n := by
  apply le_antisymm
  · exact epochAfter_le hlen (dvd_epochAfter len n) hm
  · exact epochAfter_le hlen (dvd_epochAfter len m) (hnm.trans_lt (lt_epochAfter hlen m))

lemma epochAfter_of_dvd (hlen : 0 < len) (hd : len ∣ n) : epochAfter len n = n + len := by
  obtain ⟨k, rfl⟩ := hd
  unfold epochAfter
  rw [Nat.mul_div_cancel_left k hlen]
  ring

def gridNext (grid : Option ℕ) (cur final : ℕ) : Option ℕ :=
  grid.bind fun len => if epochAfter len cur ≤ final then some (epochAfter len cur) else none

lemma gridNext_eq_some_iff {grid : Option ℕ} {cur final : ℕ} : gridNext grid cur final = some n ↔
      ∃ len, grid = some len ∧ n = epochAfter len cur ∧ n ≤ final := by
  cases grid with
  | none => simp [gridNext]
  | some len =>
    simp only [gridNext, bind_some, Option.some.injEq]
    split <;> grind

namespace AgendaIter

variable {a b c cur final start : ℕ} {grid o : Option ℕ} {inputs : AgendaInputs}
  {it it' : AgendaIter} {kind : StopKind} {p q : StopPoint}

lemma bind_firstEpoch (grid : Option ℕ) (start : ℕ) (hfinal : final < 2 ^ 64) :
    grid.bind (firstEpoch start final) = gridNext grid start final := by
  cases grid with
  | none => rfl
  | some len =>
    change ((if epochAfter len start < 2 ^ 64 then some (epochAfter len start) else none).filter
      fun n => decide (n ≤ final)) = if epochAfter len start ≤ final then _ else _
    by_cases hle : epochAfter len start ≤ final
    · rw [if_pos hle, if_pos (hle.trans_lt hfinal)]
      simp [hle]
    · rw [if_neg hle]
      split_ifs
      · simpa using not_le.mp hle
      · rfl

lemma minWith_le (a : ℕ) (o : Option ℕ) : minWith a o ≤ a := by
  cases o <;> simp [minWith]

lemma minWith_le_of_eq_some (h : o = some b) : minWith a o ≤ b := by
  simp [h, minWith]

lemma minWith_eq (a : ℕ) (o : Option ℕ) : minWith a o = a ∨ o = some (minWith a o) := by
  cases o with
  | none => exact .inl rfl
  | some b => rcases min_choice a b with h | h <;> simp [minWith, h]

lemma le_minWith (ha : c ≤ a) (ho : ∀ b, o = some b → c ≤ b) : c ≤ minWith a o := by
  cases o with
  | none => exact ha
  | some b => exact le_min ha (ho b rfl)

lemma lt_minWith (ha : c < a) (ho : ∀ b, o = some b → c < b) : c < minWith a o := by
  cases o with
  | none => exact ha
  | some b => exact lt_min ha (ho b rfl)

section Sorted

variable {at_ : ℕ} {q : List (ℕ × ℕ)}

lemma mem_queue_iff {points : List ℕ} {p : ℕ × ℕ} : p ∈ queue start final points ↔
      points[p.2]? = some p.1 ∧ start < p.1 ∧ p.1 ≤ final := by
  simp [queue, mem_insertionSort, mem_zipIdx_iff_getElem?]

lemma length_queue_le (start final : ℕ) (points : List ℕ) :
    (queue start final points).length ≤ points.length := by
  rw [queue, length_insertionSort]
  refine (length_filter_le _ _).trans ?_
  rw [length_zipIdx]

lemma queue_indices_nodup (start final : ℕ) (points : List ℕ) :
    ((queue start final points).map Prod.snd).Nodup := by
  have hperm := (perm_insertionSort queueLe
    (points.zipIdx.filter fun p => decide (start < p.1 ∧ p.1 ≤ final))).map Prod.snd
  rw [queue, hperm.nodup_iff]
  refine List.Nodup.sublist (filter_sublist.map Prod.snd) ?_
  rw [zipIdx_map_snd]
  exact nodup_range'

lemma queue_ordered (start final : ℕ) (points : List ℕ) :
    (queue start final points).Pairwise fun a b => a.1 < b.1 ∨ a.1 = b.1 ∧ a.2 < b.2 := by
  have htotal : Std.Total queueLe := ⟨by intro a b; unfold queueLe; omega⟩
  have htrans : IsTrans (ℕ × ℕ) queueLe := ⟨by intro a b c; unfold queueLe; omega⟩
  have hle : (queue start final points).Pairwise queueLe := pairwise_insertionSort queueLe _
  have hne := pairwise_map.mp (queue_indices_nodup start final points)
  refine (hle.and hne).imp ?_
  rintro a b ⟨hab, hindex⟩
  unfold queueLe at hab
  omega

lemma queue_sorted (start final : ℕ) (points : List ℕ) :
    (queue start final points).Pairwise fun a b => a.1 ≤ b.1 :=
  (queue_ordered start final points).imp fun h => h.elim le_of_lt fun h => h.1.le

lemma takeWhile_eq_filter (hsorted : q.Pairwise fun a b => a.1 ≤ b.1) (hmin : ∀ p ∈ q, at_ ≤ p.1) :
    q.takeWhile (fun p => p.1 == at_) = q.filter fun p => decide (p.1 = at_) := by
  induction q with
  | nil => rfl
  | cons a q ih =>
    obtain ⟨hhead, htail⟩ := pairwise_cons.mp hsorted
    by_cases ha : a.1 = at_
    · simp [ha, ih htail fun p hp => hmin p (mem_cons_of_mem a hp)]
    · have hnone : ∀ p ∈ q, ¬p.1 = at_ := by
        intro p hp hpat
        have := hhead p hp
        have := hmin a mem_cons_self
        omega
      simpa [ha] using fun x y hxy => hnone (x, y) hxy

lemma dropWhile_eq_filter (hsorted : q.Pairwise fun a b => a.1 ≤ b.1) (hmin : ∀ p ∈ q, at_ ≤ p.1) :
    q.dropWhile (fun p => p.1 == at_) = q.filter fun p => decide (at_ < p.1) := by
  induction q with
  | nil => rfl
  | cons a q ih =>
    obtain ⟨hhead, htail⟩ := pairwise_cons.mp hsorted
    by_cases ha : a.1 = at_
    · simp [ha, ih htail fun p hp => hmin p (mem_cons_of_mem a hp)]
    · have hall : ∀ p ∈ a :: q, at_ < p.1 := by
        intro p hp
        have hle : a.1 ≤ p.1 := by
          rcases mem_cons.mp hp with rfl | hp
          · exact le_rfl
          · exact hhead p hp
        have := hmin a mem_cons_self
        omega
      rw [filter_eq_self.mpr (by simpa using hall)]
      simp [ha]

end Sorted

structure Queued (cur final : ℕ) (q : List (ℕ × ℕ)) : Prop where
  sorted : q.Pairwise fun a b => a.1 ≤ b.1
  mem : ∀ p ∈ q, cur < p.1 ∧ p.1 ≤ final

def Ticks (cur final len : ℕ) (next : Option ℕ) : Prop :=
  ∀ n, next = some n → cur < n ∧ n ≤ final ∧ 0 < len

lemma queued_queue (start final : ℕ) (points : List ℕ) :
    Queued start final (queue start final points) :=
  ⟨queue_sorted start final points, fun _ hp => (mem_queue_iff.mp hp).2⟩

namespace Queued

variable {at_ : ℕ} {q : List (ℕ × ℕ)}

variable (h : Queued cur final q)
include h

lemma head_le (hn : q.head?.map Prod.fst = some n) : ∀ p ∈ q, n ≤ p.1 := by
  intro p hp
  cases q with
  | nil => cases hp
  | cons a rest =>
    obtain rfl : a.1 = n := by simpa using hn
    rcases mem_cons.mp hp with rfl | hp
    · exact le_rfl
    · exact (pairwise_cons.mp h.sorted).1 p hp

lemma lt_head (hn : q.head?.map Prod.fst = some n) : cur < n := by
  obtain ⟨p, hp, rfl⟩ := map_eq_some_iff.mp hn
  exact (h.mem p (mem_of_mem_head? hp)).1

lemma split (hmin : ∀ p ∈ q, at_ ≤ p.1) :
    q = ((q.takeWhile fun p => p.1 == at_).map Prod.snd).map (at_, ·) ++
        q.dropWhile (fun p => p.1 == at_) ∧ Queued at_ final (q.dropWhile fun p => p.1 == at_) := by
  refine ⟨?_, h.sorted.sublist (List.dropWhile_sublist _), ?_⟩
  · have htaken : ((q.takeWhile fun p => p.1 == at_).map Prod.snd).map (at_, ·) =
        q.takeWhile fun p => p.1 == at_ := by
      rw [List.map_map]
      refine (List.map_congr_left ?_).trans (List.map_id _)
      intro p hp
      have hat : p.1 = at_ := by simpa using List.mem_takeWhile_imp hp
      rw [← hat]
      rfl
    rw [htaken, List.takeWhile_append_dropWhile]
  · intro p hp
    rw [dropWhile_eq_filter h.sorted hmin] at hp
    obtain ⟨hp, hlt⟩ := List.mem_filter.mp hp
    exact ⟨by simpa using hlt, (h.mem p hp).2⟩

end Queued

lemma Ticks.advance {len at_ : ℕ} {next : Option ℕ} (h : Ticks cur final len next)
    (hat : ∀ n, next = some n → at_ ≤ n) : Ticks at_ final len (advance at_ final len next) := by
  intro n hn
  unfold AgendaIter.advance at hn
  split_ifs at hn with hhit
  · obtain ⟨hadd, hle⟩ := filter_eq_some_iff.mp hn
    obtain ⟨rfl, -⟩ := checkedAdd_eq_some_iff.mp hadd
    have := (h at_ hhit).2.2
    exact ⟨by omega, by simpa using hle, this⟩
  · obtain ⟨hlt, hle, hlen⟩ := h n hn
    have hne : at_ ≠ n := fun heq => hhit (heq ▸ hn)
    exact ⟨lt_of_le_of_ne (hat n hn) hne, hle, hlen⟩

/-- A live agenda that stands after `cur`: all that is left of it lies in the
window `(cur, final]`. -/
structure Window (cur : ℕ) (it : AgendaIter) : Prop where
  live : it.done = false
  cur_le : cur ≤ it.finalIcount
  inputs : Queued cur it.finalIcount it.inputs
  injections : Queued cur it.finalIcount it.injections
  epochs : Ticks cur it.finalIcount it.epochLen it.epochNext
  polls : Ticks cur it.finalIcount it.goalPeriod it.goalNext

structure Yields (cur : ℕ) (it : AgendaIter) (p : StopPoint) (it' : AgendaIter) : Prop where
  cur_le : cur ≤ p.icount
  cur_lt : cur < it.finalIcount → cur < p.icount
  le_final : p.icount ≤ it.finalIcount
  inputs_eq : it.inputs = p.inputs.map (p.icount, ·) ++ it'.inputs
  injections_eq : it.injections = p.injections.map (p.icount, ·) ++ it'.injections
  epochHash_eq : p.epochHash = decide (it.epochNext = some p.icount)
  finalStop_eq : p.finalStop = if p.icount = it.finalIcount then some it.stopKind else none
  later : ∀ q ∈ it'.inputs, p.icount < q.1
  rest_final : it'.finalIcount = it.finalIcount
  rest : p.icount < it.finalIcount → it'.Window p.icount

namespace Window

lemma nextIcount_le_final (it : AgendaIter) : it.nextIcount ≤ it.finalIcount := by
  exact (minWith_le _ _).trans <| (minWith_le _ _).trans <| (minWith_le _ _).trans <|
    minWith_le _ _

lemma nextIcount_le_goal (hn : it.goalNext = some n) : it.nextIcount ≤ n := minWith_le_of_eq_some hn

lemma nextIcount_le_epoch (hn : it.epochNext = some n) : it.nextIcount ≤ n :=
  (minWith_le _ _).trans (minWith_le_of_eq_some hn)

variable (h : it.Window cur)
include h

lemma nextIcount_le_injection : ∀ q ∈ it.injections, it.nextIcount ≤ q.1 := by
  intro q hq
  obtain ⟨a, ha⟩ : ∃ a, it.injections.head? = some a :=
    isSome_iff_exists.mp (by simpa using ne_nil_of_mem hq)
  have hhead : it.injections.head?.map Prod.fst = some a.1 := by rw [ha]; rfl
  exact ((minWith_le _ _).trans <| (minWith_le _ _).trans <|
    minWith_le_of_eq_some hhead).trans (h.injections.head_le hhead q hq)

lemma nextIcount_le_input : ∀ q ∈ it.inputs, it.nextIcount ≤ q.1 := by
  intro q hq
  obtain ⟨a, ha⟩ : ∃ a, it.inputs.head? = some a :=
    isSome_iff_exists.mp (by simpa using ne_nil_of_mem hq)
  have hhead : it.inputs.head?.map Prod.fst = some a.1 := by rw [ha]; rfl
  exact ((minWith_le _ _).trans <| (minWith_le _ _).trans <| (minWith_le _ _).trans <|
    minWith_le_of_eq_some hhead).trans (h.inputs.head_le hhead q hq)

lemma cur_lt_nextIcount (hcur : cur < it.finalIcount) : cur < it.nextIcount := by
  refine lt_minWith (lt_minWith (lt_minWith (lt_minWith hcur ?_) ?_) ?_) ?_
  · exact fun n hn => h.inputs.lt_head hn
  · exact fun n hn => h.injections.lt_head hn
  · exact fun n hn => (h.epochs n hn).1
  · exact fun n hn => (h.polls n hn).1

lemma cur_le_nextIcount : cur ≤ it.nextIcount := by
  refine le_minWith (le_minWith (le_minWith (le_minWith h.cur_le ?_) ?_) ?_) ?_
  · exact fun n hn => (h.inputs.lt_head hn).le
  · exact fun n hn => (h.injections.lt_head hn).le
  · exact fun n hn => (h.epochs n hn).1.le
  · exact fun n hn => (h.polls n hn).1.le

lemma yields : ∃ p it', it.next = some (p, it') ∧ Yields cur it p it' := by
  obtain ⟨hinputs, hlater⟩ := h.inputs.split h.nextIcount_le_input
  obtain ⟨hinjections, hrest⟩ := h.injections.split h.nextIcount_le_injection
  refine ⟨_, _, by simp only [next, h.live, Bool.false_eq_true, if_false]; exact rfl, ?_⟩
  exact
    { cur_le := h.cur_le_nextIcount
      cur_lt := h.cur_lt_nextIcount
      le_final := nextIcount_le_final it
      inputs_eq := hinputs
      injections_eq := hinjections
      epochHash_eq := rfl
      finalStop_eq := rfl
      later := fun q hq => (hlater.mem q hq).1
      rest_final := rfl
      rest := fun hlt =>
        { live := by simpa using Nat.ne_of_lt hlt
          cur_le := nextIcount_le_final it
          inputs := hlater
          injections := hrest
          epochs := h.epochs.advance fun _ => nextIcount_le_epoch
          polls := h.polls.advance fun _ => nextIcount_le_goal } }

lemma yields_of_next {p : StopPoint} {it' : AgendaIter}
    (hnext : it.next = some (p, it')) : Yields cur it p it' := by
  obtain ⟨p1, it1, hnext1, hyields⟩ := h.yields
  cases hnext1.symm.trans hnext
  exact hyields

lemma rest_of_next (hnext : it.next = some (p, it'))
    (hfinal : p.finalStop = none) : p.icount < it.finalIcount ∧ it'.Window p.icount := by
  have hyields := h.yields_of_next hnext
  have hlt : p.icount < it.finalIcount := by
    refine lt_of_le_of_ne hyields.le_final fun heq => ?_
    rw [hyields.finalStop_eq, if_pos heq] at hfinal
    cases hfinal
  exact ⟨hlt, hyields.rest hlt⟩

end Window

inductive Has (p : StopPoint) : AgendaIter → Prop
  | here {it it' : AgendaIter} (h : it.next = some (p, it')) : Has p it
  | later {it it' : AgendaIter} {q : StopPoint} (h : it.next = some (q, it'))
      (hp : Has p it') : Has p it

lemma Has.of_next (h : it.Has p) (hnext : it.next = some (q, it')) : p = q ∨ it'.Has p := by
  cases h with
  | here h =>
    rw [hnext] at h
    exact .inl (Prod.mk.inj (Option.some.inj h)).1.symm
  | later h hp =>
    rw [hnext] at h
    cases h
    exact .inr hp

lemma icount_of_next (hnext : it.next = some (p, it')) : p.icount = it.nextIcount := by
  unfold next at hnext
  split_ifs at hnext
  cases hnext
  rfl

lemma next_of_final (hnext : it.next = some (p, it')) (hfinal : p.icount = it.finalIcount) :
    it'.next = none := by
  unfold next at hnext
  split_ifs at hnext
  cases hnext
  have hat : it.nextIcount = it.finalIcount := hfinal
  simp [next, hat]

lemma Has.le (h : it.Has p) (hw : it.Window cur) (hnext : it.next = some (q, it')) :
    q.icount ≤ p.icount := by
  induction h generalizing cur q it' with
  | here h =>
    rw [hnext] at h
    rw [(Prod.mk.inj (Option.some.inj h)).1]
  | @later it1 it2 q1 h hp ih =>
    rw [hnext] at h
    obtain ⟨rfl, rfl⟩ := Prod.mk.inj (Option.some.inj h)
    have hyields := hw.yields_of_next hnext
    have hlt : q.icount < it1.finalIcount := by
      refine lt_of_le_of_ne hyields.le_final fun heq => ?_
      have hdone := next_of_final hnext heq
      cases hp with
      | here h | later h => simp [hdone] at h
    have hrest := hyields.rest hlt
    obtain ⟨q2, it3, hnext2, hyields2⟩ := hrest.yields
    exact hyields2.cur_le.trans (ih hrest hnext2)

lemma finalOf_spec (h : finalOf inputs = some (final, kind)) :
    inputs.startIcount ≤ final ∧ (inputs.startIcount < final → final < 2 ^ 64) := by
  have hbudget {b : ℕ} {k : StopKind}
      (h : (checkedAdd inputs.startIcount b).map (·, k) = some (final, kind)) :
      inputs.startIcount ≤ final ∧ (inputs.startIcount < final → final < 2 ^ 64) := by
    obtain ⟨n, hn, h⟩ := map_eq_some_iff.mp h
    obtain ⟨rfl, hbound⟩ := checkedAdd_eq_some_iff.mp hn
    cases h
    exact ⟨le_add_right _ _, fun _ => hbound⟩
  unfold finalOf at h
  split at h
  · exact hbudget h
  · exact hbudget h
  · obtain ⟨startVns, -, h⟩ := bind_eq_some_iff.mp h
    obtain ⟨targetVns, -, h⟩ := bind_eq_some_iff.mp h
    obtain ⟨target, htarget, h⟩ := bind_eq_some_iff.mp h
    cases h
    have hlt := ClockRatio.icountForVnsTarget_lt htarget
    exact ⟨le_max_right _ _, by omega⟩

lemma finalOf_of_new (h : new inputs = some it) :
    finalOf inputs = some (it.finalIcount, it.stopKind) := by
  obtain ⟨⟨final, kind⟩, hfinal, h⟩ := bind_eq_some_iff.mp h
  cases h
  exact hfinal

lemma ticks_firstEpoch (hpos : ∀ len, grid = some len → 0 < len) :
    Ticks start final (grid.getD 0) (grid.bind (firstEpoch start final)) := by
  intro n hn
  obtain ⟨len, rfl, hn⟩ := bind_eq_some_iff.mp hn
  obtain ⟨hmul, hle⟩ := filter_eq_some_iff.mp hn
  obtain ⟨rfl, -⟩ := checkedMul_eq_some_iff.mp hmul
  exact ⟨lt_epochAfter (hpos len rfl) start, by simpa using hle, hpos len rfl⟩

lemma ticks_firstPoll (hpos : ∀ period, grid = some period → 0 < period) :
    Ticks start final (grid.getD 0)
      (grid.bind fun period => (checkedAdd start period).filter fun n => decide (n ≤ final)) := by
  intro n hn
  obtain ⟨period, rfl, hn⟩ := bind_eq_some_iff.mp hn
  obtain ⟨hadd, hle⟩ := filter_eq_some_iff.mp hn
  obtain ⟨rfl, -⟩ := checkedAdd_eq_some_iff.mp hadd
  have := hpos period rfl
  exact ⟨by omega, by simpa using hle, this⟩

lemma window_of_new (h : new inputs = some it)
    (hepoch : ∀ len, inputs.epochLen = some len → 0 < len)
    (hgoal : ∀ period, inputs.goalPollPeriod = some period → 0 < period) :
    it.Window inputs.startIcount ∧
      it.inputs = queue inputs.startIcount it.finalIcount inputs.scheduledInputs ∧
      it.injections = queue inputs.startIcount it.finalIcount inputs.injections := by
  obtain ⟨⟨final, kind⟩, hfinal, h⟩ := bind_eq_some_iff.mp h
  cases h
  exact ⟨⟨rfl, (finalOf_spec hfinal).1, queued_queue _ _ _, queued_queue _ _ _,
    ticks_firstEpoch hepoch, ticks_firstPoll hgoal⟩, rfl, rfl⟩

structure Gridded (grid : Option ℕ) (cur : ℕ) (it : AgendaIter) : Prop where
  final_lt : it.finalIcount < 2 ^ 64
  epochNext_eq : it.epochNext = gridNext grid cur it.finalIcount
  epochLen_eq : ∀ len, grid = some len → 0 < len ∧ it.epochLen = len

namespace Gridded

variable (h : it.Gridded grid cur)
include h

lemma nextIcount_le_epoch {n : ℕ}
    (hn : gridNext grid cur it.finalIcount = some n) : it.nextIcount ≤ n :=
  Window.nextIcount_le_epoch (h.epochNext_eq.trans hn)

lemma not_onGrid_of_lt_nextIcount (hcur : cur < n) (hn : n < it.nextIcount) : ¬OnGrid grid n := by
  rintro ⟨len, hgrid, hd⟩
  have hlen := (h.epochLen_eq len hgrid).1
  have hle : epochAfter len cur ≤ n := epochAfter_le hlen hd hcur
  have hfinal := Window.nextIcount_le_final it
  have hnext : gridNext grid cur it.finalIcount = some (epochAfter len cur) :=
    gridNext_eq_some_iff.mpr ⟨len, hgrid, rfl, by omega⟩
  have := h.nextIcount_le_epoch hnext
  omega

lemma epochNext_eq_nextIcount_iff (hw : it.Window cur) (hcur : cur < it.finalIcount) :
    it.epochNext = some it.nextIcount ↔ OnGrid grid it.nextIcount := by
  rw [h.epochNext_eq]
  constructor
  · intro hn
    obtain ⟨len, hgrid, hn, -⟩ := gridNext_eq_some_iff.mp hn
    exact ⟨len, hgrid, hn ▸ dvd_epochAfter len cur⟩
  · rintro ⟨len, hgrid, hd⟩
    have hlen := (h.epochLen_eq len hgrid).1
    have hle : epochAfter len cur ≤ it.nextIcount :=
      epochAfter_le hlen hd (hw.cur_lt_nextIcount hcur)
    have hfinal := Window.nextIcount_le_final it
    have hnext : gridNext grid cur it.finalIcount = some (epochAfter len cur) :=
      gridNext_eq_some_iff.mpr ⟨len, hgrid, rfl, hle.trans hfinal⟩
    rw [hnext, le_antisymm hle (h.nextIcount_le_epoch hnext)]

lemma advance_epochNext (hw : it.Window cur)
    (hcur : cur < it.finalIcount) : advance it.nextIcount it.finalIcount it.epochLen it.epochNext =
      gridNext grid it.nextIcount it.finalIcount := by
  have hlt := hw.cur_lt_nextIcount hcur
  unfold advance
  split_ifs with hhit
  · obtain ⟨len, rfl, hd⟩ := (h.epochNext_eq_nextIcount_iff hw hcur).mp hhit
    obtain ⟨hlen, hlenEq⟩ := h.epochLen_eq len rfl
    rw [hlenEq]
    simp only [gridNext, bind_some, epochAfter_of_dvd hlen hd]
    unfold checkedAdd
    have := h.final_lt
    split_ifs with hsmall hle hle
    · simp [hle]
    · simpa using not_le.mp hle
    · omega
    · rfl
  · rw [h.epochNext_eq] at hhit ⊢
    cases grid with
    | none => rfl
    | some len =>
      have hlen := (h.epochLen_eq len rfl).1
      have hoff : ¬OnGrid (some len) it.nextIcount := by
        rwa [← h.epochNext_eq_nextIcount_iff hw hcur, h.epochNext_eq]
      have hafter : it.nextIcount < epochAfter len cur := by
        by_contra hge
        have hfinal := Window.nextIcount_le_final it
        have hnext : gridNext (some len) cur it.finalIcount = some (epochAfter len cur) :=
          gridNext_eq_some_iff.mpr ⟨len, rfl, rfl, by omega⟩
        have := h.nextIcount_le_epoch hnext
        exact hoff ((onGrid_some _ _).mpr
          ((le_antisymm this (by omega)) ▸ dvd_epochAfter len cur))
      simp only [gridNext, bind_some, epochAfter_eq_of_lt hlen (le_of_lt hlt) hafter]

lemma of_next (hw : it.Window cur) (hcur : cur < it.finalIcount)
    (hnext : it.next = some (p, it')) : (p.epochHash = true ↔ OnGrid grid p.icount) ∧
      (∀ n, cur < n → n < p.icount → ¬OnGrid grid n) ∧ it'.Gridded grid p.icount := by
  simp only [next, hw.live, Bool.false_eq_true, if_false, Option.some.injEq, Prod.mk.injEq]
    at hnext
  obtain ⟨rfl, rfl⟩ := hnext
  refine ⟨?_, fun n => h.not_onGrid_of_lt_nextIcount, ?_⟩
  · exact decide_eq_true_iff.trans (h.epochNext_eq_nextIcount_iff hw hcur)
  · exact ⟨h.final_lt, h.advance_epochNext hw hcur, h.epochLen_eq⟩

end Gridded

lemma Gridded.has_point {m cur : ℕ} {it : AgendaIter} (h : it.Gridded grid cur) (hw : it.Window cur)
    (hm : OnGrid grid m) (hcur : cur < m) (hle : m ≤ it.finalIcount) :
    ∃ q, it.Has q ∧ q.icount = m := by
  obtain ⟨p, it', hnext, hyields⟩ := hw.yields
  obtain ⟨-, hgap, hrest⟩ := h.of_next hw (hcur.trans_le hle) hnext
  have hp : p.icount ≤ m := not_lt.mp fun hlt => hgap m hcur hlt hm
  rcases hp.eq_or_lt with heq | hlt
  · exact ⟨p, .here hnext, heq⟩
  · have hcur' := hyields.cur_lt (hcur.trans_le hle)
    obtain ⟨q, hq, hqm⟩ := hrest.has_point (hyields.rest (hlt.trans_le hle)) hm hlt
      (hyields.rest_final ▸ hle)
    exact ⟨q, .later hnext hq, hqm⟩
termination_by m - cur

lemma gridded_of_new (h : new inputs = some it) (hlt : inputs.startIcount < it.finalIcount)
    (hepoch : ∀ len, inputs.epochLen = some len → 0 < len) :
    it.Gridded inputs.epochLen inputs.startIcount := by
  obtain ⟨⟨final, kind⟩, hfinal, h⟩ := bind_eq_some_iff.mp h
  cases h
  have hbound : final < 2 ^ 64 := (finalOf_spec hfinal).2 hlt
  exact ⟨hbound, bind_firstEpoch _ _ hbound, fun len hlen => ⟨hepoch len hlen, by simp [hlen]⟩⟩

/-- The iterator of a run without polls and injections: queue and grid cover the window `(cur,
final]`. -/
structure At (grid : Option ℕ) (cur : ℕ) (it : AgendaIter) : Prop where
  live : it.done = false
  cur_le : cur ≤ it.finalIcount
  final_lt : it.finalIcount < 2 ^ 64
  inputs_sorted : it.inputs.Pairwise fun a b => a.1 ≤ b.1
  inputs_mem : ∀ p ∈ it.inputs, cur < p.1 ∧ p.1 ≤ it.finalIcount
  injections_eq : it.injections = []
  goalNext_eq : it.goalNext = none
  epochNext_eq : it.epochNext = gridNext grid cur it.finalIcount
  epochLen_eq : ∀ len, grid = some len → 0 < len ∧ it.epochLen = len

/-- What the next point of such an agenda is, and where it leaves the
iterator. -/
structure NextSpec (grid : Option ℕ) (cur : ℕ) (it : AgendaIter) (p : StopPoint)
    (it' : AgendaIter) : Prop where
  cur_lt : cur < p.icount
  le_final : p.icount ≤ it.finalIcount
  injections_eq : p.injections = []
  goalPoll_eq : p.goalPoll = false
  inputs_eq : p.inputs = (it.inputs.filter fun q => decide (q.1 = p.icount)).map Prod.snd
  epochHash_iff : p.epochHash = true ↔ OnGrid grid p.icount
  finalStop_eq : p.finalStop = if p.icount = it.finalIcount then some it.stopKind else none
  no_grid : ∀ n, cur < n → n < p.icount → ¬OnGrid grid n
  no_input : ∀ q ∈ it.inputs, p.icount ≤ q.1
  cause : p.icount = it.finalIcount ∨ OnGrid grid p.icount ∨ p.inputs ≠ []
  rest : p.icount < it.finalIcount → it'.At grid p.icount
  rest_final : it'.finalIcount = it.finalIcount
  rest_kind : it'.stopKind = it.stopKind
  rest_inputs : it'.inputs = it.inputs.filter fun q => decide (p.icount < q.1)

lemma finalOf_eq (hstop : inputs.finalStop = .icountBudget b ∨ inputs.finalStop = .hardCap b)
    (hne : finalOf inputs ≠ none) : inputs.startIcount + b < 2 ^ 64 ∧ ∃ kind,
      finalOf inputs = some (inputs.startIcount + b, kind) ∧
        (inputs.finalStop = .icountBudget b → kind = .budget) := by
  rcases hstop with hstop | hstop <;> simp only [finalOf, hstop] at hne ⊢ <;>
    cases hadd : checkedAdd inputs.startIcount b with
    | none => simp [hadd] at hne
    | some n =>
      obtain ⟨rfl, hlt⟩ := checkedAdd_eq_some_iff.mp hadd
      exact ⟨hlt, _, rfl, by simp⟩

lemma new_isSome (hstop : inputs.finalStop = .icountBudget b ∨ inputs.finalStop = .hardCap b)
    (hlt : inputs.startIcount + b < 2 ^ 64) : ∃ it, new inputs = some it := by
  have hadd : checkedAdd inputs.startIcount b = some (inputs.startIcount + b) :=
    checkedAdd_eq_some_iff.mpr ⟨rfl, hlt⟩
  rcases hstop with hstop | hstop <;> simp [new, finalOf, hstop, hadd]

lemma at_of_new (h : new inputs = some it)
    (hstop : inputs.finalStop = .icountBudget b ∨ inputs.finalStop = .hardCap b)
    (hinj : inputs.injections = []) (hgoal : inputs.goalPollPeriod = none)
    (hgrid : ∀ len, inputs.epochLen = some len → 0 < len) :
    it.At inputs.epochLen inputs.startIcount ∧ it.finalIcount = inputs.startIcount + b ∧
      it.inputs = queue inputs.startIcount it.finalIcount inputs.scheduledInputs ∧
      (inputs.finalStop = .icountBudget b → it.stopKind = .budget) := by
  have hne : finalOf inputs ≠ none := by
    intro hnone
    simp [new, hnone] at h
  obtain ⟨hlt, kind, hfinal, hkind⟩ := finalOf_eq hstop hne
  simp only [new, hfinal, bind_eq_bind, bind_some] at h
  cases h
  refine ⟨?_, rfl, rfl, hkind⟩
  exact
    { live := rfl
      cur_le := le_add_right _ _
      final_lt := hlt
      inputs_sorted := queue_sorted _ _ _
      inputs_mem := fun p hp => (mem_queue_iff.mp hp).2
      injections_eq := by simp [queue, hinj]
      goalNext_eq := by simp [hgoal]
      epochNext_eq := bind_firstEpoch _ _ hlt
      epochLen_eq := fun len hlen => ⟨hgrid len hlen, by simp [hlen]⟩ }

namespace At

variable (h : it.At grid cur)
include h

lemma nextIcount_eq : it.nextIcount =
      minWith (minWith it.finalIcount (it.inputs.head?.map Prod.fst)) it.epochNext := by
  simp [nextIcount, h.injections_eq, h.goalNext_eq, minWith]

lemma gridded : it.Gridded grid cur := ⟨h.final_lt, h.epochNext_eq, h.epochLen_eq⟩

lemma window : it.Window cur := by
  refine ⟨h.live, h.cur_le, ⟨h.inputs_sorted, h.inputs_mem⟩, ?_, ?_, ?_⟩
  · rw [h.injections_eq]
    exact ⟨.nil, fun _ hp => by cases hp⟩
  · intro n hn
    rw [h.epochNext_eq] at hn
    obtain ⟨len, hgrid, rfl, hle⟩ := gridNext_eq_some_iff.mp hn
    obtain ⟨hpos, hlen⟩ := h.epochLen_eq len hgrid
    exact ⟨lt_epochAfter hpos cur, hle, hlen ▸ hpos⟩
  · intro n hn
    rw [h.goalNext_eq] at hn
    cases hn

lemma nextIcount_cause (hcur : cur < it.finalIcount) :
    it.nextIcount = it.finalIcount ∨ OnGrid grid it.nextIcount ∨
      ∃ q ∈ it.inputs, q.1 = it.nextIcount := by
  have heq := h.nextIcount_eq
  rcases minWith_eq (minWith it.finalIcount (it.inputs.head?.map Prod.fst)) it.epochNext with
    hmin | hepoch
  · rw [hmin] at heq
    rcases minWith_eq it.finalIcount (it.inputs.head?.map Prod.fst) with hfinal | hinput
    · exact .inl (heq.trans hfinal)
    · rw [← heq] at hinput
      obtain ⟨q, hq, hqat⟩ := map_eq_some_iff.mp hinput
      exact .inr (.inr ⟨q, mem_of_mem_head? hq, hqat⟩)
  · rw [← heq] at hepoch
    exact .inr (.inl ((h.gridded.epochNext_eq_nextIcount_iff h.window hcur).mp hepoch))

lemma next_spec (hcur : cur < it.finalIcount) :
    ∃ p it', it.next = some (p, it') ∧ NextSpec grid cur it p it' := by
  have hmin := h.window.nextIcount_le_input
  refine ⟨_, _, by simp [next, h.live]; exact ⟨rfl, rfl⟩, ?_⟩
  refine
    { cur_lt := h.window.cur_lt_nextIcount hcur
      le_final := Window.nextIcount_le_final it
      injections_eq := by simp [h.injections_eq]
      goalPoll_eq := by simp [h.goalNext_eq]
      inputs_eq := by
        simp only
        rw [takeWhile_eq_filter h.inputs_sorted hmin]
      epochHash_iff := by simpa using h.gridded.epochNext_eq_nextIcount_iff h.window hcur
      finalStop_eq := rfl
      no_grid := fun n => h.gridded.not_onGrid_of_lt_nextIcount
      no_input := hmin
      cause := ?_
      rest := ?_
      rest_final := rfl
      rest_kind := rfl
      rest_inputs := dropWhile_eq_filter h.inputs_sorted hmin }
  · rcases h.nextIcount_cause hcur with hfinal | hgrid | ⟨q, hq, hqat⟩
    · exact .inl hfinal
    · exact .inr (.inl hgrid)
    · refine .inr (.inr ?_)
      simp only
      rw [takeWhile_eq_filter h.inputs_sorted hmin]
      have : q ∈ it.inputs.filter fun p => decide (p.1 = it.nextIcount) :=
        mem_filter.mpr ⟨hq, by simpa using hqat⟩
      simpa using ne_nil_of_mem this
  intro hlt
  refine
    { live := by simpa using Nat.ne_of_lt hlt
      cur_le := Window.nextIcount_le_final it
      final_lt := h.final_lt
      inputs_sorted := h.inputs_sorted.sublist (dropWhile_sublist _)
      inputs_mem := ?_
      injections_eq := by simp [h.injections_eq]
      goalNext_eq := by simp [advance, h.goalNext_eq]
      epochNext_eq := h.gridded.advance_epochNext h.window hcur
      epochLen_eq := h.epochLen_eq }
  intro p hp
  simp only at hp
  rw [dropWhile_eq_filter h.inputs_sorted hmin] at hp
  obtain ⟨hp, hlt⟩ := mem_filter.mp hp
  exact ⟨by simpa using hlt, (h.inputs_mem p hp).2⟩

lemma next_of_final (hcur : cur = it.finalIcount) :
    ∃ it', it.next = some (⟨it.finalIcount, [], [], false, false, some it.stopKind⟩, it') := by
  have hinputs : it.inputs = [] := by
    rw [eq_nil_iff_forall_not_mem]
    intro p hp
    have := h.inputs_mem p hp
    omega
  have hepoch : it.epochNext = none := by
    rw [h.epochNext_eq, eq_none_iff_forall_ne_some]
    intro n hn
    obtain ⟨len, hgrid, rfl, hle⟩ := gridNext_eq_some_iff.mp hn
    have := lt_epochAfter (h.epochLen_eq len hgrid).1 cur
    omega
  have hnext : it.nextIcount = it.finalIcount := by
    rw [h.nextIcount_eq, hinputs, hepoch]
    rfl
  simp [next, h.live, hnext, hinputs, hepoch, h.injections_eq, h.goalNext_eq]

end At

end AgendaIter

end DetHypervisor
