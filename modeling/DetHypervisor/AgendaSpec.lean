import DetHypervisor.Agenda
import DetHypervisor.Lib.Upcoming

/-!
# What the agenda of a run is

The points of an agenda are the counts of the window `(start, final]` at which something is due,
and the final stop. The constructor's plain `start / len + 1` is brought back here, over the
whole of `u64`.
-/

namespace DetHypervisor

open List Option AgendaIter

def FinalStop.kind : FinalStop → StopKind
  | .icountBudget _ => .budget
  | .vnsBudget _ => .budget
  | .hardCap _ => .hardCap

def FinalStop.amount : FinalStop → ℕ
  | .icountBudget b => b
  | .vnsBudget b => b
  | .hardCap c => c

variable (inputs : AgendaInputs) (final : ℕ) (kind : StopKind)

/-- The types of the source: counts are `u64`, spacings are `NonZeroU64` and the
terms of the clock are `u32`. -/
structure AgendaInputs.Fits : Prop where
  start_lt : inputs.startIcount < 2 ^ 64
  scheduled_lt : ∀ n ∈ inputs.scheduledInputs, n < 2 ^ 64
  injections_lt : ∀ n ∈ inputs.injections, n < 2 ^ 64
  epoch : ∀ len, inputs.epochLen = some len → 0 < len ∧ len < 2 ^ 64
  poll : ∀ period, inputs.goalPollPeriod = some period → 0 < period ∧ period < 2 ^ 64
  amount_lt : inputs.finalStop.amount < 2 ^ 64
  clock_lt : inputs.clock.num < 2 ^ 32 ∧ inputs.clock.den < 2 ^ 32

/-- `n` is the final count; a budget of virtual time ends at the first count whose time has
advanced by it. -/
def AgendaInputs.Final (n : ℕ) : Prop :=
  match inputs.finalStop with
  | .icountBudget b => n = inputs.startIcount + b
  | .hardCap c => n = inputs.startIcount + c
  | .vnsBudget b => IsLeast {m | inputs.startIcount ≤ m ∧
      inputs.startIcount * inputs.clock.num / inputs.clock.den + b ≤
        m * inputs.clock.num / inputs.clock.den} n

def AgendaInputs.Timely : Prop :=
  match inputs.finalStop with
  | .vnsBudget b => inputs.startIcount * inputs.clock.num / inputs.clock.den + b < 2 ^ 64
  | _ => True

def PollPoint (period : Option ℕ) (start n : ℕ) : Prop :=
  ∃ len k, period = some len ∧ n = start + k * len

def AgendaInputs.Due (n : ℕ) : Prop :=
  n ∈ inputs.scheduledInputs ∨ n ∈ inputs.injections ∨ OnGrid inputs.epochLen n ∨
    PollPoint inputs.goalPollPeriod inputs.startIcount n

structure PointSpec (p : StopPoint) : Prop where
  inputs_ascending : p.inputs.Pairwise (· < ·)
  mem_inputs : ∀ i, i ∈ p.inputs ↔
    inputs.startIcount < p.icount ∧ inputs.scheduledInputs[i]? = some p.icount
  injections_ascending : p.injections.Pairwise (· < ·)
  mem_injections : ∀ i, i ∈ p.injections ↔
    inputs.startIcount < p.icount ∧ inputs.injections[i]? = some p.icount
  epochHash_iff : p.epochHash = true ↔
    inputs.startIcount < p.icount ∧ OnGrid inputs.epochLen p.icount
  goalPoll_iff : p.goalPoll = true ↔
    inputs.startIcount < p.icount ∧
      PollPoint inputs.goalPollPeriod inputs.startIcount p.icount
  finalStop_eq : p.finalStop = if p.icount = final then some kind else none

structure IsAgenda (ps : List StopPoint) : Prop where
  increasing : ps.Pairwise (·.icount < ·.icount)
  mem_icount : ∀ n, (∃ p ∈ ps, p.icount = n) ↔
    n = final ∨ inputs.startIcount < n ∧ n ≤ final ∧ inputs.Due n
  point : ∀ p ∈ ps, PointSpec inputs final kind p
  last : ∃ front p, ps = front ++ [p] ∧ p.finalStop = some kind ∧
    ∀ q ∈ front, q.finalStop = none

namespace AgendaIter

/-- `Iterator::collect`: the points up to the end of the iterator. -/
inductive Collects : AgendaIter → List StopPoint → Prop
  | nil {it : AgendaIter} (h : it.next = none) : Collects it []
  | cons {it it' : AgendaIter} {p : StopPoint} {ps : List StopPoint}
      (h : it.next = some (p, it')) (hrest : Collects it' ps) : Collects it (p :: ps)

/-! ## The sources of an agenda -/

def queueLt (a b : ℕ × ℕ) : Prop := a.1 < b.1 ∨ a.1 = b.1 ∧ a.2 < b.2

instance : Std.Antisymm queueLt := ⟨by intro a b; unfold queueLt; omega⟩

instance : Std.Irrefl queueLt := ⟨by intro a; unfold queueLt; omega⟩

section Queues

variable {cur final at_ : ℕ} {points : List ℕ}

lemma upcoming_queue (cur final : ℕ) (points : List ℕ) :
    Upcoming (· ∈ points) cur final ((queue cur final points).head?.map Prod.fst) := by
  constructor
  · intro n hn
    obtain ⟨q, hq, rfl⟩ := map_eq_some_iff.mp hn
    obtain ⟨hget, hwindow⟩ := mem_queue_iff.mp (mem_of_mem_head? hq)
    exact ⟨hwindow.1, hwindow.2, mem_of_getElem? hget⟩
  · intro m hm hcur hfinal
    obtain ⟨i, hi⟩ := List.getElem?_of_mem hm
    have hmem : (m, i) ∈ queue cur final points := mem_queue_iff.mpr ⟨hi, hcur, hfinal⟩
    obtain ⟨q, hq⟩ : ∃ q, (queue cur final points).head? = some q :=
      isSome_iff_exists.mp (by simpa using ne_nil_of_mem hmem)
    have hhead : (queue cur final points).head?.map Prod.fst = some q.1 := by rw [hq]; rfl
    exact ⟨q.1, hhead, (queued_queue cur final points).head_le hhead _ hmem⟩

lemma queue_dropWhile (hcur : cur ≤ at_) (hmin : ∀ p ∈ queue cur final points, at_ ≤ p.1) :
    (queue cur final points).dropWhile (fun p => p.1 == at_) = queue at_ final points := by
  rw [dropWhile_eq_filter (queue_sorted cur final points) hmin]
  refine List.Pairwise.eq_of_mem_iff (r := queueLt) ?_ (queue_ordered at_ final points) ?_
  · exact (queue_ordered cur final points).filter _
  · intro p
    rw [mem_filter, mem_queue_iff, mem_queue_iff, decide_eq_true_eq]
    constructor
    · exact fun h => ⟨h.1.1, h.2, h.1.2.2⟩
    · exact fun h => ⟨⟨h.1, hcur.trans_lt h.2.1, h.2.2⟩, h.2.1⟩

lemma queue_append {m : ℕ} (hcur : cur ≤ m) (hm : m ≤ final) :
    queue cur m points ++ queue m final points = queue cur final points := by
  refine List.Pairwise.eq_of_mem_iff (r := queueLt) ?_ (queue_ordered cur final points) ?_
  · refine pairwise_append.mpr ⟨queue_ordered _ _ _, queue_ordered _ _ _, ?_⟩
    intro a ha b hb
    have := (mem_queue_iff.mp ha).2
    have := (mem_queue_iff.mp hb).2
    unfold queueLt
    omega
  · intro p
    rw [mem_append, mem_queue_iff, mem_queue_iff, mem_queue_iff, ← and_or_left]
    refine and_congr_right fun _ => ?_
    omega

lemma taken_ascending (hmin : ∀ p ∈ queue cur final points, at_ ≤ p.1) :
    (((queue cur final points).takeWhile fun p => p.1 == at_).map Prod.snd).Pairwise
      (· < ·) := by
  rw [takeWhile_eq_filter (queue_sorted cur final points) hmin, pairwise_map]
  refine ((queue_ordered cur final points).filter _).imp_of_mem ?_
  intro a b ha hb hab
  have hat : a.1 = at_ := by simpa using (mem_filter.mp ha).2
  have hbt : b.1 = at_ := by simpa using (mem_filter.mp hb).2
  omega

lemma mem_taken_iff (hmin : ∀ p ∈ queue cur final points, at_ ≤ p.1) (hfinal : at_ ≤ final)
    (i : ℕ) : i ∈ ((queue cur final points).takeWhile fun p => p.1 == at_).map Prod.snd ↔
      cur < at_ ∧ points[i]? = some at_ := by
  rw [takeWhile_eq_filter (queue_sorted cur final points) hmin, List.mem_map]
  constructor
  · rintro ⟨q, hq, rfl⟩
    obtain ⟨hqueue, hat⟩ := List.mem_filter.mp hq
    obtain ⟨hget, hlt, -⟩ := mem_queue_iff.mp hqueue
    have heq : q.1 = at_ := by simpa using hat
    exact ⟨heq ▸ hlt, heq ▸ hget⟩
  · rintro ⟨hlt, hget⟩
    exact ⟨(at_, i), List.mem_filter.mpr
      ⟨mem_queue_iff.mpr ⟨hget, hlt, hfinal⟩, by simp⟩, rfl⟩

end Queues

/-! ## Where an agenda stands -/

/-- An iterator over `inputs` that has handed out every point up to `cur`. -/
structure Stands (inputs : AgendaInputs) (cur : ℕ) (it : AgendaIter) : Prop where
  live : it.done = false
  start_le : inputs.startIcount ≤ cur
  cur_le : cur ≤ it.finalIcount
  final_lt : it.finalIcount < 2 ^ 64
  inputs_eq : it.inputs = queue cur it.finalIcount inputs.scheduledInputs
  injections_eq : it.injections = queue cur it.finalIcount inputs.injections
  epochs : Upcoming (OnGrid inputs.epochLen) cur it.finalIcount it.epochNext
  polls : Upcoming (PollPoint inputs.goalPollPeriod inputs.startIcount) cur it.finalIcount
    it.goalNext
  epochLen_eq : ∀ len, inputs.epochLen = some len → 0 < len ∧ it.epochLen = len
  goalPeriod_eq : ∀ len, inputs.goalPollPeriod = some len → 0 < len ∧ it.goalPeriod = len

lemma upcoming_advance {S : ℕ → Prop} {cur final at_ len : ℕ} {next : Option ℕ}
    (h : Upcoming S cur final next) (hcur : cur ≤ at_) (hfinal : final < 2 ^ 64)
    (hmin : ∀ n, next = some n → at_ ≤ n) (hstride : ∀ n, cur < n → S n →
      0 < len ∧ S (n + len) ∧ ∀ m, n < m → m < n + len → ¬S m) :
    Upcoming S at_ final (advance at_ final len next) := by
  unfold advance
  split_ifs with hhit
  · have hlen := (hstride at_ (h.sound at_ hhit).1 (h.sound at_ hhit).2.2).1
    have hnext := h.stride (fun n hn hS => (hstride n hn hS).2) hlen hhit
    convert hnext using 1
    unfold checkedAdd
    split_ifs with hsmall hle hle
    · simp [hle]
    · simpa using Nat.not_le.mp hle
    · omega
    · rfl
  · exact h.skip hcur hmin hhit

lemma onGrid_stride {len n m : ℕ} (hd : len ∣ n) (hlt : n < m) (hm : m < n + len) : ¬len ∣ m := by
  intro hdm
  have hdvd : len ∣ m - n := Nat.dvd_sub hdm hd
  have := Nat.le_of_dvd (by omega) hdvd
  omega

namespace Stands

variable {inputs : AgendaInputs} {cur : ℕ} {it : AgendaIter}

variable (h : it.Stands inputs cur)
include h

lemma epoch_stride (n : ℕ) (hn : OnGrid inputs.epochLen n) :
    0 < it.epochLen ∧ OnGrid inputs.epochLen (n + it.epochLen) ∧
      ∀ m, n < m → m < n + it.epochLen → ¬OnGrid inputs.epochLen m := by
  obtain ⟨len, hlen, hd⟩ := hn
  obtain ⟨hpos, heq⟩ := h.epochLen_eq len hlen
  rw [heq, hlen]
  refine ⟨hpos, (onGrid_some _ _).mpr (hd.add (dvd_refl len)), fun m hlt hm => ?_⟩
  rw [onGrid_some]
  exact onGrid_stride hd hlt hm

lemma poll_stride (n : ℕ) (hn : PollPoint inputs.goalPollPeriod inputs.startIcount n) :
    0 < it.goalPeriod ∧ PollPoint inputs.goalPollPeriod inputs.startIcount (n + it.goalPeriod) ∧
      ∀ m, n < m → m < n + it.goalPeriod →
        ¬PollPoint inputs.goalPollPeriod inputs.startIcount m := by
  obtain ⟨len, k, hlen, rfl⟩ := hn
  obtain ⟨hpos, heq⟩ := h.goalPeriod_eq len hlen
  rw [heq]
  refine ⟨hpos, ⟨len, k + 1, hlen, by ring⟩, ?_⟩
  rintro m hlt hm ⟨len', j, hlen', rfl⟩
  obtain rfl : len = len' := Option.some.inj (hlen.symm.trans hlen')
  refine onGrid_stride (Dvd.intro_left k rfl) (m := j * len) ?_ ?_ (Dvd.intro_left j rfl)
  · omega
  · omega

lemma window : it.Window cur := by
  refine ⟨h.live, h.cur_le, ?_, ?_, ?_, ?_⟩
  · rw [h.inputs_eq]
    exact queued_queue _ _ _
  · rw [h.injections_eq]
    exact queued_queue _ _ _
  · intro n hn
    obtain ⟨hlt, hle, hgrid⟩ := h.epochs.sound n hn
    exact ⟨hlt, hle, (h.epoch_stride n hgrid).1⟩
  · intro n hn
    obtain ⟨hlt, hle, hpoll⟩ := h.polls.sound n hn
    exact ⟨hlt, hle, (h.poll_stride n hpoll).1⟩

lemma input_min : ∀ p ∈ queue cur it.finalIcount inputs.scheduledInputs, it.nextIcount ≤ p.1 := by
  rw [← h.inputs_eq]
  exact h.window.nextIcount_le_input

lemma injection_min : ∀ p ∈ queue cur it.finalIcount inputs.injections, it.nextIcount ≤ p.1 := by
  rw [← h.injections_eq]
  exact h.window.nextIcount_le_injection

lemma rest {p : StopPoint} {it' : AgendaIter}
    (hnext : it.next = some (p, it')) (hp : p.icount < it.finalIcount) :
    it'.Stands inputs p.icount ∧ it'.finalIcount = it.finalIcount ∧ it'.stopKind = it.stopKind := by
  have hcur := h.window.cur_le_nextIcount
  simp only [next, h.live, Bool.false_eq_true, if_false, Option.some.injEq, Prod.mk.injEq]
    at hnext
  obtain ⟨rfl, rfl⟩ := hnext
  refine ⟨?_, rfl, rfl⟩
  exact
    { live := by simpa using Nat.ne_of_lt hp
      start_le := h.start_le.trans hcur
      cur_le := Window.nextIcount_le_final it
      final_lt := h.final_lt
      inputs_eq := by
        rw [h.inputs_eq]
        exact queue_dropWhile hcur h.input_min
      injections_eq := by
        rw [h.injections_eq]
        exact queue_dropWhile hcur h.injection_min
      epochs := upcoming_advance h.epochs hcur h.final_lt
        (fun _ => Window.nextIcount_le_epoch) fun n _ hn => h.epoch_stride n hn
      polls := upcoming_advance h.polls hcur h.final_lt
        (fun _ => Window.nextIcount_le_goal) fun n _ hn => h.poll_stride n hn
      epochLen_eq := h.epochLen_eq
      goalPeriod_eq := h.goalPeriod_eq }

lemma not_due {n : ℕ} (hcur : cur < n) (hn : n < it.nextIcount) : ¬inputs.Due n := by
  have hfinal := Window.nextIcount_le_final it
  rintro (hdue | hdue | hdue | hdue)
  · refine (upcoming_queue cur it.finalIcount inputs.scheduledInputs).not_of_lt hfinal ?_
      hcur hn hdue
    intro m hm
    obtain ⟨q, hq, rfl⟩ := map_eq_some_iff.mp hm
    exact h.input_min q (mem_of_mem_head? hq)
  · refine (upcoming_queue cur it.finalIcount inputs.injections).not_of_lt hfinal ?_
      hcur hn hdue
    intro m hm
    obtain ⟨q, hq, rfl⟩ := map_eq_some_iff.mp hm
    exact h.injection_min q (mem_of_mem_head? hq)
  · exact h.epochs.not_of_lt hfinal (fun _ => Window.nextIcount_le_epoch) hcur hn hdue
  · exact h.polls.not_of_lt hfinal (fun _ => Window.nextIcount_le_goal) hcur hn hdue

lemma due : it.nextIcount = it.finalIcount ∨ inputs.Due it.nextIcount := by
  have hqueue : ∀ {points : List ℕ}, ((queue cur it.finalIcount points).head?.map Prod.fst =
      some it.nextIcount) → it.nextIcount ∈ points := by
    intro points hhead
    exact ((upcoming_queue cur it.finalIcount points).sound _ hhead).2.2
  have hcases : it.nextIcount = it.finalIcount ∨
      it.inputs.head?.map Prod.fst = some it.nextIcount ∨
      it.injections.head?.map Prod.fst = some it.nextIcount ∨
      it.epochNext = some it.nextIcount ∨ it.goalNext = some it.nextIcount := by
    unfold nextIcount
    set a := minWith it.finalIcount (it.inputs.head?.map Prod.fst) with ha
    set b := minWith a (it.injections.head?.map Prod.fst) with hb
    set c := minWith b it.epochNext with hc
    rcases minWith_eq c it.goalNext with hd | hd
    · rw [hd, hc]
      rcases minWith_eq b it.epochNext with he | he
      · rw [he, hb]
        rcases minWith_eq a (it.injections.head?.map Prod.fst) with hf | hf
        · rw [hf, ha]
          rcases minWith_eq it.finalIcount (it.inputs.head?.map Prod.fst) with hg | hg
          · exact .inl hg
          · exact .inr (.inl hg)
        · exact .inr (.inr (.inl hf))
      · exact .inr (.inr (.inr (.inl he)))
    · exact .inr (.inr (.inr (.inr hd)))
  rcases hcases with hfinal | hin | hinj | hepoch | hgoal
  · exact .inl hfinal
  · exact .inr (.inl (hqueue (h.inputs_eq ▸ hin)))
  · exact .inr (.inr (.inl (hqueue (h.injections_eq ▸ hinj))))
  · exact .inr (.inr (.inr (.inl (h.epochs.sound _ hepoch).2.2)))
  · exact .inr (.inr (.inr (.inr (h.polls.sound _ hgoal).2.2)))

lemma pointSpec
    (hstart : cur < it.finalIcount ∨ cur = inputs.startIcount) {p : StopPoint} {it' : AgendaIter}
    (hnext : it.next = some (p, it')) : PointSpec inputs it.finalIcount it.stopKind p := by
  have hfinal := Window.nextIcount_le_final it
  -- An entry after the start is an entry after `cur`, as `cur` has been handed out.
  have hlate : inputs.startIcount < it.nextIcount → cur < it.nextIcount := by
    intro hlt
    rcases hstart with hshort | rfl
    · exact h.window.cur_lt_nextIcount hshort
    · exact hlt
  have hiff : cur < it.nextIcount ↔ inputs.startIcount < it.nextIcount :=
    ⟨h.start_le.trans_lt, hlate⟩
  have hgrid : ∀ {S : ℕ → Prop} {next : Option ℕ}, Upcoming S cur it.finalIcount next →
      (∀ n, next = some n → it.nextIcount ≤ n) →
      (next = some it.nextIcount ↔ inputs.startIcount < it.nextIcount ∧ S it.nextIcount) := by
    intro S next hS hmin
    rw [← hiff]
    constructor
    · exact fun hhit => ⟨(hS.sound _ hhit).1, (hS.sound _ hhit).2.2⟩
    · exact fun hhit => (hS.hit_iff hhit.1 hfinal hmin).mpr hhit.2
  simp only [next, h.live, Bool.false_eq_true, if_false, Option.some.injEq, Prod.mk.injEq]
    at hnext
  obtain ⟨rfl, -⟩ := hnext
  exact
    { inputs_ascending := by
        rw [h.inputs_eq]
        exact taken_ascending h.input_min
      mem_inputs := fun i => by
        rw [h.inputs_eq, ← hiff]
        exact mem_taken_iff h.input_min hfinal i
      injections_ascending := by
        rw [h.injections_eq]
        exact taken_ascending h.injection_min
      mem_injections := fun i => by
        rw [h.injections_eq, ← hiff]
        exact mem_taken_iff h.injection_min hfinal i
      epochHash_iff := decide_eq_true_iff.trans
        (hgrid h.epochs fun _ => Window.nextIcount_le_epoch)
      goalPoll_iff := decide_eq_true_iff.trans
        (hgrid h.polls fun _ => Window.nextIcount_le_goal)
      finalStop_eq := rfl }

end Stands

/-- `ps` are the points an agenda that stands at `cur` still has. -/
structure Covers (inputs : AgendaInputs) (cur : ℕ) (it : AgendaIter) (ps : List StopPoint) :
    Prop where
  increasing : ps.Pairwise (·.icount < ·.icount)
  mem_icount : ∀ n, (∃ p ∈ ps, p.icount = n) ↔
    n = it.finalIcount ∨ cur < n ∧ n ≤ it.finalIcount ∧ inputs.Due n
  point : ∀ p ∈ ps, PointSpec inputs it.finalIcount it.stopKind p
  last : ∃ front p, ps = front ++ [p] ∧ p.icount = it.finalIcount ∧
    ∀ q ∈ front, q.icount < it.finalIcount
  inputs_eq : ps.flatMap (fun p => p.inputs.map (p.icount, ·)) = it.inputs
  injections_eq : ps.flatMap (fun p => p.injections.map (p.icount, ·)) = it.injections

lemma Queued.eq_nil {cur final : ℕ} {q : List (ℕ × ℕ)} (h : Queued cur final q)
    (hcur : final ≤ cur) : q = [] := by
  rw [eq_nil_iff_forall_not_mem]
  intro p hp
  have := h.mem p hp
  omega

namespace Stands

variable {inputs : AgendaInputs} {cur : ℕ} {it it' : AgendaIter} {p : StopPoint}

lemma covers_final (h : it.Stands inputs cur)
    (hstart : cur < it.finalIcount ∨ cur = inputs.startIcount) (hnext : it.next = some (p, it'))
    (hlast : p.icount = it.finalIcount) : Covers inputs cur it [p] := by
  have hyields := h.window.yields_of_next hnext
  have hicount := icount_of_next hnext
  -- Both queues are cut at the point, and the point is the end of the window.
  have hcut : ∀ {q : List (ℕ × ℕ)}, Queued cur it.finalIcount q →
      (∀ r ∈ q, it.nextIcount ≤ r.1) → q.dropWhile (fun r => r.1 == it.nextIcount) = [] := by
    intro q hq hmin
    exact (hq.split hmin).2.eq_nil (hlast.symm.trans hicount).le
  have hrest : it'.inputs = [] ∧ it'.injections = [] := by
    simp only [next, h.live, Bool.false_eq_true, if_false, Option.some.injEq, Prod.mk.injEq]
      at hnext
    rw [← hnext.2]
    exact ⟨hcut h.window.inputs h.window.nextIcount_le_input,
      hcut h.window.injections h.window.nextIcount_le_injection⟩
  constructor
  · exact pairwise_singleton _ _
  · intro n
    constructor
    · rintro ⟨q, hq, rfl⟩
      rw [mem_singleton.mp hq]
      exact .inl hlast
    · rintro (rfl | ⟨hcur, hle, hdue⟩)
      · exact ⟨p, mem_singleton_self p, hlast⟩
      · refine ⟨p, mem_singleton_self p, hlast.trans (le_antisymm ?_ hle)⟩
        by_contra hlt
        exact h.not_due hcur (by omega) hdue
  · intro q hq
    rw [mem_singleton.mp hq]
    exact h.pointSpec hstart hnext
  · exact ⟨[], p, rfl, hlast, by simp⟩
  · rw [hyields.inputs_eq, hrest.1]
    simp
  · rw [hyields.injections_eq, hrest.2]
    simp

lemma covers_cons (h : it.Stands inputs cur) (hnext : it.next = some (p, it'))
    (hshort : p.icount < it.finalIcount) {ps : List StopPoint}
    (hps : Covers inputs p.icount it' ps) : Covers inputs cur it (p :: ps) := by
  have hyields := h.window.yields_of_next hnext
  have hicount := icount_of_next hnext
  have hcur : cur < p.icount := hyields.cur_lt (hyields.cur_le.trans_lt hshort)
  obtain ⟨-, hfinal, hkind⟩ := h.rest hnext hshort
  have hmem := hps.mem_icount
  rw [hfinal] at hmem
  constructor
  · refine pairwise_cons.mpr ⟨fun q hq => ?_, hps.increasing⟩
    rcases (hmem q.icount).mp ⟨q, hq, rfl⟩ with heq | hlater
    · exact heq ▸ hshort
    · exact hlater.1
  · intro n
    constructor
    · rintro ⟨q, hq, rfl⟩
      rcases mem_cons.mp hq with rfl | hq
      · rcases h.due with hdue | hdue
        · exact .inl (hicount.trans hdue)
        · exact .inr ⟨hcur, hshort.le, hicount ▸ hdue⟩
      · rcases (hmem q.icount).mp ⟨q, hq, rfl⟩ with heq | hlater
        · exact .inl heq
        · exact .inr ⟨hcur.trans hlater.1, hlater.2⟩
    · rintro (rfl | ⟨hlt, hle, hdue⟩)
      · obtain ⟨q, hq, hqn⟩ := (hmem _).mpr (.inl rfl)
        exact ⟨q, mem_cons_of_mem p hq, hqn⟩
      · rcases Nat.lt_trichotomy n p.icount with hbefore | rfl | hafter
        · exact (h.not_due hlt (hicount ▸ hbefore) hdue).elim
        · exact ⟨p, mem_cons_self, rfl⟩
        · obtain ⟨q, hq, hqn⟩ := (hmem n).mpr (.inr ⟨hafter, hle, hdue⟩)
          exact ⟨q, mem_cons_of_mem p hq, hqn⟩
  · intro q hq
    rcases mem_cons.mp hq with rfl | hq
    · exact h.pointSpec (.inl (hcur.trans hshort)) hnext
    · have hpoint := hps.point q hq
      rwa [hfinal, hkind] at hpoint
  · obtain ⟨front, last, rfl, hlast, hfront⟩ := hps.last
    rw [hfinal] at hlast hfront
    refine ⟨p :: front, last, rfl, hlast, fun q hq => ?_⟩
    rcases mem_cons.mp hq with rfl | hq
    · exact hshort
    · exact hfront q hq
  · rw [flatMap_cons, hps.inputs_eq, ← hyields.inputs_eq]
  · rw [flatMap_cons, hps.injections_eq, ← hyields.injections_eq]

lemma collects {cur : ℕ} {it : AgendaIter} (h : it.Stands inputs cur)
    (hstart : cur < it.finalIcount ∨ cur = inputs.startIcount) :
    ∃ ps, it.Collects ps ∧ Covers inputs cur it ps := by
  obtain ⟨p, it', hnext, hyields⟩ := h.window.yields
  rcases hyields.le_final.eq_or_lt with hlast | hshort
  · exact ⟨[p], .cons hnext (.nil (next_of_final hnext hlast)), h.covers_final hstart hnext hlast⟩
  · obtain ⟨hrest, hfinal, -⟩ := h.rest hnext hshort
    have hcur : cur < p.icount := hyields.cur_lt (hyields.cur_le.trans_lt hshort)
    obtain ⟨ps, hps, hcovers⟩ := hrest.collects (.inl (hfinal ▸ hshort))
    exact ⟨p :: ps, .cons hnext hps, h.covers_cons hnext hshort hcovers⟩
termination_by it.finalIcount - cur
decreasing_by omega

end Stands

/-- What `AgendaIter::new` comes to. A plain addition that leaves `u64` panics
in a debug build and wraps in a release build. -/
inductive Opened where
  | agenda (it : AgendaIter)
  | budgetOverflow
  | arithmeticOverflow
  deriving DecidableEq

def vnsProductsFit (inputs : AgendaInputs) : Bool :=
  match inputs.finalStop with
  | .vnsBudget b =>
    decide (inputs.startIcount * inputs.clock.num < 2 ^ 128) &&
      ((inputs.clock.vnsFromIcount inputs.startIcount).bind (checkedAdd · b)).all
        fun target => decide (target * inputs.clock.den < 2 ^ 128)
  | _ => true

def firstEpochFits (inputs : AgendaInputs) : Bool :=
  inputs.epochLen.all fun len => decide (inputs.startIcount / len + 1 < 2 ^ 64)

def newU64 (inputs : AgendaInputs) : Opened :=
  if vnsProductsFit inputs then
    match new inputs with
    | none => .budgetOverflow
    | some it => if firstEpochFits inputs then .agenda it else .arithmeticOverflow
  else .arithmeticOverflow

section Constructor

variable {inputs : AgendaInputs} {it : AgendaIter} {final : ℕ} {kind : StopKind}

section

variable (h : inputs.Fits)
include h

lemma vnsProductsFit_of_fits : vnsProductsFit inputs = true := by
  unfold vnsProductsFit
  split
  case h_2 => rfl
  case h_1 b _ =>
    have hstart : inputs.startIcount * inputs.clock.num < 2 ^ 64 * 2 ^ 32 :=
      Nat.mul_lt_mul'' h.start_lt h.clock_lt.1
    refine Bool.and_eq_true_iff.mpr ⟨decide_eq_true (hstart.trans (by norm_num)), ?_⟩
    rw [Option.all_eq_true]
    intro target htarget
    obtain ⟨startVns, -, hadd⟩ := Option.bind_eq_some_iff.mp htarget
    obtain ⟨rfl, hlt⟩ := checkedAdd_eq_some_iff.mp hadd
    have hprod := Nat.mul_lt_mul'' hlt h.clock_lt.2
    exact decide_eq_true (hprod.trans (by norm_num))

lemma finalOf_eq_some_iff : finalOf inputs = some (final, kind) ↔
      kind = inputs.finalStop.kind ∧ inputs.Final final ∧ inputs.Timely ∧ final < 2 ^ 64 := by
  cases hstop : inputs.finalStop with
  | icountBudget | hardCap =>
    simp only [finalOf, AgendaInputs.Final, AgendaInputs.Timely, FinalStop.kind, hstop,
      map_eq_some_iff, checkedAdd_eq_some_iff, Prod.mk.injEq]
    grind
  | vnsBudget b =>
    simp only [finalOf, AgendaInputs.Final, AgendaInputs.Timely, FinalStop.kind, hstop,
      bind_eq_bind, bind_eq_some_iff, checkedAdd_eq_some_iff,
      ClockRatio.vnsFromIcount, ClockRatio.icountForVnsTarget, ite_none_right_eq_some,
      Option.some.injEq, Prod.mk.injEq]
    have hleast := inputs.clock.isLeast_vns inputs.startIcount
      (inputs.startIcount * inputs.clock.num / inputs.clock.den + b)
    constructor
    · rintro ⟨_, ⟨-, rfl⟩, _, ⟨rfl, htime⟩, _, ⟨hcount, rfl⟩, rfl, rfl⟩
      exact ⟨rfl, hleast, htime, max_lt hcount h.start_lt⟩
    · rintro ⟨rfl, hfinal, htime, hcount⟩
      obtain rfl := hfinal.unique hleast
      exact ⟨_, ⟨(Nat.le_add_right _ _).trans_lt htime, rfl⟩, _, ⟨rfl, htime⟩, _,
        ⟨(le_max_left _ _).trans_lt hcount, rfl⟩, rfl, rfl⟩

lemma new_eq_none_iff :
    new inputs = none ↔ ¬(inputs.Timely ∧ ∃ n, inputs.Final n ∧ n < 2 ^ 64) := by
  have hiff : new inputs = none ↔ finalOf inputs = none := by
    cases hfinal : finalOf inputs <;> simp [new, hfinal]
  rw [hiff, eq_none_iff_forall_ne_some]
  constructor
  · rintro hnone ⟨htime, n, hn, hlt⟩
    exact hnone (n, inputs.finalStop.kind) ((finalOf_eq_some_iff h).mpr ⟨rfl, hn, htime, hlt⟩)
  · rintro hnot ⟨n, kind⟩ hsome
    obtain ⟨-, hn, htime, hlt⟩ := (finalOf_eq_some_iff h).mp hsome
    exact hnot ⟨htime, n, hn, hlt⟩

lemma firstEpochFits_eq_false_iff : firstEpochFits inputs = false ↔
      inputs.startIcount = 2 ^ 64 - 1 ∧ inputs.epochLen = some 1 := by
  unfold firstEpochFits
  cases hlen : inputs.epochLen with
  | none => simp
  | some len =>
    have hpos := (h.epoch len hlen).1
    have hstart := h.start_lt
    simp only [all_some, decide_eq_false_iff_not, Option.some.injEq]
    constructor
    · intro hover
      have hself := Nat.div_le_self inputs.startIcount len
      have hone : len = 1 := by
        by_contra hne
        have := Nat.div_le_div_left (c := 2) (a := inputs.startIcount)
          (show 2 ≤ len by omega) (by omega)
        omega
      exact ⟨by omega, hone⟩
    · rintro ⟨heq, rfl⟩
      rw [heq]
      norm_num

lemma stands_of_new (hnew : new inputs = some it) : it.Stands inputs inputs.startIcount := by
  have hfinal := finalOf_of_new hnew
  obtain ⟨-, -, -, hlt⟩ := (finalOf_eq_some_iff h).mp hfinal
  obtain ⟨⟨final, kind⟩, hfinal, hnew⟩ := bind_eq_some_iff.mp hnew
  cases hnew
  refine ⟨rfl, le_rfl, (finalOf_spec hfinal).1, hlt, rfl, rfl, ?_, ?_, ?_, ?_⟩
  · -- the first multiple after the start
    rw [bind_firstEpoch _ _ hlt]
    cases hlen : inputs.epochLen with
    | none => exact .of_empty (not_onGrid_none)
    | some len =>
      have hpos := (h.epoch len hlen).1
      refine .of_bounded (lt_epochAfter hpos _) ?_ fun m hm hcur => ?_
      · exact (onGrid_some _ _).mpr (dvd_epochAfter len _)
      · exact epochAfter_le hpos ((onGrid_some _ _).mp hm) hcur
  · -- the first poll, one period after the start
    cases hlen : inputs.goalPollPeriod with
    | none => exact .of_empty fun n ⟨_, _, hnone, _⟩ => by cases hnone
    | some len =>
      have hpos := (h.poll len hlen).1
      have hfirst : Upcoming (PollPoint (some len) inputs.startIcount) inputs.startIcount final
          (if inputs.startIcount + len ≤ final then some (inputs.startIcount + len)
            else none) := by
        refine .of_bounded (by omega) ⟨len, 1, rfl, by ring⟩ ?_
        rintro m ⟨_, k, ⟨⟩, rfl⟩ hcur
        have hk : 1 ≤ k := by
          by_contra hzero
          obtain rfl : k = 0 := by omega
          omega
        exact Nat.add_le_add_left (Nat.le_mul_of_pos_left len hk) _
      convert hfirst using 1
      simp only [bind_some, checkedAdd]
      split_ifs with hsmall hle hle
      · simp [hle]
      · simpa using Nat.not_le.mp hle
      · exact (hsmall (hle.trans_lt hlt)).elim
      · rfl
  · intro len hlen
    exact ⟨(h.epoch len hlen).1, by simp [hlen]⟩
  · intro len hlen
    exact ⟨(h.poll len hlen).1, by simp [hlen]⟩

lemma collects_of_new (hnew : new inputs = some it) :
    ∃ ps, it.Collects ps ∧ Covers inputs inputs.startIcount it ps :=
  (stands_of_new h hnew).collects (.inr rfl)

end

lemma Covers.isAgenda {ps : List StopPoint} (h : Covers inputs inputs.startIcount it ps) :
    IsAgenda inputs it.finalIcount it.stopKind ps := by
  refine ⟨h.increasing, h.mem_icount, h.point, ?_⟩
  obtain ⟨front, p, rfl, hp, hfront⟩ := h.last
  refine ⟨front, p, rfl, ?_, fun q hq => ?_⟩
  · rw [(h.point p (by simp)).finalStop_eq, if_pos hp]
  · rw [(h.point q (by simp [hq])).finalStop_eq, if_neg (hfront q hq).ne]

end Constructor

end AgendaIter

def AgendaInputs.CountFits (inputs : AgendaInputs) : Prop := ∃ n, inputs.Final n ∧ n < 2 ^ 64

/-- The constructor reports an overflow exactly when `Overflow`, and otherwise
opens the agenda. -/
def MeetsSpec (Overflow : Prop) (inputs : AgendaInputs) : Prop :=
  match AgendaIter.newU64 inputs with
  | .arithmeticOverflow => False
  | .budgetOverflow => Overflow
  | .agenda it => ¬Overflow ∧ ∃ final ps, inputs.Final final ∧ it.Collects ps ∧
      IsAgenda inputs final inputs.finalStop.kind ps

namespace AgendaIter

variable {inputs : AgendaInputs} {it : AgendaIter}

lemma newU64_eq_budgetOverflow_iff (h : inputs.Fits) :
    newU64 inputs = .budgetOverflow ↔ ¬(inputs.Timely ∧ inputs.CountFits) := by
  rw [AgendaInputs.CountFits, ← new_eq_none_iff h]
  unfold newU64
  rw [if_pos (vnsProductsFit_of_fits h)]
  cases new inputs with
  | none => simp
  | some it =>
    by_cases hfits : firstEpochFits inputs <;> simp [hfits]

lemma newU64_eq_agenda_iff (h : inputs.Fits) : newU64 inputs = .agenda it ↔ new inputs = some it ∧
      ¬(inputs.startIcount = 2 ^ 64 - 1 ∧ inputs.epochLen = some 1) := by
  rw [← firstEpochFits_eq_false_iff h]
  unfold newU64
  rw [if_pos (vnsProductsFit_of_fits h)]
  cases new inputs with
  | none => simp
  | some it' =>
    by_cases hfits : firstEpochFits inputs <;> simp [hfits]

lemma isAgenda_of_new (h : inputs.Fits) (hnew : new inputs = some it) :
    ∃ final ps, inputs.Final final ∧ it.Collects ps ∧
      IsAgenda inputs final inputs.finalStop.kind ps := by
  obtain ⟨hkind, hfinal, -, -⟩ := (finalOf_eq_some_iff h).mp (finalOf_of_new hnew)
  obtain ⟨ps, hps, hcovers⟩ := collects_of_new h hnew
  exact ⟨it.finalIcount, ps, hfinal, hps, hkind ▸ hcovers.isAgenda⟩

end AgendaIter

lemma meetsSpec_iff {inputs : AgendaInputs} (h : inputs.Fits) (Overflow : Prop) :
    MeetsSpec Overflow inputs ↔ (Overflow ↔ ¬(inputs.Timely ∧ inputs.CountFits)) ∧
        ¬(inputs.startIcount = 2 ^ 64 - 1 ∧ inputs.epochLen = some 1 ∧
          inputs.Timely ∧ inputs.CountFits) := by
  have hover := newU64_eq_budgetOverflow_iff h
  have hagenda (it : AgendaIter) : AgendaIter.newU64 inputs = .agenda it ↔ _ :=
    newU64_eq_agenda_iff h
  unfold MeetsSpec
  cases hopen : AgendaIter.newU64 inputs with
  | budgetOverflow =>
    have hnot := hover.mp hopen
    simp only [hnot, not_false_eq_true, iff_true, and_false, and_true]
  | agenda it =>
    obtain ⟨hnew, hcorner⟩ := (hagenda it).mp hopen
    have hfit : inputs.Timely ∧ inputs.CountFits := by
      by_contra hnot
      cases hopen.symm.trans (hover.mpr hnot)
    simp only [hfit, isAgenda_of_new h hnew, and_true, not_true_eq_false, iff_false,
      hcorner, not_false_eq_true]
  | arithmeticOverflow =>
    have hfit : inputs.Timely ∧ inputs.CountFits := by
      by_contra hnot
      cases hopen.symm.trans (hover.mpr hnot)
    obtain ⟨it, hnew⟩ : ∃ it, AgendaIter.new inputs = some it := by
      rw [← isSome_iff_exists, isSome_iff_ne_none]
      exact fun hnone => (new_eq_none_iff h).mp hnone hfit
    have hcorner : inputs.startIcount = 2 ^ 64 - 1 ∧ inputs.epochLen = some 1 := by
      by_contra hnot
      cases hopen.symm.trans ((hagenda it).mpr ⟨hnew, hnot⟩)
    simp only [hcorner, hfit, and_self, not_true_eq_false, and_false]

/-- The constructor meets its specification unless the run starts at the last `u64` with an
epoch at every count: there `start / len + 1` is not a `u64`. -/
theorem agenda_meets_spec_iff {inputs : AgendaInputs} (h : inputs.Fits) :
    (MeetsSpec (¬(inputs.Timely ∧ inputs.CountFits)) inputs ↔
      ¬(inputs.startIcount = 2 ^ 64 - 1 ∧ inputs.epochLen = some 1 ∧
        inputs.Timely ∧ inputs.CountFits)) ∧ (MeetsSpec (¬inputs.CountFits) inputs ↔
      ¬(inputs.startIcount = 2 ^ 64 - 1 ∧ inputs.epochLen = some 1 ∧
        inputs.Timely ∧ inputs.CountFits) ∧ (inputs.CountFits → inputs.Timely)) := by
  constructor
  · rw [meetsSpec_iff h]
    simp only [true_and]
  · rw [meetsSpec_iff h, and_comm]
    refine and_congr_right fun _ => ?_
    rw [not_iff_not]
    tauto

/-- A run of no instructions at the last count, with an epoch at every count. -/
def lastCount : AgendaInputs where
  startIcount := 2 ^ 64 - 1
  scheduledInputs := []
  injections := []
  epochLen := some 1
  goalPollPeriod := none
  finalStop := .icountBudget 0
  clock := .default

/-- A run over the last two counts, with an input, an epoch and a poll on each. -/
def lastTwo : AgendaInputs where
  startIcount := 2 ^ 64 - 3
  scheduledInputs := [2 ^ 64 - 1, 2 ^ 64 - 2, 2 ^ 64 - 1]
  injections := []
  epochLen := some 1
  goalPollPeriod := some 1
  finalStop := .icountBudget 2
  clock := .default

lemma lastCount_fits : lastCount.Fits := by
  refine ⟨by decide, by simp [lastCount], by simp [lastCount], ?_, by simp [lastCount],
    by decide, by decide⟩
  rintro len ⟨⟩
  decide

lemma lastTwo_fits : lastTwo.Fits := by
  refine ⟨by decide, by simp [lastTwo], by simp [lastTwo], ?_, ?_, by decide, by decide⟩ <;>
    · rintro len ⟨⟩
      decide

theorem agenda_meets_spec_lastTwo :
    lastTwo.Fits ∧ MeetsSpec (¬(lastTwo.Timely ∧ lastTwo.CountFits)) lastTwo :=
  ⟨lastTwo_fits, (agenda_meets_spec_iff lastTwo_fits).1.mpr fun h =>
    absurd h.1 (by decide)⟩

theorem agenda_overflows_lastCount : lastCount.Fits ∧ lastCount.Final (2 ^ 64 - 1) ∧
      AgendaIter.newU64 lastCount = .arithmeticOverflow ∧
      ¬MeetsSpec (¬(lastCount.Timely ∧ lastCount.CountFits)) lastCount ∧
      ¬MeetsSpec (¬lastCount.CountFits) lastCount := by
  have hopen : AgendaIter.newU64 lastCount = .arithmeticOverflow := by decide +kernel
  refine ⟨lastCount_fits, rfl, hopen, ?_, ?_⟩ <;>
    · unfold MeetsSpec
      rw [hopen]
      exact id

end DetHypervisor
