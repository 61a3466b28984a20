import DetHypervisor.AgendaSpec

/-!
# Cutting an agenda

A run that is paused and resumed is compiled twice. The two agendas together are the agenda of
the whole run, up to the point at the cut.
-/

namespace DetHypervisor

open List AgendaIter

def AgendaInputs.upTo (inputs : AgendaInputs) (m : ℕ) : AgendaInputs :=
  { inputs with finalStop := .icountBudget (m - inputs.startIcount) }

def AgendaInputs.onward (inputs : AgendaInputs) (m final : ℕ) : AgendaInputs :=
  { inputs with startIcount := m, finalStop := .icountBudget (final - m) }

namespace StopPoint

def unmark (p : StopPoint) : StopPoint := { p with finalStop := none }

def busy (p : StopPoint) : Bool := !p.inputs.isEmpty || !p.injections.isEmpty || p.epochHash

lemma busy_eq_true_iff {p : StopPoint} :
    p.busy = true ↔ p.inputs ≠ [] ∨ p.injections ≠ [] ∨ p.epochHash = true := by
  simp [busy, or_assoc]

end StopPoint

def landings (ps : List StopPoint) : List (ℕ × ℕ) := ps.flatMap fun p => p.inputs.map (p.icount, ·)

def firings (ps : List StopPoint) : List (ℕ × ℕ) :=
  ps.flatMap fun p => p.injections.map (p.icount, ·)

def epochPoints (ps : List StopPoint) : List ℕ := (ps.filter (·.epochHash)).map (·.icount)

/-- Entry `i` of `points` lies in the window, and is listed once, at its count. -/
structure ListedOnce (points : List ℕ) (start final : ℕ) (listed : List (ℕ × ℕ)) : Prop where
  once : (listed.map Prod.snd).Nodup
  mem_iff : ∀ n i, (n, i) ∈ listed ↔ points[i]? = some n ∧ start < n ∧ n ≤ final

/-- The agendas `first` and `second` on either side of `m` are the agenda
`whole`. -/
structure Joins (inputs : AgendaInputs) (m final : ℕ) (whole first second : List StopPoint) :
    Prop where
  points : (whole.filter (·.busy)).map (·.unmark) =
    ((first ++ second).filter (·.busy)).map (·.unmark)
  idle_whole : ∀ p ∈ whole, p.busy = false → p.icount = final
  idle_parts : ∀ p ∈ first ++ second, p.busy = false → p.icount = m ∨ p.icount = final
  epochs : epochPoints whole = epochPoints (first ++ second)
  landed : landings whole = landings (first ++ second)
  landed_once : ListedOnce inputs.scheduledInputs inputs.startIcount final (landings whole)
  fired : firings whole = firings (first ++ second)
  fired_once : ListedOnce inputs.injections inputs.startIcount final (firings whole)

/-- All three agendas are compiled, come to their ends, and fit together. -/
def SplitsAt (inputs : AgendaInputs) (m final : ℕ) : Prop :=
  ∃ it it1 it2 whole first second,
    AgendaIter.newU64 inputs = .agenda it ∧ it.Collects whole ∧
    AgendaIter.newU64 (inputs.upTo m) = .agenda it1 ∧ it1.Collects first ∧
    AgendaIter.newU64 (inputs.onward m final) = .agenda it2 ∧ it2.Collects second ∧
    Joins inputs m final whole first second

section Points

variable {inputs inputs' : AgendaInputs} {final final' : ℕ} {kind kind' : StopKind}
  {p q : StopPoint}

variable (h : PointSpec inputs final kind p)
include h

lemma PointSpec.of_busy (hbusy : p.busy = true) :
    inputs.startIcount < p.icount ∧ inputs.Due p.icount := by
  rcases StopPoint.busy_eq_true_iff.mp hbusy with hne | hne | hepoch
  · obtain ⟨i, hi⟩ := exists_mem_of_ne_nil _ hne
    obtain ⟨hlt, hget⟩ := (h.mem_inputs i).mp hi
    exact ⟨hlt, .inl (mem_of_getElem? hget)⟩
  · obtain ⟨i, hi⟩ := exists_mem_of_ne_nil _ hne
    obtain ⟨hlt, hget⟩ := (h.mem_injections i).mp hi
    exact ⟨hlt, .inr (.inl (mem_of_getElem? hget))⟩
  · obtain ⟨hlt, hgrid⟩ := h.epochHash_iff.mp hepoch
    exact ⟨hlt, .inr (.inr (.inl hgrid))⟩

lemma PointSpec.busy_of_due
    (hpoll : inputs.goalPollPeriod = none) (hlt : inputs.startIcount < p.icount)
    (hdue : inputs.Due p.icount) : p.busy = true := by
  rw [StopPoint.busy_eq_true_iff]
  rcases hdue with hdue | hdue | hdue | ⟨len, k, hlen, -⟩
  · obtain ⟨i, hi⟩ := List.getElem?_of_mem hdue
    exact .inl (ne_nil_of_mem ((h.mem_inputs i).mpr ⟨hlt, hi⟩))
  · obtain ⟨i, hi⟩ := List.getElem?_of_mem hdue
    exact .inr (.inl (ne_nil_of_mem ((h.mem_injections i).mpr ⟨hlt, hi⟩)))
  · exact .inr (.inr (h.epochHash_iff.mpr ⟨hlt, hdue⟩))
  · cases hpoll.symm.trans hlen

lemma PointSpec.unmark_eq (h' : PointSpec inputs' final' kind' q) (hicount : p.icount = q.icount)
    (hin : inputs.scheduledInputs = inputs'.scheduledInputs)
    (hinj : inputs.injections = inputs'.injections) (hgrid : inputs.epochLen = inputs'.epochLen)
    (hpoll : inputs.goalPollPeriod = none) (hpoll' : inputs'.goalPollPeriod = none)
    (hlt : inputs.startIcount < p.icount) (hlt' : inputs'.startIcount < q.icount) :
    p.unmark = q.unmark := by
  have hinputs : p.inputs = q.inputs := by
    apply h.inputs_ascending.eq_of_mem_iff h'.inputs_ascending
    intro i
    rw [h.mem_inputs, h'.mem_inputs, hin, hicount]
    exact and_congr_left fun _ => iff_of_true (hicount ▸ hlt) hlt'
  have hinjections : p.injections = q.injections := by
    apply h.injections_ascending.eq_of_mem_iff h'.injections_ascending
    intro i
    rw [h.mem_injections, h'.mem_injections, hinj, hicount]
    exact and_congr_left fun _ => iff_of_true (hicount ▸ hlt) hlt'
  have hepoch : p.epochHash = q.epochHash := by
    rw [Bool.eq_iff_iff, h.epochHash_iff, h'.epochHash_iff, hgrid, hicount]
    exact and_congr_left fun _ => iff_of_true (hicount ▸ hlt) hlt'
  have hnever : ∀ {start n : ℕ}, ¬PollPoint none start n := by
    rintro start n ⟨len, k, hlen, -⟩
    cases hlen
  have hgoal : p.goalPoll = q.goalPoll := by
    rw [Bool.eq_iff_iff, h.goalPoll_iff, h'.goalPoll_iff, hpoll, hpoll']
    exact iff_of_false (fun hp => hnever hp.2) fun hq => hnever hq.2
  cases p
  cases q
  simp_all [StopPoint.unmark]

end Points

def StopPoint.before (p q : StopPoint) : Prop := p.icount < q.icount

instance : Std.Antisymm StopPoint.before := ⟨fun _ _ h h' => (Nat.lt_asymm h h').elim⟩

instance : Std.Irrefl StopPoint.before := ⟨fun _ => Nat.lt_irrefl _⟩

lemma epochPoints_eq (ps : List StopPoint) :
    epochPoints ps = epochPoints ((ps.filter (·.busy)).map (·.unmark)) := by
  unfold epochPoints
  rw [filter_map, map_map, filter_filter]
  congr 1
  apply filter_congr
  intro p _
  cases hepoch : p.epochHash <;> simp [StopPoint.unmark, StopPoint.busy, hepoch]

namespace AgendaIter

variable {inputs : AgendaInputs} {it it1 it2 : AgendaIter} {m : ℕ}
  {whole first second : List StopPoint}

section

variable (h : Covers inputs inputs.startIcount it whole)
include h

lemma Covers.listedOnce_inputs (hs : it.Stands inputs inputs.startIcount) :
    ListedOnce inputs.scheduledInputs inputs.startIcount it.finalIcount (landings whole) := by
  unfold landings
  rw [h.inputs_eq, hs.inputs_eq]
  exact ⟨queue_indices_nodup _ _ _, fun n i => mem_queue_iff⟩

lemma Covers.listedOnce_injections (hs : it.Stands inputs inputs.startIcount) :
    ListedOnce inputs.injections inputs.startIcount it.finalIcount (firings whole) := by
  unfold firings
  rw [h.injections_eq, hs.injections_eq]
  exact ⟨queue_indices_nodup _ _ _, fun n i => mem_queue_iff⟩

lemma Covers.idle (hpoll : inputs.goalPollPeriod = none) {p : StopPoint} (hp : p ∈ whole)
    (hidle : p.busy = false) : p.icount = it.finalIcount := by
  rcases (h.mem_icount p.icount).mp ⟨p, hp, rfl⟩ with heq | ⟨hlt, -, hdue⟩
  · exact heq
  · rw [(h.point p hp).busy_of_due hpoll hlt hdue] at hidle
    cases hidle

lemma Covers.mem_busy_iff
    (hpoll : inputs.goalPollPeriod = none) (n : ℕ) : (∃ p ∈ whole, p.busy = true ∧ p.icount = n) ↔
      inputs.startIcount < n ∧ n ≤ it.finalIcount ∧ inputs.Due n := by
  constructor
  · rintro ⟨p, hp, hbusy, rfl⟩
    obtain ⟨hlt, hdue⟩ := (h.point p hp).of_busy hbusy
    rcases (h.mem_icount p.icount).mp ⟨p, hp, rfl⟩ with heq | hwindow
    · exact ⟨hlt, heq.le, hdue⟩
    · exact hwindow
  · rintro ⟨hlt, hle, hdue⟩
    obtain ⟨p, hp, rfl⟩ := (h.mem_icount n).mpr (.inr ⟨hlt, hle, hdue⟩)
    exact ⟨p, hp, (h.point p hp).busy_of_due hpoll hlt hdue, rfl⟩

end

lemma Covers.busy_increasing {cur : ℕ} (h : Covers inputs cur it whole) :
    ((whole.filter (·.busy)).map (·.unmark)).Pairwise StopPoint.before := by
  rw [pairwise_map]
  exact h.increasing.filter _

lemma Covers.join (h : Covers inputs inputs.startIcount it whole)
    (h1 : Covers (inputs.upTo m) inputs.startIcount it1 first)
    (h2 : Covers (inputs.onward m it.finalIcount) m it2 second)
    (hpoll : inputs.goalPollPeriod = none) (hstart : inputs.startIcount ≤ m)
    (hm : m ≤ it.finalIcount) (hfinal1 : it1.finalIcount = m)
    (hfinal2 : it2.finalIcount = it.finalIcount) : (whole.filter (·.busy)).map (·.unmark) =
      ((first ++ second).filter (·.busy)).map (·.unmark) := by
  have hfirst := h1.mem_busy_iff hpoll
  have hsecond := h2.mem_busy_iff hpoll
  have hwhole := h.mem_busy_iff hpoll
  have hdue1 : ∀ n, (inputs.upTo m).Due n ↔ inputs.Due n := fun _ => Iff.rfl
  have hdue2 : ∀ n, (inputs.onward m it.finalIcount).Due n ↔ inputs.Due n := by
    intro n
    simp only [AgendaInputs.Due, AgendaInputs.onward, hpoll, PollPoint, reduceCtorEq,
      false_and, exists_false]
  -- A busy point of either part is the point of the whole run at its count.
  have hsame : ∀ p ∈ whole, p.busy = true → ∀ q ∈ first ++ second, q.busy = true →
      p.icount = q.icount → p.unmark = q.unmark := by
    intro p hp hpb q hq hqb hicount
    have hplt := ((h.point p hp).of_busy hpb).1
    rcases mem_append.mp hq with hq | hq
    · exact (h.point p hp).unmark_eq (h1.point q hq) hicount rfl rfl rfl hpoll hpoll hplt
        ((h1.point q hq).of_busy hqb).1
    · exact (h.point p hp).unmark_eq (h2.point q hq) hicount rfl rfl rfl hpoll hpoll hplt
        ((h2.point q hq).of_busy hqb).1
  have hcount : ∀ n, (∃ p ∈ whole, p.busy = true ∧ p.icount = n) ↔
      ∃ q ∈ first ++ second, q.busy = true ∧ q.icount = n := by
    intro n
    have hsplit : (∃ q ∈ first ++ second, q.busy = true ∧ q.icount = n) ↔
        (∃ q ∈ first, q.busy = true ∧ q.icount = n) ∨
          ∃ q ∈ second, q.busy = true ∧ q.icount = n := by
      simp only [mem_append, or_and_right, exists_or]
    rw [hsplit, hwhole, hfirst, hsecond, hdue1, hdue2, hfinal1, hfinal2]
    change _ ↔ inputs.startIcount < n ∧ n ≤ m ∧ _ ∨ m < n ∧ n ≤ it.finalIcount ∧ _
    constructor
    · rintro ⟨hlt, hle, hdue⟩
      rcases Nat.lt_or_ge m n with hafter | hbefore
      · exact .inr ⟨hafter, hle, hdue⟩
      · exact .inl ⟨hlt, hbefore, hdue⟩
    · rintro (⟨hlt, hle, hdue⟩ | ⟨hlt, hle, hdue⟩)
      · exact ⟨hlt, hle.trans hm, hdue⟩
      · exact ⟨hstart.trans_lt hlt, hle, hdue⟩
  refine List.Pairwise.eq_of_mem_iff h.busy_increasing ?_ ?_
  · rw [filter_append, map_append, pairwise_append]
    refine ⟨h1.busy_increasing, h2.busy_increasing, ?_⟩
    intro a ha b hb
    obtain ⟨p, hp, rfl⟩ := mem_map.mp ha
    obtain ⟨q, hq, rfl⟩ := mem_map.mp hb
    obtain ⟨hp, hpb⟩ := mem_filter.mp hp
    obtain ⟨hq, hqb⟩ := mem_filter.mp hq
    have hle := ((hfirst p.icount).mp ⟨p, hp, hpb, rfl⟩).2.1
    have hlt := ((h2.point q hq).of_busy hqb).1
    rw [hfinal1] at hle
    exact Nat.lt_of_le_of_lt hle hlt
  · intro a
    simp only [mem_map, mem_filter]
    constructor
    · rintro ⟨p, ⟨hp, hpb⟩, rfl⟩
      obtain ⟨q, hq, hqb, hicount⟩ := (hcount p.icount).mp ⟨p, hp, hpb, rfl⟩
      exact ⟨q, ⟨hq, hqb⟩, (hsame p hp hpb q hq hqb hicount.symm).symm⟩
    · rintro ⟨q, ⟨hq, hqb⟩, rfl⟩
      obtain ⟨p, hp, hpb, hicount⟩ := (hcount q.icount).mpr ⟨q, hq, hqb, rfl⟩
      exact ⟨p, ⟨hp, hpb⟩, hsame p hp hpb q hq hqb hicount⟩

end AgendaIter

section Cut

variable {inputs : AgendaInputs} {m final : ℕ} {kind : StopKind}

lemma AgendaInputs.Fits.upTo (h : inputs.Fits) (hm : m < 2 ^ 64) : (inputs.upTo m).Fits :=
  { h with amount_lt := (Nat.sub_le m _).trans_lt hm }

lemma AgendaInputs.Fits.onward (h : inputs.Fits) (hm : m ≤ final) (hfinal : final < 2 ^ 64) :
    (inputs.onward m final).Fits :=
  { h with
    start_lt := hm.trans_lt hfinal
    amount_lt := (Nat.sub_le final m).trans_lt hfinal }

lemma AgendaIter.exists_new_of_budget (inputs : AgendaInputs) {b : ℕ}
    (hstop : inputs.finalStop = .icountBudget b) (hfinal : inputs.startIcount + b = final)
    (hlt : final < 2 ^ 64) : ∃ it, AgendaIter.new inputs = some it ∧ it.finalIcount = final := by
  obtain ⟨it, hit⟩ := new_isSome (.inl hstop) (hfinal ▸ hlt)
  have hof := finalOf_of_new hit
  have hsum : AgendaIter.finalOf inputs = some (final, .budget) := by
    have hadd : checkedAdd inputs.startIcount b = some final :=
      checkedAdd_eq_some_iff.mpr ⟨hfinal.symm, hfinal ▸ hlt⟩
    simp only [AgendaIter.finalOf, hstop, hadd, Option.map_some]
  exact ⟨it, hit, (Prod.mk.inj (Option.some.inj (hof.symm.trans hsum))).1⟩

/-- Compiling up to `m` and from `m` on is compiling the whole, unless the second
part starts at the last `u64` with an epoch at every count and is not compiled. -/
theorem agenda_splits_iff (h : inputs.Fits) (hpoll : inputs.goalPollPeriod = none)
    (hfinal : AgendaIter.finalOf inputs = some (final, kind)) (hstart : inputs.startIcount ≤ m)
    (hm : m ≤ final) : SplitsAt inputs m final ↔ ¬(m = 2 ^ 64 - 1 ∧ inputs.epochLen = some 1) := by
  have hlt : final < 2 ^ 64 := ((finalOf_eq_some_iff h).mp hfinal).2.2.2
  have hfits1 : (inputs.upTo m).Fits := h.upTo (hm.trans_lt hlt)
  have hfits2 : (inputs.onward m final).Fits := h.onward hm hlt
  constructor
  · rintro ⟨it, it1, it2, whole, first, second, -, -, -, -, hopen, -, -⟩ hcorner
    exact ((newU64_eq_agenda_iff hfits2).mp hopen).2 hcorner
  · intro hcorner
    obtain ⟨it, hnew⟩ : ∃ it, AgendaIter.new inputs = some it := by
      simp [AgendaIter.new, hfinal]
    obtain rfl : it.finalIcount = final :=
      (Prod.mk.inj (Option.some.inj ((finalOf_of_new hnew).symm.trans hfinal))).1
    obtain ⟨it1, hnew1, hfinal1⟩ := exists_new_of_budget (inputs.upTo m) rfl
      (Nat.add_sub_cancel' hstart) (hm.trans_lt hlt)
    obtain ⟨it2, hnew2, hfinal2⟩ := exists_new_of_budget
      (inputs.onward m it.finalIcount) rfl (Nat.add_sub_cancel' hm) hlt
    have hopen : AgendaIter.newU64 inputs = .agenda it := by
      refine (newU64_eq_agenda_iff h).mpr ⟨hnew, fun hlast => hcorner ⟨?_, hlast.2⟩⟩
      have := hlast.1
      omega
    have hopen1 : AgendaIter.newU64 (inputs.upTo m) = .agenda it1 := by
      refine (newU64_eq_agenda_iff hfits1).mpr
        ⟨hnew1, fun hlast => hcorner ⟨?_, hlast.2⟩⟩
      have : inputs.startIcount = 2 ^ 64 - 1 := hlast.1
      omega
    have hopen2 : AgendaIter.newU64 (inputs.onward m it.finalIcount) = .agenda it2 :=
      (newU64_eq_agenda_iff hfits2).mpr ⟨hnew2, hcorner⟩
    obtain ⟨whole, hwhole, hcov⟩ := collects_of_new h hnew
    obtain ⟨first, hfirst, hcov1⟩ := collects_of_new hfits1 hnew1
    obtain ⟨second, hsecond, hcov2⟩ := collects_of_new hfits2 hnew2
    have hs := stands_of_new h hnew
    have hs1 := stands_of_new hfits1 hnew1
    have hs2 := stands_of_new hfits2 hnew2
    have hpoints := hcov.join hcov1 hcov2 hpoll hstart hm hfinal1 hfinal2
    refine ⟨it, it1, it2, whole, first, second, hopen, hwhole, hopen1, hfirst, hopen2, hsecond, ?_⟩
    constructor
    · exact hpoints
    · exact fun p hp hidle => hcov.idle hpoll hp hidle
    · intro p hp hidle
      rcases mem_append.mp hp with hp | hp
      · exact .inl ((hcov1.idle hpoll hp hidle).trans hfinal1)
      · exact .inr ((hcov2.idle hpoll hp hidle).trans hfinal2)
    · rw [epochPoints_eq whole, hpoints, ← epochPoints_eq]
    · unfold landings
      rw [flatMap_append, hcov.inputs_eq, hcov1.inputs_eq, hcov2.inputs_eq, hs.inputs_eq,
        hs1.inputs_eq, hs2.inputs_eq, hfinal1, hfinal2]
      exact (queue_append hstart hm).symm
    · exact hcov.listedOnce_inputs hs
    · unfold firings
      rw [flatMap_append, hcov.injections_eq, hcov1.injections_eq, hcov2.injections_eq,
        hs.injections_eq, hs1.injections_eq, hs2.injections_eq, hfinal1, hfinal2]
      exact (queue_append hstart hm).symm
    · exact hcov.listedOnce_injections hs

end Cut

def threeEpochs : AgendaInputs where
  startIcount := 0
  scheduledInputs := [20, 15]
  injections := [20]
  epochLen := some 10
  goalPollPeriod := none
  finalStop := .icountBudget 30
  clock := .default

lemma threeEpochs_fits : threeEpochs.Fits := by
  refine ⟨by decide, by simp [threeEpochs], by simp [threeEpochs], ?_, by simp [threeEpochs],
    by decide, by decide⟩
  rintro len ⟨⟩
  decide

theorem agenda_splits_threeEpochs :
    AgendaIter.finalOf threeEpochs = some (30, .budget) ∧ SplitsAt threeEpochs 15 30 := by
  have hfinal : AgendaIter.finalOf threeEpochs = some (30, .budget) := by decide
  exact ⟨hfinal, (agenda_splits_iff threeEpochs_fits rfl hfinal (by decide) (by decide)).mpr
    (by decide)⟩

/-- The run up to the last count cannot be cut at its end: the rest of no
instructions is not compiled. -/
theorem agenda_not_split_at_last_count :
    ({ lastTwo with goalPollPeriod := none } : AgendaInputs).Fits ∧
      AgendaIter.finalOf { lastTwo with goalPollPeriod := none } =
        some (2 ^ 64 - 1, .budget) ∧
      ¬SplitsAt { lastTwo with goalPollPeriod := none } (2 ^ 64 - 1) (2 ^ 64 - 1) := by
  refine ⟨{ lastTwo_fits with poll := fun _ h => by cases h }, by decide, ?_⟩
  rintro ⟨it, it1, it2, whole, first, second, -, -, -, -, hopen, -, -⟩
  have hover : AgendaIter.newU64 (({ lastTwo with goalPollPeriod := none } :
      AgendaInputs).onward (2 ^ 64 - 1) (2 ^ 64 - 1)) = .arithmeticOverflow := by decide +kernel
  cases hover.symm.trans hopen

end DetHypervisor
