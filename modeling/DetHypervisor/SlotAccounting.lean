import DetHypervisor.SlotTable

/-!
# Fork accounting

The number a fork parent keeps is the number of its live children, in every
table the operations can reach.
-/

namespace DetHypervisor.SlotManager

open List Function

variable {n : ℕ} {T H : Type} {rows rows' : Fin n → SlotEntry T H}

def dropped (e : SlotEntry T H) : SlotEntry T H :=
  { e with
    liveChildren := e.liveChildren - 1
    state := if e.liveChildren - 1 = 0 ∧ e.state = .frozen then .paused else e.state }

lemma release_of_none {i : Fin n} (h : (rows i).parent = none) :
    (release i rows).1 = Function.update rows i .empty := by
  unfold release
  rw [h]

lemma dropChild_eq (p : Fin n) (rows : Fin n → SlotEntry T H) :
    (dropChild p rows).1 = Function.update rows p (dropped (rows p)) := by
  unfold dropChild
  rw [dif_pos p.isLt]
  by_cases h : (rows p).liveChildren - 1 = 0 ∧ (rows p).state = .frozen
  · rw [if_pos h]
    simp only [dropped, if_pos h]
  · rw [if_neg h]
    simp only [dropped, if_neg h]

lemma release_of_some {i p : Fin n} (h : (rows i).parent = some p.val) (hne : p ≠ i) :
    (release i rows).1 = Function.update (Function.update rows i .empty) p (dropped (rows p)) := by
  unfold release
  rw [h]
  rw [dropChild_eq, update_of_ne hne]

lemma dropped_state (e : SlotEntry T H) :
    (dropped e).state = e.state ∨ (e.state = .frozen ∧ (dropped e).state = .paused) := by
  unfold dropped
  split_ifs with h
  · exact .inr ⟨h.2, rfl⟩
  · exact .inl rfl

lemma dropped_state_eq_empty_iff (e : SlotEntry T H) :
    (dropped e).state = .empty ↔ e.state = .empty := by
  rcases dropped_state e with h | ⟨h, h'⟩
  · rw [h]
  · simp [h, h']

lemma release_row {i j : Fin n} (hne : j ≠ i) (rows : Fin n → SlotEntry T H) :
    (release i rows).1 j = rows j ∨
      ((rows i).parent = some j.val ∧ (release i rows).1 j = dropped (rows j)) := by
  cases hparent : (rows i).parent with
  | none => exact .inl (by rw [release_of_none hparent, update_of_ne hne])
  | some q =>
    by_cases hq : q = j.val
    · subst hq
      exact .inr ⟨rfl, by rw [release_of_some hparent hne, update_self]⟩
    · refine .inl ?_
      unfold release
      rw [hparent]
      dsimp only
      by_cases hlt : q < n
      · have hjq : j ≠ ⟨q, hlt⟩ := fun h => hq (by rw [h])
        rw [dropChild_eq ⟨q, hlt⟩, update_of_ne hjq, update_of_ne hne]
      · unfold dropChild
        rw [dif_neg hlt]
        exact update_of_ne hne _ _

lemma release_self (i : Fin n) (rows : Fin n → SlotEntry T H) : (release i rows).1 i = .empty := by
  have hcleared : Function.update rows i (.empty : SlotEntry T H) i = .empty :=
    update_self _ _ _
  unfold release
  split
  · exact hcleared
  · rename_i q _
    dsimp only
    by_cases hlt : q < n
    · rw [dropChild_eq ⟨q, hlt⟩]
      by_cases hi : i = ⟨q, hlt⟩
      · subst hi
        rw [update_self, hcleared]
        rfl
      · rwa [update_of_ne hi]
    · unfold dropChild
      rwa [dif_neg hlt]

def CutOff (e : SlotEntry T H) : Prop := e.state = .empty ∨ (e.parent = none ∧ e.ramIsCow = true)

lemma release_cutOff {c : Fin n} (i : Fin n) (h : CutOff (rows c)) :
    CutOff ((release i rows).1 c) := by
  by_cases hci : c = i
  · subst hci
    exact .inl (by rw [release_self]; rfl)
  · rcases release_row hci rows with hsame | ⟨-, hdropped⟩
    · rwa [hsame]
    · rw [hdropped, CutOff, dropped_state_eq_empty_iff]
      exact h

/-- A row the sweep has not come to yet, against the row it saw at its start. -/
def Stayed (e e' : SlotEntry T H) : Prop :=
  e'.state = e.state ∨ (e.state = .frozen ∧ e'.state = .paused)

lemma Stayed.dropped {e e' : SlotEntry T H} (h : Stayed e e') : Stayed e (dropped e') := by
  rcases dropped_state e' with hstate | ⟨hfrozen, hpaused⟩
  · rcases h with h | ⟨h, h'⟩
    · exact .inl (hstate.trans h)
    · exact .inr ⟨h, hstate.trans h'⟩
  · rcases h with h | ⟨-, h'⟩
    · exact .inr ⟨h ▸ hfrozen, hpaused⟩
    · rw [hfrozen] at h'
      cases h'

lemma sweepRow_cases (now : ℕ) (start : Fin n → SlotEntry T H)
    (acc : (Fin n → SlotEntry T H) × List ℕ × List (SlotInfo H)) (i : Fin n) :
    (sweepRow now start acc i).1 = acc.1 ∨
      ((acc.1 i).liveChildren = 0 ∧ (sweepRow now start acc i).1 = (release i acc.1).1) ∨
      ((start i).state = .running ∧ (sweepRow now start acc i).1 =
        Function.update acc.1 i { acc.1 i with state := .faulted }) := by
  have hvacate : ∀ x : (Fin n → SlotEntry T H) × List ℕ × List (SlotInfo H),
      x = (if (acc.1 i).liveChildren = 0 then
        ((release i acc.1).1, acc.2.1 ++ [i.val], acc.2.2 ++ (release i acc.1).2) else acc) →
      x.1 = acc.1 ∨ ((acc.1 i).liveChildren = 0 ∧ x.1 = (release i acc.1).1) := by
    rintro x rfl
    split_ifs with hchildren
    · exact .inr ⟨hchildren, rfl⟩
    · exact .inl rfl
  unfold sweepRow
  by_cases hexpired : (start i).expired now = true
  · rw [if_pos hexpired]
    cases hstate : (start i).state with
    | paused | faulted => exact (hvacate _ rfl).imp_right .inl
    | running => exact .inr (.inr ⟨rfl, rfl⟩)
    | empty | frozen => exact .inl rfl
  · rw [if_neg hexpired]
    exact .inl rfl

lemma sweep_induction {I : (Fin n → SlotEntry T H) → Prop}
    (hrelease : ∀ rows i, I rows → (rows i).liveChildren = 0 → I (release i rows).1)
    (hfault : ∀ rows i, I rows → (rows i).state = .running →
      I (Function.update rows i { rows i with state := .faulted }))
    (now : ℕ) (start : Fin n → SlotEntry T H) (h : I start) :
    I ((List.finRange n).foldl (sweepRow now start) (start, [], [])).1 := by
  suffices hfold : ∀ (l : List (Fin n))
      (acc : (Fin n → SlotEntry T H) × List ℕ × List (SlotInfo H)),
      l.Nodup → (∀ i ∈ l, Stayed (start i) (acc.1 i)) → I acc.1 →
        I (l.foldl (sweepRow now start) acc).1 from
    hfold _ (start, [], []) (nodup_finRange n) (fun i _ => .inl rfl) h
  intro l
  induction l with
  | nil => exact fun acc _ _ hI => hI
  | cons i rest ih =>
    intro acc hnodup hstayed hI
    obtain ⟨hi, hrest⟩ := nodup_cons.mp hnodup
    have hlater : ∀ j ∈ rest, j ≠ i := fun j hj h => hi (h ▸ hj)
    have hrestStayed : ∀ j ∈ rest, Stayed (start j) (acc.1 j) :=
      fun j hj => hstayed j (mem_cons_of_mem i hj)
    rw [foldl_cons]
    rcases sweepRow_cases now start acc i with hrow | ⟨hchildren, hrow⟩ | ⟨hrunning, hrow⟩
    · exact ih _ hrest (hrow ▸ hrestStayed) (hrow ▸ hI)
    · refine ih _ hrest (fun j hj => ?_) (hrow ▸ hrelease _ i hI hchildren)
      rw [hrow]
      rcases release_row (hlater j hj) acc.1 with hj' | ⟨-, hj'⟩
      · exact hj' ▸ hrestStayed j hj
      · exact hj' ▸ (hrestStayed j hj).dropped
    · have hnow : (acc.1 i).state = .running := by
        rcases hstayed i mem_cons_self with h | ⟨h, -⟩
        · rw [h, hrunning]
        · rw [h] at hrunning
          cases hrunning
      refine ih _ hrest (fun j hj => ?_) (hrow ▸ hfault _ i hI hnow)
      rw [hrow, update_of_ne (hlater j hj)]
      exact hrestStayed j hj

def isChildOf (p : ℕ) (e : SlotEntry T H) : Bool :=
  decide (e.state ≠ .empty) && decide (e.parent = some p)

/-- Links lead to slots in use that are no copy-on-write children themselves,
and a slot is in use exactly when it is leased. -/
structure Orderly (rows : Fin n → SlotEntry T H) : Prop where
  parent : ∀ i q, (rows i).parent = some q → ∃ p : Fin n, p.val = q ∧
    (rows p).state ≠ .empty ∧ (rows p).parent = none ∧ (rows p).ramIsCow = false
  cow : ∀ i, (rows i).parent ≠ none → (rows i).ramIsCow = true
  vacant : ∀ i, (rows i).state = .empty → rows i = .empty
  leased : ∀ i, (rows i).lease = none → (rows i).state = .empty

structure Balanced (rows : Fin n → SlotEntry T H) : Prop extends Orderly rows where
  children : ∀ p : Fin n, (rows p).liveChildren = Rows.count (isChildOf p) rows

lemma isChildOf_empty (p : ℕ) : isChildOf p (.empty : SlotEntry T H) = false := rfl

lemma isChildOf_of_parent_none {p : ℕ} {e : SlotEntry T H} (h : e.parent = none) :
    isChildOf p e = false := by
  simp [isChildOf, h]

lemma isChildOf_eq_true_iff {p : ℕ} {e : SlotEntry T H} :
    isChildOf p e = true ↔ e.state ≠ .empty ∧ e.parent = some p := by
  simp [isChildOf]

namespace Orderly

variable {e : SlotEntry T H} {i : Fin n} {q : ℕ}

variable (h : Orderly rows)
include h

lemma state_ne_empty (hparent : (rows i).parent = some q) : (rows i).state ≠ .empty := by
  intro hstate
  rw [h.vacant i hstate] at hparent
  cases hparent

lemma isChildOf_iff : isChildOf q (rows i) = true ↔ (rows i).parent = some q :=
  isChildOf_eq_true_iff.trans (and_iff_right_of_imp h.state_ne_empty)

lemma lease_ne_none (hstate : (rows i).state ≠ .empty) : (rows i).lease ≠ none :=
  fun hlease => hstate (h.leased i hlease)

lemma replace (hparent : ∀ q, e.parent = some q → ∃ p : Fin n, p ≠ i ∧ p.val = q ∧
      (rows p).state ≠ .empty ∧ (rows p).parent = none ∧ (rows p).ramIsCow = false)
    (hcow : e.parent ≠ none → e.ramIsCow = true) (hvacant : e.state = .empty → e = .empty)
    (hleased : e.lease = none → e.state = .empty)
    (hserves : (∀ j ≠ i, (rows j).parent ≠ some i.val) ∨
      (e.state ≠ .empty ∧ e.parent = none ∧ e.ramIsCow = false)) :
    Orderly (Function.update rows i e) := by
  constructor
  · intro j q hj
    by_cases hji : j = i
    · subst hji
      rw [update_self] at hj
      obtain ⟨p, hpi, hp, hrest⟩ := hparent q hj
      exact ⟨p, hp, by rwa [update_of_ne hpi]⟩
    · rw [update_of_ne hji] at hj
      obtain ⟨p, hp, hrest⟩ := h.parent j q hj
      refine ⟨p, hp, ?_⟩
      by_cases hpi : p = i
      · subst hpi
        rw [update_self]
        rcases hserves with hnone | hserves
        · exact absurd (hp ▸ hj) (hnone j hji)
        · exact hserves
      · rwa [update_of_ne hpi]
  · exact (forall_update_iff rows fun _ e => e.parent ≠ none → e.ramIsCow = true).mpr
      ⟨hcow, fun j _ => h.cow j⟩
  · exact (forall_update_iff rows fun _ e => e.state = .empty → e = .empty).mpr
      ⟨hvacant, fun j _ => h.vacant j⟩
  · exact (forall_update_iff rows fun _ e => e.lease = none → e.state = .empty).mpr
      ⟨hleased, fun j _ => h.leased j⟩

lemma edit (hstate : (rows i).state ≠ .empty) (hstate' : e.state ≠ .empty)
    (hlease : e.lease ≠ none) (hparent : e.parent = (rows i).parent)
    (hcow : e.ramIsCow = (rows i).ramIsCow) : Orderly (Function.update rows i e) := by
  refine h.replace (fun q hq => ?_) ?_ (absurd · hstate') (absurd · hlease) ?_
  · rw [hparent] at hq
    obtain ⟨p, hp, hused, hnone, hrest⟩ := h.parent i q hq
    refine ⟨p, ?_, hp, hused, hnone, hrest⟩
    rintro rfl
    rw [hq] at hnone
    cases hnone
  · rw [hparent, hcow]
    exact h.cow i
  · by_cases hserves : ∀ j ≠ i, (rows j).parent ≠ some i.val
    · exact .inl hserves
    · push Not at hserves
      obtain ⟨j, -, hj⟩ := hserves
      obtain ⟨p, hp, -, hnone, hown⟩ := h.parent j i hj
      obtain rfl := Fin.ext hp
      exact .inr ⟨hstate', hparent.trans hnone, hcow.trans hown⟩

lemma parent_ne_of_empty (hempty : (rows i).state = .empty) (j : Fin n) :
    (rows j).parent ≠ some i.val := by
  intro hj
  obtain ⟨p, hp, hstate, -⟩ := h.parent j i hj
  obtain rfl := Fin.ext hp
  exact hstate hempty

end Orderly

namespace Balanced

variable {e : SlotEntry T H} {free : List (Fin n)} {i p : Fin n} {m : SlotManager n T}
  {op : SlotOp T H} {t t' : Table n T H}

lemma initial : Balanced fun _ : Fin n => (.empty : SlotEntry T H) := by
  refine ⟨⟨nofun, nofun, fun _ _ => rfl, fun _ _ => rfl⟩, fun p => ?_⟩
  exact (Rows.count_eq_zero_iff.mpr fun j => isChildOf_empty p).symm

lemma parent_ne (h : Balanced rows) (hchildren : (rows p).liveChildren = 0) (i : Fin n) :
    (rows i).parent ≠ some p.val := by
  intro hparent
  rw [h.children p, Rows.count_eq_zero_iff] at hchildren
  have := h.isChildOf_iff.mpr hparent
  rw [hchildren i] at this
  cases this

lemma parent_eq_none (h : Balanced rows) (hchildren : 0 < (rows p).liveChildren) :
    (rows p).parent = none := by
  rw [h.children p] at hchildren
  obtain ⟨i, hi⟩ := Rows.count_pos_iff.mp hchildren
  obtain ⟨p', hp', -, hnone, -⟩ := h.parent i p (h.isChildOf_iff.mp hi)
  obtain rfl := Fin.ext hp'
  exact hnone

lemma update (h : Balanced rows) (hstate : (rows i).state ≠ .empty) (hstate' : e.state ≠ .empty)
    (hlease : e.lease ≠ none) (hparent : e.parent = (rows i).parent)
    (hcow : e.ramIsCow = (rows i).ramIsCow) (hchildren : e.liveChildren = (rows i).liveChildren) :
    Balanced (Function.update rows i e) := by
  refine ⟨h.edit hstate hstate' hlease hparent hcow, fun p => ?_⟩
  rw [Rows.count_update_of_eq (by simp [isChildOf, hstate, hstate', hparent]), ← h.children p]
  by_cases hp : p = i
  · subst hp
    rw [update_self, hchildren]
  · rw [update_of_ne hp]

lemma edited [DecidableEq T] (h : Balanced rows) (he : Edited m op i (rows i) e) :
    Balanced (Function.update rows i e) := by
  have hstate : (rows i).state ≠ .empty := by
    rcases he.held with hstate | hlease
    · exact hstate
    · intro hstate
      rw [h.vacant i hstate] at hlease
      exact hlease rfl
  refine h.update hstate ?_ ?_ he.parent_eq he.cow_eq he.children_eq
  · rcases he.state with hsame | ⟨-, hne, -⟩
    · rwa [hsame]
    · exact hne
  · rcases he.lease with hsame | ⟨_, _, _, -, -, -, -, hnew⟩
    · rw [hsame]
      exact h.lease_ne_none hstate
    · simp [hnew]

lemma allocated (h : Balanced rows) {lease : T × Option ℕ} (hempty : (rows i).state = .empty) :
    Balanced (Function.update rows i { rows i with state := .paused, lease := some lease }) := by
  rw [h.vacant i hempty]
  refine ⟨h.replace nofun (absurd rfl) nofun nofun
    (.inl fun j _ => h.parent_ne_of_empty hempty j), fun p => ?_⟩
  rw [Rows.count_update_of_eq (by simp [isChildOf, h.vacant i hempty, SlotEntry.empty]),
    ← h.children p]
  by_cases hp : p = i
  · subst hp
    rw [update_self, h.vacant p hempty]
  · rw [update_of_ne hp]

lemma released (h : Balanced rows) (hchildren : (rows i).liveChildren = 0) :
    Balanced (release i rows).1 := by
  -- The row itself is cleared; the books are then off by one at the parent.
  have hcleared : Orderly (Function.update rows i .empty) :=
    h.replace nofun (absurd rfl) (fun _ => rfl) (fun _ => rfl)
      (.inl fun j _ => h.parent_ne hchildren j)
  have hcount : ∀ q : ℕ, Rows.count (isChildOf q) (Function.update rows i .empty) +
      (if isChildOf q (rows i) then 1 else 0) = Rows.count (isChildOf q) rows := by
    intro q
    simpa [isChildOf_empty] using Rows.count_update (isChildOf q) rows i .empty
  cases hparent : (rows i).parent with
  | none =>
    rw [release_of_none hparent]
    refine ⟨hcleared, fun p => ?_⟩
    have := hcount p
    rw [isChildOf_of_parent_none hparent, if_neg Bool.false_ne_true, Nat.add_zero,
      ← h.children p] at this
    rw [this]
    by_cases hp : p = i
    · subst hp
      rw [update_self, hchildren]
      rfl
    · rw [update_of_ne hp]
  | some q =>
    obtain ⟨p, rfl, hstate, hnone, hcow⟩ := h.parent i q hparent
    have hpi : p ≠ i := by
      rintro rfl
      rw [hparent] at hnone
      cases hnone
    have hrow : Function.update rows i .empty p = rows p := update_of_ne hpi _ _
    have hkept : (dropped (rows p)).state ≠ .empty :=
      fun h => hstate ((dropped_state_eq_empty_iff _).mp h)
    rw [release_of_some hparent hpi]
    constructor
    · apply hcleared.edit
      · rwa [hrow]
      · exact hkept
      · exact h.lease_ne_none hstate
      · rw [hrow]
        rfl
      · rw [hrow]
        rfl
    · intro p'
      have hsame : isChildOf p'.val (dropped (rows p)) =
          isChildOf p'.val (Function.update rows i .empty p) := by
        have hdropped : (dropped (rows p)).parent = none := hnone
        rw [hrow, isChildOf_of_parent_none hnone, isChildOf_of_parent_none hdropped]
      rw [Rows.count_update_of_eq hsame]
      have hp' := hcount p'
      by_cases hpp : p' = p
      · subst hpp
        rw [h.isChildOf_iff.mpr hparent, if_pos rfl, ← h.children p'] at hp'
        rw [update_self]
        have : (dropped (rows p')).liveChildren = (rows p').liveChildren - 1 := rfl
        omega
      · have hother : isChildOf p'.val (rows i) = false := by
          rw [Bool.eq_false_iff, ne_eq, h.isChildOf_iff, hparent, Option.some.injEq]
          exact fun heq => hpp (Fin.ext heq.symm)
        rw [hother, if_neg Bool.false_ne_true, Nat.add_zero, ← h.children p'] at hp'
        rw [update_of_ne hpp, hp']
        by_cases hpi' : p' = i
        · subst hpi'
          rw [update_self, hchildren]
          rfl
        · rw [update_of_ne hpi']

structure Registered (p : ℕ) (free : List (Fin n)) (rows rows' : Fin n → SlotEntry T H) : Prop where
  nodup : free.Nodup
  outside : ∀ i ∉ free, rows' i = rows i
  vacant : ∀ i ∈ free, (rows i).state = .empty
  inside : ∀ i ∈ free, (rows' i).state = .paused ∧ (rows' i).lease ≠ none ∧
    (rows' i).liveChildren = 0 ∧ (rows' i).parent = some p ∧ (rows' i).ramIsCow = true

lemma Registered.orderly (h : Orderly rows) (hreg : Registered p free rows rows')
    (hstate : (rows p).state ≠ .empty) (hnone : (rows p).parent = none)
    (hcow : (rows p).ramIsCow = false) : Orderly rows' := by
  have hstays : ∀ {i : Fin n}, (rows i).state ≠ .empty → rows' i = rows i :=
    fun hi => hreg.outside _ fun hmem => hi (hreg.vacant _ hmem)
  constructor
  · intro i q hq
    by_cases hi : i ∈ free
    · rw [(hreg.inside i hi).2.2.2.1] at hq
      cases hq
      exact ⟨p, rfl, by rw [hstays hstate]; exact ⟨hstate, hnone, hcow⟩⟩
    · rw [hreg.outside i hi] at hq
      obtain ⟨p', hp', hstate', hrest⟩ := h.parent i q hq
      exact ⟨p', hp', by rw [hstays hstate']; exact ⟨hstate', hrest⟩⟩
  · intro i hi
    by_cases hmem : i ∈ free
    · exact (hreg.inside i hmem).2.2.2.2
    · rw [hreg.outside i hmem] at hi ⊢
      exact h.cow i hi
  · intro i hi
    by_cases hmem : i ∈ free
    · rw [(hreg.inside i hmem).1] at hi
      cases hi
    · rw [hreg.outside i hmem] at hi ⊢
      exact h.vacant i hi
  · intro i hi
    by_cases hmem : i ∈ free
    · exact absurd hi (hreg.inside i hmem).2.1
    · rw [hreg.outside i hmem] at hi ⊢
      exact h.leased i hi

lemma Registered.count_eq (h : Balanced rows) (hreg : Registered p free rows rows') (q : Fin n) :
    Rows.count (isChildOf q) rows' = (rows q).liveChildren + if q = p then free.length else 0 := by
  have hold : ∀ j ∈ free, isChildOf q (rows j) = false := by
    intro j hj
    rw [h.vacant j (hreg.vacant j hj), isChildOf_empty]
  rw [h.children q]
  by_cases hq : q = p
  · subst hq
    rw [if_pos rfl]
    refine Rows.count_eq_add_length hreg.nodup (fun j hj => by rw [hreg.outside j hj]) ?_
    intro j hj
    obtain ⟨hstate, -, -, hparent, -⟩ := hreg.inside j hj
    exact ⟨hold j hj, isChildOf_eq_true_iff.mpr ⟨by rw [hstate]; nofun, hparent⟩⟩
  · rw [if_neg hq, Nat.add_zero]
    apply Rows.count_congr
    intro j
    by_cases hj : j ∈ free
    · rw [hold j hj, Bool.eq_false_iff, ne_eq, isChildOf_eq_true_iff, (hreg.inside j hj).2.2.2.1]
      rintro ⟨-, hparent⟩
      exact hq (Fin.ext (Option.some.inj hparent).symm)
    · rw [hreg.outside j hj]

lemma forked (m : SlotManager n T) {now : ℕ} {leases : List (Lease T)} (h : Balanced t.rows)
    (hpaused : (t.rows p).state = .paused) (hcow : (t.rows p).ramIsCow = false)
    (hfree : free.Nodup) (hempty : ∀ i ∈ free, (t.rows i).state = .empty)
    (hclaimed : Claimed m p (t.rows p).icount (t.rows p).baseSnapshotId now free
      ⟨Function.update t.rows p { t.rows p with state := .frozen }, t.minted⟩ t' leases) :
    Balanced (Function.update t'.rows p { t'.rows p with
      liveChildren := saturatingAdd 32 (t'.rows p).liveChildren free.length }) := by
  have hused : (t.rows p).state ≠ .empty := by
    rw [hpaused]
    nofun
  have hlease := h.lease_ne_none hused
  have hp : p ∉ free := fun hmem => hused (hempty p hmem)
  have hnone : (t.rows p).parent = none := by
    by_contra hparent
    rw [h.cow p hparent] at hcow
    cases hcow
  generalize hfrozen : ({ t.rows p with state := .frozen } : SlotEntry T H) = parent at hclaimed
  obtain ⟨hstate', hlease', hparent', hcow', hchildren'⟩ : parent.state = .frozen ∧
      parent.lease = (t.rows p).lease ∧ parent.parent = (t.rows p).parent ∧
      parent.ramIsCow = (t.rows p).ramIsCow ∧
      parent.liveChildren = (t.rows p).liveChildren := by
    subst hfrozen
    exact ⟨rfl, rfl, rfl, rfl, rfl⟩
  have hbalanced : Balanced (Function.update t.rows p parent) :=
    h.update hused (by rw [hstate']; nofun) (by rwa [hlease']) hparent' hcow' hchildren'
  have hreg : Registered p free (Function.update t.rows p parent) t'.rows := by
    have hrow : ∀ i ∈ free, Function.update t.rows p parent i = .empty := by
      intro i hi
      have hne : i ≠ p := fun h => hp (h ▸ hi)
      rw [update_of_ne hne, h.vacant i (hempty i hi)]
    refine ⟨hfree, fun i hi => (hclaimed.outside i hi).1, fun i hi => ?_, fun i hi => ?_⟩
    · rw [hrow i hi]
      rfl
    · obtain ⟨k, -, -, hchild, -⟩ := hclaimed.inside i hi
      dsimp only at hchild
      rw [hchild, hrow i hi]
      exact ⟨rfl, nofun, rfl, rfl, rfl⟩
  have hself : t'.rows p = parent := by rw [hreg.outside p hp, update_self]
  have horderly : Orderly t'.rows := by
    apply hreg.orderly hbalanced.toOrderly
    · rw [update_self, hstate']
      nofun
    · rw [update_self, hparent', hnone]
    · rw [update_self, hcow', hcow]
  have hcount := hreg.count_eq hbalanced
  have hsum : saturatingAdd 32 (t'.rows p).liveChildren free.length =
      parent.liveChildren + free.length := by
    have hroom : Rows.count (isChildOf p) t'.rows < Fintype.card (Fin n) := by
      apply Rows.count_lt_card (i := p)
      rw [hself, isChildOf_of_parent_none (hparent'.trans hnone)]
    have := m.slots_le
    rw [hcount p, if_pos rfl, update_self, Fintype.card_fin] at hroom
    rw [hself]
    exact min_eq_left (by omega)
  rw [hsum, hself]
  constructor
  · apply horderly.edit
    · rw [hself, hstate']
      nofun
    · rw [hstate']
      nofun
    · rwa [hlease']
    · rw [hself]
    · rw [hself]
  · intro q
    have hsame : isChildOf q { parent with liveChildren := parent.liveChildren + free.length } =
        isChildOf q (t'.rows p) := by
      rw [hself]
      rfl
    rw [Rows.count_update_of_eq hsame, hcount q]
    by_cases hq : q = p
    · subst hq
      rw [update_self, update_self, if_pos rfl]
    · rw [update_of_ne hq, update_of_ne hq, if_neg hq, Nat.add_zero]
      by_cases hmem : q ∈ free
      · rw [(hreg.inside q hmem).2.2.1, h.vacant q (hempty q hmem)]
        rfl
      · rw [hreg.outside q hmem, update_of_ne hq]

lemma orphan_of_ne {p : ℕ} (h : e.parent ≠ some p) : orphan p e = e := if_neg fun hboth => h hboth.1

lemma orphan_of_child {p : ℕ} (hparent : e.parent = some p) (hstate : e.state ≠ .empty) :
    (orphan p e).parent = none ∧ (orphan p e).state ≠ .empty ∧ (orphan p e).lease = e.lease ∧
      (orphan p e).liveChildren = e.liveChildren ∧ (orphan p e).ramIsCow = e.ramIsCow := by
  unfold orphan
  rw [if_pos ⟨hparent, hstate⟩]
  refine ⟨rfl, ?_, rfl, rfl, rfl⟩
  split_ifs
  · nofun
  · exact hstate

lemma release_orphans (h : Balanced rows) (hchildren : 0 < (rows p).liveChildren) :
    (release p fun j => orphan p (rows j)).1 =
      Function.update (fun j => orphan p (rows j)) p .empty := by
  have hnone := h.parent_eq_none hchildren
  apply release_of_none
  rw [orphan_of_ne (by rw [hnone]; nofun), hnone]

lemma cut (h : Balanced rows) (hchildren : 0 < (rows p).liveChildren) :
    Balanced (release p fun j => orphan p (rows j)).1 := by
  have hnone := h.parent_eq_none hchildren
  have hstay : ∀ j, (rows j).parent ≠ some p.val → orphan p (rows j) = rows j :=
    fun j hj => orphan_of_ne hj
  have hcut := fun j (hj : (rows j).parent = some p.val) => orphan_of_child hj (h.state_ne_empty hj)
  rw [h.release_orphans hchildren]
  -- A row that still has a parent was not touched.
  have hkept : ∀ j q, (orphan p (rows j)).parent = some q →
      q ≠ p.val ∧ orphan p (rows j) = rows j := by
    intro j q hj
    by_cases hjp : (rows j).parent = some p.val
    · rw [(hcut j hjp).1] at hj
      cases hj
    · rw [hstay j hjp] at hj ⊢
      refine ⟨?_, rfl⟩
      rintro rfl
      exact hjp hj
  have horphan : Orderly fun j => orphan p (rows j) := by
    constructor
    · intro j q hj
      rw [(hkept j q hj).2] at hj
      obtain ⟨p', hp', hstate, hnone', hcow⟩ := h.parent j q hj
      have : orphan p (rows p') = rows p' := hstay p' (by rw [hnone']; nofun)
      exact ⟨p', hp', by rw [this]; exact ⟨hstate, hnone', hcow⟩⟩
    · intro j hj
      obtain ⟨q, hq⟩ := Option.ne_none_iff_exists'.mp hj
      rw [(hkept j q hq).2] at hj ⊢
      exact h.cow j hj
    · intro j hj
      by_cases hjp : (rows j).parent = some p.val
      · exact absurd hj (hcut j hjp).2.1
      · rw [hstay j hjp] at hj ⊢
        exact h.vacant j hj
    · intro j hj
      by_cases hjp : (rows j).parent = some p.val
      · rw [(hcut j hjp).2.2.1] at hj
        exact absurd (h.leased j hj) (h.state_ne_empty hjp)
      · rw [hstay j hjp] at hj ⊢
        exact h.leased j hj
  constructor
  · refine horphan.replace nofun (absurd rfl) (fun _ => rfl) (fun _ => rfl) (.inl fun j _ hj => ?_)
    exact (hkept j p hj).1 rfl
  · intro q
    by_cases hq : q = p
    · subst hq
      rw [update_self]
      symm
      rw [show (SlotEntry.empty : SlotEntry T H).liveChildren = 0 from rfl, Rows.count_eq_zero_iff]
      refine (forall_update_iff _ fun _ e => isChildOf q e = false).mpr
        ⟨isChildOf_empty q, fun j _ => ?_⟩
      rw [Bool.eq_false_iff, ne_eq, isChildOf_eq_true_iff]
      exact fun hj => (hkept j q hj.2).1 rfl
    · rw [update_of_ne hq]
      have hlive : (orphan p (rows q)).liveChildren = (rows q).liveChildren := by
        by_cases hqp : (rows q).parent = some p.val
        · exact (hcut q hqp).2.2.2.1
        · rw [hstay q hqp]
      rw [hlive, h.children q]
      apply Rows.count_congr
      intro j
      by_cases hjp : j = p
      · subst hjp
        rw [update_self, isChildOf_empty, isChildOf_of_parent_none hnone]
      · rw [update_of_ne hjp]
        by_cases hj : (rows j).parent = some p.val
        · rw [isChildOf_of_parent_none (hcut j hj).1, Bool.eq_false_iff, ne_eq, h.isChildOf_iff, hj,
            Option.some.injEq]
          exact fun heq => hq (Fin.ext heq.symm)
        · rw [hstay j hj]

lemma swept (h : Balanced rows) (now : ℕ) :
    Balanced ((List.finRange n).foldl (sweepRow now rows) (rows, [], [])).1 := by
  apply sweep_induction (I := Balanced) _ _ now rows h
  · intro rows i h hchildren
    exact h.released hchildren
  · intro rows i h hrunning
    have hstate : (rows i).state ≠ .empty := by
      rw [hrunning]
      nofun
    exact h.update hstate nofun (h.lease_ne_none hstate) rfl rfl rfl

lemma shift [DecidableEq T] (h : Balanced t.rows) (hshift : Shift m op t t') :
    Balanced t'.rows := by
  cases hshift with
  | same => exact h
  | edit he => exact h.edited he
  | allocate hempty => exact h.allocated hempty
  | fork _ hpaused hcow _ hfree hempty hclaimed =>
    exact h.forked m hpaused hcow hfree hempty hclaimed
  | release hchildren => exact h.released hchildren
  | cut hchildren => exact h.cut hchildren
  | sweep => exact h.swept _

end Balanced

variable [DecidableEq T]

def Step (m : SlotManager n T) (t t' : Table n T H) : Prop := ∃ op, (m.perform t op).table = t'

def Reachable (m : SlotManager n T) (t : Table n T H) : Prop :=
  Relation.ReflTransGen (Step m) (initial n T H) t

def performAll (m : SlotManager n T) (ops : List (SlotOp T H)) (t : Table n T H) : Table n T H :=
  ops.foldl (fun t op => (m.perform t op).table) t

variable {m : SlotManager n T} {t t' : Table n T H}

lemma reachable_performAll (ops : List (SlotOp T H)) (h : Reachable m t) :
    Reachable m (m.performAll ops t) := by
  induction ops generalizing t with
  | nil => exact h
  | cons op ops ih => exact ih (h.tail ⟨op, rfl⟩)

lemma Step.shift (h : Step m t t') : ∃ op, Shift m op t t' := by
  obtain ⟨op, rfl⟩ := h
  exact ⟨op, perform_shift m t op⟩

lemma Reachable.balanced (h : Reachable m t) : Balanced t.rows := by
  induction h with
  | refl => exact Balanced.initial
  | tail _ hstep ih =>
    obtain ⟨op, hshift⟩ := hstep.shift
    exact ih.shift hshift

lemma Shift.cutOff {op : SlotOp T H} (h : Shift m op t t') {c : Fin n}
    (hstate : (t.rows c).state ≠ .empty) (hcut : CutOff (t.rows c)) : CutOff (t'.rows c) := by
  have hparent := hcut.resolve_left hstate
  cases h with
  | same => exact hcut
  | @edit _ _ i e he =>
    by_cases hci : c = i
    · subst hci
      refine .inr ?_
      dsimp only
      rwa [update_self, he.parent_eq, he.cow_eq]
    · dsimp only
      rwa [update_of_ne hci]
  | @allocate _ _ i hempty =>
    have hci : c ≠ i := by
      rintro rfl
      exact hstate hempty
    dsimp only
    rwa [update_of_ne hci]
  | @fork _ _ _ t' p free _ _ _ _ _ _ hempty hclaimed =>
    have hrow := (hclaimed.outside c fun hmem => hstate (hempty c hmem)).1
    dsimp only at hrow ⊢
    refine .inr ?_
    by_cases hcp : c = p
    · subst hcp
      rw [update_self, hrow, update_self]
      exact hparent
    · rwa [update_of_ne hcp, hrow, update_of_ne hcp]
  | release => exact release_cutOff _ hcut
  | cut =>
    refine release_cutOff _ (.inr ?_)
    unfold orphan
    split
    · exact ⟨rfl, hparent.2⟩
    · exact hparent
  | sweep =>
    apply sweep_induction (I := fun rows => CutOff (rows c)) _ _ _ _ hcut
    · intro rows i hrow _
      exact release_cutOff i hrow
    · intro rows i hrow hrunning
      by_cases hci : c = i
      · subst hci
        refine .inr ?_
        rw [update_self]
        exact hrow.resolve_left (by rw [hrunning]; nofun)
      · rwa [update_of_ne hci]

lemma forceDestroy_cutOff (h : Balanced t.rows) {p c : Fin n}
    (hparent : (t.rows c).parent = some p.val)
    (hresult : (m.perform t (.forceDestroy p)).result = .ok .done) :
    ((m.perform t (.forceDestroy p)).table.rows c).state ≠ .empty ∧
      CutOff ((m.perform t (.forceDestroy p)).table.rows c) := by
  have hstate := h.state_ne_empty hparent
  have hchildren : 0 < (t.rows p).liveChildren := by
    rw [h.children p, Rows.count_pos_iff]
    exact ⟨c, h.isChildOf_iff.mpr hparent⟩
  have hne : c ≠ p := by
    rintro rfl
    rw [h.parent_eq_none hchildren] at hparent
    cases hparent
  dsimp only [perform, forceDestroy] at hresult ⊢
  rw [dif_pos p.isLt] at hresult ⊢
  split at hresult
  · cases hresult
  · simp only [Fin.eta, if_pos hchildren, h.release_orphans hchildren, update_of_ne hne]
    obtain ⟨hnone, hused, -, -, hcow⟩ := Balanced.orphan_of_child hparent hstate
    exact ⟨hused, .inr ⟨hnone, hcow.trans (h.cow c (by rw [hparent]; nofun))⟩⟩

lemma orphan_release {c : Fin n} (h : Balanced t.rows) (hstate : (t.rows c).state ≠ .empty)
    (hcut : CutOff (t.rows c)) {j : Fin n} (hj : j ≠ c) : (release c t.rows).1 j = t.rows j ∧
      (∀ lease now, lease.slotId = c.val →
        (m.perform t (.destroy lease now)).table.rows j = t.rows j) ∧
      (m.perform t (.forceDestroy c)).table.rows j = t.rows j := by
  obtain ⟨hparent, hcow⟩ := hcut.resolve_left hstate
  have hrow : (release c t.rows).1 j = t.rows j := by
    rw [release_of_none hparent, update_of_ne hj]
  refine ⟨hrow, ?_, ?_⟩
  · rintro ⟨slotId, token⟩ now rfl
    dsimp only [perform, destroy]
    rw [dif_pos c.isLt]
    split
    · rfl
    · exact hrow
  · have hchildren : (t.rows c).liveChildren = 0 := by
      by_contra hne
      rw [h.children c, ← ne_eq, ← Nat.pos_iff_ne_zero, Rows.count_pos_iff] at hne
      obtain ⟨i, hi⟩ := hne
      obtain ⟨p, hp, -, -, hown⟩ := h.parent i c (h.isChildOf_iff.mp hi)
      obtain rfl := Fin.ext hp
      rw [hcow] at hown
      cases hown
    dsimp only [perform, forceDestroy]
    rw [dif_pos c.isLt]
    split
    · rfl
    · rw [if_neg (by simp [hchildren])]
      exact hrow

/-- In every table that operations lead to, the number a slot keeps is that of its live
children, every link leads to a slot in use that is no child itself, a slot is empty exactly
when all its fields are reset, and the children of a parent destroyed by force never reach a
later slot at its index. -/
theorem fork_accounting_exact (h : Reachable m t) :
    (∀ p : Fin n, (t.rows p).liveChildren = (Finset.univ.filter fun i =>
        (t.rows i).state ≠ .empty ∧ (t.rows i).parent = some p.val).card) ∧
      (∀ i q, (t.rows i).parent = some q → ∃ p : Fin n, p.val = q ∧ (t.rows p).state ≠ .empty ∧
        (t.rows p).parent = none ∧ (t.rows p).ramIsCow = false) ∧
      (∀ i, (t.rows i).state = .empty ↔ (t.rows i).lease = none ∧ (t.rows i).liveChildren = 0 ∧
        (t.rows i).parent = none ∧ (t.rows i).ramIsCow = false ∧ (t.rows i).icount = 0 ∧
        (t.rows i).baseSnapshotId = none) ∧
      ∀ p c : Fin n, (t.rows c).parent = some p.val →
        (m.perform t (.forceDestroy p)).result = .ok .done →
        ∀ t', Relation.ReflTransGen (fun a b => Step m a b ∧ (b.rows c).state ≠ .empty)
          (m.perform t (.forceDestroy p)).table t' →
        ∀ j ≠ c, (release c t'.rows).1 j = t'.rows j ∧
          (∀ lease now, lease.slotId = c.val →
            (m.perform t' (.destroy lease now)).table.rows j = t'.rows j) ∧
          (m.perform t' (.forceDestroy c)).table.rows j = t'.rows j := by
  have hbalanced := h.balanced
  refine ⟨fun p => ?_, hbalanced.parent, fun i => ⟨fun hi => ?_, fun hi => ?_⟩, ?_⟩
  · rw [hbalanced.children p, Finset.card_filter]
    simp [Rows.count, isChildOf]
  · rw [hbalanced.vacant i hi]
    exact ⟨rfl, rfl, rfl, rfl, rfl, rfl⟩
  · exact hbalanced.leased i hi.1
  · intro p c hparent hresult t' hpath j hj
    -- The child was cut off by the forced destruction, and stays so on the path.
    have hfirst : ((m.perform t (.forceDestroy p)).table.rows c).state ≠ .empty ∧
        CutOff ((m.perform t (.forceDestroy p)).table.rows c) :=
      forceDestroy_cutOff hbalanced hparent hresult
    have hstart : Reachable m (m.perform t (.forceDestroy p)).table := h.tail ⟨_, rfl⟩
    have hpath : Reachable m t' ∧ (t'.rows c).state ≠ .empty ∧ CutOff (t'.rows c) := by
      induction hpath with
      | refl => exact ⟨hstart, hfirst⟩
      | tail _ hstep ih =>
        obtain ⟨hreach, hused, hcut⟩ := ih
        obtain ⟨hstep, hused'⟩ := hstep
        obtain ⟨op, hshift⟩ := hstep.shift
        exact ⟨hreach.tail hstep, hused', hshift.cutOff hused hcut⟩
    exact orphan_release hpath.1.balanced hpath.2.1 hpath.2.2 hj

def threeSlots (ttl : Option ℕ) : SlotManager 3 ℕ := ⟨[2, 3, 4], ⟨ttl⟩, id, by decide, by decide⟩

/-- A parent that forked two children and was then destroyed by force. -/
theorem fork_accounting_threeSlots : ∃ t t' : Table 3 ℕ ℕ,
    Reachable (threeSlots none) t ∧ (t.rows 0).liveChildren = 2 ∧
      t' = ((threeSlots none).perform t (.forceDestroy 0)).table ∧
      (t'.rows 1).parent = none ∧ ∀ j ≠ 1, (release 1 t'.rows).1 j = t'.rows j := by
  let t : Table 3 ℕ ℕ := (threeSlots none).performAll [.allocate 0, .fork ⟨0, 0⟩ 2 0]
    (initial 3 ℕ ℕ)
  have ht : Reachable (threeSlots none) t := reachable_performAll _ .refl
  obtain ⟨-, -, -, horphans⟩ := fork_accounting_exact ht
  refine ⟨t, _, ht, by decide, rfl, by decide, fun j hj => ?_⟩
  exact (horphans 0 1 (by decide) (by decide) _ .refl j hj).1

end DetHypervisor.SlotManager
