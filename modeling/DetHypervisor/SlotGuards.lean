import DetHypervisor.SlotAccounting

/-!
# Frozen parents and failed operations

A parent with live children is frozen until it is paused, which the transition relation allows.
A failed operation leaves the table alone unless it stores the position before it checks the
transition.
-/

namespace DetHypervisor.SlotManager

open Except Function

variable {n : ℕ} {T H : Type} {rows : Fin n → SlotEntry T H}

def Traceless (t : Table n T H) (turn : Turn n T H) : Prop :=
  ∀ failure, turn.result = .error failure → turn.table = t ∧ turn.events = []

lemma traceless_refused (t : Table n T H) (e : SlotError) : Traceless t (refused t e) :=
  fun _ _ => ⟨rfl, rfl⟩

lemma traceless_answered (t : Table n T H) (r : Except SlotError Unit) :
    Traceless t (answered t r) := by
  cases r with
  | ok => nofun
  | error e => exact traceless_refused t e

variable {publishes : Bool} {slotId : ℕ}

lemma traceless_onEntry
    {act : SlotEntry T H → SlotEntry T H × Except SlotError Unit} {t : Table n T H}
    (hact : ∀ p : Fin n, p.val = slotId → ∀ e, (act (t.rows p)).2 = .error e →
      (act (t.rows p)).1 = t.rows p) : Traceless t (onEntry publishes slotId act t) := by
  unfold onEntry
  by_cases h : slotId < n
  · rw [dif_pos h]
    dsimp only
    split
    · nofun
    · rename_i e he
      intro failure _
      dsimp only
      rw [hact ⟨slotId, h⟩ rfl e he, update_eq_self]
      exact ⟨rfl, rfl⟩
  · rw [dif_neg h]
    exact traceless_refused t _

lemma commit_failed {act : SlotEntry T H → Except SlotError (SlotEntry T H)}
    {entry : SlotEntry T H} {e : SlotError} (h : (commit act entry).2 = .error e) :
    (commit act entry).1 = entry := by
  unfold commit at h ⊢
  split at h
  · cases h
  · rfl

lemma traceless_commit
    (act : SlotEntry T H → Except SlotError (SlotEntry T H)) (t : Table n T H) :
    Traceless t (onEntry publishes slotId (commit act) t) := by
  apply traceless_onEntry
  intro p _ e he
  exact commit_failed he

def Guarded (rows : Fin n → SlotEntry T H) : Prop :=
  ∀ p, 0 < (rows p).liveChildren → (rows p).state = .frozen

namespace Guarded

variable (h : Guarded rows)
include h

lemma update {i : Fin n} {e : SlotEntry T H}
    (he : 0 < e.liveChildren → e.state = .frozen) : Guarded (Function.update rows i e) :=
  (forall_update_iff rows fun _ e => 0 < e.liveChildren → e.state = .frozen).mpr
    ⟨he, fun j _ => h j⟩

lemma released (i : Fin n) : Guarded (release i rows).1 := by
  intro j hchildren
  by_cases hji : j = i
  · subst hji
    rw [release_self] at hchildren
    cases hchildren
  · rcases release_row hji rows with hrow | ⟨-, hrow⟩
    · rw [hrow] at hchildren ⊢
      exact h j hchildren
    · rw [hrow] at hchildren ⊢
      have hleft : 0 < (rows j).liveChildren - 1 := hchildren
      have hfrozen := h j (by omega)
      unfold dropped
      dsimp only
      rw [if_neg (by omega), hfrozen]

lemma children_eq_zero {i : Fin n} (hstate : (rows i).state ≠ .frozen) :
    (rows i).liveChildren = 0 := by
  by_contra hne
  exact hstate (h i (Nat.pos_of_ne_zero hne))

lemma swept (now : ℕ) : Guarded ((List.finRange n).foldl (sweepRow now rows) (rows, [], [])).1 := by
  apply sweep_induction (I := Guarded) _ _ now rows h
  · intro rows i h _
    exact h.released i
  · intro rows i h hrunning
    apply h.update
    intro hchildren
    have := h.children_eq_zero (i := i) (by rw [hrunning]; nofun)
    dsimp only at hchildren
    omega

lemma orphaned (p : ℕ) : Guarded fun j => orphan p (rows j) := by
  intro j hchildren
  dsimp only [orphan] at hchildren ⊢
  by_cases hchild : (rows j).parent = some p ∧ (rows j).state ≠ .empty
  · rw [if_pos hchild] at hchildren ⊢
    dsimp only at hchildren ⊢
    rw [h j hchildren]
    rfl
  · rw [if_neg hchild] at hchildren ⊢
    exact h j hchildren

end Guarded

variable [DecidableEq T] {m : SlotManager n T} {t t' : Table n T H} {op : SlotOp T H}

def PausesParent (op : SlotOp T H) (t : Table n T H) : Prop :=
  ∃ p : Fin n, Pauses op p (t.rows p) ∧ 0 < (t.rows p).liveChildren

lemma Guarded.shift (h : Guarded t.rows) (hshift : Shift m op t t') (hpause : ¬PausesParent op t)
    (hempty : ∀ i, (t.rows i).state = .empty → t.rows i = .empty) : Guarded t'.rows := by
  cases hshift with
  | same => exact h
  | @edit _ _ i e he =>
    apply h.update
    intro hchildren
    rw [he.children_eq] at hchildren
    have hfrozen := h i hchildren
    rcases he.state with hsame | ⟨hcan, hne, hpauses⟩
    · rw [hsame, hfrozen]
    · rw [hfrozen] at hcan
      generalize e.state = state at hcan hne hpauses
      cases state with
      | paused => exact absurd ⟨i, hpauses rfl, hchildren⟩ hpause
      | empty => exact absurd rfl hne
      | running | frozen | faulted => cases hcan
  | @allocate _ _ i hi =>
    apply h.update
    intro hchildren
    rw [hempty i hi] at hchildren
    cases hchildren
  | @fork _ _ _ t' p free _ _ hpaused _ _ hfree hvacant hclaimed =>
    intro j hchildren
    dsimp only at hchildren ⊢
    have hp : p ∉ free := by
      intro hmem
      rw [hvacant p hmem] at hpaused
      cases hpaused
    by_cases hjp : j = p
    · subst hjp
      have hrow := (hclaimed.outside j hp).1
      dsimp only at hrow
      rw [update_self, hrow, update_self]
    · rw [update_of_ne hjp] at hchildren ⊢
      by_cases hj : j ∈ free
      · obtain ⟨k, -, -, hrow, -⟩ := hclaimed.inside j hj
        dsimp only at hrow
        rw [update_of_ne hjp, hempty j (hvacant j hj)] at hrow
        rw [hrow] at hchildren
        cases hchildren
      · have hrow := (hclaimed.outside j hj).1
        dsimp only at hrow
        rw [update_of_ne hjp] at hrow
        rw [hrow] at hchildren ⊢
        exact h j hchildren
  | release => exact h.released _
  | cut => exact (h.orphaned _).released _
  | sweep => exact h.swept _

lemma Pauses.thaws {i : Fin n} (h : Pauses op i (t.rows i)) (hstate : (t.rows i).state = .frozen) :
    ((m.perform t op).table.rows i).state = .paused ∧
      ((m.perform t op).table.rows i).liveChildren = (t.rows i).liveChildren := by
  obtain ⟨⟨slotId, token⟩, now, rfl, hvalid, rfl | ⟨icount, base, rfl⟩⟩ := h
  · dsimp only [perform, markPaused]
    rw [onEntry_row]
    simp only [commit, hvalid, hstate, ok_bind]
    exact ⟨rfl, rfl⟩
  · dsimp only [perform, markPausedAtPosition]
    rw [onEntry_row]
    simp only [commit, hvalid, hstate]
    exact ⟨rfl, rfl⟩

/-- As long as no parent with live children is paused, it stays frozen, so that
no write path opens on it; and the first such pause opens one. -/
theorem frozen_until_paused
    (h : Relation.ReflTransGen (fun a b => ∃ op, ¬PausesParent op a ∧ (m.perform a op).table = b)
      (initial n T H) t) : (∀ p, 0 < (t.rows p).liveChildren → (t.rows p).state = .frozen ∧
        (∀ api, SlotState.ensureWritePath api (t.rows p).state = .error (.frozenWriteDenied api)) ∧
        (∀ lease now, lease.slotId = p.val →
          ((m.perform t (.markRunning lease now)).table.rows p).state = .frozen)) ∧
      ∀ op, Guarded (m.perform t op).table.rows ↔ ¬PausesParent op t := by
  have hinv : Balanced t.rows ∧ Guarded t.rows := by
    induction h with
    | refl => exact ⟨Balanced.initial, fun p hchildren => absurd hchildren (Nat.lt_irrefl 0)⟩
    | @tail b _ _ hstep ih =>
      obtain ⟨op, hpause, rfl⟩ := hstep
      have hshift := perform_shift m b op
      exact ⟨ih.1.shift hshift, ih.2.shift hshift hpause ih.1.vacant⟩
  obtain ⟨hbalanced, hguarded⟩ := hinv
  refine ⟨fun p hchildren => ⟨hguarded p hchildren, fun api => ?_, ?_⟩,
    fun op => ⟨?_, fun hpause => ?_⟩⟩
  · rw [hguarded p hchildren]
    rfl
  · rintro ⟨slotId, token⟩ now rfl
    have hshift := perform_shift m t (.markRunning ⟨p, token⟩ now)
    have hpause : ¬PausesParent (.markRunning ⟨p.val, token⟩ now) t := by
      rintro ⟨i, ⟨lease, now', -, -, hop | ⟨_, _, hop⟩⟩, -⟩
      · cases hop
      · cases hop
    refine hguarded.shift hshift hpause hbalanced.vacant p ?_
    dsimp only [perform, markRunning]
    rw [onEntry_row]
    unfold commit
    split
    · rename_i e he
      obtain ⟨_, -, he⟩ := bind_eq_ok.mp he
      obtain ⟨_, -, he⟩ := bind_eq_ok.mp he
      obtain ⟨_, -, he⟩ := bind_eq_ok.mp he
      cases he
      exact hchildren
    · exact hchildren
  · rintro hafter ⟨p, hpauses, hchildren⟩
    obtain ⟨hstate, hkept⟩ := hpauses.thaws (m := m) (hguarded p hchildren)
    have := hafter p (by rwa [hkept])
    rw [hstate] at this
    cases this
  · exact hguarded.shift (perform_shift m t op) hpause hbalanced.vacant

/-- A parent and its child, reached without a pause. -/
theorem frozen_threeSlots : ∃ t : Table 3 ℕ ℕ,
    Relation.ReflTransGen (fun a b => ∃ op, ¬PausesParent op a ∧
      ((threeSlots none).perform a op).table = b) (initial 3 ℕ ℕ) t ∧
      0 < (t.rows 0).liveChildren ∧ (t.rows 0).state = .frozen := by
  have hcalm : ∀ (a : Table 3 ℕ ℕ) (op : SlotOp ℕ ℕ), (∀ lease now, op ≠ .markPaused lease now) →
      (∀ lease icount base now, op ≠ .markPausedAtPosition lease icount base now) →
        ¬PausesParent op a := by
    rintro a op hpaused hposition ⟨i, ⟨lease, now, -, -, hop | ⟨icount, base, hop⟩⟩, -⟩
    · exact hpaused lease now hop
    · exact hposition lease icount base now hop
  have hpath : Relation.ReflTransGen (fun a b => ∃ op, ¬PausesParent op a ∧
      ((threeSlots none).perform a op).table = b) (initial 3 ℕ ℕ)
      ((threeSlots none).performAll [.allocate 0, .fork ⟨0, 0⟩ 1 0] (initial 3 ℕ ℕ)) :=
    .tail (.single ⟨.allocate 0, hcalm _ _ nofun nofun, rfl⟩)
      ⟨.fork ⟨0, 0⟩ 1 0, hcalm _ _ nofun nofun, rfl⟩
  have hchildren : 0 < (((threeSlots none).performAll [.allocate 0, .fork ⟨0, 0⟩ 1 0]
      (initial 3 ℕ ℕ)).rows 0).liveChildren := by decide
  exact ⟨_, hpath, hchildren, ((frozen_until_paused hpath).1 0 hchildren).1⟩

/-- The lease of a frozen parent pauses it, and then it runs, with its child
alive. -/
theorem paused_parent_runs :
    let t := (threeSlots none).performAll
      [.allocate 0, .fork ⟨0, 0⟩ 1 0, .markPaused ⟨0, 0⟩ 0, .markRunning ⟨0, 0⟩ 0]
      (initial 3 ℕ ℕ)
    Reachable (threeSlots none) t ∧ (t.rows 0).liveChildren = 1 ∧ (t.rows 0).state = .running ∧
      (t.rows 1).parent = some 0 ∧ (t.rows 1).state = .paused :=
  ⟨reachable_performAll _ .refl, by decide, by decide, by decide, by decide⟩

/-- The operation pauses a slot that cannot be paused, at a position other than
the recorded one. -/
def MovesUnpaused (op : SlotOp T H) (t : Table n T H) : Prop :=
  ∃ (lease : Lease T) (icount : ℕ) (base : Option H) (now : ℕ) (p : Fin n),
    op = .markPausedAtPosition lease icount base now ∧ lease.slotId = p.val ∧
      (t.rows p).validateEntry lease now = .ok () ∧
      ((t.rows p).state = .paused ∨ (t.rows p).state = .faulted) ∧
      (icount, base) ≠ ((t.rows p).icount, (t.rows p).baseSnapshotId)

lemma pausable_of_ne {state : SlotState} (hpaused : state ≠ .paused)
    (hfaulted : state ≠ .faulted) : state.canTransition .paused = true := by
  cases state with
  | paused => exact absurd rfl hpaused
  | faulted => exact absurd rfl hfaulted
  | empty | running | frozen => rfl

lemma traceless_markPausedAtPosition_iff {lease : Lease T} {icount : ℕ} {base : Option H}
    {now : ℕ} : Traceless t (markPausedAtPosition lease icount base now t) ↔
      ¬MovesUnpaused (.markPausedAtPosition lease icount base now) t := by
  constructor
  · rintro htraceless ⟨lease', icount', base', now', p, hop, hp, hvalid, hstate, hmoved⟩
    obtain ⟨rfl, rfl, rfl, rfl⟩ := SlotOp.markPausedAtPosition.inj hop
    have hrow : (markPausedAtPosition lease icount base now t).table.rows p =
        { t.rows p with icount := icount, baseSnapshotId := base } := by
      unfold markPausedAtPosition
      rw [hp, onEntry_row]
      rcases hstate with hstate | hstate <;> simp [hvalid, commit, hstate] <;> rfl
    have hfailed : (markPausedAtPosition lease icount base now t).result =
        .error (.error (.state (.invalidTransition (t.rows p).state .paused))) := by
      unfold markPausedAtPosition
      rw [hp]
      apply onEntry_failed
      rcases hstate with hstate | hstate <;> simp [hvalid, commit, hstate] <;> rfl
    have hsame := (htraceless _ hfailed).1
    rw [hsame] at hrow
    apply hmoved
    rw [hrow]
  · intro hmoves
    apply traceless_onEntry
    intro p hp e he
    cases hvalid : (t.rows p).validateEntry lease now with
    | error _ => rfl
    | ok _ =>
      simp only [hvalid] at he ⊢
      by_cases hstate : (t.rows p).state = .paused ∨ (t.rows p).state = .faulted
      · have hposition : (icount, base) = ((t.rows p).icount, (t.rows p).baseSnapshotId) := by
          by_contra hne
          exact hmoves ⟨lease, icount, base, now, p, rfl, hp.symm, hvalid, hstate, hne⟩
        cases hposition
        exact commit_failed he
      · rw [not_or] at hstate
        have hcan := pausable_of_ne hstate.1 hstate.2
        simp [commit, SlotState.transition, hcan] at he
        cases he

lemma traceless_of_ne
    (hop : ∀ lease icount base now, op ≠ .markPausedAtPosition lease icount base now) :
    ∀ failure, (m.perform t op).result = .error failure →
      (m.perform t op).table = t ∧ (m.perform t op).events = [] := by
  cases op with
  | markPausedAtPosition lease icount base now => exact absurd rfl (hop lease icount base now)
  | validate | checkoutWrite | checkFork | checkDestroy => exact traceless_answered t _
  | renew | markRunning | markPaused | setPosition | markFaulted => exact traceless_commit _ t
  | reclaimExpired now => rintro _ ⟨⟩
  | allocate now =>
    dsimp only [perform, allocate]
    split
    · exact traceless_refused t _
    · split
      · exact traceless_refused t _
      · rintro _ ⟨⟩
  | fork parent children now =>
    dsimp only [perform, fork]
    split
    · exact traceless_refused t _
    · split
      · exact fun _ _ => ⟨rfl, rfl⟩
      · split
        · exact fun _ _ => ⟨rfl, rfl⟩
        · rintro _ ⟨⟩
  | destroy lease now =>
    dsimp only [perform, destroy]
    split
    · split
      · exact traceless_refused t _
      · rintro _ ⟨⟩
    · exact traceless_refused t _
  | forceDestroy slotId =>
    dsimp only [perform, forceDestroy]
    split
    · split
      · exact traceless_refused t _
      · split
        · rintro _ ⟨⟩
        · rintro _ ⟨⟩
    · exact traceless_refused t _

/-- An operation that fails leaves the table as it was and publishes nothing, unless it stores a
new position in a slot that is paused or faulted already. -/
theorem failed_traceless_iff (m : SlotManager n T) (t : Table n T H) (op : SlotOp T H) :
    (∀ failure, (m.perform t op).result = .error failure →
      (m.perform t op).table = t ∧ (m.perform t op).events = []) ↔ ¬MovesUnpaused op t := by
  by_cases hop : ∃ lease icount base now, op = .markPausedAtPosition lease icount base now
  · obtain ⟨lease, icount, base, now, rfl⟩ := hop
    exact traceless_markPausedAtPosition_iff
  · have hne : ∀ lease icount base now, op ≠ .markPausedAtPosition lease icount base now :=
      fun lease icount base now h => hop ⟨lease, icount, base, now, h⟩
    refine iff_of_true (traceless_of_ne hne) ?_
    rintro ⟨lease, icount, base, now, p, h, -⟩
    exact hne lease icount base now h

/-- A slot that is paused already is told to pause at count seven: that is
refused, and the position is stored. -/
theorem refused_pause_moves :
    let t := (threeSlots none).performAll [.allocate 0] (initial 3 ℕ ℕ)
    let turn := (threeSlots none).perform t (.markPausedAtPosition ⟨0, 0⟩ 7 none 0)
    Reachable (threeSlots none) t ∧
      turn.result = .error (.error (.state (.invalidTransition .paused .paused))) ∧
      (t.rows 0).icount = 0 ∧ (turn.table.rows 0).icount = 7 :=
  ⟨reachable_performAll _ .refl, by decide, by decide, by decide⟩

end DetHypervisor.SlotManager
