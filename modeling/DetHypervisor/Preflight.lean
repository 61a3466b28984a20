import DetHypervisor.Lib.Traced
import DetHypervisor.SlotAccounting

/-!
# Preflight checks and the way back from a fork

`check_fork` and `check_destroy` answer what `fork` and `destroy` would answer.
Once its children are destroyed, in whatever order, a fork has left no trace in
the table, provided that the parent had no children before. A paused parent can
have some: `mark_paused` thaws a frozen one.
-/

namespace DetHypervisor.SlotManager

open List Function

variable {n : ℕ} {T H : Type} {rows rows0 : Fin n → SlotEntry T H} {p : Fin n}

/-- The check passes exactly if the operation succeeds, and fails as it fails. -/
def Predicts (check : Except SlotError Unit) (turn : Turn n T H) : Prop :=
  (check = .ok () ↔ ∃ reply, turn.result = .ok reply) ∧
    ∀ e, check = .error e ↔ turn.result = .error (.error e)

def firstEmpty (children : ℕ) (rows : Fin n → SlotEntry T H) : List (Fin n) :=
  ((List.finRange n).filter fun i => decide ((rows i).state = .empty)).take children

/-- The first `children` empty slots became children of the frozen slot `p`, and
nothing else happened. -/
structure Forked (m : SlotManager n T) (p : Fin n) (children now : ℕ) (t t' : Table n T H) :
    Prop where
  paused : (t.rows p).state = .paused
  pos : 0 < children
  length_eq : (firstEmpty children t.rows).length = children
  child : ∀ i ∈ firstEmpty children t.rows, ∃ k, t.minted ≤ k ∧ t'.rows i =
    m.childEntry p (t.rows p).icount (t.rows p).baseSnapshotId now k .empty
  parent : t'.rows p = { t.rows p with
    state := .frozen, liveChildren := (t.rows p).liveChildren + children }
  rest : ∀ i ∉ firstEmpty children t.rows, i ≠ p → t'.rows i = t.rows i

lemma mem_firstEmpty {children : ℕ} {i : Fin n} (h : i ∈ firstEmpty children rows) :
    (rows i).state = .empty := by
  simpa using (mem_filter.mp (mem_of_mem_take h)).2

lemma nodup_firstEmpty (children : ℕ) (rows : Fin n → SlotEntry T H) :
    (firstEmpty children rows).Nodup := ((nodup_finRange n).filter _).sublist (take_sublist _ _)

/-- The table `rows` while the children `left` of a fork by `p` are alive. Without
them it would be `rows0`, but for the state of a parent that had other children. -/
structure Undoing (p : Fin n) (rows0 rows : Fin n → SlotEntry T H) (left : List (Fin n)) :
    Prop where
  child : ∀ i ∈ left, rows0 i = .empty ∧ (rows i).parent = some p.val
  rest : ∀ i ∉ left, i ≠ p → rows i = rows0 i
  parent : rows p = { rows0 p with
    liveChildren := (rows0 p).liveChildren + left.length
    state := if (rows0 p).liveChildren + left.length = 0 then .paused else .frozen }

variable {left : List (Fin n)} {c : Fin n}

lemma Undoing.release (h : Undoing p rows0 rows left)
    (hused : (rows0 p).state = .paused) (hnodup : left.Nodup) (hc : c ∈ left) :
    Undoing p rows0 (release c rows).1 (left.erase c) := by
  have hpc : p ≠ c := by
    rintro rfl
    rw [(h.child p hc).1] at hused
    cases hused
  have hpos := length_pos_of_mem hc
  rw [release_of_some (h.child c hc).2 hpc]
  refine ⟨fun i hi => ?_, fun i hi hip => ?_, ?_⟩
  · obtain ⟨hne, hi⟩ := hnodup.mem_erase_iff.mp hi
    have hip : i ≠ p := by
      rintro rfl
      rw [(h.child i hi).1] at hused
      cases hused
    rw [update_of_ne hip, update_of_ne hne]
    exact h.child i hi
  · rw [update_of_ne hip]
    by_cases hic : i = c
    · subst hic
      rw [update_self, (h.child i hc).1]
    · rw [update_of_ne hic]
      exact h.rest i (fun hmem => hi (hnodup.mem_erase_iff.mpr ⟨hic, hmem⟩)) hip
  · have hlive : (rows0 p).liveChildren + left.length - 1 =
        (rows0 p).liveChildren + (left.erase c).length := by
      rw [length_erase_of_mem hc]
      omega
    have hfrozen : ¬(rows0 p).liveChildren + left.length = 0 := by omega
    rw [update_self, h.parent, dropped, if_neg hfrozen]
    simp [hlive]

variable [DecidableEq T] {m : SlotManager n T} {t t' : Table n T H}

/-- `DestroyVm` with a lease that is accepted. -/
def Destroys (d : Lease T × ℕ) (t t' : Table n T H) : Prop :=
  ∃ events, destroy d.1 d.2 t = ⟨.ok .done, t', events⟩

lemma Destroys.rows_eq {d : Lease T × ℕ} (h : Destroys d t t')
    (hc : d.1.slotId = c) : t'.rows = (release c t.rows).1 := by
  obtain ⟨events, h⟩ := h
  unfold destroy at h
  simp only [hc, c.isLt, dif_pos] at h
  split at h
  · cases h
  · cases h
    rfl

lemma Undoing.all {ds : List (Lease T × ℕ)} (h : Undoing p rows0 t.rows left)
    (hused : (rows0 p).state = .paused) (hnodup : left.Nodup)
    (hds : (ds.map (·.1.slotId)).Perm (left.map Fin.val)) (hrun : Traced Destroys ds t t') :
    Undoing p rows0 t'.rows [] := by
  induction hrun generalizing left with
  | nil t =>
    obtain rfl : left = [] := by simpa using hds.symm.eq_nil
    exact h
  | @cons d ds t t1 t' hd _ ih =>
    obtain ⟨c, hc, hslot⟩ := mem_map.mp (hds.subset mem_cons_self)
    have hreleased : Undoing p rows0 t1.rows (left.erase c) := by
      rw [hd.rows_eq hslot.symm]
      exact h.release hused hnodup hc
    have hperm := hds.trans ((perm_cons_erase hc).map Fin.val)
    rw [map_cons, map_cons, show d.1.slotId = c.val from hslot.symm] at hperm
    exact ih hreleased (hnodup.erase c) hperm.cons_inv

omit [DecidableEq T] in
lemma Undoing.eq_iff (h : Undoing p rows0 rows []) (hused : (rows0 p).state = .paused) :
    rows = rows0 ↔ (rows0 p).liveChildren = 0 := by
  constructor
  · intro heq
    have hstate := congrArg SlotEntry.state h.parent
    rw [heq, hused] at hstate
    by_contra hne
    rw [if_neg (by simpa using hne)] at hstate
    cases hstate
  · intro hzero
    funext i
    by_cases hip : i = p
    · subst hip
      rw [h.parent, length_nil, Nat.add_zero, if_pos hzero, ← hused]
    · exact h.rest i (by simp) hip

variable {lease : Lease T} {children now : ℕ} {state : SlotState} {free : List (Fin n)}

lemma free_eq (h : checkForkEntries rows lease children now = .ok (p, state, free)) :
    free = firstEmpty children rows := by
  unfold checkForkEntries at h
  by_cases hslot : lease.slotId < n
  swap
  · rw [dif_neg hslot] at h
    cases h
  rw [dif_pos hslot] at h
  obtain ⟨_, -, h⟩ := Except.bind_eq_ok.mp h
  split_ifs at h with hzero hcow
  obtain ⟨state', -, h⟩ := Except.bind_eq_ok.mp h
  dsimp only at h
  split_ifs at h
  cases h
  rfl

lemma fork_forked (hreach : Reachable m t)
    (h : checkForkEntries t.rows lease children now = .ok (p, state, free)) :
    p.val = lease.slotId ∧ (∃ leases, (m.fork lease children now t).result = .ok (.leases leases)) ∧
      Forked m p children now t (m.fork lease children now t).table := by
  obtain ⟨hp, -, hpaused, -, -, hpos, hlength, hnodup, hempty⟩ := checkForkEntries_eq_ok h
  obtain ⟨t', leases, events, hclaimed, hfork⟩ := fork_eq m h
  have hafter : Balanced (m.fork lease children now t).table.rows :=
    Reachable.balanced (hreach.tail ⟨.fork lease children now, rfl⟩)
  rw [hfork] at hafter ⊢
  dsimp only at hafter ⊢
  have hbefore := hreach.balanced
  obtain ⟨-, houtside, hinside⟩ := hclaimed
  dsimp only at houtside hinside
  have hnot : p ∉ free := by
    intro hmem
    rw [hempty p hmem] at hpaused
    cases hpaused
  have hself : t'.rows p = { t.rows p with state := .frozen } := by
    rw [(houtside p hnot).1, update_self]
  have hrest : ∀ i ∉ free, i ≠ p → t'.rows i = t.rows i := by
    intro i hi hip
    rw [(houtside i hi).1, update_of_ne hip]
  have hchild : ∀ i ∈ free, ∃ k, t.minted ≤ k ∧ t'.rows i =
      m.childEntry p (t.rows p).icount (t.rows p).baseSnapshotId now k .empty := by
    intro i hi
    have hip : i ≠ p := fun h => hnot (h ▸ hi)
    obtain ⟨k, hk, -, hrow, -⟩ := hinside i hi
    refine ⟨k, hk, ?_⟩
    rw [hrow, update_of_ne hip, hbefore.vacant i (hempty i hi)]
  -- the books are balanced before and after, so nothing was cut off at `u32::MAX`
  have hcount := hafter.children p
  have hadded : Rows.count (isChildOf p) t'.rows =
      Rows.count (isChildOf p) t.rows + free.length := by
    apply Rows.count_eq_add_length hnodup
    · intro j hj
      by_cases hjp : j = p
      · subst hjp
        rw [hself]
        simp [isChildOf, hpaused]
      · rw [hrest j hj hjp]
    · intro j hj
      obtain ⟨k, -, hrow⟩ := hchild j hj
      rw [hbefore.vacant j (hempty j hj), hrow]
      exact ⟨rfl, by simp [isChildOf, childEntry]⟩
  rw [update_self, Rows.count_update_of_eq (by simp [isChildOf, hself]), hadded,
    ← hbefore.children p, hlength] at hcount
  have hfree := free_eq h
  refine ⟨hp, ⟨leases, rfl⟩, hpaused, hpos, hfree ▸ hlength, fun i hi => ?_, ?_, fun i hi hip => ?_⟩
  · have hip : i ≠ p := fun h => hnot (hfree ▸ h ▸ hi)
    obtain ⟨k, hk, hrow⟩ := hchild i (hfree ▸ hi)
    refine ⟨k, hk, ?_⟩
    dsimp only
    rw [update_of_ne hip, hrow]
  · dsimp only at hcount ⊢
    rw [update_self, hlength, hcount, hself]
  · dsimp only
    rw [update_of_ne hip, hrest i (hfree ▸ hi) hip]

omit [DecidableEq T] in
lemma Forked.undoing (h : Forked m p children now t t') (hbalanced : Balanced t.rows) :
    Undoing p t.rows t'.rows (firstEmpty children t.rows) := by
  refine ⟨fun i hi => ⟨hbalanced.vacant i (mem_firstEmpty hi), ?_⟩, h.rest, ?_⟩
  · obtain ⟨k, -, hrow⟩ := h.child i hi
    rw [hrow]
    rfl
  · rw [h.parent, h.length_eq]
    have hfrozen : ¬(t.rows p).liveChildren + children = 0 := fun hzero =>
      h.pos.ne' (Nat.add_eq_zero_iff.mp hzero).2
    rw [if_neg hfrozen]

lemma destroy_predicted (lease : Lease T) (now : ℕ) (t : Table n T H) :
    Predicts (checkDestroy lease now t) (destroy lease now t) := by
  unfold checkDestroy withEntry destroy
  split_ifs with hslot
  · cases hcheck : checkDestroyEntry (t.rows ⟨lease.slotId, hslot⟩) lease now with
    | ok _ => simp [Predicts, hcheck]
    | error e => simp [Predicts, refused, hcheck]
  · simp [Predicts, refused]

/-- The checks predict the operations; a fork is done as a whole or refused without
a trace; and when its children are destroyed, every row is what it was before the
fork exactly if the parent had no children then. -/
theorem preflight_predicts_iff (h : Reachable m t) (lease : Lease T) (children now : ℕ) :
    Predicts (checkFork lease children now t) (m.fork lease children now t) ∧
      Predicts (checkDestroy lease now t) (destroy lease now t) ∧
      ((∃ e, m.fork lease children now t = refused t e) ∨
        ∃ p, p.val = lease.slotId ∧ Forked m p children now t (m.fork lease children now t).table ∧
          ∀ ds t', (ds.map (·.1.slotId)).Perm ((firstEmpty children t.rows).map Fin.val) →
            Traced Destroys ds (m.fork lease children now t).table t' →
              (t'.rows = t.rows ↔ (t.rows p).liveChildren = 0)) := by
  cases hcheck : checkForkEntries t.rows lease children now with
  | error e =>
    have hfork : m.fork lease children now t = refused t e := by
      unfold fork
      rw [hcheck]
    refine ⟨?_, destroy_predicted lease now t, .inl ⟨e, hfork⟩⟩
    rw [hfork, checkFork, hcheck]
    simp [Predicts, refused, Except.map]
  | ok w =>
    obtain ⟨p, state, free⟩ := w
    obtain ⟨hp, ⟨leases, hresult⟩, hforked⟩ := fork_forked h hcheck
    refine ⟨?_, destroy_predicted lease now t, .inr ⟨p, hp, hforked, fun ds t' hds hrun => ?_⟩⟩
    · rw [checkFork, hcheck]
      simp [Predicts, hresult, Except.map]
    · have hundoing := hforked.undoing h.balanced
      have hundone := hundoing.all hforked.paused (nodup_firstEmpty _ _) hds hrun
      exact hundone.eq_iff hforked.paused

/-- A fresh slot forks two children, which are destroyed in the order of their leases
or the other way round. -/
theorem preflight_threeSlots : ∃ t t' : Table 3 ℕ ℕ, Reachable (threeSlots none) t ∧
    t' = ((threeSlots none).fork ⟨0, 0⟩ 2 0 t).table ∧ firstEmpty 2 t.rows = [1, 2] ∧
      ∀ ds t'', (ds = [(⟨1, 1⟩, 5), (⟨2, 2⟩, 7)] ∨ ds = [(⟨2, 2⟩, 5), (⟨1, 1⟩, 7)]) →
        Traced Destroys ds t' t'' → t''.rows = t.rows := by
  let t : Table 3 ℕ ℕ := (threeSlots none).performAll [.allocate 0] (initial 3 ℕ ℕ)
  have ht : Reachable (threeSlots none) t := reachable_performAll _ .refl
  have hfree : firstEmpty 2 t.rows = [1, 2] := by decide
  refine ⟨t, _, ht, rfl, hfree, fun ds t'' hds hrun => ?_⟩
  obtain ⟨-, -, ⟨e, hrefused⟩ | ⟨p, hp, -, hundone⟩⟩ := preflight_predicts_iff ht ⟨0, 0⟩ 2 0
  · have hresult : ((threeSlots none).fork ⟨0, 0⟩ 2 0 t).result = .error (.error e) := by
      rw [hrefused]
      rfl
    have hleases : ((threeSlots none).fork ⟨0, 0⟩ 2 0 t).result =
      .ok (.leases [⟨1, 1⟩, ⟨2, 2⟩]) := by decide
    rw [hleases] at hresult
    cases hresult
  · obtain rfl : p = 0 := Fin.ext hp
    refine (hundone ds t'' ?_ hrun).mpr (by decide)
    rw [hfree]
    rcases hds with rfl | rfl <;> decide

/-- A parent with a child is paused by its lease, forks again and keeps, once the new
child is destroyed, its frozen state. -/
theorem fork_of_paused_parent_stays :
    let t := (threeSlots none).performAll
      [.allocate 0, .fork ⟨0, 0⟩ 1 0, .markPaused ⟨0, 0⟩ 0] (initial 3 ℕ ℕ)
    let t' := ((threeSlots none).fork ⟨0, 0⟩ 1 0 t).table
    Reachable (threeSlots none) t ∧ (destroy ⟨2, 2⟩ 0 t').result = .ok .done ∧
      (t.rows 0).state = .paused ∧ ((destroy ⟨2, 2⟩ 0 t').table.rows 0).state = .frozen :=
  ⟨reachable_performAll _ .refl, by decide, by decide, by decide⟩

end DetHypervisor.SlotManager
