import DetHypervisor.Slots

/-!
# What operations do to the slot table

Every operation of the manager changes the table in one of seven ways. They
are listed once, as `Shift`, and every invariant of the table is checked
against the list.
-/

namespace DetHypervisor

open List Except Function

variable {n : ℕ} {T H : Type}

namespace SlotManager

variable {i : Fin n} {publishes : Bool} {t : Table n T H}

section Validate

variable [DecidableEq T] {entry : SlotEntry T H} {lease : Lease T} {now : ℕ}

lemma validateEntry_eq_ok_iff : entry.validateEntry lease now = .ok () ↔
    ∃ expires, entry.lease = some (lease.token, expires) ∧
      ∀ deadline, expires = some deadline → now < deadline := by
  unfold SlotEntry.validateEntry
  split
  · rename_i token expires hlease
    by_cases htoken : token = lease.token
    · subst htoken
      rw [if_pos rfl]
      cases expires with
      | none => simp [hlease]
      | some deadline =>
        by_cases hnow : deadline ≤ now
        · simp [hlease, hnow]
        · simp [hlease, hnow, Nat.lt_of_not_le hnow]
    · simp [hlease, htoken]
  · rename_i hlease
    simp [hlease]

lemma lease_ne_none (h : entry.validateEntry lease now = .ok ()) : entry.lease ≠ none := by
  obtain ⟨expires, hlease, -⟩ := validateEntry_eq_ok_iff.mp h
  simp [hlease]

end Validate

/-- The operation pauses slot `i`, which presents a lease that holds. -/
def Pauses [DecidableEq T] (op : SlotOp T H) (i : ℕ) (entry : SlotEntry T H) : Prop :=
  ∃ lease now, lease.slotId = i ∧ entry.validateEntry lease now = .ok () ∧
    (op = .markPaused lease now ∨
      ∃ icount base, op = .markPausedAtPosition lease icount base now)

/-- A row in use, edited in place. The links to other rows stay, and so does
the token. -/
structure Edited [DecidableEq T] (m : SlotManager n T) (op : SlotOp T H) (i : ℕ)
    (e e' : SlotEntry T H) : Prop where
  children_eq : e'.liveChildren = e.liveChildren
  parent_eq : e'.parent = e.parent
  cow_eq : e'.ramIsCow = e.ramIsCow
  held : e.state ≠ .empty ∨ e.lease ≠ none
  state : e'.state = e.state ∨ (e.state.canTransition e'.state = true ∧ e'.state ≠ .empty ∧
    (e'.state = .paused → Pauses op i e))
  lease : e'.lease = e.lease ∨ ∃ lease now ttl, op = .renew lease now ∧ lease.slotId = i ∧
    e.validateEntry lease now = .ok () ∧ m.policy.ttlMs = some ttl ∧
    e'.lease = some (lease.token, some (saturatingAdd 64 now ttl))

variable (m : SlotManager n T) (parent : ℕ) (icount : ℕ) (base : Option H) (now : ℕ)

def childEntry (k : ℕ) (e : SlotEntry T H) : SlotEntry T H :=
  { e with
    state := .paused, lease := some (m.mint now k), parent := some parent, ramIsCow := true,
    icount := icount, baseSnapshotId := base }

structure Claimed (free : List (Fin n)) (t t' : Table n T H) (leases : List (Lease T)) : Prop where
  minted_le : t.minted ≤ t'.minted
  outside : ∀ i ∉ free, t'.rows i = t.rows i ∧ leases.find? (·.slotId = i.val) = none
  inside : ∀ i ∈ free, ∃ k, t.minted ≤ k ∧ k < t'.minted ∧
    t'.rows i = m.childEntry parent icount base now k (t.rows i) ∧
    leases.find? (·.slotId = i.val) = some ⟨i, m.tokens k⟩

lemma claimChildren_spec {free : List (Fin n)} (hfree : free.Nodup)
    (hempty : ∀ i ∈ free, (t.rows i).state = .empty) :
    ∃ t' leases events, m.claimChildren parent icount base now free t = .ok (t', leases, events) ∧
      Claimed m parent icount base now free t t' leases := by
  induction free generalizing t with
  | nil => exact ⟨t, [], [], rfl, le_rfl, fun i _ => ⟨rfl, rfl⟩, by rintro i ⟨⟩⟩
  | cons i rest ih =>
    obtain ⟨hi, hrest⟩ := nodup_cons.mp hfree
    let child := m.childEntry parent icount base now t.minted (t.rows i)
    have hnext : ∀ j ∈ rest, (Function.update t.rows i child j).state = .empty := by
      intro j hj
      have hne : j ≠ i := fun h => hi (h ▸ hj)
      rw [update_of_ne hne]
      exact hempty j (mem_cons_of_mem i hj)
    obtain ⟨t', leases, events, hclaim, hminted, houtside, hinside⟩ :=
      @ih ⟨Function.update t.rows i child, t.minted + 1⟩ hrest hnext
    dsimp only at hminted houtside hinside
    have hpaused : (t.rows i).state.transition .paused = .ok .paused := by
      rw [hempty i mem_cons_self]
      rfl
    refine ⟨t', ⟨i, m.tokens t.minted⟩ :: leases, child.infoOf i :: events, ?_, ?_, ?_, ?_⟩
    · simp only [claimChildren, hpaused]
      exact bind_eq_ok.mpr ⟨_, hclaim, rfl⟩
    · exact (Nat.le_succ _).trans hminted
    · intro j hj
      rw [mem_cons, not_or] at hj
      obtain ⟨hne, hj⟩ := hj
      obtain ⟨hrow, hfind⟩ := houtside j hj
      have hval : ¬i.val = j.val := fun h => hne (Fin.ext h.symm)
      exact ⟨by rw [hrow, update_of_ne hne], by simp [hval, hfind]⟩
    · intro j hj
      rcases mem_cons.mp hj with rfl | hj
      · obtain ⟨hrow, -⟩ := houtside j hi
        refine ⟨t.minted, le_rfl, hminted, ?_, by simp⟩
        rw [hrow, update_self]
      · have hne : j ≠ i := fun h => hi (h ▸ hj)
        have hval : ¬i.val = j.val := fun h => hne (Fin.ext h.symm)
        obtain ⟨k, hle, hlt, hrow, hfind⟩ := hinside j hj
        refine ⟨k, (Nat.le_succ _).trans hle, hlt, ?_, by simp [hval, hfind]⟩
        rw [hrow, update_of_ne hne]

lemma onEntry_row (act : SlotEntry T H → SlotEntry T H × Except SlotError Unit)
    (t : Table n T H) : (onEntry publishes i act t).table.rows i = (act (t.rows i)).1 := by
  unfold onEntry
  rw [dif_pos i.isLt]
  dsimp only [Fin.eta]
  split
  · exact update_self _ _ _
  · exact update_self _ _ _

lemma onEntry_failed {e : SlotError} {act : SlotEntry T H → SlotEntry T H × Except SlotError Unit}
    (h : (act (t.rows i)).2 = .error e) :
    (onEntry publishes i act t).result = .error (.error e) := by
  unfold onEntry
  rw [dif_pos i.isLt]
  dsimp only [Fin.eta]
  rw [h]

section Shift

variable [DecidableEq T]

inductive Shift (m : SlotManager n T) : SlotOp T H → Table n T H → Table n T H → Prop
  | same {op : SlotOp T H} (t : Table n T H) : Shift m op t t
  | edit {op : SlotOp T H} {t : Table n T H} {i : Fin n} {e : SlotEntry T H}
      (h : Edited m op i (t.rows i) e) : Shift m op t { t with rows := Function.update t.rows i e }
  | allocate {now : ℕ} {t : Table n T H} {i : Fin n} (hempty : (t.rows i).state = .empty) :
      Shift m (.allocate now) t ⟨Function.update t.rows i { t.rows i with
        state := .paused, lease := some (m.mint now t.minted) }, t.minted + 1⟩
  | fork {parent : Lease T} {now : ℕ} {t t' : Table n T H} {p : Fin n} {free : List (Fin n)}
      {leases : List (Lease T)} (hp : p.val = parent.slotId)
      (hpaused : (t.rows p).state = .paused) (hcow : (t.rows p).ramIsCow = false)
      (hsome : 0 < free.length) (hfree : free.Nodup)
      (hempty : ∀ i ∈ free, (t.rows i).state = .empty)
      (hclaimed : Claimed m p (t.rows p).icount (t.rows p).baseSnapshotId now free
        ⟨Function.update t.rows p { t.rows p with state := .frozen }, t.minted⟩ t' leases) :
      Shift m (.fork parent free.length now) t ⟨Function.update t'.rows p { t'.rows p with
        liveChildren := saturatingAdd 32 (t'.rows p).liveChildren free.length }, t'.minted⟩
  | release {op : SlotOp T H} {t : Table n T H} {i : Fin n}
      (hchildren : (t.rows i).liveChildren = 0) :
      Shift m op t { t with rows := (release i t.rows).1 }
  | cut {t : Table n T H} {i : Fin n} (hchildren : 0 < (t.rows i).liveChildren) :
      Shift m (.forceDestroy i) t
        { t with rows := (release i fun j => orphan i (t.rows j)).1 }
  | sweep {now : ℕ} {t : Table n T H} :
      Shift m (.reclaimExpired now) t
        { t with rows := ((List.finRange n).foldl (sweepRow now t.rows) (t.rows, [], [])).1 }

variable {m : SlotManager n T} {op : SlotOp T H} {children now slotId : ℕ} {free : List (Fin n)}
  {p : Fin n} {parent : Lease T} {state : SlotState}

lemma onEntry_shift {act : SlotEntry T H → SlotEntry T H × Except SlotError Unit}
    (hact : ∀ i : Fin n, i.val = slotId →
      (act (t.rows i)).1 = t.rows i ∨ Edited m op i (t.rows i) (act (t.rows i)).1) :
    Shift m op t (onEntry publishes slotId act t).table := by
  unfold onEntry
  by_cases h : slotId < n
  · rw [dif_pos h]
    have hrow : Shift m op t
        { t with rows := Function.update t.rows ⟨slotId, h⟩ (act (t.rows ⟨slotId, h⟩)).1 } := by
      rcases hact ⟨slotId, h⟩ rfl with hsame | hedit
      · rw [hsame, update_eq_self]
        exact .same t
      · exact .edit hedit
    dsimp only
    split
    · exact hrow
    · exact hrow
  · rw [dif_neg h]
    exact .same t

lemma commit_shift {act : SlotEntry T H → Except SlotError (SlotEntry T H)}
    (hact : ∀ i : Fin n, i.val = slotId → ∀ e, act (t.rows i) = .ok e →
      Edited m op i (t.rows i) e) :
    Shift m op t (onEntry publishes slotId (commit act) t).table := by
  refine onEntry_shift fun i hi => ?_
  unfold commit
  split
  · rename_i e he
    exact .inr (hact i hi e he)
  · exact .inl rfl

variable (lease : Lease T) (icount : ℕ) (base : Option H)

lemma renew_shift (now : ℕ) : Shift m (.renew lease now) t (m.renew lease now t).table := by
  refine commit_shift fun i hi e he => ?_
  obtain ⟨_, hvalid, he⟩ := bind_eq_ok.mp he
  have hheld := lease_ne_none hvalid
  split at he
  · rename_i ttl token expires httl hlease
    cases he
    obtain ⟨expires', hlease', -⟩ := validateEntry_eq_ok_iff.mp hvalid
    obtain ⟨rfl, -⟩ : token = lease.token ∧ expires = expires' :=
      Prod.mk.inj (Option.some.inj (hlease.symm.trans hlease'))
    exact ⟨rfl, rfl, rfl, .inr hheld, .inl rfl,
      .inr ⟨lease, now, ttl, rfl, hi.symm, hvalid, httl, rfl⟩⟩
  · cases he
    exact ⟨rfl, rfl, rfl, .inr hheld, .inl rfl, .inl rfl⟩

lemma markRunning_shift (now : ℕ) :
    Shift m (.markRunning lease now) t (markRunning lease now t).table := by
  refine commit_shift fun i _ e he => ?_
  obtain ⟨_, hvalid, he⟩ := bind_eq_ok.mp he
  obtain ⟨-, -, he⟩ := bind_eq_ok.mp he
  obtain ⟨state, hstate, he⟩ := bind_eq_ok.mp he
  cases he
  obtain ⟨hcan, rfl⟩ := SlotState.transition_eq_ok_iff.mp (mapError_eq_ok.mp hstate)
  exact ⟨rfl, rfl, rfl, .inr (lease_ne_none hvalid), .inr ⟨hcan, nofun, nofun⟩, .inl rfl⟩

lemma markPaused_shift (now : ℕ) :
    Shift m (.markPaused lease now) t (markPaused lease now t).table := by
  refine commit_shift fun i hi e he => ?_
  obtain ⟨_, hvalid, he⟩ := bind_eq_ok.mp he
  obtain ⟨state, hstate, he⟩ := bind_eq_ok.mp he
  cases he
  obtain ⟨hcan, rfl⟩ := SlotState.transition_eq_ok_iff.mp (mapError_eq_ok.mp hstate)
  exact ⟨rfl, rfl, rfl, .inr (lease_ne_none hvalid),
    .inr ⟨hcan, nofun, fun _ => ⟨lease, now, hi.symm, hvalid, .inl rfl⟩⟩, .inl rfl⟩

lemma markPausedAtPosition_shift (now : ℕ) : Shift m (.markPausedAtPosition lease icount base now) t
      (markPausedAtPosition lease icount base now t).table := by
  refine onEntry_shift fun i hi => ?_
  split
  · exact .inl rfl
  · rename_i hvalid
    refine .inr ?_
    unfold commit
    split
    · rename_i e he
      obtain ⟨state, hstate, he⟩ := bind_eq_ok.mp he
      cases he
      obtain ⟨hcan, rfl⟩ := SlotState.transition_eq_ok_iff.mp (mapError_eq_ok.mp hstate)
      exact ⟨rfl, rfl, rfl, .inr (lease_ne_none hvalid), .inr ⟨hcan, nofun,
        fun _ => ⟨lease, now, hi.symm, hvalid, .inr ⟨icount, base, rfl⟩⟩⟩, .inl rfl⟩
    · exact ⟨rfl, rfl, rfl, .inr (lease_ne_none hvalid), .inl rfl, .inl rfl⟩

lemma setPosition_shift (now : ℕ) : Shift m (.setPosition lease icount base now) t
      (setPosition lease icount base now t).table := by
  refine commit_shift fun i _ e he => ?_
  obtain ⟨_, hvalid, he⟩ := bind_eq_ok.mp he
  cases he
  exact ⟨rfl, rfl, rfl, .inr (lease_ne_none hvalid), .inl rfl, .inl rfl⟩

lemma markFaulted_shift (slotId : ℕ) :
    Shift m (.markFaulted slotId) t (markFaulted slotId t).table := by
  refine commit_shift fun i _ e he => ?_
  obtain ⟨state, hstate, he⟩ := bind_eq_ok.mp he
  cases he
  obtain ⟨hcan, rfl⟩ := SlotState.transition_eq_ok_iff.mp (mapError_eq_ok.mp hstate)
  refine ⟨rfl, rfl, rfl, .inl fun hempty => ?_, .inr ⟨hcan, nofun, nofun⟩, .inl rfl⟩
  rw [hempty] at hcan
  cases hcan

lemma allocate_shift (now : ℕ) : Shift m (.allocate now) t (m.allocate now t).table := by
  unfold allocate
  split
  · exact .same t
  · rename_i i hfind
    have hempty : (t.rows i).state = .empty := by simpa using List.find?_some hfind
    rw [hempty]
    exact .allocate hempty

lemma checkForkEntries_eq_ok
    (h : checkForkEntries t.rows parent children now = .ok (p, state, free)) :
    p.val = parent.slotId ∧ (t.rows p).validateEntry parent now = .ok () ∧
      (t.rows p).state = .paused ∧ state = .frozen ∧ (t.rows p).ramIsCow = false ∧
      0 < children ∧ free.length = children ∧ free.Nodup ∧
      ∀ i ∈ free, (t.rows i).state = .empty := by
  unfold checkForkEntries at h
  by_cases hslot : parent.slotId < n
  swap
  · rw [dif_neg hslot] at h
    cases h
  rw [dif_pos hslot] at h
  obtain ⟨_, hvalid, h⟩ := bind_eq_ok.mp h
  split_ifs at h with hzero hcow
  obtain ⟨state', hstate, h⟩ := bind_eq_ok.mp h
  dsimp only at h
  split_ifs at h with hlength
  obtain ⟨rfl, rfl, rfl⟩ : ⟨parent.slotId, hslot⟩ = p ∧ state' = state ∧
      ((List.finRange n).filter fun i => decide ((t.rows i).state = .empty)).take children =
        free := by
    simpa using h
  obtain ⟨hcan, rfl⟩ := SlotState.transition_eq_ok_iff.mp (mapError_eq_ok.mp hstate)
  refine ⟨rfl, hvalid, ?_, rfl, by simpa using hcow, Nat.pos_of_ne_zero hzero, ?_, ?_, ?_⟩
  · generalize (t.rows ⟨parent.slotId, hslot⟩).state = source at hcan
    cases source <;> first | rfl | cases hcan
  · exact le_antisymm (length_take_le _ _) (Nat.le_of_not_lt hlength)
  · exact ((nodup_finRange n).filter _).sublist (take_sublist _ _)
  · intro i hi
    have := (mem_filter.mp (mem_of_mem_take hi)).2
    simpa using this

lemma children_lt (m : SlotManager n T)
    (h : checkForkEntries t.rows parent children now = .ok (p, state, free)) :
    children < 2 ^ 32 := by
  obtain ⟨-, -, hpaused, -, -, -, hlength, hnodup, hempty⟩ := checkForkEntries_eq_ok h
  have hp : p ∉ free := by
    intro hmem
    rw [hempty p hmem] at hpaused
    cases hpaused
  have hcard : (p :: free).length ≤ n := by
    simpa using (nodup_cons.mpr ⟨hp, hnodup⟩).length_le_card
  rw [length_cons, hlength] at hcard
  have := m.slots_le
  omega

lemma fork_eq (m : SlotManager n T)
    (h : checkForkEntries t.rows parent children now = .ok (p, state, free)) :
    ∃ t' leases events, Claimed m p (t.rows p).icount (t.rows p).baseSnapshotId now free
        ⟨Function.update t.rows p { t.rows p with state := .frozen }, t.minted⟩ t' leases ∧
      m.fork parent children now t = ⟨.ok (.leases leases),
        ⟨Function.update t'.rows p { t'.rows p with
          liveChildren := saturatingAdd 32 (t'.rows p).liveChildren free.length }, t'.minted⟩,
        events⟩ := by
  obtain ⟨hp, -, hpaused, rfl, -, -, rfl, hnodup, hempty⟩ := checkForkEntries_eq_ok h
  have hchildren := children_lt m h
  have hrows : ∀ i ∈ free, (Function.update t.rows p { t.rows p with state := .frozen } i).state =
      .empty := by
    intro i hi
    have hne : i ≠ p := by
      rintro rfl
      rw [hempty i hi] at hpaused
      cases hpaused
    rw [update_of_ne hne]
    exact hempty i hi
  obtain ⟨t', leases, events, hclaim, hclaimed⟩ := claimChildren_spec m p (t.rows p).icount
    (t.rows p).baseSnapshotId now hnodup
    (t := ⟨Function.update t.rows p { t.rows p with state := .frozen }, t.minted⟩) hrows
  let entry := { t'.rows p with
    liveChildren := saturatingAdd 32 (t'.rows p).liveChildren free.length }
  refine ⟨t', leases, events ++ [entry.infoOf parent.slotId], hclaimed, ?_⟩
  rw [hp] at hclaim
  unfold fork
  rw [h]
  simp only [update_self, hclaim, if_neg (Nat.not_le.mpr hchildren)]
  rfl

lemma fork_shift (parent : Lease T) (children now : ℕ) :
    Shift m (.fork parent children now) t (m.fork parent children now t).table := by
  cases h : checkForkEntries t.rows parent children now with
  | error e =>
    unfold fork
    rw [h]
    exact .same t
  | ok w =>
    obtain ⟨p, state, free⟩ := w
    obtain ⟨hp, -, hpaused, -, hcow, hsome, rfl, hnodup, hempty⟩ := checkForkEntries_eq_ok h
    obtain ⟨t', leases, events, hclaimed, hfork⟩ := fork_eq m h
    rw [hfork]
    exact .fork hp hpaused hcow hsome hnodup hempty hclaimed

lemma destroy_shift (now : ℕ) : Shift m (.destroy lease now) t (destroy lease now t).table := by
  unfold destroy
  split_ifs with hslot
  · split
    · exact .same t
    · rename_i hcheck
      obtain ⟨-, -, hcheck⟩ := bind_eq_ok.mp hcheck
      split_ifs at hcheck with hchildren
      exact .release (Nat.eq_zero_of_not_pos hchildren)
  · exact .same t

lemma forceDestroy_shift (slotId : ℕ) :
    Shift m (.forceDestroy slotId) t (forceDestroy slotId t).table := by
  unfold forceDestroy
  by_cases hslot : slotId < n
  · rw [dif_pos hslot]
    split
    · exact .same t
    · split_ifs with hchildren
      · exact @Shift.cut n T H _ m t ⟨slotId, hslot⟩ hchildren
      · exact .release (Nat.eq_zero_of_not_pos hchildren)
  · rw [dif_neg hslot]
    exact .same t

lemma perform_shift (m : SlotManager n T) (t : Table n T H) (op : SlotOp T H) :
    Shift m op t (m.perform t op).table := by
  cases op with
  | validate | checkoutWrite | checkFork | checkDestroy => exact (answered_table t _).symm ▸ .same t
  | renew lease now => exact renew_shift lease now
  | allocate now => exact allocate_shift now
  | fork parent children now => exact fork_shift parent children now
  | markRunning lease now => exact markRunning_shift lease now
  | markPaused lease now => exact markPaused_shift lease now
  | markPausedAtPosition lease icount base now =>
    exact markPausedAtPosition_shift lease icount base now
  | setPosition lease icount base now => exact setPosition_shift lease icount base now
  | markFaulted slotId => exact markFaulted_shift slotId
  | destroy lease now => exact destroy_shift lease now
  | forceDestroy slotId => exact forceDestroy_shift slotId
  | reclaimExpired now => exact .sweep

end Shift

end SlotManager

end DetHypervisor
