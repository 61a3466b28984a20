import DetHypervisor.SlotAccounting

/-!
# Lease safety

The table only remembers the present lease. So a ledger is kept next to it: for every slot the
token minted last, and when it was granted or renewed.
-/

namespace DetHypervisor.SlotManager

open Except Function

variable {n : ℕ} {T H : Type} [DecidableEq T] {m : SlotManager n T} {t t' : Table n T H}
  {op : SlotOp T H} {lease : Lease T} {now : ℕ}

variable {i : Fin n} {reply : Reply T} {slotId : ℕ}

omit [DecidableEq T] in
lemma withEntry_eq_ok {check : SlotEntry T H → Except SlotError Unit}
    (h : withEntry slotId check t = .ok ()) :
    ∃ p : Fin n, p.val = slotId ∧ check (t.rows p) = .ok () := by
  unfold withEntry at h
  split_ifs at h with hslot
  exact ⟨⟨slotId, hslot⟩, rfl, h⟩

omit [DecidableEq T] in
lemma answered_eq_ok {r : Except SlotError Unit} (h : (answered t r).result = .ok reply) :
    r = .ok () := by
  cases r with
  | ok => rfl
  | error => cases h

omit [DecidableEq T] in
lemma onEntry_eq_ok {publishes : Bool} {act : SlotEntry T H → SlotEntry T H × Except SlotError Unit}
    (h : (onEntry publishes slotId act t).result = .ok reply) :
    ∃ p : Fin n, p.val = slotId ∧ (act (t.rows p)).2 = .ok () := by
  unfold onEntry at h
  by_cases hslot : slotId < n
  · rw [dif_pos hslot] at h
    dsimp only at h
    split at h
    · rename_i hok
      exact ⟨⟨slotId, hslot⟩, rfl, hok⟩
    · cases h
  · rw [dif_neg hslot] at h
    cases h

omit [DecidableEq T] in
lemma commit_eq_ok {act : SlotEntry T H → Except SlotError (SlotEntry T H)}
    {entry : SlotEntry T H} (h : (commit act entry).2 = .ok ()) : ∃ e, act entry = .ok e := by
  unfold commit at h
  split at h
  · exact ⟨_, by assumption⟩
  · cases h

lemma gate (hop : op.presents = some (lease, now)) (h : (m.perform t op).result = .ok reply) :
    ∃ p : Fin n, p.val = lease.slotId ∧ (t.rows p).validateEntry lease now = .ok () := by
  have hcommit : ∀ {publishes : Bool} {reply : Reply T}
      {rest : SlotEntry T H → Except SlotError (SlotEntry T H)},
      (onEntry publishes lease.slotId (commit fun entry => do
        entry.validateEntry lease now
        rest entry) t).result = .ok reply →
      ∃ p : Fin n, p.val = lease.slotId ∧ (t.rows p).validateEntry lease now = .ok () := by
    intro publishes reply rest h
    obtain ⟨p, hp, hact⟩ := onEntry_eq_ok h
    obtain ⟨e, he⟩ := commit_eq_ok hact
    obtain ⟨_, hvalid, -⟩ := bind_eq_ok.mp he
    exact ⟨p, hp, hvalid⟩
  cases op with
  | allocate | markFaulted | forceDestroy | reclaimExpired => cases hop
  | validate lease' now' =>
    cases hop
    exact withEntry_eq_ok (answered_eq_ok h)
  | checkoutWrite | checkDestroy =>
    cases hop
    obtain ⟨p, hp, hcheck⟩ := withEntry_eq_ok (answered_eq_ok h)
    obtain ⟨_, hvalid, -⟩ := bind_eq_ok.mp hcheck
    exact ⟨p, hp, hvalid⟩
  | checkFork parent children now' =>
    cases hop
    obtain ⟨⟨p, state, free⟩, hcheck, -⟩ := map_eq_ok.mp (answered_eq_ok h)
    obtain ⟨hp, hvalid, -⟩ := checkForkEntries_eq_ok hcheck
    exact ⟨p, hp, hvalid⟩
  | fork parent children now' =>
    cases hop
    dsimp only [perform, fork] at h
    split at h
    · cases h
    · rename_i hcheck
      obtain ⟨hp, hvalid, -⟩ := checkForkEntries_eq_ok hcheck
      exact ⟨_, hp, hvalid⟩
  | destroy lease' now' =>
    cases hop
    dsimp only [perform, destroy] at h
    split at h
    · rename_i hslot
      split at h
      · cases h
      · rename_i hcheck
        obtain ⟨_, hvalid, -⟩ := bind_eq_ok.mp hcheck
        exact ⟨⟨_, hslot⟩, rfl, hvalid⟩
    · cases h
  | renew | markRunning | markPaused | setPosition =>
    cases hop
    exact hcommit h
  | markPausedAtPosition lease' icount base now' =>
    cases hop
    obtain ⟨p, hp, hact⟩ := onEntry_eq_ok h
    split at hact
    · cases hact
    · exact ⟨p, hp, by assumption⟩

lemma Shift.minted_le (h : Shift m op t t') : t.minted ≤ t'.minted := by
  cases h with
  | same | edit | release | cut | sweep => exact le_rfl
  | allocate => exact Nat.le_succ _
  | fork _ _ _ _ _ _ hclaimed => exact hclaimed.minted_le

omit [DecidableEq T] in
lemma lease_of_release {rows : Fin n → SlotEntry T H} {j : Fin n} {l : T × Option ℕ}
    (h : ((release i rows).1 j).lease = some l) : (rows j).lease = some l := by
  by_cases hji : j = i
  · subst hji
    rw [release_self] at h
    cases h
  · rcases release_row hji rows with hrow | ⟨-, hrow⟩
    · rwa [hrow] at h
    · rw [hrow] at h
      exact h

omit [DecidableEq T] in
lemma lease_orphan (p : ℕ) (e : SlotEntry T H) : (orphan p e).lease = e.lease := by
  unfold orphan
  split
  · rfl
  · rfl

lemma Shift.token (h : Shift m op t t') {token : T} {expires : Option ℕ}
    (hlease : (t'.rows i).lease = some (token, expires)) :
    ((t.rows i).lease = some (token, expires) ∨ ∃ before lease now ttl,
        (t.rows i).lease = some (token, before) ∧ op = .renew lease now ∧
        (t.rows i).validateEntry lease now = .ok () ∧ m.policy.ttlMs = some ttl ∧
        expires = some (saturatingAdd 64 now ttl)) ∨
      ∃ k, t.minted ≤ k ∧ k < t'.minted ∧ token = m.tokens k := by
  cases h with
  | same => exact .inl (.inl hlease)
  | @edit _ _ p e he =>
    refine .inl ?_
    dsimp only at hlease
    by_cases hip : i = p
    · subst hip
      rw [update_self] at hlease
      rcases he.lease with hsame | ⟨lease, now, ttl, hop, -, hvalid, httl, hnew⟩
      · exact .inl (hsame ▸ hlease)
      · obtain ⟨before, hbefore, -⟩ := validateEntry_eq_ok_iff.mp hvalid
        cases hnew.symm.trans hlease
        exact .inr ⟨before, lease, now, ttl, hbefore, hop, hvalid, httl, rfl⟩
    · rw [update_of_ne hip] at hlease
      exact .inl hlease
  | @allocate now _ p _ =>
    dsimp only at hlease ⊢
    by_cases hip : i = p
    · subst hip
      rw [update_self] at hlease
      cases hlease
      exact .inr ⟨t.minted, le_rfl, Nat.lt_succ_self _, rfl⟩
    · rw [update_of_ne hip] at hlease
      exact .inl (.inl hlease)
  | @fork _ _ _ t' p free _ _ _ _ _ _ _ hclaimed =>
    dsimp only at hlease ⊢
    have hlease : (t'.rows i).lease = some (token, expires) := by
      by_cases hip : i = p
      · subst hip
        rwa [update_self] at hlease
      · rwa [update_of_ne hip] at hlease
    by_cases hi : i ∈ free
    · obtain ⟨k, hle, hlt, hrow, -⟩ := hclaimed.inside i hi
      rw [hrow] at hlease
      cases hlease
      exact .inr ⟨k, hle, hlt, rfl⟩
    · rw [(hclaimed.outside i hi).1] at hlease
      refine .inl (.inl ?_)
      dsimp only at hlease
      by_cases hip : i = p
      · subst hip
        rwa [update_self] at hlease
      · rwa [update_of_ne hip] at hlease
  | release => exact .inl (.inl (lease_of_release hlease))
  | cut =>
    have := lease_of_release hlease
    rw [lease_orphan] at this
    exact .inl (.inl this)
  | sweep =>
    refine .inl (.inl ?_)
    revert hlease
    apply sweep_induction (I := fun rows => (rows i).lease = some (token, expires) →
      (t.rows i).lease = some (token, expires)) _ _ _ _ id
    · intro rows j ih _ hlease
      exact ih (lease_of_release hlease)
    · intro rows j ih _ hlease
      apply ih
      by_cases hij : i = j
      · subst hij
        rwa [update_self] at hlease
      · rwa [update_of_ne hij] at hlease

def Minted (m : SlotManager n T) (t : Table n T H) : Prop :=
  ∀ i token expires, (t.rows i).lease = some (token, expires) →
    ∃ k < t.minted, token = m.tokens k

lemma Reachable.minted (h : Reachable m t) : Minted m t := by
  induction h with
  | refl => nofun
  | tail _ hstep ih =>
    obtain ⟨op, hshift⟩ := hstep.shift
    intro i token expires hlease
    rcases hshift.token hlease with (hold | ⟨before, -, -, -, hold, -⟩) | ⟨k, -, hlt, rfl⟩
    · obtain ⟨k, hk, rfl⟩ := ih i token expires hold
      exact ⟨k, hk.trans_le hshift.minted_le, rfl⟩
    · obtain ⟨k, hk, rfl⟩ := ih i token before hold
      exact ⟨k, hk.trans_le hshift.minted_le, rfl⟩
    · exact ⟨k, hlt, rfl⟩

/-- For every slot the token minted for it last, and when its lease was granted
or renewed. -/
abbrev Ledger (n : ℕ) (T : Type) := Fin n → Option (T × ℕ)

def Ledger.note (g : Ledger n T) (op : SlotOp T H) (result : Except Failure (Reply T)) :
    Ledger n T :=
  match op, result with
  | .allocate now, .ok (.lease lease) =>
    fun i => if lease.slotId = i.val then some (lease.token, now) else g i
  | .fork _ _ now, .ok (.leases leases) => fun i =>
      match leases.find? (·.slotId = i.val) with
      | some lease => some (lease.token, now)
      | none => g i
  | .renew lease now, .ok _ => fun i =>
      if lease.slotId = i.val then (g i).map fun grant => (grant.1, now) else g i
  | _, _ => g

def Entered (m : SlotManager n T) (a b : Table n T H × Ledger n T) : Prop :=
  ∃ op, b = ((m.perform a.1 op).table, a.2.note op (m.perform a.1 op).result)

def Unexpired (policy : LeasePolicy) (granted now : ℕ) : Prop :=
  ∀ ttl, policy.ttlMs = some ttl → now < saturatingAdd 64 granted ttl

def Honest (m : SlotManager n T) (t : Table n T H) (g : Ledger n T) : Prop :=
  ∀ i token expires, (t.rows i).lease = some (token, expires) → ∃ granted,
    g i = some (token, granted) ∧ expires = m.policy.ttlMs.map (saturatingAdd 64 granted)

omit [DecidableEq T] in
lemma allocate_cases (m : SlotManager n T) (now : ℕ) (t : Table n T H) :
    (∃ failure, (m.allocate now t).result = .error failure ∧ (m.allocate now t).table = t) ∨
      ∃ i : Fin n, (m.allocate now t).result = .ok (.lease ⟨i, m.tokens t.minted⟩) ∧
        (m.allocate now t).table.rows = Function.update t.rows i { t.rows i with
          state := .paused, lease := some (m.mint now t.minted) } := by
  unfold allocate
  split
  · exact .inl ⟨_, rfl, rfl⟩
  · rename_i i hfind
    have hempty : (t.rows i).state = .empty := by simpa using List.find?_some hfind
    have hpaused : (t.rows i).state.transition .paused = .ok .paused := by
      rw [hempty]
      rfl
    simp only [hpaused]
    exact .inr ⟨i, rfl, rfl⟩

lemma renew_cases (m : SlotManager n T) (lease : Lease T) (now : ℕ) (t : Table n T H) :
    (∃ failure, (m.renew lease now t).result = .error failure ∧ (m.renew lease now t).table = t) ∨
      ∃ (p : Fin n) (e : SlotEntry T H), p.val = lease.slotId ∧
        (m.renew lease now t).result = .ok .done ∧
        (m.renew lease now t).table.rows = Function.update t.rows p e ∧
        ∃ expires, (t.rows p).lease = some (lease.token, expires) ∧ e.lease = some (lease.token,
          (m.policy.ttlMs.map (saturatingAdd 64 now)).or expires) := by
  unfold renew onEntry
  by_cases hslot : lease.slotId < n
  · rw [dif_pos hslot]
    cases hvalid : (t.rows ⟨lease.slotId, hslot⟩).validateEntry lease now with
    | error e =>
      refine .inl ⟨.error e, ?_⟩
      simp only [commit, hvalid, error_bind, update_eq_self]
      exact ⟨trivial, trivial⟩
    | ok _ =>
      obtain ⟨expires, hlease, -⟩ := validateEntry_eq_ok_iff.mp hvalid
      refine .inr ⟨⟨lease.slotId, hslot⟩, ?_⟩
      cases httl : m.policy.ttlMs with
      | none =>
        refine ⟨t.rows ⟨lease.slotId, hslot⟩, rfl, ?_⟩
        simp only [commit, hvalid, ok_bind]
        exact ⟨rfl, rfl, expires, hlease, hlease⟩
      | some ttl =>
        refine ⟨{ t.rows ⟨lease.slotId, hslot⟩ with
          lease := some (lease.token, some (saturatingAdd 64 now ttl)) }, rfl, ?_⟩
        simp only [commit, hvalid, ok_bind, hlease]
        exact ⟨rfl, rfl, expires, rfl, rfl⟩
  · rw [dif_neg hslot]
    exact .inl ⟨_, rfl, rfl⟩

lemma Shift.minted_eq (h : Shift m op t t') (hallocate : ∀ now, op ≠ .allocate now)
    (hfork : ∀ parent children now, op ≠ .fork parent children now) : t'.minted = t.minted := by
  cases h with
  | same | edit | release | cut | sweep => rfl
  | allocate => exact absurd rfl (hallocate _)
  | fork => exact absurd rfl (hfork _ _ _)

variable {g : Ledger n T}

lemma Honest.plain (h : Honest m t g) (hshift : Shift m op t t')
    (hallocate : ∀ now, op ≠ .allocate now)
    (hfork : ∀ parent children now, op ≠ .fork parent children now)
    (hrenew : ∀ lease now, op ≠ .renew lease now) : Honest m t' g := by
  intro i token expires hlease
  have hminted := hshift.minted_eq hallocate hfork
  rcases hshift.token hlease with (hold | ⟨_, lease, now, _, -, hop, -⟩) | ⟨k, hle, hlt, -⟩
  · exact h i token expires hold
  · exact absurd hop (hrenew lease now)
  · omega

omit [DecidableEq T] in
lemma Honest.allocate (h : Honest m t g) (now : ℕ) : Honest m (m.allocate now t).table
      (g.note (.allocate now : SlotOp T H) (m.allocate now t).result) := by
  intro i token expires hlease
  rcases allocate_cases m now t with ⟨failure, hresult, htable⟩ | ⟨p, hresult, hrows⟩
  · rw [htable] at hlease
    rw [hresult]
    exact h i token expires hlease
  · rw [hrows] at hlease
    rw [hresult]
    dsimp only [Ledger.note]
    by_cases hip : i = p
    · subst hip
      rw [update_self] at hlease
      cases hlease
      exact ⟨now, if_pos rfl, rfl⟩
    · rw [update_of_ne hip] at hlease
      rw [if_neg fun heq => hip (Fin.ext heq.symm)]
      exact h i token expires hlease

lemma Honest.renew (h : Honest m t g) (lease : Lease T) (now : ℕ) :
    Honest m (m.renew lease now t).table
      (g.note (.renew lease now : SlotOp T H) (m.renew lease now t).result) := by
  intro i token expires hlease
  rcases renew_cases m lease now t with ⟨failure, hresult, htable⟩ |
    ⟨p, e, hp, hresult, hrows, before, hbefore, he⟩
  · rw [htable] at hlease
    rw [hresult]
    exact h i token expires hlease
  · rw [hrows] at hlease
    rw [hresult]
    dsimp only [Ledger.note]
    by_cases hip : i = p
    · subst hip
      rw [update_self, he] at hlease
      cases hlease
      obtain ⟨granted, hg, hbefore⟩ := h i lease.token before hbefore
      rw [if_pos hp.symm, hg]
      refine ⟨now, rfl, ?_⟩
      rw [hbefore]
      cases m.policy.ttlMs <;> rfl
    · rw [update_of_ne hip] at hlease
      rw [if_neg fun heq => hip (Fin.ext (heq.symm.trans hp.symm))]
      exact h i token expires hlease

lemma Honest.fork (h : Honest m t g) (parent : Lease T) (children now : ℕ) :
    Honest m (m.fork parent children now t).table
      (g.note (.fork parent children now : SlotOp T H) (m.fork parent children now t).result) := by
  intro i token expires hlease
  cases hcheck : checkForkEntries t.rows parent children now with
  | error e =>
    have hfork : m.fork parent children now t = refused t e := by
      unfold SlotManager.fork
      rw [hcheck]
    rw [hfork] at hlease ⊢
    exact h i token expires hlease
  | ok w =>
    obtain ⟨p, state, free⟩ := w
    obtain ⟨t', leases, events, hclaimed, hfork⟩ := fork_eq m hcheck
    rw [hfork] at hlease ⊢
    dsimp only [Ledger.note] at hlease ⊢
    have hlease : (t'.rows i).lease = some (token, expires) := by
      by_cases hip : i = p
      · subst hip
        rwa [update_self] at hlease
      · rwa [update_of_ne hip] at hlease
    by_cases hi : i ∈ free
    · obtain ⟨k, -, -, hrow, hfind⟩ := hclaimed.inside i hi
      rw [hrow] at hlease
      cases hlease
      rw [hfind]
      exact ⟨now, rfl, rfl⟩
    · obtain ⟨hrow, hfind⟩ := hclaimed.outside i hi
      rw [hrow] at hlease
      rw [hfind]
      dsimp only at hlease
      by_cases hip : i = p
      · subst hip
        rw [update_self] at hlease
        exact h i token expires hlease
      · rw [update_of_ne hip] at hlease
        exact h i token expires hlease

lemma Honest.step (h : Honest m t g) (op : SlotOp T H) :
    Honest m (m.perform t op).table (g.note op (m.perform t op).result) := by
  have hshift := perform_shift m t op
  cases op with
  | allocate now => exact h.allocate now
  | renew lease now => exact h.renew lease now
  | fork parent children now => exact h.fork parent children now
  | validate | checkoutWrite | checkFork | markRunning | markPaused | markPausedAtPosition |
    setPosition | markFaulted | destroy | checkDestroy | forceDestroy | reclaimExpired =>
      exact h.plain hshift nofun nofun nofun

lemma honest_of_entered
    (h : Relation.ReflTransGen (Entered m) (initial n T H, fun _ => none) (t, g)) :
    Reachable m t ∧ Honest m t g := by
  have hpair : ∀ b : Table n T H × Ledger n T,
      Relation.ReflTransGen (Entered m) (initial n T H, fun _ => none) b →
        Reachable m b.1 ∧ Honest m b.1 b.2 := by
    intro b hb
    induction hb with
    | refl => exact ⟨.refl, nofun⟩
    | tail _ hstep ih =>
      obtain ⟨op, rfl⟩ := hstep
      exact ⟨ih.1.tail ⟨op, rfl⟩, ih.2.step op⟩
  exact hpair (t, g) h

/-- With tokens that do not repeat, whatever can be said of the deadline of a minted token and
is kept by renewals stays true. -/
lemma deadline_invariant {K : Option ℕ → Prop} {A : SlotOp T H → Prop} {p : Fin n} {k : ℕ}
    (hk : k < t.minted) (hK : ∀ expires, (t.rows p).lease = some (m.tokens k, expires) → K expires)
    (hrenew : ∀ (a : Table n T H) lease now ttl before, A (.renew lease now) → K before →
      (a.rows p).lease = some (m.tokens k, before) →
      (a.rows p).validateEntry lease now = .ok () → K (some (saturatingAdd 64 now ttl)))
    (hpath : Relation.ReflTransGen (fun a b => ∃ op, A op ∧ (m.perform a op).table = b) t t')
    (hfresh : Set.InjOn m.tokens (Set.Iio t'.minted)) : t.minted ≤ t'.minted ∧
      ∀ expires, (t'.rows p).lease = some (m.tokens k, expires) → K expires := by
  induction hpath with
  | refl => exact ⟨le_rfl, hK⟩
  | @tail a _ _ hstep ih =>
    obtain ⟨op, hop, rfl⟩ := hstep
    have hshift := perform_shift m a op
    obtain ⟨hle, ih⟩ := ih (hfresh.mono (Set.Iio_subset_Iio hshift.minted_le))
    refine ⟨hle.trans hshift.minted_le, fun expires hlease => ?_⟩
    rcases hshift.token hlease with (hold | ⟨before, lease, now, ttl, hold, rfl, hvalid, -, rfl⟩) |
      ⟨j, hj, hlt, htoken⟩
    · exact ih expires hold
    · exact hrenew a lease now ttl before hop (ih before hold) hold hvalid
    · have hsame : k = j := hfresh ((hk.trans_le hle).trans_le hshift.minted_le) hlt htoken
      omega

/-- An operation succeeds only with the token minted last for the slot, within its time to live.
With tokens that do not repeat, a lease whose slot was released is never good again, and
neither is one that has run out. -/
theorem lease_safety {g : Ledger n T}
    (h : Relation.ReflTransGen (Entered m) (initial n T H, fun _ => none) (t, g)) :
    (∀ (op : SlotOp T H) lease now reply, op.presents = some (lease, now) →
        (m.perform t op).result = .ok reply →
        ∃ p : Fin n, p.val = lease.slotId ∧ ∃ granted, g p = some (lease.token, granted) ∧
          Unexpired m.policy granted now) ∧
      (∀ (p : Fin n) token expires op t', (t.rows p).lease = some (token, expires) →
        ((m.perform t op).table.rows p).state = .empty →
        Relation.ReflTransGen (Step m) (m.perform t op).table t' →
        Set.InjOn m.tokens (Set.Iio t'.minted) →
        ∀ (op' : SlotOp T H) now reply, op'.presents = some (⟨p, token⟩, now) →
          (m.perform t' op').result ≠ .ok reply) ∧
      (∀ (p : Fin n) token deadline now, (t.rows p).lease = some (token, some deadline) →
        deadline ≤ now →
        (m.perform t (.renew ⟨p, token⟩ now)).result = .error (.error (.leaseExpired p)) ∧
        (m.perform t (.renew ⟨p, token⟩ now)).table = t ∧
        ∀ t', Relation.ReflTransGen (fun a b => ∃ op : SlotOp T H,
            (∀ time, op.time = some time → now ≤ time) ∧ (m.perform a op).table = b) t t' →
          Set.InjOn m.tokens (Set.Iio t'.minted) → ∀ (op' : SlotOp T H) time reply, now ≤ time →
            op'.presents = some (⟨p, token⟩, time) → (m.perform t' op').result ≠ .ok reply) := by
  obtain ⟨hreach, hhonest⟩ := honest_of_entered h
  refine ⟨?_, ?_, ?_⟩
  · intro op lease now reply hop hresult
    obtain ⟨p, hp, hvalid⟩ := gate hop hresult
    obtain ⟨expires, hlease, hdeadline⟩ := validateEntry_eq_ok_iff.mp hvalid
    obtain ⟨granted, hg, rfl⟩ := hhonest p lease.token expires hlease
    refine ⟨p, hp, granted, hg, fun ttl httl => hdeadline _ ?_⟩
    rw [httl]
    rfl
  · intro p token expires op t' hlease hempty hpath hfresh op' now reply hop' hresult
    obtain ⟨k, hk, rfl⟩ := hreach.minted p token expires hlease
    have hstep : Reachable m (m.perform t op).table := hreach.tail ⟨op, rfl⟩
    have hgone := hstep.balanced.vacant p hempty
    have hpath : Relation.ReflTransGen
        (fun a b => ∃ op : SlotOp T H, True ∧ (m.perform a op).table = b)
        (m.perform t op).table t' :=
      Relation.ReflTransGen.mono (fun _ _ ⟨op, hop⟩ => ⟨op, trivial, hop⟩) _ _ hpath
    obtain ⟨q, hq, hvalid⟩ := gate hop' hresult
    obtain rfl : q = p := Fin.ext hq
    obtain ⟨expires', hlease', -⟩ := validateEntry_eq_ok_iff.mp hvalid
    refine (deadline_invariant (K := fun _ => False)
      (hk.trans_le (perform_shift m t op).minted_le) (fun expires hold => ?_)
      (fun _ _ _ _ _ _ hfalse => hfalse.elim) hpath hfresh).2 expires' hlease'
    rw [hgone] at hold
    cases hold
  · intro p token deadline now hlease hle
    have hexpired : (t.rows p).validateEntry ⟨p, token⟩ now = .error (.leaseExpired p) := by
      simp [SlotEntry.validateEntry, hlease, hle]
    refine ⟨?_, ?_, ?_⟩
    · apply onEntry_failed
      simp [commit, hexpired]
    · rcases renew_cases m ⟨p, token⟩ now t with ⟨_, -, htable⟩ | ⟨q, _, hq, hresult, -⟩
      · exact htable
      · have hop : (SlotOp.renew ⟨p, token⟩ now : SlotOp T H).presents =
            some (⟨p, token⟩, now) := rfl
        obtain ⟨q', hq', hvalid⟩ := gate hop hresult
        obtain rfl : q' = p := Fin.ext hq'
        rw [hexpired] at hvalid
        cases hvalid
    · intro t' hpath hfresh op' time reply htime hop' hresult
      obtain ⟨k, hk, rfl⟩ := hreach.minted p token (some deadline) hlease
      obtain ⟨q, hq, hvalid⟩ := gate hop' hresult
      obtain rfl : q = p := Fin.ext hq
      obtain ⟨expires', hlease', hgood⟩ := validateEntry_eq_ok_iff.mp hvalid
      have hinv := deadline_invariant (K := fun expires => ∃ d ≤ now, expires = some d)
        (A := fun op => ∀ time, op.time = some time → now ≤ time) (p := q) hk ?_ ?_ hpath hfresh
      · obtain ⟨d, hd, rfl⟩ := hinv.2 expires' hlease'
        have := hgood d rfl
        omega
      · intro expires hold
        cases hlease.symm.trans hold
        exact ⟨deadline, hle, rfl⟩
      · -- A renewal at a later time does not pass the validation.
        rintro a lease later ttl before hallowed ⟨d, hd, rfl⟩ hold hvalid'
        obtain ⟨expires, hlease'', hgood'⟩ := validateEntry_eq_ok_iff.mp hvalid'
        obtain ⟨-, rfl⟩ := Prod.mk.inj (Option.some.inj (hold.symm.trans hlease''))
        have := hallowed later rfl
        have := hgood' d rfl
        omega

/-- A slot leased, destroyed and leased again: the first lease fails, the second
one works. -/
theorem lease_safety_threeSlots : ∃ (t : Table 3 ℕ ℕ) (g : Ledger 3 ℕ),
    Relation.ReflTransGen (Entered (threeSlots (some 5))) (initial 3 ℕ ℕ, fun _ => none) (t, g) ∧
      (t.rows 0).lease = some (1, some 7) ∧ g 0 = some (1, 2) ∧
      (∀ reply, ((threeSlots (some 5)).perform t (.markRunning ⟨0, 0⟩ 3)).result ≠ .ok reply) ∧
      ((threeSlots (some 5)).perform t (.markRunning ⟨0, 1⟩ 3)).result = .ok .done := by
  let t1 : Table 3 ℕ ℕ := (threeSlots (some 5)).performAll [.allocate 0] (initial 3 ℕ ℕ)
  have hfirst : Relation.ReflTransGen (Entered (threeSlots (some 5)))
      (initial 3 ℕ ℕ, fun _ => none) (t1, _) := .single ⟨.allocate 0, rfl⟩
  obtain ⟨-, hreleased, -⟩ := lease_safety hfirst
  refine ⟨_, _, .tail (.tail hfirst ⟨.destroy ⟨0, 0⟩ 1, rfl⟩) ⟨.allocate 2, rfl⟩, by decide,
    by decide, fun reply => ?_, by decide⟩
  exact hreleased 0 0 (some 5) (.destroy ⟨0, 0⟩ 1) _ (by decide) (by decide)
    (.single ⟨.allocate 2, rfl⟩) injective_id.injOn (.markRunning ⟨0, 0⟩ 3) 3 reply rfl

end DetHypervisor.SlotManager
