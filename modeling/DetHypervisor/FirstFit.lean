import DetHypervisor.BoundaryEngine

/-!
# First-fit injection

`inject_at_boundary` polls the interrupt window at one boundary after the other
and queues its vector at the first one that is injectable.
-/

namespace DetHypervisor.Engine

variable {ω X ε : Type} {E : Host ω X} {onExit : Handler ω X ε} {m : Margins} {fuel d k : ℕ}

/-- The boundaries that a guest comes to, one retirement after the other: the vCPU there, and
what a poll of the window says and leaves behind. -/
structure Boundaries (E : Host ω X) (onExit : Handler ω X ε) (m : Margins) (fuel d : ℕ) where
  boundary : ℕ → Boundary
  vcpu : ℕ → Vcpu ω
  isOpen : ℕ → Bool
  polled : ℕ → ω
  poll : ∀ k ≤ d, E.injectable (vcpu k).env = (.ok (isOpen k), polled k)
  lands : ∀ k < d, isOpen k = false →
    landAt E (deferring onExit) m ((boundary k).icount + 1) fuel { vcpu k with env := polled k } =
        some (.closed (.ok (boundary (k + 1))), vcpu (k + 1)) ∧
      (boundary (k + 1)).icount = (boundary k).icount + 1

def Host.queuing (E : Host ω X) (q : ℕ → ω → Except String Unit × ω) : Host ω X :=
  { E with queueInterrupt := q }

lemma landAt_queuing (q : ℕ → ω → Except String Unit × ω) (target : ℕ) (v : Vcpu ω) :
    landAt (E.queuing q) onExit m target fuel v = landAt E onExit m target fuel v := rfl

namespace Boundaries

variable (g : Boundaries E onExit m fuel d) (q : ℕ → ω → Except String Unit × ω)

def after (k : ℕ) : Vcpu ω := { g.vcpu k with env := g.polled k }

lemma icount_eq (hk : k ≤ d) (hshut : ∀ j < k, g.isOpen j = false) :
    (g.boundary k).icount = (g.boundary 0).icount + k := by
  induction k with
  | zero => rfl
  | succ k ih =>
    rw [(g.lands k hk (hshut k k.lt_succ_self)).2, ih (Nat.le_of_lt hk) fun j hj =>
      hshut j (Nat.lt_succ_of_lt hj)]
    rfl

lemma inject_eq (vector : ℕ) (hk : k ≤ d) (hshut : ∀ j < k, g.isOpen j = false) :
    injectAtBoundary (E.queuing q) onExit m vector (g.boundary 0) d fuel (g.vcpu 0) =
      deferFrom (E.queuing q) onExit m vector (g.boundary 0).icount d fuel (d - k) (g.boundary k)
        (g.vcpu k) := by
  induction k with
  | zero => rfl
  | succ k ih =>
    have hclosed := hshut k k.lt_succ_self
    have hpoll : (E.queuing q).injectable (g.vcpu k).env = (.ok false, g.polled k) :=
      hclosed ▸ g.poll k (Nat.le_of_lt hk)
    rw [ih (Nat.le_of_lt hk) fun j hj => hshut j (Nat.lt_succ_of_lt hj),
      show d - k = d - (k + 1) + 1 by omega]
    conv_lhs => unfold deferFrom
    simp only [hpoll, landAt_queuing, (g.lands k hk hclosed).1, Return.result]

lemma inject_of_open (vector : ℕ) (hk : k ≤ d) (hshut : ∀ j < k, g.isOpen j = false)
    (hopen : g.isOpen k = true) :
    injectAtBoundary (E.queuing q) onExit m vector (g.boundary 0) d fuel (g.vcpu 0) =
      some (queueAt (E.queuing q) vector (g.boundary 0).icount (g.boundary k) (g.after k)) := by
  have hpoll : (E.queuing q).injectable (g.vcpu k).env = (.ok true, g.polled k) :=
    hopen ▸ g.poll k hk
  rw [g.inject_eq q vector hk hshut]
  unfold deferFrom
  simp only [hpoll]
  rfl

lemma inject_of_shut (vector : ℕ) (hshut : ∀ j ≤ d, g.isOpen j = false) :
    injectAtBoundary (E.queuing q) onExit m vector (g.boundary 0) d fuel (g.vcpu 0) =
      some (.windowNeverOpened d, g.after d) := by
  have hpoll : (E.queuing q).injectable (g.vcpu d).env = (.ok false, g.polled d) :=
    hshut d le_rfl ▸ g.poll d le_rfl
  rw [g.inject_eq q vector le_rfl fun j hj => hshut j hj.le, Nat.sub_self]
  unfold deferFrom
  simp only [hpoll]
  rfl

end Boundaries

/-- An injection with the budget `d`. Every call of `KVM_INTERRUPT` is a call of `q`: the vector
is queued at the first injectable boundary, once; nothing if there is none or if it is no
vector. -/
theorem inject_first_fit (g : Boundaries E onExit m fuel d) (vector : ℕ) :
    let run q := injectAtBoundary (E.queuing q) onExit m vector (g.boundary 0) d fuel (g.vcpu 0)
    (32 ≤ vector → ∀ k ≤ d, g.isOpen k = true → (∀ j < k, g.isOpen j = false) → ∀ q,
      run q = some (match q vector (g.polled k) with
        | (.error e, w) => (.kvm ("KVM_INTERRUPT(" ++ toString vector ++ "): " ++ e),
            { g.vcpu k with env := w })
        | (.ok (), w) => (.injected ⟨vector, (g.boundary 0).icount, (g.boundary 0).icount + k,
            (g.boundary k).rip⟩, { g.vcpu k with env := w }))) ∧
      ((∀ k ≤ d, g.isOpen k = false) → ∀ q, run q = some (.windowNeverOpened d, g.after d)) ∧
      (vector < 32 → ∃ r v, (r = .badVector vector ∨ r = .windowNeverOpened d) ∧
        ∀ q, run q = some (r, v)) := by
  refine ⟨fun hvector k hk hopen hshut q => ?_, fun hshut q => g.inject_of_shut q vector hshut,
    fun hvector => ?_⟩
  · dsimp only
    rw [g.inject_of_open q vector hk hshut hopen, queueAt, if_neg (Nat.not_lt.mpr hvector),
      g.icount_eq hk hshut]
    rfl
  · by_cases hshut : ∀ k ≤ d, g.isOpen k = false
    · exact ⟨_, _, .inr rfl, fun q => g.inject_of_shut q vector hshut⟩
    · have hex : ∃ k, k ≤ d ∧ g.isOpen k ≠ false := by simpa using hshut
      have hfirst : ∀ j < Nat.find hex, g.isOpen j = false := by
        intro j hj
        by_contra hne
        exact Nat.find_min hex hj ⟨hj.le.trans (Nat.find_spec hex).1, hne⟩
      refine ⟨_, g.after (Nat.find hex), .inl rfl, fun q => ?_⟩
      dsimp only
      rw [g.inject_of_open q vector (Nat.find_spec hex).1 hfirst
        (Bool.ne_false_iff.mp (Nat.find_spec hex).2), queueAt, if_pos hvector]

def shutBelowTwo : Host ℕ Unit :=
  { countingHost .debug with injectable := fun n => (.ok (decide (2 ≤ n)), n) }

lemma landAt_shutBelowTwo (hk : k < 3) :
    landAt shutBelowTwo (deferring unwinding) defaultMargins (k + 1) 2
        ⟨k, false, neverFiresPeriod⟩ =
      some (.closed (.ok ⟨k + 1, k + 1, 0⟩), ⟨k + 1, false, neverFiresPeriod⟩) := by
  interval_cases k <;> rfl

def countedBoundaries : Boundaries shutBelowTwo unwinding defaultMargins 2 3 where
  boundary k := ⟨k, k, 0⟩
  vcpu k := ⟨k, false, neverFiresPeriod⟩
  isOpen k := decide (2 ≤ k)
  polled k := k
  poll _ _ := rfl
  lands _ hk _ := ⟨landAt_shutBelowTwo hk, rfl⟩

theorem inject_first_fit_at_two :
    ∃ v, injectAtBoundary shutBelowTwo unwinding defaultMargins 33 ⟨0, 0, 0⟩ 3 2
        ⟨0, false, neverFiresPeriod⟩ = some (.injected ⟨33, 0, 2, 2⟩, v) := by
  refine ⟨_, (inject_first_fit countedBoundaries 33).1 (by decide) 2 (by decide) rfl ?_
    shutBelowTwo.queueInterrupt⟩
  intro j hj
  exact decide_eq_false (Nat.not_le.mpr hj)

end DetHypervisor.Engine
