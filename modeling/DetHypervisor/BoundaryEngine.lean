import DetHypervisor.Lib.Fuel

/-!
# The boundary engine

`land_at` stops the vCPU at an exact retired-instruction count and `inject_at_boundary` defers
an interrupt from boundary to boundary (`boundary.rs`, `inject.rs`). KVM, the counter and the
exit handler are parameters that may fail; what the vCPU was last told is kept next to their
state.
-/

namespace DetHypervisor.Engine

/-- The margins of the machine's configuration, a pair of `u32`s. -/
structure Margins where
  skidMargin : ℕ
  resyncSlack : ℕ
  skid_lt : skidMargin < 2 ^ 32
  slack_lt : resyncSlack < 2 ^ 32

structure Boundary where
  icount : ℕ
  rip : ℕ
  rcx : ℕ
  deriving DecidableEq

inductive Error (ε : Type) where
  | overshoot (target counted : ℕ)
  | counter (e : String)
  | kvm (e : String)
  | exit (e : ε)
  deriving DecidableEq

inductive Exit (X : Type) where
  | debug
  | irqWindowOpen
  | other (x : X)
  deriving DecidableEq

inductive KvmRun (X : Type) where
  | exit (x : Exit X)
  | interrupted
  | failed (e : String)
  deriving DecidableEq

/-- The calls the engine makes. An entry is told whether single-step is on and
which period the counter was armed with. -/
structure Host (ω X : Type) where
  read : ω → Except String ℕ × ω
  armPeriod : ℕ → ω → Except String Unit × ω
  run : Bool → ℕ → ω → KvmRun X × ω
  setGuestDebug : Bool → ω → Except String Unit × ω
  getRegs : ω → Except String (ℕ × ℕ) × ω
  clearImmediateExit : ω → ω
  injectable : ω → Except String Bool × ω
  queueInterrupt : ℕ → ω → Except String Unit × ω

/-- The vCPU: the state of the host, whether guest debugging is on, and the armed
period. -/
structure Vcpu (ω : Type) where
  env : ω
  debug : Bool
  period : ℕ

def neverFiresPeriod : ℕ := 2 ^ 62

section Calls

variable {ω X ε : Type}

abbrev Handler (ω X ε : Type) := Exit X → ω → Except (Error ε) Unit × ω

variable (E : Host ω X) (onExit : Handler ω X ε) (m : Margins) (target : ℕ) (fuel : ℕ)

/-- `set_singlestep`: a call that fails leaves guest debugging as it was. -/
def setSinglestep (on : Bool) (v : Vcpu ω) : Except (Error ε) Unit × Vcpu ω :=
  match E.setGuestDebug on v.env with
  | (.ok (), w) => (.ok (), { v with env := w, debug := on })
  | (.error e, w) => (.error (.kvm ("KVM_SET_GUEST_DEBUG: " ++ e)), { v with env := w })

def arm (period : ℕ) (v : Vcpu ω) : Except (Error ε) Unit × Vcpu ω :=
  match E.armPeriod period v.env with
  | (.ok (), w) => (.ok (), { v with env := w, period })
  | (.error e, w) => (.error (.counter e), { v with env := w })

/-- How a loop is left: by `?` out of the function, or by `break`. -/
inductive Leave (ε ρ : Type) where
  | early (e : Error ε)
  | broke (r : Except (Error ε) ρ)

def rearm {ρ : Type} (E : Host ω X) (v : Vcpu ω) : Fuel.Step (Vcpu ω) (Leave ε ρ × Vcpu ω) :=
  match setSinglestep E true v with
  | (.ok (), v) => .next v
  | (.error e, v) => .done (.early e, v)

def farEntry (v : Vcpu ω) : Fuel.Step (Vcpu ω) (Leave ε Boundary × Vcpu ω) :=
  match E.run v.debug v.period v.env with
  | (.exit x, w) =>
    match onExit x w with
    | (.ok (), w) => .next { v with env := w }
    | (.error e, w) => .done (.early e, { v with env := w })
  | (.interrupted, w) => .next { v with env := E.clearImmediateExit w }
  | (.failed e, w) => .done (.broke (.error (.kvm ("KVM_RUN: " ++ e))), { v with env := w })

def nearEntry (v : Vcpu ω) : Fuel.Step (Vcpu ω) (Leave ε Boundary × Vcpu ω) :=
  match E.run v.debug v.period v.env with
  | (.exit .debug, w) => rearm E { v with env := w }
  | (.exit x, w) =>
    match onExit x w with
    | (.ok (), w) => rearm E { v with env := w }
    | (.error e, w) => .done (.early e, { v with env := w })
  | (.interrupted, w) => .next { v with env := E.clearImmediateExit w }
  | (.failed e, w) => .done (.broke (.error (.kvm ("KVM_RUN: " ++ e))), { v with env := w })

def flagged (stepping : Bool) : Fuel.Step (Vcpu ω) (Leave ε Boundary × Vcpu ω) →
      Fuel.Step (Bool × Vcpu ω) (Leave ε Boundary × Bool × Vcpu ω)
  | .next v => .next (stepping, v)
  | .done (r, v) => .done (r, stepping, v)

def approach (d : ℕ) : Bool × Vcpu ω → Fuel.Step (Bool × Vcpu ω) (Leave ε Boundary × Bool × Vcpu ω)
  | (true, v) => flagged true (nearEntry E onExit v)
  | (false, v) =>
    if m.skidMargin + m.resyncSlack < d then
      match arm E (d - m.skidMargin) v with
      | (.error e, v) => .done (.early e, false, v)
      | (.ok (), v) => flagged false (farEntry E onExit v)
    else
      -- park the period, then turn single-step on
      match arm E neverFiresPeriod v with
      | (.error e, v) => .done (.early e, false, v)
      | (.ok (), v) =>
        match setSinglestep E true v with
        | (.error e, v) => .done (.early e, false, v)
        | (.ok (), v) => flagged true (nearEntry E onExit v)

def landTurn (s : Bool × Vcpu ω) : Fuel.Step (Bool × Vcpu ω) (Leave ε Boundary × Bool × Vcpu ω) :=
  match E.read s.2.env with
  | (.error e, w) => .done (.early (.counter e), s.1, { s.2 with env := w })
  | (.ok c, w) =>
    if target < c then
      .done (.broke (.error (.overshoot target c)), s.1, { s.2 with env := w })
    else if c = target then
      match E.getRegs w with
      | (.error e, w) =>
        .done (.early (.kvm ("KVM_GET_REGS: " ++ e)), s.1, { s.2 with env := w })
      | (.ok (rip, rcx), w) => .done (.broke (.ok ⟨c, rip, rcx⟩), s.1, { s.2 with env := w })
    else approach E onExit m (target - c) (s.1, { s.2 with env := w })

/-- How a function of the engine returned: before its cleanup, after it, or with
the failure of the cleanup. -/
inductive Return (ε : Type) where
  | early (e : Error ε)
  | closed (r : Except (Error ε) Boundary)
  | offFailed (e : Error ε)

def Return.result {ε : Type} : Return ε → Except (Error ε) Boundary
  | .early e => .error e
  | .closed r => r
  | .offFailed e => .error e

/-- The end of `land_at`: single-step is dropped if the loop had turned it on. -/
def landEnd : Leave ε Boundary × Bool × Vcpu ω → Return ε × Vcpu ω
  | (.early e, _, v) => (.early e, v)
  | (.broke r, false, v) => (.closed r, v)
  | (.broke r, true, v) =>
    match setSinglestep E false v with
    | (.ok (), v) => (.closed r, v)
    | (.error e, v) => (.offFailed e, v)

/-- `land_at`; `none` when the loop takes more than `fuel` turns. -/
def landAt (v : Vcpu ω) : Option (Return ε × Vcpu ω) :=
  (Fuel.run (landTurn E onExit m target) fuel (false, v)).map (landEnd E)

def entryTurn (v : Vcpu ω) : Fuel.Step (Vcpu ω) (Leave ε Unit × Vcpu ω) :=
  match E.run v.debug v.period v.env with
  | (.exit .debug, w) => .done (.broke (.ok ()), { v with env := w })
  | (.exit x, w) =>
    match onExit x w with
    | (.ok (), w) => rearm E { v with env := w }
    | (.error e, w) => .done (.broke (.error e), { v with env := w })
  | (.interrupted, w) => .next { v with env := E.clearImmediateExit w }
  | (.failed e, w) => .done (.broke (.error (.kvm ("KVM_RUN: " ++ e))), { v with env := w })

def readBoundary (v : Vcpu ω) : Return ε × Vcpu ω :=
  match E.read v.env with
  | (.error e, w) => (.closed (.error (.counter e)), { v with env := w })
  | (.ok icount, w) =>
    match E.getRegs w with
    | (.error e, w) => (.closed (.error (.kvm ("KVM_GET_REGS: " ++ e))), { v with env := w })
    | (.ok (rip, rcx), w) => (.closed (.ok ⟨icount, rip, rcx⟩), { v with env := w })

def entryEnd : Leave ε Unit × Vcpu ω → Return ε × Vcpu ω
  | (.early e, v) => (.early e, v)
  | (.broke r, v) =>
    match setSinglestep E false v with
    | (.error e, v) => (.offFailed e, v)
    | (.ok (), v) =>
      match r with
      | .error e => (.closed (.error e), v)
      | .ok () => readBoundary E v

def stepOneEntry (v : Vcpu ω) : Option (Return ε × Vcpu ω) :=
  match setSinglestep E true v with
  | (.error e, v) => some (.early e, v)
  | (.ok (), v) => (Fuel.run (entryTurn E onExit) fuel v).map (entryEnd E)

/-- The handler of a deferral step: the window it polls for is its own exit. -/
def deferring : Handler ω X ε
  | .irqWindowOpen, w => (.ok (), w)
  | x, w => onExit x w

structure Injection where
  vector : ℕ
  requestedIcount : ℕ
  deliveredIcount : ℕ
  deliveredRip : ℕ
  deriving DecidableEq

/-- What `inject_at_boundary` returns: `InjectError`, with the return of the
landing that failed. -/
inductive InjectReturn (ε : Type) where
  | injected (i : Injection)
  | kvm (e : String)
  | badVector (vector : ℕ)
  | windowNeverOpened (stepped : ℕ)
  | boundary (r : Return ε)

def queueAt (vector requested : ℕ) (current : Boundary) (v : Vcpu ω) : InjectReturn ε × Vcpu ω :=
  if vector < 32 then (.badVector vector, v)
  else
    match E.queueInterrupt vector v.env with
    | (.error e, w) =>
      (.kvm ("KVM_INTERRUPT(" ++ toString vector ++ "): " ++ e), { v with env := w })
    | (.ok (), w) =>
      (.injected ⟨vector, requested, current.icount, current.rip⟩, { v with env := w })

/-- The loop of `inject_at_boundary` with `left` deferral steps to go. -/
def deferFrom (E : Host ω X) (onExit : Handler ω X ε) (m : Margins)
    (vector requested maxDeferSteps fuel : ℕ) :
    ℕ → Boundary → Vcpu ω → Option (InjectReturn ε × Vcpu ω)
  | left, current, v =>
    match E.injectable v.env with
    | (.error e, w) => some (.kvm ("KVM_GET_VCPU_EVENTS: " ++ e), { v with env := w })
    | (.ok true, w) => some (queueAt E vector requested current { v with env := w })
    | (.ok false, w) =>
      match left with
      | 0 => some (.windowNeverOpened maxDeferSteps, { v with env := w })
      | left + 1 =>
        match landAt E (deferring onExit) m (current.icount + 1) fuel
          { v with env := w } with
        | none => none
        | some (r, v) =>
          match r.result with
          | .ok current =>
            deferFrom E onExit m vector requested maxDeferSteps fuel left current v
          | .error _ => some (.boundary r, v)

def injectAtBoundary (vector : ℕ) (at_ : Boundary) (maxDeferSteps fuel : ℕ) (v : Vcpu ω) :
    Option (InjectReturn ε × Vcpu ω) :=
  deferFrom E onExit m vector at_.icount maxDeferSteps fuel maxDeferSteps at_ v

end Calls

section SingleStep

variable {ω X ε : Type}

/-- A single-stepped entry from `v` comes back with an error: the handler
declares one, or single-step cannot be armed again. -/
inductive EntryFails (E : Host ω X) (onExit : Handler ω X ε) (v : Vcpu ω) : Prop
  | handler {x : Exit X} {w w' : ω} {e : Error ε} (hx : x ≠ .debug)
      (hrun : E.run v.debug v.period v.env = (.exit x, w)) (h : onExit x w = (.error e, w'))
  | rearmDebug {w w' : ω} {e : String}
      (hrun : E.run v.debug v.period v.env = (.exit .debug, w))
      (h : E.setGuestDebug true w = (.error e, w'))
  | rearmExit {x : Exit X} {w w1 w' : ω} {e : String} (hx : x ≠ .debug)
      (hrun : E.run v.debug v.period v.env = (.exit x, w)) (h : onExit x w = (.ok (), w1))
      (h' : E.setGuestDebug true w1 = (.error e, w'))

/-- The turn of `land_at` from `s` makes a single-stepped entry from `v`. -/
inductive EntersNear (E : Host ω X) (m : Margins) (target : ℕ) : Bool × Vcpu ω → Vcpu ω → Prop
  | stepping {v : Vcpu ω} {c : ℕ} {w : ω} (hread : E.read v.env = (.ok c, w))
      (hc : c < target) : EntersNear E m target (true, v) { v with env := w }
  | fresh {v : Vcpu ω} {c : ℕ} {w w1 w2 : ω} (hread : E.read v.env = (.ok c, w))
      (hc : c < target) (hnear : target - c ≤ m.skidMargin + m.resyncSlack)
      (harm : E.armPeriod neverFiresPeriod w = (.ok (), w1))
      (hon : E.setGuestDebug true w1 = (.ok (), w2)) :
      EntersNear E m target (false, v) ⟨w2, true, neverFiresPeriod⟩

/-- The host or the handler fails in a turn of `land_at` while single-step is
on. -/
inductive Trips (E : Host ω X) (onExit : Handler ω X ε) (m : Margins) (target : ℕ)
    (s : Bool × Vcpu ω) : Prop
  | read {w : ω} {e : String} (hs : s.1 = true) (h : E.read s.2.env = (.error e, w))
  | regs {w w' : ω} {e : String} (hs : s.1 = true) (hread : E.read s.2.env = (.ok target, w))
      (h : E.getRegs w = (.error e, w'))
  | entry {v : Vcpu ω} (hnear : EntersNear E m target s v) (h : EntryFails E onExit v)

def LandingTrips (E : Host ω X) (onExit : Handler ω X ε) (m : Margins) (target : ℕ)
    (v : Vcpu ω) : Prop :=
  ∃ n s, Fuel.Path (landTurn E onExit m target) n (false, v) s ∧ Trips E onExit m target s

/-- An entry of `step_one_entry` from `v` cannot arm single-step again. -/
def StepTrips (E : Host ω X) (onExit : Handler ω X ε) (v : Vcpu ω) : Prop :=
  ∃ v0 n v1 x w w1 w' e, setSinglestep E (ε := ε) true v = (.ok (), v0) ∧
    Fuel.Path (entryTurn E onExit) n v0 v1 ∧ x ≠ .debug ∧
    E.run v1.debug v1.period v1.env = (.exit x, w) ∧ onExit x w = (.ok (), w1) ∧
    E.setGuestDebug true w1 = (.error e, w')

inductive DeferralTrips (E : Host ω X) (onExit : Handler ω X ε) (m : Margins) (fuel : ℕ) :
    ℕ → Boundary → Vcpu ω → Prop
  | here {left : ℕ} {current : Boundary} {v : Vcpu ω} {w : ω}
      (hwindow : E.injectable v.env = (.ok false, w))
      (h : LandingTrips E (deferring onExit) m (current.icount + 1) { v with env := w }) :
      DeferralTrips E onExit m fuel (left + 1) current v
  | later {left : ℕ} {current next : Boundary} {v v' : Vcpu ω} {w : ω} {r : Return ε}
      (hwindow : E.injectable v.env = (.ok false, w))
      (hland : landAt E (deferring onExit) m (current.icount + 1) fuel { v with env := w } =
        some (r, v'))
      (hok : r.result = .ok next) (h : DeferralTrips E onExit m fuel left next v') :
      DeferralTrips E onExit m fuel (left + 1) current v

variable {E : Host ω X} {onExit : Handler ω X ε} {m : Margins} {target : ℕ}
  {current : Boundary} {fuel period requested vector : ℕ} {on : Bool} {r : Return ε}
  {s : Bool × Vcpu ω} {t : String} {v v' : Vcpu ω} {w : ω}

lemma setSinglestep_ok (h : setSinglestep E (ε := ε) on v = (.ok (), v')) :
    E.setGuestDebug on v.env = (.ok (), v'.env) ∧ v'.debug = on ∧ v'.period = v.period := by
  unfold setSinglestep at h
  split at h
  next w hset =>
    cases h
    exact ⟨hset, rfl, rfl⟩
  next => cases (Prod.mk.inj h).1

lemma setSinglestep_error {e : Error ε} (h : setSinglestep E on v = (.error e, v')) :
    (∃ t, E.setGuestDebug on v.env = (.error t, v'.env)) ∧ v'.debug = v.debug := by
  unfold setSinglestep at h
  split at h
  next => cases (Prod.mk.inj h).1
  next t w hset =>
    cases h
    exact ⟨⟨t, hset⟩, rfl⟩

lemma setSinglestep_of_error (h : E.setGuestDebug on v.env = (.error t, w)) :
    setSinglestep E (ε := ε) on v =
      (.error (.kvm ("KVM_SET_GUEST_DEBUG: " ++ t)), { v with env := w }) := by
  unfold setSinglestep
  rw [h]

lemma rearm_spec {ρ : Type} (v : Vcpu ω) :
    (rearm E v : Fuel.Step (Vcpu ω) (Leave ε ρ × Vcpu ω)).Post (fun v' => v'.debug = true)
      fun p => p.2.debug = v.debug ∧ ∃ t w, E.setGuestDebug true v.env = (.error t, w) := by
  unfold rearm
  split
  next hset => exact (setSinglestep_ok hset).2.1
  next e v1 hset =>
    obtain ⟨⟨t, ht⟩, hdebug⟩ := setSinglestep_error hset
    exact ⟨hdebug, t, _, ht⟩

lemma nearEntry_spec (E : Host ω X) (onExit : Handler ω X ε) (hv : v.debug = true) :
    (nearEntry E onExit v).Post (fun v' => v'.debug = true) fun p =>
      p.2.debug = true ∧ ∀ e, p.1 = .early e → EntryFails E onExit v := by
  unfold nearEntry
  split
  next w hrun =>
    refine (rearm_spec _).done_imp ?_
    rintro p ⟨hdebug, t, w', ht⟩
    exact ⟨hdebug.trans hv, fun _ _ => .rearmDebug hrun ht⟩
  next x w hne hrun =>
    have hx : x ≠ .debug := hne
    split
    next w1 hexit =>
      refine (rearm_spec _).done_imp ?_
      rintro p ⟨hdebug, t, w', ht⟩
      exact ⟨hdebug.trans hv, fun _ _ => .rearmExit hx hrun hexit ht⟩
    next e w1 hexit => exact ⟨hv, fun _ _ => .handler hx hrun hexit⟩
  next w hrun => exact hv
  next e w hrun => exact ⟨hv, nofun⟩

lemma EntryFails.nearEntry (h : EntryFails E onExit v) :
    ∃ e v', nearEntry E onExit v = .done (.early e, v') := by
  unfold Engine.nearEntry
  cases h with
  | @handler x w w' e hx hrun h =>
    rw [hrun]
    cases x with
    | debug => exact (hx rfl).elim
    | irqWindowOpen | other => exact ⟨e, _, by simp only [h]; rfl⟩
  | rearmDebug hrun h =>
    rw [hrun]
    simp only [rearm, setSinglestep_of_error (v := { v with env := _ }) h]
    exact ⟨_, _, rfl⟩
  | @rearmExit x w w1 w' e hx hrun h h' =>
    rw [hrun]
    cases x with
    | debug => exact (hx rfl).elim
    | irqWindowOpen | other =>
      simp only [h, rearm, setSinglestep_of_error (v := { v with env := _ }) h']
      exact ⟨_, _, rfl⟩

lemma farEntry_debug (E : Host ω X) (onExit : Handler ω X ε) (v : Vcpu ω) :
    (farEntry E onExit v).Post (fun v' => v'.debug = v.debug) fun p => p.2.debug = v.debug := by
  unfold farEntry
  split
  next => split <;> rfl
  next => rfl
  next => rfl

lemma arm_debug {r : Except (Error ε) Unit} (h : arm E period v = (r, v')) :
    v'.debug = v.debug := by
  unfold arm at h
  split at h <;> obtain ⟨-, rfl⟩ := Prod.mk.inj h <;> rfl

lemma arm_ok (h : arm E (ε := ε) period v = (.ok (), v')) :
    E.armPeriod period v.env = (.ok (), v'.env) ∧ v'.period = period := by
  unfold arm at h
  split at h
  next w harm =>
    cases h
    exact ⟨harm, rfl⟩
  next => cases (Prod.mk.inj h).1

def InStep (s : Bool × Vcpu ω) : Prop := s.2.debug = s.1

lemma flagged_post {N : Vcpu ω → Prop} {D : Leave ε Boundary × Vcpu ω → Prop} (stepping : Bool)
    {st : Fuel.Step (Vcpu ω) (Leave ε Boundary × Vcpu ω)} (h : st.Post N D) :
    (flagged stepping st).Post (fun s => N s.2 ∧ s.1 = stepping) fun p =>
      D (p.1, p.2.2) ∧ p.2.1 = stepping := by
  cases st with
  | next | done => exact ⟨h, rfl⟩

lemma flagged_nearEntry (E : Host ω X) (onExit : Handler ω X ε) (hv : v.debug = true) :
    (flagged true (nearEntry E onExit v)).Post InStep fun p => p.2.2.debug = p.2.1 ∧
      ∀ e, p.1 = .early e → p.2.1 = true → EntryFails E onExit v := by
  refine (flagged_post true (nearEntry_spec E onExit hv)).mono ?_ ?_
  · rintro s ⟨hdebug, hs⟩
    exact hdebug.trans hs.symm
  · rintro p ⟨⟨hdebug, hfails⟩, hp⟩
    exact ⟨hdebug.trans hp.symm, fun e he _ => hfails e he⟩

lemma approach_spec (onExit : Handler ω X ε) (m : Margins) {c : ℕ} (hs : InStep s)
    (hread : E.read s.2.env = (.ok c, w)) (hc : c < target) :
    (approach E onExit m (target - c) (s.1, { s.2 with env := w })).Post InStep fun p =>
      p.2.2.debug = p.2.1 ∧ ∀ e, p.1 = .early e → p.2.1 = true →
        ∃ v, EntersNear E m target s v ∧ EntryFails E onExit v := by
  obtain ⟨stepping, v⟩ := s
  cases stepping with
  | true =>
    refine (flagged_nearEntry E onExit (v := { v with env := w }) hs).done_imp ?_
    rintro p ⟨hdebug, hfails⟩
    exact ⟨hdebug, fun e he hb => ⟨_, .stepping hread hc, hfails e he hb⟩⟩
  | false =>
    have hoff : v.debug = false := hs
    unfold approach
    dsimp only
    split_ifs with hfar
    · split
      next e v1 harm => exact ⟨(arm_debug harm).trans hoff, nofun⟩
      next v1 harm =>
        have hv1 : v1.debug = false := (arm_debug harm).trans hoff
        refine (flagged_post false (farEntry_debug E onExit v1)).mono ?_ ?_
        · rintro s ⟨hdebug, hb⟩
          exact (hdebug.trans hv1).trans hb.symm
        · rintro p ⟨hdebug, hb⟩
          refine ⟨(hdebug.trans hv1).trans hb.symm, fun _ _ hb' => ?_⟩
          cases hb.symm.trans hb'
    · split
      next e v1 harm => exact ⟨(arm_debug harm).trans hoff, nofun⟩
      next v1 harm =>
        have hv1 : v1.debug = false := (arm_debug harm).trans hoff
        split
        next e v2 hset => exact ⟨(setSinglestep_error hset).2.trans hv1, nofun⟩
        next v2 hset =>
          obtain ⟨hon, hdebug, hperiod⟩ := setSinglestep_ok hset
          refine (flagged_nearEntry E onExit hdebug).done_imp ?_
          rintro p ⟨hdebug', hfails⟩
          refine ⟨hdebug', fun e he hb => ⟨v2, ?_, hfails e he hb⟩⟩
          have hv2 : v2 = ⟨v2.env, true, neverFiresPeriod⟩ := by
            rw [← hdebug, ← (arm_ok harm).2, ← hperiod]
          rw [hv2]
          exact .fresh hread hc (Nat.not_lt.mp hfar) (arm_ok harm).1 hon

lemma landTurn_spec (hs : InStep s) :
    (landTurn E onExit m target s).Post InStep fun p => p.2.2.debug = p.2.1 ∧
      ∀ e, p.1 = .early e → p.2.1 = true → Trips E onExit m target s := by
  unfold landTurn
  split
  next e w hread => exact ⟨hs, fun _ _ hb => .read hb hread⟩
  next c w hread =>
    split_ifs with hover hat
    · exact ⟨hs, nofun⟩
    · subst hat
      split
      next e w' hregs => exact ⟨hs, fun _ _ hb => .regs hb hread hregs⟩
      next rip rcx w' hregs => exact ⟨hs, nofun⟩
    · refine (approach_spec onExit m hs hread (show c < target by omega)).done_imp ?_
      rintro p ⟨hdebug, hfails⟩
      refine ⟨hdebug, fun e he hb => ?_⟩
      obtain ⟨v, hnear, hentry⟩ := hfails e he hb
      exact .entry hnear hentry

lemma Trips.landTurn (h : Trips E onExit m target s) :
    ∃ e v', landTurn E onExit m target s = .done (.early e, true, v') := by
  obtain ⟨stepping, v⟩ := s
  unfold Engine.landTurn
  cases h with
  | read hs h =>
    obtain rfl : stepping = true := hs
    rw [h]
    exact ⟨_, _, rfl⟩
  | regs hs hread h =>
    obtain rfl : stepping = true := hs
    rw [hread]
    dsimp only
    rw [if_neg (lt_irrefl target), if_pos rfl, h]
    exact ⟨_, _, rfl⟩
  | entry hnear h =>
    obtain ⟨e, v', hentry⟩ := h.nearEntry
    cases hnear with
    | stepping hread hc =>
      rw [hread]
      dsimp only
      rw [if_neg (by omega), if_neg (by omega)]
      exact ⟨e, v', by rw [approach, hentry]; rfl⟩
    | fresh hread hc hfar harm hon =>
      rw [hread]
      dsimp only
      rw [if_neg (by omega), if_neg (by omega)]
      refine ⟨e, v', ?_⟩
      unfold approach
      dsimp only
      rw [if_neg (Nat.not_lt.mpr hfar)]
      simp only [arm, harm, setSinglestep, hon, hentry, flagged]

def Off (r : Return ε) (v : Vcpu ω) : Prop := v.debug = false ∨ ∃ e, r = .offFailed e

lemma off_landEnd {b : Bool} {r : Except (Error ε) Boundary} (hv : v.debug = b) :
    Off (landEnd E (.broke r, b, v)).1 (landEnd E (.broke r, b, v)).2 := by
  cases b with
  | false => exact .inl hv
  | true =>
    unfold landEnd
    dsimp only
    split
    next v1 hset => exact .inl (setSinglestep_ok hset).2.1
    next e v1 hset => exact .inr ⟨e, rfl⟩

lemma entryTurn_spec (hv : v.debug = true) :
    (entryTurn E onExit v).Post (fun v' => v'.debug = true) fun p => p.2.debug = true ∧
      ∀ e, p.1 = .early e → ∃ x w w1 w' t, x ≠ .debug ∧
        E.run v.debug v.period v.env = (.exit x, w) ∧ onExit x w = (.ok (), w1) ∧
        E.setGuestDebug true w1 = (.error t, w') := by
  unfold entryTurn
  split
  next w hrun => exact ⟨hv, nofun⟩
  next x w hx hrun =>
    split
    next w1 hexit =>
      refine (rearm_spec _).done_imp ?_
      rintro p ⟨hdebug, t, w', ht⟩
      exact ⟨hdebug.trans hv, fun _ _ => ⟨x, w, w1, w', t, hx, hrun, hexit, ht⟩⟩
    next e w1 hexit => exact ⟨hv, nofun⟩
  next w hrun => exact hv
  next e w hrun => exact ⟨hv, nofun⟩

lemma entryTurn_of_rearm {x : Exit X} {w1 w' : ω} (hx : x ≠ .debug)
    (hrun : E.run v.debug v.period v.env = (.exit x, w)) (hexit : onExit x w = (.ok (), w1))
    (hset : E.setGuestDebug true w1 = (.error t, w')) :
    ∃ e, entryTurn E onExit v = .done (.early e, { v with env := w' }) := by
  unfold entryTurn
  rw [hrun]
  cases x with
  | debug => exact (hx rfl).elim
  | irqWindowOpen | other =>
    simp only [hexit, rearm, setSinglestep_of_error (v := { v with env := w1 }) hset]
    exact ⟨_, rfl⟩

lemma off_entryEnd (r : Except (Error ε) Unit) :
    Off (entryEnd E (.broke r, v)).1 (entryEnd E (.broke r, v)).2 := by
  unfold entryEnd
  dsimp only
  split
  next e v1 hset => exact .inr ⟨e, rfl⟩
  next v1 hset =>
    have hv1 := (setSinglestep_ok hset).2.1
    cases r with
    | error e => exact .inl hv1
    | ok =>
      refine .inl ?_
      unfold readBoundary
      dsimp only
      split
      · exact hv1
      · split <;> exact hv1

section

variable (hv : v.debug = false)
include hv

section

variable (h : landAt E onExit m target fuel v = some (r, v'))
include h

lemma landAt_last :
    ∃ leave b v1, Fuel.run (landTurn E onExit m target) fuel (false, v) = some (leave, b, v1) ∧
      landEnd E (leave, b, v1) = (r, v') ∧ v1.debug = b ∧
      ∀ e, leave = .early e → b = true → LandingTrips E onExit m target v := by
  obtain ⟨⟨leave, b, v1⟩, hrun, hend⟩ := Option.map_eq_some_iff.mp h
  obtain ⟨k, s, -, hpath, hdone⟩ := Fuel.exists_path_of_run hrun
  have hs : InStep s := hpath.preserves (I := InStep)
    (fun _ _ ha hnext => (landTurn_spec ha).of_next hnext) hv
  obtain ⟨hdebug, htrips⟩ := (landTurn_spec hs).of_done hdone
  exact ⟨leave, b, v1, hrun, hend, hdebug, fun e he hb => ⟨k, s, hpath, htrips e he hb⟩⟩

lemma landAt_off_iff :
    Off r v' ↔ ¬LandingTrips E onExit m target v := by
  obtain ⟨leave, b, v1, hrun, hend, hdebug, htrips⟩ := landAt_last hv h
  constructor
  · rintro hoff ⟨n, s', hpath', htrip⟩
    obtain ⟨e, v2, hleft⟩ := htrip.landTurn
    obtain ⟨rfl, rfl, rfl⟩ : leave = .early e ∧ b = true ∧ v1 = v2 := by
      simpa using hpath'.answer_eq hleft hrun
    cases hend
    rcases hoff with hoff | ⟨e', he'⟩
    · rw [hdebug] at hoff
      cases hoff
    · cases he'
  · intro hnot
    cases leave with
    | early e =>
      cases hend
      cases b with
      | false => exact .inl hdebug
      | true => exact (hnot (htrips e rfl rfl)).elim
    | broke r' =>
      have hoff := off_landEnd (E := E) (r := r') hdebug
      rwa [hend] at hoff

lemma landAt_ok_debug {b : Boundary} (hok : r.result = .ok b) :
    v'.debug = false ∧ ¬LandingTrips E onExit m target v := by
  obtain ⟨leave, b', v1, -, hend, hdebug, -⟩ := landAt_last hv h
  have hoff : Off r v' := by
    cases leave with
    | early e =>
      cases hend
      cases hok
    | broke r' =>
      have hclosed := off_landEnd (E := E) (r := r') hdebug
      rwa [hend] at hclosed
  refine ⟨?_, (landAt_off_iff hv h).mp hoff⟩
  rcases hoff with hoff | ⟨e, rfl⟩
  · exact hoff
  · cases hok

end

lemma stepOneEntry_off_iff
    (h : stepOneEntry E onExit fuel v = some (r, v')) : Off r v' ↔ ¬StepTrips E onExit v := by
  unfold stepOneEntry at h
  split at h
  next e v0 hset =>
    -- single-step was never switched on
    cases h
    refine iff_of_true (.inl ((setSinglestep_error hset).2.trans hv)) ?_
    rintro ⟨v0', n, v1, x, w, w1, w', t, hok, -⟩
    cases hset.symm.trans hok
  next v0 hset =>
    obtain ⟨p, hrun, hend⟩ := Option.map_eq_some_iff.mp h
    obtain ⟨k, v1, -, hpath, hdone⟩ := Fuel.exists_path_of_run hrun
    have hon : ∀ {n v2}, Fuel.Path (entryTurn E onExit) n v0 v2 → v2.debug = true := by
      intro n v2 hpath2
      exact hpath2.preserves (I := fun v => v.debug = true)
        (fun _ _ ha hnext => (entryTurn_spec ha).of_next hnext) (setSinglestep_ok hset).2.1
    obtain ⟨leave, v2⟩ := p
    obtain ⟨hdebug, hfails⟩ := (entryTurn_spec (hon hpath)).of_done hdone
    constructor
    · rintro hoff ⟨v0', n, u, x, w, w1, w', t, hok, hpath', hx, hrunx, hexit, ht⟩
      obtain rfl : v0 = v0' := (Prod.mk.inj (hset.symm.trans hok)).2
      obtain ⟨e, hleft⟩ := entryTurn_of_rearm hx hrunx hexit ht
      obtain ⟨rfl, rfl⟩ := Prod.mk.inj (hpath'.answer_eq hleft hrun)
      cases hend
      rcases hoff with hoff | ⟨e', he'⟩
      · cases (hon hpath').symm.trans hoff
      · cases he'
    · intro hnot
      cases leave with
      | early e =>
        obtain ⟨x, w, w1, w', t, hx, hrunx, hexit, ht⟩ := hfails e rfl
        exact (hnot ⟨v0, k, v1, x, w, w1, w', t, hset, hpath, hx, hrunx, hexit, ht⟩).elim
      | broke r' =>
        have hoff := off_entryEnd (E := E) (v := v2) r'
        rwa [hend] at hoff

end

lemma queueAt_debug : (queueAt (ε := ε) E vector requested current v).2.debug = v.debug ∧
      ∀ r, (queueAt (ε := ε) E vector requested current v).1 ≠ .boundary r := by
  unfold queueAt
  split_ifs
  · exact ⟨rfl, nofun⟩
  · split <;> exact ⟨rfl, nofun⟩

/-- Guest debugging is off, or the call that switches it off failed in the landing
that `inject_at_boundary` reports. -/
def InjectOff (r : InjectReturn ε) (v : Vcpu ω) : Prop :=
  v.debug = false ∨ ∃ e, r = .boundary (.offFailed e)

lemma deferFrom_off_iff {maxDeferSteps left : ℕ} {r : InjectReturn ε} (hv : v.debug = false)
    (h : deferFrom E onExit m vector requested maxDeferSteps fuel left current v =
      some (r, v')) : InjectOff r v' ↔ ¬DeferralTrips E onExit m fuel left current v := by
  induction left generalizing current v with
  | zero =>
    have hnot : ¬DeferralTrips E onExit m fuel 0 current v := by
      intro htrips
      cases htrips
    refine iff_of_true (.inl ?_) hnot
    unfold deferFrom at h
    split at h
    · cases h
      exact hv
    · obtain ⟨rfl, rfl⟩ := Prod.mk.inj (Option.some.inj h)
      exact queueAt_debug.1.trans hv
    · cases h
      exact hv
  | succ left ih =>
    -- without a closed window there is no landing to fail
    have hopen : ∀ {a : Except String Bool} {w : ω}, E.injectable v.env = (a, w) →
        a ≠ .ok false → ¬DeferralTrips E onExit m fuel (left + 1) current v := by
      intro a w hwindow hne htrips
      cases htrips with
      | here hwindow' _ | later hwindow' => exact hne (Prod.mk.inj (hwindow.symm.trans hwindow')).1
    unfold deferFrom at h
    split at h
    next e w hwindow =>
      cases h
      exact iff_of_true (.inl hv) (hopen hwindow nofun)
    next w hwindow =>
      obtain ⟨rfl, rfl⟩ := Prod.mk.inj (Option.some.inj h)
      exact iff_of_true (.inl (queueAt_debug.1.trans hv)) (hopen hwindow nofun)
    next w hwindow =>
      dsimp only at h
      split at h
      next => cases h
      next r1 v1 hland =>
        split at h
        next b hok =>
          obtain ⟨hv1, hclear⟩ := landAt_ok_debug (v := { v with env := w }) hv hland hok
          rw [ih hv1 h, not_iff_not]
          constructor
          · exact fun htrips => .later hwindow hland hok htrips
          · intro htrips
            cases htrips with
            | here hwindow' htrip =>
              obtain rfl := (Prod.mk.inj (hwindow.symm.trans hwindow')).2
              exact (hclear htrip).elim
            | later hwindow' hland' hok' htrip =>
              obtain rfl := (Prod.mk.inj (hwindow.symm.trans hwindow')).2
              obtain ⟨rfl, rfl⟩ :=
                Prod.mk.inj (Option.some.inj (hland.symm.trans hland'))
              cases hok.symm.trans hok'
              exact htrip
        next e herr =>
          obtain ⟨rfl, rfl⟩ := Prod.mk.inj (Option.some.inj h)
          have hiff := landAt_off_iff (v := { v with env := w }) hv hland
          have hcases : InjectOff (.boundary r1) v1 ↔ Off r1 v1 := by
            simp [InjectOff, Off]
          rw [hcases, hiff, not_iff_not]
          constructor
          · exact fun htrip => .here hwindow htrip
          · intro htrips
            cases htrips with
            | here hwindow' htrip =>
              obtain rfl := (Prod.mk.inj (hwindow.symm.trans hwindow')).2
              exact htrip
            | later hwindow' hland' hok' htrip =>
              obtain rfl := (Prod.mk.inj (hwindow.symm.trans hwindow')).2
              obtain ⟨rfl, rfl⟩ :=
                Prod.mk.inj (Option.some.inj (hland.symm.trans hland'))
              cases herr.symm.trans hok'

/-- Guest debugging is off when a function of the engine returns, or the call that switches it
off failed, exactly when nothing fails while it is on. -/
theorem singlestep_dropped_iff (E : Host ω X) (onExit : Handler ω X ε) (m : Margins)
    (fuel : ℕ) {v : Vcpu ω} (hv : v.debug = false) :
    (∀ target r v', landAt E onExit m target fuel v = some (r, v') →
      (Off r v' ↔ ¬LandingTrips E onExit m target v)) ∧
    (∀ r v', stepOneEntry E onExit fuel v = some (r, v') → (Off r v' ↔ ¬StepTrips E onExit v)) ∧
    ∀ vector at_ maxDeferSteps r v',
      injectAtBoundary E onExit m vector at_ maxDeferSteps fuel v = some (r, v') →
      (InjectOff r v' ↔ ¬DeferralTrips E onExit m fuel maxDeferSteps at_ v) := by
  refine ⟨?_, ?_, ?_⟩
  · intro target r v' h
    exact landAt_off_iff hv h
  · intro r v' h
    exact stepOneEntry_off_iff hv h
  · intro vector at_ maxDeferSteps r v' h
    exact deferFrom_off_iff hv h

end SingleStep

def defaultMargins : Margins := ⟨8192, 1024, by norm_num, by norm_num⟩

/-- A host whose state is the retired-instruction count; an entry comes back with
`exit`, after one instruction if it is a debug trap. -/
def countingHost (exit : Exit Unit) : Host ℕ Unit where
  read n := (.ok n, n)
  armPeriod _ n := (.ok (), n)
  run _ _ n := (.exit exit, if exit = .debug then n + 1 else n)
  setGuestDebug _ n := (.ok (), n)
  getRegs n := (.ok (n, 0), n)
  clearImmediateExit n := n
  injectable n := (.ok true, n)
  queueInterrupt _ n := (.ok (), n)

/-- A handler that unwinds on the exit, as run control does on `HLT`. -/
def unwinding : Handler ℕ Unit String := fun _ n => (.error (.exit "HLT during a landing"), n)

theorem singlestep_dropped_counting :
    ∃ r v', landAt (countingHost .debug) unwinding defaultMargins 2 3 ⟨0, false, 0⟩ =
        some (r, v') ∧ Off r v' ∧
      ¬LandingTrips (countingHost .debug) unwinding defaultMargins 2 ⟨0, false, 0⟩ := by
  have hland : ∃ r v', landAt (countingHost .debug) unwinding defaultMargins 2 3
      ⟨0, false, 0⟩ = some (r, v') ∧ v'.debug = false := ⟨_, _, rfl, rfl⟩
  obtain ⟨r, v', hland, hoff⟩ := hland
  exact ⟨r, v', hland, .inl hoff,
    ((singlestep_dropped_iff _ _ _ 3 rfl).1 2 r v' hland).mp (.inl hoff)⟩

/-- A guest that halts while a landing single-steps it is left in single-step. -/
theorem halt_leaves_singlestep :
    ∃ v', landAt (countingHost (.other ())) unwinding defaultMargins 2 3 ⟨0, false, 0⟩ =
        some (.early (.exit "HLT during a landing"), v') ∧ v'.debug = true ∧
      ¬Off (.early (.exit "HLT during a landing") : Return String) v' := by
  refine ⟨_, rfl, rfl, ?_⟩
  rintro (hoff | ⟨e, he⟩)
  · cases hoff
  · cases he

end DetHypervisor.Engine
