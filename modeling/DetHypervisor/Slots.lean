import Mathlib.Data.List.FinRange
import DetHypervisor.Lib.Outcome
import DetHypervisor.Lib.Rows

/-!
# The slot table

`SlotManager` of the worker: the table, the state machine of a slot, lease tokens and the
accounting of copy-on-write children. Every operation is a function of the table and of the
caller's time.
-/

namespace DetHypervisor

open List

/-! ## The state machine of a slot -/

inductive SlotState where
  | empty
  | running
  | paused
  | frozen
  | faulted
  deriving DecidableEq

inductive SlotStateError where
  | invalidTransition (source target : SlotState)
  | frozenWriteDenied (api : String)
  | emptyWriteDenied (api : String)
  | faultedWriteDenied (api : String)
  deriving DecidableEq

namespace SlotState

/-- The transition relation. Self-transitions are errors, and a faulted slot
can only be destroyed. -/
def canTransition : SlotState → SlotState → Bool
  | .empty, .paused => true
  | .paused, .running => true
  | .running, .paused => true
  | .paused, .frozen => true
  | .frozen, .paused => true
  | .paused, .empty => true
  | .frozen, .empty => true
  | .running, .faulted => true
  | .paused, .faulted => true
  | .faulted, .empty => true
  | _, _ => false

def transition (source target : SlotState) : Except SlotStateError SlotState :=
  if source.canTransition target then .ok target else .error (.invalidTransition source target)

def ensureWritePath (api : String) : SlotState → Except SlotStateError Unit
  | .paused => .ok ()
  | .running => .ok ()
  | .frozen => .error (.frozenWriteDenied api)
  | .empty => .error (.emptyWriteDenied api)
  | .faulted => .error (.faultedWriteDenied api)

lemma transition_eq_ok_iff {source target state : SlotState} :
    source.transition target = .ok state ↔ source.canTransition target = true ∧ state = target := by
  unfold transition
  split_ifs with h
  · simp [h, eq_comm]
  · simp [h]

end SlotState

structure Lease (T : Type) where
  slotId : ℕ
  token : T
  deriving DecidableEq

structure LeasePolicy where
  ttlMs : Option ℕ := none
  deriving DecidableEq

structure SlotInfo (H : Type) where
  slotId : ℕ
  state : SlotState
  icount : ℕ
  baseSnapshotId : Option H
  liveChildren : ℕ
  deriving DecidableEq

inductive SlotError where
  | noSuchSlot (slotId : ℕ)
  | state (e : SlotStateError)
  | staleLease (slotId : ℕ)
  | leaseExpired (slotId : ℕ)
  | liveChildren (slotId children : ℕ)
  | cowChildCannotFork (slotId : ℕ)
  | zeroChildFork (slotId : ℕ)
  | noFreeSlot
  | notEnoughCores (slots cores : ℕ)
  | duplicateCore (core : UInt32)
  deriving DecidableEq

structure SlotEntry (T H : Type) where
  state : SlotState
  lease : Option (T × Option ℕ)
  liveChildren : ℕ
  parent : Option ℕ
  ramIsCow : Bool
  icount : ℕ
  baseSnapshotId : Option H
  deriving DecidableEq

namespace SlotEntry

variable {T H : Type}

def empty : SlotEntry T H := ⟨.empty, none, 0, none, false, 0, none⟩

def infoOf (entry : SlotEntry T H) (slotId : ℕ) : SlotInfo H :=
  ⟨slotId, entry.state, entry.icount, entry.baseSnapshotId, entry.liveChildren⟩

def expired (now : ℕ) (entry : SlotEntry T H) : Bool :=
  match entry.lease with
  | some (_, some deadline) => decide (deadline ≤ now)
  | _ => false

variable [DecidableEq T]

def validateEntry (entry : SlotEntry T H) (lease : Lease T) (now : ℕ) : Except SlotError Unit :=
  match entry.lease with
  | some (token, expires) =>
    if token = lease.token then
      match expires with
      | some deadline => if deadline ≤ now then .error (.leaseExpired lease.slotId) else .ok ()
      | none => .ok ()
    else .error (.staleLease lease.slotId)
  | none => .error (.staleLease lease.slotId)

end SlotEntry

def saturatingAdd (bits a b : ℕ) : ℕ := min (a + b) (2 ^ bits - 1)

/-- The mutable part: the rows, and how often the token source was asked. -/
structure Table (n : ℕ) (T H : Type) where
  rows : Fin n → SlotEntry T H
  minted : ℕ

structure SlotManager (n : ℕ) (T : Type) where
  cores : List UInt32
  policy : LeasePolicy
  tokens : ℕ → T
  nodup : cores.Nodup
  enough : n ≤ cores.length

/-- How an operation can fail. A panic happens under the table lock, so the
table behind it is never seen again. -/
inductive Failure where
  | error (e : SlotError)
  | panicked (message : String)
  deriving DecidableEq

inductive Reply (T : Type) where
  | done
  | lease (lease : Lease T)
  | leases (leases : List (Lease T))
  | reclaimed (slotIds : List ℕ)
  deriving DecidableEq

/-- What an operation answers, the table behind it and what it published. -/
structure Turn (n : ℕ) (T H : Type) where
  result : Except Failure (Reply T)
  table : Table n T H
  events : List (SlotInfo H)

namespace SlotManager

section Rows

variable {n : ℕ} {T H : Type}

/-- The parent's side of a release: one child fewer, and the last one thaws. -/
def dropChild (pid : ℕ) (rows : Fin n → SlotEntry T H) :
    (Fin n → SlotEntry T H) × List (SlotInfo H) :=
  if h : pid < n then
    let p := rows ⟨pid, h⟩
    if p.liveChildren - 1 = 0 ∧ p.state = .frozen then
      let thawed := { p with liveChildren := p.liveChildren - 1, state := .paused }
      (Function.update rows ⟨pid, h⟩ thawed, [thawed.infoOf pid])
    else (Function.update rows ⟨pid, h⟩ { p with liveChildren := p.liveChildren - 1 }, [])
  else (rows, [])

def release (i : Fin n) (rows : Fin n → SlotEntry T H) :
    (Fin n → SlotEntry T H) × List (SlotInfo H) :=
  let cleared := Function.update rows i .empty
  let event := (.empty : SlotEntry T H).infoOf i
  match (rows i).parent with
  | none => (cleared, [event])
  | some pid => ((dropChild pid cleared).1, event :: (dropChild pid cleared).2)

/-- The row of a live child whose parent is destroyed by force. -/
def orphan (slotId : ℕ) (entry : SlotEntry T H) : SlotEntry T H :=
  if entry.parent = some slotId ∧ entry.state ≠ .empty then
    { entry with
      state := if entry.state.canTransition .faulted then .faulted else entry.state
      parent := none }
  else entry

def orphanEvent (slotId : ℕ) (rows : Fin n → SlotEntry T H) (i : Fin n) : Option (SlotInfo H) :=
  if (rows i).parent = some slotId ∧ (rows i).state ≠ .empty ∧
      (rows i).state.canTransition .faulted = true then
    some ({ rows i with state := .faulted }.infoOf i)
  else none

/-- One row of the reaper's sweep. `start` is the table when the sweep began,
the first component of `acc` the table as it is now. -/
def sweepRow (now : ℕ) (start : Fin n → SlotEntry T H)
    (acc : (Fin n → SlotEntry T H) × List ℕ × List (SlotInfo H)) (i : Fin n) :
    (Fin n → SlotEntry T H) × List ℕ × List (SlotInfo H) :=
  if (start i).expired now then
    match (start i).state with
    | .paused | .faulted =>
      if (acc.1 i).liveChildren = 0 then
        ((release i acc.1).1, acc.2.1 ++ [i.val], acc.2.2 ++ (release i acc.1).2)
      else acc
    | .running =>
      (Function.update acc.1 i { acc.1 i with state := .faulted }, acc.2.1,
        acc.2.2 ++ [{ acc.1 i with state := .faulted }.infoOf i])
    | _ => acc
  else acc

end Rows

variable {n : ℕ} {T H : Type}

def firstDuplicate (seen : List UInt32) : List UInt32 → Option UInt32
  | [] => none
  | core :: rest => if core ∈ seen then some core else firstDuplicate (core :: seen) rest

def initial (n : ℕ) (T H : Type) : Table n T H := ⟨fun _ => .empty, 0⟩

lemma nodup_of_firstDuplicate {seen cores : List UInt32}
    (h : firstDuplicate seen cores = none) : cores.Nodup ∧ ∀ core ∈ cores, core ∉ seen := by
  induction cores generalizing seen with
  | nil => simp
  | cons core rest ih =>
      rw [firstDuplicate] at h
      split_ifs at h with hseen
      obtain ⟨hnodup, hrest⟩ := ih h
      constructor
      · refine nodup_cons.mpr ⟨fun hmem => ?_, hnodup⟩
        exact hrest core hmem mem_cons_self
      · intro x hx
        rcases mem_cons.mp hx with rfl | hx
        · exact hseen
        · exact fun hmem => hrest x hx (mem_cons_of_mem core hmem)

def withTokenSource (n : ℕ) (cores : List UInt32) (policy : LeasePolicy) (tokens : ℕ → T) :
    Except SlotError (SlotManager n T × Table n T H) :=
  match h : firstDuplicate [] cores with
  | some core => .error (.duplicateCore core)
  | none =>
    if hn : cores.length < n then .error (.notEnoughCores n cores.length)
    else .ok (⟨cores, policy, tokens, (nodup_of_firstDuplicate h).1, Nat.le_of_not_lt hn⟩,
      initial n T H)

lemma slots_le (m : SlotManager n T) : n ≤ 2 ^ 32 := by
  have hsub : m.cores.map UInt32.toNat ⊆ List.range (2 ^ 32) := by
    intro x hx
    obtain ⟨core, -, rfl⟩ := mem_map.mp hx
    exact mem_range.mpr core.toNat_lt
  have hnodup : (m.cores.map UInt32.toNat).Nodup :=
    m.nodup.map fun a b h => UInt32.toNat_inj.mp h
  calc n ≤ m.cores.length := m.enough
    _ = (m.cores.map UInt32.toNat).length := (length_map _).symm
    _ ≤ (List.range (2 ^ 32)).length := (subperm_of_subset hnodup hsub).length_le
    _ = 2 ^ 32 := length_range

def refused (t : Table n T H) (e : SlotError) : Turn n T H := ⟨.error (.error e), t, []⟩

def answered (t : Table n T H) (r : Except SlotError Unit) : Turn n T H :=
  match r with
  | .ok () => ⟨.ok .done, t, []⟩
  | .error e => refused t e

lemma answered_table (t : Table n T H) (r : Except SlotError Unit) : (answered t r).table = t := by
  cases r <;> rfl

/-- An operation on one row: `act` gives the row it leaves, also when it fails. -/
def onEntry (publishes : Bool) (slotId : ℕ)
    (act : SlotEntry T H → SlotEntry T H × Except SlotError Unit) (t : Table n T H) : Turn n T H :=
  if h : slotId < n then
    let done := act (t.rows ⟨slotId, h⟩)
    let table := { t with rows := Function.update t.rows ⟨slotId, h⟩ done.1 }
    match done.2 with
    | .ok () => ⟨.ok .done, table, if publishes then [done.1.infoOf slotId] else []⟩
    | .error e => ⟨.error (.error e), table, []⟩
  else refused t (.noSuchSlot slotId)

/-- A row operation that computes the whole new row before it stores it. -/
def commit (act : SlotEntry T H → Except SlotError (SlotEntry T H)) (entry : SlotEntry T H) :
    SlotEntry T H × Except SlotError Unit :=
  match act entry with
  | .ok entry' => (entry', .ok ())
  | .error e => (entry, .error e)

section Leases

variable [DecidableEq T] (m : SlotManager n T)

def mint (now minted : ℕ) : T × Option ℕ :=
  (m.tokens minted, m.policy.ttlMs.map (saturatingAdd 64 now))

def leaseInto (entry : SlotEntry T H) (slotId now minted : ℕ) : SlotEntry T H × Lease T :=
  ({ entry with lease := some (m.mint now minted) }, ⟨slotId, (m.mint now minted).1⟩)

def withEntry (slotId : ℕ) (check : SlotEntry T H → Except SlotError Unit) (t : Table n T H) :
    Except SlotError Unit :=
  if h : slotId < n then check (t.rows ⟨slotId, h⟩) else .error (.noSuchSlot slotId)

variable (lease : Lease T) (icount : ℕ) (base : Option H) (now : ℕ)

def validate (t : Table n T H) : Except SlotError Unit :=
  withEntry lease.slotId (·.validateEntry lease now) t

def checkoutWrite (api : String) (now : ℕ) (t : Table n T H) : Except SlotError Unit :=
  withEntry lease.slotId (fun entry => do
    entry.validateEntry lease now
    (SlotState.ensureWritePath api entry.state).mapError .state) t

def renew : Table n T H → Turn n T H :=
  onEntry false lease.slotId <| commit fun entry => do
    entry.validateEntry lease now
    match m.policy.ttlMs, entry.lease with
    | some ttl, some (token, _) =>
      pure { entry with lease := some (token, some (saturatingAdd 64 now ttl)) }
    | _, _ => pure entry

def allocate (t : Table n T H) : Turn n T H :=
  match (List.finRange n).find? fun i => decide ((t.rows i).state = .empty) with
  | none => refused t .noFreeSlot
  | some i =>
    match (t.rows i).state.transition .paused with
    | .error e => refused t (.state e)
    | .ok state =>
      let leased := m.leaseInto { t.rows i with state := state } i now t.minted
      ⟨.ok (.lease leased.2), ⟨Function.update t.rows i leased.1, t.minted + 1⟩,
        [leased.1.infoOf i]⟩

def checkForkEntries (rows : Fin n → SlotEntry T H) (parent : Lease T) (children now : ℕ) :
    Except SlotError (Fin n × SlotState × List (Fin n)) :=
  if h : parent.slotId < n then do
    let entry := rows ⟨parent.slotId, h⟩
    entry.validateEntry parent now
    if children = 0 then .error (.zeroChildFork parent.slotId)
    else if entry.ramIsCow then .error (.cowChildCannotFork parent.slotId)
    else do
      let state ← (entry.state.transition .frozen).mapError .state
      let free := ((List.finRange n).filter fun i => decide ((rows i).state = .empty)).take children
      if free.length < children then .error .noFreeSlot
      else .ok (⟨parent.slotId, h⟩, state, free)
  else .error (.noSuchSlot parent.slotId)

def checkFork (parent : Lease T) (children now : ℕ) (t : Table n T H) : Except SlotError Unit :=
  (checkForkEntries t.rows parent children now).map fun _ => ()

/-- Register the free slots as paused children at the parent's position. -/
def claimChildren (parent : ℕ) (icount : ℕ) (base : Option H) (now : ℕ) :
    List (Fin n) → Table n T H → Except String (Table n T H × List (Lease T) × List (SlotInfo H))
  | [], t => .ok (t, [], [])
  | i :: rest, t =>
    match (t.rows i).state.transition .paused with
    | .error _ => .error "Empty -> Paused is always legal"
    | .ok state => do
        let leased := m.leaseInto { t.rows i with
          state := state, parent := some parent, ramIsCow := true, icount := icount,
          baseSnapshotId := base } i now t.minted
        let (t', leases, events) ← claimChildren parent icount base now rest
          ⟨Function.update t.rows i leased.1, t.minted + 1⟩
        .ok (t', leased.2 :: leases, leased.1.infoOf i :: events)

def fork (parent : Lease T) (children now : ℕ) (t : Table n T H) : Turn n T H :=
  match checkForkEntries t.rows parent children now with
  | .error e => refused t e
  | .ok (p, state, free) =>
    let rows := Function.update t.rows p { t.rows p with state := state }
    match m.claimChildren parent.slotId (rows p).icount (rows p).baseSnapshotId now free
        ⟨rows, t.minted⟩ with
    | .error message => ⟨.error (.panicked message), t, []⟩
    | .ok (t', leases, events) =>
      if 2 ^ 32 ≤ children then ⟨.error (.panicked "children ≤ slot count"), t, []⟩
      else
        let entry := { t'.rows p with
          liveChildren := saturatingAdd 32 (t'.rows p).liveChildren children }
        ⟨.ok (.leases leases), { t' with rows := Function.update t'.rows p entry },
          events ++ [entry.infoOf parent.slotId]⟩

def markRunning : Table n T H → Turn n T H :=
  onEntry true lease.slotId <| commit fun entry => do
    entry.validateEntry lease now
    (SlotState.ensureWritePath "Run" entry.state).mapError .state
    let state ← (entry.state.transition .running).mapError .state
    pure { entry with state := state }

def markPaused : Table n T H → Turn n T H :=
  onEntry true lease.slotId <| commit fun entry => do
    entry.validateEntry lease now
    let state ← (entry.state.transition .paused).mapError .state
    pure { entry with state := state }

def markPausedAtPosition : Table n T H → Turn n T H :=
  onEntry true lease.slotId fun entry =>
    match entry.validateEntry lease now with
    | .error e => (entry, .error e)
    | .ok () =>
      commit (fun entry => do
        let state ← (entry.state.transition .paused).mapError .state
        pure { entry with state := state })
        { entry with icount := icount, baseSnapshotId := base }

def setPosition : Table n T H → Turn n T H :=
  onEntry false lease.slotId <| commit fun entry => do
    entry.validateEntry lease now
    pure { entry with icount := icount, baseSnapshotId := base }

/-- Not gated by a lease: a fault is the worker's own observation. -/
def markFaulted (slotId : ℕ) : Table n T H → Turn n T H :=
  onEntry true slotId <| commit fun entry => do
    let state ← (entry.state.transition .faulted).mapError .state
    pure { entry with state := state }

def checkDestroyEntry (entry : SlotEntry T H) (lease : Lease T) (now : ℕ) :
    Except SlotError Unit := do
  entry.validateEntry lease now
  if 0 < entry.liveChildren then .error (.liveChildren lease.slotId entry.liveChildren)
  else (entry.state.transition .empty).mapError .state |>.map fun _ => ()

def checkDestroy (t : Table n T H) : Except SlotError Unit :=
  withEntry lease.slotId (checkDestroyEntry · lease now) t

def destroy (t : Table n T H) : Turn n T H :=
  if h : lease.slotId < n then
    match checkDestroyEntry (t.rows ⟨lease.slotId, h⟩) lease now with
    | .error e => refused t e
    | .ok () =>
      let released := release ⟨lease.slotId, h⟩ t.rows
      ⟨.ok .done, { t with rows := released.1 }, released.2⟩
  else refused t (.noSuchSlot lease.slotId)

/-- The destruction of a slot whose host resources are gone: no lease, and live
children are faulted and cut off. -/
def forceDestroy (slotId : ℕ) (t : Table n T H) : Turn n T H :=
  if h : slotId < n then
    match (t.rows ⟨slotId, h⟩).state.transition .empty with
    | .error e => refused t (.state e)
    | .ok _ =>
      if 0 < (t.rows ⟨slotId, h⟩).liveChildren then
        -- Each turn of the loop reads and writes the row it stands on.
        let released := release ⟨slotId, h⟩ fun i => orphan slotId (t.rows i)
        ⟨.ok .done, { t with rows := released.1 },
          (List.finRange n).filterMap (orphanEvent slotId t.rows) ++ released.2⟩
      else
        let released := release ⟨slotId, h⟩ t.rows
        ⟨.ok .done, { t with rows := released.1 }, released.2⟩
  else refused t (.noSuchSlot slotId)

def reclaimExpired (t : Table n T H) : Turn n T H :=
  let swept := (List.finRange n).foldl (sweepRow now t.rows) (t.rows, [], [])
  ⟨.ok (.reclaimed swept.2.1), { t with rows := swept.1 }, swept.2.2⟩

end Leases

end SlotManager

/-! ## Operations as data -/

inductive SlotOp (T H : Type) where
  | validate (lease : Lease T) (now : ℕ)
  | checkoutWrite (lease : Lease T) (api : String) (now : ℕ)
  | renew (lease : Lease T) (now : ℕ)
  | allocate (now : ℕ)
  | fork (parent : Lease T) (children now : ℕ)
  | checkFork (parent : Lease T) (children now : ℕ)
  | markRunning (lease : Lease T) (now : ℕ)
  | markPaused (lease : Lease T) (now : ℕ)
  | markPausedAtPosition (lease : Lease T) (icount : ℕ) (base : Option H) (now : ℕ)
  | setPosition (lease : Lease T) (icount : ℕ) (base : Option H) (now : ℕ)
  | markFaulted (slotId : ℕ)
  | destroy (lease : Lease T) (now : ℕ)
  | checkDestroy (lease : Lease T) (now : ℕ)
  | forceDestroy (slotId : ℕ)
  | reclaimExpired (now : ℕ)

def SlotOp.presents {T H : Type} : SlotOp T H → Option (Lease T × ℕ)
  | .validate lease now => some (lease, now)
  | .checkoutWrite lease _ now => some (lease, now)
  | .renew lease now => some (lease, now)
  | .fork parent _ now => some (parent, now)
  | .checkFork parent _ now => some (parent, now)
  | .markRunning lease now => some (lease, now)
  | .markPaused lease now => some (lease, now)
  | .markPausedAtPosition lease _ _ now => some (lease, now)
  | .setPosition lease _ _ now => some (lease, now)
  | .destroy lease now => some (lease, now)
  | .checkDestroy lease now => some (lease, now)
  | .allocate _ | .markFaulted _ | .forceDestroy _ | .reclaimExpired _ => none

def SlotOp.time {T H : Type} : SlotOp T H → Option ℕ
  | .allocate now => some now
  | .reclaimExpired now => some now
  | .markFaulted _ | .forceDestroy _ => none
  | op => op.presents.map Prod.snd

namespace SlotManager

variable {n : ℕ} {T H : Type} [DecidableEq T]

def perform (m : SlotManager n T) (t : Table n T H) : SlotOp T H → Turn n T H
  | .validate lease now => answered t (validate lease now t)
  | .checkoutWrite lease api now => answered t (checkoutWrite lease api now t)
  | .renew lease now => m.renew lease now t
  | .allocate now => m.allocate now t
  | .fork parent children now => m.fork parent children now t
  | .checkFork parent children now => answered t (checkFork parent children now t)
  | .markRunning lease now => markRunning lease now t
  | .markPaused lease now => markPaused lease now t
  | .markPausedAtPosition lease icount base now => markPausedAtPosition lease icount base now t
  | .setPosition lease icount base now => setPosition lease icount base now t
  | .markFaulted slotId => markFaulted slotId t
  | .destroy lease now => destroy lease now t
  | .checkDestroy lease now => answered t (checkDestroy lease now t)
  | .forceDestroy slotId => forceDestroy slotId t
  | .reclaimExpired now => reclaimExpired now t

end SlotManager

end DetHypervisor
