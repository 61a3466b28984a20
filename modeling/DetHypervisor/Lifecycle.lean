import DetHypervisor.Delivery
import DetHypervisor.Sessions

/-!
# The life of a slot

The RPCs that make and move a slot; a lineage is a path through them. Every segment counts from
zero, and a slot carries its position, the base of the pv-clock and its base snapshot.
-/

namespace DetHypervisor

open Except

abbrev U64 := {n : ℕ // n < 2 ^ 64}

namespace U64

def saturate (n : ℕ) : U64 := ⟨min n (2 ^ 64 - 1), by omega⟩

def saturatingAdd (a : U64) (b : ℕ) : U64 := saturate (a + b)

lemma coe_saturate (n : ℕ) : (saturate n : ℕ) = min n (2 ^ 64 - 1) := rfl

lemma saturate_coe (a : U64) : saturate a = a := by
  obtain ⟨a, ha⟩ := a
  exact Subtype.ext (show min a (2 ^ 64 - 1) = a by omega)

@[simp] lemma saturatingAdd_zero (a : U64) : saturatingAdd a 0 = a := saturate_coe a

lemma saturatingAdd_saturate (a b : ℕ) : saturatingAdd (saturate a) b = saturate (a + b) :=
  Subtype.ext (show min (min a (2 ^ 64 - 1) + b) (2 ^ 64 - 1) = min (a + b) (2 ^ 64 - 1) by omega)

lemma saturatingAdd_saturatingAdd (a : U64) (b c : ℕ) :
    saturatingAdd (saturatingAdd a b) c = saturatingAdd a (b + c) := by
  change saturatingAdd (saturate (a + b)) c = saturate (a + (b + c))
  rw [saturatingAdd_saturate, Nat.add_assoc]

end U64

/-! ## The clock of the guest -/

/-- `PvClock::vns`: what the guest reads at a count of the segment. -/
def pvClockVns (c : ClockRatio) (vnsBase : U64) (icount : ℕ) : U64 :=
  vnsBase.saturatingAdd (U64.saturate (c.image icount))

lemma pvClockVns_eq (c : ClockRatio) (vnsBase : U64) (icount : ℕ) :
    pvClockVns c vnsBase icount = vnsBase.saturatingAdd (c.image icount) := by
  obtain ⟨b, hb⟩ := vnsBase
  exact Subtype.ext (show min (b + min (c.image icount) (2 ^ 64 - 1)) (2 ^ 64 - 1) =
    min (b + c.image icount) (2 ^ 64 - 1) by omega)

/-! ## Slots and snapshots -/

structure Board (H σ X Page : Type) where
  /-- Guest and devices of a segment, by the base of its pv-clock. -/
  platform : U64 → Platform H σ X
  config : MachineConfig H
  config_eq : ∀ vnsBase, (platform vnsBase).config = config
  ram : σ → ℕ → Page
  load : (ℕ → Page) → σ → σ
  ring : σ → List ℕ
  harvest : σ → σ
  declared : σ → List ℕ
  pageHash : Page → H
  noBase : H
  maxDeltaChain : ℕ

/-- A stored snapshot: its flattened pages, the captured machine and the TIME
section. -/
structure Snapshot (H σ Page : Type) where
  id : H
  ram : ℕ → Page
  machine : σ
  cumulativeIcount : U64
  vns : U64
  epochIndex : U64
  chain : H
  depth : ℕ

structure SlotRuntime (H σ Page : Type) where
  recording : Recording H σ
  cumulativeIcount : U64
  vns : U64
  epochIndex : U64
  base : Option (Snapshot H σ Page)
  clockBase : U64
  tsc : U64
  dirty : List ℕ
  ramIsCow : Bool
  tableIcount : U64
  segmentStart : σ

inductive RpcError (H : Type) where
  | status (status : Status)
  | run (e : RunError H)

structure RunResponse (H : Type) where
  reason : StopReason
  icount : U64
  vns : U64
  stateHash : H

variable {H σ X Page : Type} {B : Board H σ X Page} {rt rt' : SlotRuntime H σ Page}

namespace SlotRuntime

def segmentIcount (rt : SlotRuntime H σ Page) : ℕ := rt.recording.segmentIcount

def machine (rt : SlotRuntime H σ Page) : σ := rt.recording.rail.machine

end SlotRuntime

section Rpcs

variable (B : Board H σ X Page)

def openSlot (base : Option (Snapshot H σ Page)) (machine : σ) (chain : H) (seed : Option H)
    (cumulativeIcount vns epochIndex : U64) (ramIsCow : Bool) : SlotRuntime H σ Page :=
  let recording := openSegment (B.platform vns)
    ⟨(base.map Snapshot.id).getD B.noBase, machine, chain⟩ seed
  { recording, cumulativeIcount, vns, epochIndex, base
    clockBase := vns
    tsc := vns
    dirty := []
    ramIsCow
    tableIcount := cumulativeIcount
    segmentStart := recording.rail.machine }

def createVm (machine : σ) (chain : H) (seed : Option H) : SlotRuntime H σ Page :=
  openSlot B none machine chain seed (.saturate 0) (.saturate 0) (.saturate 0) false

/-- `RestoreSnapshot`; a seed replaces the stored entropy stream. -/
def restoreSnapshot (S : Snapshot H σ Page) (seed : Option H) : SlotRuntime H σ Page :=
  openSlot B (some S) (B.load S.ram S.machine) S.chain seed S.cumulativeIcount S.vns S.epochIndex
    false

/-- `Fork`, one child: the parent's live state in a copy-on-write slot, on the
parent's base snapshot. -/
def forkSlot (seed : Option H) (parent : SlotRuntime H σ Page) :
    Except (RpcError H) (SlotRuntime H σ Page) :=
  if parent.ramIsCow then .error (.status (.failedPrecondition "freeze parent RAM"))
  else if parent.segmentIcount ≠ 0 then
    .error (.status (.failedPrecondition
      ("Fork requires the parent at its segment base; take a snapshot before forking a dirty " ++
        "segment")))
  else if parent.recording.queued ≠ [] then
    .error (.status (.failedPrecondition "agenda not empty"))
  else
    let child := openSlot B parent.base (B.load (B.ram parent.machine) parent.machine)
      parent.recording.chain seed parent.cumulativeIcount parent.vns parent.epochIndex true
    .ok { child with
      recording := { child.recording with frameCounter := parent.recording.frameCounter } }

/-- `Run`: `drive_recorded_run` with the position it publishes. `run_segment`
installs the TSC from the count of the segment. -/
def runSlot (fuel : ℕ) (call : RunCall) (rt : SlotRuntime H σ Page) :
    Except (RpcError H) (RunResponse H × SlotRuntime H σ Page) :=
  match B.config.clock.vnsFromIcount rt.segmentIcount with
  | none => .error (.status (.failedPrecondition "segment vns conversion overflow"))
  | some startVns =>
    match driveRecordedRun (B.platform rt.clockBase) fuel call rt.recording with
    | .error e => .error (.run e)
    | .ok (out, recording) =>
      let epochLen := max B.config.epochLen 1
      let cumulativeIcount :=
        rt.cumulativeIcount.saturatingAdd (out.boundary.icount - rt.segmentIcount)
      let vns := rt.vns.saturatingAdd (out.vns - startVns)
      let epochIndex := rt.epochIndex.saturatingAdd
        (out.boundary.icount / epochLen - rt.segmentIcount / epochLen)
      .ok (⟨out.reason, cumulativeIcount, vns, out.stateHash⟩, { rt with
          recording, cumulativeIcount, vns, epochIndex
          tsc := .saturate startVns
          tableIcount := cumulativeIcount })

/-- The parent of an incremental snapshot: the base, unless its chain of deltas
is at the limit. -/
def deltaParent (rt : SlotRuntime H σ Page) : Option (Snapshot H σ Page) :=
  rt.base.filter fun S => decide (S.depth < B.maxDeltaChain)

/-- The page set of an incremental snapshot: what was harvested, what the ring
still holds and what the devices declare. -/
def snapshotPages (rt : SlotRuntime H σ Page) : List ℕ :=
  rt.dirty ++ B.ring rt.machine ++ B.declared rt.machine

/-- The flattened pages of a new snapshot. Of the page set only the pages whose
hash differs from the parent's are shipped. -/
def flattenedPages [DecidableEq H] (rt : SlotRuntime H σ Page) : ℕ → Page :=
  match deltaParent B rt with
  | none => B.ram rt.machine
  | some parent => fun page =>
      if page ∈ snapshotPages B rt ∧
          B.pageHash (B.ram rt.machine page) ≠ B.pageHash (parent.ram page) then
        B.ram rt.machine page
      else parent.ram page

/-- What `TakeSnapshot` stores under the id it is given by the store. -/
def captured [DecidableEq H] (id : H) (rt : SlotRuntime H σ Page) : Snapshot H σ Page where
  id := id
  ram := flattenedPages B rt
  machine := rt.machine
  cumulativeIcount := rt.cumulativeIcount
  vns := rt.vns
  epochIndex := rt.epochIndex
  chain := rt.recording.chain
  depth := match deltaParent B rt with
    | none => 0
    | some parent => parent.depth + 1

/-- The slot on its new base: the counter and the segment count restart, the
pv-clock goes on from the position. -/
def rebased (S : Snapshot H σ Page) (rt : SlotRuntime H σ Page) : SlotRuntime H σ Page :=
  let delta := (deltaParent B rt).isSome
  let machine := if delta then B.harvest rt.machine else rt.machine
  { rt with
    recording := { rt.recording with
      rail := ⟨machine, 0, newSegmentLog (B.platform rt.vns) S.id none⟩
      segmentIcount := 0
      frameCounter := (B.platform rt.clockBase).frameCounter rt.machine }
    base := some S
    clockBase := rt.vns
    dirty := if delta then [] else rt.dirty
    tableIcount := rt.cumulativeIcount
    segmentStart := machine }

def takeSnapshot [DecidableEq H] (id : H) (rt : SlotRuntime H σ Page) :
    Except (RpcError H) (Snapshot H σ Page × SlotRuntime H σ Page) :=
  match B.config.clock.vnsFromIcount rt.segmentIcount with
  | none => .error (.status (.failedPrecondition "segment vns conversion overflow"))
  | some _ =>
    if rt.recording.queued ≠ [] then
      .error (.status (.failedPrecondition "agenda not empty"))
    else .ok (captured B id rt, rebased B (captured B id rt) rt)

/-- The observations that drain the channel first (`GetFramebuffer`,
`StreamGuestEvents`). -/
def observeSlot (rt : SlotRuntime H σ Page) : Except (RpcError H) (SlotRuntime H σ Page) :=
  match rt.recording.rail.drainAtPause (B.platform rt.clockBase) rt.segmentIcount with
  | .error e => .error (.run (.boundary e))
  | .ok (rail, _) => .ok { rt with recording := { rt.recording with rail } }

def injectSlot (events : List ScheduledEvent) (rt : SlotRuntime H σ Page) : SlotRuntime H σ Page :=
  { rt with recording := inject (B.platform rt.clockBase) events rt.recording }

end Rpcs

/-! ## What a `Run` does to the count -/

section Untimed

variable {τ : Type} {P : Platform H σ X} {req : RunRequest H σ τ} {fuel : ℕ}
  {s s' : Seg H σ τ} {out : SegmentOutcome H} {rail : Rail H σ} {chain : H} {caller : τ}

lemma queued_nil_of_deliver {p : StopPoint} {queued : List ℕ} (htimer : req.timer = none)
    (h : deliver P req fuel none true (dueVectors [] queued p) s = .ok s') : queued = [] := by
  cases queued with
  | nil => rfl
  | cons vector queued =>
    have hdue : dueVectors [] (vector :: queued) p =
        (vector, none) :: dueVectors [] queued p := rfl
    rw [hdue] at h
    cases hinject : injectAtBoundary P req fuel vector injectDeferBudget s with
    | ok s1 => simp [deliver_panics htimer hinject] at h
    | error u => simp [deliver, hinject] at h

lemma handled_icount {p : StopPoint} {vns : ℕ} (htimer : req.timer = none)
    (h : Handled P req fuel [] none p s s' vns) : s'.rail.icount = p.icount := by
  obtain ⟨s1, queued, s2, hpoised, hdeliver, hlink⟩ := h.poised
  obtain rfl := queued_nil_of_deliver htimer hdeliver
  have hnone : dueVectors [] [] p = [] := by simp [dueVectors]
  rw [hnone] at hdeliver
  obtain rfl : s1 = s2 := Except.ok.inj hdeliver
  have hicount := (hpoised.conduct none).2
  split_ifs at hlink
  · exact (sinkEpoch_icount hlink).trans hicount
  · exact Except.ok.inj hlink ▸ hicount

lemma runSegment_at_counter (hinjections : req.injections = []) (htimer : req.timer = none)
    (h : runSegment P fuel req rail chain caller = .ok (out, s')) :
    out.boundary.icount = s'.rail.icount ∧
      P.config.clock.vnsFromIcount out.boundary.icount = some out.vns := by
  obtain ⟨-, hfinish | ⟨injections, timerSlot, it, k, w, p, rest, hwalks, hnext, hending⟩⟩ :=
    runSegment_ends h
  · have hrep := reports_of_finishAtCounter req none hfinish
    exact ⟨hrep.boundary_eq trivial, hrep.vns_eq⟩
  have htimed := hwalks.timed_eq
  rw [timed, htimer, hinjections] at htimed
  cases htimed
  cases hending with
  | stop hhandled hboundary hafter =>
    have hrep := hafter.reports hboundary hhandled.vns_eq
    exact ⟨hrep.boundary_eq fun _ => handled_icount htimer hhandled, hrep.vns_eq⟩
  | cut _ hfinish _ =>
    have hrep := reports_of_finishAtCounter req none hfinish
    exact ⟨hrep.boundary_eq trivial, hrep.vns_eq⟩

lemma runSegment_icount_le (h : runSegment P fuel req rail chain caller = .ok (out, s')) :
    rail.icount ≤ s'.rail.icount := by
  obtain ⟨ds, -, hds, -⟩ := runSegment_deliveries h
  exact hds.invariant (I := fun s => rail.icount ≤ s.rail.icount)
    (fun _ _ _ _ hdoes hle => hle.trans hdoes.icount_le) le_rfl

lemma drainAtPause_icount {n : ℕ} {r r' : Rail H σ} {es : List Emit}
    (h : r.drainAtPause P n = .ok (r', es)) : r'.icount = r.icount := by
  unfold Rail.drainAtPause at h
  split_ifs at h
  · exact (Rail.service_spec h).1
  · cases h
    rfl

lemma driveRecordedRun_count {call : RunCall} {rec rec' : Recording H σ}
    (h : driveRecordedRun P fuel call rec = .ok (out, rec')) :
    rec'.rail.icount = out.boundary.icount ∧ rec'.segmentIcount = out.boundary.icount ∧
      rec.rail.icount ≤ out.boundary.icount ∧
      P.config.clock.vnsFromIcount out.boundary.icount = some out.vns := by
  obtain ⟨s, rail, es, hrun, hdrain, rfl⟩ := driveRecordedRun_eq_ok h
  obtain ⟨hboundary, hvns⟩ := runSegment_at_counter rfl rfl hrun
  have hle := runSegment_icount_le hrun
  exact ⟨(drainAtPause_icount hdrain).trans hboundary.symm, rfl, hboundary ▸ hle, hvns⟩

end Untimed

/-- A run carries the instructions it retired; the ways over a snapshot carry the count of the
segment they close. -/
inductive Act where
  | run (retired : ℕ)
  | snapshot (segment : ℕ)
  | restore (segment : ℕ)
  | fork
  | observe
  | inject
  deriving DecidableEq

inductive Acts [DecidableEq H] (B : Board H σ X Page) :
    Act → SlotRuntime H σ Page → SlotRuntime H σ Page → Prop
  | run {fuel : ℕ} {call : RunCall} {rt rt' : SlotRuntime H σ Page} {response : RunResponse H}
      (h : runSlot B fuel call rt = .ok (response, rt')) :
      Acts B (.run (rt'.recording.rail.icount - rt.recording.rail.icount)) rt rt'
  | snapshot {id : H} {rt rt' : SlotRuntime H σ Page} {S : Snapshot H σ Page}
      (h : takeSnapshot B id rt = .ok (S, rt')) :
      Acts B (.snapshot rt.recording.rail.icount) rt rt'
  | restore {id : H} {rt rt' : SlotRuntime H σ Page} {S : Snapshot H σ Page}
      (h : takeSnapshot B id rt = .ok (S, rt')) (seed : Option H) :
      Acts B (.restore rt.recording.rail.icount) rt (restoreSnapshot B S seed)
  | fork {seed : Option H} {rt rt' : SlotRuntime H σ Page} (h : forkSlot B seed rt = .ok rt') :
      Acts B .fork rt rt'
  | observe {rt rt' : SlotRuntime H σ Page} (h : observeSlot B rt = .ok rt') :
      Acts B .observe rt rt'
  | inject (events : List ScheduledEvent) (rt : SlotRuntime H σ Page) :
      Acts B .inject rt (injectSlot B events rt)

inductive Rpc (H : Type) where
  | run (fuel : ℕ) (call : RunCall)
  | snapshot (id : H)
  | restore (id : H) (seed : Option H)
  | fork (seed : Option H)
  | observe
  | inject (events : List ScheduledEvent)

def Rpc.perform [DecidableEq H] (B : Board H σ X Page) (rt : SlotRuntime H σ Page) :
    Rpc H → Except (RpcError H) (Act × SlotRuntime H σ Page)
  | run fuel call => (runSlot B fuel call rt).map fun r =>
      (.run (r.2.recording.rail.icount - rt.recording.rail.icount), r.2)
  | snapshot id => (takeSnapshot B id rt).map fun r => (.snapshot rt.recording.rail.icount, r.2)
  | restore id seed => (takeSnapshot B id rt).map fun r =>
      (.restore rt.recording.rail.icount, restoreSnapshot B r.1 seed)
  | fork seed => (forkSlot B seed rt).map fun child => (.fork, child)
  | observe => (observeSlot B rt).map fun rt' => (.observe, rt')
  | inject events => .ok (.inject, injectSlot B events rt)

def performAll [DecidableEq H] (B : Board H σ X Page) :
    List (Rpc H) → SlotRuntime H σ Page → Except (RpcError H) (List Act × SlotRuntime H σ Page)
  | [], rt => .ok ([], rt)
  | rpc :: rpcs, rt => do
      let (act, rt) ← rpc.perform B rt
      let (acts, rt) ← performAll B rpcs rt
      .ok (act :: acts, rt)

lemma Rpc.acts_of_perform [DecidableEq H] {act : Act} {rpc : Rpc H}
    (h : rpc.perform B rt = .ok (act, rt')) : Acts B act rt rt' := by
  cases rpc with
  | run fuel call =>
    obtain ⟨⟨response, rt1⟩, hrun, ⟨⟩⟩ := map_eq_ok.mp h
    exact .run hrun
  | snapshot id =>
    obtain ⟨⟨S, rt1⟩, hsnap, ⟨⟩⟩ := map_eq_ok.mp h
    exact .snapshot hsnap
  | restore id seed =>
    obtain ⟨⟨S, rt1⟩, hsnap, ⟨⟩⟩ := map_eq_ok.mp h
    exact .restore hsnap seed
  | fork seed =>
    obtain ⟨child, hfork, ⟨⟩⟩ := map_eq_ok.mp h
    exact .fork hfork
  | observe =>
    obtain ⟨rt1, hobserve, ⟨⟩⟩ := map_eq_ok.mp h
    exact .observe hobserve
  | inject events =>
    cases h
    exact .inject events rt

lemma traced_performAll [DecidableEq H] {rpcs : List (Rpc H)} {acts : List Act}
    (h : performAll B rpcs rt = .ok (acts, rt')) : Traced (Acts B) acts rt rt' := by
  induction rpcs generalizing rt acts with
  | nil =>
    cases h
    exact .nil _
  | cons rpc rpcs ih =>
    obtain ⟨⟨act, rt1⟩, hrpc, h⟩ := bind_eq_ok.mp h
    obtain ⟨⟨acts', rt2⟩, hrest, h⟩ := bind_eq_ok.mp h
    cases h
    exact .cons (Rpc.acts_of_perform hrpc) (ih hrest)

lemma exists_lineage [DecidableEq H] {α : Type} (rt0 : SlotRuntime H σ Page)
    (rpcs : List (Rpc H)) (f : List Act × SlotRuntime H σ Page → α) {a : α}
    (h : (performAll B rpcs rt0).toOption.map f = some a) :
    ∃ acts rt, Traced (Acts B) acts rt0 rt ∧ f (acts, rt) = a := by
  cases hcalls : performAll B rpcs rt0 with
  | error e =>
    rw [hcalls] at h
    cases h
  | ok r =>
    rw [hcalls] at h
    exact ⟨r.1, r.2, traced_performAll hcalls, Option.some.inj h⟩

inductive OpensSlot [DecidableEq H] (B : Board H σ X Page) : SlotRuntime H σ Page → Prop
  | create (machine : σ) (chain : H) (seed : Option H) : OpensSlot B (createVm B machine chain seed)
  | restore (S : Snapshot H σ Page) (seed : Option H) : OpensSlot B (restoreSnapshot B S seed)
  | fork {seed : Option H} {parent child : SlotRuntime H σ Page}
      (h : forkSlot B seed parent = .ok child) : OpensSlot B child

end DetHypervisor
