import DetHypervisor.RunControl

/-!
# Recording a segment

`InjectInputs` fills the queue of a parked slot, `Run` drives one recorded `run_segment` and
drains the channel, `TakeSnapshot` seals the log (`service.rs`, without bisection checkpoints).
-/

namespace DetHypervisor

structure Recording (H σ : Type) where
  rail : Rail H σ
  chain : H
  segmentIcount : ℕ
  frameCounter : ℕ
  queued : List QueuedInput
  nextInputOrder : ℕ

variable {H σ X : Type}

variable (P : Platform H σ X)

def newSegmentLog (base : H) (seed : Option H) : LogWriter H :=
  .new
    { baseSnapshotId := base
      entropySeed := seed
      machineConfigHash := P.config.configHash
      clockNum := P.config.clock.num
      clockDen := P.config.clock.den
      encoderFingerprint := 0 }

def openSegment (base : Restored H σ) (seed : Option H) : Recording H σ :=
  let machine := startMachine P base seed
  { rail := ⟨machine, 0, newSegmentLog P base.snapshotId seed⟩
    chain := base.chain
    segmentIcount := 0
    frameCounter := P.frameCounter machine
    queued := []
    nextInputOrder := 0 }

inductive Status where
  | invalidArgument (message : String)
  | failedPrecondition (message : String)
  | resourceExhausted (message : String)
  deriving DecidableEq

inductive WireAt where
  | atIcount (icount : ℕ)
  | atVns (vns : ℕ)
  | atFrame (frame : ℕ)
  deriving DecidableEq

inductive WireEvent where
  | padSet (port buttons : ℕ)
  | netRx (frame : List UInt8)
  | devEvent (deviceId eventType : ℕ) (payload : List UInt8)
  deriving DecidableEq

structure ScheduledEvent where
  due : Option WireAt
  event : Option WireEvent
  deriving DecidableEq

def deviceIdPvPad : ℕ := 0x0003
def numPorts : ℕ := 4
def maxFrame : ℕ := 2048

/-- When a wire event is due, and the frame hint its PAD_SET carries. -/
def dueFromProto (index currentFrame : ℕ) : Option WireAt → Except Status (InputAt × ℕ)
  | none => .error (.invalidArgument s!"events[{index}].at is required")
  | some (.atIcount icount) => .ok (.icount icount, frameHintNone)
  | some (.atVns vns) =>
    match P.config.clock.icountForVnsTarget vns with
    | some icount => .ok (.icount icount, frameHintNone)
    | none => .error (.invalidArgument s!"events[{index}].at_vns overflows")
  | some (.atFrame frame) =>
    if frame = frameHintNone then
      .error (.invalidArgument s!"events[{index}].at_frame value {frame} is reserved")
    else if deviceIdPvPad ∉ P.config.deviceSet then
      .error (.failedPrecondition
        s!"events[{index}].at_frame requires pv-pad in machine_config.device_set")
    else if frame ≤ currentFrame then
      .error (.invalidArgument
        (s!"events[{index}].at_frame must be greater than current frame_counter " ++
          s!"{currentFrame}, got {frame}"))
    else .ok (.frame frame, frame)

def kindFromProto (index frameHint : ℕ) : Option WireEvent → Except Status InputKind
  | none => .error (.invalidArgument s!"events[{index}].event is required")
  | some (.padSet port buttons) =>
    if numPorts ≤ port then
      .error (.invalidArgument s!"events[{index}].pad_set.port must be 0..3")
    else .ok (.padSet port buttons frameHint)
  | some (.netRx frame) =>
    if frame.isEmpty then
      .error (.invalidArgument s!"events[{index}].net_rx.frame must not be empty")
    else if maxFrame < frame.length then
      .error (.invalidArgument s!"events[{index}].net_rx.frame exceeds {maxFrame} bytes")
    else .ok (.netRx frame)
  | some (.devEvent deviceId eventType payload) =>
    if 2 ^ 16 ≤ deviceId then
      .error (.invalidArgument s!"events[{index}].dev_event.device_id must fit u16")
    else if 2 ^ 16 ≤ eventType then
      .error (.invalidArgument s!"events[{index}].dev_event.event_type must fit u16")
    else if maxDevEventData < payload.length then
      .error (.invalidArgument
        s!"events[{index}].dev_event.payload exceeds {maxDevEventData} bytes")
    else .ok (.devEvent deviceId eventType payload)

def queuedInputFromProto (index : ℕ) (event : ScheduledEvent) (currentIcount currentFrame : ℕ) :
    Except Status QueuedInput := do
  let (due, frameHint) ← dueFromProto P index currentFrame event.due
  match due with
  | .icount icount =>
    if icount ≤ currentIcount then
      .error (.invalidArgument
        (s!"events[{index}] must land after current segment icount " ++
          s!"{currentIcount}, got {icount}"))
    else do
      let kind ← kindFromProto index frameHint event.event
      .ok ⟨due, kind, 0⟩
  | .frame _ => do
      let kind ← kindFromProto index frameHint event.event
      .ok ⟨due, kind, 0⟩

def frameScheduledIrqPrecondition (s : σ) : InputKind → Option String
  | .padSet .. =>
    if (P.padIrqVector s).any (· ≠ 0) then
      some "pv-pad IRQ vector is enabled; frame-scheduled PAD_SET IRQ delivery is not wired"
    else none
  | .netRx _ =>
    if (P.netRxVector s).any (· ≠ 0) then
      some "pv-net RX vector is enabled; frame-scheduled NET_RX IRQ delivery is not wired"
    else none
  | .devEvent .. => none

/-- The queue's sort key: icount entries first, then by target and order. -/
def QueuedInput.key (input : QueuedInput) : ℕ × ℕ × ℕ :=
  match input.due with
  | .icount n => (0, n, input.order)
  | .frame n => (1, n, input.order)

def QueuedInput.keyLe (a b : QueuedInput) : Prop :=
  a.key.1 < b.key.1 ∨ (a.key.1 = b.key.1 ∧
    (a.key.2.1 < b.key.2.1 ∨ (a.key.2.1 = b.key.2.1 ∧ a.key.2.2 ≤ b.key.2.2)))

instance : DecidableRel QueuedInput.keyLe := fun a b => by
  unfold QueuedInput.keyLe
  infer_instance

/-- Validate a batch and give every event its order. The order counter moves
on even when a later event of the batch is refused. -/
def acceptEvents (P : Platform H σ X) (rt : Recording H σ) :
    ℕ → List ScheduledEvent → ℕ → Except Status (List QueuedInput) × ℕ
  | _, [], order => (.ok [], order)
  | index, event :: rest, order =>
    match queuedInputFromProto P index event rt.segmentIcount rt.frameCounter with
    | .error e => (.error e, order)
    | .ok input =>
      let blocked := match input.due with
        | .frame _ => frameScheduledIrqPrecondition P rt.rail.machine input.kind
        | .icount _ => none
      match blocked with
      | some reason => (.error (.failedPrecondition
          s!"events[{index}].at_frame cannot queue an IRQ: {reason}"), order)
      | none =>
        match checkedAdd order 1 with
        | none => (.error (.resourceExhausted "scheduled input order exhausted"), order)
        | some order' =>
          let (inputs, last) := acceptEvents P rt (index + 1) rest order'
          (inputs.map ({ input with order } :: ·), last)

def queueInputsFromProto (events : List ScheduledEvent) (rt : Recording H σ) :
    Except Status ℕ × Recording H σ :=
  if 2 ^ 32 ≤ events.length then (.error (.invalidArgument "too many scheduled events"), rt)
  else
    let (accepted, order) := acceptEvents P rt 0 events rt.nextInputOrder
    let rt := { rt with nextInputOrder := order }
    match accepted with
    | .error e => (.error e, rt)
    | .ok inputs => (.ok events.length,
        { rt with queued := (rt.queued ++ inputs).insertionSort QueuedInput.keyLe })

/-- What a `Run` call brings along: its stop condition and what the outside
world does while it runs. -/
structure RunCall where
  stop : Until
  pause : ℕ → Bool := fun _ => false
  frameStop : ℕ → Bool := fun _ => false
  liveInputs : ℕ → List InputKind := fun _ => []
  sdkFilter : Option (SdkEvent → Bool) := none

def logEpochHash (index icount : ℕ) (value : H) (w : LogWriter H × Unit) :
    Except (BoundaryError H) (LogWriter H × Unit) :=
  match w.1.record icount 0 (.epochHash index value) with
  | .ok log => .ok (log, ())
  | .error e => .error (.append "epoch log" e)

def recordRequest (call : RunCall) (rt : Recording H σ) : RunRequest H σ Unit where
  startIcount := rt.segmentIcount
  stop := call.stop
  options := {}
  inputs := rt.queued
  startFrame := rt.frameCounter
  injections := []
  timer := none
  goal := fun _ => false
  pause := call.pause
  frameStop := call.frameStop
  liveInputs := call.liveInputs
  sdkFilter := call.sdkFilter
  noteExit := fun _ _ _ => ()
  epochSink := logEpochHash

/-- `drive_recorded_run`: run the segment, store the position, drop what was
applied from the queue and only then drain the rings. -/
def driveRecordedRun (fuel : ℕ) (call : RunCall) (rt : Recording H σ) :
    Except (RunError H) (SegmentOutcome H × Recording H σ) :=
  match runSegment P fuel (recordRequest call rt) rt.rail rt.chain () with
  | .error e => .error e
  | .ok (out, s) =>
    match s.rail.drainAtPause P out.boundary.icount with
    | .error e => .error (.boundary e)
    | .ok (rail, _) => .ok (out,
        { rt with
          rail
          chain := s.chain
          segmentIcount := out.boundary.icount
          frameCounter := P.frameCounter s.rail.machine
          queued := rt.queued.filter fun input =>
            !(s.consumed.map (·.order)).contains input.order })

def recordRuns (P : Platform H σ X) (fuel : ℕ) :
    List RunCall → Recording H σ → Except (RunError H) (Recording H σ)
  | [], rt => .ok rt
  | call :: calls, rt => do
      let (_, rt) ← driveRecordedRun P fuel call rt
      recordRuns P fuel calls rt

/-- The log part of `take_snapshot`: nothing may be queued, and END always
reads BudgetReached. -/
def sealSegment (snapshotId : H) (rt : Recording H σ) : Except Status (SealedLog H) :=
  if rt.queued ≠ [] then .error (.failedPrecondition "agenda not empty")
  else
    match P.config.clock.vnsFromIcount rt.segmentIcount with
    | none => .error (.failedPrecondition "segment vns overflows")
    | some vns =>
      match rt.rail.log.seal ⟨snapshotId, rt.segmentIcount, vns, rt.chain, 1⟩ with
      | .ok log => .ok log
      | .error _ => .error (.failedPrecondition "seal DHILOG")

end DetHypervisor
