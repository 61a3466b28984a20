import DetHypervisor.Lib.Fuel
import DetHypervisor.Agenda
import DetHypervisor.Machine

/-!
# Run control

`run_segment_inner` of `runctl.rs`. Whatever a flight can unwind with is one `Unwind`; the
closures of the callers act on a caller state `τ`. Landing is bounded by `fuel` VM entries,
where the source may loop for ever.
-/

namespace DetHypervisor

inductive Until where
  | icountBudget (budget : ℕ)
  | vnsBudget (budget : ℕ)
  | goal (pollPeriod hardCap : ℕ)
  | nextSdkEvent (hardCap : ℕ)
  | frameBudget (frames hardCap : ℕ)
  deriving DecidableEq

structure RunOptions where
  paranoidHash : Bool := false
  hashFinalStop : Bool := true
  hashFinalEpoch : Bool := true
  deriving DecidableEq

structure TimerArm where
  deadlineVns : ℕ
  vector : ℕ
  deriving DecidableEq

structure ScheduledInjection where
  icount : ℕ
  vector : ℕ
  deriving DecidableEq

structure TimerFired where
  vector : ℕ
  armedDeadlineVns : ℕ
  deliveredIcount : ℕ
  deriving DecidableEq

inductive InputAt where
  | icount (n : ℕ)
  | frame (n : ℕ)
  deriving DecidableEq

structure QueuedInput where
  due : InputAt
  kind : InputKind
  order : ℕ
  deriving DecidableEq

structure SegmentOutcome (H : Type) where
  reason : StopReason
  boundary : Boundary
  vns : ℕ
  stateHash : H
  injectionsDelivered : ℕ
  timerFired : Option TimerFired
  framesElapsed : ℕ
  deriving DecidableEq

inductive RunError (H : Type) where
  | agenda
  | boundary (e : BoundaryError H)
  | windowNeverOpened (stepped : ℕ)
  | badVector (vector : ℕ)
  | kvm (message : String)
  | clockOverflow
  | missingSdkEventFeed
  | panicked (message : String)
  | outOfFuel
  deriving DecidableEq

def StopKind.reason : StopKind → StopReason
  | budget => .budgetReached
  | hardCap => .hardCap

structure Seg (H σ τ : Type) where
  rail : Rail H σ
  chain : H
  caller : τ
  framesSeen : ℕ
  lastFrame : ℕ
  sdkEvents : ℕ
  pendingFrames : List (ℕ × ℕ)
  consumed : List QueuedInput
  delivered : ℕ
  timerFired : Option TimerFired

/-- One call of `run_segment`: the request and the caller's closures. -/
structure RunRequest (H σ τ : Type) where
  startIcount : ℕ
  stop : Until
  options : RunOptions
  inputs : List QueuedInput
  startFrame : ℕ
  injections : List ScheduledInjection
  timer : Option TimerArm
  goal : σ → Bool
  /-- The pause flag as sampled after the agenda point at a count. -/
  pause : ℕ → Bool
  frameStop : ℕ → Bool
  liveInputs : ℕ → List InputKind
  sdkFilter : Option (SdkEvent → Bool)
  noteExit : ℕ → List SdkEvent → τ → τ
  epochSink : ℕ → ℕ → H → LogWriter H × τ → Except (BoundaryError H) (LogWriter H × τ)

inductive Unwind (H σ τ : Type) where
  | halted (s : Seg H σ τ)
  | frameSinkStop (s : Seg H σ τ)
  | eventStop (s : Seg H σ τ)
  | error (e : RunError H)

abbrev Flight (H σ τ α : Type) := Except (Unwind H σ τ) α

variable {H σ X τ : Type} {P : Platform H σ X} {hash : Bool} {len : ℕ} {options : RunOptions}
  {out : SegmentOutcome H} {reason : StopReason} {s s' : Seg H σ τ}

abbrev Flight.fail {α : Type} (e : RunError H) : Flight H σ τ α := .error (.error e)

def Flight.lift {α : Type} : Except (BoundaryError H) α → Flight H σ τ α
  | .ok a => .ok a
  | .error e => .fail (.boundary e)

/-- `epoch_len` of the agenda: the grid exists when epoch hashing is on. -/
def epochGrid (P : Platform H σ X) (options : RunOptions) : Option ℕ :=
  if P.config.hashEpochs = .epochsOn ∨ options.paranoidHash = true then
    nonZero P.config.epochLen
  else none

lemma epochGrid_pos (h : epochGrid P options = some len) : 0 < len := by
  unfold epochGrid nonZero at h
  split_ifs at h with hon hzero
  cases h
  exact Nat.pos_of_ne_zero hzero

lemma epochGrid_eq_some (h : epochGrid P options = some len) : len = max P.config.epochLen 1 := by
  have hpos := epochGrid_pos h
  unfold epochGrid nonZero at h
  split_ifs at h with hon hzero
  cases h
  omega

namespace RunRequest

variable (req : RunRequest H σ τ)

def frameTarget : Option ℕ :=
  match req.stop with
  | .frameBudget frames _ => some frames
  | _ => none

def awaitsSdkEvent : Bool :=
  match req.stop with
  | .nextSdkEvent _ => true
  | _ => false

def eventReason : StopReason :=
  match req.stop with
  | .frameBudget .. => .budgetReached
  | _ => .nextSdkEvent

def finalStop : FinalStop :=
  match req.stop with
  | .icountBudget b => .icountBudget b
  | .vnsBudget b => .vnsBudget b
  | .goal _ cap | .nextSdkEvent cap | .frameBudget _ cap => .hardCap cap

def goalPollPeriod : Option ℕ :=
  match req.stop with
  | .goal period _ => nonZero period
  | _ => none

lemma goalPollPeriod_pos {req : RunRequest H σ τ} {period : ℕ}
    (h : req.goalPollPeriod = some period) : 0 < period := by
  unfold goalPollPeriod at h
  split at h
  · unfold nonZero at h
    split_ifs at h with hzero
    cases h
    exact Nat.pos_of_ne_zero hzero
  · cases h

/-- Landing counts of the scheduled inputs; a frame-scheduled one is given the
start count, which the agenda window excludes. -/
def scheduledInputs : List ℕ :=
  req.inputs.map fun input =>
    match input.due with
    | .icount n => n
    | .frame _ => req.startIcount

def frameInputs : List (ℕ × ℕ) :=
  req.inputs.zipIdx.filterMap fun (input, index) =>
    match input.due with
    | .icount _ => none
    | .frame n => some (n, index)

end RunRequest

def noteExit (req : RunRequest H σ τ) (r : Rail H σ) (es : List Emit) (s : Seg H σ τ) : Seg H σ τ :=
  let events := es.filterMap Emit.sdk?
  { s with
    rail := r
    caller := req.noteExit r.icount events s.caller
    sdkEvents := s.sdkEvents +
      match req.sdkFilter with
      | some matching => events.countP matching
      | none => 0 }

variable (P) (req : RunRequest H σ τ) (frame : ℕ)

/-- The awaited SDK event stops the flight on the exit that drained it. -/
def checkSdkFeed (s : Seg H σ τ) : Flight H σ τ (Seg H σ τ) :=
  if req.awaitsSdkEvent && decide (0 < s.sdkEvents) then .error (.eventStop s) else .ok s

/-- Apply inputs at a frame boundary; their vectors cannot be delivered. -/
def applyAtFrame (P : Platform H σ X) (message : String) :
    List InputKind → Seg H σ τ → Flight H σ τ (Seg H σ τ)
  | [], s => .ok s
  | kind :: rest, s => do
      let (r, vector) ← Flight.lift (s.rail.applyInput P kind s.rail.icount 0)
      match vector with
      | some _ => .fail (.boundary (.exit message))
      | none => applyAtFrame P message rest { s with rail := r }

def dueAtFrame (s : Seg H σ τ) : List QueuedInput :=
  (s.pendingFrames.filter fun p => decide (p.1 = frame)).filterMap fun p => req.inputs[p.2]?

/-- The held FRAME_MARK boundary: monotone counter, scheduled inputs, live
inputs. -/
def holdFrame (s : Seg H σ τ) : Flight H σ τ (Seg H σ τ) :=
  if frame ≤ s.lastFrame then
    .fail (.boundary (.exit "FRAME_COUNTER must increase monotonically"))
  else do
    let due := dueAtFrame req frame s
    let s ← applyAtFrame P "frame-scheduled input queued IRQ vectors" (due.map (·.kind))
      { s with lastFrame := frame, framesSeen := s.framesSeen + 1 }
    applyAtFrame P "live frame input queued IRQ vectors" (req.liveInputs frame)
      { s with
        pendingFrames := s.pendingFrames.filter fun p => decide (p.1 ≠ frame)
        consumed := s.consumed ++ due }

/-- The frame part of the exit wrapper: after the boundary the frame sink and
the frame budget may stop the run. -/
def onFrame (s : Seg H σ τ) : Flight H σ τ (Seg H σ τ) := do
  let s ← holdFrame P req frame s
  if req.frameStop frame then .error (.frameSinkStop s)
  else if req.frameTarget = some s.framesSeen then .error (.eventStop s)
  else .ok s

def onEntered (s : Seg H σ τ) : Entered H σ → Flight H σ τ (Seg H σ τ)
  | .stepped r => .ok { s with rail := r }
  | .halted r => .error (.halted { s with rail := r })
  | .failed e => .fail (.boundary e)
  | .serviced r es => checkSdkFeed req (noteExit req r es s)
  | .frame n r es => do
      let s ← onFrame P req n (noteExit req r es s)
      checkSdkFeed req s

def landStep (target : ℕ) (s : Seg H σ τ) : Fuel.Step (Seg H σ τ) (Flight H σ τ (Seg H σ τ)) :=
  if target < s.rail.icount then
    .done (.fail (.boundary (.overshoot target s.rail.icount)))
  else if s.rail.icount = target then .done (.ok s)
  else
    match onEntered P req s (enter P s.rail) with
    | .ok s' => .next s'
    | .error u => .done (.error u)

/-- `land_at`: enter the guest until the counter reads `target`. -/
def landAt (fuel target : ℕ) (s : Seg H σ τ) : Flight H σ τ (Seg H σ τ) :=
  (Fuel.run (landStep P req target) fuel s).getD (.fail .outOfFuel)

def entryStep (s : Seg H σ τ) : Fuel.Step (Seg H σ τ) (Flight H σ τ (Seg H σ τ)) :=
  match enter P s.rail with
  | .stepped r => .done (.ok { s with rail := r })
  | entered =>
    match onEntered P req s entered with
    | .ok s' => .next s'
    | .error u => .done (.error u)

/-- `step_one_entry`: enter the guest until the next debug trap. -/
def stepOneEntry (fuel : ℕ) (s : Seg H σ τ) : Flight H σ τ (Seg H σ τ) :=
  (Fuel.run (entryStep P req) fuel s).getD (.fail .outOfFuel)

def injectDeferBudget : ℕ := 2 ^ 16

def queueVector (vector : ℕ) (s : Seg H σ τ) : Flight H σ τ (Seg H σ τ) :=
  if vector < 32 then .fail (.badVector vector)
  else .ok { s with rail := { s.rail with machine := P.queueInterrupt vector s.rail.machine } }

/-- `inject_at_boundary`: defer instruction by instruction until the window is
open, at most `budget` times, then queue the vector. -/
def injectAtBoundary (P : Platform H σ X) (req : RunRequest H σ τ) (fuel vector : ℕ) :
    ℕ → Seg H σ τ → Flight H σ τ (Seg H σ τ)
  | budget, s =>
    if P.injectable s.rail.machine then queueVector P vector s
    else
      match budget with
      | 0 => .fail (.windowNeverOpened injectDeferBudget)
      | budget + 1 => do
          let s ← landAt P req fuel (s.rail.icount + 1) s
          injectAtBoundary P req fuel vector budget s

/-- The source compares the timer's slot with the index of the vector; an input vector has no
index, so without a timer the two are equal and the source panics for want of a deadline. -/
def noteDelivery (timerSlot injection : Option ℕ) (vector : ℕ) (s : Seg H σ τ) :
    Flight H σ τ (Seg H σ τ) :=
  let s := { s with delivered := s.delivered + 1 }
  if timerSlot = injection then
    match req.timer with
    | some timer =>
      .ok { s with timerFired := some ⟨vector, timer.deadlineVns, s.rail.icount⟩ }
    | none => .fail (.panicked "timer_slot implies timer")
  else .ok s

def deliver (P : Platform H σ X) (req : RunRequest H σ τ) (fuel : ℕ) (timerSlot : Option ℕ) :
    Bool → List (ℕ × Option ℕ) → Seg H σ τ → Flight H σ τ (Seg H σ τ)
  | _, [], s => .ok s
  | first, (vector, injection) :: rest, s => do
      let s ← (if first then .ok s else stepOneEntry P req fuel s)
      let s ← injectAtBoundary P req fuel vector injectDeferBudget s
      let s ← noteDelivery req timerSlot injection vector s
      deliver P req fuel timerSlot false rest s

/-- Apply the inputs of a point in order; collect the vectors they queue. -/
def applyInputs (P : Platform H σ X) (req : RunRequest H σ τ) (at_ : Boundary) :
    List ℕ → Seg H σ τ → Flight H σ τ (Seg H σ τ × List ℕ)
  | [], s => .ok (s, [])
  | index :: rest, s =>
    match req.inputs[index]? with
    | none => .fail (.boundary (.exit "scheduled input index out of range"))
    | some input => do
        let (r, vector) ← Flight.lift (s.rail.applyInput P input.kind at_.icount at_.rip)
        let (s, vectors) ← applyInputs P req at_ rest
          { s with rail := r, consumed := s.consumed ++ [input] }
        .ok (s, vector.toList ++ vectors)

def Seg.pushLink (icount vns : ℕ) (s : Seg H σ τ) : Seg H σ τ :=
  { s with chain := P.link s.chain (P.image s.rail.machine) icount vns }

def sinkEpoch (icount : ℕ) (s : Seg H σ τ) : Flight H σ τ (Seg H σ τ) := do
  let (log, caller) ← Flight.lift
    (req.epochSink (icount / max P.config.epochLen 1) icount s.chain (s.rail.log, s.caller))
  .ok { s with rail := { s.rail with log }, caller }

def clockAt (icount : ℕ) : Flight H σ τ ℕ :=
  match P.config.clock.vnsFromIcount icount with
  | some vns => .ok vns
  | none => .fail .clockOverflow

def Seg.outcome (reason : StopReason) (boundary : Boundary) (vns : ℕ) (s : Seg H σ τ) :
    SegmentOutcome H where
  reason := reason
  boundary := boundary
  vns := vns
  stateHash := s.chain
  injectionsDelivered := s.delivered
  timerFired := s.timerFired
  framesElapsed := s.framesSeen

/-- `finish`: one link at the stop boundary, unless it was linked already. -/
def finish (hashFinalStop : Bool) (reason : StopReason) (boundary : Boundary) (vns : ℕ)
    (alreadyHashed : Bool) (s : Seg H σ τ) : SegmentOutcome H × Seg H σ τ :=
  let s := if hashFinalStop && !alreadyHashed then s.pushLink P boundary.icount vns else s
  (s.outcome reason boundary vns, s)

def finishAtCounter (hashFinalStop : Bool) (reason : StopReason) (s : Seg H σ τ) :
    Except (RunError H) (SegmentOutcome H × Seg H σ τ) :=
  match P.config.clock.vnsFromIcount s.rail.icount with
  | some vns => .ok (finish P hashFinalStop reason (s.rail.boundary P) vns false s)
  | none => .error .clockOverflow

variable {P}

lemma finish_rail {hashed : Bool} {boundary : Boundary} {vns : ℕ}
    (h : finish P hash reason boundary vns hashed s = (out, s')) :
    s'.rail = s.rail ∧ out.boundary = boundary := by
  unfold finish at h
  cases h
  split_ifs <;> exact ⟨rfl, rfl⟩

lemma finishAtCounter_rail (h : finishAtCounter P hash reason s = .ok (out, s')) :
    s'.rail = s.rail ∧ out.boundary.icount = s.rail.icount := by
  unfold finishAtCounter at h
  split at h
  · obtain ⟨hrail, hboundary⟩ := finish_rail (Except.ok.inj h)
    exact ⟨hrail, hboundary ▸ rfl⟩
  · cases h

/-- The grid point a pause stops at. The source multiplies in `u64` without a check; the counts
of a run are unbounded here, and agree with it while this point is below `2 ^ 64`. -/
def pauseTarget (P : Platform H σ X) (icount : ℕ) : ℕ :=
  let epoch := max P.config.epochLen 1
  max ((icount + epoch - 1) / epoch) 1 * epoch

lemma dvd_pauseTarget (P : Platform H σ X) (n : ℕ) :
    max P.config.epochLen 1 ∣ pauseTarget P n := Nat.dvd_mul_left _ _

lemma le_pauseTarget (P : Platform H σ X) (n : ℕ) : n ≤ pauseTarget P n := by
  unfold pauseTarget
  dsimp only
  have hpos : 0 < max P.config.epochLen 1 := by omega
  generalize max P.config.epochLen 1 = epoch at hpos ⊢
  have hdiv := Nat.div_add_mod (n + epoch - 1) epoch
  have hmod := Nat.mod_lt (n + epoch - 1) hpos
  have hmul : (n + epoch - 1) / epoch * epoch ≤ max ((n + epoch - 1) / epoch) 1 * epoch :=
    Nat.mul_le_mul_right epoch (le_max_left _ _)
  rw [Nat.mul_comm epoch] at hdiv
  omega

lemma pauseTarget_le {n m : ℕ} (hn : 0 < n) (hd : max P.config.epochLen 1 ∣ m) (hle : n ≤ m) :
    pauseTarget P n ≤ m := by
  unfold pauseTarget
  dsimp only
  have hpos : 0 < max P.config.epochLen 1 := by omega
  generalize max P.config.epochLen 1 = epoch at hpos hd ⊢
  obtain ⟨k, rfl⟩ := hd
  have hk : 0 < k := Nat.pos_of_mul_pos_left (hn.trans_le hle)
  have hquot : (n + epoch - 1) / epoch ≤ k := by
    rw [← Nat.lt_succ_iff, Nat.div_lt_iff_lt_mul hpos, Nat.succ_mul, Nat.mul_comm k]
    omega
  rw [Nat.mul_comm epoch]
  exact Nat.mul_le_mul_right epoch (max_le hquot hk)

variable (P) (req : RunRequest H σ τ) (fuel : ℕ) (injections : List ScheduledInjection)
  (timerSlot : Option ℕ)

/-- A pause after a point: stop there at an epoch point, otherwise roll forward to the next grid
point and link it. -/
def pauseAt (point : StopPoint) (boundary : Boundary) (vns : ℕ) (s : Seg H σ τ) :
    Flight H σ τ (SegmentOutcome H × Seg H σ τ) :=
  if point.epochHash then .ok (s.outcome .paused boundary vns, s)
  else do
    let s ← landAt P req fuel (pauseTarget P point.icount) s
    let boundary := s.rail.boundary P
    let vns ← clockAt P boundary.icount
    let s := s.pushLink P boundary.icount vns
    let s ← (if P.config.hashEpochs = .epochsOn ∨ req.options.paranoidHash = true then
        sinkEpoch P req boundary.icount s
      else .ok s)
    .ok (s.outcome .paused boundary vns, s)

/-- What follows the hash of a point: goal poll, final stop, pause, or on to
the next point. -/
def afterPoint (point : StopPoint) (boundary : Boundary) (vns : ℕ) (hashedEpoch : Bool)
    (s : Seg H σ τ) : Flight H σ τ (Seg H σ τ ⊕ SegmentOutcome H × Seg H σ τ) :=
  if point.goalPoll && req.goal s.rail.machine then
    .ok (.inr (finish P req.options.hashFinalStop .goalSatisfied boundary vns hashedEpoch s))
  else
    match point.finalStop with
    | some .budget =>
      .ok (.inr (finish P req.options.hashFinalStop .budgetReached boundary vns hashedEpoch s))
    | some .hardCap =>
      .ok (.inr (finish P req.options.hashFinalStop .hardCap boundary vns hashedEpoch s))
    | none =>
      if req.pause point.icount then
        (pauseAt P req fuel point boundary vns s).map .inr
      else .ok (.inl s)

def atPoint (point : StopPoint) (s : Seg H σ τ) :
    Flight H σ τ (Seg H σ τ ⊕ SegmentOutcome H × Seg H σ τ) := do
  let s ← landAt P req fuel point.icount s
  let boundary := s.rail.boundary P
  let (s, queued) ← applyInputs P req boundary point.inputs s
  let vectors := queued.map (·, none) ++
    point.injections.filterMap fun index => (injections[index]?).map (·.vector, some index)
  let s ← deliver P req fuel timerSlot true vectors s
  let vns ← clockAt P point.icount
  let hashedEpoch := point.epochHash && (point.finalStop.isNone || req.options.hashFinalEpoch)
  let s ← (if hashedEpoch then sinkEpoch P req point.icount (s.pushLink P point.icount vns)
    else .ok s)
  afterPoint P req fuel point boundary vns hashedEpoch s

def walkStep (w : AgendaIter × Seg H σ τ) :
    Fuel.Step (AgendaIter × Seg H σ τ) (Flight H σ τ (SegmentOutcome H × Seg H σ τ)) :=
  match w.1.next with
  | none => .done (.fail (.panicked "agenda always carries exactly one final stop point"))
  | some (point, it) =>
    match atPoint P req fuel injections timerSlot point w.2 with
    | .ok (.inl s) => .next (it, s)
    | .ok (.inr done) => .done (.ok done)
    | .error u => .done (.error u)

def timerToInjection (startIcount : ℕ) (timer : TimerArm) : Option ScheduledInjection := do
  let icount ← P.config.clock.icountForVnsTarget timer.deadlineVns
  some ⟨max icount (startIcount + 1), timer.vector⟩

def agendaInputs : AgendaInputs where
  startIcount := req.startIcount
  scheduledInputs := req.scheduledInputs
  injections := injections.map (·.icount)
  epochLen := epochGrid P req.options
  goalPollPeriod := req.goalPollPeriod
  finalStop := req.finalStop
  clock := P.config.clock

def settle : Flight H σ τ (SegmentOutcome H × Seg H σ τ) →
      Except (RunError H) (SegmentOutcome H × Seg H σ τ)
  | .ok done => .ok done
  | .error (.halted s) => finishAtCounter P req.options.hashFinalStop .guestHalted s
  | .error (.frameSinkStop s) => finishAtCounter P req.options.hashFinalStop .paused s
  | .error (.eventStop s) => finishAtCounter P req.options.hashFinalStop req.eventReason s
  | .error (.error e) => .error e

def startSeg (rail : Rail H σ) (chain : H) (caller : τ) : Seg H σ τ where
  rail := rail
  chain := chain
  caller := caller
  framesSeen := 0
  lastFrame := req.startFrame
  sdkEvents := 0
  pendingFrames := req.frameInputs
  consumed := []
  delivered := 0
  timerFired := none

/-- The agenda walk of a segment, from its first point to its stop. -/
def walkAgenda (it : AgendaIter) (s : Seg H σ τ) : Flight H σ τ (SegmentOutcome H × Seg H σ τ) :=
  -- Points have strictly increasing counts, so this bound is never reached.
  (Fuel.run (walkStep P req fuel injections timerSlot)
    (it.finalIcount - req.startIcount + 1) (it, s)).getD (.fail .outOfFuel)

def runSegment (P : Platform H σ X) (fuel : ℕ) (req : RunRequest H σ τ) (rail : Rail H σ)
    (chain : H) (caller : τ) : Except (RunError H) (SegmentOutcome H × Seg H σ τ) :=
  let s := startSeg req rail chain caller
  if rail.icount ≠ req.startIcount then .error (.kvm "start_icount differs from the counter")
  else if P.config.clock.vnsFromIcount req.startIcount = none then .error .clockOverflow
  else if req.awaitsSdkEvent && req.sdkFilter.isNone then .error .missingSdkEventFeed
  else if req.frameTarget = some 0 then
    finishAtCounter P req.options.hashFinalStop .budgetReached s
  else
    let timed := match req.timer with
      | none => some (req.injections, none)
      | some timer => (timerToInjection P req.startIcount timer).map fun injection =>
          (req.injections ++ [injection], some req.injections.length)
    match timed with
    | none => .error .clockOverflow
    | some (injections, timerSlot) =>
      match AgendaIter.new (agendaInputs P req injections) with
      | none => .error .agenda
      | some it => settle P req (walkAgenda P req fuel injections timerSlot it s)

end DetHypervisor
