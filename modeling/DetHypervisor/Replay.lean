import Mathlib
import DetHypervisor.RunControl

/-!
# The replay engine

`replay_segment` of `replay_engine.rs`, without bisection: walk the canonical records, verify
every epoch link, run out the tail, and compare the resealed log with the recorded one.
-/

namespace DetHypervisor

variable {H σ X : Type}

structure Audit where
  verified : ℕ
  lastEpochIcount : Option ℕ
  observed : Option ℕ
  deriving DecidableEq

inductive ReplayError (H : Type) where
  | log
  | headerMismatch (what : String)
  | run (e : RunError H)
  | stopped (what : String)
  | apply (what : String)
  | notYetWired
  | divergence (d : Divergence H)
  deriving DecidableEq

structure ReplayState (H σ : Type) where
  rail : Rail H σ
  chain : H
  audit : Audit
  marks : List (Record H)
  recordsApplied : ℕ

structure ReplayOutcome (H : Type) where
  recordsApplied : ℕ
  epochHashesVerified : ℕ
  endIcount : ℕ
  endStateHash : H
  resealed : SealedLog H
  deriving DecidableEq

/-! ## What a replay reads off the log -/

def stopReasonU8 : StopReason → ℕ
  | .budgetReached => 1
  | .goalSatisfied => 2
  | .nextSdkEvent => 3
  | .hardCap => 4
  | .paused => 5
  | .guestHalted => 6

def stopReasonFromU8 : ℕ → Option StopReason
  | 1 => some .budgetReached
  | 2 => some .goalSatisfied
  | 3 => some .nextSdkEvent
  | 4 => some .hardCap
  | 5 => some .paused
  | 6 => some .guestHalted
  | _ => none

/-- Counts at which an EPOCH_HASH follows a canonical record; `saw` is whether one was seen at
`current`. -/
def scanEpochAfterCanonical : Option ℕ → Bool → List (Record H) → List ℕ
  | _, _, [] => []
  | current, saw, r :: rs =>
    let saw := saw && decide (current = some r.icount)
    match r.body with
    | .padSet .. | .netRx .. | .devEvent .. =>
      scanEpochAfterCanonical (some r.icount) true rs
    | .epochHash .. =>
      if saw then r.icount :: scanEpochAfterCanonical (some r.icount) saw rs
      else scanEpochAfterCanonical (some r.icount) saw rs
    | _ => scanEpochAfterCanonical (some r.icount) saw rs

namespace SealedLog

def epochAfterCanonical (log : SealedLog H) : List ℕ :=
  scanEpochAfterCanonical none false log.records

def sdkAt (icount : ℕ) (r : Record H) : Option SdkEvent :=
  match r.body with
  | .sdkEvent event => if r.icount = icount then some event else none
  | _ => none

/-- `terminal_sdk_target_for_tail`: the last SDK event at the end count. -/
def terminalSdkTarget (log : SealedLog H) : Option SdkEvent :=
  (log.records.filterMap (sdkAt log.ending.endIcount)).getLast?

end SealedLog

def RecordBody.input? : RecordBody H → Option InputKind
  | .padSet port buttons frameHint => some (.padSet port buttons frameHint)
  | .netRx frame => some (.netRx frame)
  | .devEvent deviceId eventType data => some (.devEvent deviceId eventType data)
  | _ => none

def noteTerminal (target : Option SdkEvent) (icount : ℕ) (events : List SdkEvent)
    (a : Audit) : Audit :=
  match target with
  | some event =>
    if event ∈ events then
      { a with observed := some (match a.observed with
          | some previous => min previous icount
          | none => icount) }
    else a
  | none => a

section

variable [DecidableEq H]

/-- The epoch sink of a replay: compare with the recording, then log. -/
def verifyEpoch (expected : List (ℕ × ℕ × H)) (index icount : ℕ) (value : H)
    (w : LogWriter H × Audit) : Except (BoundaryError H) (LogWriter H × Audit) :=
  match expected[w.2.verified]? with
  | none => .error (.divergence
      ⟨"EPOCH_HASH the recording does not have", icount, none, some value⟩)
  | some (eIndex, eIcount, eValue) =>
    if eIndex = index ∧ eIcount = icount ∧ eValue = value then
      match w.1.record icount 0 (.epochHash index value) with
      | .ok log => .ok (log, { w.2 with
          verified := w.2.verified + 1, lastEpochIcount := some icount })
      | .error e => .error (.append "epoch log" e)
    else .error (.divergence ⟨"EPOCH_HASH chain value", icount, some eValue, some value⟩)

variable (P : Platform H σ X) (fuel : ℕ) (base : Restored H σ) (log : SealedLog H)

def replayRequest (startIcount : ℕ) (stop : Until) (hashFinalStop hashFinalEpoch : Bool) :
    RunRequest H σ Audit where
  startIcount := startIcount
  stop := stop
  options := { hashFinalStop, hashFinalEpoch }
  inputs := []
  startFrame := 0
  injections := []
  timer := none
  goal := fun _ => false
  pause := fun _ => false
  frameStop := fun _ => false
  liveInputs := fun _ => []
  sdkFilter := none
  noteExit := noteTerminal log.terminalSdkTarget
  epochSink := verifyEpoch log.epochs

/-- A run error as replay reports it; a recorded divergence takes precedence. -/
def ReplayError.ofRun : RunError H → ReplayError H
  | .boundary (.divergence d) => .divergence d
  | e => .run e

/-- The stop condition of a quantum; a frame run may overshoot by a margin. -/
def quantumStop (distance : ℕ) : Option ℕ → Option Until
  | some frames => (checkedAdd distance 1000000).map (Until.frameBudget frames)
  | none => some (.icountBudget distance)

/-- `run_to`: one quantum up to `target`, or on to the next frame. -/
def runTo (target : ℕ) (hashFinalStop hashFinalEpoch : Bool) (frameBudget : Option ℕ)
    (st : ReplayState H σ) : Except (ReplayError H) (Option (SegmentOutcome H) × ReplayState H σ) :=
  let start := st.rail.icount
  if target < start then .error (.apply "record icount is behind the replay position")
  else if target = start ∧ frameBudget = none then .ok (none, st)
  else
    match quantumStop (target - start) frameBudget with
    | none => .error (.apply "FrameBudget hard cap overflows")
    | some stop =>
      match runSegment P fuel (replayRequest log start stop hashFinalStop hashFinalEpoch)
          st.rail st.chain st.audit with
      | .ok (out, s) =>
        .ok (some out, { st with rail := s.rail, chain := s.chain, audit := s.caller })
      | .error e => .error (.ofRun e)

def requireLanded (out : Option (SegmentOutcome H)) (target : ℕ) : Except (ReplayError H) Unit :=
  match out with
  | none => .ok ()
  | some o =>
    if o.reason = .budgetReached ∧ o.boundary.icount = target then .ok ()
    else .error (.stopped "expected to land at the record")

def pushReplayLink (icount vns : ℕ) (st : ReplayState H σ) : ReplayState H σ :=
  { st with chain := P.link st.chain (P.image st.rail.machine) icount vns }

/-- `verify_current_epoch!`: the deferred epoch link at the position where the
last canonical record of its count was applied. -/
def verifyCurrentEpoch (icount : ℕ) (st : ReplayState H σ) :
    Except (ReplayError H) (ReplayState H σ) :=
  match log.epochs[st.audit.verified]? with
  | none => .ok st
  | some (eIndex, eIcount, eValue) =>
    if eIcount ≠ icount then .ok st
    else
      match P.config.clock.vnsFromIcount icount with
      | none => .error (.run .clockOverflow)
      | some vns =>
        let st := pushReplayLink P icount vns st
        let index := icount / max P.config.epochLen 1
        if eIndex ≠ index ∨ eValue ≠ st.chain then
          .error (.divergence
            ⟨"EPOCH_HASH chain value", icount, some eValue, some st.chain⟩)
        else
          match st.rail.append icount 0 (.epochHash index st.chain) with
          | .error _ => .error (.apply "epoch log")
          | .ok rail => .ok { st with
              rail
              audit := { st.audit with
                verified := st.audit.verified + 1, lastEpochIcount := some icount } }

/-! ## The canonical walk -/

/-- `replay_frame_marks_before!`: replay the frame marks that precede a
position, each as a one-frame run. -/
def replayFrameMarksBefore (P : Platform H σ X) (fuel : ℕ) (log : SealedLog H)
    (seqLimit icountLimit : ℕ) (defer : Bool) :
    List (Record H) → ReplayState H σ → Except (ReplayError H) (ReplayState H σ)
  | [], st => .ok { st with marks := [] }
  | mark :: marks, st =>
    if icountLimit < mark.icount ∨ (mark.icount = icountLimit ∧ seqLimit ≤ mark.seq) then
      .ok { st with marks := mark :: marks }
    else do
      let (out, st) ← runTo P fuel log mark.icount false
        (!(decide (mark.icount = icountLimit) && defer)) (some 1) { st with marks }
      match out with
      | some o =>
        if o.reason = .budgetReached ∧ o.boundary.icount = mark.icount ∧
            o.framesElapsed = 1 then
          replayFrameMarksBefore P fuel log seqLimit icountLimit defer marks st
        else .error (.stopped "expected to replay FRAME_MARK")
      | none => .error (.stopped "expected to replay FRAME_MARK, but no run occurred")

def applyRecord (r : Record H) (kind : InputKind) (defer last : Bool) (st : ReplayState H σ) :
    Except (ReplayError H) (ReplayState H σ) := do
  let (out, st) ← runTo P fuel log r.icount false (!defer) none st
  requireLanded out r.icount
  match st.rail.applyInput P kind r.icount r.boundaryRip with
  | .error _ => .error (.apply "record refused by its device or the log")
  | .ok (_, some _) => .error .notYetWired
  | .ok (rail, none) =>
    let st := { st with rail }
    let st ← (if last && defer then verifyCurrentEpoch P log r.icount st else .ok st)
    .ok { st with recordsApplied := st.recordsApplied + 1 }

def replayCanonical (P : Platform H σ X) (fuel : ℕ) (log : SealedLog H) :
    List (Record H) → ReplayState H σ → Except (ReplayError H) (ReplayState H σ)
  | [], st => .ok st
  | r :: rest, st => do
      let defer := log.epochAfterCanonical.contains r.icount
      let st ← replayFrameMarksBefore P fuel log r.seq r.icount defer st.marks st
      match r.body.input? with
      | none => .error (.apply "unexpected canonical record in v1 replay")
      | some kind =>
        if regenerated P r then replayCanonical P fuel log rest st
        else do
          let last := decide (rest.head?.map Record.icount ≠ some r.icount)
          let st ← applyRecord P fuel log r kind defer last st
          replayCanonical P fuel log rest st

def terminalTailMatches (finish : SegmentOutcome H) (observed endIcount : ℕ)
    (expected : StopReason) : Bool :=
  decide (finish.reason = .budgetReached ∧ finish.boundary.icount = endIcount) ||
    decide (expected = .budgetReached ∧ finish.reason = .guestHalted ∧
      observed ≤ finish.boundary.icount ∧ finish.boundary.icount ≤ endIcount)

def substitutionAllowed (tail : Option (SegmentOutcome H)) (observed : Option ℕ)
    (endIcount : ℕ) (expected : StopReason) : Bool :=
  match tail, observed with
  | some out, some seen =>
    decide (expected = .budgetReached ∧ out.reason = .guestHalted ∧
      seen ≤ out.boundary.icount ∧ out.boundary.icount < endIcount)
  | _, _ => false

def endVnsDivergence : ReplayError H := .divergence ⟨"end_vns", log.ending.endIcount, none, none⟩

/-- The tail of a log whose last SDK event lies at its end: run to the end
without the final link, drain the channel there, then link. -/
def terminalTail (expected : StopReason) (target : SdkEvent) (st : ReplayState H σ) :
    Except (ReplayError H) (Option (SegmentOutcome H) × ReplayState H σ) := do
  let endIcount := log.ending.endIcount
  let (tail, st) ← runTo P fuel log endIcount false true none st
  match st.rail.drainAtPause P endIcount with
  | .error e => .error (.run (.boundary e))
  | .ok (rail, es) =>
    let st := { st with
      rail
      audit := noteTerminal (some target) endIcount (es.filterMap Emit.sdk?) st.audit }
    match st.audit.observed with
    | none => .error (.stopped "tail did not observe terminal SDK event")
    | some observed =>
      match tail with
      | none => .ok (none, st)
      | some out =>
        if terminalTailMatches out observed endIcount expected = false then
          .error (.stopped "tail stopped elsewhere")
        else if out.boundary.icount = endIcount then
          if out.vns ≠ log.ending.endVns then .error (endVnsDivergence log)
          else .ok (tail, pushReplayLink P endIcount log.ending.endVns st)
        else .ok (tail, st)

def exactTail (expected : StopReason) (st : ReplayState H σ) :
    Except (ReplayError H) (Option (SegmentOutcome H) × ReplayState H σ) := do
  let (tail, st) ← runTo P fuel log log.ending.endIcount true true none st
  match tail with
  | none => .ok (none, st)
  | some out =>
    if (out.reason = .budgetReached ∨
          (out.reason = .guestHalted ∧ expected = .guestHalted)) ∧
        out.boundary.icount = log.ending.endIcount then
      if out.vns ≠ log.ending.endVns then .error (endVnsDivergence log)
      else .ok (tail, st)
    else .error (.stopped "tail stopped elsewhere")

def linkAtEnd (tail : Option (SegmentOutcome H)) (st : ReplayState H σ) : ReplayState H σ :=
  if tail.isNone && decide (st.rail.icount = log.ending.endIcount) &&
      decide (st.audit.lastEpochIcount ≠ some log.ending.endIcount) then
    pushReplayLink P log.ending.endIcount log.ending.endVns st
  else st

/-- The retry for a segment sealed after a terminal HLT: from the chain before
the tail, one more instruction may run. -/
def haltRetry (chainBeforeTail liveEnd : H) (st : ReplayState H σ) :
    Except (ReplayError H) (H × ReplayState H σ) :=
  match checkedAdd log.ending.endIcount 1 with
  | none => .error (.apply "BudgetReached HLT retry overflows")
  | some target => do
      let (out, st) ← runTo P fuel log target true true none { st with chain := chainBeforeTail }
      match out with
      | some o =>
        if o.reason = .guestHalted ∧ o.boundary.icount = log.ending.endIcount then
          if o.vns ≠ log.ending.endVns then .error (endVnsDivergence log)
          else .ok (st.chain, st)
        else .ok (liveEnd, st)
      | none => .ok (liveEnd, st)

/-- The value replay compares with `end_state_hash`: the live chain value, the recorded one
where the early halt allows it, or that of the HLT retry. -/
def liveEndOf (expected : StopReason) (verifiedBeforeTail : ℕ) (chainBeforeTail : H)
    (tail : Option (SegmentOutcome H)) (st : ReplayState H σ) :
    Except (ReplayError H) (H × ReplayState H σ) :=
  let liveEnd :=
    if st.chain ≠ log.ending.endStateHash ∧ log.terminalSdkTarget.isSome = true ∧
        substitutionAllowed tail st.audit.observed log.ending.endIcount expected = true then
      log.ending.endStateHash
    else st.chain
  let exact := match tail with
    | some out => decide (out.reason = .budgetReached ∧
        out.boundary.icount = log.ending.endIcount)
    | none => false
  if liveEnd ≠ log.ending.endStateHash ∧ log.terminalSdkTarget = none ∧
      expected = .budgetReached ∧ exact = true ∧ st.audit.verified = verifiedBeforeTail then
    haltRetry P fuel log chainBeforeTail liveEnd st
  else .ok (liveEnd, st)

/-! ## The reseal comparison -/

/-- A record without its sequence number; with `normalize` also without the position of what the
channel generates. -/
structure ComparableRecord (H : Type) where
  icount : ℕ
  boundaryRip : ℕ
  body : RecordBody H
  deriving DecidableEq

def isSdkEvent : RecordBody H → Bool
  | .sdkEvent _ => true
  | _ => false

def comparable (normalize : Bool) (r : Record H) : ComparableRecord H :=
  if normalize && (isSdkEvent r.body || r.isChannelGenerated) then ⟨0, 0, r.body⟩
  else ⟨r.icount, r.boundaryRip, r.body⟩

def comparableRecords (normalize : Bool) (log : SealedLog H) : List (ComparableRecord H) :=
  (log.records.filter fun r => !r.body.isCheckpoint).map (comparable normalize)

/-- The records that are compared one by one, with their counts; END, which is AUX, stands last. -/
def comparedRecords : List (ℕ × Option (Record H)) :=
  ((log.records.filter fun r => !r.body.isCheckpoint).map fun r => (r.icount, some r)) ++
    [(log.ending.endIcount, none)]

def hasCheckpoint : Bool := log.records.any fun r => r.body.isCheckpoint

def resealEquivalent (replayed recorded : SealedLog H) : Bool :=
  decide (replayed.header = recorded.header ∧ replayed.ending = recorded.ending ∧
      replayed.epochs.isEmpty = recorded.epochs.isEmpty) &&
    (((hasCheckpoint recorded || hasCheckpoint replayed) &&
        decide (comparableRecords false replayed = comparableRecords false recorded)) ||
      (decide (comparableRecords false replayed ≠ comparableRecords false recorded) &&
        decide (comparableRecords true replayed = comparableRecords true recorded)))

def RecordBody.isChannelEvent (eventType : ℕ) : RecordBody H → Bool
  | .devEvent deviceId event _ => deviceId = deviceIdDetchannel && event = eventType
  | _ => false

def classifyResealRecordDrift (e g : Option (ℕ × Option (Record H))) : Option (String × ℕ) :=
  let (x, y) := (e.bind Prod.snd, g.bind Prod.snd)
  let either (p : RecordBody H → Bool) := x.any (p ·.body) || y.any (p ·.body)
  let report (what : String) := some (what, ((e.or g).map Prod.fst).getD 0)
  if x.map (comparable true) = y.map (comparable true) then none
  else if either (·.isChannelEvent eventPioAnswer) then report "pio_answer_mismatch"
  else if either (·.isChannelEvent eventConsBump) then report "channel_mutation_drift"
  else if either (·.isCanonical) then report "skipped_input"
  else none

/-- Which difference of a resealed log is reported; the hashes and the byte offset are left out. -/
def classifyResealDivergence (resealed : SealedLog H) : ReplayError H :=
  match (List.zipWithAll classifyResealRecordDrift (comparedRecords log)
      (comparedRecords resealed)).findSome? id with
  | some (what, icount) => .divergence ⟨what, icount, none, none⟩
  | none => .divergence ⟨"resealed log bytes", log.ending.endIcount, none, none⟩

/-- The comparisons at the end. The inject plan is not modelled, nor that its answers were all
consumed. -/
def concludeReplay (expected : StopReason) (liveEnd : H) (st : ReplayState H σ) :
    Except (ReplayError H) (ReplayOutcome H) :=
  if st.audit.verified ≠ log.epochs.length then
    .error (.divergence ⟨"EPOCH_HASH count (recording has more than replay produced)",
      log.ending.endIcount, none, none⟩)
  else if liveEnd ≠ log.ending.endStateHash then
    .error (.divergence ⟨"end_state_hash", log.ending.endIcount,
      some log.ending.endStateHash, some liveEnd⟩)
  else
    match st.rail.log.seal
        ⟨log.ending.endSnapshotId, log.ending.endIcount, log.ending.endVns, liveEnd,
          stopReasonU8 expected⟩ with
    | .error _ => .error (.apply "reseal")
    | .ok resealed =>
      if resealed ≠ log ∧ resealEquivalent resealed log = false then
        .error (classifyResealDivergence log resealed)
      else .ok ⟨st.recordsApplied, st.audit.verified, log.ending.endIcount, liveEnd, resealed⟩

def startReplay : ReplayState H σ where
  rail := ⟨startMachine P base log.header.entropySeed, 0, LogWriter.new log.header⟩
  chain := base.chain
  audit := ⟨0, none, none⟩
  marks := log.frameMarks
  recordsApplied := 0

/-- The walk over canonical records and the frame marks behind the last one. -/
def replayWalk (st : ReplayState H σ) : Except (ReplayError H) (ReplayState H σ) := do
  let st ← replayCanonical P fuel log log.canonical st
  replayFrameMarksBefore P fuel log (2 ^ 32 - 1) log.ending.endIcount false st.marks st

def replayTail (expected : StopReason) (st : ReplayState H σ) :
    Except (ReplayError H) (Option (SegmentOutcome H) × ReplayState H σ) := do
  let (tail, st) ← (match log.terminalSdkTarget with
    | some target => terminalTail P fuel log expected target st
    | none => exactTail P fuel log expected st)
  .ok (tail, linkAtEnd P log tail st)

/-- The three header checks against snapshot and configuration. -/
def checkHeader : Except (ReplayError H) Unit :=
  if log.header.baseSnapshotId ≠ base.snapshotId then .error (.headerMismatch "base_snapshot_id")
  else if log.header.machineConfigHash ≠ P.config.configHash then
    .error (.headerMismatch "machine_config_hash")
  else if log.header.clockNum ≠ P.config.clock.num ∨ log.header.clockDen ≠ P.config.clock.den then
    .error (.headerMismatch "clock ratio")
  else .ok ()

/-- The end of a replay: the state it ended in and its verdict. -/
def replayFrom (expected : StopReason) (st : ReplayState H σ) :
    Except (ReplayError H) (ReplayState H σ × ReplayOutcome H) := do
  let st ← replayWalk P fuel log st
  let before := st
  let (tail, st) ← replayTail P fuel log expected st
  let (liveEnd, st) ← liveEndOf P fuel log expected before.audit.verified before.chain tail st
  let outcome ← concludeReplay log expected liveEnd st
  .ok (st, outcome)

/-- `replay_segment`. `VerifyReplay` builds its inject plan before (`from_reader`, which refuses a
PIO_ANSWER that is not 8 bytes long); plan and check are not modelled, the platform's channel gives
its answers itself. -/
def replaySegment : Except (ReplayError H) (ReplayOutcome H) := do
  if log.wellFormed = false then .error .log
  else
    checkHeader P base log
    match stopReasonFromU8 log.ending.stopReason with
    | none => .error (.apply "unknown END stop_reason")
    | some expected => (replayFrom P fuel log expected (startReplay P base log)).map Prod.snd

end

end DetHypervisor
