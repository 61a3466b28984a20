import DetHypervisor.DeviceBus
import DetHypervisor.DhilogRoundTrip
import DetHypervisor.LocalApic

/-!
# The device rail

All that the exits of a log segment touch. An input changes its device first and is logged
second; a failure of the second half is fatal to the slot and is not undone.
-/

namespace DetHypervisor.Devices

open Bytes Dhilog Checked
open Lapic (LocalApic LapicError)

variable {χ : Type}

/-- `VcpuExit`, with the sizes of the buffers that the host fills. -/
inductive Exit where
  | ioOut (port : UInt16) (data : List UInt8)
  | ioIn (port : UInt16) (len : ℕ)
  | mmioRead (gpa : UInt64) (len : ℕ)
  | mmioWrite (gpa : UInt64) (data : List UInt8)
  | x86Rdmsr (index : UInt32)
  | x86Wrmsr (index : UInt32) (data : UInt64)
  | other (exit : String)

/-- What the guest is given: bytes for its read, or the value and the error flag of
an MSR access. -/
inductive Reply where
  | none
  | bytes (data : List UInt8)
  | msr (data : Option UInt64) (error : UInt8)

inductive ExitError where
  | lapicMmioRead (gpa : UInt64) (e : Trap LapicError)
  | lapicMmioWrite (gpa : UInt64) (e : Trap LapicError)
  | lapicRdmsr (index : UInt32) (e : Trap LapicError)
  | lapicWrmsr (index : UInt32) (e : Trap LapicError)
  | busRead (gpa : UInt64) (e : BusError)
  | busWrite (gpa : UInt64) (e : BusError)
  | unexpectedExit (exit : String)
  | logFault (e : WriteError)

inductive MsrAction where
  | supplyValue (value : UInt64)
  | ackWrite
  | injectGp

def msrIa32BiosSignId : UInt32 := 0x8B

def onDeniedRdmsr (_index : UInt32) : MsrAction := .supplyValue 0

def onDeniedWrmsr (index : UInt32) : MsrAction :=
  if index = msrIa32BiosSignId then .ackWrite else .injectGp

inductive RecordError where
  | pad (e : PadError)
  | net (e : NetRxError)
  | log (e : WriteError)
  | noDevice (what : String)
  | undrainedIrqs (n : ℕ)

structure FiredTimer where
  vector : UInt8
  armedDeadlineVns : UInt64
  deliveredIcount : UInt64

structure RailOutcome where
  icount : UInt64
  vns : UInt64
  stateHash : Hash
  reason : StopReason

def stopReasonU8 : StopReason → UInt8
  | .budgetReached => 1
  | .goalSatisfied => 2
  | .nextSdkEvent => 3
  | .hardCap => 4
  | .paused => 5
  | .guestHalted => 6

structure DeviceRail (χ : Type) where
  bus : MmioBus χ
  lapic : LocalApic
  serial : DebugSerial
  entropy : DetEntropy
  log : Dhilog.LogWriter
  mem : GuestRam
  irqs : List UInt8

namespace DeviceRail

def new (bus : MmioBus χ) (entropy : DetEntropy) (log : Dhilog.LogWriter) (mem : GuestRam) :
    DeviceRail χ := ⟨bus, .default, .new, entropy, log, mem, []⟩

variable (P : Primitives) (r : DeviceRail χ) (icount : UInt64)

def ctx (boundaryRip : UInt64) (host : ℕ → Bool) : DevCtx where
  icount := icount
  boundaryRip := boundaryRip
  log := r.log
  ram := r.mem
  entropy := r.entropy
  irqQueue := r.irqs
  logFault := none
  host := host

def leave (bus : MmioBus χ) (c : DevCtx) : DeviceRail χ :=
  { r with bus := bus, entropy := c.entropy, log := c.log, mem := c.ram, irqs := c.irqQueue }

def isSerialPort (port : UInt16) : Bool :=
  decide (DebugSerial.pioBase ≤ port.toNat ∧ port.toNat < DebugSerial.pioBase + DebugSerial.pioLen)

def checkLogFault (c : DevCtx) : Except ExitError Reply :=
  match c.logFault with
  | none => .ok .none
  | some e => .error (.logFault e)

def serviceExit (exit : Exit) (host : ℕ → Bool) : Except ExitError Reply × DeviceRail χ :=
  match exit with
  | .ioOut port data =>
    if isSerialPort port then
      (.ok .none, { r with serial := r.serial.pioWrite port.toNat data })
    else (.ok .none, r)
  | .ioIn port len =>
    if isSerialPort port then (.ok (.bytes (DebugSerial.pioRead port.toNat len)), r)
    else (.ok (.bytes (zeros len)), r)
  | .mmioRead gpa len =>
    if LocalApic.containsMmio gpa then
      match r.lapic.readMmio gpa len with
      | .ok data => (.ok (.bytes data), r)
      | .error e => (.error (.lapicMmioRead gpa e), r)
    else
      match r.bus.read icount gpa.toNat len with
      | .ok data => (.ok (.bytes data), r)
      | .error e => (.error (.busRead gpa e), r)
  | .mmioWrite gpa data =>
    if LocalApic.containsMmio gpa then
      match r.lapic.writeMmio gpa data with
      | (.ok _, lapic) => (.ok .none, { r with lapic := lapic })
      | (.error e, lapic) => (.error (.lapicMmioWrite gpa e), { r with lapic := lapic })
    else
      match r.bus.write P gpa.toNat data (r.ctx icount 0 host) with
      | (.ok _, bus, c) => (checkLogFault c, r.leave bus c)
      | (.error e, bus, c) => (.error (.busWrite gpa e), r.leave bus c)
  | .x86Rdmsr index =>
    if LocalApic.isLapicMsr index then
      match r.lapic.readMsr index with
      | .ok value => (.ok (.msr (some value) 0), r)
      | .error e => (.error (.lapicRdmsr index e), r)
    else
      match onDeniedRdmsr index with
      | .supplyValue value => (.ok (.msr (some value) 0), r)
      | .ackWrite | .injectGp => (.ok (.msr none 1), r)
  | .x86Wrmsr index data =>
    if LocalApic.isLapicMsr index then
      match r.lapic.writeMsr index data with
      | (.ok _, lapic) => (.ok (.msr none 0), { r with lapic := lapic })
      | (.error e, lapic) => (.error (.lapicWrmsr index e), { r with lapic := lapic })
    else
      match onDeniedWrmsr index with
      | .supplyValue _ | .ackWrite => (.ok (.msr none 0), r)
      | .injectGp => (.ok (.msr none 1), r)
  | .other exit => (.error (.unexpectedExit exit), r)

/-- The second half of every paired operation: the record, and then the vector. -/
def land (call : Call) (vector : Option UInt8) : Except RecordError (Option UInt8) × DeviceRail χ :=
  match r.log.append call with
  | .error e => (.error (.log e), r)
  | .ok log => (.ok vector, { r with log := log, irqs := r.irqs ++ vector.toList })

def applyPadSet (r : DeviceRail χ) (icount boundaryRip : UInt64) (port : UInt8)
    (buttons frameHint : UInt32) : Except RecordError (Option UInt8) × DeviceRail χ :=
  match r.bus.first Device.pad? with
  | none => (.error (.noDevice "pv-pad"), r)
  | some (base, pad) =>
    match pad.applyPadSet port buttons with
    | .error e => (.error (.pad e), r)
    | .ok (vector, pad') =>
      { r with bus := r.bus.set base (.pad pad') }.land
        ⟨icount, boundaryRip, .padSet port buttons frameHint⟩ vector

def applyNetRx (r : DeviceRail χ) (icount boundaryRip : UInt64) (frame : List UInt8) :
    Except RecordError (Option UInt8) × DeviceRail χ :=
  match r.bus.first Device.net? with
  | none => (.error (.noDevice "pv-net"), r)
  | some (base, net) =>
    match net.applyNetRx frame r.mem with
    | (.error e, mem) => (.error (.net e), { r with mem := mem })
    | (.ok (vector, net'), mem) =>
      { r with bus := r.bus.set base (.net net'), mem := mem }.land
        ⟨icount, boundaryRip, .netRx frame⟩ vector

def applyDevEvent (boundaryRip : UInt64) (deviceId eventType : UInt16) (payload : List UInt8) :
    Except RecordError (Option UInt8) × DeviceRail χ :=
  r.land ⟨icount, boundaryRip, .devEvent deviceId eventType payload⟩ none

/-- The frame behind the transmit registers, for a doorbell that was answered OK. -/
def drainNetTx : Except RecordError (Option (List UInt8)) :=
  match r.bus.first Device.net? with
  | none => .error (.noDevice "pv-net")
  | some (_, net) =>
    let (gpa, len, status) := net.txRegs
    if status ≠ PvNet.statusOk ∨ len = 0 then .ok none
    else if PvNet.maxFrame < len.toNat then .error (.net .frameTooBig)
    else
      match r.mem.read gpa.toNat len.toNat with
      | .error _ => .error (.net .memFault)
      | .ok frame => .ok (some frame)

def logTimerFired (boundaryRip : UInt64) (fired : FiredTimer) :
    Except RecordError (Option UInt8) × DeviceRail χ :=
  match r.bus.first Device.clock? with
  | none => (.error (.noDevice "pv-clock"), r)
  | some (base, clk) =>
    { r with bus := r.bus.set base (.clock clk.disarm) }.land
      ⟨icount, boundaryRip,
        .timerFire fired.vector fired.armedDeadlineVns fired.deliveredIcount⟩ none

def setClockVnsBase (vns : UInt64) : Except RecordError (Option UInt8) × DeviceRail χ :=
  match r.bus.first Device.clock? with
  | none => (.error (.noDevice "pv-clock"), r)
  | some (base, clk) => (.ok none, { r with bus := r.bus.set base (.clock (clk.setVnsBase vns)) })

def logEpochHash (epochIndex icount : UInt64) (chainValue : Hash) :
    Except RecordError (Option UInt8) × DeviceRail χ :=
  r.land ⟨icount, 0, .epochHash epochIndex chainValue⟩ none

def logBisectionCheckpoint (boundaryRip : UInt64) (maxCoveredGap : UInt32)
    (checkpointSnapshotRef : Hash) (checkpointVns : UInt64) :
    Except RecordError (Option UInt8) × DeviceRail χ :=
  r.land ⟨icount, boundaryRip,
    .bisectionCheckpoint maxCoveredGap checkpointSnapshotRef checkpointVns⟩ none

def «seal» (outcome : RailOutcome) (endSnapshotId : Hash) : Except RecordError (List UInt8) :=
  if r.irqs ≠ [] then .error (.undrainedIrqs r.irqs.length)
  else
    match r.log.seal P.blake3
        { endSnapshotId := endSnapshotId
          endIcount := outcome.icount
          endVns := outcome.vns
          endStateHash := outcome.stateHash
          stopReason := stopReasonU8 outcome.reason } with
    | .error e => .error (.log e)
    | .ok image => .ok image

end DeviceRail

/-- The methods of the rail, and what happens to its public fields in between: run
control takes the vectors, the guest runs. -/
inductive RailOp where
  | serviceExit (icount : UInt64) (exit : Exit) (host : ℕ → Bool)
  | applyPadSet (icount boundaryRip : UInt64) (port : UInt8) (buttons frameHint : UInt32)
  | applyNetRx (icount boundaryRip : UInt64) (frame : List UInt8)
  | applyDevEvent (icount boundaryRip : UInt64) (deviceId eventType : UInt16)
      (payload : List UInt8)
  | drainNetTx
  | logTimerFired (icount boundaryRip : UInt64) (fired : FiredTimer)
  | setClockVnsBase (vns : UInt64)
  | logEpochHash (epochIndex icount : UInt64) (chainValue : Hash)
  | logBisectionCheckpoint (icount boundaryRip : UInt64) (maxCoveredGap : UInt32)
      (checkpointSnapshotRef : Hash) (checkpointVns : UInt64)
  | takeIrqs
  | guestRuns (mem : GuestRam)

inductive RailError where
  | exit (e : ExitError)
  | record (e : RecordError)

inductive RailAnswer where
  | reply (reply : Reply)
  | landed (vector : Option UInt8)
  | frame (frame : Option (List UInt8))
  | irqs (vectors : List UInt8)
  | ran

namespace RailAnswer

def queued : RailAnswer → List UInt8
  | landed vector => vector.toList
  | _ => []

def taken : RailAnswer → List UInt8
  | irqs vectors => vectors
  | _ => []

end RailAnswer

/-- The canonical record of an operation that applies an input. -/
def RailOp.input : RailOp → Option Call
  | applyPadSet icount boundaryRip port buttons frameHint =>
    some ⟨icount, boundaryRip, .padSet port buttons frameHint⟩
  | applyNetRx icount boundaryRip frame => some ⟨icount, boundaryRip, .netRx frame⟩
  | applyDevEvent icount boundaryRip deviceId eventType payload =>
    some ⟨icount, boundaryRip, .devEvent deviceId eventType payload⟩
  | _ => none

def RailOp.onlyLogs : RailOp → Bool
  | applyDevEvent .. | logEpochHash .. | logBisectionCheckpoint .. => true
  | _ => false

def RailError.IsLog : RailError → Prop
  | exit (.logFault _) | record (.log _) => True
  | _ => False

namespace DeviceRail

def answer {α : Type} (f : α → RailAnswer) (res : Except RecordError α × DeviceRail χ) :
    Except RailError RailAnswer × DeviceRail χ :=
  (match res.1 with
    | .ok a => .ok (f a)
    | .error e => .error (.record e), res.2)

def perform (P : Primitives) (r : DeviceRail χ) :
    RailOp → Except RailError RailAnswer × DeviceRail χ
  | .serviceExit icount exit host =>
    let res := r.serviceExit P icount exit host
    (match res.1 with
      | .ok reply => .ok (.reply reply)
      | .error e => .error (.exit e), res.2)
  | .applyPadSet icount boundaryRip port buttons frameHint =>
    answer .landed (r.applyPadSet icount boundaryRip port buttons frameHint)
  | .applyNetRx icount boundaryRip frame =>
    answer .landed (r.applyNetRx icount boundaryRip frame)
  | .applyDevEvent icount boundaryRip deviceId eventType payload =>
    answer .landed (r.applyDevEvent icount boundaryRip deviceId eventType payload)
  | .drainNetTx => answer .frame (r.drainNetTx, r)
  | .logTimerFired icount boundaryRip fired =>
    answer .landed (r.logTimerFired icount boundaryRip fired)
  | .setClockVnsBase vns => answer .landed (r.setClockVnsBase vns)
  | .logEpochHash epochIndex icount chainValue =>
    answer .landed (r.logEpochHash epochIndex icount chainValue)
  | .logBisectionCheckpoint icount boundaryRip maxCoveredGap ref checkpointVns =>
    answer .landed (r.logBisectionCheckpoint icount boundaryRip maxCoveredGap ref checkpointVns)
  | .takeIrqs => (.ok (.irqs r.irqs), { r with irqs := [] })
  | .guestRuns mem => (.ok .ran, { r with mem := mem })

def Step (P : Primitives) (l : RailOp × Except RailError RailAnswer) (r r' : DeviceRail χ) : Prop :=
  r.perform P l.1 = (l.2, r')

variable {P : Primitives} {r r' : DeviceRail χ}

lemma land_cases (r : DeviceRail χ) (call : Call) (vector : Option UInt8) :
    (∃ e, r.log.append call = .error e ∧ r.land call vector = (.error (.log e), r)) ∨
    ∃ log, r.log.append call = .ok log ∧
      r.land call vector =
        (.ok vector, { r with log := log, irqs := r.irqs ++ vector.toList }) := by
  cases happ : r.log.append call with
  | error e => exact .inl ⟨e, rfl, by rw [land, happ]⟩
  | ok log => exact .inr ⟨log, rfl, by rw [land, happ]⟩

lemma serviceExit_cases (P : Primitives) (r : DeviceRail χ) (icount : UInt64) (exit : Exit)
    (host : ℕ → Bool) : (∃ e, ¬(RailError.exit e).IsLog ∧
      r.serviceExit P icount exit host = (.error e, r)) ∨
    (∃ reply lapic serial, r.serviceExit P icount exit host =
      (.ok reply, { r with lapic := lapic, serial := serial }) ∧
      ∀ gpa data, exit = .mmioWrite gpa data → LocalApic.containsMmio gpa = true) ∨
    ∃ gpa data base dev, exit = .mmioWrite gpa data ∧ LocalApic.containsMmio gpa = false ∧
      r.bus.lookup gpa.toNat = .ok (base, dev) ∧
      r.serviceExit P icount exit host =
        (checkLogFault (dev.mmioWrite P (gpa.toNat - base) data (r.ctx icount 0 host)).2,
          r.leave (r.bus.set base (dev.mmioWrite P (gpa.toNat - base) data (r.ctx icount 0 host)).1)
            (dev.mmioWrite P (gpa.toNat - base) data (r.ctx icount 0 host)).2) := by
  cases exit with
  | ioOut port data =>
    rw [serviceExit]
    split_ifs
    · exact .inr (.inl ⟨_, r.lapic, _, rfl, nofun⟩)
    · exact .inr (.inl ⟨_, r.lapic, r.serial, rfl, nofun⟩)
  | ioIn port len =>
    rw [serviceExit]
    split_ifs <;> exact .inr (.inl ⟨_, r.lapic, r.serial, rfl, nofun⟩)
  | mmioRead gpa len =>
    rw [serviceExit]
    split_ifs
    · cases r.lapic.readMmio gpa len with
      | ok data => exact .inr (.inl ⟨_, r.lapic, r.serial, rfl, nofun⟩)
      | error e => exact .inl ⟨_, id, rfl⟩
    · cases r.bus.read icount gpa.toNat len with
      | ok data => exact .inr (.inl ⟨_, r.lapic, r.serial, rfl, nofun⟩)
      | error e => exact .inl ⟨_, id, rfl⟩
  | mmioWrite gpa data =>
    rw [serviceExit]
    split_ifs with hlapic
    · have hsettled := Lapic.settled_writeMmio (s := r.lapic) gpa data
      generalize r.lapic.writeMmio gpa data = w at hsettled ⊢
      obtain ⟨res, lapic⟩ := w
      obtain ⟨a, rfl : res = _⟩ | ⟨⟨e, rfl : res = _⟩, rfl : lapic = _⟩ := hsettled
      · refine .inr (.inl ⟨_, lapic, r.serial, rfl, ?_⟩)
        rintro _ _ ⟨⟩
        exact hlapic
      · exact .inl ⟨_, id, rfl⟩
    · rw [MmioBus.write]
      cases htarget : r.bus.target gpa.toNat data.length with
      | error e => exact .inl ⟨_, id, rfl⟩
      | ok w =>
        obtain ⟨hlookup, -⟩ := MmioBus.reaches_iff.mp (MmioBus.target_eq_ok_iff.mp htarget).1
        exact .inr (.inr ⟨gpa, data, w.1, w.2, rfl, eq_false_of_ne_true hlapic, hlookup, rfl⟩)
  | x86Rdmsr index =>
    rw [serviceExit]
    split_ifs
    · cases r.lapic.readMsr index with
      | ok value => exact .inr (.inl ⟨_, r.lapic, r.serial, rfl, nofun⟩)
      | error e => exact .inl ⟨_, id, rfl⟩
    · exact .inr (.inl ⟨_, r.lapic, r.serial, rfl, nofun⟩)
  | x86Wrmsr index data =>
    rw [serviceExit]
    split_ifs
    · have hsettled := Lapic.settled_writeMsr (s := r.lapic) index data
      generalize r.lapic.writeMsr index data = w at hsettled ⊢
      obtain ⟨res, lapic⟩ := w
      obtain ⟨a, rfl : res = _⟩ | ⟨⟨e, rfl : res = _⟩, rfl : lapic = _⟩ := hsettled
      · exact .inr (.inl ⟨_, lapic, r.serial, rfl, nofun⟩)
      · exact .inl ⟨_, id, rfl⟩
    · rw [onDeniedWrmsr]
      split_ifs <;> exact .inr (.inl ⟨_, r.lapic, r.serial, rfl, nofun⟩)
  | other exit => exact .inl ⟨_, id, rfl⟩

lemma applyPadSet_cases (r : DeviceRail χ) (icount boundaryRip : UInt64) (port : UInt8)
    (buttons frameHint : UInt32) :
    (∃ e, ¬(RailError.record e).IsLog ∧
      r.applyPadSet icount boundaryRip port buttons frameHint = (.error e, r)) ∨
    ∃ base pad pad' vector, r.bus.first Device.pad? = some (base, pad) ∧
      pad.applyPadSet port buttons = .ok (vector, pad') ∧
      r.applyPadSet icount boundaryRip port buttons frameHint =
        { r with bus := r.bus.set base (.pad pad') }.land
          ⟨icount, boundaryRip, .padSet port buttons frameHint⟩ vector := by
  rw [applyPadSet]
  cases hfirst : r.bus.first Device.pad? with
  | none => exact .inl ⟨_, id, rfl⟩
  | some found =>
    obtain ⟨base, pad⟩ := found
    cases happly : pad.applyPadSet port buttons with
    | error e => exact .inl ⟨.pad e, id, by simp only [happly]⟩
    | ok res => exact .inr ⟨base, pad, res.2, res.1, rfl, happly, by simp only [happly]⟩

lemma applyNetRx_cases (r : DeviceRail χ) (icount boundaryRip : UInt64) (frame : List UInt8) :
    (∃ e, r.applyNetRx icount boundaryRip frame = (.error e, r) ∧
      ¬(RailError.record e).IsLog ∧ e ≠ .net .memFault) ∨
    (∃ base net, r.bus.first Device.net? = some (base, net) ∧
      r.applyNetRx icount boundaryRip frame = (.error (.net .memFault), { r with
        mem := r.mem.overwrite net.rxBufGpa.toNat
          (frame.take (r.mem.moved net.rxBufGpa.toNat frame.length)) })) ∨
    ∃ base net, r.bus.first Device.net? = some (base, net) ∧
      r.applyNetRx icount boundaryRip frame =
        { r with
          bus := r.bus.set base (.net { net with rxLen := UInt32.ofNat frame.length })
          mem := r.mem.overwrite net.rxBufGpa.toNat frame }.land
            ⟨icount, boundaryRip, .netRx frame⟩ net.rxEdge := by
  rw [applyNetRx]
  cases hfirst : r.bus.first Device.net? with
  | none => exact .inl ⟨_, rfl, id, nofun⟩
  | some found =>
    obtain ⟨base, net⟩ := found
    obtain ⟨e, h, hne⟩ | h | h := net.applyNetRx_cases frame r.mem
    · exact .inl ⟨.net e, by simp only [h], id, fun he => hne (RecordError.net.inj he)⟩
    · exact .inr (.inl ⟨base, net, rfl, by simp only [h]⟩)
    · exact .inr (.inr ⟨base, net, rfl, by simp only [h]⟩)

end DeviceRail

end DetHypervisor.Devices
