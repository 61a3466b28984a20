import DetHypervisor.InputLog

/-!
# The machine under the hypervisor

A platform is one guest with its devices, the hash function and the configuration; KVM, the
guest program and the channel library are parameters. The state `σ` holds all that the guest can
depend on except the time-stamp counter, which run control rewrites from the virtual clock.
-/

namespace DetHypervisor

/-- What one state-hash link is computed over, besides the previous value and
the position. -/
structure Image where
  vcpu : List UInt8
  sections : List UInt8
  pages : List (List UInt8)
  deriving DecidableEq

inductive HashEpochs where
  | epochsOn
  | finalOnly
  deriving DecidableEq

/-- The part of `MachineConfig` that run control, the input queue and the log
header read. -/
structure MachineConfig (H : Type) where
  clock : ClockRatio
  epochLen : ℕ
  hashEpochs : HashEpochs
  deviceSet : List ℕ
  configHash : H

inductive ChannelEvent where
  | ringPush
  | consBump
  | pioAnswer
  deriving DecidableEq

def ChannelEvent.eventType : ChannelEvent → ℕ
  | .ringPush => eventRingPush
  | .consBump => eventConsBump
  | .pioAnswer => eventPioAnswer

inductive Emit where
  | entropy (len digest8 : ℕ)
  | netTx (len digest8 : ℕ)
  | channel (event : ChannelEvent) (data : List UInt8)
  | sdk (event : SdkEvent)
  deriving DecidableEq

namespace Emit

def isChannel : Emit → Bool
  | channel .. => true
  | _ => false

def sdk? : Emit → Option SdkEvent
  | sdk event => some event
  | _ => none

def body {H : Type} : Emit → RecordBody H
  | entropy len digest8 => .entropy len digest8
  | netTx len digest8 => .netTx len digest8
  | channel event data => .devEvent deviceIdDetchannel event.eventType data
  | sdk event => .sdkEvent event

end Emit

/-- How one VM entry ends. A debug trap reports how many instructions retired:
none inside a REP string, more than one when the entry delivers an interrupt. -/
inductive VcpuExit (σ X : Type) where
  | debug (retired : ℕ) (s : σ)
  | hlt (s : σ)
  | frameCounter (frame : ℕ) (s : σ)
  | frameCounterWidth (s : σ)
  | device (exit : X) (s : σ)
  | kvmError (message : String)

inductive Request (X : Type) where
  | exit (exit : X)
  | frameCounter (frame : ℕ)
  | pauseDrain

structure Platform (H σ X : Type) where
  config : MachineConfig H
  run : σ → VcpuExit σ X
  rip : σ → ℕ
  frameCounter : σ → ℕ
  detchannel : Bool
  /-- Device servicing at a count: new state and what the devices log. -/
  service : ℕ → Request X → σ → Except String (σ × List Emit)
  service_channel : ∀ {icount q s s' es}, service icount q s = .ok (s', es) →
    detchannel = false → ∀ e ∈ es, e.isChannel = false
  /-- `PvPad::apply_pad_set`: port, buttons; the edge vector if one is due. -/
  applyPadSet : ℕ → ℕ → σ → Except String (σ × Option ℕ)
  applyNetRx : List UInt8 → σ → Except String (σ × Option ℕ)
  /-- The IRQ vector register of the pad, when the bus carries one. -/
  padIrqVector : σ → Option ℕ
  netRxVector : σ → Option ℕ
  injectable : σ → Bool
  queueInterrupt : ℕ → σ → σ
  /-- `DetEntropy::from_seed` put in place of the entropy stream. -/
  seedEntropy : H → σ → σ
  image : σ → Image
  link : H → Image → ℕ → ℕ → H

structure Restored (H σ : Type) where
  snapshotId : H
  machine : σ
  chain : H

structure Divergence (H : Type) where
  what : String
  atIcount : ℕ
  expected : Option H
  got : Option H
  deriving DecidableEq

/-- `divergence` stands for the replay's side channel, `append` for a refused append. -/
inductive BoundaryError (H : Type) where
  | overshoot (target counted : ℕ)
  | exit (message : String)
  | append (what : String) (e : WriteError)
  | kvm (message : String)
  | divergence (d : Divergence H)
  deriving DecidableEq

/-- The device rail of a segment with the retired-instruction counter. -/
structure Rail (H σ : Type) where
  machine : σ
  icount : ℕ
  log : LogWriter H

structure Boundary where
  icount : ℕ
  rip : ℕ
  deriving DecidableEq

inductive InputKind where
  | padSet (port buttons frameHint : ℕ)
  | netRx (frame : List UInt8)
  | devEvent (deviceId eventType : ℕ) (payload : List UInt8)
  deriving DecidableEq

variable {H σ X : Type}

def regenerated (P : Platform H σ X) (r : Record H) : Bool := r.isChannelGenerated && P.detchannel

/-- The machine a segment starts from: a seed, if there is one, replaces the
restored entropy stream. -/
def startMachine (P : Platform H σ X) (base : Restored H σ) (seed : Option H) : σ :=
  match seed with
  | none => base.machine
  | some seed => P.seedEntropy seed base.machine

def InputKind.body : InputKind → RecordBody H
  | padSet port buttons frameHint => .padSet port buttons frameHint
  | netRx frame => .netRx frame
  | devEvent deviceId eventType payload => .devEvent deviceId eventType payload

namespace Rail

def append (r : Rail H σ) (icount rip : ℕ) (body : RecordBody H) :
    Except (BoundaryError H) (Rail H σ) :=
  match r.log.record icount rip body with
  | .ok log => .ok { r with log }
  | .error e => .error (.append "log fault" e)

/-- Append what an exit logged, in order, with no instruction pointer. -/
def emit (icount : ℕ) : List Emit → Rail H σ → Except (BoundaryError H) (Rail H σ)
  | [], r => .ok r
  | e :: es, r => do
      let r ← r.append icount 0 e.body
      emit icount es r

variable (P : Platform H σ X) (icount : ℕ) (r : Rail H σ)

def mark (q : Request X) (r : Rail H σ) : Except (BoundaryError H) (Rail H σ) :=
  match q with
  | .frameCounter frame => r.append icount 0 (.frameMark frame)
  | _ => .ok r

/-- Service one request at `icount`. A FRAME_COUNTER write logs its FRAME_MARK
before the channel drain of the same exit. -/
def service (P : Platform H σ X) (icount : ℕ) (q : Request X) (r : Rail H σ) :
    Except (BoundaryError H) (Rail H σ × List Emit) :=
  match P.service icount q r.machine with
  | .error message => .error (.exit message)
  | .ok (s, es) => do
      let r : Rail H σ := { r with machine := s }
      let r ← r.mark icount q
      let r ← r.emit icount es
      .ok (r, es)

/-- The channel drain at a pause; without a channel there is nothing to do. -/
def drainAtPause : Except (BoundaryError H) (Rail H σ × List Emit) :=
  if P.detchannel then r.service P icount .pauseDrain else .ok (r, [])

def boundary : Boundary := ⟨r.icount, P.rip r.machine⟩

/-- The device effect of an input. A DEV_EVENT only writes its record. -/
def inputEffect (s : σ) : InputKind → Except (BoundaryError H) (σ × Option ℕ)
  | .padSet port buttons _ => (P.applyPadSet port buttons s).mapError .exit
  | .netRx frame => (P.applyNetRx frame s).mapError .exit
  | .devEvent .. => .ok (s, none)

/-- `apply_pad_set`, `apply_net_rx`, `apply_dev_event`: the device effect and
then the record. -/
def applyInput (kind : InputKind) (icount rip : ℕ) (r : Rail H σ) :
    Except (BoundaryError H) (Rail H σ × Option ℕ) := do
  let (s, vector) ← inputEffect P r.machine kind
  let r ← append { r with machine := s } icount rip kind.body
  .ok (r, vector)

end Rail

inductive Entered (H σ : Type) where
  | stepped (r : Rail H σ)
  | serviced (r : Rail H σ) (emits : List Emit)
  | frame (frame : ℕ) (r : Rail H σ) (emits : List Emit)
  | halted (r : Rail H σ)
  | failed (e : BoundaryError H)

/-- `KVM_RUN` followed by `on_exit`. The HLT test and the FRAME_COUNTER width
test come before the device servicing. -/
def enter (P : Platform H σ X) (r : Rail H σ) : Entered H σ :=
  match P.run r.machine with
  | .debug retired s => .stepped { r with machine := s, icount := r.icount + retired }
  | .hlt s => .halted { r with machine := s }
  | .frameCounterWidth _ => .failed (.exit "FRAME_COUNTER write with non-u32 payload")
  | .kvmError message => .failed (.kvm message)
  | .frameCounter frame s =>
    match Rail.service P r.icount (.frameCounter frame) { r with machine := s } with
    | .ok (r, es) => .frame frame r es
    | .error e => .failed e
  | .device exit s =>
    match Rail.service P r.icount (.exit exit) { r with machine := s } with
    | .ok (r, es) => .serviced r es
    | .error e => .failed e

abbrev LinkTrace := List (Image × ℕ × ℕ)

/-- The smallest platform: a guest that counts its instructions and has no
devices. Its links are injective. -/
def counting (epochLen : ℕ) : Platform LinkTrace ℕ Unit where
  config := ⟨ClockRatio.default, epochLen, .epochsOn, [], []⟩
  run := fun s => .debug 1 (s + 1)
  rip := id
  frameCounter := fun _ => 0
  detchannel := false
  service := fun _ _ s => .ok (s, [])
  service_channel := by
    rintro _ _ _ _ _ ⟨⟩ _ e he
    cases he
  applyPadSet := fun _ _ s => .ok (s, none)
  applyNetRx := fun _ s => .ok (s, none)
  padIrqVector := fun _ => none
  netRxVector := fun _ => none
  injectable := fun _ => true
  queueInterrupt := fun _ s => s
  seedEntropy := fun _ s => s
  image := fun s => ⟨[], [], [[UInt8.ofNat s]]⟩
  link := fun chain image icount vns => (image, icount, vns) :: chain

/-- A guest that follows a script. Device exits say what they log, and the
channel is drained at a pause as `drain` says. -/
def scripted (epochLen : ℕ) (script : ℕ → VcpuExit ℕ (List Emit)) (drain : ℕ → ℕ × List Emit) :
    Platform LinkTrace ℕ (List Emit) where
  config := ⟨ClockRatio.default, epochLen, .epochsOn, [0x0001, 0x0003], []⟩
  run := script
  rip := id
  frameCounter := fun _ => 0
  detchannel := true
  service := fun _ q s =>
    match q with
    | .exit es => .ok (s, es)
    | .frameCounter _ => .ok (s, [])
    | .pauseDrain => .ok (drain s)
  service_channel := by
    intro _ _ _ _ _ _ h
    cases h
  applyPadSet := fun _ _ s => .ok (s, none)
  applyNetRx := fun _ s => .ok (s, none)
  padIrqVector := fun _ => none
  netRxVector := fun _ => none
  injectable := fun _ => true
  queueInterrupt := fun _ s => s
  seedEntropy := fun _ s => s
  image := fun s => ⟨[], [], [[UInt8.ofNat s]]⟩
  link := fun chain image icount vns => (image, icount, vns) :: chain

end DetHypervisor
