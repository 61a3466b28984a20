import DetHypervisor.InputLog
import DetHypervisor.Lib.Bytes

/-!
# DHILOG bytes: the writer

The byte image of an input log: a 256-byte header, back-filled when the log is sealed, and the
records in order, each with a 24-byte preamble and zero padding to a multiple of eight.
-/

namespace DetHypervisor.Dhilog

open Bytes

abbrev Hash := List.Vector UInt8 32

def magic : List UInt8 := ascii ['D', 'H', 'I', 'L', 'O', 'G']
def formatVersion : UInt16 := 0x0100
def headerLen : ℕ := 256

def flagSealed : UInt32 := 1
def flagHasAux : UInt32 := 2
def flagEpochHashes : UInt32 := 4

def rflagAux : UInt8 := 1

def bisectionCheckpointFormatVersion : UInt16 := 1
def bisectionCheckpointFlags : UInt16 := 0
def bisectionCheckpointPayloadLen : ℕ := 56

inductive Kind where
  | padSet
  | devEvent
  | netRx
  | entropy
  | timerFire
  | epochHash
  | sdkEvent
  | netTx
  | frameMark
  | bisectionCheckpoint
  | «end»
  deriving DecidableEq

namespace Kind

def code : Kind → UInt8
  | padSet => 0x01
  | devEvent => 0x02
  | netRx => 0x03
  | entropy => 0x40
  | timerFire => 0x41
  | epochHash => 0x42
  | sdkEvent => 0x43
  | netTx => 0x44
  | frameMark => 0x45
  | bisectionCheckpoint => 0x46
  | «end» => 0x7F

def all : List Kind :=
  [padSet, devEvent, netRx, entropy, timerFire, epochHash, sdkEvent, netTx, frameMark,
    bisectionCheckpoint, «end»]

def ofCode (c : UInt8) : Option Kind := all.find? (·.code == c)

/-- The class of a kind: derived data, or an input that replay applies. -/
def isAux : Kind → Bool
  | padSet | devEvent | netRx => false
  | _ => true

@[simp] lemma ofCode_code (k : Kind) : ofCode k.code = some k := by
  cases k <;> rfl

lemma code_eq_of_ofCode {c : UInt8} {k : Kind} (h : ofCode c = some k) : k.code = c := by
  rw [ofCode] at h
  simpa using List.find?_some h

lemma ofCode_eq_some_iff {c : UInt8} {k : Kind} : ofCode c = some k ↔ c = k.code :=
  ⟨fun h => (code_eq_of_ofCode h).symm, fun h => h ▸ ofCode_code k⟩

end Kind

@[ext]
structure Record where
  kind : UInt8
  rflags : UInt8
  seq : UInt32
  icount : UInt64
  boundaryRip : UInt64
  payload : List UInt8
  deriving DecidableEq

namespace Record

def isAux (r : Record) : Bool := r.rflags &&& rflagAux != 0

def isEpochHash (r : Record) : Bool := r.kind == Kind.epochHash.code

def preamble (r : Record) : List UInt8 :=
  [r.kind, r.rflags] ++ (toLe (UInt16.ofNat r.payload.length) ++ (toLe r.seq ++
    (toLe r.icount ++ toLe r.boundaryRip)))

@[simp] lemma length_preamble (r : Record) : r.preamble.length = 24 := by
  simp [preamble]

/-- The bytes of a record, zero-padded to the next multiple of eight. -/
def bytes (r : Record) : List UInt8 := r.preamble ++ (r.payload ++ zeros (padLen r.payload.length))

lemma length_bytes (r : Record) :
    r.bytes.length = 24 + r.payload.length + padLen r.payload.length := by
  simp [bytes]
  omega

end Record

structure SegmentHeader where
  baseSnapshotId : Hash
  entropySeed : Hash
  machineConfigHash : Hash
  clockNum : UInt32
  clockDen : UInt32
  encoderFingerprint : UInt64

structure SealParams where
  endSnapshotId : Hash
  endIcount : UInt64
  endVns : UInt64
  endStateHash : Hash
  stopReason : UInt8

@[ext]
structure Header where
  version : UInt16
  flags : UInt32
  baseSnapshotId : Hash
  endSnapshotId : Hash
  entropySeed : Hash
  machineConfigHash : Hash
  clockNum : UInt32
  clockDen : UInt32
  recordCount : UInt64
  endIcount : UInt64
  endVns : UInt64
  endStateHash : Hash
  bodyHash : Hash
  encoderFingerprint : UInt64

namespace Header

def hasAux (h : Header) : Bool := h.flags &&& flagHasAux != 0

def hasEpochHashes (h : Header) : Bool := h.flags &&& flagEpochHashes != 0

def bytes (h : Header) : List UInt8 :=
  magic ++ (                                      -- [0..6)
  toLe h.version ++ (                             -- [6..8)
  toLe (UInt32.ofNat headerLen) ++ (              -- [8..12)
  toLe h.flags ++ (                               -- [12..16)
  h.baseSnapshotId.toList ++ (                    -- [16..48)
  h.endSnapshotId.toList ++ (                     -- [48..80)
  h.entropySeed.toList ++ (                       -- [80..112)
  h.machineConfigHash.toList ++ (                 -- [112..144)
  toLe h.clockNum ++ (                            -- [144..148)
  toLe h.clockDen ++ (                            -- [148..152)
  toLe h.recordCount ++ (                         -- [152..160)
  toLe h.endIcount ++ (                           -- [160..168)
  toLe h.endVns ++ (                              -- [168..176)
  h.endStateHash.toList ++ (                      -- [176..208)
  h.bodyHash.toList ++ (                          -- [208..240)
  toLe h.encoderFingerprint ++                    -- [240..248)
  zeros 8)))))))))))))))                          -- reserved

@[simp] lemma length_magic : magic.length = 6 := by simp [magic]

@[simp] lemma length_bytes (h : Header) : h.bytes.length = headerLen := by
  simp [bytes, headerLen]

end Header

structure LogWriter where
  buf : List UInt8
  header : SegmentHeader
  recordCount : ℕ
  lastIcount : UInt64
  hasAux : Bool
  wroteEpochHash : Bool

namespace LogWriter

def new (header : SegmentHeader) : LogWriter where
  buf := zeros headerLen -- back-filled at seal
  header := header
  recordCount := 0
  lastIcount := 0
  hasAux := false
  wroteEpochHash := false

/-- Frame one record. Everything is checked before any byte is written. -/
def record (w : LogWriter) (kind : Kind) (rflags : UInt8) (icount boundaryRip : UInt64)
    (payload : List UInt8) : Except WriteError LogWriter :=
  if maxPayload < payload.length then .error .payloadTooLong
  else if 0 < w.recordCount ∧ icount < w.lastIcount then .error .icountRegressed
  else if 2 ^ 32 ≤ w.recordCount then .error .seqOverflow
  else
    let r : Record := ⟨kind.code, rflags, UInt32.ofNat w.recordCount, icount, boundaryRip, payload⟩
    .ok { w with
      buf := w.buf ++ r.bytes
      recordCount := w.recordCount + 1
      lastIcount := icount
      hasAux := w.hasAux || r.isAux }

variable (w : LogWriter) (icount boundaryRip : UInt64)

def padSet (port : UInt8) (buttons frameHint : UInt32) : Except WriteError LogWriter :=
  w.record .padSet 0 icount boundaryRip
    ([port] ++ zeros 3 ++ toLe buttons ++ toLe frameHint)

def devEvent (deviceId eventType : UInt16) (data : List UInt8) : Except WriteError LogWriter :=
  if maxDevEventData < data.length then .error .payloadTooLong
  else
    w.record .devEvent 0 icount boundaryRip
      (toLe deviceId ++ toLe eventType ++ toLe (UInt32.ofNat data.length) ++ data)

def netRx (frame : List UInt8) : Except WriteError LogWriter :=
  if frame.isEmpty then .error .emptyNetRx
  else if maxNetRxFrame < frame.length then .error .payloadTooLong
  else w.record .netRx 0 icount boundaryRip frame

def pioAnswer (port : UInt16) (value : UInt32) : Except WriteError LogWriter :=
  w.devEvent icount boundaryRip (UInt16.ofNat deviceIdDetchannel) (UInt16.ofNat eventPioAnswer)
    (toLe port ++ zeros 2 ++ toLe value)

def entropy (len : UInt32) (digest8 : UInt64) : Except WriteError LogWriter :=
  w.record .entropy rflagAux icount boundaryRip (toLe len ++ zeros 4 ++ toLe digest8)

def netTx (len : UInt32) (digest8 : UInt64) : Except WriteError LogWriter :=
  w.record .netTx rflagAux icount boundaryRip (toLe len ++ zeros 4 ++ toLe digest8)

def epochHash (epochIndex : UInt64) (chainValue : Hash) : Except WriteError LogWriter := do
  let w ← w.record .epochHash rflagAux icount boundaryRip (toLe epochIndex ++ chainValue.toList)
  .ok { w with wroteEpochHash := true }

def timerFire (vector : UInt8) (armedDeadlineVns deliveredIcount : UInt64) :
    Except WriteError LogWriter :=
  w.record .timerFire rflagAux icount boundaryRip
    ([vector] ++ zeros 3 ++ toLe armedDeadlineVns ++ toLe deliveredIcount)

def sdkEvent (stream : UInt16) (len : UInt32) (digest8 : UInt64) : Except WriteError LogWriter :=
  w.record .sdkEvent rflagAux icount boundaryRip
    (toLe stream ++ zeros 2 ++ toLe len ++ toLe digest8)

def frameMark (frameIndex : UInt32) : Except WriteError LogWriter :=
  w.record .frameMark rflagAux icount boundaryRip (toLe frameIndex ++ zeros 4)

def bisectionCheckpoint (maxCoveredGap : UInt32) (checkpointSnapshotRef : Hash)
    (checkpointVns : UInt64) : Except WriteError LogWriter :=
  w.record .bisectionCheckpoint rflagAux icount boundaryRip
    (toLe bisectionCheckpointFormatVersion ++ toLe bisectionCheckpointFlags ++
      toLe maxCoveredGap ++ checkpointSnapshotRef.toList ++ toLe icount ++ toLe checkpointVns)

/-- Append END, back-fill the header and return the sealed image. END is an
AUX record that does not count towards `HAS_AUX`. -/
def «seal» (blake3 : List UInt8 → Hash) (params : SealParams) : Except WriteError (List UInt8) := do
  let hasAux := w.hasAux
  let w ← w.record .end rflagAux params.endIcount 0
    ([params.stopReason] ++ zeros 7 ++ params.endStateHash.toList)
  let body := w.buf.drop headerLen
  let flags := flagSealed ||| (if hasAux then flagHasAux else 0) |||
    (if w.wroteEpochHash then flagEpochHashes else 0)
  let header : Header :=
    { version := formatVersion
      flags := flags
      baseSnapshotId := w.header.baseSnapshotId
      endSnapshotId := params.endSnapshotId
      entropySeed := w.header.entropySeed
      machineConfigHash := w.header.machineConfigHash
      clockNum := w.header.clockNum
      clockDen := w.header.clockDen
      recordCount := UInt64.ofNat w.recordCount
      endIcount := params.endIcount
      endVns := params.endVns
      endStateHash := params.endStateHash
      bodyHash := blake3 body
      encoderFingerprint := w.header.encoderFingerprint }
  .ok (header.bytes ++ body)

end LogWriter

end DetHypervisor.Dhilog
