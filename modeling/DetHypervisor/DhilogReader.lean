import DetHypervisor.Dhilog
import DetHypervisor.Lib.Checked

/-!
# DHILOG bytes: the reader

`LogReader.parse` validates an image completely, so that the record iterator and the typed views
index without checks. `LogInspection` reads the intact prefix of a crash artifact.
-/

namespace DetHypervisor.Dhilog

open Bytes Checked

inductive ReadError where
  | tooShort
  | badMagic
  | unsupportedVersion (found : UInt16)
  | badHeaderLen (found : UInt32)
  | unknownHeaderFlags (flags : UInt32)
  | notSealed
  | reservedNonzero
  | bodyHashMismatch
  | truncated (seq : UInt32)
  | payloadTooLong (seq : UInt32)
  | seqMismatch (expected found : UInt32)
  | icountRegressed (seq : UInt32)
  | unknownRecordFlags (rflags : UInt8) (seq : UInt32)
  | unknownCanonicalKind (kind : UInt8) (seq : UInt32)
  | kindAuxMismatch (kind : UInt8) (seq : UInt32)
  | badPayloadLayout (kind : UInt8) (seq : UInt32)
  | unsupportedBisectionCheckpointVersion (found : UInt16) (seq : UInt32)
  | invalidBisectionCheckpointFlags (flags : UInt16) (seq : UInt32)
  | bisectionCheckpointIcountMismatch (seq : UInt32) (recordIcount checkpointIcount : UInt64)
  | nonzeroPadding (seq : UInt32)
  | recordCountMismatch (header : UInt64) (actual : ℕ)
  | endNotLast
  | endMismatch (what : String)
  | badClock
  | hasAuxFlagMismatch
  | epochHashesFlagMismatch
  deriving DecidableEq

inductive RecordBody where
  | padSet (port : UInt8) (buttons frameHint : UInt32)
  | devEvent (deviceId eventType : UInt16) (data : List UInt8)
  | netRx (frame : List UInt8)
  | entropy (len : UInt32) (digest8 : UInt64)
  | timerFire (vector : UInt8) (armedDeadlineVns deliveredIcount : UInt64)
  | epochHash (epochIndex : UInt64) (chainValue : Hash)
  | sdkEvent (stream : UInt16) (len : UInt32) (digest8 : UInt64)
  | netTx (len : UInt32) (digest8 : UInt64)
  | frameMark (frameIndex : UInt32)
  | bisectionCheckpoint (formatVersion flags : UInt16) (maxCoveredGap : UInt32)
      (checkpointSnapshotRef : Hash) (checkpointIcount checkpointVns : UInt64)
  | «end» (stopReason : UInt8) (endStateHash : Hash)
  | unknown (kind : UInt8) (payload : List UInt8)

/-- `Record::body`, which returns no error: it indexes the payload and
panics where that is too short. -/
def Record.body (r : Record) : Exec Empty RecordBody :=
  let p := r.payload
  match Kind.ofCode r.kind with
  | some .padSet => do
      .ok (.padSet (← index p 0) (← word UInt32 p 4 8) (← word UInt32 p 8 12))
  | some .devEvent => do
      .ok (.devEvent (← word UInt16 p 0 2) (← word UInt16 p 2 4) (← suffix p 8))
  | some .netRx => .ok (.netRx p)
  | some .entropy => do .ok (.entropy (← word UInt32 p 0 4) (← word UInt64 p 8 16))
  | some .timerFire => do
      .ok (.timerFire (← index p 0) (← word UInt64 p 4 12) (← word UInt64 p 12 20))
  | some .epochHash => do .ok (.epochHash (← word UInt64 p 0 8) (← array 32 p 8 40))
  | some .sdkEvent => do
      .ok (.sdkEvent (← word UInt16 p 0 2) (← word UInt32 p 4 8) (← word UInt64 p 8 16))
  | some .netTx => do .ok (.netTx (← word UInt32 p 0 4) (← word UInt64 p 8 16))
  | some .frameMark => do .ok (.frameMark (← word UInt32 p 0 4))
  | some .bisectionCheckpoint => do
      .ok (.bisectionCheckpoint (← word UInt16 p 0 2) (← word UInt16 p 2 4) (← word UInt32 p 4 8)
        (← array 32 p 8 40) (← word UInt64 p 40 48) (← word UInt64 p 48 56))
  | some .end => do .ok (.end (← index p 0) (← array 32 p 8 40))
  | none => .ok (.unknown r.kind p)

def parseHeaderWithSeal (bytes : List UInt8) (requireSealed : Bool) : Exec ReadError Header := do
  rejectIf (bytes.length < headerLen) .tooShort
  let found ← slice bytes 0 6
  rejectIf (found ≠ magic) .badMagic
  let version ← word UInt16 bytes 6 8
  rejectIf (version >>> 8 ≠ 0x01) (.unsupportedVersion version)
  let length ← word UInt32 bytes 8 12
  rejectIf (length.toNat ≠ headerLen) (.badHeaderLen length)
  let flags ← word UInt32 bytes 12 16
  rejectIf (flags &&& ~~~(flagSealed ||| flagHasAux ||| flagEpochHashes) ≠ 0)
    (.unknownHeaderFlags flags)
  rejectIf (requireSealed ∧ flags &&& flagSealed = 0) .notSealed
  let reserved ← slice bytes 248 256
  rejectIf (reserved ≠ zeros 8) .reservedNonzero
  let clockDen ← word UInt32 bytes 148 152
  rejectIf (clockDen = 0) .badClock
  .ok {
    version := version
    flags := flags
    baseSnapshotId := ← array 32 bytes 16 48
    endSnapshotId := ← array 32 bytes 48 80
    entropySeed := ← array 32 bytes 80 112
    machineConfigHash := ← array 32 bytes 112 144
    clockNum := ← word UInt32 bytes 144 148
    clockDen := ← word UInt32 bytes 148 152
    recordCount := ← word UInt64 bytes 152 160
    endIcount := ← word UInt64 bytes 160 168
    endVns := ← word UInt64 bytes 168 176
    endStateHash := ← array 32 bytes 176 208
    bodyHash := ← array 32 bytes 208 240
    encoderFingerprint := ← word UInt64 bytes 240 248 }

def parseHeader (bytes : List UInt8) : Exec ReadError Header := parseHeaderWithSeal bytes true

def parseHeaderForInspection (bytes : List UInt8) : Exec ReadError Header :=
  parseHeaderWithSeal bytes false

/-- The layout part of `validate_kind`, for a kind this version knows. -/
def Kind.layoutOk (k : Kind) (payload : List UInt8) (seq : UInt32) (recordIcount : UInt64) :
    Exec ReadError Bool :=
  match k with
  | .padSet => .ok (payload.length = 12)
  | .devEvent =>
    if 8 ≤ payload.length then do
      let dataLen ← word UInt32 payload 4 8
      let rest ← sub payload.length 8
      .ok (dataLen.toNat = rest)
    else .ok false
  | .netRx => .ok (1 ≤ payload.length ∧ payload.length ≤ maxNetRxFrame)
  | .entropy | .sdkEvent | .netTx => .ok (payload.length = 16)
  | .timerFire => .ok (payload.length = 20)
  | .epochHash | .end => .ok (payload.length = 40)
  | .frameMark => .ok (payload.length = 8)
  | .bisectionCheckpoint =>
    if payload.length ≠ bisectionCheckpointPayloadLen then .ok false
    else do
      let formatVersion ← word UInt16 payload 0 2
      rejectIf (formatVersion ≠ bisectionCheckpointFormatVersion)
        (.unsupportedBisectionCheckpointVersion formatVersion seq)
      let flags ← word UInt16 payload 2 4
      rejectIf (flags ≠ bisectionCheckpointFlags) (.invalidBisectionCheckpointFlags flags seq)
      let checkpointIcount ← word UInt64 payload 40 48
      rejectIf (checkpointIcount ≠ recordIcount)
        (.bisectionCheckpointIcountMismatch seq recordIcount checkpointIcount)
      .ok true

def validateKind (kind : UInt8) (aux : Bool) (payload : List UInt8) (seq : UInt32)
    (recordIcount : UInt64) : Exec ReadError Unit :=
  match Kind.ofCode kind with
  | none => if aux then .ok () else reject (.unknownCanonicalKind kind seq)
  | some k => do
      rejectIf (k.isAux ≠ aux) (.kindAuxMismatch kind seq)
      let layoutOk ← k.layoutOk payload seq recordIcount
      rejectIf (layoutOk = false) (.badPayloadLayout kind seq)

structure RecordScan where
  offset : ℕ
  count : ℕ
  lastIcount : UInt64

def RecordScan.default : RecordScan := ⟨0, 0, 0⟩

def RecordScan.seqForErr (scan : RecordScan) : UInt32 :=
  if scan.count < 2 ^ 32 then UInt32.ofNat scan.count else 0xFFFFFFFF

variable (header : Header) (body : List UInt8)

/-- The record at the scan's offset, validated, and the scan behind it; `none`
at the end of the body. -/
def scanNextRecord (scan : RecordScan) : Exec ReadError (Option (Record × RecordScan)) :=
  if body.length ≤ scan.offset then .ok none
  else do
    let left ← sub body.length scan.offset
    rejectIf (left < 24) (.truncated scan.seqForErr)
    let b ← suffix body scan.offset
    let kind ← index b 0
    let rflags ← index b 1
    let payloadLen := (← word UInt16 b 2 4).toNat
    let seq ← word UInt32 b 4 8
    let icount ← word UInt64 b 8 16
    let boundaryRip ← word UInt64 b 16 24
    rejectIf (maxPayload < payloadLen) (.payloadTooLong scan.seqForErr)
    let padded ← add (← add 24 payloadLen) (padLen payloadLen)
    let left ← sub body.length scan.offset
    rejectIf (left < padded) (.truncated scan.seqForErr)
    rejectIf (seq.toNat ≠ scan.count) (.seqMismatch scan.seqForErr seq)
    rejectIf (0 < scan.count ∧ icount < scan.lastIcount) (.icountRegressed seq)
    rejectIf (rflags &&& ~~~rflagAux ≠ 0) (.unknownRecordFlags rflags seq)
    let padding ← slice b (← add 24 payloadLen) padded
    rejectIf (padding.any (· ≠ 0)) (.nonzeroPadding seq)
    let payload ← slice b 24 (← add 24 payloadLen)
    let r : Record := ⟨kind, rflags, seq, icount, boundaryRip, payload⟩
    validateKind kind r.isAux payload seq icount
    .ok (some (r, ⟨← add scan.offset padded, ← add scan.count 1, icount⟩))

structure Walk where
  scan : RecordScan
  sawEnd : Bool
  sawAuxNonEnd : Bool
  sawEpochHash : Bool

def Walk.start : Walk := ⟨.default, false, false, false⟩

def checkEnd (r : Record) : Exec ReadError Unit := do
  rejectIf (r.boundaryRip ≠ 0) (.endMismatch "boundary_rip != 0")
  let pad ← slice r.payload 1 8
  rejectIf (pad ≠ zeros 7) (.endMismatch "nonzero pad bytes")
  rejectIf (r.icount ≠ header.endIcount) (.endMismatch "icount != header.end_icount")
  let hash ← slice r.payload 8 40
  rejectIf (hash ≠ header.endStateHash.toList)
    (.endMismatch "end_state_hash != header.end_state_hash")

/-- What `validate_records` does with the record it has just read. -/
def Walk.note (w : Walk) (r : Record) (scan : RecordScan) : Exec ReadError Walk :=
  match Kind.ofCode r.kind with
  | some .end => do
      checkEnd header r
      .ok { w with scan := scan, sawEnd := true }
  | some .epochHash => .ok { w with scan := scan, sawEpochHash := true }
  | _ => .ok { w with scan := scan, sawAuxNonEnd := w.sawAuxNonEnd || r.isAux }

def validateTurn (w : Walk) : Exec ReadError (Fuel.Step Walk Walk) :=
  if body.length ≤ w.scan.offset then .ok (.done w)
  else do
    rejectIf (w.sawEnd = true) .endNotLast
    match ← scanNextRecord body w.scan with
    | none => .error .panic -- `expect("offset < len")`
    | some (r, scan) => .ok (.next (← w.note header r scan))

def validateRecords : Exec ReadError Unit := do
  let w ← loop (validateTurn header body) (body.length + 1) .start
  rejectIf (w.sawEnd = false) .endNotLast
  rejectIf (w.scan.count ≠ header.recordCount.toNat)
    (.recordCountMismatch header.recordCount w.scan.count)
  rejectIf (header.hasAux ≠ (w.sawAuxNonEnd || w.sawEpochHash)) .hasAuxFlagMismatch
  rejectIf (header.hasEpochHashes ≠ w.sawEpochHash) .epochHashesFlagMismatch

structure LogReader where
  header : Header
  body : List UInt8

/-- One turn of the record iterator, over the offset and what it has yielded. -/
def nextTurn (body : List UInt8) (s : ℕ × List Record) :
    Exec Empty (Fuel.Step (ℕ × List Record) (List Record)) :=
  if body.length ≤ s.1 then .ok (.done s.2)
  else do
    let b ← suffix body s.1
    let payloadLen := (← word UInt16 b 2 4).toNat
    let r : Record := {
      kind := ← index b 0
      rflags := ← index b 1
      seq := ← word UInt32 b 4 8
      icount := ← word UInt64 b 8 16
      boundaryRip := ← word UInt64 b 16 24
      payload := ← slice b 24 (← add 24 payloadLen) }
    let offset ← add s.1 (← add (← add 24 payloadLen) (padLen payloadLen))
    .ok (.next (offset, s.2 ++ [r]))

namespace LogReader

def parse (blake3 : List UInt8 → Hash) (bytes : List UInt8) : Exec ReadError LogReader := do
  let header ← parseHeader bytes
  let body ← suffix bytes headerLen
  rejectIf (blake3 body ≠ header.bodyHash) .bodyHashMismatch
  validateRecords header body
  .ok ⟨header, body⟩

def records (reader : LogReader) : Exec Empty (List Record) :=
  loop (nextTurn reader.body) (reader.body.length + 1) (0, [])

def «end» (reader : LogReader) : Exec Empty (UInt8 × Hash) := do
  let records ← reader.records
  match records.getLast? with
  | none => .error .panic
  | some last =>
    match ← last.body with
    | .end stopReason endStateHash => .ok (stopReason, endStateHash)
    | _ => .error .panic

end LogReader

inductive InspectionStop where
  | eof
  | corrupt (error : ReadError)

structure LogInspection where
  header : Header
  records : List Record
  stop : InspectionStop

/-- One turn of the loop of `parse_unsealed`: a record-level error ends the
loop without being one. -/
def inspectTurn (body : List UInt8) (s : RecordScan × List Record) :
    Exec ReadError (Fuel.Step (RecordScan × List Record) (List Record × InspectionStop)) :=
  match scanNextRecord body s.1 with
  | .ok (some (r, scan)) => .ok (.next (scan, s.2 ++ [r]))
  | .ok none => .ok (.done (s.2, .eof))
  | .error (.error e) => .ok (.done (s.2, .corrupt e))
  | .error .panic => .error .panic
  | .error .stuck => .error .stuck

def LogInspection.parseUnsealed (bytes : List UInt8) : Exec ReadError LogInspection := do
  let header ← parseHeaderForInspection bytes
  let body ← suffix bytes headerLen
  let (records, stop) ← loop (inspectTurn body) (body.length + 1) (.default, [])
  .ok ⟨header, records, stop⟩

end DetHypervisor.Dhilog
