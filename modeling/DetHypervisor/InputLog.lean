import DetHypervisor.VirtualTime

/-!
# The DHILOG input log

One log describes one segment. The canonical kinds are applied by a replay, the auxiliary kinds
are recomputed and compared. `H` stands for the 32-byte values of the format; END comes last and
is kept as its stop reason.
-/

namespace DetHypervisor

inductive StopReason where
  | budgetReached
  | goalSatisfied
  | nextSdkEvent
  | hardCap
  | paused
  | guestHalted
  deriving DecidableEq

structure SdkEvent where
  stream : ℕ
  len : ℕ
  digest8 : ℕ
  deriving DecidableEq

inductive RecordBody (H : Type) where
  | padSet (port buttons frameHint : ℕ)
  | devEvent (deviceId eventType : ℕ) (data : List UInt8)
  | netRx (frame : List UInt8)
  | entropy (len digest8 : ℕ)
  | timerFire (vector armedDeadlineVns deliveredIcount : ℕ)
  | epochHash (epochIndex : ℕ) (chainValue : H)
  | sdkEvent (event : SdkEvent)
  | netTx (len digest8 : ℕ)
  | frameMark (frameIndex : ℕ)
  | bisectionCheckpoint (maxCoveredGap : ℕ) (snapshot : H) (vns : ℕ)
  deriving DecidableEq

structure Record (H : Type) where
  seq : ℕ
  icount : ℕ
  boundaryRip : ℕ
  body : RecordBody H
  deriving DecidableEq

inductive WriteError where
  | payloadTooLong
  | icountRegressed
  | seqOverflow
  | emptyNetRx
  deriving DecidableEq

def deviceIdDetchannel : ℕ := 0x0001
def eventRingPush : ℕ := 0x0001
def eventConsBump : ℕ := 0x0002
def eventPioAnswer : ℕ := 0x0003

/-- `PAD_SET.frame_hint` when the input was not frame-scheduled. -/
def frameHintNone : ℕ := 0xFFFFFFFF

def maxPayload : ℕ := 4096
def maxDevEventData : ℕ := maxPayload - 8
def maxNetRxFrame : ℕ := 2048

variable {H : Type}

namespace RecordBody

/-- The kinds that replay applies: PAD_SET, DEV_EVENT and NET_RX. -/
def isCanonical : RecordBody H → Bool
  | padSet .. | devEvent .. | netRx .. => true
  | _ => false

/-- `detchannel_exit_generated_event`: a replay with a channel regenerates what the channel
writes itself. -/
def isChannelGenerated : RecordBody H → Bool
  | devEvent deviceId eventType _ =>
    deviceId == deviceIdDetchannel &&
      (eventType == eventPioAnswer || eventType == eventRingPush ||
        eventType == eventConsBump)
  | _ => false

def isCheckpoint : RecordBody H → Bool
  | bisectionCheckpoint .. => true
  | _ => false

/-- The kind-specific length rules, checked by the writer before it appends
and by the reader before it exposes the record. -/
def layoutError : RecordBody H → Option WriteError
  | devEvent _ _ data =>
    if maxDevEventData < data.length then some .payloadTooLong else none
  | netRx frame =>
    if frame.isEmpty then some .emptyNetRx
    else if maxNetRxFrame < frame.length then some .payloadTooLong
    else none
  | _ => none

end RecordBody

namespace Record

def isCanonical (r : Record H) : Bool := r.body.isCanonical

def isChannelGenerated (r : Record H) : Bool := r.body.isChannelGenerated

/-- `(epoch_index, icount, chain_value)` of an EPOCH_HASH record. -/
def epoch? (r : Record H) : Option (ℕ × ℕ × H) :=
  match r.body with
  | .epochHash epochIndex chainValue => some (epochIndex, r.icount, chainValue)
  | _ => none

def isFrameMark (r : Record H) : Bool :=
  match r.body with
  | .frameMark _ => true
  | _ => false

end Record

/-- No seed stands for the all-zero seed: the base snapshot's entropy stream goes on. -/
structure SegmentHeader (H : Type) where
  baseSnapshotId : H
  entropySeed : Option H
  machineConfigHash : H
  clockNum : ℕ
  clockDen : ℕ
  encoderFingerprint : ℕ
  deriving DecidableEq

/-- Sequence numbers count up from `count`, counts never fall below `last`, and
every layout is valid. The walk answers the last count. -/
def scanRecords : ℕ → ℕ → List (Record H) → Option ℕ
  | _, last, [] => some last
  | count, last, r :: rs =>
    if r.seq = count ∧ last ≤ r.icount ∧ r.body.layoutError = none then
      scanRecords (count + 1) r.icount rs
    else none

def lastIcount (rs : List (Record H)) : ℕ :=
  match rs.getLast? with
  | some r => r.icount
  | none => 0

@[simp] lemma lastIcount_append_singleton (rs : List (Record H)) (r : Record H) :
    lastIcount (rs ++ [r]) = r.icount := by
  simp [lastIcount]

lemma scanRecords_append (xs ys : List (Record H)) (count last : ℕ) :
    scanRecords count last (xs ++ ys) =
      (scanRecords count last xs).bind fun l => scanRecords (count + xs.length) l ys := by
  induction xs generalizing count last with
  | nil => rfl
  | cons x xs ih =>
    simp only [List.cons_append, scanRecords, List.length_cons]
    split
    · rw [ih, Nat.add_assoc, Nat.add_comm 1]
    · rfl

lemma scanRecords_snoc {rs : List (Record H)} {r : Record H}
    (hrs : scanRecords 0 0 rs = some (lastIcount rs)) (hseq : r.seq = rs.length)
    (hicount : lastIcount rs ≤ r.icount) (hlayout : r.body.layoutError = none) :
    scanRecords 0 0 (rs ++ [r]) = some (lastIcount (rs ++ [r])) := by
  rw [scanRecords_append, hrs]
  simp [scanRecords, hseq, hicount, hlayout]

def Ordered (rs : List (Record H)) : Prop :=
  rs.Pairwise fun x y => x.seq < y.seq ∧ x.icount ≤ y.icount

lemma ordered_of_scanRecords {rs : List (Record H)} {count last final : ℕ}
    (h : scanRecords count last rs = some final) :
    Ordered rs ∧ ∀ r ∈ rs, count ≤ r.seq ∧ r.seq < count + rs.length ∧ last ≤ r.icount := by
  induction rs generalizing count last with
  | nil => exact ⟨List.Pairwise.nil, by simp⟩
  | cons x xs ih =>
    rw [scanRecords] at h
    split_ifs at h with hx
    obtain ⟨hordered, hmem⟩ := ih h
    refine ⟨List.pairwise_cons.mpr ⟨?_, hordered⟩, ?_⟩
    · intro y hy
      have := hmem y hy
      omega
    · intro y hy
      rw [List.length_cons]
      rcases List.mem_cons.mp hy with rfl | hy
      · omega
      · have := hmem y hy
        omega

/-- The append-only writer: the header and the records written so far, which
always pass the reader's walk. -/
@[ext]
structure LogWriter (H : Type) where
  header : SegmentHeader H
  records : List (Record H)
  valid : scanRecords 0 0 records = some (lastIcount records)

namespace LogWriter

def new (header : SegmentHeader H) : LogWriter H := ⟨header, [], rfl⟩

def recordCount (w : LogWriter H) : ℕ := w.records.length

/-- `LogWriter::record`, after the layout checks of the single kinds. -/
def record (w : LogWriter H) (icount rip : ℕ) (body : RecordBody H) :
    Except WriteError (LogWriter H) :=
  match hlayout : body.layoutError with
  | some e => .error e
  | none =>
    if hicount : icount < lastIcount w.records then .error .icountRegressed
    else if 2 ^ 32 ≤ w.recordCount then .error .seqOverflow
    else .ok
      { header := w.header
        records := w.records ++ [⟨w.recordCount, icount, rip, body⟩]
        valid := scanRecords_snoc w.valid rfl (Nat.not_lt.mp hicount) hlayout }

lemma record_eq_ok_iff {w w' : LogWriter H} {icount rip : ℕ} {body : RecordBody H} :
    w.record icount rip body = .ok w' ↔
      body.layoutError = none ∧ lastIcount w.records ≤ icount ∧ w.recordCount < 2 ^ 32 ∧
        w'.header = w.header ∧ w'.records = w.records ++ [⟨w.recordCount, icount, rip, body⟩] := by
  unfold record
  split
  · rename_i e he
    simp [he]
  · rename_i hnone
    split_ifs with hicount hseq
    · simp [Nat.not_le.mpr hicount]
    · simp only [false_iff]
      rintro ⟨-, -, hcount, -⟩
      exact absurd hseq (Nat.not_le.mpr hcount)
    · simp only [Except.ok.injEq, LogWriter.ext_iff, hnone, true_and]
      constructor
      · rintro ⟨hheader, hrecords⟩
        exact ⟨Nat.not_lt.mp hicount, Nat.not_le.mp hseq, hheader.symm, hrecords.symm⟩
      · rintro ⟨-, -, hheader, hrecords⟩
        exact ⟨hheader.symm, hrecords.symm⟩

lemma ordered (w : LogWriter H) : Ordered w.records := (ordered_of_scanRecords w.valid).1

end LogWriter

structure SealParams (H : Type) where
  endSnapshotId : H
  endIcount : ℕ
  endVns : ℕ
  endStateHash : H
  stopReason : ℕ
  deriving DecidableEq

structure SealedLog (H : Type) where
  header : SegmentHeader H
  ending : SealParams H
  records : List (Record H)
  deriving DecidableEq

/-- `LogWriter::seal`: END goes through the same watermark as every record. -/
def LogWriter.seal (w : LogWriter H) (params : SealParams H) : Except WriteError (SealedLog H) :=
  if params.endIcount < lastIcount w.records then .error .icountRegressed
  else if 2 ^ 32 ≤ w.recordCount then .error .seqOverflow
  else .ok ⟨w.header, params, w.records⟩

variable {params : SealParams H} {log : SealedLog H} {w : LogWriter H}

lemma LogWriter.seal_eq_ok_iff :
    w.seal params = .ok log ↔ lastIcount w.records ≤ params.endIcount ∧ w.recordCount < 2 ^ 32 ∧
        log = ⟨w.header, params, w.records⟩ := by
  unfold LogWriter.seal
  split_ifs with hicount hseq
  · simp [Nat.not_le.mpr hicount]
  · simp only [false_iff]
    rintro ⟨-, hcount, -⟩
    exact absurd hseq (Nat.not_le.mpr hcount)
  · simp_all [eq_comm]

namespace SealedLog

/-- What `LogReader::parse` accepts: a usable clock, a valid record walk and an
END that is not behind the last record. -/
def wellFormed (log : SealedLog H) : Bool :=
  log.header.clockDen != 0 &&
    match scanRecords 0 0 log.records with
    | some last => decide (last ≤ log.ending.endIcount)
    | none => false

def canonical (log : SealedLog H) : List (Record H) := log.records.filter Record.isCanonical

def epochs (log : SealedLog H) : List (ℕ × ℕ × H) := log.records.filterMap Record.epoch?

def frameMarks (log : SealedLog H) : List (Record H) := log.records.filter Record.isFrameMark

end SealedLog

lemma LogWriter.wellFormed_seal
    (hden : w.header.clockDen ≠ 0) (h : w.seal params = .ok log) : log.wellFormed = true := by
  obtain ⟨hend, -, rfl⟩ := seal_eq_ok_iff.mp h
  simp [SealedLog.wellFormed, w.valid, hden, hend]

end DetHypervisor
