import DetHypervisor.HostileLogs

/-!
# What is written is read back

An append succeeds exactly when the record it frames may come next. So the writer's state is a
function of its records, and a sealed image parses into them.
-/

namespace DetHypervisor.Dhilog

open Bytes Checked

/-- The arguments of an append, one constructor for each of the writer's
methods. -/
inductive Emission where
  | padSet (port : UInt8) (buttons frameHint : UInt32)
  | devEvent (deviceId eventType : UInt16) (data : List UInt8)
  | netRx (frame : List UInt8)
  | pioAnswer (port : UInt16) (value : UInt32)
  | entropy (len : UInt32) (digest8 : UInt64)
  | netTx (len : UInt32) (digest8 : UInt64)
  | epochHash (epochIndex : UInt64) (chainValue : Hash)
  | timerFire (vector : UInt8) (armedDeadlineVns deliveredIcount : UInt64)
  | sdkEvent (stream : UInt16) (len : UInt32) (digest8 : UInt64)
  | frameMark (frameIndex : UInt32)
  | bisectionCheckpoint (maxCoveredGap : UInt32) (checkpointSnapshotRef : Hash)
      (checkpointVns : UInt64)

structure Call where
  icount : UInt64
  boundaryRip : UInt64
  emission : Emission

def LogWriter.append (w : LogWriter) (c : Call) : Except WriteError LogWriter :=
  match c.emission with
  | .padSet port buttons frameHint => w.padSet c.icount c.boundaryRip port buttons frameHint
  | .devEvent deviceId eventType data =>
    w.devEvent c.icount c.boundaryRip deviceId eventType data
  | .netRx frame => w.netRx c.icount c.boundaryRip frame
  | .pioAnswer port value => w.pioAnswer c.icount c.boundaryRip port value
  | .entropy len digest8 => w.entropy c.icount c.boundaryRip len digest8
  | .netTx len digest8 => w.netTx c.icount c.boundaryRip len digest8
  | .epochHash epochIndex chainValue => w.epochHash c.icount c.boundaryRip epochIndex chainValue
  | .timerFire vector armedDeadlineVns deliveredIcount =>
    w.timerFire c.icount c.boundaryRip vector armedDeadlineVns deliveredIcount
  | .sdkEvent stream len digest8 => w.sdkEvent c.icount c.boundaryRip stream len digest8
  | .frameMark frameIndex => w.frameMark c.icount c.boundaryRip frameIndex
  | .bisectionCheckpoint maxCoveredGap checkpointSnapshotRef checkpointVns =>
    w.bisectionCheckpoint c.icount c.boundaryRip maxCoveredGap checkpointSnapshotRef checkpointVns

def LogWriter.appendAll (w : LogWriter) (calls : List Call) : Except WriteError LogWriter :=
  calls.foldlM append w

namespace Call

def kind (c : Call) : Kind :=
  match c.emission with
  | .padSet .. => .padSet
  | .devEvent .. | .pioAnswer .. => .devEvent
  | .netRx .. => .netRx
  | .entropy .. => .entropy
  | .netTx .. => .netTx
  | .epochHash .. => .epochHash
  | .timerFire .. => .timerFire
  | .sdkEvent .. => .sdkEvent
  | .frameMark .. => .frameMark
  | .bisectionCheckpoint .. => .bisectionCheckpoint

def body (c : Call) : RecordBody :=
  match c.emission with
  | .padSet port buttons frameHint => .padSet port buttons frameHint
  | .devEvent deviceId eventType data => .devEvent deviceId eventType data
  | .netRx frame => .netRx frame
  | .pioAnswer port value =>
    .devEvent (UInt16.ofNat deviceIdDetchannel) (UInt16.ofNat eventPioAnswer)
      (toLe port ++ zeros 2 ++ toLe value)
  | .entropy len digest8 => .entropy len digest8
  | .netTx len digest8 => .netTx len digest8
  | .epochHash epochIndex chainValue => .epochHash epochIndex chainValue
  | .timerFire vector armedDeadlineVns deliveredIcount =>
    .timerFire vector armedDeadlineVns deliveredIcount
  | .sdkEvent stream len digest8 => .sdkEvent stream len digest8
  | .frameMark frameIndex => .frameMark frameIndex
  | .bisectionCheckpoint maxCoveredGap checkpointSnapshotRef checkpointVns =>
    .bisectionCheckpoint bisectionCheckpointFormatVersion bisectionCheckpointFlags maxCoveredGap
      checkpointSnapshotRef c.icount checkpointVns

end Call

def RecordBody.payload : RecordBody → List UInt8
  | .padSet port buttons frameHint => [port] ++ zeros 3 ++ toLe buttons ++ toLe frameHint
  | .devEvent deviceId eventType data =>
    toLe deviceId ++ toLe eventType ++ toLe (UInt32.ofNat data.length) ++ data
  | .netRx frame => frame
  | .entropy len digest8 | .netTx len digest8 => toLe len ++ zeros 4 ++ toLe digest8
  | .timerFire vector armedDeadlineVns deliveredIcount =>
    [vector] ++ zeros 3 ++ toLe armedDeadlineVns ++ toLe deliveredIcount
  | .epochHash epochIndex chainValue => toLe epochIndex ++ chainValue.toList
  | .sdkEvent stream len digest8 => toLe stream ++ zeros 2 ++ toLe len ++ toLe digest8
  | .frameMark frameIndex => toLe frameIndex ++ zeros 4
  | .bisectionCheckpoint formatVersion flags maxCoveredGap checkpointSnapshotRef checkpointIcount
      checkpointVns =>
      toLe formatVersion ++ toLe flags ++ toLe maxCoveredGap ++ checkpointSnapshotRef.toList ++
        toLe checkpointIcount ++ toLe checkpointVns
  | .end stopReason endStateHash => [stopReason] ++ zeros 7 ++ endStateHash.toList
  | .unknown _ payload => payload

attribute [local simp] RecordBody.payload

def Call.record (c : Call) (i : ℕ) : Record where
  kind := c.kind.code
  rflags := if c.kind.isAux then rflagAux else 0
  seq := UInt32.ofNat i
  icount := c.icount
  boundaryRip := c.boundaryRip
  payload := c.body.payload

def SealParams.record (params : SealParams) (i : ℕ) : Record where
  kind := Kind.end.code
  rflags := rflagAux
  seq := UInt32.ofNat i
  icount := params.endIcount
  boundaryRip := 0
  payload := (RecordBody.end params.stopReason params.endStateHash).payload

def LogWriter.after (header : SegmentHeader) (rs : List Record) : LogWriter where
  buf := zeros headerLen ++ image rs
  header := header
  recordCount := rs.length
  lastIcount := (RecordScan.after rs).lastIcount
  hasAux := rs.any Record.isAux
  wroteEpochHash := rs.any Record.isEpochHash

lemma LogWriter.after_nil (header : SegmentHeader) : after header [] = new header := by
  simp [after, new, RecordScan.default]

variable {c : Call} {calls : List Call} {header : SegmentHeader} {i : ℕ} {icount : UInt64}
  {params : SealParams} {rs : List Record} {w : LogWriter}

lemma LogWriter.record_after_eq_ok_iff {k : Kind} {rflags : UInt8} {boundaryRip : UInt64}
    {payload : List UInt8} : (after header rs).record k rflags icount boundaryRip payload = .ok w ↔
      payload.length ≤ maxPayload ∧ (0 < rs.length → (RecordScan.after rs).lastIcount ≤ icount) ∧
      rs.length < 2 ^ 32 ∧
      w = { after header (rs ++ [⟨k.code, rflags, UInt32.ofNat rs.length, icount, boundaryRip,
        payload⟩]) with wroteEpochHash := rs.any Record.isEpochHash } := by
  have hicount : (0 < rs.length → (RecordScan.after rs).lastIcount ≤ icount) ↔
      ¬(0 < rs.length ∧ icount < (RecordScan.after rs).lastIcount) := by
    rw [not_and, UInt64.not_lt]
  rw [record, hicount]
  split_ifs with h1 h2 h3
  · simp only [false_iff]
    exact fun h => Nat.not_lt.mpr h.1 h1
  · simp only [false_iff]
    exact fun h => h.2.1 h2
  · simp only [false_iff]
    exact fun h => Nat.not_lt.mpr h3 h.2.2.1
  · rw [Except.ok.injEq]
    constructor
    · rintro rfl
      refine ⟨Nat.not_lt.mp h1, h2, Nat.not_le.mp h3, ?_⟩
      simp [after, RecordScan.after_snoc, RecordScan.past]
    · rintro ⟨-, -, -, rfl⟩
      simp [after, RecordScan.after_snoc, RecordScan.past]

def Call.Sized (c : Call) : Prop :=
  match c.emission with
  | .devEvent _ _ data => data.length ≤ maxDevEventData
  | .netRx frame => frame ≠ [] ∧ frame.length ≤ maxNetRxFrame
  | _ => True

lemma LogWriter.append_eq_ok_iff {w' : LogWriter} : w.append c = .ok w' ↔ c.Sized ∧ ∃ w1,
      w.record c.kind (if c.kind.isAux then rflagAux else 0) c.icount c.boundaryRip
        c.body.payload = .ok w1 ∧
      w' = { w1 with wroteEpochHash := w1.wroteEpochHash || c.kind == .epochHash } := by
  -- only `epoch_hash` touches the flag
  have hplain : ∀ (k : Kind) (x : Except WriteError LogWriter), (k == .epochHash) = false →
      (x = .ok w' ↔ ∃ w1, x = .ok w1 ∧
        w' = { w1 with wroteEpochHash := w1.wroteEpochHash || k == .epochHash }) := by
    intro k x hk
    simp [hk]
  obtain ⟨icount, boundaryRip, emission⟩ := c
  cases emission with
  | devEvent deviceId eventType data =>
    by_cases h : maxDevEventData < data.length
    · simp [append, devEvent, Call.Sized, h, Nat.not_le.mpr h]
    · simp only [append, devEvent, if_neg h]
      exact (hplain _ _ rfl).trans (and_iff_right (Nat.not_lt.mp h)).symm
  | netRx frame =>
    by_cases h : frame = []
    · simp [append, netRx, Call.Sized, h]
    · by_cases h' : maxNetRxFrame < frame.length
      · simp [append, netRx, Call.Sized, h, h', Nat.not_le.mpr h']
      · have hempty : ¬frame.isEmpty = true := by simpa using h
        simp only [append, netRx, if_neg hempty, if_neg h']
        exact (hplain _ _ rfl).trans (and_iff_right ⟨h, Nat.not_lt.mp h'⟩).symm
  | epochHash epochIndex chainValue =>
    simp only [append, epochHash, Except.bind_eq_ok, Except.ok.injEq, Call.Sized, true_and,
      Call.kind, Kind.isAux, if_true, Call.body, RecordBody.payload, beq_self_eq_true,
      Bool.or_true]
    exact exists_congr fun w1 => and_congr_right fun _ => eq_comm
  | _ => exact (hplain _ _ rfl).trans (and_iff_right trivial).symm

lemma devEvent_fits {deviceId eventType : UInt16} {data : List UInt8}
    (h : data.length ≤ maxDevEventData) :
    Kind.devEvent.Fits (RecordBody.devEvent deviceId eventType data).payload icount := by
  have hlen : data.length ≤ 4088 := h
  have hpayload : (RecordBody.devEvent deviceId eventType data).payload.length =
      8 + data.length := by
    simp
    omega
  refine ⟨by omega, UInt32.ofNat data.length, ?_, ?_⟩
  · simp [slice_append_left, slice_append_right, slice_full]
  · rw [hpayload, Nat.add_sub_cancel_left]
    exact UInt32.toNat_ofNat_of_lt (hlen.trans_lt (by decide))

lemma Call.fits_iff :
    c.body.payload.length ≤ maxPayload ∧ c.kind.Fits c.body.payload c.icount ↔ c.Sized := by
  obtain ⟨icount, boundaryRip, emission⟩ := c
  cases emission with
  | devEvent deviceId eventType data =>
    have hpayload : (RecordBody.devEvent deviceId eventType data).payload.length =
        8 + data.length := by
      simp
      omega
    constructor
    · rintro ⟨hlen, -⟩
      rw [body, hpayload, maxPayload] at hlen
      rw [Sized, maxDevEventData, maxPayload]
      omega
    · intro h
      refine ⟨?_, devEvent_fits h⟩
      rw [body, hpayload, maxPayload]
      rw [Sized, maxDevEventData, maxPayload] at h
      omega
  | netRx frame =>
    simp only [body, RecordBody.payload, kind, Kind.Fits, Sized, maxNetRxFrame, maxPayload,
      Nat.one_le_iff_ne_zero, ne_eq, List.length_eq_zero_iff]
    exact ⟨fun h => h.2, fun h => ⟨h.2.trans (by omega), h⟩⟩
  | pioAnswer port value =>
    refine iff_of_true ⟨by simp [body, maxPayload], devEvent_fits ?_⟩ trivial
    simp [maxDevEventData, maxPayload]
  | bisectionCheckpoint maxCoveredGap checkpointSnapshotRef checkpointVns =>
    simp [body, kind, Kind.Fits, Sized, maxPayload, bisectionCheckpointPayloadLen,
      slice_append_left, slice_append_right, slice_full]
  | _ => simp [body, kind, Kind.Fits, Sized, maxPayload]

lemma Call.isAux_record (c : Call) (i : ℕ) : (c.record i).isAux = c.kind.isAux := by
  have haux : ∀ aux : Bool, ((if aux then rflagAux else 0) &&& rflagAux != 0) = aux := by decide
  exact haux c.kind.isAux

lemma Call.valid_record_iff : (c.record i).Valid ↔ c.Sized := by
  have hrflags : ∀ aux : Bool, (if aux then rflagAux else 0) &&& ~~~rflagAux = 0 := by decide
  have htyped : (c.record i).Typed ↔ c.kind.Fits c.body.payload c.icount := by
    have hkind : Kind.ofCode (c.record i).kind = some c.kind := Kind.ofCode_code c.kind
    simp only [Record.Typed, hkind, isAux_record, true_and]
    rfl
  rw [← fits_iff]
  constructor
  · intro h
    exact ⟨h.payload_le, htyped.mp h.typed⟩
  · rintro ⟨hlen, hfits⟩
    exact ⟨hlen, hrflags c.kind.isAux, htyped.mpr hfits⟩

lemma toNat_ofNat_eq_iff {n : ℕ} : (UInt32.ofNat n).toNat = n ↔ n < 2 ^ 32 := by
  constructor
  · intro h
    rw [← h]
    exact UInt32.toNat_lt _
  · exact fun h => UInt32.toNat_ofNat_of_lt h

lemma Call.isEpochHash_record : (c.record i).isEpochHash = (c.kind == .epochHash) := by
  have hkind : Kind.ofCode (c.record i).kind = some c.kind := Kind.ofCode_code c.kind
  rw [Bool.eq_iff_iff, Record.isEpochHash_iff, hkind, beq_iff_eq, Option.some.injEq]

lemma LogWriter.append_after_eq_ok_iff : (after header rs).append c = .ok w ↔
      (RecordScan.after rs).Admits (c.record rs.length) ∧
      w = after header (rs ++ [c.record rs.length]) := by
  have hepoch : (rs.any Record.isEpochHash || c.kind == .epochHash) =
      (rs ++ [c.record rs.length]).any Record.isEpochHash := by
    simp [Call.isEpochHash_record]
  have hgrown : after header (rs ++ [c.record rs.length]) =
      { after header (rs ++ [c.record rs.length]) with
        wroteEpochHash := rs.any Record.isEpochHash || c.kind == .epochHash } := by
    rw [hepoch]
    rfl
  rw [append_eq_ok_iff, hgrown]
  constructor
  · rintro ⟨hsized, w1, hw1, rfl⟩
    obtain ⟨-, hicount, hseq, rfl⟩ := record_after_eq_ok_iff.mp hw1
    rw [← RecordScan.count_after] at hicount
    refine ⟨⟨Call.valid_record_iff.mpr hsized, ?_, hicount⟩, rfl⟩
    rw [RecordScan.count_after]
    exact toNat_ofNat_eq_iff.mpr hseq
  · rintro ⟨hadmits, rfl⟩
    have hicount := hadmits.icount
    have hseq := hadmits.seq
    rw [RecordScan.count_after] at hicount hseq
    exact ⟨Call.valid_record_iff.mp hadmits.valid, _, record_after_eq_ok_iff.mpr
      ⟨hadmits.valid.payload_le, hicount, toNat_ofNat_eq_iff.mp hseq, rfl⟩, rfl⟩

def recordsOf (calls : List Call) : List Record := calls.mapIdx fun i c => c.record i

lemma recordsOf_snoc (calls : List Call) (c : Call) :
    recordsOf (calls ++ [c]) = recordsOf calls ++ [c.record calls.length] := by
  simp [recordsOf, List.mapIdx_append]

@[simp] lemma length_recordsOf (calls : List Call) : (recordsOf calls).length = calls.length := by
  simp [recordsOf]

lemma any_recordsOf {p : Record → Bool} {q : Call → Bool} (h : ∀ c i, p (Call.record c i) = q c)
    (calls : List Call) : (recordsOf calls).any p = calls.any q := by
  induction calls using List.reverseRecOn with
  | nil => rfl
  | append_singleton calls c ih => simp [recordsOf_snoc, ih, h]

lemma LogWriter.appendAll_new_eq_ok_iff : (new header).appendAll calls = .ok w ↔
      Sequenced (recordsOf calls) ∧ w = after header (recordsOf calls) := by
  induction calls using List.reverseRecOn generalizing w with
  | nil =>
    rw [appendAll, List.foldlM_nil, ← after_nil]
    exact ⟨fun h => ⟨sequenced_nil, (Except.ok.inj h).symm⟩, fun h => congrArg Except.ok h.2.symm⟩
  | append_singleton calls c ih =>
    have hstep : (new header).appendAll (calls ++ [c]) =
        (new header).appendAll calls >>= fun w => w.append c := by
      simp [appendAll, List.foldlM_append]
    rw [hstep, Except.bind_eq_ok, recordsOf_snoc, sequenced_snoc]
    constructor
    · rintro ⟨w', hw', hw⟩
      obtain ⟨hcalls, rfl⟩ := ih.mp hw'
      rw [append_after_eq_ok_iff, length_recordsOf] at hw
      exact ⟨⟨hcalls, hw.1⟩, hw.2⟩
    · rintro ⟨⟨hcalls, hc⟩, hw⟩
      refine ⟨_, ih.mpr ⟨hcalls, rfl⟩, ?_⟩
      rw [append_after_eq_ok_iff, length_recordsOf]
      exact ⟨hc, hw⟩

def sealedHeader (blake3 : List UInt8 → Hash) (header : SegmentHeader) (params : SealParams)
    (rs : List Record) : Header where
  version := formatVersion
  flags := flagSealed ||| (if rs.any Record.isAux then flagHasAux else 0) |||
    (if rs.any Record.isEpochHash then flagEpochHashes else 0)
  baseSnapshotId := header.baseSnapshotId
  endSnapshotId := params.endSnapshotId
  entropySeed := header.entropySeed
  machineConfigHash := header.machineConfigHash
  clockNum := header.clockNum
  clockDen := header.clockDen
  recordCount := UInt64.ofNat (rs.length + 1)
  endIcount := params.endIcount
  endVns := params.endVns
  endStateHash := params.endStateHash
  bodyHash := blake3 (image (rs ++ [params.record rs.length]))
  encoderFingerprint := header.encoderFingerprint

lemma SealParams.valid_record (params : SealParams) (i : ℕ) : (params.record i).Valid := by
  have hkind : Kind.ofCode (params.record i).kind = some .end := Kind.ofCode_code .end
  have hrflags : rflagAux &&& ~~~rflagAux = 0 := by decide
  have hisAux : (rflagAux &&& rflagAux != 0) = true := by decide
  refine ⟨by simp [record, maxPayload], hrflags, ?_⟩
  rw [Record.Typed, hkind]
  exact ⟨hisAux.symm, by simp [Kind.Fits, record]⟩

lemma LogWriter.seal_after_eq_ok_iff {blake3 : List UInt8 → Hash} {bytes : List UInt8} :
    (after header rs).seal blake3 params = .ok bytes ↔
      (RecordScan.after rs).Admits (params.record rs.length) ∧
      bytes = (sealedHeader blake3 header params rs).bytes ++
        image (rs ++ [params.record rs.length]) := by
  have hcount : (rs ++ [params.record rs.length]).length = rs.length + 1 := by simp
  rw [LogWriter.seal, Except.bind_eq_ok]
  constructor
  · rintro ⟨w, hw, hbytes⟩
    obtain ⟨-, hicount, hseq, rfl⟩ := record_after_eq_ok_iff.mp hw
    rw [← RecordScan.count_after] at hicount
    refine ⟨⟨params.valid_record _, ?_, hicount⟩, ?_⟩
    · rw [RecordScan.count_after]
      exact toNat_ofNat_eq_iff.mpr hseq
    · rw [sealedHeader, ← hcount]
      exact (Except.ok.inj hbytes).symm
  · rintro ⟨hadmits, rfl⟩
    have hicount := hadmits.icount
    have hseq := hadmits.seq
    rw [RecordScan.count_after] at hicount hseq
    refine ⟨_, record_after_eq_ok_iff.mpr
      ⟨hadmits.valid.payload_le, hicount, toNat_ofNat_eq_iff.mp hseq, rfl⟩, ?_⟩
    rw [sealedHeader, ← hcount]
    rfl

lemma length_image_le (h : Sequenced rs) : (image rs).length ≤ 4127 * rs.length := by
  induction rs using List.reverseRecOn with
  | nil => simp
  | append_singleton rs r ih =>
    obtain ⟨hrs, hr⟩ := sequenced_snoc.mp h
    have hpayload : r.payload.length ≤ 4096 := hr.valid.payload_le
    have hpad := padLen_lt r.payload.length
    have hrest := ih hrs
    simp only [image_append, image_cons, image_nil, List.append_nil, List.length_append,
      r.length_bytes, List.length_singleton]
    omega

lemma Sequenced.length_le (h : Sequenced rs) : rs.length ≤ 2 ^ 32 := by
  induction rs using List.reverseRecOn with
  | nil => simp
  | append_singleton rs r ih =>
    have hseq := (sequenced_snoc.mp h).2.seq
    rw [RecordScan.count_after] at hseq
    have := r.seq.toNat_lt
    simp only [List.length_append, List.length_singleton]
    omega

lemma Sequenced.length_image_lt (h : Sequenced rs) : (image rs).length < 2 ^ 64 := by
  have hle := length_image_le h
  have hcount := h.length_le
  omega

lemma sealedHeader_flags (aux epoch : Bool) :
    let flags := flagSealed ||| (if aux then flagHasAux else 0) |||
      (if epoch then flagEpochHashes else 0)
    flags &&& ~~~(flagSealed ||| flagHasAux ||| flagEpochHashes) = 0 ∧ flags &&& flagSealed ≠ 0 ∧
      (flags &&& flagHasAux != 0) = aux ∧ (flags &&& flagEpochHashes != 0) = epoch := by
  revert aux epoch
  decide

lemma sealedBody_of_sequenced (blake3 : List UInt8 → Hash) (header : SegmentHeader)
    (hrs : ∀ r ∈ rs, r.isEnd = false) (h : Sequenced (rs ++ [params.record rs.length])) :
    SealedBody (sealedHeader blake3 header params rs) (image (rs ++ [params.record rs.length])) rs
      (params.record rs.length) where
  body_eq := rfl
  sequenced := h
  not_isEnd := hrs
  isEnd := by simp [Record.isEnd, SealParams.record]
  endAgrees := by
    refine ⟨rfl, ?_, rfl, ?_⟩
    · simp [SealParams.record, slice_cons, slice_append_left, slice_full]
    · simp [SealParams.record, sealedHeader, slice_cons, slice_append_right, slice_full]
  recordCount := by
    have hlen := h.length_le
    rw [List.length_append, List.length_singleton] at hlen
    exact UInt64.toNat_ofNat_of_lt (hlen.trans_lt (by decide))
  hasAux := (sealedHeader_flags _ _).2.2.1
  hasEpochHashes := (sealedHeader_flags _ _).2.2.2

lemma parse_sealedHeader (blake3 : List UInt8 → Hash) (hclock : header.clockDen ≠ 0)
    (hrs : ∀ r ∈ rs, r.isEnd = false) (h : Sequenced (rs ++ [params.record rs.length])) :
    LogReader.parse blake3 ((sealedHeader blake3 header params rs).bytes ++
        image (rs ++ [params.record rs.length])) =
      .ok ⟨sealedHeader blake3 header params rs, image (rs ++ [params.record rs.length])⟩ := by
  have hversion : formatVersion >>> 8 = 0x01 := by decide
  have hflags := sealedHeader_flags (rs.any Record.isAux) (rs.any Record.isEpochHash)
  have haccepted : (sealedHeader blake3 header params rs).Accepted true :=
    ⟨hversion, hflags.1, fun _ => hflags.2.1, hclock⟩
  exact LogReader.parse_of_sealedBody h.length_image_lt haccepted rfl
    (sealedBody_of_sequenced blake3 header hrs h)

lemma Call.body_record (c : Call) (i : ℕ) : (c.record i).body = .ok c.body := by
  have hkind : Kind.ofCode (c.record i).kind = some c.kind := Kind.ofCode_code c.kind
  rw [Record.body, hkind]
  obtain ⟨icount, boundaryRip, emission⟩ := c
  cases emission <;>
    simp [kind, record, body, word_append, word_toLe_append, word_toLe, word_cons, array_append,
      array_toList_append, array_toList, suffix_append, suffix_zero, index_cons_zero]

lemma SealParams.body_record (params : SealParams) (i : ℕ) :
    (params.record i).body = .ok (.end params.stopReason params.endStateHash) := by
  have hkind : Kind.ofCode (params.record i).kind = some .end := Kind.ofCode_code .end
  rw [Record.body, hkind]
  simp [record, index_cons_zero, array_cons, array_append, array_toList]

lemma Call.isEnd_record (c : Call) (i : ℕ) : (c.record i).isEnd = false := by
  obtain ⟨icount, boundaryRip, emission⟩ := c
  cases emission <;> rfl

lemma not_isEnd_recordsOf : ∀ r ∈ recordsOf calls, r.isEnd = false := by
  intro r hr
  obtain ⟨i, hi, rfl⟩ := List.mem_mapIdx.mp hr
  exact Call.isEnd_record _ _

/-- Whatever is appended and sealed parses, with the header and the records that
were written. -/
theorem parse_seal (blake3 : List UInt8 → Hash) (header : SegmentHeader)
    (hclock : header.clockDen ≠ 0) (calls : List Call) (w : LogWriter)
    (hcalls : (LogWriter.new header).appendAll calls = .ok w) (params : SealParams)
    (bytes : List UInt8) (hseal : w.seal blake3 params = .ok bytes) :
    ∃ reader, LogReader.parse blake3 bytes = .ok reader ∧ reader.header = { reader.header with
        baseSnapshotId := header.baseSnapshotId
        entropySeed := header.entropySeed
        machineConfigHash := header.machineConfigHash
        clockNum := header.clockNum
        clockDen := header.clockDen
        encoderFingerprint := header.encoderFingerprint
        endSnapshotId := params.endSnapshotId
        endIcount := params.endIcount
        endVns := params.endVns
        endStateHash := params.endStateHash } ∧
      reader.header.recordCount.toNat = calls.length + 1 ∧
      (reader.header.hasAux = true ↔ ∃ c ∈ calls, c.kind.isAux = true) ∧
      (reader.header.hasEpochHashes = true ↔ ∃ c ∈ calls, c.kind = .epochHash) ∧
      reader.records = .ok
        ((calls.mapIdx fun i c => c.record i) ++ [params.record calls.length]) ∧
      (∀ c ∈ calls, ∀ i, (c.record i).body = .ok c.body) ∧
      (params.record calls.length).body = .ok (.end params.stopReason params.endStateHash) := by
  obtain ⟨hrecords, rfl⟩ := LogWriter.appendAll_new_eq_ok_iff.mp hcalls
  obtain ⟨hend, rfl⟩ := LogWriter.seal_after_eq_ok_iff.mp hseal
  have hsequenced := sequenced_snoc.mpr ⟨hrecords, hend⟩
  have hsealed := sealedBody_of_sequenced blake3 header not_isEnd_recordsOf hsequenced
  refine ⟨_, parse_sealedHeader blake3 hclock not_isEnd_recordsOf hsequenced, rfl, ?_, ?_, ?_, ?_,
    fun c _ i => c.body_record i, params.body_record _⟩
  · rw [hsealed.recordCount, length_recordsOf]
  · rw [hsealed.hasAux, any_recordsOf fun c i => c.isAux_record i, List.any_eq_true]
  · rw [hsealed.hasEpochHashes, any_recordsOf fun c i => c.isEpochHash_record, List.any_eq_true]
    simp only [beq_iff_eq]
  · rw [hsealed.records_eq hsequenced.length_image_lt, length_recordsOf]
    rfl

theorem parse_seal_pad_and_epoch : ∃ w bytes reader,
      (LogWriter.new ⟨.replicate 32 1, .replicate 32 0, .replicate 32 2, 3, 2, 0⟩).appendAll
        [⟨5, 0x1000, .padSet 0 3 0xFFFFFFFF⟩, ⟨8, 0x1004, .epochHash 1 (.replicate 32 7)⟩] = .ok w ∧
      w.seal (fun _ => .replicate 32 9) ⟨.replicate 32 0, 8, 12, .replicate 32 7, 2⟩ = .ok bytes ∧
      LogReader.parse (fun _ => .replicate 32 9) bytes = .ok reader ∧
      reader.header.hasAux = true ∧ reader.header.hasEpochHashes = true ∧
      reader.header.recordCount.toNat = 3 := by
  obtain ⟨reader, hreader, -, hcount, haux, hepoch, -⟩ :=
    parse_seal (fun _ => .replicate 32 9)
      ⟨.replicate 32 1, .replicate 32 0, .replicate 32 2, 3, 2, 0⟩ (by decide)
      [⟨5, 0x1000, .padSet 0 3 0xFFFFFFFF⟩, ⟨8, 0x1004, .epochHash 1 (.replicate 32 7)⟩] _ rfl
      ⟨.replicate 32 0, 8, 12, .replicate 32 7, 2⟩ _ rfl
  refine ⟨_, _, reader, rfl, rfl, hreader, haux.mpr ?_, hepoch.mpr ?_, hcount⟩
  · exact ⟨_, List.mem_cons_of_mem _ List.mem_cons_self, rfl⟩
  · exact ⟨_, List.mem_cons_of_mem _ List.mem_cons_self, rfl⟩

end DetHypervisor.Dhilog
