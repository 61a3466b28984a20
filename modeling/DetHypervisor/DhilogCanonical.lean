import DetHypervisor.DhilogRoundTrip

/-!
# Re-emitting an accepted log

Writing the content of an accepted log again gives back the log with the reserved bytes inside
its payloads zeroed, since the reader does not check the pad bytes of six of the kinds.
-/

namespace DetHypervisor.Dhilog

variable {params : SealParams} {r : Record} {rs ts : List Record}

open Bytes Checked List Except RecordScan Option Dhilog.Record LogReader

def RecordBody.emission : RecordBody → Option Emission
  | .padSet port buttons frameHint => some (.padSet port buttons frameHint)
  | .devEvent deviceId eventType data => some (.devEvent deviceId eventType data)
  | .netRx frame => some (.netRx frame)
  | .entropy len digest8 => some (.entropy len digest8)
  | .timerFire vector armedDeadlineVns deliveredIcount =>
    some (.timerFire vector armedDeadlineVns deliveredIcount)
  | .epochHash epochIndex chainValue => some (.epochHash epochIndex chainValue)
  | .sdkEvent stream len digest8 => some (.sdkEvent stream len digest8)
  | .netTx len digest8 => some (.netTx len digest8)
  | .frameMark frameIndex => some (.frameMark frameIndex)
  | .bisectionCheckpoint _ _ maxCoveredGap checkpointSnapshotRef _ checkpointVns =>
    some (.bisectionCheckpoint maxCoveredGap checkpointSnapshotRef checkpointVns)
  | .end .. | .unknown .. => none

/-- A record as its reader sees it: the boundary it lands at and its typed
payload. -/
structure TypedRecord where
  icount : UInt64
  boundaryRip : UInt64
  body : RecordBody

/-- The append that writes the record again. END is written by sealing. -/
def TypedRecord.call? (t : TypedRecord) : Option Call :=
  t.body.emission.map fun emission => ⟨t.icount, t.boundaryRip, emission⟩

structure Content where
  segment : SegmentHeader
  records : List TypedRecord
  params : SealParams

def Record.typed (r : Record) : Exec Empty TypedRecord := do
  .ok ⟨r.icount, r.boundaryRip, ← r.body⟩

def Header.segment (h : Header) : SegmentHeader :=
  ⟨h.baseSnapshotId, h.entropySeed, h.machineConfigHash, h.clockNum, h.clockDen,
    h.encoderFingerprint⟩

def Header.sealParams (h : Header) (stopReason : UInt8) : SealParams :=
  ⟨h.endSnapshotId, h.endIcount, h.endVns, h.endStateHash, stopReason⟩

def LogReader.content (reader : LogReader) : Exec Empty Content := do
  let records ← reader.records
  let typed ← records.mapM Record.typed
  let (stopReason, _) ← reader.end
  .ok ⟨reader.header.segment, typed, reader.header.sealParams stopReason⟩

def Content.reemit (blake3 : List UInt8 → Hash) (c : Content) : Except WriteError (List UInt8) := do
  let w ← (LogWriter.new c.segment).appendAll (c.records.filterMap TypedRecord.call?)
  w.seal blake3 c.params

def Kind.reservedSpan : Kind → ℕ × ℕ
  | .padSet | .timerFire => (1, 4)
  | .entropy | .netTx | .frameMark => (4, 8)
  | .sdkEvent => (2, 4)
  | _ => (0, 0)

namespace Record

def reservedSpan (r : Record) : ℕ × ℕ := (Kind.ofCode r.kind).elim (0, 0) Kind.reservedSpan

def reserved (r : Record) : List UInt8 := Bytes.slice r.payload r.reservedSpan.1 r.reservedSpan.2

def zeroed (r : Record) : Record :=
  { r with payload := r.payload.take r.reservedSpan.1 ++
      zeros (r.reservedSpan.2 - r.reservedSpan.1) ++ r.payload.drop r.reservedSpan.2 }

lemma Valid.reservedSpan_le (h : r.Valid) :
    r.reservedSpan.1 ≤ r.reservedSpan.2 ∧ r.reservedSpan.2 ≤ r.payload.length := by
  have htyped := h.typed
  rw [Typed] at htyped
  rw [reservedSpan]
  cases hkind : Kind.ofCode r.kind with
  | none => simp
  | some k =>
    rw [hkind] at htyped
    have hfits := htyped.2
    cases k <;> simp only [Kind.Fits] at hfits <;>
      simp only [elim_some, Kind.reservedSpan] <;> omega

lemma Valid.payload_eq (h : r.Valid) : r.payload = r.payload.take r.reservedSpan.1 ++ r.reserved ++
      r.payload.drop r.reservedSpan.2 := by
  rw [append_assoc, reserved, ← drop_eq_slice_append h.reservedSpan_le.1, take_append_drop]

lemma Valid.zeroed_eq_iff (h : r.Valid) : r.zeroed = r ↔ ∀ x ∈ r.reserved, x = 0 := by
  have hlen : r.reserved.length = r.reservedSpan.2 - r.reservedSpan.1 :=
    length_slice h.reservedSpan_le.2
  have hzeros : r.reserved = zeros (r.reservedSpan.2 - r.reservedSpan.1) ↔
      ∀ x ∈ r.reserved, x = 0 := by
    rw [eq_zeros_iff, hlen]
    exact and_iff_right rfl
  rw [← hzeros]
  constructor
  · intro hzeroed
    have hpayload := (congrArg Record.payload hzeroed).trans h.payload_eq
    simp only [zeroed, append_assoc] at hpayload
    exact (append_inj_left (append_cancel_left hpayload) (by simp [hlen])).symm
  · intro hreserved
    rw [zeroed, ← hreserved, ← h.payload_eq]

lemma Valid.rflags_eq (h : r.Valid) : r.rflags = if r.isAux then rflagAux else 0 := by
  have hall : ∀ f : UInt8, f &&& ~~~rflagAux = 0 →
      f = if (f &&& rflagAux != 0) then rflagAux else 0 := by
    rintro ⟨f⟩
    revert f
    decide
  exact hall r.rflags h.rflags

end Record

section
attribute [local simp] Call.body RecordBody.payload Kind.reservedSpan slice_append_slice

lemma Record.Valid.exists_emission (h : r.Valid) {k : Kind}
    (hkind : Kind.ofCode r.kind = some k) (hend : k ≠ .end) :
    ∃ b emission, r.body = .ok b ∧ b.emission = some emission ∧
      (Call.mk r.icount r.boundaryRip emission).kind = k ∧
      (Call.mk r.icount r.boundaryRip emission).body.payload = r.zeroed.payload := by
  have htyped := h.typed
  rw [Record.Typed, hkind] at htyped
  have hfits := htyped.2
  obtain ⟨b, hb⟩ := h.exists_body
  have hbody := hb
  rw [Record.body, hkind] at hbody
  have hspan : r.reservedSpan = k.reservedSpan := by rw [Record.reservedSpan, hkind, elim_some]
  rw [Record.zeroed, hspan]
  cases k with
  | padSet =>
    simp only [bind_eq_ok, index_eq_ok_iff, word_eq_ok_iff] at hbody
    obtain ⟨port, h0, buttons, ⟨-, -, h1⟩, frameHint, ⟨-, -, h2⟩, hb'⟩ := hbody
    cases hb'
    refine ⟨_, _, hb, rfl, rfl, ?_⟩
    simp [take_eq_slice, drop_eq_slice hfits, ← slice_succ h0, ← h1, ← h2]
  | devEvent =>
    simp only [bind_eq_ok, word_eq_ok_iff, suffix_eq_ok_iff] at hbody
    obtain ⟨deviceId, ⟨-, -, h1⟩, eventType, ⟨-, -, h2⟩, data, ⟨-, h3⟩, hb'⟩ := hbody
    cases hb'
    obtain ⟨hlen, n, hn, hdata⟩ := hfits
    refine ⟨_, _, hb, rfl, rfl, ?_⟩
    have hlength : UInt32.ofNat data.length = n := by
      rw [← h3, length_drop, ← hdata, UInt32.ofNat_toNat]
    have hpayload : toLe deviceId ++ (toLe eventType ++ (toLe (UInt32.ofNat data.length) ++ data)) =
        r.payload := by
      rw [hlength, ← h1, ← h2, ← hn, ← h3, ← drop_eq_slice_append (by omega),
        ← drop_eq_slice_append (by omega), ← drop_eq_slice_append (by omega), drop_zero]
    simpa using hpayload
  | netRx =>
    cases hbody
    exact ⟨_, _, hb, rfl, rfl, by simp⟩
  | entropy | netTx =>
    simp only [bind_eq_ok, word_eq_ok_iff] at hbody
    obtain ⟨len, ⟨-, -, h1⟩, digest8, ⟨-, -, h2⟩, hb'⟩ := hbody
    cases hb'
    refine ⟨_, _, hb, rfl, rfl, ?_⟩
    simp [take_eq_slice, drop_eq_slice hfits, ← h1, ← h2]
  | timerFire =>
    simp only [bind_eq_ok, index_eq_ok_iff, word_eq_ok_iff] at hbody
    obtain ⟨vector, h0, armed, ⟨-, -, h1⟩, delivered, ⟨-, -, h2⟩, hb'⟩ := hbody
    cases hb'
    refine ⟨_, _, hb, rfl, rfl, ?_⟩
    simp [take_eq_slice, drop_eq_slice hfits, ← slice_succ h0, ← h1, ← h2]
  | epochHash =>
    simp only [bind_eq_ok, word_eq_ok_iff, array_eq_ok_iff] at hbody
    obtain ⟨epochIndex, ⟨-, -, h1⟩, chainValue, ⟨-, -, h2⟩, hb'⟩ := hbody
    cases hb'
    refine ⟨_, _, hb, rfl, rfl, ?_⟩
    simp [← h1, ← h2, slice_full hfits]
  | sdkEvent =>
    simp only [bind_eq_ok, word_eq_ok_iff] at hbody
    obtain ⟨stream, ⟨-, -, h1⟩, len, ⟨-, -, h2⟩, digest8, ⟨-, -, h3⟩, hb'⟩ := hbody
    cases hb'
    refine ⟨_, _, hb, rfl, rfl, ?_⟩
    simp [take_eq_slice, drop_eq_slice hfits, ← h1, ← h2, ← h3]
  | frameMark =>
    simp only [bind_eq_ok, word_eq_ok_iff] at hbody
    obtain ⟨frameIndex, ⟨-, -, h1⟩, hb'⟩ := hbody
    cases hb'
    refine ⟨_, _, hb, rfl, rfl, ?_⟩
    simp [take_eq_slice, ← h1, drop_eq_nil_of_le hfits.le]
  | bisectionCheckpoint =>
    have hlen : r.payload.length = 56 := hfits.1
    simp only [bind_eq_ok, word_eq_ok_iff, array_eq_ok_iff] at hbody
    obtain ⟨version, ⟨-, -, h1⟩, flags, ⟨-, -, h2⟩, gap, ⟨-, -, h3⟩, snapshot, ⟨-, -, h4⟩, icount,
      ⟨-, -, h5⟩, vns, ⟨-, -, h6⟩, hb'⟩ := hbody
    cases hb'
    obtain ⟨-, hversion, hflags, hicount⟩ := hfits
    refine ⟨_, _, hb, rfl, rfl, ?_⟩
    simp [← hversion, ← hflags, ← hicount, ← h3, ← h4, ← h6, slice_full hlen]
  | «end» => exact absurd rfl hend

end

namespace Record

lemma Valid.length_zeroed (h : r.Valid) : r.zeroed.payload.length = r.payload.length := by
  have hspan := h.reservedSpan_le
  simp only [zeroed, length_append, length_take, length_replicate, length_drop]
  omega

lemma Valid.bytes_zeroed (h : r.Valid) : r.zeroed.bytes.length = r.bytes.length := by
  rw [length_bytes, length_bytes, h.length_zeroed]

lemma Valid.zeroed {r : Record} (h : r.Valid) : r.zeroed.Valid where
  payload_le := h.length_zeroed ▸ h.payload_le
  rflags := h.rflags
  typed := by
    have htyped := h.typed
    have hlen := h.length_zeroed
    have hkind : Kind.ofCode r.zeroed.kind = Kind.ofCode r.kind := rfl
    rw [Typed] at htyped ⊢
    rw [hkind]
    cases hk : Kind.ofCode r.kind with
    | none =>
      rw [hk] at htyped
      exact htyped
    | some k =>
      rw [hk] at htyped
      refine ⟨htyped.1, ?_⟩
      have hfits := htyped.2
      -- without reserved bytes nothing changes; otherwise only the length counts
      by_cases hspan : k.reservedSpan = (0, 0)
      · have hsame : r.zeroed.payload = r.payload := by
          simp [Record.zeroed, reservedSpan, hk, hspan]
        rw [hsame]
        exact hfits
      · cases k <;> first | exact absurd rfl hspan | exact hlen.trans hfits

lemma Valid.exists_call (h : r.Valid) (hknown : (Kind.ofCode r.kind).isSome)
    (hend : r.isEnd = false) :
    ∃ t c, r.typed = .ok t ∧ t.call? = some c ∧ c.record r.seq.toNat = r.zeroed := by
  obtain ⟨k, hkind⟩ := isSome_iff_exists.mp hknown
  have hne : k ≠ .end := by
    rintro rfl
    rw [isEnd_iff.mpr hkind] at hend
    cases hend
  obtain ⟨b, emission, hb, hemission, hk, hpayload⟩ := h.exists_emission hkind hne
  refine ⟨⟨r.icount, r.boundaryRip, b⟩, ⟨r.icount, r.boundaryRip, emission⟩, ?_, ?_, ?_⟩
  · rw [Record.typed, hb, ok_bind]
  · rw [TypedRecord.call?, hemission, map_some]
  · have htyped := h.typed
    rw [Typed, hkind] at htyped
    rw [Call.record, hk, hpayload, htyped.1, ← h.rflags_eq, Kind.code_eq_of_ofCode hkind,
      UInt32.ofNat_toNat]
    rfl

end Record

lemma RecordScan.after_map_zeroed (h : ∀ r ∈ rs, r.Valid) :
    RecordScan.after (rs.map Record.zeroed) = RecordScan.after rs := by
  induction rs using reverseRecOn with
  | nil => rfl
  | append_singleton rs r ih =>
    have hrs : ∀ x ∈ rs, x.Valid := fun x hx => h x (by simp [hx])
    rw [map_append, map_singleton, after_snoc, after_snoc, ih hrs, past, past,
      (h r (by simp)).bytes_zeroed]
    rfl

lemma Sequenced.map_zeroed (h : Sequenced rs) : Sequenced (rs.map Record.zeroed) := by
  induction rs using reverseRecOn with
  | nil => exact sequenced_nil
  | append_singleton rs r ih =>
    obtain ⟨hrs, hr⟩ := sequenced_snoc.mp h
    rw [map_append, map_singleton, sequenced_snoc, after_map_zeroed fun x hx => hrs.valid hx]
    exact ⟨ih hrs, hr.valid.zeroed, hr.seq, hr.icount⟩

lemma Sequenced.exists_calls (h : Sequenced rs) (hknown : ∀ r ∈ rs, (Kind.ofCode r.kind).isSome)
    (hend : ∀ r ∈ rs, r.isEnd = false) : ∃ ts, rs.mapM Record.typed = .ok ts ∧
      recordsOf (ts.filterMap TypedRecord.call?) = rs.map Record.zeroed := by
  induction rs using reverseRecOn with
  | nil => exact ⟨[], rfl, rfl⟩
  | append_singleton rs r ih =>
    obtain ⟨hrs, hr⟩ := sequenced_snoc.mp h
    obtain ⟨ts, hts, hcalls⟩ := ih hrs (fun x hx => hknown x (by simp [hx]))
      (fun x hx => hend x (by simp [hx]))
    obtain ⟨t, c, ht, hc, hrecord⟩ :=
      hr.valid.exists_call (hknown r (by simp)) (hend r (by simp))
    refine ⟨ts ++ [t], ?_, ?_⟩
    · simp only [mapM_append, hts, mapM_cons, ht, mapM_nil, pure_bind, ok_bind]
      rfl
    · have hlen : (ts.filterMap TypedRecord.call?).length = rs.length := by
        rw [← length_recordsOf, hcalls, length_map]
      have hseq : r.seq.toNat = rs.length := by rw [hr.seq, count_after]
      rw [filterMap_append, filterMap_cons_some hc, filterMap_nil, recordsOf_snoc,
        hcalls, hlen, ← hseq, hrecord, map_append, map_singleton]

lemma and_mask_eq_self {f m : UInt32} (h : f &&& ~~~m = 0) : f &&& m = f := by
  apply UInt32.toBitVec_inj.mp
  ext i hi
  have hbit := congrArg (fun b : BitVec 32 => b[i]) (congrArg UInt32.toBitVec h)
  simpa using hbit

lemma flags_eq {flags : UInt32}
    (h : flags &&& ~~~(flagSealed ||| flagHasAux ||| flagEpochHashes) = 0)
    (hsealed : flags &&& flagSealed ≠ 0) :
    flags = flagSealed ||| (if (flags &&& flagHasAux != 0) then flagHasAux else 0) |||
      (if (flags &&& flagEpochHashes != 0) then flagEpochHashes else 0) := by
  have hlt : flags.toNat < 8 := by
    rw [← and_mask_eq_self h, UInt32.toNat_and]
    exact Nat.and_le_right.trans_lt (by decide)
  have hall : ∀ n < 8, UInt32.ofNat n &&& flagSealed ≠ 0 →
      UInt32.ofNat n = flagSealed |||
        (if (UInt32.ofNat n &&& flagHasAux != 0) then flagHasAux else 0)
        ||| (if (UInt32.ofNat n &&& flagEpochHashes != 0) then flagEpochHashes else 0) := by
    decide
  have hflags := hall flags.toNat hlt
  rw [UInt32.ofNat_toNat] at hflags
  exact hflags hsealed

namespace SealedBody

variable {blake3 : List UInt8 → Hash} {header : Header} {body : List UInt8} {e : Record}

variable (h : SealedBody header body rs e)
include h

lemma exists_stopReason : ∃ stopReason, e = (header.sealParams stopReason).record rs.length := by
  obtain ⟨-, he⟩ := sequenced_snoc.mp h.sequenced
  have hlen := he.valid.length_payload_of_isEnd h.isEnd
  have h0 : e.payload[0]? = some e.payload[0] := getElem?_eq_getElem (by omega)
  have htyped := he.valid.typed
  rw [Record.Typed, isEnd_iff.mp h.isEnd] at htyped
  refine ⟨e.payload[0], ?_⟩
  have hkind : e.kind = Kind.end.code := by simpa [Record.isEnd] using h.isEnd
  have hrflags : e.rflags = rflagAux := by
    rw [he.valid.rflags_eq, ← htyped.1]
    rfl
  have hseq : e.seq = UInt32.ofNat rs.length := by
    rw [← count_after, ← he.seq, UInt32.ofNat_toNat]
  have hpayload : e.payload = (RecordBody.end e.payload[0] header.endStateHash).payload := by
    rw [RecordBody.payload, ← slice_succ h0, ← h.endAgrees.pad, ← h.endAgrees.stateHash,
      slice_append_slice (by omega) (by omega), slice_append_slice (by omega) (by omega),
      slice_full hlen]
  exact Record.ext hkind hrflags hseq h.endAgrees.icount h.endAgrees.boundaryRip hpayload

lemma header_eq {stopReason : UInt8}
    (he : e = (header.sealParams stopReason).record rs.length) (haccepted : header.Accepted true)
    (hversion : header.version = formatVersion) (hhash : blake3 body = header.bodyHash) :
    header = sealedHeader blake3 header.segment (header.sealParams stopReason) rs := by
  have hflags : header.flags = flagSealed ||| (if rs.any Record.isAux then flagHasAux else 0) |||
      (if rs.any Record.isEpochHash then flagEpochHashes else 0) := by
    rw [← h.hasAux, ← h.hasEpochHashes]
    exact flags_eq haccepted.flags (haccepted.isSealed rfl)
  have hcount : header.recordCount = UInt64.ofNat (rs.length + 1) := by
    rw [← h.recordCount, UInt64.ofNat_toNat]
  have hbodyHash : header.bodyHash =
      blake3 (image (rs ++ [(header.sealParams stopReason).record rs.length])) := by
    rw [← hhash, ← he, ← h.body_eq]
  apply Header.ext <;> first | rfl | assumption

lemma exists_content (blake3 : List UInt8 → Hash) (hbody : body.length < 2 ^ 64)
    {stopReason : UInt8} (he : e = (header.sealParams stopReason).record rs.length)
    (hknown : ∀ r ∈ rs, (Kind.ofCode r.kind).isSome) : ∃ ts, LogReader.content ⟨header, body⟩ =
        .ok ⟨header.segment, ts, header.sealParams stopReason⟩ ∧
      recordsOf (ts.filterMap TypedRecord.call?) = rs.map Record.zeroed ∧
      Content.reemit blake3 ⟨header.segment, ts, header.sealParams stopReason⟩ =
        .ok ((sealedHeader blake3 header.segment (header.sealParams stopReason)
          (rs.map Record.zeroed)).bytes ++ image (rs.map Record.zeroed ++ [e])) := by
  obtain ⟨hrs, hadmits⟩ := sequenced_snoc.mp h.sequenced
  obtain ⟨ts, hts, hcalls⟩ := hrs.exists_calls hknown h.not_isEnd
  have hebody : e.body = .ok (.end stopReason header.endStateHash) := by
    rw [he]
    exact SealParams.body_record _ _
  have hetyped : e.typed = .ok ⟨e.icount, e.boundaryRip, .end stopReason header.endStateHash⟩ := by
    rw [Record.typed, hebody, ok_bind]
  have hfilter : (ts ++ [TypedRecord.mk e.icount e.boundaryRip
      (.end stopReason header.endStateHash)]).filterMap TypedRecord.call? =
        ts.filterMap TypedRecord.call? := by
    simp [TypedRecord.call?, RecordBody.emission]
  refine ⟨ts ++ [⟨e.icount, e.boundaryRip, .end stopReason header.endStateHash⟩], ?_, ?_, ?_⟩
  · have hend : LogReader.end ⟨header, body⟩ = .ok (stopReason, header.endStateHash) := by
      rw [LogReader.end, h.records_eq hbody, ok_bind, getLast?_concat]
      simp only [hebody, ok_bind]
    rw [LogReader.content, h.records_eq hbody, ok_bind, mapM_append, hts, hend]
    simp only [mapM_cons, hetyped, mapM_nil, pure_bind, ok_bind]
  · rw [hfilter, hcalls]
  · have hlen : (rs.map Record.zeroed).length = rs.length := length_map _
    have happend : (LogWriter.new header.segment).appendAll (ts.filterMap TypedRecord.call?) =
        .ok (LogWriter.after header.segment (rs.map Record.zeroed)) := by
      rw [LogWriter.appendAll_new_eq_ok_iff, hcalls]
      exact ⟨hrs.map_zeroed, rfl⟩
    rw [Content.reemit, hfilter, happend, ok_bind, LogWriter.seal_after_eq_ok_iff, hlen, ← he,
      after_map_zeroed fun r hr => hrs.valid hr]
    exact ⟨hadmits, rfl⟩

end SealedBody

lemma image_inj (hrs : Sequenced rs) (hts : Sequenced ts) (h : image rs = image ts)
    (header : Header) : rs = ts := by
  have hrecords := records_image header (fun r hr => (hrs.valid hr).payload_le) hrs.length_image_lt
  rw [h, records_image header (fun r hr => (hts.valid hr).payload_le) hts.length_image_lt]
    at hrecords
  exact (Except.ok.inj hrecords).symm

lemma Record.eq_of_zeroed_eq {t : Record} (hr : r.Valid) (ht : t.Valid)
    (hzeroed : r.zeroed = t.zeroed) (hreserved : r.reserved = t.reserved) : r = t := by
  have hlen : r.payload.length = t.payload.length := by
    rw [← hr.length_zeroed, ← ht.length_zeroed, hzeroed]
  obtain ⟨hkind, hrflags, hseq, hicount, hrip, hpayload⟩ := Record.ext_iff.mp hzeroed
  change r.kind = t.kind at hkind
  have hspan : t.reservedSpan = r.reservedSpan := by rw [reservedSpan, reservedSpan, hkind]
  simp only [zeroed, hspan, append_assoc] at hpayload
  obtain ⟨htake, hrest⟩ := append_inj hpayload (by simp [hlen])
  refine Record.ext hkind hrflags hseq hicount hrip ?_
  rw [hr.payload_eq, ht.payload_eq, hspan, htake, hreserved, append_cancel_left hrest]

lemma eq_of_map_zeroed_eq (hrs : ∀ r ∈ rs, r.Valid) (hts : ∀ t ∈ ts, t.Valid)
    (hzeroed : rs.map Record.zeroed = ts.map Record.zeroed)
    (hreserved : rs.map Record.reserved = ts.map Record.reserved) : rs = ts := by
  induction rs generalizing ts with
  | nil => exact (map_eq_nil_iff.mp hzeroed.symm).symm
  | cons r rs ih =>
    cases ts with
    | nil => cases hzeroed
    | cons t ts =>
      simp only [map_cons, List.cons.injEq] at hzeroed hreserved
      simp only [forall_mem_cons] at hrs hts
      rw [eq_of_zeroed_eq hrs.1 hts.1 hzeroed.1 hreserved.1, ih hrs.2 hts.2 hzeroed.2 hreserved.2]

lemma reserved_end {i : ℕ} : (params.record i).reserved = [] := by
  have hkind : Kind.ofCode (params.record i).kind = some .end := Kind.ofCode_code .end
  simp [Record.reserved, Record.reservedSpan, hkind, Kind.reservedSpan, Bytes.slice]

/-- An accepted log of the writer's version with known kinds, and what writing
its typed content again gives. -/
lemma LogReader.exists_rewrite {blake3 : List UInt8 → Hash} {bytes : Slice} {reader : LogReader}
    {records : List Record} (hparse : LogReader.parse blake3 bytes = .ok reader)
    (hversion : reader.header.version = formatVersion) (hrecords : reader.records = .ok records)
    (hknown : ∀ r ∈ records, (Kind.ofCode r.kind).isSome) :
    ∃ (segment : SegmentHeader) (params : SealParams) (ts : List TypedRecord) (rs : List Record),
      records = rs ++ [params.record rs.length] ∧ Sequenced records ∧
      bytes.val = (sealedHeader blake3 segment params rs).bytes ++ image records ∧
      reader.content = .ok ⟨segment, ts, params⟩ ∧
      recordsOf (ts.filterMap TypedRecord.call?) = rs.map Record.zeroed ∧
      Content.reemit blake3 ⟨segment, ts, params⟩ =
        .ok ((sealedHeader blake3 segment params (rs.map Record.zeroed)).bytes ++
          image (rs.map Record.zeroed ++ [params.record rs.length])) := by
  obtain ⟨header, body⟩ := reader
  obtain ⟨haccepted, hbytes, hhash, hbody, rs, e, h⟩ := sealedBody_of_parse hparse
  obtain rfl := Except.ok.inj (hrecords.symm.trans (h.records_eq hbody))
  obtain ⟨stopReason, he⟩ := h.exists_stopReason
  obtain ⟨ts, hcontent, hcalls, hreemit⟩ :=
    h.exists_content blake3 hbody he fun r hr => hknown r (by simp [hr])
  refine ⟨header.segment, header.sealParams stopReason, ts, rs, by rw [he], h.sequenced, ?_,
    hcontent, hcalls, by rw [hreemit, he]⟩
  rw [hbytes, ← h.header_eq he haccepted hversion hhash, h.body_eq]

variable (blake3 : List UInt8 → Hash) (pad : UInt8)

lemma sealed_zeroed_eq_iff (segment : SegmentHeader)
    (h : Sequenced (rs ++ [params.record rs.length])) :
    (sealedHeader blake3 segment params (rs.map Record.zeroed)).bytes ++
        image (rs.map Record.zeroed ++ [params.record rs.length]) =
      (sealedHeader blake3 segment params rs).bytes ++ image (rs ++ [params.record rs.length]) ↔
      rs.map Record.zeroed = rs := by
  constructor
  · intro hbytes
    obtain ⟨hrecords, hend⟩ := sequenced_snoc.mp h
    have hzeroed : Sequenced (rs.map Record.zeroed ++ [params.record rs.length]) := by
      rw [sequenced_snoc, after_map_zeroed fun r hr => hrecords.valid hr]
      exact ⟨hrecords.map_zeroed, hend⟩
    have himage := (append_inj hbytes (by simp)).2
    exact append_cancel_right
      (image_inj hzeroed h himage (sealedHeader blake3 segment params rs))
  · intro hzeroed
    rw [hzeroed]

lemma map_zeroed_eq_iff (h : ∀ r ∈ rs, r.Valid) : rs.map Record.zeroed = rs ↔
      ∀ r ∈ rs ++ [params.record rs.length], ∀ x ∈ r.reserved, x = 0 := by
  simp only [forall_mem_append, forall_mem_singleton, reserved_end, not_mem_nil,
    false_implies, implies_true, and_true]
  nth_rewrite 2 [← map_id rs]
  rw [map_inj_left]
  exact forall₂_congr fun r hr => (h r hr).zeroed_eq_iff

/-- A log of the writer's version with known kinds is reproduced by writing its typed content
again exactly when the reserved bytes inside its payloads are zero. -/
theorem reemit_eq_iff (blake3 : List UInt8 → Hash) (bytes : Slice) (reader : LogReader)
    (hparse : LogReader.parse blake3 bytes = .ok reader)
    (hversion : reader.header.version = formatVersion) (rs : List Record)
    (hrs : reader.records = .ok rs) (hknown : ∀ r ∈ rs, (Kind.ofCode r.kind).isSome) :
    ((∃ content, reader.content = .ok content ∧ content.reemit blake3 = .ok bytes.val) ↔
      ∀ r ∈ rs, ∀ x ∈ r.reserved, x = 0) ∧
    ∀ (bytes' : Slice) (reader' : LogReader) (rs' : List Record),
      LogReader.parse blake3 bytes' = .ok reader' → reader'.header.version = formatVersion →
      reader'.records = .ok rs' → (∀ r ∈ rs', (Kind.ofCode r.kind).isSome) →
      reader'.content = reader.content →
      (bytes' = bytes ↔ rs'.map Record.reserved = rs.map Record.reserved) := by
  obtain ⟨segment, params, ts, rs, rfl, hsequenced, hbytes, hcontent, hcalls, hreemit⟩ :=
    exists_rewrite hparse hversion hrs hknown
  have hvalid : ∀ r ∈ rs, r.Valid := fun r hr => (sequenced_snoc.mp hsequenced).1.valid hr
  constructor
  · rw [← map_zeroed_eq_iff hvalid, ← sealed_zeroed_eq_iff blake3 segment hsequenced, ← hbytes]
    constructor
    · rintro ⟨content, hc, hbytes'⟩
      cases hcontent.symm.trans hc
      exact Except.ok.inj (hreemit.symm.trans hbytes')
    · intro hsame
      exact ⟨_, hcontent, hreemit.trans (congrArg _ hsame)⟩
  · intro bytes' reader' rs' hparse' hversion' hrs' hknown' hsame
    constructor
    · rintro rfl
      cases hparse.symm.trans hparse'
      rw [Except.ok.inj (hrs.symm.trans hrs')]
    · intro hreserved
      obtain ⟨segment', params', ts', rs', rfl, hsequenced', hbytes', hcontent', hcalls', -⟩ :=
        exists_rewrite hparse' hversion' hrs' hknown'
      rw [hcontent, hcontent'] at hsame
      cases hsame
      -- the same typed records: the two logs agree once their reserved bytes are zeroed
      have hzeroed : rs'.map Record.zeroed = rs.map Record.zeroed := hcalls'.symm.trans hcalls
      have hvalid' : ∀ r ∈ rs', r.Valid :=
        fun r hr => (sequenced_snoc.mp hsequenced').1.valid hr
      rw [map_append, map_append] at hreserved
      obtain rfl := eq_of_map_zeroed_eq hvalid' hvalid hzeroed
        (append_inj_left' hreserved rfl)
      exact Subtype.ext (hbytes'.trans hbytes.symm)

def padRecord : Record := ⟨0x01, 0, 0, 5, 0x1000, [0, pad, 0, 0, 3, 0, 0, 0, 255, 255, 255, 255]⟩

lemma reserved_padRecord : (padRecord pad).reserved = [pad, 0, 0] := rfl

def padSegment : SegmentHeader := ⟨.replicate 32 1, .replicate 32 0, .replicate 32 2, 1, 1, 0⟩

def padParams : SealParams := ⟨.replicate 32 0, 9, 9, .replicate 32 7, 2⟩

lemma sequenced_padRecord :
    Sequenced ([padRecord pad] ++ [padParams.record [padRecord pad].length]) := by
  have hkind : Kind.ofCode (padRecord pad).kind = some .padSet := Kind.ofCode_code .padSet
  have hrflags : (0 : UInt8) &&& ~~~rflagAux = 0 := by decide
  have hisAux : false = ((0 : UInt8) &&& rflagAux != 0) := by decide
  have htyped : (padRecord pad).Typed := by
    rw [Record.Typed, hkind]
    exact ⟨hisAux, rfl⟩
  have hpad : Sequenced ([] ++ [padRecord pad]) := by
    refine sequenced_snoc.mpr ⟨sequenced_nil, ⟨?_, hrflags, htyped⟩, rfl, ?_⟩
    · simp [padRecord, maxPayload]
    · exact fun h => absurd h (Nat.lt_irrefl 0)
  refine sequenced_snoc.mpr ⟨hpad, padParams.valid_record _, rfl, fun _ => ?_⟩
  change (5 : UInt64) ≤ 9
  decide

def padLog : Slice :=
  ⟨(sealedHeader blake3 padSegment padParams [padRecord pad]).bytes ++
    image ([padRecord pad] ++ [padParams.record [padRecord pad].length]), by
      simp [image, padRecord, SealParams.record, RecordBody.payload, Record.length_bytes,
        headerLen, padLen]⟩

lemma parse_padLog : ∃ reader, LogReader.parse blake3 (padLog blake3 pad) = .ok reader ∧
      reader.header.version = formatVersion ∧
      reader.records = .ok ([padRecord pad] ++ [padParams.record [padRecord pad].length]) ∧
      ∀ r ∈ [padRecord pad] ++ [padParams.record [padRecord pad].length],
        (Kind.ofCode r.kind).isSome := by
  have hend : ∀ r ∈ [padRecord pad], r.isEnd = false := by
    rw [forall_mem_singleton]
    rfl
  have hsequenced := sequenced_padRecord pad
  have hclock : padSegment.clockDen ≠ 0 := by decide
  refine ⟨_, parse_sealedHeader blake3 hclock hend hsequenced, rfl, ?_, ?_⟩
  · exact (sealedBody_of_sequenced blake3 padSegment hend hsequenced).records_eq
      hsequenced.length_image_lt
  · rw [forall_mem_append, forall_mem_singleton, forall_mem_singleton]
    exact ⟨rfl, rfl⟩

/-- A sealed log with one input is inspected to that input and its end. -/
theorem inspection_agrees_padLog : ∃ reader rs,
    LogReader.parse (fun _ => .replicate 32 9) (padLog (fun _ => .replicate 32 9) 0) = .ok reader ∧
      rs.length = 2 ∧ LogInspection.parseUnsealed (padLog (fun _ => .replicate 32 9) 0) =
        .ok ⟨reader.header, rs, .eof⟩ := by
  obtain ⟨reader, hparse, -, hrecords, -⟩ := parse_padLog (fun _ => .replicate 32 9) 0
  obtain ⟨rs, hrs, hinspected⟩ := (inspection_agrees _ _).1 reader hparse
  cases hrecords.symm.trans hrs
  exact ⟨reader, _, hparse, rfl, hinspected⟩

/-- With a zero reserved byte the log is reproduced. -/
theorem reemit_padLog_zero : ∃ reader content,
      LogReader.parse (fun _ => .replicate 32 9) (padLog (fun _ => .replicate 32 9) 0) =
        .ok reader ∧
      reader.content = .ok content ∧
      content.reemit (fun _ => .replicate 32 9) =
        .ok (padLog (fun _ => .replicate 32 9) 0).val := by
  obtain ⟨reader, hparse, hversion, hrecords, hknown⟩ := parse_padLog (fun _ => .replicate 32 9) 0
  have hreserved : ∀ r ∈ [padRecord 0] ++ [padParams.record [padRecord 0].length],
      ∀ x ∈ r.reserved, x = 0 := by
    simp [reserved_padRecord, reserved_end]
  obtain ⟨content, hcontent, hreemit⟩ :=
    (reemit_eq_iff _ _ reader hparse hversion _ hrecords hknown).1.mpr hreserved
  exact ⟨reader, content, hparse, hcontent, hreemit⟩

/-- With a nonzero one it is accepted too, and other bytes are written. -/
theorem reemit_padLog_one_ne : (padRecord 1).reserved = [1, 0, 0] ∧
    ∀ blake3 : List UInt8 → Hash, ∃ reader content out,
      LogReader.parse blake3 (padLog blake3 1) = .ok reader ∧
      reader.header.version = formatVersion ∧
      reader.records = .ok ([padRecord 1] ++ [padParams.record 1]) ∧
      (∀ r ∈ [padRecord 1] ++ [padParams.record 1], (Kind.ofCode r.kind).isSome) ∧
      reader.content = .ok content ∧ content.reemit blake3 = .ok out ∧
      out ≠ (padLog blake3 1).val := by
  refine ⟨reserved_padRecord 1, fun blake3 => ?_⟩
  obtain ⟨reader, hparse, hversion, hrecords, hknown⟩ := parse_padLog blake3 1
  obtain ⟨segment, params, ts, rs, heq, hsequenced, hbytes, hcontent, -, hreemit⟩ :=
    exists_rewrite hparse hversion hrecords hknown
  refine ⟨reader, _, _, hparse, hversion, hrecords, hknown, hcontent, hreemit, ?_⟩
  obtain ⟨hrs, -⟩ := append_inj' heq rfl
  rw [heq] at hsequenced
  rw [hbytes, heq, Ne, sealed_zeroed_eq_iff blake3 segment hsequenced, ← hrs]
  decide

end DetHypervisor.Dhilog
