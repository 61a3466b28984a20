import DetHypervisor.BisectionIndex
import DetHypervisor.DhilogCanonical

/-!
# The reseal comparison

A replay compares the log it seals with the recorded one: the bytes, or else header and records
without checkpoints, where channel records and SDK events may stand at other positions.
-/

namespace DetHypervisor.Dhilog

open Checked Bisection List

structure ComparableReplayHeader where
  version : UInt16
  flagsWithoutHasAux : UInt32
  baseSnapshotId : Hash
  endSnapshotId : Hash
  entropySeed : Hash
  machineConfigHash : Hash
  clockNum : UInt32
  clockDen : UInt32
  endIcount : UInt64
  endVns : UInt64
  endStateHash : Hash
  encoderFingerprint : UInt64
  deriving DecidableEq

structure ComparableReplayRecord where
  kind : UInt8
  rflags : UInt8
  icount : UInt64
  boundaryRip : UInt64
  payload : List UInt8
  deriving DecidableEq

def comparableReplayHeader (h : Header) : ComparableReplayHeader :=
  ⟨h.version, h.flags &&& ~~~flagHasAux, h.baseSnapshotId, h.endSnapshotId, h.entropySeed,
    h.machineConfigHash, h.clockNum, h.clockDen, h.endIcount, h.endVns, h.endStateHash,
    h.encoderFingerprint⟩

def detchannelExitGeneratedEvent (deviceId eventType : UInt16) : Bool :=
  deviceId.toNat == deviceIdDetchannel && (eventType.toNat == eventPioAnswer ||
    eventType.toNat == eventRingPush || eventType.toNat == eventConsBump)

def Record.isGenerated (r : Record) : Bool :=
  match r.body with
  | .ok (.sdkEvent ..) => true
  | .ok (.devEvent deviceId eventType _) => detchannelExitGeneratedEvent deviceId eventType
  | _ => false

def comparableReplayRecord (normalize : Bool) (r : Record) : ComparableReplayRecord :=
  if normalize && r.isGenerated then ⟨r.kind, r.rflags, 0, 0, r.payload⟩
  else ⟨r.kind, r.rflags, r.icount, r.boundaryRip, r.payload⟩

def comparableReplayRecords (normalize : Bool) (records : List Record) :
    List ComparableReplayRecord :=
  (records.filter (!isCheckpoint ·)).map (comparableReplayRecord normalize)

/-- `reseal_equivalent_ignoring_bisection_checkpoints`, over the records of both logs. -/
def resealEquivalent (replayed recorded : Header × List Record) : Bool :=
  if comparableReplayHeader replayed.1 ≠ comparableReplayHeader recorded.1 then false
  else
    let replayedRecords := comparableReplayRecords false replayed.2
    let recordedRecords := comparableReplayRecords false recorded.2
    if (recorded.2.any isCheckpoint || replayed.2.any isCheckpoint) &&
        replayedRecords = recordedRecords then true
    else replayedRecords ≠ recordedRecords &&
      comparableReplayRecords true replayed.2 = comparableReplayRecords true recorded.2

structure ValidLog (blake3 : List UInt8 → Hash) where
  bytes : Slice
  header : Header
  body : List UInt8
  records : List Record
  parse_eq : LogReader.parse blake3 bytes = .ok ⟨header, body⟩
  records_eq : LogReader.records ⟨header, body⟩ = .ok records

variable {blake3 : List UInt8 → Hash} {a b : ValidLog blake3} {r t : Record} {rs ts : List Record}

def ValidLog.Accepts (resealed recorded : ValidLog blake3) : Prop :=
  resealed.bytes = recorded.bytes ∨
    resealEquivalent (resealed.header, resealed.records) (recorded.header, recorded.records) = true

/-- Two records that agree, those that replay generates up to their position. -/
structure SameRecord (r t : Record) : Prop where
  kind : r.kind = t.kind
  rflags : r.rflags = t.rflags
  payload : r.payload = t.payload
  position : r.isGenerated = false → r.icount = t.icount ∧ r.boundaryRip = t.boundaryRip

lemma Record.isGenerated_congr (hkind : r.kind = t.kind) (hpayload : r.payload = t.payload) :
    r.isGenerated = t.isGenerated := by
  unfold Record.isGenerated Record.body
  rw [hkind, hpayload]

lemma comparableReplayRecord_eq_iff :
    comparableReplayRecord true r = comparableReplayRecord true t ↔ SameRecord r t := by
  unfold comparableReplayRecord
  constructor
  · intro h
    have hkind : r.kind = t.kind := by
      split_ifs at h <;> exact (ComparableReplayRecord.mk.inj h).1
    have hpayload : r.payload = t.payload := by
      split_ifs at h <;> exact (ComparableReplayRecord.mk.inj h).2.2.2.2
    have hflags : r.rflags = t.rflags := by
      split_ifs at h <;> exact (ComparableReplayRecord.mk.inj h).2.1
    refine ⟨hkind, hflags, hpayload, fun hno => ?_⟩
    rw [← Record.isGenerated_congr hkind hpayload, hno] at h
    obtain ⟨-, -, hicount, hrip, -⟩ := ComparableReplayRecord.mk.inj h
    exact ⟨hicount, hrip⟩
  · rintro ⟨hkind, hflags, hpayload, hposition⟩
    rw [← Record.isGenerated_congr hkind hpayload, hkind, hflags, hpayload]
    cases hgen : r.isGenerated with
    | true => rfl
    | false =>
      rw [(hposition hgen).1, (hposition hgen).2]

lemma comparableReplayRecords_eq_iff (normalize : Bool) :
    comparableReplayRecords normalize rs = comparableReplayRecords normalize ts ↔
      List.Forall₂ (fun r t => comparableReplayRecord normalize r =
        comparableReplayRecord normalize t)
        (rs.filter (!isCheckpoint ·)) (ts.filter (!isCheckpoint ·)) := by
  unfold comparableReplayRecords
  rw [← forall₂_eq_eq_eq, forall₂_map_left_iff, forall₂_map_right_iff]

lemma ValidLog.exists_sealedBody (a : ValidLog blake3) : a.header.Accepted true ∧
    a.bytes.val = a.header.bytes ++ a.body ∧ blake3 a.body = a.header.bodyHash ∧
      ∃ rs e, SealedBody a.header a.body rs e ∧ a.records = rs ++ [e] := by
  obtain ⟨haccepted, hcut, hhash, hbody, rs, e, h⟩ := LogReader.sealedBody_of_parse a.parse_eq
  have hrecords := a.records_eq
  rw [h.records_eq hbody] at hrecords
  exact ⟨haccepted, hcut, hhash, rs, e, h, (Except.ok.inj hrecords).symm⟩

lemma ValidLog.sequenced (a : ValidLog blake3) : Sequenced a.records := by
  obtain ⟨-, -, -, rs, e, h, hrecords⟩ := a.exists_sealedBody
  exact hrecords ▸ h.sequenced

lemma SealedBody.flags_eq {header : Header} {body : List UInt8} {e : Record}
    (h : SealedBody header body rs e) (haccepted : header.Accepted true) :
    header.flags = flagSealed ||| (if rs.any Record.isAux then flagHasAux else 0) |||
      (if rs.any Record.isEpochHash then flagEpochHashes else 0) := by
  rw [← h.hasAux, ← h.hasEpochHashes]
  exact Dhilog.flags_eq haccepted.flags (haccepted.isSealed rfl)

lemma ValidLog.bytes_eq (hheader : comparableReplayHeader a.header =
    comparableReplayHeader b.header) (hrecords : a.records = b.records) : a.bytes = b.bytes := by
  obtain ⟨ha, hacut, hahash, rs, e, hasealed, harecords⟩ := a.exists_sealedBody
  obtain ⟨hb, hbcut, hbhash, ts, e', hbsealed, hbrecords⟩ := b.exists_sealedBody
  obtain ⟨rfl, he⟩ := append_inj' (harecords.symm.trans (hrecords.trans hbrecords)) rfl
  obtain rfl := singleton_inj.mp he
  have hbody : a.body = b.body := hasealed.body_eq.trans hbsealed.body_eq.symm
  have hflags : a.header.flags = b.header.flags :=
    (hasealed.flags_eq ha).trans (hbsealed.flags_eq hb).symm
  have hcount : a.header.recordCount = b.header.recordCount :=
    UInt64.toNat_inj.mp (hasealed.recordCount.trans hbsealed.recordCount.symm)
  have hhash : a.header.bodyHash = b.header.bodyHash := by rw [← hahash, ← hbhash, hbody]
  obtain ⟨h1, -, h3, h4, h5, h6, h7, h8, h9, h10, h11, h12⟩ := ComparableReplayHeader.mk.inj hheader
  apply Subtype.ext
  rw [hacut, hbcut, hbody]
  congr 2
  apply Header.ext <;> assumption

lemma records_eq_of_comparable (ha : Sequenced rs) (hb : Sequenced ts)
    (hrs : rs.any isCheckpoint = false) (hts : ts.any isCheckpoint = false)
    (h : comparableReplayRecords false rs = comparableReplayRecords false ts) : rs = ts := by
  have hkeep {rs : List Record} (h : rs.any isCheckpoint = false) :
      rs.filter (!isCheckpoint ·) = rs := by
    rw [filter_eq_self]
    simpa using h
  rw [comparableReplayRecords, comparableReplayRecords, hkeep hrs, hkeep hts] at h
  apply ext_getElem?
  intro i
  have hi := congrArg (·[i]?) h
  simp only [getElem?_map] at hi
  cases hr : rs[i]? <;> cases ht : ts[i]? <;> rw [hr, ht] at hi
  · cases hi
  · cases hi
  · rename_i r t
    obtain ⟨h1, h2, h3, h4, h5⟩ := ComparableReplayRecord.mk.inj (Option.some.inj hi)
    have hseq : r.seq = t.seq := UInt32.toNat_inj.mp ((ha.seq_eq hr).trans (hb.seq_eq ht).symm)
    exact congrArg some (Record.ext h1 h2 hseq h3 h4 h5)

lemma comparable_true_of_false
    (h : comparableReplayRecords false rs = comparableReplayRecords false ts) :
    comparableReplayRecords true rs = comparableReplayRecords true ts := by
  rw [comparableReplayRecords_eq_iff] at h ⊢
  apply h.imp
  intro r t hrt
  obtain ⟨hkind, hflags, hicount, hrip, hpayload⟩ := ComparableReplayRecord.mk.inj hrt
  exact comparableReplayRecord_eq_iff.mpr ⟨hkind, hflags, hpayload, fun _ => ⟨hicount, hrip⟩⟩

lemma ValidLog.accepts_iff : a.Accepts b ↔ comparableReplayHeader a.header =
    comparableReplayHeader b.header ∧ comparableReplayRecords true a.records =
      comparableReplayRecords true b.records := by
  unfold Accepts resealEquivalent
  constructor
  · rintro (hbytes | hequivalent)
    · have hread := a.parse_eq.symm.trans (hbytes ▸ b.parse_eq)
      have hrecords := a.records_eq
      rw [Except.ok.inj hread, b.records_eq] at hrecords
      rw [(LogReader.mk.inj (Except.ok.inj hread)).1, Except.ok.inj hrecords]
      exact ⟨rfl, rfl⟩
    · dsimp only at hequivalent
      split_ifs at hequivalent with hheader hsame
      · exact ⟨not_not.mp hheader,
          comparable_true_of_false (of_decide_eq_true (Bool.and_eq_true_iff.mp hsame).2)⟩
      · exact ⟨not_not.mp hheader, of_decide_eq_true (Bool.and_eq_true_iff.mp hequivalent).2⟩
  · rintro ⟨hheader, hrecords⟩
    by_cases hfalse : comparableReplayRecords false a.records =
        comparableReplayRecords false b.records
    · cases hcheckpoint : b.records.any isCheckpoint || a.records.any isCheckpoint with
      | true => exact .inr (by simp [hheader, hfalse])
      | false =>
        rw [Bool.or_eq_false_iff] at hcheckpoint
        exact .inl (bytes_eq hheader
          (records_eq_of_comparable a.sequenced b.sequenced hcheckpoint.2 hcheckpoint.1 hfalse))
    · exact .inr (by simp [hheader, hfalse, hrecords])

lemma map_eq_of_sameRecord (h : List.Forall₂ SameRecord rs ts) :
    (rs.filter (!·.isGenerated)).map (comparableReplayRecord false) =
      (ts.filter (!·.isGenerated)).map (comparableReplayRecord false) := by
  induction h with
  | nil => rfl
  | @cons r t rs ts hrt _ ih =>
    obtain ⟨hkind, hflags, hpayload, hposition⟩ := hrt
    have hgen := Record.isGenerated_congr hkind hpayload
    cases hr : r.isGenerated with
    | true => simpa [hr, ← hgen] using ih
    | false =>
      have hrt : comparableReplayRecord false r = comparableReplayRecord false t := by
        simp [comparableReplayRecord, hkind, hflags, hpayload, hposition hr]
      simp [hr, ← hgen, hrt, ih]

/-- Two valid logs are accepted for one another exactly if their comparable header fields agree
and their records without checkpoints agree one by one, those that replay generates up to
their position. Acceptance is an equivalence. -/
theorem reseal_comparison_exact (blake3 : List UInt8 → Hash) :
    (∀ a b : ValidLog blake3, a.Accepts b ↔
      comparableReplayHeader a.header = comparableReplayHeader b.header ∧
        List.Forall₂ SameRecord (a.records.filter (!isCheckpoint ·))
          (b.records.filter (!isCheckpoint ·))) ∧ (∀ a b : ValidLog blake3, a.Accepts b →
      (a.records.filter fun r => !r.isGenerated && !isCheckpoint r).map
          (comparableReplayRecord false) =
        (b.records.filter fun r => !r.isGenerated && !isCheckpoint r).map
          (comparableReplayRecord false)) ∧ Equivalence (@ValidLog.Accepts blake3) := by
  have hiff (a b : ValidLog blake3) : a.Accepts b ↔
      comparableReplayHeader a.header = comparableReplayHeader b.header ∧
        List.Forall₂ SameRecord (a.records.filter (!isCheckpoint ·))
          (b.records.filter (!isCheckpoint ·)) := by
    simp only [ValidLog.accepts_iff, comparableReplayRecords_eq_iff, comparableReplayRecord_eq_iff]
  refine ⟨hiff, fun a b h => ?_, ?_, ?_, ?_⟩
  · simpa only [filter_filter] using map_eq_of_sameRecord ((hiff a b).mp h).2
  · exact fun a => .inl rfl
  · intro a b h
    rw [ValidLog.accepts_iff] at h ⊢
    exact ⟨h.1.symm, h.2.symm⟩
  · intro a b c hab hbc
    rw [ValidLog.accepts_iff] at hab hbc ⊢
    exact ⟨hab.1.trans hbc.1, hab.2.trans hbc.2⟩

end DetHypervisor.Dhilog
