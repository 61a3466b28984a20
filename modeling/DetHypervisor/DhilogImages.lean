import DetHypervisor.DhilogReader

/-!
# The images the reader accepts

A byte string is accepted exactly when it is an acceptable header followed by well-formed
records, END last. Every loop of the reader is compared with that list.
-/

namespace DetHypervisor.Dhilog

variable {body rest : List UInt8} {e r : Record} {header : Header} {rs : List Record}
  {scan : RecordScan} {w : Walk}

open Bytes Checked List Except Dhilog.Record RecordScan

namespace Header

lemma exists_eq_bytes_append_iff {h : Header} {b : List UInt8} : (∃ body, b = h.bytes ++ body) ↔
      headerLen ≤ b.length ∧ Bytes.slice b 0 6 = magic ∧ Bytes.slice b 6 8 = toLe h.version ∧
      Bytes.slice b 8 12 = toLe (UInt32.ofNat headerLen) ∧ Bytes.slice b 12 16 = toLe h.flags ∧
      Bytes.slice b 16 48 = h.baseSnapshotId.toList ∧ Bytes.slice b 48 80 = h.endSnapshotId.toList ∧
      Bytes.slice b 80 112 = h.entropySeed.toList ∧
      Bytes.slice b 112 144 = h.machineConfigHash.toList ∧
      Bytes.slice b 144 148 = toLe h.clockNum ∧ Bytes.slice b 148 152 = toLe h.clockDen ∧
      Bytes.slice b 152 160 = toLe h.recordCount ∧ Bytes.slice b 160 168 = toLe h.endIcount ∧
      Bytes.slice b 168 176 = toLe h.endVns ∧ Bytes.slice b 176 208 = h.endStateHash.toList ∧
      Bytes.slice b 208 240 = h.bodyHash.toList ∧
      Bytes.slice b 240 248 = toLe h.encoderFingerprint ∧ Bytes.slice b 248 256 = zeros 8 := by
  constructor
  · rintro ⟨body, rfl⟩
    refine ⟨by simp, ?_⟩
    simp [bytes, slice_append_left, slice_append_right, slice_full]
  · rintro ⟨hlen, h0, h1, h2, h3, h4, h5, h6, h7, h8, h9, h10, h11, h12, h13, h14, h15, h16⟩
    refine ⟨b.drop headerLen, ?_⟩
    rw [bytes, ← h0, ← h1, ← h2, ← h3, ← h4, ← h5, ← h6, ← h7, ← h8, ← h9, ← h10, ← h11, ← h12,
      ← h13, ← h14, ← h15, ← h16]
    simp only [append_assoc, headerLen, ← drop_eq_slice_append, Nat.reduceLeDiff, drop_zero]

structure Accepted (h : Header) (requireSealed : Bool) : Prop where
  version : h.version >>> 8 = 0x01
  flags : h.flags &&& ~~~(flagSealed ||| flagHasAux ||| flagEpochHashes) = 0
  isSealed : requireSealed → h.flags &&& flagSealed ≠ 0
  clockDen : h.clockDen ≠ 0

end Header

lemma parseHeaderWithSeal_eq_ok_iff {b : List UInt8} {requireSealed : Bool} {h : Header} :
    parseHeaderWithSeal b requireSealed = .ok h ↔
      h.Accepted requireSealed ∧ ∃ body, b = h.bytes ++ body := by
  rw [Header.exists_eq_bytes_append_iff, parseHeaderWithSeal]
  simp only [bind_eq_ok, rejectIf_eq_ok_iff, slice_eq_ok_iff, word_eq_ok_iff,
    array_eq_ok_iff, not_lt, ne_eq, Decidable.not_not]
  constructor
  · rintro ⟨-, hlen, _, ⟨-, -, rfl⟩, -, h0, v, ⟨-, -, h1⟩, -, hv, len, ⟨-, -, h2⟩, -, hl, f,
      ⟨-, -, h3⟩, -, hf, -, hs, _, ⟨-, -, rfl⟩, -, h16, d, ⟨-, -, hd⟩, -, hden, _, ⟨-, -, h4⟩, _,
      ⟨-, -, h5⟩, _, ⟨-, -, h6⟩, _, ⟨-, -, h7⟩, _, ⟨-, -, h8⟩, _, ⟨-, -, h9⟩, _, ⟨-, -, h10⟩, _,
      ⟨-, -, h11⟩, _, ⟨-, -, h12⟩, _, ⟨-, -, h13⟩, _, ⟨-, -, h14⟩, _, ⟨-, -, h15⟩, hh⟩
    cases hh
    have hlen256 : len = UInt32.ofNat headerLen := by rw [← hl]; simp
    refine ⟨⟨hv, hf, fun hr h0 => hs ⟨hr, h0⟩, ?_⟩, hlen, h0, h1, hlen256 ▸ h2, h3, h4, h5, h6, h7,
      h8, h9, h10, h11, h12, h13, h14, h15, h16⟩
    rwa [← toLe_injective (hd.symm.trans h9)]
  · rintro ⟨hacc, hlen, h0, h1, h2, h3, h4, h5, h6, h7, h8, h9, h10, h11, h12, h13, h14, h15, h16⟩
    replace hlen : 256 ≤ b.length := hlen
    refine ⟨(), hlen, _, ⟨by omega, by omega, rfl⟩, (), h0, _, ⟨by omega, by omega, h1⟩, (),
      hacc.version, _, ⟨by omega, by omega, h2⟩, (), by decide, _, ⟨by omega, by omega, h3⟩, (),
      hacc.flags, (), fun hr => hacc.isSealed hr.1 hr.2, _, ⟨by omega, by omega, rfl⟩, (), h16, _,
      ⟨by omega, by omega, h9⟩, (), hacc.clockDen, _, ⟨by omega, by omega, h4⟩, _,
      ⟨by omega, by omega, h5⟩, _, ⟨by omega, by omega, h6⟩, _, ⟨by omega, by omega, h7⟩, _,
      ⟨by omega, by omega, h8⟩, _, ⟨by omega, by omega, h9⟩, _, ⟨by omega, by omega, h10⟩, _,
      ⟨by omega, by omega, h11⟩, _, ⟨by omega, by omega, h12⟩, _, ⟨by omega, by omega, h13⟩, _,
      ⟨by omega, by omega, h14⟩, _, ⟨by omega, by omega, h15⟩, rfl⟩

lemma parseHeaderWithSeal_safely (b : List UInt8) (requireSealed : Bool) :
    Safely (fun _ => True) (parseHeaderWithSeal b requireSealed) := by
  rw [parseHeaderWithSeal, safely_bind, safely_rejectIf]
  intro hlen
  have hlen : 256 ≤ b.length := Nat.le_of_not_lt hlen
  -- every read below ends at or before offset 256
  simp (disch := first | decide | omega) only [safely_bind, safely_rejectIf, safely_slice,
    safely_word, safely_array, safely_ok, implies_true]

namespace Kind

variable (k : Kind) (p : List UInt8) (seq : UInt32) (icount : UInt64)

def Fits : Prop :=
  match k with
  | padSet => p.length = 12
  | devEvent => 8 ≤ p.length ∧ ∃ n : UInt32, Bytes.slice p 4 8 = toLe n ∧ n.toNat = p.length - 8
  | netRx => 1 ≤ p.length ∧ p.length ≤ maxNetRxFrame
  | entropy | sdkEvent | netTx => p.length = 16
  | timerFire => p.length = 20
  | epochHash | «end» => p.length = 40
  | frameMark => p.length = 8
  | bisectionCheckpoint =>
    p.length = bisectionCheckpointPayloadLen ∧
      Bytes.slice p 0 2 = toLe bisectionCheckpointFormatVersion ∧
      Bytes.slice p 2 4 = toLe bisectionCheckpointFlags ∧ Bytes.slice p 40 48 = toLe icount

lemma layoutOk_eq_ok_true_iff : k.layoutOk p seq icount = .ok true ↔ k.Fits p icount := by
  cases k with
  | devEvent =>
    by_cases h : 8 ≤ p.length
    · simp only [layoutOk, Fits, h, if_true, true_and, bind_eq_ok, word_eq_ok_iff,
        sub_eq_ok_iff, Except.ok.injEq, decide_eq_true_eq]
      constructor
      · rintro ⟨n, hn, _, rfl, hrest⟩
        exact ⟨n, hn.2, hrest⟩
      · rintro ⟨n, hn, hrest⟩
        exact ⟨n, ⟨by omega, hn⟩, _, rfl, hrest⟩
    · simp [layoutOk, Fits, h]
  | bisectionCheckpoint =>
    by_cases h : p.length = bisectionCheckpointPayloadLen
    · have hlen : p.length = 56 := h
      simp only [layoutOk, Fits, h, if_false, true_and, bind_eq_ok, word_eq_ok_iff,
        rejectIf_eq_ok_iff, ne_eq, Decidable.not_not, not_true, and_true]
      constructor
      · rintro ⟨v, ⟨-, -, hv⟩, -, rfl, f, ⟨-, -, hf⟩, -, rfl, c, ⟨-, -, hc⟩, -, rfl⟩
        exact ⟨hv, hf, hc⟩
      · rintro ⟨hv, hf, hc⟩
        exact ⟨_, ⟨by omega, by decide, hv⟩, (), rfl, _, ⟨by omega, by decide, hf⟩, (), rfl, _,
          ⟨by omega, by decide, hc⟩, (), rfl⟩
    · simp [layoutOk, Fits, h]
  | _ => simp [layoutOk, Fits]

lemma layoutOk_safely : Safely (fun _ => True) (k.layoutOk p seq icount) := by
  cases k with
  | devEvent =>
    by_cases h : 8 ≤ p.length
    · simp (disch := first | decide | omega) only [layoutOk, h, if_true, safely_bind,
        safely_word, safely_sub, safely_ok]
    · simp only [layoutOk, h, if_false, safely_ok]
  | bisectionCheckpoint =>
    by_cases h : p.length = bisectionCheckpointPayloadLen
    · have hlen : p.length = 56 := h
      simp (disch := first | decide | omega) only [layoutOk, ne_eq, h, not_true, if_false,
        safely_bind, safely_word, safely_rejectIf, safely_ok, implies_true]
    · simp only [layoutOk, ne_eq, h, not_false_eq_true, if_true, safely_ok]
  | _ => simp only [layoutOk, safely_ok]

end Kind

/-- The class and the layout agree with the record's kind; kinds that are not
known must be AUX. -/
def Record.Typed (r : Record) : Prop :=
  match Kind.ofCode r.kind with
  | none => r.isAux = true
  | some k => k.isAux = r.isAux ∧ k.Fits r.payload r.icount

lemma validateKind_eq_ok_iff :
    validateKind r.kind r.isAux r.payload r.seq r.icount = .ok () ↔ r.Typed := by
  rw [validateKind, Record.Typed]
  cases Kind.ofCode r.kind with
  | none => by_cases h : r.isAux <;> simp [h]
  | some k =>
    simp only [bind_eq_ok, rejectIf_eq_ok_iff,
      ← Kind.layoutOk_eq_ok_true_iff k r.payload r.seq r.icount]
    simp

lemma validateKind_safely (kind : UInt8) (aux : Bool) (p : List UInt8) (seq : UInt32)
    (icount : UInt64) : Safely (fun _ => True) (validateKind kind aux p seq icount) := by
  rw [validateKind]
  cases Kind.ofCode kind with
  | none =>
    by_cases h : aux
    · simp [h, safely_ok]
    · simp [h, safely_reject]
  | some k =>
    simp only [safely_bind, safely_rejectIf, implies_true]
    intro _
    exact Kind.layoutOk_safely k p seq icount

namespace Record

lemma exists_eq_bytes_append_iff {b : List UInt8} : (∃ rest, b = r.bytes ++ rest) ↔
      r.bytes.length ≤ b.length ∧ b[0]? = some r.kind ∧ b[1]? = some r.rflags ∧
      Bytes.slice b 2 4 = toLe (UInt16.ofNat r.payload.length) ∧ Bytes.slice b 4 8 = toLe r.seq ∧
      Bytes.slice b 8 16 = toLe r.icount ∧ Bytes.slice b 16 24 = toLe r.boundaryRip ∧
      Bytes.slice b 24 (24 + r.payload.length) = r.payload ∧
      Bytes.slice b (24 + r.payload.length) r.bytes.length = zeros (padLen r.payload.length) := by
  have hlength : r.bytes.length = 24 + (r.payload.length + padLen r.payload.length) := by
    rw [length_bytes, Nat.add_assoc]
  constructor
  · rintro ⟨rest, rfl⟩
    have hafter : ∀ i j, Bytes.slice (r.bytes ++ rest) (24 + i) (24 + j) =
        Bytes.slice (r.payload ++ (zeros (padLen r.payload.length) ++ rest)) i j := by
      intro i j
      rw [bytes, append_assoc, append_assoc, ← r.length_preamble, slice_append_add]
    refine ⟨by simp, by simp [bytes, preamble], by simp [bytes, preamble], ?_, ?_, ?_, ?_, ?_, ?_⟩
    · simp [bytes, preamble, slice_cons, slice_append_left, slice_full]
    · simp [bytes, preamble, slice_cons, slice_append_left, slice_append_right, slice_full]
    · simp [bytes, preamble, slice_cons, slice_append_left, slice_append_right, slice_full]
    · simp [bytes, preamble, slice_cons, slice_append_left, slice_append_right, slice_full]
    · rw [← Nat.add_zero 24, Nat.add_assoc, hafter, Nat.zero_add, slice_append_left le_rfl,
        slice_full rfl]
    · rw [hlength, hafter, ← Nat.add_zero (List.length r.payload), Nat.add_assoc, slice_append_add,
        Nat.zero_add, slice_append_left (by simp), slice_full (by simp)]
  · rintro ⟨hlen, h0, h1, h2, h3, h4, h5, h6, h7⟩
    refine ⟨b.drop r.bytes.length, ?_⟩
    have hpreamble : b = r.preamble ++ b.drop 24 := by
      rw [preamble, ← h2, ← h3, ← h4, ← h5]
      change b = [r.kind] ++ [r.rflags] ++ _ ++ _
      rw [← slice_succ h0, ← slice_succ h1]
      simp only [append_assoc, ← drop_eq_slice_append, Nat.reduceLeDiff, drop_zero, Nat.reduceAdd]
    have hpayload : b.drop 24 =
        r.payload ++ (zeros (padLen r.payload.length) ++ b.drop r.bytes.length) := by
      rw [drop_eq_slice_append (Nat.le_add_right 24 r.payload.length), h6,
        drop_eq_slice_append (j := r.bytes.length) (by omega), h7]
    calc b = r.preamble ++ b.drop 24 := hpreamble
      _ = r.bytes ++ b.drop r.bytes.length := by
          rw [hpayload]
          simp only [bytes, append_assoc]

end Record

namespace Record

structure Valid (r : Record) : Prop where
  payload_le : r.payload.length ≤ maxPayload
  rflags : r.rflags &&& ~~~rflagAux = 0
  typed : r.Typed

end Record

def RecordScan.past (scan : RecordScan) (r : Record) : RecordScan :=
  ⟨scan.offset + r.bytes.length, scan.count + 1, r.icount⟩

/-- `r` may come next: its number is its position, and its count does not go
back. -/
structure RecordScan.Admits (scan : RecordScan) (r : Record) : Prop where
  valid : r.Valid
  seq : r.seq.toNat = scan.count
  icount : 0 < scan.count → scan.lastIcount ≤ r.icount

lemma admits_of_scanNextRecord {scan' : RecordScan}
    (h : scanNextRecord body scan = .ok (some (r, scan'))) :
    scan.Admits r ∧ (∃ rest, body.drop scan.offset = r.bytes ++ rest) ∧ scan' = scan.past r := by
  rw [exists_eq_bytes_append_iff]
  by_cases hend : body.length ≤ scan.offset
  · rw [scanNextRecord, if_pos hend] at h
    cases h
  rw [scanNextRecord, if_neg hend] at h
  simp only [bind_eq_ok, rejectIf_eq_ok_iff, slice_eq_ok_iff, word_eq_ok_iff,
    suffix_eq_ok_iff, index_eq_ok_iff, add_eq_ok_iff, sub_eq_ok_iff] at h
  obtain ⟨_, ⟨-, rfl⟩, -, -, b, ⟨-, hb⟩, k, hk, f, hf, n, ⟨-, -, hn⟩, q, ⟨-, -, hq⟩, i,
    ⟨-, -, hi⟩, p, ⟨-, -, hp⟩, -, hmax, _, ⟨-, rfl⟩, _, ⟨-, rfl⟩, _, ⟨-, rfl⟩, -, -, -, hseq, -,
    hicount, -, hflags, _, ⟨-, rfl⟩, _, ⟨-, hpadded, rfl⟩, -, hpad, _, ⟨-, rfl⟩, payload,
    ⟨-, hlen, hpayload⟩, _, hkind, _, ⟨-, rfl⟩, _, ⟨-, rfl⟩, hr⟩ := h
  cases hr
  have hpayloadLen : payload.length = n.toNat := by
    rw [← hpayload, length_slice hlen, Nat.add_sub_cancel_left]
  have hpadding : Bytes.slice b (24 + n.toNat) (24 + n.toNat + padLen n.toNat) =
      zeros (padLen n.toNat) := by
    rw [eq_zeros_iff, length_slice hpadded, Nat.add_sub_cancel_left]
    exact ⟨rfl, by simpa using hpad⟩
  refine ⟨⟨⟨?_, not_not.mp hflags, validateKind_eq_ok_iff.mp hkind⟩, not_not.mp hseq, ?_⟩,
    ⟨?_, hb ▸ hk, hb ▸ hf, ?_, hb ▸ hq, hb ▸ hi, hb ▸ hp, ?_, ?_⟩, ?_⟩
  · exact hpayloadLen ▸ Nat.le_of_not_lt hmax
  · exact fun hpos => UInt64.not_lt.mp fun hlt => hicount ⟨hpos, hlt⟩
  · rw [length_bytes, hb, hpayloadLen]
    exact hpadded
  · rw [hb, hpayloadLen, hn, UInt16.ofNat_toNat]
  · rw [hb, hpayloadLen, hpayload]
  · rw [hb, length_bytes, hpayloadLen, hpadding]
  · rw [RecordScan.past, length_bytes, hpayloadLen]

lemma scanNextRecord_of_admits (hbody : body.length < 2 ^ 64) (hcount : scan.count ≤ scan.offset)
    (hr : scan.Admits r) (hrest : body.drop scan.offset = r.bytes ++ rest) :
    scanNextRecord body scan = .ok (some (r, scan.past r)) := by
  have hdrop : (body.drop scan.offset).length = body.length - scan.offset := length_drop
  have hpayload : r.payload.length ≤ 4096 := hr.valid.payload_le
  have hlen : (UInt16.ofNat r.payload.length).toNat = r.payload.length :=
    UInt16.toNat_ofNat_of_lt (hpayload.trans_lt (by decide))
  have hlength := r.length_bytes
  obtain ⟨hle, h0, h1, h2, h3, h4, h5, h6, h7⟩ :=
    exists_eq_bytes_append_iff.mp ⟨rest, hrest⟩
  rw [scanNextRecord, if_neg (by omega)]
  simp only [bind_eq_ok, rejectIf_eq_ok_iff, slice_eq_ok_iff, word_eq_ok_iff,
    suffix_eq_ok_iff, index_eq_ok_iff, add_eq_ok_iff, sub_eq_ok_iff]
  refine ⟨_, ⟨by omega, rfl⟩, (), by omega, _, ⟨by omega, rfl⟩, _, h0, _, h1, _,
    ⟨by omega, by omega, h2⟩, _, ⟨by omega, by omega, h3⟩, _, ⟨by omega, by omega, h4⟩, _,
    ⟨by omega, by omega, h5⟩, (), ?_⟩
  rw [hlen]
  refine ⟨Nat.not_lt.mpr hpayload, _, ⟨by omega, rfl⟩, _, ⟨by omega, rfl⟩, _, ⟨by omega, rfl⟩, (),
    by omega, (), not_not.mpr hr.seq, (), ?_, (), not_not.mpr hr.valid.rflags, _,
    ⟨by omega, rfl⟩, _, ⟨by omega, by omega, hlength ▸ h7⟩, (), by simp, _, ⟨by omega, rfl⟩, _,
    ⟨by omega, by omega, h6⟩, (), validateKind_eq_ok_iff.mpr hr.valid.typed, _,
    ⟨by omega, rfl⟩, _, ⟨by omega, rfl⟩, ?_⟩
  · rintro ⟨hpos, hlt⟩
    exact absurd (hr.icount hpos) (UInt64.not_le.mpr hlt)
  · rw [RecordScan.past, hlength]

/-- What a scan can give back: the end of the body, or an admissible record that
stands at the offset. -/
def RecordScan.Found (body : List UInt8) (scan : RecordScan) : Option (Record × RecordScan) → Prop
  | none => body.length ≤ scan.offset
  | some (r, scan') =>
    scan.Admits r ∧ (∃ rest, body.drop scan.offset = r.bytes ++ rest) ∧ scan' = scan.past r

lemma scanNextRecord_safely (hbody : body.length < 2 ^ 64) (hcount : scan.count ≤ scan.offset) :
    Safely (scan.Found body) (scanNextRecord body scan) := by
  by_cases hend : body.length ≤ scan.offset
  · rw [scanNextRecord, if_pos hend, safely_ok]
    exact hend
  suffices hsome : Safely (fun o => o ≠ none) (scanNextRecord body scan) by
    apply hsome.keep.mono _ fun _ ht => ht
    rintro (_ | ⟨r, scan'⟩) ⟨ho, hne⟩
    · exact absurd rfl hne
    · exact admits_of_scanNextRecord ho
  rw [scanNextRecord, if_neg hend]
  simp (disch := omega) only [safely_bind, safely_sub, safely_rejectIf, safely_suffix]
  intro h24
  have hlen : (body.drop scan.offset).length = body.length - scan.offset := length_drop
  generalize body.drop scan.offset = b at hlen
  have hn := (ofLe UInt16 (Bytes.slice b 2 4)).toNat_lt
  have hpad := padLen_lt (ofLe UInt16 (Bytes.slice b 2 4)).toNat
  simp (disch := first | decide | omega) only [safely_index, safely_word, safely_add]
  intro _ hfits _ _ _
  simp (disch := omega) only [safely_slice]
  intro _
  apply (validateKind_safely _ _ _ _ _).weaken
  intro _ _
  simp (disch := omega) only [safely_add, safely_ok, ne_eq, reduceCtorEq, not_false_eq_true]

def image (rs : List Record) : List UInt8 := rs.flatMap Record.bytes

@[simp] lemma image_nil : image [] = [] := flatMap_nil

@[simp] lemma image_append (rs ts : List Record) : image (rs ++ ts) = image rs ++ image ts :=
  flatMap_append

@[simp] lemma image_cons (r : Record) (rs : List Record) : image (r :: rs) = r.bytes ++ image rs :=
  flatMap_cons

namespace RecordScan

def after (rs : List Record) : RecordScan := rs.foldl past default

@[simp] lemma after_nil : after [] = default := rfl

lemma after_snoc (rs : List Record) (r : Record) : after (rs ++ [r]) = (after rs).past r := by
  simp [after]

@[simp] lemma offset_after (rs : List Record) : (after rs).offset = (image rs).length := by
  induction rs using List.reverseRecOn with
  | nil => rfl
  | append_singleton rs r ih => simp [after_snoc, past, ih]

@[simp] lemma count_after (rs : List Record) : (after rs).count = rs.length := by
  induction rs using List.reverseRecOn with
  | nil => rfl
  | append_singleton rs r ih => simp [after_snoc, past, ih]

lemma count_le_offset_after (rs : List Record) : (after rs).count ≤ (after rs).offset := by
  induction rs using List.reverseRecOn with
  | nil => exact le_rfl
  | append_singleton rs r ih =>
    have hlength := r.length_bytes
    simp only [after_snoc, past]
    omega

end RecordScan

def Sequenced (rs : List Record) : Prop :=
  ∀ pre r post, rs = pre ++ r :: post → (RecordScan.after pre).Admits r

lemma sequenced_nil : Sequenced [] := by
  intro pre r post h
  simp at h

lemma sequenced_snoc : Sequenced (rs ++ [r]) ↔ Sequenced rs ∧ (RecordScan.after rs).Admits r := by
  constructor
  · intro h
    refine ⟨fun pre x post hx => h pre x (post ++ [r]) ?_, h rs r [] rfl⟩
    rw [hx, append_assoc, cons_append]
  · rintro ⟨hrs, hr⟩ pre x post hx
    induction post using List.reverseRecOn with
    | nil =>
      obtain ⟨hpre, hxr⟩ := append_inj' hx rfl
      cases hxr
      exact hpre ▸ hr
    | append_singleton post y _ =>
      rw [← cons_append, ← append_assoc] at hx
      exact hrs pre x post (append_inj' hx rfl).1

lemma Sequenced.valid (h : Sequenced rs) (hr : r ∈ rs) : r.Valid := by
  obtain ⟨pre, post, rfl⟩ := append_of_mem hr
  exact (h pre r post rfl).valid

lemma Sequenced.seq_eq (h : Sequenced rs) {i : ℕ} (hr : rs[i]? = some r) : r.seq.toNat = i := by
  obtain ⟨hi, rfl⟩ := List.getElem?_eq_some_iff.mp hr
  have hcut : rs = rs.take i ++ rs[i] :: rs.drop (i + 1) := by
    rw [← drop_eq_getElem_cons hi, take_append_drop]
  rw [(h _ _ _ hcut).seq, count_after, length_take_of_le hi.le]

lemma Sequenced.icount_le_last (h : Sequenced rs) (hr : r ∈ rs) :
    r.icount ≤ (RecordScan.after rs).lastIcount := by
  induction rs using List.reverseRecOn with
  | nil => cases hr
  | append_singleton rs t ih =>
    obtain ⟨hrs, ht⟩ := sequenced_snoc.mp h
    rw [after_snoc, RecordScan.past]
    rcases mem_append.mp hr with hr | hr
    · have hpos : 0 < (RecordScan.after rs).count := by
        rw [count_after]
        exact length_pos_of_mem hr
      exact UInt64.le_trans (ih hrs hr) (ht.icount hpos)
    · rw [mem_singleton.mp hr]
      exact UInt64.le_refl _

lemma Sequenced.pairwise_icount (h : Sequenced rs) :
    rs.Pairwise fun r t => r.icount ≤ t.icount := by
  induction rs using List.reverseRecOn with
  | nil => exact List.Pairwise.nil
  | append_singleton rs t ih =>
    obtain ⟨hrs, ht⟩ := sequenced_snoc.mp h
    rw [pairwise_append]
    refine ⟨ih hrs, pairwise_singleton _ t, ?_⟩
    intro r hr x hx
    rw [mem_singleton.mp hx]
    have hpos : 0 < (RecordScan.after rs).count := by
      rw [count_after]
      exact length_pos_of_mem hr
    exact UInt64.le_trans (hrs.icount_le_last hr) (ht.icount hpos)

/-! ## The validation loop -/

def Record.isEnd (r : Record) : Bool := r.kind == Kind.end.code

structure EndAgrees (header : Header) (r : Record) : Prop where
  boundaryRip : r.boundaryRip = 0
  pad : Bytes.slice r.payload 1 8 = zeros 7
  icount : r.icount = header.endIcount
  stateHash : Bytes.slice r.payload 8 40 = header.endStateHash.toList

lemma checkEnd_safely (hlen : r.payload.length = 40) :
    Safely (fun _ => EndAgrees header r) (checkEnd header r) := by
  simp (disch := omega) only [checkEnd, safely_bind, safely_rejectIf, safely_slice, not_not, ne_eq]
  exact fun hrip hpad hicount hhash => ⟨hrip, hpad, hicount, hhash⟩

lemma checkEnd_of_endAgrees (hlen : r.payload.length = 40) (h : EndAgrees header r) :
    checkEnd header r = .ok () := by
  simp only [checkEnd, bind_eq_ok, rejectIf_eq_ok_iff, slice_eq_ok_iff, not_not, ne_eq]
  exact ⟨(), h.boundaryRip, _, ⟨by omega, by omega, rfl⟩, (), h.pad, (), h.icount, _,
    ⟨by omega, by omega, rfl⟩, h.stateHash⟩

lemma Record.Valid.length_payload_of_isEnd (h : r.Valid) (hend : r.isEnd = true) :
    r.payload.length = 40 := by
  have htyped := h.typed
  rw [Record.isEnd, beq_iff_eq] at hend
  rw [Record.Typed, hend, Kind.ofCode_code] at htyped
  exact htyped.2

lemma Record.Valid.isAux_of_isEpochHash (h : r.Valid) (hepoch : r.isEpochHash = true) :
    r.isAux = true := by
  have htyped := h.typed
  rw [Record.isEpochHash, beq_iff_eq] at hepoch
  rw [Record.Typed, hepoch, Kind.ofCode_code] at htyped
  exact htyped.1.symm

namespace Walk

def past (w : Walk) (r : Record) : Walk where
  scan := w.scan.past r
  sawEnd := w.sawEnd || r.isEnd
  sawAuxNonEnd := w.sawAuxNonEnd || (r.isAux && !r.isEnd && !r.isEpochHash)
  sawEpochHash := w.sawEpochHash || r.isEpochHash

variable (rs)

def after : Walk := rs.foldl past start

lemma after_snoc (r : Record) : after (rs ++ [r]) = (after rs).past r := by
  simp [after]

@[simp] lemma scan_after : (after rs).scan = .after rs := by
  induction rs using List.reverseRecOn with
  | nil => rfl
  | append_singleton rs r ih => rw [after_snoc, RecordScan.after_snoc, past, ih]

@[simp] lemma sawEnd_after : (after rs).sawEnd = rs.any Record.isEnd := by
  induction rs using List.reverseRecOn with
  | nil => rfl
  | append_singleton rs r ih => simp [after_snoc, past, ih]

@[simp] lemma sawEpochHash_after : (after rs).sawEpochHash = rs.any Record.isEpochHash := by
  induction rs using List.reverseRecOn with
  | nil => rfl
  | append_singleton rs r ih => simp [after_snoc, past, ih]

@[simp] lemma sawAuxNonEnd_after :
    (after rs).sawAuxNonEnd = rs.any fun r => r.isAux && !r.isEnd && !r.isEpochHash := by
  induction rs using List.reverseRecOn with
  | nil => rfl
  | append_singleton rs r ih => simp [after_snoc, past, ih]

end Walk

lemma Record.isEnd_iff : r.isEnd = true ↔ Kind.ofCode r.kind = some .end := by
  rw [Record.isEnd, beq_iff_eq, Kind.ofCode_eq_some_iff]

lemma Record.isEpochHash_iff : r.isEpochHash = true ↔ Kind.ofCode r.kind = some .epochHash := by
  rw [Record.isEpochHash, beq_iff_eq, Kind.ofCode_eq_some_iff]

lemma not_isEpochHash_of_isEnd (h : r.isEnd = true) : r.isEpochHash = false := by
  rw [← Bool.not_eq_true, isEpochHash_iff, isEnd_iff.mp h]
  simp

lemma Walk.note_eq (hsaw : w.sawEnd = false) : w.note header r (w.scan.past r) =
      (if r.isEnd then checkEnd header r else .ok ()) >>= fun _ => .ok (w.past r) := by
  rw [Walk.note]
  by_cases hend : r.isEnd = true
  · simp [isEnd_iff.mp hend, hend, not_isEpochHash_of_isEnd hend, Walk.past]
  · by_cases hepoch : r.isEpochHash = true
    · simp [isEpochHash_iff.mp hepoch, hend, hepoch, Walk.past, hsaw]
    · have hother : w.past r =
          { w with scan := w.scan.past r, sawAuxNonEnd := w.sawAuxNonEnd || r.isAux } := by
        simp [Walk.past, hend, hepoch]
      rw [if_neg hend, ok_bind, hother]
      rw [isEnd_iff] at hend
      rw [isEpochHash_iff] at hepoch
      split
      · exact absurd ‹_› hend
      · exact absurd ‹_› hepoch
      · rfl

lemma Walk.note_safely (hsaw : w.sawEnd = false) (hr : r.Valid) :
    Safely (fun w' => w' = w.past r ∧ (r.isEnd = true → EndAgrees header r))
      (w.note header r (w.scan.past r)) := by
  rw [Walk.note_eq hsaw, safely_bind]
  by_cases hend : r.isEnd = true
  · rw [if_pos hend]
    apply (checkEnd_safely (hr.length_payload_of_isEnd hend)).weaken
    exact fun _ hagrees => ⟨rfl, fun _ => hagrees⟩
  · rw [if_neg hend]
    exact ⟨rfl, fun he => absurd he hend⟩

structure Walked (header : Header) (body : List UInt8) (rs : List Record) : Prop where
  sequenced : Sequenced rs
  starts : ∃ rest, body = image rs ++ rest
  endLast : ∀ r ∈ rs.dropLast, r.isEnd = false
  endAgrees : ∀ r ∈ rs, r.isEnd = true → EndAgrees header r

lemma Walked.snoc (h : Walked header body rs) (hsaw : rs.any Record.isEnd = false)
    (hr : (RecordScan.after rs).Admits r)
    (hrest : ∃ rest, body.drop (image rs).length = r.bytes ++ rest)
    (hend : r.isEnd = true → EndAgrees header r) : Walked header body (rs ++ [r]) where
  sequenced := sequenced_snoc.mpr ⟨h.sequenced, hr⟩
  starts := starts_snoc h.starts hrest
  endLast := by
    rw [dropLast_concat]
    simpa using hsaw
  endAgrees := by
    intro x hx
    rcases mem_append.mp hx with hx | hx
    · exact h.endAgrees x hx
    · exact mem_singleton.mp hx ▸ hend

lemma validateTurn_safely (hbody : body.length < 2 ^ 64) (h : Walked header body rs) :
    Safely (Turns (fun w => ∃ rs, w = Walk.after rs ∧ Walked header body rs)
      (fun w => ∃ rs, w = Walk.after rs ∧ Walked header body rs ∧ body = image rs)
      (fun w => body.length - w.scan.offset) (Walk.after rs))
      (validateTurn header body (Walk.after rs)) := by
  by_cases hoffset : body.length ≤ (image rs).length
  · rw [validateTurn, if_pos (by simpa using hoffset)]
    exact ⟨rs, rfl, h, eq_flatMap_of_length_le h.starts hoffset⟩
  · rw [validateTurn, if_neg (by simpa using hoffset), Walk.sawEnd_after, safely_bind,
      safely_rejectIf, safely_bind, Walk.scan_after]
    intro hsaw
    apply (scanNextRecord_safely hbody (count_le_offset_after rs)).weaken
    rintro (_ | ⟨r, scan'⟩) hfound
    · exact absurd (offset_after rs ▸ hfound) hoffset
    · obtain ⟨hr, hrest, rfl⟩ := hfound
      rw [safely_bind, ← Walk.scan_after]
      apply (Walk.note_safely (by simpa using hsaw) hr.valid).weaken
      rintro _ ⟨rfl, hend⟩
      rw [offset_after] at hrest
      refine ⟨⟨rs ++ [r], (Walk.after_snoc rs r).symm, h.snoc (by simpa using hsaw) hr hrest hend⟩,
        ?_⟩
      have hlength := r.length_bytes
      simp only [Walk.past, RecordScan.past, Walk.scan_after, offset_after]
      omega

/-- A record region that belongs under `header`: the records `rs`, then END. -/
structure SealedBody (header : Header) (body : List UInt8) (rs : List Record) (e : Record) :
    Prop where
  body_eq : body = image (rs ++ [e])
  sequenced : Sequenced (rs ++ [e])
  not_isEnd : ∀ r ∈ rs, r.isEnd = false
  isEnd : e.isEnd = true
  endAgrees : EndAgrees header e
  recordCount : header.recordCount.toNat = rs.length + 1
  hasAux : header.hasAux = rs.any Record.isAux
  hasEpochHashes : header.hasEpochHashes = rs.any Record.isEpochHash

lemma flags_after (hrs : Sequenced rs) (hnot : ∀ r ∈ rs, r.isEnd = false) (he : e.isEnd = true) :
    ((Walk.after (rs ++ [e])).sawAuxNonEnd || (Walk.after (rs ++ [e])).sawEpochHash) =
        rs.any Record.isAux ∧
      (Walk.after (rs ++ [e])).sawEpochHash = rs.any Record.isEpochHash := by
  have hepoch : (Walk.after (rs ++ [e])).sawEpochHash = rs.any Record.isEpochHash := by
    rw [Walk.sawEpochHash_after, any_append, any_cons, not_isEpochHash_of_isEnd he]
    simp
  refine ⟨?_, hepoch⟩
  rw [hepoch, Walk.sawAuxNonEnd_after, any_append, any_cons, he, any_nil]
  rw [Bool.eq_iff_iff]
  simp only [Bool.or_eq_true, any_eq_true, Bool.and_eq_true, Bool.not_eq_true', Bool.not_true,
    Bool.and_false, Bool.false_and, Bool.false_eq_true, or_false]
  constructor
  · rintro (⟨r, hr, ⟨haux, -⟩, -⟩ | ⟨r, hr, hepoch⟩)
    · exact ⟨r, hr, haux⟩
    · exact ⟨r, hr, (hrs.valid hr).isAux_of_isEpochHash hepoch⟩
  · rintro ⟨r, hr, haux⟩
    cases hepoch : r.isEpochHash with
    | true => exact Or.inr ⟨r, hr, hepoch⟩
    | false => exact Or.inl ⟨r, hr, ⟨haux, hnot r hr⟩, hepoch⟩

lemma validateRecords_safely (hbody : body.length < 2 ^ 64) :
    Safely (fun _ => ∃ rs e, SealedBody header body rs e) (validateRecords header body) := by
  have hstart : ∃ rs, Walk.start = Walk.after rs ∧ Walked header body rs :=
    ⟨[], rfl, sequenced_nil, ⟨body, rfl⟩, by simp, by simp⟩
  have hloop : Safely (fun w => ∃ rs, w = Walk.after rs ∧ Walked header body rs ∧ body = image rs)
      (loop (validateTurn header body) (body.length + 1) .start) := by
    refine post_loop (I := fun w => ∃ rs, w = Walk.after rs ∧ Walked header body rs)
      (μ := fun w => body.length - w.scan.offset) ?_ hstart (by omega)
    rintro _ ⟨rs, rfl, h⟩
    exact validateTurn_safely hbody h
  rw [validateRecords, safely_bind]
  apply hloop.weaken
  rintro _ ⟨rs, rfl, h, hbody⟩
  simp only [safely_bind, safely_rejectIf, not_not, ne_eq, Walk.sawEnd_after, Walk.scan_after,
    count_after]
  intro hend hcount haux hepoch
  induction rs using List.reverseRecOn with
  | nil => exact absurd rfl hend
  | append_singleton rs e _ =>
    have hnot : ∀ r ∈ rs, r.isEnd = false := by simpa using h.endLast
    have he : e.isEnd = true := by
      rw [Bool.not_eq_false, any_append, Bool.or_eq_true] at hend
      rcases hend with hend | hend
      · obtain ⟨r, hr, hrend⟩ := any_eq_true.mp hend
        exact absurd hrend (Bool.not_eq_true _ ▸ hnot r hr)
      · simpa using hend
    obtain ⟨hrs, -⟩ := sequenced_snoc.mp h.sequenced
    obtain ⟨hauxFlag, hepochFlag⟩ := flags_after hrs hnot he
    refine ⟨rs, e, hbody, h.sequenced, hnot, he, h.endAgrees e (by simp) he, ?_, ?_, ?_⟩
    · rw [← hcount, length_append, length_singleton]
    · rw [haux, hauxFlag]
    · rw [hepoch, hepochFlag]

namespace SealedBody

variable {pre post : List Record}

variable (h : SealedBody header body rs e)
include h

section

variable (hcut : rs ++ [e] = pre ++ r :: post)
include hcut

lemma drop_eq :
    body.drop (image pre).length = r.bytes ++ image post := by
  rw [h.body_eq, hcut, image_append, drop_left, image_cons]

lemma offset_lt : (image pre).length < body.length := by
  have hlength := congrArg List.length (h.drop_eq hcut)
  rw [length_drop, length_append, r.length_bytes] at hlength
  omega

lemma admits :
    (RecordScan.after pre).Admits r := h.sequenced pre r post hcut

lemma any_isEnd_eq_false : pre.any Record.isEnd = false := by
  have hrs : rs = pre ++ (r :: post).dropLast := by
    rw [← dropLast_append_of_ne_nil (cons_ne_nil r post), ← hcut, dropLast_concat]
  rw [any_eq_false]
  intro x hx
  rw [h.not_isEnd x (by rw [hrs]; exact mem_append_left _ hx)]
  simp

end

lemma endAgrees_of_isEnd (hr : r ∈ rs ++ [e]) (hend : r.isEnd = true) : EndAgrees header r := by
  rcases mem_append.mp hr with hr | hr
  · rw [h.not_isEnd r hr] at hend
    cases hend
  · rw [mem_singleton.mp hr]
    exact h.endAgrees

lemma scanNextRecord_eq (hbody : body.length < 2 ^ 64) (hcut : rs ++ [e] = pre ++ r :: post) :
    scanNextRecord body (Walk.after pre).scan = .ok (some (r, (Walk.after pre).scan.past r)) := by
  rw [Walk.scan_after]
  apply scanNextRecord_of_admits hbody (count_le_offset_after pre) (h.admits hcut)
  rw [offset_after, h.drop_eq hcut]

lemma validateTurn_eq (hbody : body.length < 2 ^ 64) (hcut : rs ++ [e] = pre ++ r :: post) :
    validateTurn header body (Walk.after pre) = .ok (.next (Walk.after (pre ++ [r]))) := by
  have hoffset := h.offset_lt hcut
  have hsaw := h.any_isEnd_eq_false hcut
  have hnote : (Walk.after pre).note header r ((Walk.after pre).scan.past r) =
      .ok (Walk.after (pre ++ [r])) := by
    rw [Walk.note_eq (by rw [Walk.sawEnd_after, hsaw]), Walk.after_snoc]
    by_cases hend : r.isEnd = true
    · rw [if_pos hend, checkEnd_of_endAgrees
        ((h.admits hcut).valid.length_payload_of_isEnd hend)
        (h.endAgrees_of_isEnd (by rw [hcut]; simp) hend), ok_bind]
    · rw [if_neg hend, ok_bind]
  rw [validateTurn, if_neg (by simpa using hoffset), Walk.sawEnd_after, hsaw,
    h.scanNextRecord_eq hbody hcut]
  simp only [rejectIf, Bool.false_eq_true, if_false, ok_bind, hnote]

end SealedBody

lemma validateRecords_of_sealedBody (hbody : body.length < 2 ^ 64)
    (h : SealedBody header body rs e) : validateRecords header body = .ok () := by
  obtain ⟨w, hw, rfl⟩ : ∃ w, loop (validateTurn header body) (body.length + 1) .start = .ok w ∧
      w = Walk.after (rs ++ [e]) := by
    refine loop_eq_ok (I := fun w => ∃ pre post, w = Walk.after pre ∧ rs ++ [e] = pre ++ post)
      (μ := fun w => body.length - w.scan.offset) ?_ ⟨[], rs ++ [e], rfl, rfl⟩ (by omega)
    rintro _ ⟨pre, post, rfl, hcut⟩
    cases post with
    | nil =>
      rw [append_nil] at hcut
      refine ⟨.done (Walk.after pre), ?_, congrArg Walk.after hcut.symm⟩
      rw [validateTurn, if_pos]
      rw [Walk.scan_after, offset_after, h.body_eq, hcut]
    | cons r post =>
      refine ⟨_, h.validateTurn_eq hbody hcut, ⟨pre ++ [r], post, rfl, by simp [hcut]⟩, ?_⟩
      have hoffset := h.offset_lt hcut
      have hlength := r.length_bytes
      simp only [Walk.scan_after, offset_after, image_append, image_cons, image_nil,
        append_nil, length_append]
      omega
  obtain ⟨hrs, -⟩ := sequenced_snoc.mp h.sequenced
  obtain ⟨haux, hepoch⟩ := flags_after hrs h.not_isEnd h.isEnd
  simp only [validateRecords, hw, ok_bind, bind_eq_ok, rejectIf_eq_ok_iff]
  refine ⟨(), ?_, (), ?_, (), ?_, ?_⟩
  · simp [h.isEnd]
  · simp [h.recordCount]
  · rw [haux]
    exact not_not.mpr h.hasAux
  · rw [hepoch]
    exact not_not.mpr h.hasEpochHashes

/-! ## The record iterator and the typed view -/

lemma nextTurn_eq {offset : ℕ} {acc : List Record} (hbody : body.length < 2 ^ 64)
    (hr : r.payload.length ≤ maxPayload) (hrest : body.drop offset = r.bytes ++ rest) :
    nextTurn body (offset, acc) = .ok (.next (offset + r.bytes.length, acc ++ [r])) := by
  have hdrop : (body.drop offset).length = body.length - offset := length_drop
  have hpayload : r.payload.length ≤ 4096 := hr
  have hlen : (UInt16.ofNat r.payload.length).toNat = r.payload.length :=
    UInt16.toNat_ofNat_of_lt (hpayload.trans_lt (by decide))
  have hlength := r.length_bytes
  obtain ⟨hle, h0, h1, h2, h3, h4, h5, h6, -⟩ :=
    exists_eq_bytes_append_iff.mp ⟨rest, hrest⟩
  rw [nextTurn, if_neg (by simp only; omega)]
  simp only [bind_eq_ok, slice_eq_ok_iff, word_eq_ok_iff, suffix_eq_ok_iff, index_eq_ok_iff,
    add_eq_ok_iff]
  refine ⟨_, ⟨by omega, rfl⟩, _, ⟨by omega, by omega, h2⟩, _, h0, _, h1, _,
    ⟨by omega, by omega, h3⟩, _, ⟨by omega, by omega, h4⟩, _, ⟨by omega, by omega, h5⟩, ?_⟩
  rw [hlen]
  refine ⟨_, ⟨by omega, rfl⟩, _, ⟨by omega, by omega, h6⟩, _, ⟨by omega, rfl⟩, _,
    ⟨by omega, rfl⟩, _, ⟨by omega, rfl⟩, ?_⟩
  rw [hlength]

lemma records_image (header : Header) (hrs : ∀ r ∈ rs, r.payload.length ≤ maxPayload)
    (hbody : (image rs).length < 2 ^ 64) : LogReader.records ⟨header, image rs⟩ = .ok rs := by
  obtain ⟨out, hout, rfl⟩ : ∃ out, LogReader.records ⟨header, image rs⟩ = .ok out ∧ out = rs := by
    refine loop_eq_ok
      (I := fun s => ∃ pre post, s = ((image pre).length, pre) ∧ rs = pre ++ post)
      (μ := fun s => (image rs).length - s.1) ?_ ⟨[], rs, rfl, rfl⟩ (by simp)
    rintro _ ⟨pre, post, rfl, rfl⟩
    cases post with
    | nil =>
      refine ⟨.done pre, ?_, (append_nil pre).symm⟩
      rw [nextTurn, if_pos]
      rw [append_nil]
    | cons r post =>
      have hrest : (image (pre ++ r :: post)).drop (image pre).length = r.bytes ++ image post := by
        rw [image_append, drop_left, image_cons]
      refine ⟨_, nextTurn_eq hbody (hrs r (by simp)) hrest,
        ⟨pre ++ [r], post, by simp, by simp⟩, ?_⟩
      have hlength := r.length_bytes
      simp only [image_append, image_cons, length_append]
      omega
  exact hout

lemma SealedBody.records_eq (h : SealedBody header body rs e) (hbody : body.length < 2 ^ 64) :
    LogReader.records ⟨header, body⟩ = .ok (rs ++ [e]) := by
  obtain rfl := h.body_eq
  exact records_image header (fun r hr => (h.sequenced.valid hr).payload_le) hbody

lemma Record.Valid.exists_body (h : r.Valid) : ∃ b, r.body = .ok b := by
  suffices hsafe : Safely (fun _ => True) r.body by
    obtain ⟨b, hb, -⟩ := hsafe.returns
    exact ⟨b, hb⟩
  have htyped := h.typed
  rw [Record.Typed] at htyped
  rw [Record.body]
  cases hkind : Kind.ofCode r.kind with
  | none => simp only [safely_ok]
  | some k =>
    rw [hkind] at htyped
    have hfits := htyped.2
    cases k with
    | devEvent =>
      have hlen : 8 ≤ r.payload.length := hfits.1
      simp (disch := first | decide | omega) only [safely_bind, safely_word, safely_suffix,
        safely_ok]
    | netRx => simp only [safely_ok]
    | bisectionCheckpoint =>
      have hlen : r.payload.length = 56 := hfits.1
      simp (disch := first | decide | omega) only [safely_bind, safely_word, safely_array,
        safely_ok]
    | _ =>
      simp only [Kind.Fits] at hfits
      simp (disch := first | decide | omega) only [safely_bind, safely_index, safely_word,
        safely_array, safely_ok]

end DetHypervisor.Dhilog
