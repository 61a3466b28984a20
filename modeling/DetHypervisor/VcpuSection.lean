import DetHypervisor.SnapshotSections

/-!
# The VCPU section

Raw structs around a length-prefixed XSAVE area and a counted list of registers, which the
decoder wants in the one form that a capture produces.
-/

namespace DetHypervisor.VcpuCodec

open Bytes Checked Cursor List

inductive KvmError where
  | «open» (text : String)

/-- Sizes of the structs of the kernel interface, which are plain data. -/
structure KvmSizes where
  regs : ℕ+
  sregs : ℕ+
  fpu : ℕ+
  xcrs : ℕ+
  events : ℕ+
  dbg : ℕ+

structure MsrEntry where
  index : UInt32
  reserved : UInt32
  data : UInt64
  deriving DecidableEq

/-- What the kernel needs to reconstruct a virtual CPU; a struct of the kernel
interface is taken as its bytes. -/
structure VcpuState (z : KvmSizes) where
  regs : List.Vector UInt8 z.regs
  sregs : List.Vector UInt8 z.sregs
  fpu : List.Vector UInt8 z.fpu
  xsave : List UInt8
  xcrs : List.Vector UInt8 z.xcrs
  msrs : List MsrEntry
  events : List.Vector UInt8 z.events
  dbg : List.Vector UInt8 z.dbg

def restoreMsrList : List UInt32 :=
  [0xC0000080, -- EFER
   0xC0000081, -- STAR
   0xC0000082, -- LSTAR
   0xC0000083, -- CSTAR
   0xC0000084, -- SFMASK
   0xC0000102, -- KERNEL_GS_BASE
   0xC0000100, -- FS_BASE
   0xC0000101, -- GS_BASE
   0x174, -- SYSENTER_CS
   0x175, -- SYSENTER_ESP
   0x176, -- SYSENTER_EIP
   0x277, -- PAT
   0xC0000103, -- TSC_AUX
   0x48] -- SPEC_CTRL

def xsaveAreaLen : ℕ := 4096

def vcpuSectionVersion : UInt16 := 1

/-- One register on the wire; the reserved word is not carried. -/
def MsrEntry.bytes (e : MsrEntry) : List UInt8 := toLe e.index ++ (toLe (0 : UInt32) ++ toLe e.data)

variable {z : KvmSizes}

def encodeSection (st : VcpuState z) : List UInt8 :=
  st.regs.toList ++ (st.sregs.toList ++ (st.fpu.toList ++
    ((toLe (UInt32.ofNat st.xsave.length) ++ st.xsave) ++ (st.xcrs.toList ++
    ((toLe (UInt32.ofNat st.msrs.length) ++ st.msrs.flatMap MsrEntry.bytes) ++
    (st.events.toList ++ st.dbg.toList))))))

def hex (n : UInt32) : String := "0x" ++ String.ofList (Nat.toDigits 16 n.toNat)

section Decoding

variable (bytes : List UInt8)

def readStruct (n : ℕ+) : Decoder KvmError (List.Vector UInt8 n) :=
  toArray n (readExact (.open "VCPU section truncated") bytes n)

def readXsave : Decoder KvmError (List UInt8) :=
  counted (toWord UInt32 (getBytes (.open "VCPU section truncated at xsave len") bytes 4))
    (fun xlen => refuseIf (xlen ≠ xsaveAreaLen) (.open s!"xsave len {xlen}, want {xsaveAreaLen}"))
    (getBytes (.open "VCPU section truncated in xsave") bytes)

def readMsr (expected : UInt32 × ℕ) : Decoder KvmError MsrEntry := do
  let i := expected.2
  let entry ← getBytes (.open "VCPU section truncated in msrs") bytes 16
  let index ← still (word UInt32 entry 0 4)
  refuseIf (index ≠ expected.1) (.open s!"msr[{i}] is {hex index}, want {hex expected.1}")
  let pad ← still (slice entry 4 8)
  refuseIf (pad ≠ zeros 4) (.open s!"msr[{i}] pad nonzero")
  let data ← still (word UInt64 entry 8 16)
  pure ⟨index, 0, data⟩

def readMsrs : Decoder KvmError (List MsrEntry) :=
  counted (toWord UInt32 (getBytes (.open "VCPU section truncated at msr count") bytes 4))
    (fun count => refuseIf (count ≠ restoreMsrList.length)
      (.open s!"msr count {count}, want {restoreMsrList.length} (list is code-versioned)"))
    (fun _ => each (readMsr bytes) restoreMsrList.zipIdx)

def readState : Decoder KvmError (VcpuState z) := do
  let regs ← readStruct bytes z.regs
  let sregs ← readStruct bytes z.sregs
  let fpu ← readStruct bytes z.fpu
  let xsave ← readXsave bytes
  let xcrs ← readStruct bytes z.xcrs
  let msrs ← readMsrs bytes
  let events ← readStruct bytes z.events
  let dbg ← readStruct bytes z.dbg
  let stop ← position
  refuseIf (stop ≠ bytes.length)
    (.open s!"VCPU section has {bytes.length - stop} trailing bytes")
  pure ⟨regs, sregs, fpu, xsave, xcrs, msrs, events, dbg⟩

def decodeSection (secVersion : UInt16) : Exec KvmError (VcpuState z) := do
  rejectIf (secVersion ≠ vcpuSectionVersion)
    (.open s!"VCPU section version {secVersion}, want {vcpuSectionVersion}")
  let (st, _) ← readState bytes 0
  .ok st

end Decoding

/-- The form of a captured state: a full XSAVE area and the registers of
`restoreMsrList` in order. -/
structure VcpuState.Captured (st : VcpuState z) : Prop where
  xsave : st.xsave.length = xsaveAreaLen
  msrs : st.msrs.map MsrEntry.index = restoreMsrList
  reserved : ∀ e ∈ st.msrs, e.reserved = 0

variable {bytes : List UInt8} {i j : ℕ}
  {e : MsrEntry} {ms : List MsrEntry} {st : VcpuState z} {v : UInt16}

lemma MsrEntry.eq_bytes_iff {entry : List UInt8} :
    entry = e.bytes ↔ entry.length = 16 ∧ Bytes.slice entry 0 4 = toLe e.index ∧
      Bytes.slice entry 4 8 = zeros 4 ∧ Bytes.slice entry 8 16 = toLe e.data := by
  have hzero : toLe (0 : UInt32) = zeros 4 := by decide
  rw [eq_iff_isPrefix_drop]
  simp only [bytes, append_isPrefix_drop_iff, hzero]
  simp only [isPrefix_drop_iff, length_append, length_toLe, size_uint32, size_uint64,
    length_replicate, Nat.reduceAdd]

lemma forall₂_zipIdx_iff {expected : List UInt32} {n : ℕ} :
    List.Forall₂ (fun x e => e.index = x.1 ∧ e.reserved = 0) (expected.zipIdx n) ms ↔
      ms.map MsrEntry.index = expected ∧ ∀ e ∈ ms, e.reserved = 0 := by
  induction expected generalizing n ms with
  | nil => cases ms <;> simp
  | cons x expected ih =>
    cases ms with
    | nil => simp
    | cons e ms =>
      simp only [zipIdx_cons, forall₂_cons, ih, map_cons, List.cons.injEq, forall_mem_cons]
      tauto

section

variable (hbytes : bytes.length < 2 ^ 64)
include hbytes

lemma readStruct_eq_ok_iff {n : ℕ+} {v : List.Vector UInt8 n} :
    readStruct bytes n i = .ok (v, j) ↔ Stands bytes v.toList i j :=
  toArray_eq_ok_iff (fetches_readExact hbytes _ _) n.pos

lemma getU32_eq_ok_iff {e : KvmError} {a : UInt32} :
    toWord UInt32 (getBytes e bytes 4) i = .ok (a, j) ↔ Stands bytes (toLe a) i j :=
  toWord_eq_ok_iff (fetches_getBytes hbytes e 4) (by decide)

lemma readXsave_eq_ok_iff {xsave : List UInt8} :
    readXsave bytes i = .ok (xsave, j) ↔ xsave.length = xsaveAreaLen ∧
        Stands bytes (toLe (UInt32.ofNat xsave.length) ++ xsave) i j := by
  rw [readXsave, counted_eq_ok_iff (P := (· = xsaveAreaLen)) (Q := fun _ => True)
    (f := fun xsave => xsave) (fun _ _ _ => getU32_eq_ok_iff hbytes)]
  · refine and_congr_left fun _ => ⟨fun h => h.2.1, fun h => ⟨?_, h, trivial⟩⟩
    rw [h]
    decide
  · exact fun n i u j => refuseIf_eq_ok_iff.trans (by rw [not_not])
  · exact fun n i xsave j _ hi =>
      (fetches_getBytes hbytes _ n i xsave j (.inr hi)).trans (by rw [true_and])

lemma readMsr_eq_ok_iff {expected : UInt32 × ℕ} :
    readMsr bytes expected i = .ok (e, j) ↔
      (e.index = expected.1 ∧ e.reserved = 0) ∧ Stands bytes e.bytes i j := by
  simp only [readMsr, bind_eq_ok_iff, fetches_getBytes hbytes _ 16 _ _ _ (.inl (by decide)),
    still_eq_ok_iff, refuseIf_eq_ok_iff, pure_eq_ok_iff, word_eq_ok_iff, slice_eq_ok_iff, ne_eq,
    not_not]
  constructor
  · rintro ⟨entry, k, ⟨hlen, hstands⟩, index, _, ⟨⟨-, -, hindex⟩, rfl⟩, -, _, ⟨hexpected, rfl⟩, pad,
      _, ⟨⟨-, -, rfl⟩, rfl⟩, -, _, ⟨hpad, rfl⟩, data, _, ⟨⟨-, -, hdata⟩, rfl⟩, rfl, rfl⟩
    have hentry : entry = MsrEntry.bytes ⟨index, 0, data⟩ :=
      MsrEntry.eq_bytes_iff.mpr ⟨hlen, hindex, hpad, hdata⟩
    exact ⟨⟨hexpected, rfl⟩, hentry ▸ hstands⟩
  · rintro ⟨⟨hexpected, hreserved⟩, hstands⟩
    obtain ⟨hlen, hindex, hpad, hdata⟩ := MsrEntry.eq_bytes_iff.mp (rfl : e.bytes = e.bytes)
    refine ⟨_, j, ⟨hlen, hstands⟩, _, j, ⟨⟨by omega, by omega, hindex⟩, rfl⟩, (), j,
      ⟨hexpected, rfl⟩, _, j, ⟨⟨by omega, by omega, hpad⟩, rfl⟩, (), j, ⟨rfl, rfl⟩, _, j,
      ⟨⟨by omega, by omega, hdata⟩, rfl⟩, ?_, rfl⟩
    rw [← hreserved]

lemma readMsrs_eq_ok_iff : readMsrs bytes i = .ok (ms, j) ↔
      (ms.map MsrEntry.index = restoreMsrList ∧ ∀ e ∈ ms, e.reserved = 0) ∧
        Stands bytes (toLe (UInt32.ofNat ms.length) ++ ms.flatMap MsrEntry.bytes) i j := by
  rw [readMsrs, counted_eq_ok_iff (P := (· = restoreMsrList.length))
    (Q := fun ms => ms.map MsrEntry.index = restoreMsrList ∧ ∀ e ∈ ms, e.reserved = 0)
    (f := fun ms => ms.flatMap MsrEntry.bytes) (fun _ _ _ => getU32_eq_ok_iff hbytes)]
  · refine and_congr_left fun _ => ⟨fun h => h.2.2, fun h => ?_⟩
    have hlen : ms.length = restoreMsrList.length := by rw [← h.1, length_map]
    exact ⟨hlen ▸ by decide, hlen, h⟩
  · exact fun n i u j => refuseIf_eq_ok_iff.trans (by rw [not_not])
  · rintro _ i ms j rfl -
    have hmsr : ∀ x i e j, readMsr bytes x i = .ok (e, j) ↔
        (e.index = x.1 ∧ e.reserved = 0) ∧ Stands bytes e.bytes i j :=
      fun _ _ _ _ => readMsr_eq_ok_iff hbytes
    rw [each_eq_ok_iff hmsr, forall₂_zipIdx_iff]
    refine ⟨fun h => ⟨?_, h⟩, And.right⟩
    rw [← h.1.1, length_map]

lemma readState_eq_ok_iff : readState bytes i = .ok (st, j) ↔
      st.Captured ∧ Stands bytes (encodeSection st) i j ∧ j = bytes.length := by
  simp only [readState, bind_eq_ok_iff, readStruct_eq_ok_iff hbytes, readXsave_eq_ok_iff hbytes,
    readMsrs_eq_ok_iff hbytes, position_eq_ok_iff, refuseIf_eq_ok_iff, pure_eq_ok_iff, ne_eq,
    not_not]
  rw [encodeSection]
  simp only [stands_append (l := List.Vector.toList _), stands_append (l := _ ++ _)]
  constructor
  · rintro ⟨regs, k1, h1, sregs, k2, h2, fpu, k3, h3, xsave, k4, ⟨hx, h4⟩, xcrs, k5, h5, ms, k6,
      ⟨hm, h6⟩, events, k7, h7, dbg, k8, h8, stop, _, ⟨rfl, rfl⟩, -, _, ⟨hstop, rfl⟩, rfl, rfl⟩
    exact ⟨⟨hx, hm.1, hm.2⟩, ⟨k1, h1, k2, h2, k3, h3, k4, h4, k5, h5, k6, h6, k7, h7, h8⟩, hstop⟩
  · rintro ⟨hst, ⟨k1, h1, k2, h2, k3, h3, k4, h4, k5, h5, k6, h6, k7, h7, h8⟩, hj⟩
    exact ⟨_, k1, h1, _, k2, h2, _, k3, h3, _, k4, ⟨hst.xsave, h4⟩, _, k5, h5, _, k6,
      ⟨⟨hst.msrs, hst.reserved⟩, h6⟩, _, k7, h7, _, j, h8, j, j, ⟨rfl, rfl⟩, (), j, ⟨hj, rfl⟩, rfl,
      rfl⟩

lemma decodeSection_eq_ok_iff : decodeSection bytes v = .ok st ↔
      v = vcpuSectionVersion ∧ st.Captured ∧ bytes = encodeSection st := by
  simp only [decodeSection, Except.bind_eq_ok, rejectIf_eq_ok_iff, Prod.exists, exists_const,
    readState_eq_ok_iff hbytes, not_not, ne_eq, Except.ok.injEq]
  refine and_congr_right fun _ => ?_
  rw [← stands_zero_length_iff]
  constructor
  · rintro ⟨_, _, ⟨hst, hstands, rfl⟩, rfl⟩
    exact ⟨hst, hstands⟩
  · rintro ⟨hst, hstands⟩
    exact ⟨_, _, ⟨hst, hstands, rfl⟩, rfl⟩

end

/-- At version `v` the decoder inverts the encoder on the states of `Dom` and on
no others, and it accepts no bytes that the encoder does not write. -/
structure Exact {ε σ : Type} (Dom : σ → Prop) (decode : List UInt8 → UInt16 → Exec ε σ)
    (encode : σ → List UInt8) (v : UInt16) : Prop where
  decode_encode : ∀ (b : Slice) (s : σ), encode s = b.val → (decode b v = .ok s ↔ Dom s)
  encode_decode : ∀ (b : Slice) (s : σ), decode b v = .ok s → encode s = b.val
  unique : ∀ (b : Slice) (s t : σ), Dom s → Dom t → encode s = b.val → encode t = b.val → s = t

lemma Exact.of_iff {ε σ : Type} {Dom : σ → Prop} {decode : List UInt8 → UInt16 → Exec ε σ}
    {encode : σ → List UInt8}
    (h : ∀ (b : Slice) (s : σ), decode b v = .ok s ↔ Dom s ∧ b.val = encode s) :
    Exact Dom decode encode v where
  decode_encode b s hb := (h b s).trans (and_iff_left hb.symm)
  encode_decode b s hs := ((h b s).mp hs).2.symm
  unique b s t hs ht hbs hbt :=
    Except.ok.inj (((h b s).mpr ⟨hs, hbs.symm⟩).symm.trans ((h b t).mpr ⟨ht, hbt.symm⟩))

/-- TIME, LAPC and both versions of ENTR carry every state; VCPU carries the
captured ones. -/
theorem section_codecs_exact (z : KvmSizes) :
    Exact (fun _ => True) Dhsnap.TimeSection.decode Dhsnap.TimeSection.encode
      Dhsnap.TimeSection.version ∧
    Exact (fun _ => True) Dhsnap.LapcSection.decode Dhsnap.LapcSection.encode
      Dhsnap.LapcSection.version ∧
    Exact (fun _ => True) Dhsnap.EntrSection.decode Dhsnap.EntrSection.encode
      Dhsnap.EntrSection.version ∧
    Exact (fun _ => True) Dhsnap.EntrSectionV2.decode Dhsnap.EntrSectionV2.encode
      Dhsnap.EntrSectionV2.version ∧
    Exact (VcpuState.Captured (z := z)) decodeSection encodeSection vcpuSectionVersion := by
  refine ⟨.of_iff fun b s => ?_, .of_iff fun b s => ?_, .of_iff fun b s => ?_,
    .of_iff fun b s => ?_, .of_iff fun b st => ?_⟩
  · rw [Dhsnap.TimeSection.decode_eq_ok_iff, and_iff_right rfl, true_and]
  · rw [Dhsnap.LapcSection.decode_eq_ok_iff, and_iff_right rfl, true_and]
  · rw [Dhsnap.EntrSection.decode_eq_ok_iff, and_iff_right rfl, true_and]
  · rw [Dhsnap.EntrSectionV2.decode_eq_ok_iff, and_iff_right rfl, true_and]
  · rw [decodeSection_eq_ok_iff (b.property.trans (by decide)), and_iff_right rfl]

lemma length_encodeSection (st : VcpuState z) : (encodeSection st).length =
      z.regs + (z.sregs + (z.fpu + (4 + st.xsave.length + (z.xcrs +
        (4 + 16 * st.msrs.length + (z.events + z.dbg)))))) := by
  have hmsr : ∀ e : MsrEntry, e.bytes.length = 16 := fun e =>
    (MsrEntry.eq_bytes_iff.mp (rfl : e.bytes = e.bytes)).1
  have hmsrs : (st.msrs.flatMap MsrEntry.bytes).length = 16 * st.msrs.length := by
    simp [length_flatMap, hmsr, Nat.mul_comm]
  simp only [encodeSection, length_append, List.Vector.toList_length, length_toLe, size_uint32,
    hmsrs]

def linuxSizes : KvmSizes := ⟨144, 312, 416, 392, 64, 128⟩

/-- A state without XSAVE area is encoded and does not come back. -/
theorem decodeSection_ne_of_empty_xsave :
    ∃ (st : VcpuState linuxSizes) (b : Slice), encodeSection st = b.val ∧
      decodeSection b vcpuSectionVersion ≠ .ok st := by
  let st : VcpuState linuxSizes := ⟨.replicate _ 0, .replicate _ 0, .replicate _ 0, [],
    .replicate _ 0, [], .replicate _ 0, .replicate _ 0⟩
  have hlen : (encodeSection st).length < 2 ^ 63 := by
    rw [length_encodeSection]
    decide
  refine ⟨st, ⟨_, hlen⟩, rfl, fun h => ?_⟩
  have hcaptured := ((decodeSection_eq_ok_iff (hlen.trans (by decide))).mp h).2.1
  exact absurd hcaptured.xsave (by decide)

end DetHypervisor.VcpuCodec
