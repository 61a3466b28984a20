import DetHypervisor.Lib.Cursor

/-!
# The fixed sections of a snapshot

The sections TIME, LAPC and ENTR have a fixed length. Each decoder accepts
exactly the bytes that the encoder writes.
-/

namespace DetHypervisor.Dhsnap

open Bytes Checked Cursor Except

inductive SectionError where
  | badVersion (found : UInt16)
  | badLength (found : ℕ)
  | nonzeroReserved (offset : ℕ)

def checked {σ : Type} (version : UInt16) (len : ℕ) (bytes : List UInt8) (secVersion : UInt16)
    (body : Exec SectionError σ) : Exec SectionError σ := do
  rejectIf (secVersion ≠ version) (.badVersion secVersion)
  rejectIf (bytes.length ≠ len) (.badLength bytes.length)
  body

lemma checked_eq_ok_iff {σ : Type} {v version : UInt16} {bytes enc : List UInt8} {len : ℕ}
    {body : Exec SectionError σ} {s : σ} (henc : enc.length = len)
    (hbody : bytes.length = len → (body = .ok s ↔ enc <+: bytes.drop 0)) :
    checked version len bytes v body = .ok s ↔ v = version ∧ bytes = enc := by
  simp only [checked, bind_eq_ok, rejectIf_eq_ok_iff, not_not, ne_eq, exists_const]
  rw [eq_iff_isPrefix_drop, henc]
  exact and_congr_right fun _ => and_congr_right hbody

structure TimeSection where
  cumulativeIcount : UInt64
  vns : UInt64
  epochIndex : UInt64
  hashChain : List.Vector UInt8 32

namespace TimeSection

def len : ℕ := 56

def version : UInt16 := 1

def encode (s : TimeSection) : List UInt8 :=
  toLe s.cumulativeIcount ++ (toLe s.vns ++ (toLe s.epochIndex ++ s.hashChain.toList))

def decode (bytes : List UInt8) (secVersion : UInt16) : Exec SectionError TimeSection :=
  checked version len bytes secVersion do
    .ok {
      cumulativeIcount := ← word UInt64 bytes 0 8
      vns := ← word UInt64 bytes 8 16
      epochIndex := ← word UInt64 bytes 16 24
      hashChain := ← array 32 bytes 24 56 }

lemma length_encode (s : TimeSection) : s.encode.length = len := by
  simp [encode, len]

lemma decode_eq_ok_iff {bytes : List UInt8} {v : UInt16} {s : TimeSection} :
    decode bytes v = .ok s ↔ v = version ∧ bytes = s.encode := by
  refine checked_eq_ok_iff (length_encode s) fun hlen => ?_
  have hlen : bytes.length = 56 := hlen
  obtain ⟨icount, vns, epochIndex, hashChain⟩ := s
  simp only [encode, append_isPrefix_drop_iff, bind_eq_ok, word_eq_ok_iff, array_eq_ok_iff,
    Except.ok.injEq, mk.injEq, existsAndEq]
  simp only [isPrefix_drop_iff, length_toLe, size_uint64, List.Vector.toList_length, hlen,
    Nat.reduceAdd, Nat.reduceLeDiff, true_and, and_true]

end TimeSection

structure LapcSection where
  apicBaseMsr : UInt64
  id : UInt8
  tpr : UInt8
  ldr : UInt32
  dfr : UInt32
  svr : UInt32
  isr : List.Vector UInt32 8
  tmr : List.Vector UInt32 8
  irr : List.Vector UInt32 8
  esr : UInt32
  icrLow : UInt32
  icrHigh : UInt32
  lvtTimer : UInt32
  lvtThermal : UInt32
  lvtPerf : UInt32
  lvtLint0 : UInt32
  lvtLint1 : UInt32
  lvtError : UInt32
  timerInitial : UInt32
  timerDivide : UInt32

namespace LapcSection

def len : ℕ := 168

def version : UInt16 := 2

def legacyEmptyVersion : UInt16 := 1

def default : LapcSection where
  apicBaseMsr := (0xfee00000 : UInt64) ||| ((1 : UInt64) <<< 8) ||| ((1 : UInt64) <<< 11)
  id := 0
  tpr := 0
  ldr := 0
  dfr := 0xffffffff
  svr := 0xff
  isr := .replicate 8 0
  tmr := .replicate 8 0
  irr := .replicate 8 0
  esr := 0
  icrLow := 0
  icrHigh := 0
  lvtTimer := (1 : UInt32) <<< 16
  lvtThermal := (1 : UInt32) <<< 16
  lvtPerf := (1 : UInt32) <<< 16
  lvtLint0 := (1 : UInt32) <<< 16
  lvtLint1 := (1 : UInt32) <<< 16
  lvtError := (1 : UInt32) <<< 16
  timerInitial := 0
  timerDivide := 0

def putU32s {n : ℕ} (values : List.Vector UInt32 n) : List UInt8 := values.toList.flatMap toLe

def encode (s : LapcSection) : List UInt8 :=
  toLe s.apicBaseMsr ++ ([s.id] ++ ([s.tpr] ++ (zeros 6 ++ (toLe s.ldr ++ (toLe s.dfr ++
    (toLe s.svr ++ (putU32s s.isr ++ (putU32s s.tmr ++ (putU32s s.irr ++ (toLe s.esr ++
    (toLe s.icrLow ++ (toLe s.icrHigh ++ (toLe s.lvtTimer ++ (toLe s.lvtThermal ++
    (toLe s.lvtPerf ++ (toLe s.lvtLint0 ++ (toLe s.lvtLint1 ++ (toLe s.lvtError ++
    (toLe s.timerInitial ++ toLe s.timerDivide)))))))))))))))))))

variable (bytes : List UInt8)

def takeU64 : Decoder SectionError UInt64 := toWord UInt64 (takeBytes bytes 8)

def takeU32 : Decoder SectionError UInt32 := toWord UInt32 (takeBytes bytes 4)

def takeU32s : (n : ℕ) → Decoder SectionError (List.Vector UInt32 n)
  | 0 => pure .nil
  | n + 1 => do
      let value ← takeU32 bytes
      let values ← takeU32s n
      pure (value ::ᵥ values)

def fields : Decoder SectionError LapcSection := do
  let apicBaseMsr ← takeU64 bytes
  let id ← toByte (takeBytes bytes 1)
  let tpr ← toByte (takeBytes bytes 1)
  let at' ← position
  let reserved ← takeBytes bytes 6
  refuseIf (reserved ≠ zeros 6) (.nonzeroReserved at')
  let ldr ← takeU32 bytes
  let dfr ← takeU32 bytes
  let svr ← takeU32 bytes
  let isr ← takeU32s bytes 8
  let tmr ← takeU32s bytes 8
  let irr ← takeU32s bytes 8
  let esr ← takeU32 bytes
  let icrLow ← takeU32 bytes
  let icrHigh ← takeU32 bytes
  let lvtTimer ← takeU32 bytes
  let lvtThermal ← takeU32 bytes
  let lvtPerf ← takeU32 bytes
  let lvtLint0 ← takeU32 bytes
  let lvtLint1 ← takeU32 bytes
  let lvtError ← takeU32 bytes
  let timerInitial ← takeU32 bytes
  let timerDivide ← takeU32 bytes
  pure ⟨apicBaseMsr, id, tpr, ldr, dfr, svr, isr, tmr, irr, esr, icrLow, icrHigh, lvtTimer,
    lvtThermal, lvtPerf, lvtLint0, lvtLint1, lvtError, timerInitial, timerDivide⟩

def decode (secVersion : UInt16) : Exec SectionError LapcSection :=
  checked version len bytes secVersion do
    let (out, _) ← fields bytes 0
    .ok out

def decodeCompat (secVersion : UInt16) : Exec SectionError LapcSection :=
  if secVersion = legacyEmptyVersion ∧ bytes = [] then .ok default
  else decode bytes secVersion

variable {bytes} {i j : ℕ} {n : ℕ} {s : LapcSection} {v : UInt16}

lemma takeU64_eq_ok_iff {a : UInt64} : takeU64 bytes i = .ok (a, j) ↔ Stands bytes (toLe a) i j :=
  toWord_eq_ok_iff (fetches_takeBytes 8) (by decide)

lemma takeU32_eq_ok_iff {a : UInt32} : takeU32 bytes i = .ok (a, j) ↔ Stands bytes (toLe a) i j :=
  toWord_eq_ok_iff (fetches_takeBytes 4) (by decide)

lemma takeByte_eq_ok_iff {x : UInt8} :
    toByte (takeBytes bytes 1) i = (.ok (x, j) : Exec SectionError _) ↔ Stands bytes [x] i j :=
  toByte_eq_ok_iff (fetches_takeBytes 1)

lemma takeReserved_eq_ok_iff {s : List UInt8} :
    takeBytes bytes 6 i = (.ok (s, j) : Exec SectionError _) ↔ s.length = 6 ∧ Stands bytes s i j :=
  fetches_takeBytes 6 i s j (.inl (by decide))

lemma takeU32s_eq_ok_iff {v : List.Vector UInt32 n} :
    takeU32s bytes n i = .ok (v, j) ↔ Stands bytes (putU32s v) i j := by
  induction n generalizing i j with
  | zero =>
    rw [takeU32s, pure_eq_ok_iff, List.Vector.eq_nil v]
    exact (and_iff_right rfl).trans stands_nil.symm
  | succ n ih =>
    obtain ⟨a, v, rfl⟩ := v.exists_eq_cons
    simp only [takeU32s, bind_eq_ok_iff, pure_eq_ok_iff, takeU32_eq_ok_iff, ih,
      List.Vector.eq_cons_iff, List.Vector.head_cons, List.Vector.tail_cons, existsAndEq, and_true]
    have hcons : putU32s (a ::ᵥ v) = toLe a ++ putU32s v := by simp [putU32s]
    rw [hcons, stands_append]

lemma fields_eq_ok_iff : fields bytes i = .ok (s, j) ↔ Stands bytes s.encode i j := by
  obtain ⟨apicBaseMsr, id, tpr, ldr, dfr, svr, isr, tmr, irr, esr, icrLow, icrHigh, lvtTimer,
    lvtThermal, lvtPerf, lvtLint0, lvtLint1, lvtError, timerInitial, timerDivide⟩ := s
  simp only [fields, bind_eq_ok_iff, pure_eq_ok_iff, takeU64_eq_ok_iff, takeU32_eq_ok_iff,
    takeByte_eq_ok_iff, takeReserved_eq_ok_iff, takeU32s_eq_ok_iff, position_eq_ok_iff,
    refuseIf_eq_ok_iff, encode, stands_append, mk.injEq, existsAndEq, not_not, ne_eq,
    exists_const, exists_and_left, List.length_replicate, true_and, and_true]

lemma length_putU32s (v : List.Vector UInt32 n) : (putU32s v).length = 4 * n := by
  rw [putU32s, List.length_flatMap]
  simp [Nat.mul_comm]

lemma length_encode (s : LapcSection) : s.encode.length = len := by
  simp [encode, length_putU32s, len]

lemma decode_eq_ok_iff : decode bytes v = .ok s ↔ v = version ∧ bytes = s.encode := by
  refine checked_eq_ok_iff (length_encode s) fun hlen => ?_
  rw [bind_eq_ok, Prod.exists]
  constructor
  · rintro ⟨out, j, hfields, hs⟩
    cases hs
    exact (fields_eq_ok_iff.mp hfields).1
  · intro h
    exact ⟨s, _, fields_eq_ok_iff.mpr ⟨h, rfl⟩, rfl⟩

end LapcSection

structure EntrSection where
  seed : List.Vector UInt8 32
  stream : UInt64
  wordPos : BitVec 128

namespace EntrSection

def len : ℕ := 56

def version : UInt16 := 1

def encode (s : EntrSection) : List UInt8 := s.seed.toList ++ (toLe s.stream ++ toLe s.wordPos)

def decode (bytes : List UInt8) (secVersion : UInt16) : Exec SectionError EntrSection :=
  checked version len bytes secVersion do
    .ok {
      seed := ← array 32 bytes 0 32
      stream := ← word UInt64 bytes 32 40
      wordPos := ← word (BitVec 128) bytes 40 56 }

lemma length_encode (s : EntrSection) : s.encode.length = len := by
  simp [encode, len]

lemma decode_eq_ok_iff {bytes : List UInt8} {v : UInt16} {s : EntrSection} :
    decode bytes v = .ok s ↔ v = version ∧ bytes = s.encode := by
  refine checked_eq_ok_iff (length_encode s) fun hlen => ?_
  have hlen : bytes.length = 56 := hlen
  obtain ⟨seed, stream, wordPos⟩ := s
  simp only [encode, append_isPrefix_drop_iff, bind_eq_ok, word_eq_ok_iff, array_eq_ok_iff,
    Except.ok.injEq, mk.injEq, existsAndEq]
  simp only [isPrefix_drop_iff, length_toLe, size_uint64, size_bitVec128,
    List.Vector.toList_length, hlen, Nat.reduceAdd, Nat.reduceLeDiff, true_and, and_true]

end EntrSection

structure EntrSectionV2 where
  seed : List.Vector UInt8 32
  stream : UInt64
  wordPos : BitVec 128
  bufGpa : UInt64
  len : UInt32
  status : UInt32

namespace EntrSectionV2

def totalLen : ℕ := 72

def version : UInt16 := 2

def prng (s : EntrSectionV2) : EntrSection := ⟨s.seed, s.stream, s.wordPos⟩

def fromParts (prng : EntrSection) (deviceRegs : List UInt8) : Exec SectionError EntrSectionV2 := do
  rejectIf (deviceRegs.length ≠ 16) (.badLength deviceRegs.length)
  .ok {
    seed := prng.seed
    stream := prng.stream
    wordPos := prng.wordPos
    bufGpa := ← word UInt64 deviceRegs 0 8
    len := ← word UInt32 deviceRegs 8 12
    status := ← word UInt32 deviceRegs 12 16 }

def deviceRegs (s : EntrSectionV2) : List UInt8 := toLe s.bufGpa ++ (toLe s.len ++ toLe s.status)

def encode (s : EntrSectionV2) : List UInt8 :=
  s.seed.toList ++ (toLe s.stream ++ (toLe s.wordPos ++ s.deviceRegs))

def decode (bytes : List UInt8) (secVersion : UInt16) : Exec SectionError EntrSectionV2 :=
  checked version totalLen bytes secVersion do
    .ok {
      seed := ← array 32 bytes 0 32
      stream := ← word UInt64 bytes 32 40
      wordPos := ← word (BitVec 128) bytes 40 56
      bufGpa := ← word UInt64 bytes 56 64
      len := ← word UInt32 bytes 64 68
      status := ← word UInt32 bytes 68 72 }

lemma length_encode (s : EntrSectionV2) : s.encode.length = totalLen := by
  simp [encode, deviceRegs, totalLen]

lemma decode_eq_ok_iff {bytes : List UInt8} {v : UInt16} {s : EntrSectionV2} :
    decode bytes v = .ok s ↔ v = version ∧ bytes = s.encode := by
  refine checked_eq_ok_iff (length_encode s) fun hlen => ?_
  have hlen : bytes.length = 72 := hlen
  obtain ⟨seed, stream, wordPos, bufGpa, len, status⟩ := s
  simp only [encode, deviceRegs, append_isPrefix_drop_iff, bind_eq_ok, word_eq_ok_iff,
    array_eq_ok_iff, Except.ok.injEq, mk.injEq, existsAndEq]
  simp only [isPrefix_drop_iff, length_toLe, size_uint64, size_uint32, size_bitVec128,
    List.Vector.toList_length, hlen, Nat.reduceAdd, Nat.reduceLeDiff, true_and, and_true]

lemma fromParts_prng_deviceRegs (s : EntrSectionV2) : fromParts s.prng s.deviceRegs = .ok s := by
  simp [fromParts, deviceRegs, prng, rejectIf, word_append, word_toLe_append, word_toLe]

end EntrSectionV2

end DetHypervisor.Dhsnap
