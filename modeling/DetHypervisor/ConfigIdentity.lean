import DetHypervisor.ConfigCodec

/-!
# Configuration identity

The decoder accepts exactly the encodings of valid configurations, and returns
the configuration with the landing knobs at their defaults.
-/

namespace DetHypervisor.ConfigCodec

open Bytes Checked Cursor List

section Reader

variable {bytes : List UInt8} {i j : ℕ} (hbytes : bytes.length < 2 ^ 64)

include hbytes

lemma readU8_eq_ok_iff {a : UInt8} : readU8 bytes i = .ok (a, j) ↔ Stands bytes [a] i j :=
  toByte_eq_ok_iff (fetches_readExact hbytes _ _)

lemma readU16_eq_ok_iff {a : UInt16} : readU16 bytes i = .ok (a, j) ↔ Stands bytes (toLe a) i j :=
  toWord_eq_ok_iff (fetches_readExact hbytes _ _) (by decide)

lemma readU32_eq_ok_iff {a : UInt32} : readU32 bytes i = .ok (a, j) ↔ Stands bytes (toLe a) i j :=
  toWord_eq_ok_iff (fetches_readExact hbytes _ _) (by decide)

lemma readU64_eq_ok_iff {a : UInt64} : readU64 bytes i = .ok (a, j) ↔ Stands bytes (toLe a) i j :=
  toWord_eq_ok_iff (fetches_readExact hbytes _ _) (by decide)

lemma readHash_eq_ok_iff {a : Hash} : readHash bytes i = .ok (a, j) ↔ Stands bytes a.toList i j :=
  toArray_eq_ok_iff (fetches_readExact hbytes _ _) (by decide)

lemma readVecU32_eq_ok_iff {field : String} {max : ℕ} (hmax : max < 2 ^ 32) {v : List UInt8} :
    readVecU32 bytes field max i = .ok (v, j) ↔ v.length ≤ max ∧ Stands bytes (vecBytes v) i j := by
  rw [readVecU32, counted_eq_ok_iff (P := (· ≤ max)) (Q := fun _ => True) (f := fun v => v)
    (fun _ _ _ => readU32_eq_ok_iff hbytes)]
  · exact and_congr_left fun _ => ⟨fun h => h.2.1, fun h => ⟨h.trans_lt hmax, h, trivial⟩⟩
  · exact fun n i u j => refuseIf_eq_ok_iff.trans (by rw [not_lt])
  · exact fun n i v j _ hi =>
      (fetches_readExact hbytes _ n i v j (.inr hi)).trans (by rw [true_and])

lemma readClock_eq_ok_iff {c : ClockTerms} :
    readClock bytes i = .ok (c, j) ↔ Stands bytes (toLe c.num ++ toLe c.den) i j := by
  simp only [readClock, bind_eq_ok_iff, readU32_eq_ok_iff hbytes, still_eq_ok_iff, stands_append]
  constructor
  · rintro ⟨num, k, hk, den, _, hj, hc, rfl⟩
    by_cases hne : num ≠ 0 ∧ den ≠ 0
    · rw [dif_pos hne] at hc
      cases hc
      exact ⟨k, hk, hj⟩
    · rw [dif_neg hne] at hc
      cases hc
  · rintro ⟨k, hk, hj⟩
    exact ⟨_, k, hk, _, j, hj, dif_pos ⟨c.num_ne, c.den_ne⟩, rfl⟩

lemma readBoot_eq_ok_iff {b : BootSpec} :
    readBoot bytes i = .ok (b, j) ↔ b.cmdline.length ≤ maxCmdline ∧ Stands bytes b.bytes i j := by
  have hmax : maxCmdline < 2 ^ 32 := by decide
  simp only [readBoot, bind_eq_ok_iff, readU8_eq_ok_iff hbytes]
  constructor
  · rintro ⟨tag, k, hk, hb⟩
    by_cases h1 : tag = 1
    · simp only [if_pos h1, bind_eq_ok_iff, readHash_eq_ok_iff hbytes,
        readVecU32_eq_ok_iff hbytes hmax, pure_eq_ok_iff] at hb
      obtain ⟨kernelHash, l, hl, cmdline, _, ⟨hlen, hj⟩, rfl, rfl⟩ := hb
      rw [BootSpec.bytes, stands_append, ← h1]
      exact ⟨hlen, k, hk, stands_append.mpr ⟨l, hl, hj⟩⟩
    by_cases h2 : tag = 2
    · simp only [if_neg h1, if_pos h2, bind_eq_ok_iff, readHash_eq_ok_iff hbytes,
        readVecU32_eq_ok_iff hbytes hmax, pure_eq_ok_iff] at hb
      obtain ⟨kernelHash, l, hl, initramfsHash, m, hm, cmdline, _, ⟨hlen, hj⟩, rfl, rfl⟩ := hb
      rw [BootSpec.bytes, stands_append, ← h2]
      exact ⟨hlen, k, hk, stands_append.mpr ⟨l, hl, stands_append.mpr ⟨m, hm, hj⟩⟩⟩
    · rw [if_neg h1, if_neg h2, still_eq_ok_iff] at hb
      exact absurd hb.1 (reject_ne_ok _ _)
  · rintro ⟨hlen, hb⟩
    cases b with
    | elf kernelHash cmdline =>
      simp only [BootSpec.bytes, stands_append (l := [_]),
        stands_append (l := List.Vector.toList _)] at hb
      obtain ⟨k, hk, l, hl, hj⟩ := hb
      refine ⟨1, k, hk, ?_⟩
      simp only [if_true, bind_eq_ok_iff, readHash_eq_ok_iff hbytes,
        readVecU32_eq_ok_iff hbytes hmax, pure_eq_ok_iff]
      exact ⟨_, l, hl, _, j, ⟨hlen, hj⟩, rfl, rfl⟩
    | bzImage kernelHash initramfsHash cmdline =>
      simp only [BootSpec.bytes, stands_append (l := [_]),
        stands_append (l := List.Vector.toList _)] at hb
      obtain ⟨k, hk, l, hl, m, hm, hj⟩ := hb
      have h21 : ¬(2 : UInt8) = 1 := by decide
      refine ⟨2, k, hk, ?_⟩
      simp only [if_neg h21, if_true, bind_eq_ok_iff, readHash_eq_ok_iff hbytes,
        readVecU32_eq_ok_iff hbytes hmax, pure_eq_ok_iff]
      exact ⟨_, l, hl, _, m, hm, _, j, ⟨hlen, hj⟩, rfl, rfl⟩

lemma readHashEpochs_eq_ok_iff {h : HashEpochs} :
    readHashEpochs bytes i = .ok (h, j) ↔ Stands bytes [hashEpochsTag h] i j := by
  simp only [readHashEpochs, bind_eq_ok_iff, readU8_eq_ok_iff hbytes, still_eq_ok_iff]
  constructor
  · rintro ⟨tag, _, hj, htag, rfl⟩
    split_ifs at htag with h1 h2
    · cases htag
      rwa [h1] at hj
    · cases htag
      rwa [h2] at hj
    · exact absurd htag (reject_ne_ok _ _)
  · intro hj
    refine ⟨_, j, hj, ?_, rfl⟩
    cases h <;> rfl

lemma readLeaf_eq_ok_iff {l : CpuidLeaf} :
    readLeaf bytes i = .ok (l, j) ↔ Stands bytes l.bytes i j := by
  obtain ⟨function, index, flags, eax, ebx, ecx, edx⟩ := l
  simp only [readLeaf, bind_eq_ok_iff, readU32_eq_ok_iff hbytes, pure_eq_ok_iff, CpuidLeaf.bytes,
    stands_append, CpuidLeaf.mk.injEq, existsAndEq, exists_and_left, and_true]

lemma table_eq_ok_iff {α : Type} {d : Decoder ConfigDecodeError α} {f : α → List UInt8}
    {max : ℕ} {e : ConfigDecodeError} (hmax : max < 2 ^ 32)
    (hd : ∀ i a j, d i = .ok (a, j) ↔ Stands bytes (f a) i j) {as : List α} :
    counted (readU32 bytes) (fun count => refuseIf (max < count) e)
        (fun count => each (fun _ => d) (List.range count)) i = .ok (as, j) ↔
      as.length ≤ max ∧ Stands bytes (toLe (UInt32.ofNat as.length) ++ as.flatMap f) i j := by
  rw [counted_eq_ok_iff (P := (· ≤ max)) (Q := fun _ => True) (f := fun as => as.flatMap f)
    (fun _ _ _ => readU32_eq_ok_iff hbytes)]
  · exact and_congr_left fun _ => ⟨fun h => h.2.1, fun h => ⟨h.trans_lt hmax, h, trivial⟩⟩
  · exact fun n i u j => refuseIf_eq_ok_iff.trans (by rw [not_lt])
  · intro n i as j _ _
    have hitem : ∀ (x i : ℕ) (a : α) (j : ℕ), d i = .ok (a, j) ↔ True ∧ Stands bytes (f a) i j :=
      fun _ i a j => (hd i a j).trans (by rw [true_and])
    rw [each_eq_ok_iff hitem, forall₂_const_left_iff, length_range]
    simp

lemma readCpuidTable_eq_ok_iff {ls : List CpuidLeaf} :
    readCpuidTable bytes i = .ok (ls, j) ↔ ls.length ≤ maxCpuidLeaves ∧
      Stands bytes (toLe (UInt32.ofNat ls.length) ++ ls.flatMap CpuidLeaf.bytes) i j :=
  table_eq_ok_iff hbytes (by decide) fun _ _ _ => readLeaf_eq_ok_iff hbytes

lemma readDeviceSet_eq_ok_iff {ids : List UInt16} :
    readDeviceSet bytes i = .ok (ids, j) ↔ ids.length ≤ maxDevices ∧
      Stands bytes (toLe (UInt32.ofNat ids.length) ++ ids.flatMap toLe) i j :=
  table_eq_ok_iff hbytes (by decide) fun _ _ _ => readU16_eq_ok_iff hbytes

lemma readConfig_eq_ok_iff {c : MachineConfig} : readConfig bytes i = .ok (c, j) ↔
      (c.boot.cmdline.length ≤ maxCmdline ∧ c.cpuidTable.length ≤ maxCpuidLeaves ∧
        c.deviceSet.length ≤ maxDevices ∧ c.skidMargin = defaultSkidMargin ∧
        c.resyncSlack = defaultResyncSlack) ∧ Stands bytes c.bytes i j ∧ j = bytes.length := by
  simp only [readConfig, bind_eq_ok_iff, fetches_readExact hbytes _ 8 _ _ _ (.inl (by decide)),
    refuseIf_eq_ok_iff, readU32_eq_ok_iff hbytes, readU64_eq_ok_iff hbytes,
    readClock_eq_ok_iff hbytes, readHash_eq_ok_iff hbytes, readBoot_eq_ok_iff hbytes,
    readHashEpochs_eq_ok_iff hbytes, readCpuidTable_eq_ok_iff hbytes,
    readDeviceSet_eq_ok_iff hbytes, position_eq_ok_iff, pure_eq_ok_iff, ne_eq, not_not,
    MachineConfig.bytes, stands_append]
  constructor
  · rintro ⟨found, k1, ⟨-, h₁⟩, -, _, ⟨rfl, rfl⟩, version, k2, h₂, memBytes, k3, h3, vcpus, k4, h4,
      clock, k6, ⟨k5, h5, h6⟩, baseImageHash, k7, h7, boot, k8, ⟨hboot, h8⟩, epochLen, k9, h9,
      hashEpochs, k10, h10, cpuidTable, k12, ⟨hcpuid, k11, h11, h12⟩, deviceSet, _,
      ⟨hdevices, k13, h13, h14⟩, _, _, ⟨rfl, rfl⟩, -, _, ⟨hend, rfl⟩, rfl, rfl⟩
    exact ⟨⟨hboot, hcpuid, hdevices, rfl, rfl⟩, ⟨_, h₁, k2, h₂, k3, h3, k4, h4, k5, h5, k6, h6, k7,
      h7, k8, h8, k9, h9, k10, h10, k12, ⟨k11, h11, h12⟩, k13, h13, h14⟩, hend⟩
  · obtain ⟨version, memBytes, vcpus, clock, baseImageHash, boot, epochLen, hashEpochs, skidMargin,
      resyncSlack, cpuidTable, deviceSet⟩ := c
    rintro ⟨⟨hboot, hcpuid, hdevices, rfl, rfl⟩, ⟨k1, h₁, k2, h₂, k3, h3, k4, h4, k5, h5, k6, h6,
      k7, h7, k8, h8, k9, h9, k10, h10, k12, ⟨k11, h11, h12⟩, k13, h13, h14⟩, hend⟩
    exact ⟨magic, k1, ⟨rfl, h₁⟩, (), k1, ⟨rfl, rfl⟩, _, k2, h₂, _, k3, h3, _, k4, h4, _, k6,
      ⟨k5, h5, h6⟩, _, k7, h7, _, k8, ⟨hboot, h8⟩, _, k9, h9, _, k10, h10, _, k12,
      ⟨hcpuid, k11, h11, h12⟩, _, j, ⟨hdevices, k13, h13, h14⟩, j, j, ⟨rfl, rfl⟩, (), j,
      ⟨hend, rfl⟩, rfl, rfl⟩

end Reader

namespace MachineConfig

variable {c d : MachineConfig}

def resetKnobs (c : MachineConfig) : MachineConfig :=
  { c with skidMargin := defaultSkidMargin, resyncSlack := defaultResyncSlack }

lemma bytes_resetKnobs (c : MachineConfig) : c.resetKnobs.bytes = c.bytes := rfl

lemma canonicalEncode_eq_ok_iff {b : List UInt8} :
    c.canonicalEncode = .ok b ↔ c.validate = .ok () ∧ c.bytes = b := by
  simp only [canonicalEncode, Except.bind_eq_ok, Except.ok.injEq]
  exact ⟨fun ⟨_, h⟩ => h, fun h => ⟨(), h⟩⟩

lemma bounds_of_validate (h : c.validate = .ok ()) :
    c.boot.cmdline.length ≤ maxCmdline ∧ c.cpuidTable.length ≤ maxCpuidLeaves ∧
      c.deviceSet.length ≤ maxDevices := by
  simp only [validate, Except.bind_eq_ok, refuse_eq_ok_iff, not_lt] at h
  obtain ⟨-, -, -, -, -, -, -, -, -, hcmdline, -, -, -, hcpuid, -, hdevices, -⟩ := h
  exact ⟨hcmdline, hcpuid, hdevices⟩

lemma length_bytes_lt (h : c.validate = .ok ()) : c.bytes.length < 2 ^ 63 := by
  obtain ⟨hcmdline, hcpuid, hdevices⟩ := bounds_of_validate h
  have hboot : c.boot.bytes.length ≤ 69 + c.boot.cmdline.length := by
    cases c.boot <;> simp [BootSpec.bytes, BootSpec.cmdline, vecBytes] <;> omega
  have hleaves : (c.cpuidTable.flatMap CpuidLeaf.bytes).length = c.cpuidTable.length * 28 := by
    simp [length_flatMap, CpuidLeaf.bytes]
  have hids : (c.deviceSet.flatMap toLe).length = c.deviceSet.length * 2 := by
    simp [length_flatMap]
  simp only [maxCmdline, maxCpuidLeaves, maxDevices] at hcmdline hcpuid hdevices
  simp only [bytes, magic, length_append, length_ascii, length_toLe, length_replicate,
    List.Vector.toList_length, length_cons, length_nil, size_uint32, size_uint64, hleaves,
    hids]
  omega

lemma validated_eq_ok_iff : c.validated = .ok d ↔ d.validate = .ok () ∧ c = d := by
  rw [validated]
  cases hvalidate : c.validate with
  | ok u =>
    rw [Except.ok.injEq]
    exact ⟨fun h => ⟨h ▸ hvalidate, h⟩, And.right⟩
  | error e =>
    refine ⟨fun h => absurd h (reject_ne_ok _ _), ?_⟩
    rintro ⟨hok, rfl⟩
    rw [hvalidate] at hok
    cases hok

lemma canonicalDecode_eq_ok_iff {bytes : List UInt8} (hbytes : bytes.length < 2 ^ 64) :
    canonicalDecode bytes = .ok c ↔ c.validate = .ok () ∧ c.resetKnobs = c ∧ c.bytes = bytes := by
  simp only [canonicalDecode, Except.bind_eq_ok, Prod.exists, readConfig_eq_ok_iff hbytes,
    validated_eq_ok_iff]
  rw [eq_comm (a := c.bytes), ← stands_zero_length_iff]
  constructor
  · rintro ⟨_, _, ⟨⟨-, -, -, hskid, hslack⟩, hstands, rfl⟩, hvalidate, rfl⟩
    refine ⟨hvalidate, ?_, hstands⟩
    rw [resetKnobs, ← hskid, ← hslack]
  · rintro ⟨hvalidate, hknobs, hstands⟩
    obtain ⟨hcmdline, hcpuid, hdevices⟩ := bounds_of_validate hvalidate
    have hskid : c.skidMargin = defaultSkidMargin := by rw [← hknobs]; rfl
    have hslack : c.resyncSlack = defaultResyncSlack := by rw [← hknobs]; rfl
    exact ⟨c, _, ⟨⟨hcmdline, hcpuid, hdevices, hskid, hslack⟩, hstands, rfl⟩, hvalidate, rfl⟩

lemma canonicalDecode_bytes (h : c.validate = .ok ()) :
    canonicalDecode c.bytes = .ok c.resetKnobs :=
  (canonicalDecode_eq_ok_iff ((length_bytes_lt h).trans (by decide))).mpr
    ⟨h, rfl, c.bytes_resetKnobs⟩

lemma canonicalEncode_eq_iff (hc : c.validate = .ok ()) (hd : d.validate = .ok ()) :
    c.canonicalEncode = d.canonicalEncode ↔ c.resetKnobs = d.resetKnobs := by
  rw [canonicalEncode_eq_ok_iff.mpr ⟨hc, rfl⟩, canonicalEncode_eq_ok_iff.mpr ⟨hd, rfl⟩,
    Except.ok.injEq]
  constructor
  · intro h
    have hdecode := canonicalDecode_bytes hc
    rw [h, canonicalDecode_bytes hd] at hdecode
    exact (Except.ok.inj hdecode).symm
  · intro h
    rw [← c.bytes_resetKnobs, h, d.bytes_resetKnobs]

/-- Decoding inverts encoding up to the landing knobs, every accepted string is
the encoding of its configuration, and encodings tell configurations apart up
to the knobs. -/
theorem canonical_identity :
    (∀ c : MachineConfig, c.validate = .ok () → ∃ b, c.canonicalEncode = .ok b ∧
      canonicalDecode b = .ok c.resetKnobs) ∧
    (∀ (b : Slice) (c : MachineConfig), canonicalDecode b = .ok c → c.canonicalEncode = .ok b.val) ∧
    ∀ c d : MachineConfig, c.validate = .ok () → d.validate = .ok () →
      (c.canonicalEncode = d.canonicalEncode ↔ c.resetKnobs = d.resetKnobs) := by
  refine ⟨fun c hc => ⟨_, canonicalEncode_eq_ok_iff.mpr ⟨hc, rfl⟩, canonicalDecode_bytes hc⟩,
    fun b c hdecode => ?_, fun c d => canonicalEncode_eq_iff⟩
  obtain ⟨hc, -, hb⟩ := (canonicalDecode_eq_ok_iff (b.property.trans (by decide))).mp hdecode
  exact canonicalEncode_eq_ok_iff.mpr ⟨hc, hb⟩

def quietBoot : MachineConfig where
  version := 1
  memBytes := 0x4000000
  vcpus := 1
  clock := ⟨1, 1, by decide, by decide⟩
  baseImageHash := .replicate 32 0x11
  boot := .bzImage (.replicate 32 0x22) (.replicate 32 0x33)
    (bzimageForcedCmdline ++ ascii " quiet loglevel=3".toList)
  epochLen := 50000000
  hashEpochs := .epochsOn
  skidMargin := 64
  resyncSlack := 32
  cpuidTable := [⟨0, 0, 0, 0xD, 0, 0, 0⟩, ⟨1, 0, 0, 0, 0, 0, 0⟩]
  deviceSet := [1, 3]

theorem canonical_identity_quietBoot :
    quietBoot.validate = .ok () ∧ ∃ b, quietBoot.canonicalEncode = .ok b ∧
      canonicalDecode b = .ok { quietBoot with skidMargin := 8192, resyncSlack := 1024 } := by
  have hvalid : quietBoot.validate = .ok () := by decide +kernel
  exact ⟨hvalid, canonical_identity.1 quietBoot hvalid⟩

end MachineConfig

end DetHypervisor.ConfigCodec
