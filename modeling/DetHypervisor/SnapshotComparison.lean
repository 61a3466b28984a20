import DetHypervisor.Dhsnap
import DetHypervisor.LocalApic
import DetHypervisor.VcpuSection

/-!
# Snapshot comparison

`compare_snapshots` decodes the virtual CPU and the local APIC of two snapshots,
lists the registers that differ, and merges the two page maps for the first
indices at which they differ.
-/

namespace DetHypervisor.SnapshotCompare

open Bytes Checked Dhsnap VcpuCodec Lapic List

variable {P R : Type} [DecidableEq P]

inductive SnapshotSide where
  | expected
  | actual
  deriving DecidableEq

inductive SnapshotComparisonError where
  | store (side : SnapshotSide) (op reason : String)
  | manifest (side : SnapshotSide) (reason : String)
  | unsupportedDeviceBlob (side : SnapshotSide) (format : UInt32) (zstd : Bool)
  | dhsnap (side : SnapshotSide) (reason : Trap ReadError)
  | missingSection (side : SnapshotSide) (tag : Tag)
  | vcpu (side : SnapshotSide) (reason : Trap KvmError)
  | lapc (side : SnapshotSide) (reason : Trap SectionError ⊕ Trap LapicError)
  | regDiffEncode (reason : String)

structure DeviceBlob where
  format : UInt32
  zstd : Bool
  bytes : List UInt8

structure Store (R P : Type) where
  getSnapshotContainer : R → Except String (List UInt8)
  resolvePageHashes : R → Except String (List (ℕ × P))
  decodeManifest : List UInt8 → Except String DeviceBlob

structure RegDiff where
  name : String
  expected : List UInt8
  actual : List UInt8
  deriving DecidableEq

structure SnapshotComparison where
  ripExpected : UInt64
  ripActual : UInt64
  regDiffs : List RegDiff
  regDiff : List UInt8
  diffPageIdx : List ℕ

structure MachineSnapshot where
  vcpu : VcpuState linuxSizes
  lapic : LocalApic

def deviceBlobFormatDhsnap : UInt32 := 0x4448534E

def diffPageLimit : ℕ := 64

/-- The general registers, in the order of `kvm_regs`. -/
def gprNames : List String :=
  ["rax", "rbx", "rcx", "rdx", "rsi", "rdi", "rsp", "rbp", "r8", "r9", "r10", "r11", "r12", "r13",
    "r14", "r15", "rip", "rflags"]

def gpr (st : VcpuState linuxSizes) (k : ℕ) : List UInt8 :=
  slice st.regs.toList (8 * k) (8 * (k + 1))

def rip (st : VcpuState linuxSizes) : UInt64 := ofLe UInt64 (gpr st 16)

def pushDiff {α : Type} [DecidableEq α] (name : String) (bytes : α → List UInt8) (e a : α) :
    List RegDiff := if e = a then [] else [⟨name, bytes e, bytes a⟩]

deriving instance DecidableEq for VcpuState

def compareVcpu (e a : VcpuState linuxSizes) : List RegDiff :=
  (gprNames.zipIdx.flatMap fun (name, k) => pushDiff name id (gpr e k) (gpr a k)) ++
    if e = { a with regs := e.regs } then []
    else [⟨"vcpu_non_gpr", encodeSection e, encodeSection a⟩]

/-- The merge of `first_diff_page_indices`, with room for `room` more indices. -/
def mergeDiffs : ℕ → List (ℕ × P) → List (ℕ × P) → List ℕ
  | 0, _, _ => []
  | _, [], [] => []
  | room + 1, (i, _) :: e, [] => i :: mergeDiffs room e []
  | room + 1, [], (j, _) :: a => j :: mergeDiffs room [] a
  | room + 1, (i, h) :: e, (j, k) :: a =>
    if i = j then
      if h = k then mergeDiffs (room + 1) e a else i :: mergeDiffs room e a
    else if i < j then i :: mergeDiffs room e ((j, k) :: a)
    else j :: mergeDiffs room ((i, h) :: e) a
termination_by _ e a => e.length + a.length

def firstDiffPageIndices (expected actual : List (ℕ × P)) : List ℕ :=
  let byIndex := fun x y : ℕ × P => decide (x.1 ≤ y.1)
  mergeDiffs diffPageLimit (expected.mergeSort byIndex) (actual.mergeSort byIndex)

def decodeMachineSnapshot (S : Store R P) (side : SnapshotSide) (container : List UInt8) :
    Except SnapshotComparisonError MachineSnapshot := do
  let blob ← (S.decodeManifest container).mapError (.manifest side)
  if blob.format ≠ deviceBlobFormatDhsnap ∨ blob.zstd then
    .error (.unsupportedDeviceBlob side blob.format blob.zstd)
  else do
    let dhsnap ← (Container.parse blob.bytes).mapError (.dhsnap side)
    let section_ (tag : Tag) : Except SnapshotComparisonError Section :=
      match dhsnap.sections.find? (·.tag = tag) with
      | some s => .ok s
      | none => .error (.missingSection side tag)
    let vcpu ← section_ .vcpu
    let vcpu ← (decodeSection vcpu.contents vcpu.secVersion).mapError (.vcpu side)
    let lapc ← section_ .lapc
    let lapc ← (LapcSection.decodeCompat lapc.contents lapc.secVersion).mapError
      (.lapc side ∘ .inl)
    let lapic ← (LocalApic.fromLapcSection lapc).mapError (.lapc side ∘ .inr)
    .ok ⟨vcpu, lapic⟩

def compareSnapshots (S : Store R P) (encode : List RegDiff → Except String (List UInt8))
    (expectedRef actualRef : R) : Except SnapshotComparisonError SnapshotComparison := do
  let expected ← (S.getSnapshotContainer expectedRef).mapError (.store .expected "get_snapshot")
  let actual ← (S.getSnapshotContainer actualRef).mapError (.store .actual "get_snapshot")
  let expected ← decodeMachineSnapshot S .expected expected
  let actual ← decodeMachineSnapshot S .actual actual
  let regDiffs := compareVcpu expected.vcpu actual.vcpu ++
    pushDiff "lapic" (fun s => s.toLapcSection.encode) expected.lapic actual.lapic
  let regDiff ← (encode regDiffs).mapError .regDiffEncode
  let expectedPages ← (S.resolvePageHashes expectedRef).mapError
    (.store .expected "resolve_pages(hashes_only=true)")
  let actualPages ← (S.resolvePageHashes actualRef).mapError
    (.store .actual "resolve_pages(hashes_only=true)")
  .ok ⟨rip expected.vcpu, rip actual.vcpu, regDiffs, regDiff,
    firstDiffPageIndices expectedPages actualPages⟩

/-- The maps differ at `i`; a page that only one of them has is a difference. -/
def DiffersAt (e a : List (ℕ × P)) (i : ℕ) : Prop := ¬∀ h, (i, h) ∈ e ↔ (i, h) ∈ a

abbrev Ascending (e : List (ℕ × P)) : Prop := e.Pairwise fun x y => x.1 < y.1

/-- All indices at which the maps differ, in order. -/
structure Diffs (e a : List (ℕ × P)) (all : List ℕ) : Prop where
  ascending : all.Pairwise (· < ·)
  mem_iff : ∀ i, i ∈ all ↔ DiffersAt e a i

variable {e a : List (ℕ × P)} {i j : ℕ} {h k : P} {all : List ℕ}

omit [DecidableEq P] in
lemma not_mem_of_ascending (he : Ascending ((i, h) :: e)) (hij : j ≤ i) (k : P) : (j, k) ∉ e :=
  fun hmem => absurd ((pairwise_cons.mp he).1 _ hmem) (Nat.not_lt.mpr hij)

omit [DecidableEq P] in
lemma Diffs.bound (hall : Diffs e a all) (he : ∀ x ∈ e, i < x.1) (ha : ∀ x ∈ a, i < x.1) :
    ∀ j ∈ all, i < j := by
  intro j hj
  obtain ⟨h, hdiff⟩ := not_forall.mp ((hall.mem_iff j).mp hj)
  by_cases hmem : (j, h) ∈ e
  · exact he _ hmem
  · exact ha (j, h) (by tauto)

omit [DecidableEq P] in
lemma Diffs.cons {e' a' : List (ℕ × P)} (hall : Diffs e' a' all) (hi : DiffersAt e a i)
    (he : ∀ x ∈ e', i < x.1) (ha : ∀ x ∈ a', i < x.1)
    (hrest : ∀ j, j ≠ i → (DiffersAt e a j ↔ DiffersAt e' a' j)) : Diffs e a (i :: all) := by
  refine ⟨pairwise_cons.mpr ⟨hall.bound he ha, hall.ascending⟩, fun j => ?_⟩
  by_cases hj : j = i
  · subst hj
    simpa using hi
  · rw [hrest j hj, mem_cons, or_iff_right hj, hall.mem_iff]

omit [DecidableEq P] in
lemma differsAt_cons_left (hj : j ≠ i) : DiffersAt ((i, h) :: e) a j ↔ DiffersAt e a j := by
  simp [DiffersAt, hj]

omit [DecidableEq P] in
lemma differsAt_cons_right (hj : j ≠ i) : DiffersAt e ((i, h) :: a) j ↔ DiffersAt e a j := by
  simp [DiffersAt, hj]

lemma exists_diffs (he : Ascending e) (ha : Ascending a) :
    ∃ all, Diffs e a all ∧ ∀ room, mergeDiffs room e a = all.take room := by
  induction e generalizing a with
  | nil =>
    induction a with
    | nil => exact ⟨[], ⟨.nil, by simp [DiffersAt]⟩, by rintro (_ | room) <;> simp [mergeDiffs]⟩
    | cons y a ih =>
      obtain ⟨j, k⟩ := y
      obtain ⟨hbound, ha⟩ := pairwise_cons.mp ha
      obtain ⟨all, hall, htake⟩ := ih ha
      refine ⟨j :: all, hall.cons ?_ (by simp) hbound fun i hi => differsAt_cons_right hi, ?_⟩
      · exact fun hsame => absurd ((hsame k).mpr mem_cons_self) not_mem_nil
      · rintro (_ | room) <;> simp [mergeDiffs, htake]
  | cons x e ih =>
    obtain ⟨i, h⟩ := x
    obtain ⟨hbound, he'⟩ := pairwise_cons.mp he
    induction a with
    | nil =>
      obtain ⟨all, hall, htake⟩ := ih he' ha
      refine ⟨i :: all, hall.cons ?_ hbound (by simp) fun j hj => differsAt_cons_left hj, ?_⟩
      · exact fun hsame => absurd ((hsame h).mp mem_cons_self) not_mem_nil
      · rintro (_ | room) <;> simp [mergeDiffs, htake]
    | cons y a iha =>
      obtain ⟨j, k⟩ := y
      obtain ⟨hbound', ha'⟩ := pairwise_cons.mp ha
      rcases Nat.lt_trichotomy i j with hij | rfl | hji
      · obtain ⟨all, hall, htake⟩ := ih he' ha
        have hall' : ∀ y ∈ (j, k) :: a, i < y.1 := by
          rintro y (_ | ⟨_, hy⟩)
          · exact hij
          · exact hij.trans (hbound' y hy)
        refine ⟨i :: all, hall.cons ?_ hbound hall' fun j hj => differsAt_cons_left hj, ?_⟩
        · exact fun hsame => absurd (hall' _ ((hsame h).mp mem_cons_self)) (lt_irrefl i)
        · rintro (_ | room) <;> simp [mergeDiffs, htake, hij, hij.ne]
      · obtain ⟨all, hall, htake⟩ := ih he' ha'
        have hrest : ∀ j, j ≠ i → (DiffersAt ((i, h) :: e) ((i, k) :: a) j ↔ DiffersAt e a j) :=
          fun j hj => (differsAt_cons_left hj).trans (differsAt_cons_right hj)
        by_cases hk : h = k
        · subst hk
          refine ⟨all, ⟨hall.ascending, fun j => ?_⟩, ?_⟩
          · by_cases hj : j = i
            · subst hj
              have hall' := fun hj => lt_irrefl j (hall.bound hbound hbound' j hj)
              refine iff_of_false hall' fun hdiff => hdiff fun x => ?_
              simp [not_mem_of_ascending he le_rfl x, not_mem_of_ascending ha le_rfl x]
            · rw [hrest j hj, hall.mem_iff]
          · rintro (_ | room) <;> simp [mergeDiffs, htake]
        · refine ⟨i :: all, hall.cons ?_ hbound hbound' hrest, ?_⟩
          · intro hsame
            rcases mem_cons.mp ((hsame h).mp mem_cons_self) with heq | hmem
            · exact hk (Prod.mk.inj heq).2
            · exact not_mem_of_ascending ha le_rfl h hmem
          · rintro (_ | room) <;> simp [mergeDiffs, htake, hk]
      · obtain ⟨all, hall, htake⟩ := iha ha'
        have hall' : ∀ x ∈ (i, h) :: e, j < x.1 := by
          rintro x (_ | ⟨_, hx⟩)
          · exact hji
          · exact hji.trans (hbound x hx)
        refine ⟨j :: all, hall.cons ?_ hall' hbound' fun i hi => differsAt_cons_right hi, ?_⟩
        · exact fun hsame => absurd (hall' _ ((hsame k).mpr mem_cons_self)) (lt_irrefl j)
        · rintro (_ | room) <;> simp [mergeDiffs, htake, hji.ne', hji.le]

/-- The first indices at which two page maps differ, whatever order they came in. -/
lemma firstDiffPageIndices_eq (he : (e.map Prod.fst).Nodup) (ha : (a.map Prod.fst).Nodup) :
    ∃ all, Diffs e a all ∧ firstDiffPageIndices e a = all.take diffPageLimit := by
  have hsorted : ∀ l : List (ℕ × P), (l.map Prod.fst).Nodup →
      Ascending (l.mergeSort fun x y => decide (x.1 ≤ y.1)) := by
    intro l hl
    have hperm := l.mergeSort_perm fun x y => decide (x.1 ≤ y.1)
    have hne := pairwise_map.mp ((hperm.map Prod.fst).nodup_iff.mpr hl)
    have hle : (l.mergeSort fun x y => decide (x.1 ≤ y.1)).Pairwise fun x y =>
        decide (x.1 ≤ y.1) = true := by
      apply l.pairwise_mergeSort
      · simpa using fun _ _ _ _ _ _ => le_trans
      · simpa using fun x _ y _ => le_total x y
    exact (hle.and hne).imp fun h => (of_decide_eq_true h.1).lt_of_ne h.2
  obtain ⟨all, ⟨hascending, hmem⟩, htake⟩ := exists_diffs (hsorted e he) (hsorted a ha)
  refine ⟨all, ⟨hascending, fun i => ?_⟩, htake _⟩
  rw [hmem]
  simp [DiffersAt]

lemma pushDiff_eq_nil_iff {α : Type} [DecidableEq α] {name : String} {bytes : α → List UInt8}
    {x y : α} : pushDiff name bytes x y = [] ↔ x = y := by
  simp [pushDiff]

variable {x y : VcpuState linuxSizes}

lemma take_regs {n : ℕ} (h : ∀ k < n, gpr x k = gpr y k) :
    x.regs.toList.take (8 * n) = y.regs.toList.take (8 * n) := by
  induction n with
  | zero => rfl
  | succ n ih =>
    have hsplit (z : VcpuState linuxSizes) :
        z.regs.toList.take (8 * (n + 1)) = z.regs.toList.take (8 * n) ++ gpr z n :=
      (slice_append_slice (Nat.zero_le _) (Nat.mul_le_mul_left 8 n.le_succ) z.regs.toList).symm
    rw [hsplit, hsplit, ih fun k hk => h k (by omega), h n (by omega)]

lemma compareVcpu_eq_nil_iff : compareVcpu x y = [] ↔ x = y := by
  constructor
  · intro h
    obtain ⟨hgprs, hrest⟩ := append_eq_nil_iff.mp h
    have hwords : ∀ k < 18, gpr x k = gpr y k := by
      intro k hk
      have hmem : (gprNames.get ⟨k, hk⟩, k) ∈ gprNames.zipIdx :=
        mem_zipIdx_iff_getElem?.mpr (getElem?_eq_getElem hk)
      exact pushDiff_eq_nil_iff.mp (flatMap_eq_nil_iff.mp hgprs _ hmem)
    have hfull (z : VcpuState linuxSizes) : z.regs.toList.take (8 * 18) = z.regs.toList :=
      take_of_length_le z.regs.toList_length.le
    have hregs : x.regs = y.regs := by
      apply List.Vector.toList_injective
      rw [← hfull x, ← hfull y, take_regs hwords]
    split_ifs at hrest with heq
    rw [heq, hregs]
  · rintro rfl
    simp [compareVcpu, pushDiff]

/-- The comparison of two snapshots whose parts are all there. -/
lemma compareSnapshots_of_parts {S : Store R P} {encode : List RegDiff → Except String (List UInt8)}
    {r r' : R} {c c' : List UInt8} {m m' : MachineSnapshot} (hc : S.getSnapshotContainer r = .ok c)
    (hc' : S.getSnapshotContainer r' = .ok c') (hm : decodeMachineSnapshot S .expected c = .ok m)
    (hm' : decodeMachineSnapshot S .actual c' = .ok m') (he : S.resolvePageHashes r = .ok e)
    (ha : S.resolvePageHashes r' = .ok a) :
    let diffs := compareVcpu m.vcpu m'.vcpu ++
      pushDiff "lapic" (fun s => s.toLapcSection.encode) m.lapic m'.lapic
    compareSnapshots S encode r r' = (encode diffs).mapError .regDiffEncode >>= fun bytes =>
      .ok ⟨rip m.vcpu, rip m'.vcpu, diffs, bytes, firstDiffPageIndices e a⟩ := by
  unfold compareSnapshots
  simp only [hc, hc', hm, hm', he, ha, Except.mapError, Except.ok_bind]

/-- The comparison finds the first differing pages of any two maps, and no difference
exactly if pages, virtual CPU and local APIC agree. -/
theorem snapshot_comparison_exact (S : Store R P)
    (encode : List RegDiff → Except String (List UInt8)) (r r' : R) :
    (∀ e a : List (ℕ × P), (e.map Prod.fst).Nodup → (a.map Prod.fst).Nodup →
      ∃ all, Diffs e a all ∧ firstDiffPageIndices e a = all.take diffPageLimit) ∧
    ∀ out c c' x y e a, compareSnapshots S encode r r' = .ok out →
      S.getSnapshotContainer r = .ok c → S.getSnapshotContainer r' = .ok c' →
      decodeMachineSnapshot S .expected c = .ok x → decodeMachineSnapshot S .actual c' = .ok y →
      S.resolvePageHashes r = .ok e → S.resolvePageHashes r' = .ok a →
      (e.map Prod.fst).Nodup → (a.map Prod.fst).Nodup → (out.regDiffs = [] ∧ out.diffPageIdx = [] ↔
          (∀ page, page ∈ e ↔ page ∈ a) ∧ x.vcpu = y.vcpu ∧ x.lapic = y.lapic) := by
  refine ⟨fun e a => firstDiffPageIndices_eq, ?_⟩
  intro out c c' x y e a h hc hc' hx hy he ha hnodup hnodup'
  rw [compareSnapshots_of_parts hc hc' hx hy he ha] at h
  obtain ⟨bytes, -, h⟩ := Except.bind_eq_ok.mp h
  cases h
  obtain ⟨all, hall, htake⟩ := firstDiffPageIndices_eq hnodup hnodup'
  have hpages : firstDiffPageIndices e a = [] ↔ ∀ page, page ∈ e ↔ page ∈ a := by
    rw [htake, take_eq_nil_iff, or_iff_right (by decide), eq_nil_iff_forall_not_mem]
    simp [hall.mem_iff, DiffersAt]
  rw [hpages, append_eq_nil_iff, compareVcpu_eq_nil_iff, pushDiff_eq_nil_iff, and_comm]

def vcpuSection (m : MachineSnapshot) : Section :=
  ⟨.vcpu, vcpuSectionVersion, encodeSection m.vcpu⟩

def lapcSection (m : MachineSnapshot) : Section :=
  ⟨.lapc, LapcSection.version, m.lapic.toLapcSection.encode⟩

/-- The device blob of a machine: its VCPU and LAPC sections in a container. -/
def deviceBlob (m : MachineSnapshot) : List UInt8 :=
  header formatVersion 2 ++ image [vcpuSection m, lapcSection m]

lemma parse_two_sections {s t : Section} (h : Framed ([] ++ [s] ++ [t])) :
    Container.parse (header formatVersion 2 ++ image [s, t]) = .ok ⟨[s, t]⟩ := by
  have hparse := Container.parse_header_append_image (by decide : formatVersion >>> 8 = 0x01) h
  exact hparse

omit [DecidableEq P] in
/-- A captured machine comes back from its device blob. -/
lemma decodeMachineSnapshot_deviceBlob {S : Store R P} {side : SnapshotSide} {c : List UInt8}
    {m : MachineSnapshot} (hvcpu : m.vcpu.Captured) (hlapic : Persistent m.lapic)
    (hc : S.decodeManifest c = .ok ⟨deviceBlobFormatDhsnap, false, deviceBlob m⟩) :
    decodeMachineSnapshot S side c = .ok m := by
  have hlen : (vcpuSection m).contents.length < 2 ^ 32 := by
    have hmsrs := congrArg List.length hvcpu.msrs
    rw [length_map] at hmsrs
    rw [vcpuSection, length_encodeSection, hvcpu.xsave, hmsrs]
    decide
  have hlapcLen : (lapcSection m).contents.length < 2 ^ 32 := by
    rw [lapcSection, LapcSection.length_encode]
    decide
  have htags : Tag.vcpu ∈ knownTags ∧ Tag.lapc ∈ knownTags ∧ Tag.lapc ∉ [Tag.vcpu] := by decide
  have hparse := parse_two_sections
    (.snoc (.snoc .nil ⟨htags.1, not_mem_nil, hlen⟩) ⟨htags.2.1, htags.2.2, hlapcLen⟩)
  have hstate : decodeSection (vcpuSection m).contents (vcpuSection m).secVersion = .ok m.vcpu :=
    (decodeSection_eq_ok_iff (hlen.trans (by decide))).mpr ⟨rfl, hvcpu, rfl⟩
  have hlapc : LapcSection.decodeCompat (lapcSection m).contents (lapcSection m).secVersion =
      .ok m.lapic.toLapcSection := by
    rw [LapcSection.decodeCompat, if_neg fun h => absurd h.1 (by decide : ¬LapcSection.version = _)]
    exact LapcSection.decode_eq_ok_iff.mpr ⟨rfl, rfl⟩
  have hfind : [vcpuSection m, lapcSection m].find? (·.tag = .vcpu) = some (vcpuSection m) ∧
      [vcpuSection m, lapcSection m].find? (·.tag = .lapc) = some (lapcSection m) := by
    have hne : Tag.vcpu ≠ Tag.lapc := by decide
    simp [vcpuSection, lapcSection, hne]
  simp only [decodeMachineSnapshot, hc, deviceBlob, hparse, hfind, Except.mapError, Except.ok_bind,
    hstate, hlapc, hlapic.fromLapcSection_toLapcSection, ne_eq, not_true, Bool.false_eq_true,
    or_self, if_false]

/-- A machine at reset, with every byte of its general registers set to `b`. -/
def idleMachine (b : UInt8) : MachineSnapshot where
  vcpu := ⟨.replicate _ b, .replicate _ 0, .replicate _ 0, zeros xsaveAreaLen, .replicate _ 0,
    restoreMsrList.map fun index => ⟨index, 0, 0⟩, .replicate _ 0, .replicate _ 0⟩
  lapic := .default

lemma captured_idleMachine (b : UInt8) : (idleMachine b).vcpu.Captured where
  xsave := length_replicate
  msrs := rfl
  reserved := by simp [idleMachine]

/-- Two snapshots, of the machines with registers `0` and `1` and with one page that differs. -/
def twoSnapshots : Store UInt8 ℕ where
  getSnapshotContainer r := .ok [r]
  resolvePageHashes r := .ok [(3, r.toNat), (0, 7)]
  decodeManifest c := .ok ⟨deviceBlobFormatDhsnap, false, deviceBlob (idleMachine (c.headD 0))⟩

theorem snapshot_comparison_exact_twoSnapshots :
    ∃ out, compareSnapshots twoSnapshots (fun _ => .ok []) 0 1 = .ok out ∧
      ¬(out.regDiffs = [] ∧ out.diffPageIdx = []) ∧
      ∃ all, Diffs [(3, 0), (0, 7)] [(3, 1), (0, 7)] all ∧
        out.diffPageIdx = all.take diffPageLimit := by
  obtain ⟨hpages, hsame⟩ := snapshot_comparison_exact twoSnapshots (fun _ => .ok []) 0 1
  have hdecode (side : SnapshotSide) (r : UInt8) :
      decodeMachineSnapshot twoSnapshots side [r] = .ok (idleMachine r) :=
    decodeMachineSnapshot_deviceBlob (captured_idleMachine r) .default rfl
  have hrun : compareSnapshots twoSnapshots (fun _ => .ok []) 0 1 = .ok ⟨_, _, _, _, _⟩ :=
    compareSnapshots_of_parts rfl rfl (hdecode _ 0) (hdecode _ 1) rfl rfl
  have hnodup : ∀ n : ℕ, ([(3, n), (0, 7)].map Prod.fst).Nodup := fun n => by simp
  refine ⟨_, hrun, fun hnone => ?_, ?_⟩
  · have hagree := (hsame _ _ _ _ _ _ _ hrun rfl rfl (hdecode _ 0) (hdecode _ 1) rfl rfl (hnodup _)
      (hnodup _)).mp hnone
    exact absurd ((hagree.1 (3, 0)).mp mem_cons_self) (by decide)
  · exact hpages _ _ (hnodup 0) (hnodup 1)

end DetHypervisor.SnapshotCompare
