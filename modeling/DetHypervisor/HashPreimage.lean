import DetHypervisor.Dhsnap
import DetHypervisor.Lib.HashChain
import DetHypervisor.SnapshotSections

/-!
# What the state hash binds

The state hash is the value of a chain. In a link the vCPU blob and the sections stand behind
their lengths; the pages have no count, and are delimited by their size and the position at the
end.
-/

namespace DetHypervisor.StateHash

open Bytes Checked List
open Dhsnap (LapcSection Tag)

abbrev Digest := List.Vector UInt8 32

def pageSize : ℕ := 4096

abbrev Page := List.Vector UInt8 pageSize

/-- What a device on the bus contributes: its id, its section version and what
it writes in `snapshot`. -/
structure DeviceSection where
  id : UInt16
  version : UInt16
  contents : List UInt8

-- `section.len() as u32` keeps the low 32 bits of the length
def DeviceSection.bytes (d : DeviceSection) : List UInt8 :=
  toLe d.id ++ (toLe d.version ++ prefixed UInt32 d.contents)

def deviceSections (bus : List DeviceSection) : List UInt8 := bus.flatMap DeviceSection.bytes

def lapicSection (lapic : LapcSection) : List UInt8 :=
  Tag.lapc.toList ++ (toLe LapcSection.version ++ prefixed UInt32 lapic.encode)

inductive Join where
  | devicesFirst
  | lapicFirst

def Join.sections (bus : List DeviceSection) (lapic : LapcSection) : Join → List UInt8
  | devicesFirst => deviceSections bus ++ lapicSection lapic
  | lapicFirst => lapicSection lapic ++ deviceSections bus

inductive KvmError where
  | openFailed (text : String)
  | memory (text : String)

structure SlotVm where
  memBytes : UInt64
  canonicalVcpuBlob : UInt64 → Except KvmError (List UInt8)
  readSlice : ℕ → Except String Page

structure StateHashChain where
  value : Digest

def domainTag : List UInt8 :=
  ascii ['d', 'h', '-', 's', 't', 'a', 't', 'e', 'h', 'a', 's', 'h', '-', 'v', '1']

def pageBytes (page : UInt64 × List UInt8) : List UInt8 := toLe page.1 ++ page.2

def position (icount vns : UInt64) : List UInt8 := toLe icount ++ toLe vns

def linkHead (value : Digest) (vcpuBlob deviceSections : List UInt8) : List UInt8 :=
  value.toList ++ (prefixed UInt64 vcpuBlob ++ prefixed UInt64 deviceSections)

def absorbPages {ε : Type} : Option UInt64 → List UInt8 → List (UInt64 × List UInt8) →
    Exec ε (List UInt8)
  | _, h, [] => .ok h
  | last, h, page :: pages =>
    if page.2.length ≠ pageSize then .error .panic
    else if ∃ l ∈ last, ¬l < page.1 then .error .panic
    else absorbPages (some page.1) (h ++ pageBytes page) pages

def absorbRamPage (slot : SlotVm) (h : List UInt8) (idx : ℕ) : Exec KvmError (List UInt8) :=
  match slot.readSlice (idx * pageSize) with
  | .error e => reject (.memory ("hash page read: " ++ e))
  | .ok page => .ok (h ++ pageBytes (UInt64.ofNat idx, page.toList))

namespace StateHashChain

variable (blake3 : List UInt8 → Digest)

def new (machineConfigHash baseSnapshotRef : Digest) : StateHashChain :=
  ⟨blake3 (domainTag ++ (machineConfigHash.toList ++ baseSnapshotRef.toList))⟩

def pushLink {ε : Type} (chain : StateHashChain) (vcpuBlob deviceSections : List UInt8)
    (pages : List (UInt64 × List UInt8)) (icount vns : UInt64) : Exec ε StateHashChain := do
  let h ← absorbPages none (linkHead chain.value vcpuBlob deviceSections) pages
  .ok ⟨blake3 (h ++ position icount vns)⟩

def pushFinalLink (chain : StateHashChain) (slot : SlotVm) (deviceSections : List UInt8)
    (icount vns : UInt64) : Exec KvmError StateHashChain :=
  match slot.canonicalVcpuBlob vns with
  | .error e => reject e
  | .ok vcpuBlob => do
      let h ← (List.range (slot.memBytes.toNat / pageSize)).foldlM (absorbRamPage slot)
        (linkHead chain.value vcpuBlob deviceSections)
      .ok ⟨blake3 (h ++ position icount vns)⟩

end StateHashChain

structure Origin where
  machineConfigHash : Digest
  baseSnapshotRef : Digest

def Origin.preimage (o : Origin) : List UInt8 :=
  domainTag ++ (o.machineConfigHash.toList ++ o.baseSnapshotRef.toList)

/-- What one link binds. No allocation is longer than `isize::MAX` bytes. -/
structure Link where
  vcpuBlob : List UInt8
  devices : List DeviceSection
  lapic : LapcSection
  pages : List (UInt64 × Page)
  icount : UInt64
  vns : UInt64
  length_vcpuBlob : vcpuBlob.length < 2 ^ 63
  length_sections : (deviceSections devices).length + (lapicSection lapic).length < 2 ^ 63
  ascending : pages.Pairwise fun p q => p.1 < q.1

namespace Link

def rawPages (l : Link) : List (UInt64 × List UInt8) := l.pages.map fun p => (p.1, p.2.toList)

def sections (join : Join) (l : Link) : List UInt8 := join.sections l.devices l.lapic

def preimage (join : Join) (value : Digest) (l : Link) : List UInt8 :=
  linkHead value l.vcpuBlob (l.sections join) ++
    (l.rawPages.flatMap pageBytes ++ position l.icount l.vns)

def Below (n : ℕ) (l : Link) : Prop := ∀ d ∈ l.devices, d.contents.length < n

end Link

/-- Guest RAM as a final link walks it: the pages in order, each at its index. -/
def SlotVm.Holds (slot : SlotVm) (pages : List (UInt64 × Page)) : Prop :=
  List.Forall₂ (fun idx p => p.1 = UInt64.ofNat idx ∧ slot.readSlice (idx * pageSize) = .ok p.2)
    (List.range (slot.memBytes.toNat / pageSize)) pages

inductive Pushes (blake3 : List UInt8 → Digest) (join : Join) (chain : StateHashChain) (l : Link)
    (chain' : StateHashChain) : Prop
  | link (h : chain.pushLink (ε := Empty) blake3 l.vcpuBlob (l.sections join) l.rawPages l.icount
      l.vns = .ok chain')
  | finalLink (slot : SlotVm) (hblob : slot.canonicalVcpuBlob l.vns = .ok l.vcpuBlob)
      (hram : slot.Holds l.pages)
      (h : chain.pushFinalLink blake3 slot (l.sections join) l.icount l.vns = .ok chain')

inductive Built (blake3 : List UInt8 → Digest) (join : Join) (o : Origin) :
    List Link → StateHashChain → Prop
  | new : Built blake3 join o [] (.new blake3 o.machineConfigHash o.baseSnapshotRef)
  | push {ls : List Link} {l : Link} {chain chain' : StateHashChain}
      (built : Built blake3 join o ls chain) (pushes : Pushes blake3 join chain l chain') :
      Built blake3 join o (ls ++ [l]) chain'

section Pushing

variable {blake3 : List UInt8 → Digest} {join : Join} {chain chain' : StateHashChain} {l : Link}
  {idxs : List ℕ} {pages : List (UInt64 × Page)} {slot : SlotVm}

lemma absorbPages_eq {ε : Type} {last : Option UInt64} (hlast : ∀ x ∈ last, ∀ p ∈ pages, x < p.1)
    (hpages : pages.Pairwise fun p q => p.1 < q.1) (h : List UInt8) :
    (absorbPages last h (pages.map fun p => (p.1, p.2.toList)) : Exec ε (List UInt8)) =
      .ok (h ++ (pages.map fun p => (p.1, p.2.toList)).flatMap pageBytes) := by
  induction pages generalizing last h with
  | nil => simp [absorbPages]
  | cons p pages ih =>
    rw [pairwise_cons] at hpages
    have hfirst : ¬∃ x ∈ last, ¬x < p.1 := by
      rintro ⟨x, hx, hlt⟩
      exact hlt (hlast x hx p mem_cons_self)
    have hlater : ∀ x ∈ some p.1, ∀ q ∈ pages, x < q.1 := by simpa using hpages.1
    have hrest := ih hlater hpages.2 (h ++ pageBytes (p.1, p.2.toList))
    rw [map_cons, absorbPages, if_neg (by simp), if_neg hfirst, hrest, flatMap_cons,
      append_assoc]

lemma pushLink_eq {ε : Type} :
    (chain.pushLink blake3 l.vcpuBlob (l.sections join) l.rawPages l.icount l.vns :
      Exec ε StateHashChain) = .ok ⟨blake3 (l.preimage join chain.value)⟩ := by
  have hnone : ∀ x ∈ (none : Option UInt64), ∀ p ∈ l.pages, x < p.1 := by simp
  have hpages := absorbPages_eq (ε := ε) hnone l.ascending
    (linkHead chain.value l.vcpuBlob (l.sections join))
  rw [StateHashChain.pushLink, Link.rawPages, hpages, Link.preimage, Link.rawPages, ← append_assoc]
  rfl

lemma absorbRam_eq (hram : List.Forall₂ (fun idx p => p.1 = UInt64.ofNat idx ∧
      slot.readSlice (idx * pageSize) = .ok p.2) idxs pages) (h : List UInt8) :
    idxs.foldlM (absorbRamPage slot) h =
      .ok (h ++ (pages.map fun p => (p.1, p.2.toList)).flatMap pageBytes) := by
  induction hram generalizing h with
  | nil => simp [pure, Except.pure]
  | @cons idx p idxs pages hp _ ih =>
    have hturn : absorbRamPage slot h idx = .ok (h ++ pageBytes (p.1, p.2.toList)) := by
      rw [absorbRamPage, hp.2, hp.1]
    rw [foldlM_cons, hturn, map_cons, flatMap_cons, ← append_assoc]
    exact ih _

lemma pushFinalLink_eq (hblob : slot.canonicalVcpuBlob l.vns = .ok l.vcpuBlob)
    (hram : slot.Holds l.pages) : chain.pushFinalLink blake3 slot (l.sections join) l.icount l.vns =
      .ok ⟨blake3 (l.preimage join chain.value)⟩ := by
  have hpages := absorbRam_eq hram (linkHead chain.value l.vcpuBlob (l.sections join))
  simp only [StateHashChain.pushFinalLink, hblob, hpages]
  rw [Link.preimage, Link.rawPages, ← append_assoc]
  rfl

lemma pushes_iff :
    Pushes blake3 join chain l chain' ↔ chain' = ⟨blake3 (l.preimage join chain.value)⟩ := by
  constructor
  · rintro (h | ⟨slot, hblob, hram, h⟩)
    · rw [pushLink_eq, Except.ok.injEq] at h
      exact h.symm
    · rw [pushFinalLink_eq hblob hram, Except.ok.injEq] at h
      exact h.symm
  · rintro rfl
    exact .link pushLink_eq

lemma built_iff {o : Origin} {ls : List Link} : Built blake3 join o ls chain ↔
      chain.value = HashChain.value blake3 Origin.preimage (Link.preimage join) o ls := by
  induction ls using reverseRecOn generalizing chain with
  | nil =>
    constructor
    · intro h
      generalize hls : ([] : List Link) = ls at h
      cases h with
      | new => rfl
      | push => simp at hls
    · intro h
      obtain ⟨v⟩ := chain
      obtain rfl : v = _ := h
      exact .new
  | append_singleton ls l ih =>
    rw [HashChain.value_snoc]
    constructor
    · intro h
      generalize hls : ls ++ [l] = ks at h
      cases h with
      | new => simp at hls
      | push built pushes =>
        obtain ⟨rfl, hl⟩ := append_inj' hls rfl
        obtain rfl := singleton_inj.mp hl
        rw [pushes_iff.mp pushes, ← ih.mp built]
    · intro h
      obtain ⟨v⟩ := chain
      obtain rfl : v = _ := h
      have built : Built blake3 join o ls ⟨_⟩ := ih.mpr rfl
      exact .push built (pushes_iff.mpr rfl)

end Pushing

section Reading

lemma length_bytes (d : DeviceSection) : d.bytes.length = 8 + d.contents.length := by
  simp only [DeviceSection.bytes, length_append, length_toLe, length_prefixed, size_uint16,
    size_uint32]
  omega

@[simp] lemma length_lapicSection (lapic : LapcSection) : (lapicSection lapic).length = 178 := by
  simp only [lapicSection, length_append, List.Vector.toList_length, length_toLe,
    length_prefixed, size_uint16, size_uint32, LapcSection.length_encode, LapcSection.len]

lemma delimited_bytes :
    Delimited (fun d : DeviceSection => d.contents.length < 2 ^ 32) DeviceSection.bytes := by
  rintro ⟨id, version, contents⟩ ⟨id', version', contents'⟩ hd hd' r s h
  simp only [DeviceSection.bytes, append_assoc] at h
  have hid := append_inj h (by simp only [length_toLe])
  have hversion := append_inj hid.2 (by simp only [length_toLe])
  have hcontents : contents = contents' ∧ r = s :=
    delimited_prefixed UInt32 hd hd' hversion.2
  rw [toLe_injective hid.1, toLe_injective hversion.1, hcontents.1]
  exact ⟨rfl, hcontents.2⟩

lemma encode_lapc_injective : Function.Injective LapcSection.encode := by
  intro a b h
  have hdecode (s : LapcSection) : LapcSection.decode s.encode LapcSection.version = .ok s :=
    LapcSection.decode_eq_ok_iff.mpr ⟨rfl, rfl⟩
  have ha := hdecode a
  rw [h, hdecode b, Except.ok.injEq] at ha
  exact ha.symm

lemma lapicSection_injective : Function.Injective lapicSection := by
  intro a b h
  simp only [lapicSection, prefixed, LapcSection.length_encode, append_cancel_left_eq] at h
  exact encode_lapc_injective h

variable {ds ds' : List DeviceSection}

lemma deviceSections_inj
    (hds : ∀ d ∈ ds, d.contents.length < 2 ^ 32) (hds' : ∀ d ∈ ds', d.contents.length < 2 ^ 32)
    (h : deviceSections ds = deviceSections ds') : ds = ds' := by
  refine delimited_bytes.flatMap_inj (fun d _ hnil => ?_) hds hds' h
  have hlen := length_bytes d
  rw [hnil, length_nil] at hlen
  omega

lemma sections_inj {join : Join} {a a' : LapcSection}
    (hds : ∀ d ∈ ds, d.contents.length < 2 ^ 32) (hds' : ∀ d ∈ ds', d.contents.length < 2 ^ 32)
    (h : join.sections ds a = join.sections ds' a') : ds = ds' ∧ a = a' := by
  cases join with
  | devicesFirst =>
    have hparts := append_inj' h (by simp only [length_lapicSection])
    exact ⟨deviceSections_inj hds hds' hparts.1, lapicSection_injective hparts.2⟩
  | lapicFirst =>
    have hparts := append_inj h (by simp only [length_lapicSection])
    exact ⟨deviceSections_inj hds hds' hparts.2, lapicSection_injective hparts.1⟩

variable (join : Join) (o : Origin) (v : Digest) (l : Link)

lemma length_sections : (l.sections join).length = (deviceSections l.devices).length + 178 := by
  cases join with
  | devicesFirst =>
    rw [Link.sections, Join.sections, length_append, length_lapicSection]
  | lapicFirst =>
    rw [Link.sections, Join.sections, length_append, length_lapicSection, Nat.add_comm]

lemma delimited_page :
    Delimited (fun _ : UInt64 × Page => True) fun p => pageBytes (p.1, p.2.toList) := by
  refine .of_length (n := 8 + pageSize) (fun p _ => ?_) fun p q _ _ h => ?_
  · simp only [pageBytes, length_append, length_toLe, size_uint64, List.Vector.toList_length]
  · have hparts := append_inj h (by simp only [length_toLe])
    exact Prod.ext (toLe_injective hparts.1) (List.Vector.eq _ _ hparts.2)

lemma pageBytes_ne_nil (p : UInt64 × List UInt8) : pageBytes p ≠ [] := by
  intro hnil
  have hlen := congrArg List.length hnil
  rw [pageBytes, length_append, length_toLe, size_uint64, length_nil] at hlen
  omega

lemma rawPages_flatMap :
    l.rawPages.flatMap pageBytes = l.pages.flatMap fun p => pageBytes (p.1, p.2.toList) :=
  flatMap_map _ _ _

lemma preimage_inj {n : ℕ} (hn : n ≤ 2 ^ 32) {join : Join} {v v' : Digest} {l l' : Link}
    (hl : l.Below n) (hl' : l'.Below n) (h : l.preimage join v = l'.preimage join v') :
    v = v' ∧ l = l' := by
  simp only [Link.preimage, linkHead, append_assoc] at h
  have hvalue := append_inj h (by simp only [List.Vector.toList_length])
  have hblob := delimited_prefixed UInt64 (lt_trans l.length_vcpuBlob (by decide))
    (lt_trans l'.length_vcpuBlob (by decide)) hvalue.2
  have hlt (k : Link) : (k.sections join).length < 256 ^ Word.size UInt64 := by
    have hk := k.length_sections
    rw [length_lapicSection] at hk
    rw [length_sections]
    exact lt_trans hk (by decide)
  have hsections := delimited_prefixed UInt64 (hlt l) (hlt l') hblob.2
  have hdevices := sections_inj (fun d hd => lt_of_lt_of_le (hl d hd) hn)
    (fun d hd => lt_of_lt_of_le (hl' d hd) hn) hsections.1
  -- the pages are what stands in front of the last sixteen bytes
  have hpages := append_inj' hsections.2
    (by simp only [position, length_append, length_toLe])
  have hposition := append_inj hpages.2 (by simp only [length_toLe])
  rw [rawPages_flatMap, rawPages_flatMap] at hpages
  have hwalk := delimited_page.flatMap_inj (fun p _ => pageBytes_ne_nil _)
    (fun _ _ => trivial) (fun _ _ => trivial) hpages.1
  refine ⟨List.Vector.eq _ _ hvalue.1, ?_⟩
  cases l
  cases l'
  simp only [Link.mk.injEq]
  exact ⟨hblob.1, hdevices.1, hdevices.2, hwalk, toLe_injective hposition.1,
    toLe_injective hposition.2⟩

lemma origin_preimage_injective : Function.Injective Origin.preimage := by
  rintro ⟨config, base⟩ ⟨config', base'⟩ h
  simp only [Origin.preimage, append_cancel_left_eq] at h
  have hparts := append_inj h (by simp only [List.Vector.toList_length])
  rw [List.Vector.eq _ _ hparts.1, List.Vector.eq _ _ hparts.2]

lemma length_origin_preimage : o.preimage.length = 79 := by
  simp only [Origin.preimage, domainTag, length_append, List.Vector.toList_length,
    length_ascii, length_cons, length_nil]

lemma length_link_preimage : 79 < (l.preimage join v).length := by
  simp only [Link.preimage, linkHead, position, length_append, List.Vector.toList_length,
    length_prefixed, length_toLe, size_uint64, length_sections]
  omega

lemma origin_preimage_ne : o.preimage ≠ l.preimage join v := by
  intro h
  have hlen := length_link_preimage join v l
  rw [← h, length_origin_preimage] at hlen
  omega

end Reading

/-- No two chains whose device sections are shorter than `n` bytes have one value, and the
sections can be read back. -/
structure Unambiguous (n : ℕ) : Prop where
  value_eq_iff : ∀ (join : Join) (blake3 : List UInt8 → Digest) (o o' : Origin)
    (ls ls' : List Link) (chain chain' : StateHashChain),
    Built blake3 join o ls chain → Built blake3 join o' ls' chain' →
    (∀ l ∈ ls, l.Below n) → (∀ l ∈ ls', l.Below n) →
    HashChain.CollisionFree blake3 Origin.preimage (Link.preimage join) o o' ls ls' →
    (chain.value = chain'.value ↔ o = o' ∧ ls = ls')
  sections_eq_iff : ∀ (join : Join) (ds ds' : List DeviceSection) (a a' : LapcSection),
    (∀ d ∈ ds, d.contents.length < n) → (∀ d ∈ ds', d.contents.length < n) →
    (join.sections ds a = join.sections ds' a' ↔ ds = ds' ∧ a = a')

lemma unambiguous_of_le {n : ℕ} (hn : n ≤ 2 ^ 32) : Unambiguous n where
  value_eq_iff join blake3 o o' ls ls' chain chain' hbuilt hbuilt' hls hls' hfree := by
    rw [built_iff.mp hbuilt, built_iff.mp hbuilt']
    exact HashChain.value_eq_iff origin_preimage_injective (preimage_inj hn)
      (origin_preimage_ne join) hls hls' hfree
  sections_eq_iff join ds ds' a a' hds hds' :=
    ⟨sections_inj (fun d hd => lt_of_lt_of_le (hds d hd) hn)
      (fun d hd => lt_of_lt_of_le (hds' d hd) hn), fun h => by rw [h.1, h.2]⟩

def inner : DeviceSection := ⟨2, 1, zeros (2 ^ 32 - 8)⟩

/-- A section of exactly 4 GiB, whose stated length is zero: what it holds reads
as another section. -/
def outer : DeviceSection := ⟨1, 1, inner.bytes⟩

lemma length_inner : inner.contents.length = 2 ^ 32 - 8 := length_replicate

lemma length_outer : outer.contents.length = 2 ^ 32 := by
  rw [outer, length_bytes, length_inner, Nat.add_sub_cancel' (by decide)]

lemma deviceSections_outer : deviceSections [outer] = deviceSections [⟨1, 1, []⟩, inner] := by
  have hcount : (Word.ofNat outer.contents.length : UInt32) = Word.ofNat 0 := by
    rw [length_outer]
    decide
  simp only [deviceSections, flatMap_cons, flatMap_nil, append_nil]
  rw [DeviceSection.bytes, prefixed, hcount]
  simp only [outer, DeviceSection.bytes, prefixed, length_nil, append_nil, append_assoc]

/-- Every sequence of links can be pushed, and the value binds it exactly as long
as every device section is shorter than 4 GiB. -/
theorem state_hash_binds_iff (n : ℕ) (join : Join) (blake3 : List UInt8 → Digest) (o : Origin)
    (ls : List Link) : (∃ chain, Built blake3 join o ls chain) ∧ (Unambiguous n ↔ n ≤ 2 ^ 32) := by
  refine ⟨⟨⟨_⟩, built_iff.mpr rfl⟩, fun h => ?_, unambiguous_of_le⟩
  by_contra hn
  have hsame : Join.devicesFirst.sections [outer] .default =
      Join.devicesFirst.sections [⟨1, 1, []⟩, inner] .default :=
    congrArg (· ++ lapicSection .default) deviceSections_outer
  have hdevices := (h.sections_eq_iff _ _ _ _ _
    (by simpa using (by rw [length_outer]; omega : outer.contents.length < n))
    (by simpa using ⟨(by omega : 0 < n), (by rw [length_inner]; omega :
      inner.contents.length < n)⟩)).mp hsame
  simp at hdevices

/-- A link whose one device section has `n` bytes. -/
def smallLink (n : Fin 4) : Link where
  vcpuBlob := []
  devices := [⟨1, 1, replicate n 7⟩]
  lapic := .default
  pages := []
  icount := 0
  vns := 0
  length_vcpuBlob := by decide
  length_sections := by
    rw [length_lapicSection]
    revert n
    decide
  ascending := .nil

def byLength (b : List UInt8) : Digest := .replicate 32 (UInt8.ofNat b.length)

lemma length_smallLink_preimage (join : Join) (v : Digest) (n : Fin 4) :
    ((smallLink n).preimage join v).length = 250 + n := by
  simp only [Link.preimage, linkHead, position, length_append, List.Vector.toList_length,
    length_prefixed, length_toLe, size_uint64, length_sections]
  simp [smallLink, deviceSections, DeviceSection.bytes, prefixed, Link.rawPages]
  omega

lemma injOn_byLength {p q r s : List UInt8} (hp : p.length = 79) (hq : q.length = 251)
    (hr : r.length = 252) (hs : s.length = 253) : Set.InjOn byLength {p, q, r, s} := by
  intro a ha b hb h
  have hlength : UInt8.ofNat a.length = UInt8.ofNat b.length :=
    congrArg (fun d : Digest => d.toList.headD 0) h
  simp only [Set.mem_insert_iff, Set.mem_singleton_iff] at ha hb
  rcases ha with rfl | rfl | rfl | rfl <;> rcases hb with rfl | rfl | rfl | rfl <;> first
    | rfl
    | simp only [hp, hq, hr, hs] at hlength
      exact absurd hlength (by decide)

lemma collisionFree_byLength : HashChain.CollisionFree byLength Origin.preimage
    (Link.preimage join) o o [smallLink 1, smallLink 2] [smallLink 1, smallLink 3] := by
  let v := byLength ((smallLink 1).preimage join (byLength o.preimage))
  refine (injOn_byLength (length_origin_preimage o)
    (length_smallLink_preimage join (byLength o.preimage) 1) (length_smallLink_preimage join v 2)
    (length_smallLink_preimage join v 3)).mono fun b hb => ?_
  simp only [HashChain.preimages, HashChain.preimagesFrom, mem_cons, not_mem_nil, or_false,
    Set.mem_ofPred_eq] at hb
  simp only [Set.mem_insert_iff, Set.mem_singleton_iff]
  tauto

/-- Two chains that differ in a device section of their second link. -/
theorem state_hash_binds_smallLink : ∃ chain chain' : StateHashChain,
      Built byLength .lapicFirst ⟨.replicate 32 7, .replicate 32 9⟩ [smallLink 1, smallLink 2]
        chain ∧
      Built byLength .lapicFirst ⟨.replicate 32 7, .replicate 32 9⟩ [smallLink 1, smallLink 3]
        chain' ∧
      chain.value ≠ chain'.value := by
  obtain ⟨⟨chain, hchain⟩, hiff⟩ := state_hash_binds_iff (2 ^ 32) .lapicFirst byLength
    ⟨.replicate 32 7, .replicate 32 9⟩ [smallLink 1, smallLink 2]
  obtain ⟨⟨chain', hchain'⟩, -⟩ := state_hash_binds_iff (2 ^ 32) .lapicFirst byLength
    ⟨.replicate 32 7, .replicate 32 9⟩ [smallLink 1, smallLink 3]
  have hsmall (n : Fin 4) : ∀ l ∈ [smallLink 1, smallLink n], l.Below (2 ^ 32) := by
    simp [smallLink, Link.Below]
    omega
  have hbinds := (hiff.mpr le_rfl).value_eq_iff _ _ _ _ _ _ _ _
    hchain hchain' (hsmall 2) (hsmall 3) collisionFree_byLength
  refine ⟨chain, chain', hchain, hchain', fun h => ?_⟩
  have hlinks := (hbinds.mp h).2
  simp [smallLink] at hlinks

lemma length_deviceSections_outer : (deviceSections [outer]).length = 8 + 2 ^ 32 := by
  rw [deviceSections, flatMap_cons, flatMap_nil, append_nil, length_bytes, length_outer]

def outerLink : Link where
  vcpuBlob := []
  devices := [outer]
  lapic := .default
  pages := []
  icount := 0
  vns := 0
  length_vcpuBlob := by decide
  length_sections := by
    rw [length_deviceSections_outer, length_lapicSection]
    decide
  ascending := .nil

def splitLink : Link where
  vcpuBlob := []
  devices := [⟨1, 1, []⟩, inner]
  lapic := .default
  pages := []
  icount := 0
  vns := 0
  length_vcpuBlob := by decide
  length_sections := by
    rw [← deviceSections_outer, length_deviceSections_outer, length_lapicSection]
    decide
  ascending := .nil

lemma preimage_outerLink (join : Join) (v : Digest) :
    outerLink.preimage join v = splitLink.preimage join v := by
  have hsections : outerLink.sections join = splitLink.sections join := by
    cases join with
    | devicesFirst => exact congrArg (· ++ lapicSection .default) deviceSections_outer
    | lapicFirst => exact congrArg (lapicSection .default ++ ·) deviceSections_outer
  rw [Link.preimage, Link.preimage, hsections]
  rfl

theorem value_eq_of_wrapped_length : [outerLink] ≠ [splitLink] ∧
    ∀ (join : Join) (blake3 : List UInt8 → Digest) (o : Origin) (chain chain' : StateHashChain),
      Built blake3 join o [outerLink] chain → Built blake3 join o [splitLink] chain' →
      chain.value = chain'.value := by
  constructor
  · intro h
    have hdevices := congrArg Link.devices (singleton_inj.mp h)
    simp [outerLink, splitLink] at hdevices
  · intro join blake3 o chain chain' hbuilt hbuilt'
    rw [built_iff.mp hbuilt, built_iff.mp hbuilt', ← nil_append [outerLink],
      ← nil_append [splitLink], HashChain.value_snoc, HashChain.value_snoc,
      preimage_outerLink]

end DetHypervisor.StateHash
