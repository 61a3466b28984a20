import DetHypervisor.Lib.Checked

/-!
# The snapshot container

The device blob of a snapshot is a sixteen-byte header and a run of tagged, padded sections. The
loops of writer and reader are compared with that description.
-/

namespace DetHypervisor.Dhsnap

open Bytes Checked List Except Nat

def magic : List UInt8 := ascii ['D', 'H', 'S', 'N', 'A', 'P']

def formatVersion : UInt16 := 0x0100

def headerLen : ℕ := 16

def sectionHeaderLen : ℕ := 12

abbrev Tag := List.Vector UInt8 4

namespace Tag

def mcfg : Tag := ⟨ascii ['M', 'C', 'F', 'G'], rfl⟩
def vcpu : Tag := ⟨ascii ['V', 'C', 'P', 'U'], rfl⟩
def lapc : Tag := ⟨ascii ['L', 'A', 'P', 'C'], rfl⟩
def time : Tag := ⟨ascii ['T', 'I', 'M', 'E'], rfl⟩
def entr : Tag := ⟨ascii ['E', 'N', 'T', 'R'], rfl⟩
def clkd : Tag := ⟨ascii ['C', 'L', 'K', 'D'], rfl⟩
def padd : Tag := ⟨ascii ['P', 'A', 'D', 'D'], rfl⟩
def evtc : Tag := ⟨ascii ['E', 'V', 'T', 'C'], rfl⟩
def blko : Tag := ⟨ascii ['B', 'L', 'K', 'O'], rfl⟩
def netl : Tag := ⟨ascii ['N', 'E', 'T', 'L'], rfl⟩
def serl : Tag := ⟨ascii ['S', 'E', 'R', 'L'], rfl⟩

end Tag

def knownTags : List Tag :=
  [.mcfg, .vcpu, .lapc, .time, .entr, .clkd, .padd, .evtc, .blko, .netl, .serl]

@[ext]
structure Section where
  tag : Tag
  secVersion : UInt16
  contents : List UInt8

inductive WriteError where
  | sectionTooLong
  | unknownTag (tag : Tag)
  | duplicateTag (tag : Tag)

structure ContainerWriter where
  buf : List UInt8
  count : UInt32
  seen : List Tag

namespace ContainerWriter

def new : ContainerWriter := ⟨zeros headerLen, 0, []⟩

def pushSection (w : ContainerWriter) (tag : Tag) (secVersion : UInt16) (contents : List UInt8) :
    Except WriteError ContainerWriter :=
  if tag ∉ knownTags then .error (.unknownTag tag)
  else if tag ∈ w.seen then .error (.duplicateTag tag)
  else if 2 ^ 32 ≤ contents.length then .error .sectionTooLong
  else
    .ok {
      buf := w.buf ++ tag.toList ++ toLe secVersion ++ zeros 2 ++
        toLe (UInt32.ofNat contents.length) ++ contents ++ zeros (padLen contents.length)
      count := w.count + 1
      seen := w.seen ++ [tag] }

def finish (w : ContainerWriter) : List UInt8 :=
  magic ++ toLe formatVersion ++ toLe w.count ++ w.buf.drop 12 -- `_pad` is zero already

def pushAll (w : ContainerWriter) (ss : List Section) : Except WriteError ContainerWriter :=
  ss.foldlM (fun w s => w.pushSection s.tag s.secVersion s.contents) w

end ContainerWriter

inductive ReadError where
  | tooShort
  | badMagic
  | unsupportedVersion (found : UInt16)
  | nonzeroHeaderPad
  | truncated (index : UInt32)
  | unknownTag (tag : Tag) (index : UInt32)
  | duplicateTag (tag : Tag)
  | nonzeroPadding (index : UInt32)
  | sectionCountMismatch (header actual : UInt32)

structure Container where
  sections : List Section

structure Scan where
  offset : ℕ
  index : UInt32
  sections : List Section

namespace Container

def parseTurn (bytes : List UInt8) (scan : Scan) : Exec ReadError (Fuel.Step Scan Scan) :=
  if bytes.length ≤ scan.offset then .ok (.done scan)
  else do
    let left ← sub bytes.length scan.offset
    rejectIf (left < sectionHeaderLen) (.truncated scan.index)
    let b ← suffix bytes scan.offset
    let tag ← array 4 b 0 4
    let secVersion ← word UInt16 b 4 6
    let pad ← slice b 6 8
    rejectIf (pad ≠ zeros 2) (.nonzeroPadding scan.index)
    let len := (← word UInt32 b 8 12).toNat
    let contentsEnd ← addOr (.truncated scan.index) sectionHeaderLen len
    let paddedEnd ← addOr (.truncated scan.index) contentsEnd (padLen len)
    rejectIf (left < paddedEnd) (.truncated scan.index)
    rejectIf (tag ∉ knownTags) (.unknownTag tag scan.index)
    rejectIf (∃ s ∈ scan.sections, s.tag = tag) (.duplicateTag tag)
    let padding ← slice b contentsEnd paddedEnd
    rejectIf (∃ x ∈ padding, x ≠ 0) (.nonzeroPadding scan.index)
    let contents ← slice b sectionHeaderLen contentsEnd
    let offset ← add scan.offset paddedEnd
    .ok (.next ⟨offset, scan.index + 1, scan.sections ++ [⟨tag, secVersion, contents⟩]⟩)

def parse (bytes : List UInt8) : Exec ReadError Container := do
  rejectIf (bytes.length < headerLen) .tooShort
  let found ← slice bytes 0 6
  rejectIf (found ≠ magic) .badMagic
  let version ← word UInt16 bytes 6 8
  rejectIf (version >>> 8 ≠ 0x01) (.unsupportedVersion version)
  let sectionCount ← word UInt32 bytes 8 12
  let pad ← slice bytes 12 16
  rejectIf (pad ≠ zeros 4) .nonzeroHeaderPad
  let scan ← loop (parseTurn bytes) (bytes.length + 1) ⟨headerLen, 0, []⟩
  rejectIf (scan.index ≠ sectionCount) (.sectionCountMismatch sectionCount scan.index)
  .ok ⟨scan.sections⟩

end Container

namespace Section

def bytes (s : Section) : List UInt8 :=
  s.tag.toList ++ (toLe s.secVersion ++ (zeros 2 ++ (toLe (UInt32.ofNat s.contents.length) ++
    (s.contents ++ zeros (padLen s.contents.length)))))

lemma length_bytes (s : Section) :
    s.bytes.length = sectionHeaderLen + s.contents.length + padLen s.contents.length := by
  simp [bytes, sectionHeaderLen]
  omega

lemma length_bytes_pos (s : Section) : 0 < s.bytes.length := by
  rw [length_bytes, sectionHeaderLen]
  omega

lemma bytes_isPrefix_iff {s : Section} {b : List UInt8} : s.bytes <+: b ↔
      Bytes.slice b 0 4 = s.tag.toList ∧ Bytes.slice b 4 6 = toLe s.secVersion ∧
      Bytes.slice b 6 8 = zeros 2 ∧ Bytes.slice b 8 12 = toLe (UInt32.ofNat s.contents.length) ∧
      Bytes.slice b 12 (12 + s.contents.length) = s.contents ∧
      Bytes.slice b (12 + s.contents.length) (12 + s.contents.length + padLen s.contents.length) =
          zeros (padLen s.contents.length) := by
  change s.bytes <+: b.drop 0 ↔ _
  simp only [bytes, append_isPrefix_drop_iff]
  simp only [isPrefix_drop_iff, List.Vector.toList_length, length_toLe, size_uint16, size_uint32,
    length_replicate, Nat.reduceAdd]

end Section

structure Admits (ss : List Section) (s : Section) : Prop where
  known : s.tag ∈ knownTags
  fresh : s.tag ∉ ss.map Section.tag
  short : s.contents.length < 2 ^ 32

/-- Sections with distinct known tags, each with a length that fits its field. -/
inductive Framed : List Section → Prop
  | nil : Framed []
  | snoc {ss : List Section} {s : Section} : Framed ss → Admits ss s → Framed (ss ++ [s])

variable {s : Section} {ss ts : List Section}

lemma framed_snoc_iff : Framed (ss ++ [s]) ↔ Framed ss ∧ Admits ss s := by
  constructor
  · intro h
    generalize hts : ss ++ [s] = ts at h
    cases h with
    | nil => simp at hts
    | snoc h hs =>
      obtain ⟨rfl, hst⟩ := append_inj' hts rfl
      cases hst
      exact ⟨h, hs⟩
  · exact fun h => .snoc h.1 h.2

lemma Framed.left (h : Framed (ss ++ ts)) : Framed ss := by
  induction ts using reverseRecOn with
  | nil => rwa [append_nil] at h
  | append_singleton ts t ih =>
    rw [← append_assoc] at h
    exact ih (framed_snoc_iff.mp h).1

lemma Framed.admits (h : Framed (ss ++ s :: ts)) : Admits ss s := by
  rw [append_cons] at h
  exact (framed_snoc_iff.mp h.left).2

lemma Framed.nodup (h : Framed ss) : (ss.map Section.tag).Nodup := by
  induction h with
  | nil => exact nodup_nil
  | snoc _ hs ih =>
    rw [map_append, nodup_append]
    refine ⟨ih, nodup_singleton _, ?_⟩
    rintro a ha b hb rfl
    exact hs.fresh (mem_singleton.mp hb ▸ ha)

lemma Framed.known (h : Framed ss) : ss.map Section.tag ⊆ knownTags := by
  induction h with
  | nil => exact nil_subset _
  | snoc _ hs ih =>
    rw [map_append, append_subset]
    exact ⟨ih, cons_subset.mpr ⟨hs.known, nil_subset _⟩⟩

lemma Framed.length_le (h : Framed ss) : ss.length ≤ 11 := by
  have hle := (h.nodup.subperm h.known).length_le
  rw [length_map] at hle
  exact hle

def image (ss : List Section) : List UInt8 := ss.flatMap Section.bytes

lemma image_append (ss ts : List Section) : image (ss ++ ts) = image ss ++ image ts :=
  flatMap_append

lemma image_cons (s : Section) (ss : List Section) : image (s :: ss) = s.bytes ++ image ss :=
  flatMap_cons

lemma image_singleton (s : Section) : image [s] = s.bytes := flatMap_singleton _ _

def header (version : UInt16) (n : ℕ) : List UInt8 :=
  magic ++ (toLe version ++ (toLe (UInt32.ofNat n) ++ zeros 4))

lemma length_magic : magic.length = 6 := length_ascii _

@[simp] lemma length_header (version : UInt16) (n : ℕ) : (header version n).length = headerLen := by
  simp [header, length_magic, headerLen]

lemma header_isPrefix_iff {version : UInt16} {n : ℕ} {b : List UInt8} : header version n <+: b ↔
      Bytes.slice b 0 6 = magic ∧ Bytes.slice b 6 8 = toLe version ∧
      Bytes.slice b 8 12 = toLe (UInt32.ofNat n) ∧ Bytes.slice b 12 16 = zeros 4 := by
  change header version n <+: b.drop 0 ↔ _
  simp only [header, append_isPrefix_drop_iff]
  simp only [isPrefix_drop_iff, length_magic, length_toLe, size_uint16, size_uint32,
    length_replicate, Nat.reduceAdd]

lemma Framed.length_image_le (h : Framed ss) : (image ss).length ≤ ss.length * (2 ^ 32 + 19) := by
  induction h with
  | nil => exact le_rfl
  | @snoc ss s _ hs ih =>
    have hshort := hs.short
    have hpad := padLen_lt s.contents.length
    have hbytes := s.length_bytes
    rw [image_append, image_singleton, length_append, length_append, add_mul,
      length_singleton, one_mul]
    simp only [sectionHeaderLen] at hbytes
    omega

namespace ContainerWriter

def after (ss : List Section) : ContainerWriter :=
  ⟨zeros headerLen ++ image ss, UInt32.ofNat ss.length, ss.map Section.tag⟩

lemma pushSection_after_eq_ok_iff {w : ContainerWriter} :
    (after ss).pushSection s.tag s.secVersion s.contents = .ok w ↔
      Admits ss s ∧ w = after (ss ++ [s]) := by
  have hafter : after (ss ++ [s]) = ⟨(after ss).buf ++ s.tag.toList ++ toLe s.secVersion ++
      zeros 2 ++ toLe (UInt32.ofNat s.contents.length) ++ s.contents ++
      zeros (padLen s.contents.length), (after ss).count + 1, (after ss).seen ++ [s.tag]⟩ := by
    simp [after, image_append, image_singleton, Section.bytes, UInt32.ofNat_add]
  constructor
  · intro h
    rw [pushSection] at h
    split_ifs at h with hknown hfresh hshort
    cases h
    exact ⟨⟨hknown, hfresh, Nat.lt_of_not_le hshort⟩, hafter.symm⟩
  · rintro ⟨hs, rfl⟩
    rw [pushSection, if_neg (not_not.mpr hs.known),
      if_neg (show s.tag ∉ (after ss).seen from hs.fresh), if_neg (Nat.not_le.mpr hs.short), hafter]

lemma pushAll_new_eq_ok_iff {w : ContainerWriter} :
    new.pushAll ss = .ok w ↔ Framed ss ∧ w = after ss := by
  induction ss using reverseRecOn generalizing w with
  | nil =>
    have hnew : new = after [] := rfl
    rw [pushAll, foldlM_nil, hnew]
    constructor
    · intro h
      cases h
      exact ⟨.nil, rfl⟩
    · rintro ⟨-, rfl⟩
      rfl
  | append_singleton ss s ih =>
    have hsnoc : new.pushAll (ss ++ [s]) =
        new.pushAll ss >>= fun w => w.pushSection s.tag s.secVersion s.contents := by
      simp [pushAll]
    rw [hsnoc, bind_eq_ok, framed_snoc_iff]
    constructor
    · rintro ⟨v, hv, hw⟩
      obtain ⟨hss, rfl⟩ := ih.mp hv
      obtain ⟨hs, rfl⟩ := pushSection_after_eq_ok_iff.mp hw
      exact ⟨⟨hss, hs⟩, rfl⟩
    · rintro ⟨⟨hss, hs⟩, rfl⟩
      exact ⟨after ss, ih.mpr ⟨hss, rfl⟩, pushSection_after_eq_ok_iff.mpr ⟨hs, rfl⟩⟩

lemma finish_after (ss : List Section) :
    (after ss).finish = header formatVersion ss.length ++ image ss := by
  have hdrop : (zeros headerLen ++ image ss).drop 12 = zeros 4 ++ image ss := rfl
  rw [finish, after, hdrop, header]
  simp only [append_assoc]

end ContainerWriter

namespace Scan

def after (ss : List Section) : Scan := ⟨headerLen + (image ss).length, UInt32.ofNat ss.length, ss⟩

lemma after_snoc (ss : List Section) (s : Section) : after (ss ++ [s]) =
      ⟨(after ss).offset + s.bytes.length, (after ss).index + 1, (after ss).sections ++ [s]⟩ := by
  simp [after, image_append, image_singleton, UInt32.ofNat_add, add_assoc]

end Scan

namespace Container

variable {bytes : List UInt8} {scan : Scan}

lemma parseTurn_safely (hbytes : bytes.length < 2 ^ 63) : Safely (fun
      | .done scan' => bytes.length ≤ scan.offset ∧ scan' = scan
      | .next scan' => ∃ s, Admits scan.sections s ∧ s.bytes <+: bytes.drop scan.offset ∧
          scan' = ⟨scan.offset + s.bytes.length, scan.index + 1, scan.sections ++ [s]⟩)
      (parseTurn bytes scan) := by
  by_cases hend : bytes.length ≤ scan.offset
  · rw [parseTurn, if_pos hend, safely_ok]
    exact ⟨hend, rfl⟩
  rw [parseTurn, if_neg hend]
  have hheader : sectionHeaderLen = 12 := rfl
  have hdrop : (bytes.drop scan.offset).length = bytes.length - scan.offset := length_drop
  simp (disch := omega) only [safely_bind, safely_sub, safely_rejectIf, safely_suffix]
  intro h12
  generalize bytes.drop scan.offset = b at hdrop ⊢
  have hn := (ofLe UInt32 (Bytes.slice b 8 12)).toNat_lt
  generalize hlen : (ofLe UInt32 (Bytes.slice b 8 12)).toNat = n at hn
  have hpad := padLen_lt n
  simp (disch := first | decide | omega) only [safely_array, safely_word, safely_slice, hlen,
    safely_addOr]
  intro hzero hfits hknown hfresh
  simp (disch := omega) only [safely_slice]
  intro hpadding
  simp (disch := omega) only [safely_add, safely_ok]
  have hcontents : (Bytes.slice b 12 (12 + n)).length = n := by
    rw [length_slice (by omega)]
    omega
  refine ⟨⟨⟨Bytes.slice b 0 4, length_slice (by omega)⟩, ofLe UInt16 (Bytes.slice b 4 6),
    Bytes.slice b 12 (12 + n)⟩, ⟨not_not.mp hknown, ?_, ?_⟩, Section.bytes_isPrefix_iff.mpr ?_, ?_⟩
  · exact fun htag => hfresh (mem_map.mp htag)
  · exact hcontents.trans_lt hn
  · simp only [hcontents]
    refine ⟨rfl, (toLe_ofLe ?_).symm, not_not.mp hzero, ?_, trivial, ?_⟩
    · exact length_slice (by omega)
    · rw [← hlen, UInt32.ofNat_toNat, toLe_ofLe (length_slice (by omega))]
    · rw [eq_zeros_iff]
      push Not at hpadding
      exact ⟨by rw [length_slice (by omega)]; omega, hpadding⟩
  · simp only [Section.length_bytes, hheader, hcontents]

lemma parseTurn_of_admits (hbytes : bytes.length < 2 ^ 63) (hs : Admits scan.sections s)
    (hstands : s.bytes <+: bytes.drop scan.offset) : parseTurn bytes scan =
      .ok (.next ⟨scan.offset + s.bytes.length, scan.index + 1, scan.sections ++ [s]⟩) := by
  have hheader : sectionHeaderLen = 12 := rfl
  have hlength := s.length_bytes
  have hle := hstands.length_le
  rw [length_drop] at hle
  have hdrop : (bytes.drop scan.offset).length = bytes.length - scan.offset := length_drop
  have hn : (UInt32.ofNat s.contents.length).toNat = s.contents.length :=
    UInt32.toNat_ofNat_of_lt hs.short
  obtain ⟨h0, h1, h2, h3, h4, h5⟩ := Section.bytes_isPrefix_iff.mp hstands
  rw [parseTurn, if_neg (by omega)]
  simp only [bind_eq_ok, rejectIf_eq_ok_iff, slice_eq_ok_iff, word_eq_ok_iff,
    array_eq_ok_iff, suffix_eq_ok_iff, add_eq_ok_iff, sub_eq_ok_iff]
  refine ⟨_, ⟨by omega, rfl⟩, (), by omega, _, ⟨by omega, rfl⟩, _, ⟨by omega, by omega, h0⟩, _,
    ⟨by omega, by omega, h1⟩, _, ⟨by omega, by omega, h2⟩, (), by simp, _,
    ⟨by omega, by omega, h3⟩, ?_⟩
  rw [hn]
  refine ⟨_, addOr_eq_ok (by omega) _, _, addOr_eq_ok (by omega) _, (), by omega, (),
    not_not.mpr hs.known, (), ?_, _, ⟨by omega, by omega, h5⟩, (), by simp, _,
    ⟨by omega, by omega, h4⟩, _, ⟨by omega, rfl⟩, ?_⟩
  · exact fun h => hs.fresh (mem_map.mpr h)
  · rw [hlength]

lemma loop_safely (hlen : headerLen ≤ bytes.length) (hbytes : bytes.length < 2 ^ 63) :
    Safely (fun scan => ∃ ss, scan = .after ss ∧ Framed ss ∧ bytes.drop headerLen = image ss)
      (loop (parseTurn bytes) (bytes.length + 1) ⟨headerLen, 0, []⟩) := by
  refine post_loop (I := fun scan => ∃ ss, scan = .after ss ∧ Framed ss ∧
      image ss <+: bytes.drop headerLen)
    (μ := fun scan => bytes.length - scan.offset) ?_ ⟨[], rfl, .nil, nil_prefix⟩ (by omega)
  rintro _ ⟨ss, rfl, hss, hstarts⟩
  apply (parseTurn_safely hbytes).weaken
  rintro (scan' | scan') hturn
  · obtain ⟨s, hs, hstands, rfl⟩ := hturn
    refine ⟨⟨ss ++ [s], (Scan.after_snoc ss s).symm, .snoc hss hs, ?_⟩, ?_⟩
    · rw [image_append, image_singleton, append_isPrefix_drop_iff, ← isPrefix_drop_iff]
      exact ⟨hstarts, hstands⟩
    · have hle := hstands.length_le
      have hpos := s.length_bytes_pos
      rw [length_drop] at hle
      dsimp only
      omega
  · obtain ⟨hend, rfl⟩ := hturn
    refine ⟨ss, rfl, hss, (hstarts.eq_of_length_le ?_).symm⟩
    rw [length_drop]
    exact Nat.sub_le_iff_le_add'.mpr hend

lemma loop_of_framed (hlen : headerLen ≤ bytes.length) (hbytes : bytes.length < 2 ^ 63)
    (hss : Framed ss) (himage : bytes.drop headerLen = image ss) :
    loop (parseTurn bytes) (bytes.length + 1) ⟨headerLen, 0, []⟩ = .ok (.after ss) := by
  have hturn : ∀ scan : Scan, (∃ as bs, ss = as ++ bs ∧ scan = .after as) →
      ∃ next, parseTurn bytes scan = .ok next ∧
        Turns (fun scan => ∃ as bs, ss = as ++ bs ∧ scan = .after as) (fun scan => scan = .after ss)
          (fun scan => bytes.length - scan.offset) scan next := by
    rintro _ ⟨as, bs, rfl, rfl⟩
    cases bs with
    | nil =>
      rw [append_nil] at himage ⊢
      refine ⟨.done (.after as), if_pos ?_, rfl⟩
      rw [Scan.after, ← himage, length_drop]
      exact (add_sub_of_le hlen).ge
    | cons s bs =>
      have hstands : s.bytes <+: bytes.drop (Scan.after as).offset := by
        rw [Scan.after, ← drop_drop, himage, image_append, drop_left, image_cons]
        exact prefix_append _ _
      refine ⟨_, parseTurn_of_admits hbytes hss.admits hstands, ⟨as ++ [s], bs, ?_, ?_⟩, ?_⟩
      · exact append_cons as s bs
      · exact (Scan.after_snoc as s).symm
      · have hle := hstands.length_le
        have hpos := s.length_bytes_pos
        rw [length_drop] at hle
        dsimp only
        omega
  obtain ⟨_, hscan, rfl⟩ := loop_eq_ok hturn ⟨[], ss, rfl, rfl⟩ (lt_succ_of_le (sub_le _ _))
  exact hscan

lemma parse_safely (hbytes : bytes.length < 2 ^ 63) :
    Safely (fun c => Framed c.sections ∧ ∃ version : UInt16, version >>> 8 = 0x01 ∧
      bytes = header version c.sections.length ++ image c.sections) (parse bytes) := by
  have hheader : headerLen = 16 := rfl
  rw [parse, safely_bind, safely_rejectIf]
  intro hlen
  simp (disch := first | decide | omega) only [safely_bind, safely_slice, safely_word,
    safely_rejectIf]
  intro hmagic hversion hpad
  apply (loop_safely (by omega) hbytes).weaken
  rintro _ ⟨ss, rfl, hss, himage⟩ hcount
  refine ⟨hss, _, not_not.mp hversion, ?_⟩
  have hstarts : header (ofLe UInt16 (Bytes.slice bytes 6 8)) ss.length <+: bytes := by
    rw [header_isPrefix_iff]
    refine ⟨not_not.mp hmagic, (toLe_ofLe (length_slice (by omega))).symm, ?_, not_not.mp hpad⟩
    have hslice : (Bytes.slice bytes 8 12).length = Word.size UInt32 := length_slice (by omega)
    rw [← toLe_ofLe hslice, ← not_not.mp hcount]
    rfl
  obtain ⟨rest, hrest⟩ := hstarts
  rw [← hrest, drop_left' (length_header _ _)] at himage
  subst himage
  exact hrest.symm

lemma parse_header_append_image {version : UInt16} (hversion : version >>> 8 = 0x01)
    (hss : Framed ss) : parse (header version ss.length ++ image ss) = .ok ⟨ss⟩ := by
  have hheader : headerLen = 16 := rfl
  have hlength : (header version ss.length ++ image ss).length = headerLen + (image ss).length := by
    rw [length_append, length_header]
  have hbytes : (header version ss.length ++ image ss).length < 2 ^ 63 := by
    have hle := hss.length_le
    have himage := hss.length_image_le
    omega
  have hdrop : (header version ss.length ++ image ss).drop headerLen = image ss :=
    drop_left' (length_header _ _)
  obtain ⟨h0, h1, h2, h3⟩ := header_isPrefix_iff.mp (prefix_append _ (image ss))
  rw [parse]
  simp only [bind_eq_ok, rejectIf_eq_ok_iff, slice_eq_ok_iff, word_eq_ok_iff]
  refine ⟨(), by omega, _, ⟨by omega, by omega, h0⟩, (), by simp, _, ⟨by omega, by omega, h1⟩, (),
    not_not.mpr hversion, _, ⟨by omega, by omega, h2⟩, _, ⟨by omega, by omega, h3⟩, (), by simp, _,
    loop_of_framed (by omega) hbytes hss hdrop, (), not_not.mpr rfl, rfl⟩

lemma parse_eq_ok_iff (hbytes : bytes.length < 2 ^ 63) {c : Container} : parse bytes = .ok c ↔
      Framed c.sections ∧ ∃ version : UInt16, version >>> 8 = 0x01 ∧
        bytes = header version c.sections.length ++ image c.sections := by
  constructor
  · intro h
    have hsafely := parse_safely hbytes
    rw [h] at hsafely
    exact hsafely
  · rintro ⟨hss, version, hversion, rfl⟩
    exact parse_header_append_image hversion hss

end Container

lemma take_append_drop_header (version : UInt16) (n : ℕ) (rest : List UInt8) :
    (header version n ++ rest).take 6 ++ toLe formatVersion ++ (header version n ++ rest).drop 8 =
      header formatVersion n ++ rest := by
  simp [header, length_magic, drop_append, drop_eq_nil_of_le]

lemma slice_header (version : UInt16) (n : ℕ) (rest : List UInt8) :
    Bytes.slice (header version n ++ rest) 6 8 = toLe version :=
  (header_isPrefix_iff.mp (prefix_append _ rest)).2.1

/-- What is pushed is read back, and every accepted image is what pushing its sections again
writes, up to the minor version. -/
theorem container_round_trip :
    (∀ (ss : List Section) (w : ContainerWriter), ContainerWriter.new.pushAll ss = .ok w →
      Container.parse w.finish = .ok ⟨ss⟩) ∧
    ∀ (bytes : Slice) (c : Container), Container.parse bytes = .ok c →
      ∃ w, ContainerWriter.new.pushAll c.sections = .ok w ∧
        w.finish = bytes.val.take 6 ++ toLe formatVersion ++ bytes.val.drop 8 ∧
        (w.finish = bytes.val ↔ Bytes.slice bytes.val 6 8 = toLe formatVersion) := by
  constructor
  · intro ss w hpush
    obtain ⟨hss, rfl⟩ := ContainerWriter.pushAll_new_eq_ok_iff.mp hpush
    rw [ContainerWriter.finish_after]
    exact Container.parse_header_append_image (by decide) hss
  · intro bytes c hparse
    obtain ⟨hss, version, -, hbytes⟩ := (Container.parse_eq_ok_iff bytes.property).mp hparse
    refine ⟨_, ContainerWriter.pushAll_new_eq_ok_iff.mpr ⟨hss, rfl⟩, ?_, ?_⟩
    · rw [ContainerWriter.finish_after, hbytes, take_append_drop_header]
    · rw [ContainerWriter.finish_after, hbytes, slice_header]
      constructor
      · intro hsame
        rw [← slice_header version, ← hsame, slice_header]
      · intro hversion
        rw [toLe_injective hversion]

theorem container_round_trip_two_sections :
    ∃ w, ContainerWriter.new.pushAll [⟨.time, 1, [1, 2, 3]⟩, ⟨.serl, 1, []⟩] = .ok w ∧
      Container.parse w.finish = .ok ⟨[⟨.time, 1, [1, 2, 3]⟩, ⟨.serl, 1, []⟩]⟩ ∧
      ∃ w', ContainerWriter.new.pushAll [⟨.time, 1, [1, 2, 3]⟩, ⟨.serl, 1, []⟩] = .ok w' ∧
        w'.finish = w.finish := by
  have hparse := container_round_trip.1 [⟨.time, 1, [1, 2, 3]⟩, ⟨.serl, 1, []⟩] _ rfl
  obtain ⟨w', hpush, -, hsame⟩ := container_round_trip.2 ⟨_, by decide⟩ _ hparse
  exact ⟨_, rfl, hparse, w', hpush, hsame.mpr rfl⟩

/-- An image of a later minor version is accepted and not reproduced. -/
theorem finish_ne_of_minor_version :
    ∃ (bytes : Slice) (c : Container) (w : ContainerWriter), Container.parse bytes = .ok c ∧
      ContainerWriter.new.pushAll c.sections = .ok w ∧ w.finish ≠ bytes.val := by
  have hversion : (0x0101 : UInt16) >>> 8 = 0x01 := by decide
  have hparse := Container.parse_header_append_image hversion .nil
  exact ⟨⟨_, by decide⟩, _, .new, hparse, rfl, by decide⟩

end DetHypervisor.Dhsnap
