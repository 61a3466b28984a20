import DetHypervisor.Lib.Checked

/-!
# Dirty pages

The ring of written pages is drained at a boundary into a bitmap. An entry is consumed only
after its page is in the bitmap, so no published page is lost.
-/

namespace DetHypervisor.DirtyPages

open Checked List Nat Bool

def pageSize : ℕ := 4096

inductive KvmError where
  | memory (text : String)

def hex (n : ℕ) : String := "0x" ++ String.ofList (Nat.toDigits 16 n)

def mask (b : ℕ) : BitVec 64 := 1#64 <<< b

def bit (bits : List (BitVec 64)) (i : ℕ) : Bool :=
  bits[i / 64]?.any fun word => word &&& mask (i % 64) != 0

structure DirtyPageSet where
  bits : List (BitVec 64)
  pages : ℕ
  setCount : ℕ
  length_bits : bits.length = (pages + 63) / 64
  bit_lt : ∀ i, bit bits i = true → i < pages

variable {bits : List (BitVec 64)} {i : ℕ} {word : BitVec 64}

lemma mask_and_ne_zero_iff {b : ℕ} (hb : b < 64) : word &&& mask b ≠ 0 ↔ word.getLsbD b = true := by
  have hmask : mask b = BitVec.twoPow 64 b := (BitVec.twoPow_eq 64 b).symm
  rw [hmask, BitVec.and_twoPow]
  cases word.getLsbD b with
  | false => simp
  | true =>
    simp only [if_true, ne_eq, iff_true]
    intro hzero
    have hlsb := congrArg (BitVec.getLsbD · b) hzero
    simp [hb] at hlsb

lemma bit_eq_true_iff :
    bit bits i = true ↔ ∃ word, bits[i / 64]? = some word ∧ word.getLsbD (i % 64) = true := by
  have hlt : i % 64 < 64 := mod_lt _ (by omega)
  simp only [bit, Option.any_eq_true, bne_iff_ne, mask_and_ne_zero_iff hlt]

@[simp] lemma bit_replicate (n i : ℕ) : bit (List.replicate n 0#64) i = false := by
  rw [eq_false_iff, Ne, bit_eq_true_iff]
  rintro ⟨word, hword, hset⟩
  have hzero : word = 0#64 := eq_of_mem_replicate (mem_of_getElem? hword)
  rw [hzero, BitVec.getLsbD_zero] at hset
  cases hset

lemma bit_set {j : ℕ} (hword : bits[i / 64]? = some word) :
    bit (bits.set (i / 64) (word ||| mask (i % 64))) j = true ↔ bit bits j = true ∨ j = i := by
  obtain ⟨hlt, -⟩ := List.getElem?_eq_some_iff.mp hword
  rw [bit_eq_true_iff, bit_eq_true_iff]
  by_cases hsame : i / 64 = j / 64
  · rw [← hsame, List.getElem?_set_self hlt, hword]
    have hmask : mask (i % 64) = BitVec.twoPow 64 (i % 64) := (BitVec.twoPow_eq 64 _).symm
    simp only [Option.some.injEq, exists_eq_left', BitVec.getLsbD_or, hmask,
      BitVec.getLsbD_twoPow, Bool.or_eq_true, Bool.and_eq_true, decide_eq_true_iff]
    refine or_congr_right ?_
    omega
  · rw [List.getElem?_set_ne hsame]
    have hne : j ≠ i := by
      rintro rfl
      exact hsame rfl
    simp [hne]

namespace DirtyPageSet

variable {page : ℕ} {s : DirtyPageSet}

def new (memBytes : ℕ) : DirtyPageSet where
  bits := List.replicate (((memBytes + (pageSize - 1)) / pageSize + 63) / 64) 0#64
  pages := (memBytes + (pageSize - 1)) / pageSize
  setCount := 0
  length_bits := List.length_replicate
  bit_lt := by simp

variable (s)

lemma word_lt (h : ¬s.pages ≤ page) : page / 64 < s.bits.length := by
  rw [s.length_bits]
  omega

lemma getElem?_word (h : ¬s.pages ≤ page) :
    s.bits[page / 64]? = some (s.bits.get ⟨page / 64, s.word_lt h⟩) :=
  getElem?_eq_getElem (s.word_lt h)

def insert (page : ℕ) : Except KvmError (Bool × DirtyPageSet) :=
  if h : s.pages ≤ page then
    .error (.memory ("dirty gfn " ++ hex page ++ " beyond guest RAM (" ++ toString s.pages ++
      " pages)"))
  else
    let word := s.bits.get ⟨page / 64, s.word_lt h⟩
    let newly := word &&& mask (page % 64) == 0
    .ok (newly, {
      bits := s.bits.set (page / 64) (word ||| mask (page % 64))
      pages := s.pages
      setCount := s.setCount + newly.toNat
      length_bits := by rw [List.length_set, s.length_bits]
      bit_lt := by
        intro i hi
        obtain hi | rfl := (bit_set (s.getElem?_word h)).mp hi
        · exact s.bit_lt i hi
        · exact not_le.mp h })

def contains (page : ℕ) : Bool := decide (page < s.pages) && bit s.bits page

def clear : DirtyPageSet where
  bits := List.replicate s.bits.length 0#64
  pages := s.pages
  setCount := 0
  length_bits := by rw [List.length_replicate, s.length_bits]
  bit_lt := by simp

def iter : List ℕ :=
  s.bits.zipIdx.flatMap fun word =>
    ((List.range 64).filter fun b => word.1 &&& mask b != 0).map fun b => word.2 * 64 + b

variable {s}

lemma contains_iff : s.contains page = true ↔ bit s.bits page = true := by
  rw [contains, and_eq_true, decide_eq_true_iff]
  exact ⟨And.right, fun h => ⟨s.bit_lt page h, h⟩⟩

lemma mem_iter : page ∈ s.iter ↔ s.contains page = true := by
  rw [contains_iff, bit_eq_true_iff]
  simp only [iter, mem_flatMap, mem_map, mem_filter, mem_range, Prod.exists,
    mem_zipIdx_iff_getElem?, bne_iff_ne]
  constructor
  · rintro ⟨word, w, hword, b, ⟨hb, hset⟩, rfl⟩
    have hdiv : (w * 64 + b) / 64 = w := by omega
    have hmod : (w * 64 + b) % 64 = b := by omega
    rw [hdiv, hmod]
    exact ⟨word, hword, (mask_and_ne_zero_iff hb).mp hset⟩
  · rintro ⟨word, hword, hset⟩
    have hlt : page % 64 < 64 := mod_lt _ (by omega)
    exact ⟨word, page / 64, hword, page % 64, ⟨hlt, (mask_and_ne_zero_iff hlt).mpr hset⟩, by omega⟩

lemma contains_of_insert {s' : DirtyPageSet} {newly : Bool} (h : s.insert page = .ok (newly, s')) :
    s'.contains i = true ↔ s.contains i = true ∨ i = page := by
  rw [insert] at h
  split at h
  · cases h
  · next hlt =>
      cases h
      rw [contains_iff, contains_iff]
      exact bit_set (s.getElem?_word hlt)

@[simp] lemma contains_clear (s : DirtyPageSet) (page : ℕ) : s.clear.contains page = false := by
  rw [eq_false_iff, Ne, contains_iff]
  simp [clear]

end DirtyPageSet

structure DirtyGfn where
  flags : BitVec 32
  slot : ℕ
  offset : ℕ

def gfnDirty : BitVec 32 := 1#32 <<< 0

def gfnReset : BitVec 32 := 1#32 <<< 1

def DirtyGfn.published (e : DirtyGfn) : Bool := e.flags &&& gfnDirty != 0

structure DirtyRing where
  ring : ℕ → DirtyGfn
  nextHarvest : ℕ
  entries : ℕ
  entries_pos : 0 < entries

structure Tracking where
  ring : DirtyRing
  dirty : DirtyPageSet

namespace DirtyRing

def entry (r : DirtyRing) : DirtyGfn := r.ring (r.nextHarvest % r.entries)

def consumed (r : DirtyRing) : DirtyRing :=
  { r with
    ring := Function.update r.ring (r.nextHarvest % r.entries) { r.entry with flags := gfnReset }
    nextHarvest := r.nextHarvest + 1 }

def rearmed (r : DirtyRing) : DirtyRing :=
  { r with
    ring := fun idx =>
      if (r.ring idx).flags = gfnReset then { r.ring idx with flags := 0 } else r.ring idx }

/-- At most `n` published entries from position `k` on, up to the first slot that
is not published. -/
def pendingFrom (r : DirtyRing) : ℕ → ℕ → List DirtyGfn
  | 0, _ => []
  | n + 1, k =>
    if (r.ring (k % r.entries)).published then r.ring (k % r.entries) :: r.pendingFrom n (k + 1)
    else []

def pending (r : DirtyRing) : List DirtyGfn := r.pendingFrom r.entries r.nextHarvest

end DirtyRing

/-- The loop of `harvest_into`; what has been harvested stays so when it fails. -/
def harvestLoop : ℕ → ℕ → Tracking → Exec KvmError ℕ × Tracking
  | 0, _, t => (.error .stuck, t)
  | fuel + 1, harvested, t =>
    let e := t.ring.entry
    if e.published = false then (.ok harvested, t)
    else if e.slot ≠ 0 then
      (reject (.memory ("dirty ring entry for unexpected memslot " ++ hex e.slot ++ " (gfn " ++
        hex e.offset ++ ")")), t)
    else
      match t.dirty.insert e.offset with
      | .error err => (reject err, t)
      | .ok (_, dirty) => harvestLoop fuel (harvested + 1) ⟨t.ring.consumed, dirty⟩

def harvestInto (t : Tracking) : Exec KvmError ℕ × Tracking := harvestLoop (t.ring.entries + 1) 0 t

structure HarvestStats where
  harvested : ℕ
  reset : ℕ

def harvestAtBoundary (reset : Except String ℕ) (t : Tracking) :
    Exec KvmError HarvestStats × Tracking :=
  match harvestInto t with
  | (.error trap, t') => (.error trap, t')
  | (.ok harvested, t') =>
    if harvested = 0 then (.ok ⟨harvested, 0⟩, t')
    else
      match reset with
      | .error text => (reject (.memory ("KVM_RESET_DIRTY_RINGS: " ++ text)), t')
      | .ok n => (.ok ⟨harvested, n⟩, { t' with ring := t'.ring.rearmed })

def Tracking.Holds (t : Tracking) (page : ℕ) : Prop :=
  t.dirty.contains page = true ∨ ∃ e ∈ t.ring.pending, e.slot = 0 ∧ e.offset = page

structure Keeps (t t' : Tracking) : Prop where
  contains : ∀ page, t.dirty.contains page = true → t'.dirty.contains page = true
  holds : ∀ page, t.Holds page → t'.Holds page

lemma Keeps.refl (t : Tracking) : Keeps t t := ⟨fun _ h => h, fun _ h => h⟩

lemma Keeps.trans {t t' t'' : Tracking} (h : Keeps t t') (h' : Keeps t' t'') : Keeps t t'' :=
  ⟨fun page hp => h'.contains page (h.contains page hp),
    fun page hp => h'.holds page (h.holds page hp)⟩

lemma published_reset (e : DirtyGfn) :
    ({ e with flags := gfnReset } : DirtyGfn).published = false := by
  simp only [DirtyGfn.published]
  decide

namespace DirtyRing

variable {r : DirtyRing}

@[simp] lemma entries_consumed : r.consumed.entries = r.entries := rfl

lemma pendingFrom_succ (r : DirtyRing) (n k : ℕ) : r.pendingFrom (n + 1) k =
      if (r.ring (k % r.entries)).published then r.ring (k % r.entries) :: r.pendingFrom n (k + 1)
      else [] := rfl

lemma length_pendingFrom_le (n k : ℕ) : (r.pendingFrom n k).length ≤ n := by
  induction n generalizing k with
  | zero => simp [pendingFrom]
  | succ n ih =>
    rw [pendingFrom]
    split
    · exact succ_le_succ (ih (k + 1))
    · exact zero_le _

/-- From the cursor on, the consumed ring reads as before up to the slot that was
consumed, which comes last and is no longer published. -/
lemma pendingFrom_consumed {m k : ℕ} (hlt : r.nextHarvest < k)
    (hk : k + m = r.nextHarvest + r.entries) :
    r.consumed.pendingFrom (m + 1) k = r.pendingFrom m k := by
  induction m generalizing k with
  | zero =>
    have hidx : k % r.entries = r.nextHarvest % r.entries := by
      rw [← add_mod_right r.nextHarvest, ← hk, add_zero]
    simp [pendingFrom, consumed, hidx, published_reset]
  | succ m ih =>
    have hidx : k % r.entries ≠ r.nextHarvest % r.entries := by
      intro heq
      have hdvd := (modEq_iff_dvd' hlt.le).mp (Nat.ModEq.symm heq)
      have hle := le_of_dvd (by omega) hdvd
      omega
    have hsame : r.consumed.ring (k % r.entries) = r.ring (k % r.entries) :=
      Function.update_of_ne hidx _ _
    have hrest := ih (k := k + 1) (by omega) (by omega)
    rw [pendingFrom_succ r.consumed (m + 1), pendingFrom_succ r m, hrest]
    simp only [entries_consumed, hsame]

lemma pending_eq : r.pending =
    if r.entry.published then r.entry :: r.pendingFrom (r.entries - 1) (r.nextHarvest + 1)
    else [] := by
  have hpos : r.entries = r.entries - 1 + 1 := (Nat.sub_add_cancel r.entries_pos).symm
  rw [pending, hpos, pendingFrom_succ, ← hpos]
  rfl

lemma pending_of_published (h : r.entry.published = true) :
    r.pending = r.entry :: r.consumed.pending := by
  have hpos : r.entries = r.entries - 1 + 1 := (Nat.sub_add_cancel r.entries_pos).symm
  have hlast : r.nextHarvest + 1 + (r.entries - 1) = r.nextHarvest + r.entries := by omega
  have hrest : r.consumed.pendingFrom (r.entries - 1 + 1) (r.nextHarvest + 1) =
      r.pendingFrom (r.entries - 1) (r.nextHarvest + 1) :=
    pendingFrom_consumed (Nat.lt_succ_self _) hlast
  rw [← hpos] at hrest
  rw [pending_eq, if_pos h, ← hrest]
  rfl

lemma pending_of_not_published (h : r.entry.published = false) : r.pending = [] := by
  rw [pending_eq, if_neg (by simp [h])]

end DirtyRing

lemma keeps_consumed {t : Tracking} {dirty : DirtyPageSet} {newly : Bool}
    (hpublished : t.ring.entry.published = true)
    (h : t.dirty.insert t.ring.entry.offset = .ok (newly, dirty)) :
    Keeps t ⟨t.ring.consumed, dirty⟩ := by
  have hcontains (page : ℕ) : dirty.contains page = true ↔
      t.dirty.contains page = true ∨ page = t.ring.entry.offset :=
    DirtyPageSet.contains_of_insert h
  refine ⟨fun page hp => (hcontains page).mpr (.inl hp), ?_⟩
  rintro page (hp | ⟨e, he, hslot, rfl⟩)
  · exact .inl ((hcontains page).mpr (.inl hp))
  · rw [DirtyRing.pending_of_published hpublished] at he
    obtain rfl | he := mem_cons.mp he
    · exact .inl ((hcontains _).mpr (.inr rfl))
    · exact .inr ⟨e, he, hslot, rfl⟩

lemma harvestLoop_spec {fuel harvested : ℕ} {t : Tracking} (hfuel : t.ring.pending.length < fuel) :
    Keeps t (harvestLoop fuel harvested t).2 ∧
      Safely (fun _ => (harvestLoop fuel harvested t).2.ring.pending = [])
        (harvestLoop fuel harvested t).1 := by
  induction fuel generalizing harvested t with
  | zero => omega
  | succ fuel ih =>
    rw [harvestLoop]
    by_cases hpublished : t.ring.entry.published = false
    · rw [if_pos hpublished]
      exact ⟨.refl t, DirtyRing.pending_of_not_published hpublished⟩
    · rw [if_neg hpublished]
      rw [not_eq_false] at hpublished
      by_cases hslot : t.ring.entry.slot ≠ 0
      · rw [if_pos hslot]
        exact ⟨.refl t, _, rfl⟩
      · rw [if_neg hslot]
        cases hinsert : t.dirty.insert t.ring.entry.offset with
        | error err => exact ⟨.refl t, _, rfl⟩
        | ok inserted =>
          have hkeeps := keeps_consumed hpublished hinsert
          rw [DirtyRing.pending_of_published hpublished, length_cons] at hfuel
          have hshorter : t.ring.consumed.pending.length < fuel :=
            lt_of_succ_lt_succ hfuel
          have hrest := @ih (harvested + 1) ⟨t.ring.consumed, inserted.2⟩ hshorter
          exact ⟨hkeeps.trans hrest.1, hrest.2⟩

lemma harvestInto_spec (t : Tracking) : Keeps t (harvestInto t).2 ∧
      Safely (fun _ => (harvestInto t).2.ring.pending = []) (harvestInto t).1 :=
  harvestLoop_spec (lt_succ_of_le (DirtyRing.length_pendingFrom_le _ _))

lemma harvestAtBoundary_spec (reset : Except String ℕ) (t : Tracking) :
    Keeps t (harvestAtBoundary reset t).2 ∧ Safely (fun _ => ∀ page, t.Holds page →
        (harvestAtBoundary reset t).2.dirty.contains page = true)
        (harvestAtBoundary reset t).1 := by
  obtain ⟨hkeeps, hsafely⟩ := harvestInto_spec t
  rw [harvestAtBoundary]
  generalize harvestInto t = result at hkeeps hsafely
  obtain ⟨outcome, t'⟩ := result
  cases outcome with
  | error trap => exact ⟨hkeeps, hsafely⟩
  | ok harvested =>
    have hempty : t'.ring.pending = [] := hsafely
    have hinSet : ∀ page, t.Holds page → t'.dirty.contains page = true := by
      intro page hp
      obtain hp | ⟨e, he, -⟩ := hkeeps.holds page hp
      · exact hp
      · rw [hempty] at he
        cases he
    by_cases hzero : harvested = 0
    · simp only [if_pos hzero]
      exact ⟨hkeeps, hinSet⟩
    · simp only [if_neg hzero]
      cases reset with
      | error text => exact ⟨hkeeps, _, rfl⟩
      | ok n => exact ⟨⟨hkeeps.contains, fun page hp => .inl (hinSet page hp)⟩, hinSet⟩

end DetHypervisor.DirtyPages
