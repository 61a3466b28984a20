import DetHypervisor.DirtyPages
import DetHypervisor.Lib.Traced

/-!
# The dirty ring as a queue

The vCPU publishes entries into free slots of the ring, the harvest loop consumes them, a reset
frees their slots; all in any order. The positions are free-running, and one revolution of slots
is all there is to the ring.
-/

namespace DetHypervisor.DirtyPages

open Checked List Function Nat DirtyPageSet

namespace DirtyPageSet

variable {page : ℕ} {s : DirtyPageSet}

def len (s : DirtyPageSet) : ℕ := s.setCount

def isEmpty (s : DirtyPageSet) : Bool := s.setCount == 0

lemma pairwise_iter (s : DirtyPageSet) : s.iter.Pairwise (· < ·) := by
  rw [iter, pairwise_flatMap]
  constructor
  · intro word _
    refine pairwise_map.mpr (List.Pairwise.filter _ ?_)
    exact pairwise_lt_range.imp fun h => Nat.add_lt_add_left h _
  · have hidx : s.bits.zipIdx.Pairwise fun word word' => word.2 < word'.2 := by
      rw [← pairwise_map (f := Prod.snd) (R := (· < ·)), zipIdx_map_snd]
      exact pairwise_lt_range'
    refine hidx.imp fun {word word'} h => ?_
    simp only [mem_map, mem_filter, mem_range]
    rintro _ ⟨b, ⟨hb, -⟩, rfl⟩ _ ⟨b', ⟨hb', -⟩, rfl⟩
    omega

def toFinset (s : DirtyPageSet) : Finset ℕ := s.iter.toFinset

@[simp] lemma mem_toFinset : page ∈ s.toFinset ↔ s.contains page = true := by
  rw [toFinset, List.mem_toFinset, mem_iter]

def Counted (s : DirtyPageSet) : Prop := s.len = s.toFinset.card

lemma counted_new (memBytes : ℕ) : (new memBytes).Counted := by
  have hempty : (new memBytes).toFinset = ∅ := by
    ext page
    rw [mem_toFinset, contains_iff]
    simp [new]
  rw [Counted, hempty]
  rfl

lemma toFinset_clear (s : DirtyPageSet) : s.clear.toFinset = ∅ := by
  ext page
  simp

lemma counted_clear (s : DirtyPageSet) : s.clear.Counted := by
  rw [Counted, toFinset_clear]
  rfl

lemma insert_eq_ok (h : page < s.pages) :
    ∃ s', s.insert page = .ok (!s.contains page, s') ∧ s'.pages = s.pages ∧
      s'.toFinset = Insert.insert page s.toFinset ∧
      s'.setCount = s.setCount + (!s.contains page).toNat := by
  have hlt : ¬s.pages ≤ page := by omega
  have hnewly : (s.bits.get ⟨page / 64, s.word_lt hlt⟩ &&& mask (page % 64) == 0) =
      !s.contains page := by
    rw [contains, decide_eq_true h, Bool.true_and, bit, s.getElem?_word hlt, Option.any_some,
      bne, Bool.not_not]
  have hinsert : ∃ s', s.insert page = .ok (!s.contains page, s') ∧ s'.pages = s.pages ∧
      s'.setCount = s.setCount + (!s.contains page).toNat := by
    rw [insert, dif_neg hlt, ← hnewly]
    exact ⟨_, rfl, rfl, rfl⟩
  obtain ⟨s', hs', hpages, hcount⟩ := hinsert
  refine ⟨s', hs', hpages, ?_, hcount⟩
  ext i
  rw [mem_toFinset, contains_of_insert hs', Finset.mem_insert, mem_toFinset, or_comm]

lemma insert_eq_error (h : s.pages ≤ page) : ∃ e, s.insert page = .error e := by
  rw [insert, dif_pos h]
  exact ⟨_, rfl⟩

lemma Counted.insert {s' : DirtyPageSet} {newly : Bool} (h : s.Counted)
    (hinsert : s.insert page = .ok (newly, s')) : s'.Counted := by
  by_cases hpage : page < s.pages
  · obtain ⟨t, ht, -, hset, hcount⟩ := insert_eq_ok hpage
    cases hinsert.symm.trans ht
    rw [Counted, len, hcount, hset]
    cases hmem : s.contains page with
    | true =>
      rw [Finset.insert_eq_of_mem (mem_toFinset.mpr hmem)]
      exact h
    | false =>
      rw [Finset.card_insert_of_notMem (by simp [hmem])]
      exact congrArg (· + 1) h
  · obtain ⟨e, he⟩ := insert_eq_error (not_lt.mp hpage)
    cases hinsert.symm.trans he

end DirtyPageSet

inductive SetCall where
  | insert (page : ℕ)
  | clear

/-- The set after a call; an insertion that fails has changed nothing. -/
def SetCall.perform (s : DirtyPageSet) : SetCall → DirtyPageSet
  | .insert page =>
    match s.insert page with
    | .ok (_, s') => s'
    | .error _ => s
  | .clear => s.clear

def SetCall.specify (pages : ℕ) (S : Finset ℕ) : SetCall → Finset ℕ
  | .insert page => if page < pages then Insert.insert page S else S
  | .clear => ∅

structure Refines (pages : ℕ) (s : DirtyPageSet) (S : Finset ℕ) : Prop where
  pages_eq : s.pages = pages
  toFinset_eq : s.toFinset = S
  counted : s.Counted

variable {S : Finset ℕ} {entries pages : ℕ} {s : DirtyPageSet}

lemma Refines.perform (h : Refines pages s S) (call : SetCall) :
    Refines pages (call.perform s) (call.specify pages S) := by
  cases call with
  | clear => exact ⟨h.pages_eq, s.toFinset_clear, s.counted_clear⟩
  | insert page =>
    rw [SetCall.perform, SetCall.specify]
    by_cases hpage : page < s.pages
    · obtain ⟨s', hs', hpages, hset, -⟩ := insert_eq_ok hpage
      rw [hs', if_pos (h.pages_eq ▸ hpage)]
      exact ⟨hpages.trans h.pages_eq, hset.trans (h.toFinset_eq ▸ rfl), h.counted.insert hs'⟩
    · obtain ⟨e, he⟩ := insert_eq_error (not_lt.mp hpage)
      rw [he, if_neg (h.pages_eq ▸ hpage)]
      exact h

lemma Refines.run (memBytes : ℕ) (calls : List SetCall) :
    Refines (DirtyPageSet.new memBytes).pages (calls.foldl SetCall.perform (.new memBytes))
      (calls.foldl (SetCall.specify (DirtyPageSet.new memBytes).pages) ∅) := by
  induction calls using reverseRecOn with
  | nil =>
    refine ⟨rfl, ?_, counted_new memBytes⟩
    ext page
    rw [mem_toFinset, contains_iff]
    simp [DirtyPageSet.new]
  | append_singleton calls call ih =>
    simp only [foldl_append, foldl_cons, foldl_nil]
    exact ih.perform call

inductive Turn where
  | empty
  | failed (e : KvmError)
  | consumed (page : ℕ)

def turn (t : Tracking) : Turn × Tracking :=
  if t.ring.entry.published = false then (.empty, t)
  else if t.ring.entry.slot ≠ 0 then
    (.failed (.memory ("dirty ring entry for unexpected memslot " ++ hex t.ring.entry.slot ++
      " (gfn " ++ hex t.ring.entry.offset ++ ")")), t)
  else
    match t.dirty.insert t.ring.entry.offset with
    | .error e => (.failed e, t)
    | .ok (_, dirty) => (.consumed t.ring.entry.offset, ⟨t.ring.consumed, dirty⟩)

lemma turn_cases (t : Tracking) : (turn t = (.empty, t) ∧ t.ring.entry.published = false) ∨
    (∃ e, turn t = (.failed e, t) ∧ t.ring.entry.published = true) ∨
    ∃ newly dirty, turn t = (.consumed t.ring.entry.offset, ⟨t.ring.consumed, dirty⟩) ∧
      t.ring.entry.published = true ∧ t.dirty.insert t.ring.entry.offset = .ok (newly, dirty) := by
  rw [turn]
  by_cases hpublished : t.ring.entry.published = false
  · exact .inl ⟨if_pos hpublished, hpublished⟩
  · rw [if_neg hpublished]
    rw [Bool.not_eq_false] at hpublished
    by_cases hslot : t.ring.entry.slot ≠ 0
    · exact .inr (.inl ⟨_, if_pos hslot, hpublished⟩)
    · rw [if_neg hslot]
      cases hinsert : t.dirty.insert t.ring.entry.offset with
      | error e => exact .inr (.inl ⟨e, rfl, hpublished⟩)
      | ok inserted => exact .inr (.inr ⟨inserted.1, inserted.2, rfl, hpublished, rfl⟩)

lemma harvestLoop_succ (fuel harvested : ℕ) (t : Tracking) :
    harvestLoop (fuel + 1) harvested t =
      match turn t with
      | (.empty, t') => (.ok harvested, t')
      | (.failed e, t') => (reject e, t')
      | (.consumed _, t') => harvestLoop fuel (harvested + 1) t' := by
  rw [harvestLoop, turn]
  split
  · rfl
  · split
    · rfl
    · cases t.dirty.insert t.ring.entry.offset with
      | error | ok => rfl

structure Gfn where
  slot : ℕ
  offset : ℕ

inductive Event where
  | publish (gfn : Gfn)
  | turn (found : Turn)
  | reset
  | clear

structure Machine where
  tracking : Tracking
  produced : ℕ

def DirtyRing.publish (r : DirtyRing) (k : ℕ) (gfn : Gfn) : DirtyRing :=
  { r with ring := Function.update r.ring (k % r.entries) ⟨gfnDirty, gfn.slot, gfn.offset⟩ }

def DirtyRing.Free (r : DirtyRing) (k : ℕ) : Prop := (r.ring (k % r.entries)).flags = 0

inductive Step : Event → Machine → Machine → Prop
  | publish {m : Machine} (gfn : Gfn) (hfree : m.tracking.ring.Free m.produced) :
      Step (.publish gfn) m
        ⟨⟨m.tracking.ring.publish m.produced gfn, m.tracking.dirty⟩, m.produced + 1⟩
  | turn (m : Machine) :
      Step (.turn (turn m.tracking).1) m ⟨(turn m.tracking).2, m.produced⟩
  | reset (m : Machine) : Step .reset m ⟨⟨m.tracking.ring.rearmed, m.tracking.dirty⟩, m.produced⟩
  | clear (m : Machine) : Step .clear m ⟨⟨m.tracking.ring, m.tracking.dirty.clear⟩, m.produced⟩

def Machine.fresh (entries : ℕ) (hpos : 0 < entries) (memBytes : ℕ) : Machine :=
  ⟨⟨⟨fun _ => ⟨0, 0, 0⟩, 0, entries, hpos⟩, .new memBytes⟩, 0⟩

def Event.published : Event → Option Gfn
  | .publish gfn => some gfn
  | _ => none

def Event.harvested : Event → Option ℕ
  | .turn (.consumed page) => some page
  | _ => none

def published (events : List Event) : List Gfn := events.filterMap Event.published

def harvested (events : List Event) : List ℕ := events.filterMap Event.harvested

def Event.keep (S : Finset ℕ) : Event → Finset ℕ
  | .clear => ∅
  | .turn (.consumed page) => insert page S
  | _ => S

variable (events : List Event) (events' : List Event)

def keptPages : Finset ℕ := events.foldl Event.keep ∅

@[simp] lemma published_append :
    published (events ++ events') = published events ++ published events' := filterMap_append

@[simp] lemma harvested_append :
    harvested (events ++ events') = harvested events ++ harvested events' := filterMap_append

lemma published_snoc (event : Event) (h : event.published = none) :
    published (events ++ [event]) = published events := by
  rw [published_append, published, published, filterMap_cons_none h]
  exact append_nil _

lemma harvested_snoc {event : Event} (h : event.harvested = none) :
    harvested (events ++ [event]) = harvested events := by
  rw [harvested_append, harvested, harvested, filterMap_cons_none h]
  exact append_nil _

lemma keptPages_snoc (event : Event) :
    keptPages (events ++ [event]) = event.keep (keptPages events) := by
  rw [keptPages, foldl_append]
  rfl

lemma keptPages_eq_toFinset {events : List Event} (h : Event.clear ∉ events) :
    keptPages events = (harvested events).toFinset := by
  induction events using reverseRecOn with
  | nil => rfl
  | append_singleton events event ih =>
    rw [mem_append, mem_singleton, not_or] at h
    rw [keptPages_snoc, ih h.1, harvested_append, toFinset_append]
    cases event with
    | publish | reset => exact (Finset.union_empty _).symm
    | clear => exact absurd rfl h.2
    | turn found =>
      cases found with
      | empty | failed => exact (Finset.union_empty _).symm
      | consumed page =>
        change insert page _ = _ ∪ {page}
        rw [Finset.insert_eq, Finset.union_comm]

/-- One revolution of the ring from position `freed` on: slots to be re-armed, then
entries to be harvested, then free slots. -/
structure Window (r : DirtyRing) (freed : ℕ) (gfns : List Gfn) : Prop where
  freed_le : freed ≤ r.nextHarvest
  harvested_le : r.nextHarvest ≤ gfns.length
  produced_le : gfns.length ≤ freed + r.entries
  marked : ∀ i, freed ≤ i → i < r.nextHarvest → (r.ring (i % r.entries)).flags = gfnReset
  waiting : ∀ i gfn, r.nextHarvest ≤ i → gfns[i]? = some gfn →
    r.ring (i % r.entries) = ⟨gfnDirty, gfn.slot, gfn.offset⟩
  free : ∀ i, gfns.length ≤ i → i < freed + r.entries → r.Free i

lemma mod_inj {n freed i j : ℕ} (hi : freed ≤ i) (hi' : i < freed + n) (hj : freed ≤ j)
    (hj' : j < freed + n) (h : i % n = j % n) : i = j :=
  mod_injOn_Ico freed n (Finset.mem_coe.mpr (Finset.mem_Ico.mpr ⟨hi, hi'⟩))
    (Finset.mem_coe.mpr (Finset.mem_Ico.mpr ⟨hj, hj'⟩)) h

namespace Window

variable {r : DirtyRing} {freed : ℕ} {gfns : List Gfn}

variable (h : Window r freed gfns)
include h

lemma produced_lt (hfree : r.Free gfns.length) : gfns.length < freed + r.entries := by
  have hpos := r.entries_pos
  by_contra hnot
  have hfull : gfns.length = freed + r.entries := by
    have := h.produced_le
    omega
  have hslot : gfns.length % r.entries = freed % r.entries := by rw [hfull, add_mod_right]
  rw [DirtyRing.Free, hslot] at hfree
  by_cases hmarked : freed < r.nextHarvest
  · rw [h.marked freed le_rfl hmarked] at hfree
    exact absurd hfree (by decide)
  · have hlt : freed < gfns.length := by omega
    rw [h.waiting freed _ (not_lt.mp hmarked) (getElem?_eq_getElem hlt)] at hfree
    have hflags : gfnDirty = 0 := hfree
    exact absurd hflags (by decide)

lemma published_iff : r.entry.published = true ↔ r.nextHarvest < gfns.length := by
  have hpos := r.entries_pos
  constructor
  · intro hpublished
    by_contra hnot
    have hend : r.nextHarvest = gfns.length := le_antisymm h.harvested_le (not_lt.mp hnot)
    rw [DirtyRing.entry] at hpublished
    by_cases hfree : r.nextHarvest < freed + r.entries
    · have hflags := h.free r.nextHarvest hend.ge hfree
      rw [DirtyRing.Free] at hflags
      simp [DirtyGfn.published, hflags] at hpublished
    · have hfull : r.nextHarvest = freed + r.entries := by
        have := h.produced_le
        omega
      have hflags := h.marked freed le_rfl (by omega)
      rw [hfull, add_mod_right] at hpublished
      simp [DirtyGfn.published, hflags, gfnReset, gfnDirty] at hpublished
  · intro hlt
    rw [DirtyRing.entry, h.waiting _ _ le_rfl (getElem?_eq_getElem hlt)]
    simp [DirtyGfn.published, gfnDirty]

lemma publish (gfn : Gfn) (hfree : r.Free gfns.length) :
    Window (r.publish gfns.length gfn) freed (gfns ++ [gfn]) := by
  have hlt := h.produced_lt hfree
  have hother {i : ℕ} (hi : freed ≤ i) (hi' : i < freed + r.entries) (hne : i ≠ gfns.length) :
      (r.publish gfns.length gfn).ring (i % r.entries) = r.ring (i % r.entries) := by
    apply update_of_ne
    intro hslot
    exact hne (mod_inj hi hi' (h.freed_le.trans h.harvested_le) hlt hslot)
  have hharvested := h.harvested_le
  refine ⟨h.freed_le, ?_, ?_, ?_, ?_, ?_⟩
  · exact hharvested.trans (by simp)
  · rw [length_append, length_singleton]
    exact hlt
  · intro i hi hi'
    have hi' : i < r.nextHarvest := hi'
    exact (congrArg DirtyGfn.flags (hother hi (by omega) (by omega))).trans (h.marked i hi hi')
  · intro i g hi hg
    have hi : r.nextHarvest ≤ i := hi
    obtain hi' | hi' := lt_or_ge i gfns.length
    · rw [getElem?_append_left hi'] at hg
      exact (hother (h.freed_le.trans hi) (by omega) (by omega)).trans (h.waiting i g hi hg)
    · rw [getElem?_append_right hi', getElem?_singleton] at hg
      split at hg
      · next hzero =>
          cases hg
          have hi : i = gfns.length := by omega
          rw [hi]
          exact update_self _ _ _
      · cases hg
  · intro i hi hi'
    have hi' : i < freed + r.entries := hi'
    have hfreed := h.freed_le
    rw [length_append, length_singleton] at hi
    have hsame := hother (i := i) (by omega) hi' (by omega)
    exact (congrArg DirtyGfn.flags hsame).trans (h.free i (by omega) hi')

lemma consumed (hlt : r.nextHarvest < gfns.length) : Window r.consumed freed gfns := by
  have hproduced := h.produced_le
  have hother {i : ℕ} (hi : freed ≤ i) (hi' : i < freed + r.entries) (hne : i ≠ r.nextHarvest) :
      r.consumed.ring (i % r.entries) = r.ring (i % r.entries) := by
    apply update_of_ne
    intro hslot
    exact hne (mod_inj hi hi' h.freed_le (by omega) hslot)
  refine ⟨h.freed_le.trans (Nat.le_succ _), hlt, hproduced, ?_, ?_, ?_⟩
  · intro i hi hi'
    have hi' : i < r.nextHarvest + 1 := hi'
    by_cases hsame : i = r.nextHarvest
    · rw [hsame]
      exact congrArg DirtyGfn.flags
        (update_self (r.nextHarvest % r.entries) { r.entry with flags := gfnReset } r.ring)
    · exact (congrArg DirtyGfn.flags (hother hi (by omega) hsame)).trans
        (h.marked i hi (by omega))
  · intro i gfn hi hgfn
    have hi : r.nextHarvest + 1 ≤ i := hi
    obtain ⟨hi', -⟩ := List.getElem?_eq_some_iff.mp hgfn
    have hfreed := h.freed_le
    exact (hother (by omega) (by omega) (by omega)).trans (h.waiting i gfn (by omega) hgfn)
  · intro i hi hi'
    have hfreed := h.freed_le
    exact (congrArg DirtyGfn.flags (hother (i := i) (by omega) hi' (by omega))).trans
      (h.free i hi hi')

lemma rearmed : Window r.rearmed r.nextHarvest gfns := by
  have hfreed := h.freed_le
  have hproduced := h.produced_le
  refine ⟨le_rfl, h.harvested_le, by
    change gfns.length ≤ r.nextHarvest + r.entries
    omega, fun i hi hi' => absurd hi' (not_lt.mpr hi), ?_, ?_⟩
  · intro i gfn hi hgfn
    have hentry := h.waiting i gfn hi hgfn
    have hflags : (r.ring (i % r.entries)).flags ≠ gfnReset := by
      rw [hentry]
      change gfnDirty ≠ gfnReset
      decide
    exact (if_neg hflags).trans hentry
  · intro i hi hi'
    have hi' : i < r.nextHarvest + r.entries := hi'
    have hcleared {e : DirtyGfn} (hflags : e.flags = 0 ∨ e.flags = gfnReset) :
        (if e.flags = gfnReset then { e with flags := 0 } else e).flags = 0 := by
      split
      · rfl
      · next hne => exact hflags.resolve_right hne
    refine hcleared (e := r.ring (i % r.entries)) ?_
    obtain hnear | hfar := lt_or_ge i (freed + r.entries)
    · exact .inl (h.free i hi hnear)
    · have hback : i % r.entries = (i - r.entries) % r.entries :=
        mod_eq_sub_mod (by omega)
      rw [hback]
      exact .inr (h.marked _ (by omega) (by omega))

end Window

/-- The cursor has passed the harvested entries, and will find the other published ones, in
order. -/
structure Aligned (entries : ℕ) (events : List Event) (m : Machine) : Prop where
  entries_eq : m.tracking.ring.entries = entries
  produced_eq : m.produced = (published events).length
  window : ∃ freed, Window m.tracking.ring freed (published events)
  harvested_eq : harvested events =
    ((published events).take m.tracking.ring.nextHarvest).map Gfn.offset
  kept_eq : m.tracking.dirty.toFinset = keptPages events
  counted : m.tracking.dirty.Counted

lemma aligned_fresh (entries : ℕ) (hpos : 0 < entries) (memBytes : ℕ) :
    Aligned entries [] (.fresh entries hpos memBytes) := by
  have hempty : (DirtyPageSet.new memBytes).toFinset = ∅ := (Refines.run memBytes []).toFinset_eq
  refine ⟨rfl, rfl, ⟨0, le_rfl, le_rfl, zero_le _, ?_, ?_, ?_⟩, rfl, hempty, counted_new memBytes⟩
  · intro i _ hi
    exact absurd hi (not_lt_zero i)
  · intro i gfn _ hgfn
    cases hgfn
  · intro i _ _
    rfl

namespace Aligned

variable {events : List Event} {m : Machine}

lemma turn (h : Aligned entries events m) :
    Aligned entries (events ++ [.turn (DirtyPages.turn m.tracking).1])
      ⟨(DirtyPages.turn m.tracking).2, m.produced⟩ := by
  obtain ⟨freed, hwindow⟩ := h.window
  -- Turns publish nothing; those that find nothing, or fail, change nothing.
  have hidle (found : Turn) (hfound : (Event.turn found).harvested = none)
      (hkeep : ∀ S, (Event.turn found).keep S = S) :
      Aligned entries (events ++ [.turn found]) m := by
    have hpublished := published_snoc events (.turn found) rfl
    refine ⟨h.entries_eq, ?_, ⟨freed, ?_⟩, ?_, ?_, h.counted⟩
    · rw [hpublished, h.produced_eq]
    · rwa [hpublished]
    · rw [hpublished, harvested_snoc events hfound, h.harvested_eq]
    · rw [keptPages_snoc, hkeep, h.kept_eq]
  obtain ⟨hturn, -⟩ | ⟨e, hturn, -⟩ | ⟨newly, dirty, hturn, hpublished, hinsert⟩ :=
    turn_cases m.tracking
  · rw [hturn]
    exact hidle .empty rfl fun _ => rfl
  · rw [hturn]
    exact hidle (.failed e) rfl fun _ => rfl
  · rw [hturn]
    have hlt := hwindow.published_iff.mp hpublished
    have hentry : m.tracking.ring.entry.offset = ((published events).get ⟨_, hlt⟩).offset :=
      congrArg DirtyGfn.offset (hwindow.waiting _ _ le_rfl (getElem?_eq_getElem hlt))
    have hsame := published_snoc events
      (.turn (.consumed m.tracking.ring.entry.offset)) rfl
    refine ⟨h.entries_eq, ?_, ?_, ?_, ?_, h.counted.insert hinsert⟩
    · rw [hsame]
      exact h.produced_eq
    · rw [hsame]
      exact ⟨freed, hwindow.consumed hlt⟩
    · rw [hsame, harvested_append, h.harvested_eq]
      change _ ++ [m.tracking.ring.entry.offset] = ((published events).take (_ + 1)).map _
      rw [take_succ_eq_append_getElem hlt, map_append, hentry]
      rfl
    · rw [keptPages_snoc, ← h.kept_eq]
      ext page
      rw [mem_toFinset, contains_of_insert hinsert]
      change _ ↔ page ∈ insert m.tracking.ring.entry.offset m.tracking.dirty.toFinset
      rw [Finset.mem_insert, mem_toFinset, or_comm]

lemma step {event : Event} {m' : Machine} (h : Aligned entries events m)
    (hstep : Step event m m') : Aligned entries (events ++ [event]) m' := by
  obtain ⟨freed, hwindow⟩ := h.window
  cases hstep with
  | turn => exact h.turn
  | publish gfn hfree =>
    rw [h.produced_eq] at hfree
    have hpublished : published (events ++ [.publish gfn]) = published events ++ [gfn] :=
      published_append events _
    refine ⟨h.entries_eq, ?_, ⟨freed, ?_⟩, ?_, ?_, h.counted⟩
    · rw [hpublished, length_append, h.produced_eq]
      rfl
    · rw [hpublished, h.produced_eq]
      exact hwindow.publish gfn hfree
    · rw [hpublished, harvested_snoc events rfl, h.harvested_eq]
      exact congrArg (List.map Gfn.offset)
        (take_append_of_le_length hwindow.harvested_le).symm
    · rw [keptPages_snoc]
      exact h.kept_eq
  | reset =>
    have hpublished := published_snoc events .reset rfl
    refine ⟨h.entries_eq, ?_, ⟨m.tracking.ring.nextHarvest, ?_⟩, ?_, ?_, h.counted⟩
    · rw [hpublished]
      exact h.produced_eq
    · rw [hpublished]
      exact hwindow.rearmed
    · rw [hpublished, harvested_snoc events rfl]
      exact h.harvested_eq
    · rw [keptPages_snoc]
      exact h.kept_eq
  | clear =>
    have hpublished := published_snoc events .clear rfl
    refine ⟨h.entries_eq, ?_, ⟨freed, ?_⟩, ?_, ?_, counted_clear _⟩
    · rw [hpublished]
      exact h.produced_eq
    · rw [hpublished]
      exact hwindow
    · rw [hpublished, harvested_snoc events rfl]
      exact h.harvested_eq
    · rw [keptPages_snoc]
      exact toFinset_clear _

end Aligned

lemma aligned_run {hpos : 0 < entries} {memBytes : ℕ} {events : List Event} {m : Machine}
    (h : Traced Step events (.fresh entries hpos memBytes) m) : Aligned entries events m :=
  h.induct (I := Aligned entries) (aligned_fresh entries hpos memBytes) fun _ hI hl => hI.step hl

lemma Aligned.length_harvested {events : List Event} {m : Machine}
    (h : Aligned entries events m) : (harvested events).length = m.tracking.ring.nextHarvest := by
  obtain ⟨freed, hwindow⟩ := h.window
  rw [h.harvested_eq, length_map, length_take]
  exact min_eq_left hwindow.harvested_le

lemma Aligned.harvested_of_empty {events : List Event} {m : Machine}
    (h : Aligned entries events m) (hempty : (DirtyPages.turn m.tracking).1 = .empty) :
    harvested events = (published events).map Gfn.offset := by
  obtain ⟨freed, hwindow⟩ := h.window
  have hunpublished : m.tracking.ring.entry.published = false := by
    obtain ⟨-, hentry⟩ | ⟨e, hturn, -⟩ | ⟨newly, dirty, hturn, -⟩ := turn_cases m.tracking
    · exact hentry
    · rw [hturn] at hempty
      cases hempty
    · rw [hturn] at hempty
      cases hempty
  have hend : (published events).length ≤ m.tracking.ring.nextHarvest := by
    by_contra hlt
    rw [hwindow.published_iff.mpr (not_le.mp hlt)] at hunpublished
    cases hunpublished
  rw [h.harvested_eq, take_of_length_le hend]

lemma harvestLoop_traced (fuel harvested produced : ℕ) (t : Tracking) : ∃ founds : List Turn,
      Traced Step (founds.map .turn) ⟨t, produced⟩ ⟨(harvestLoop fuel harvested t).2, produced⟩ ∧
      ∀ n, (harvestLoop fuel harvested t).1 = .ok n →
        ∃ pages : List ℕ, founds = pages.map .consumed ++ [.empty] ∧
          n = harvested + pages.length := by
  induction fuel generalizing harvested t with
  | zero => exact ⟨[], .nil _, nofun⟩
  | succ fuel ih =>
    have hstep := Step.turn ⟨t, produced⟩
    rw [harvestLoop_succ]
    obtain ⟨hturn, -⟩ | ⟨e, hturn, -⟩ | ⟨newly, dirty, hturn, -⟩ := turn_cases t
    · simp only [hturn] at hstep ⊢
      refine ⟨[.empty], .single hstep, ?_⟩
      rintro n ⟨⟩
      exact ⟨[], rfl, rfl⟩
    · simp only [hturn] at hstep ⊢
      exact ⟨[.failed e], .single hstep, nofun⟩
    · simp only [hturn] at hstep ⊢
      obtain ⟨founds, hfounds, hok⟩ := ih (harvested + 1) ⟨t.ring.consumed, dirty⟩
      refine ⟨.consumed t.ring.entry.offset :: founds, .cons hstep hfounds, ?_⟩
      intro n hn
      obtain ⟨pages, rfl, rfl⟩ := hok n hn
      refine ⟨t.ring.entry.offset :: pages, rfl, ?_⟩
      rw [length_cons]
      omega

structure DirtyPageSet.BehavesAs (s : DirtyPageSet) (S : Finset ℕ) : Prop where
  ascending : s.iter.Pairwise (· < ·)
  mem_iter : ∀ page, page ∈ s.iter ↔ page ∈ S
  contains_iff : ∀ page, s.contains page = true ↔ page ∈ S
  len_eq : s.len = S.card
  isEmpty_iff : s.isEmpty = true ↔ S = ∅
  insert_lt : ∀ page, page < s.pages →
    ∃ s', s.insert page = .ok (decide (page ∉ S), s') ∧ s'.toFinset = Insert.insert page S
  insert_ge : ∀ page, s.pages ≤ page → ∃ e, s.insert page = .error e

lemma Refines.behavesAs (h : Refines pages s S) : s.BehavesAs S := by
  obtain ⟨-, rfl, hcounted⟩ := h
  refine ⟨s.pairwise_iter, fun page => mem_toFinset.symm,
    fun page => mem_toFinset.symm, hcounted, ?_, ?_, fun page =>
    insert_eq_error⟩
  · rw [DirtyPageSet.isEmpty, beq_iff_eq, ← Finset.card_eq_zero, ← hcounted]
    rfl
  · intro page hpage
    obtain ⟨s', hs', -, hset, -⟩ := insert_eq_ok hpage
    refine ⟨s', hs'.trans ?_, hset⟩
    simp

lemma Step.turn_of_eq {m : Machine} {found : Turn} {t : Tracking}
    (h : DirtyPages.turn m.tracking = (found, t)) : Step (.turn found) m ⟨t, m.produced⟩ := by
  have hstep := Step.turn m
  rwa [h] at hstep

end DetHypervisor.DirtyPages
