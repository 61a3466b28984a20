import DetHypervisor.DirtyPages
import DetHypervisor.Lib.Traced
import DetHypervisor.Slots

/-!
# Incremental snapshots

An incremental snapshot ships the pages that differ from the parent snapshot. The dirty set is
cleared only when the store has acknowledged it, so that a failed attempt can be made again.
-/

namespace DetHypervisor.DeltaShipping

open Checked DirtyPages List Except Function

abbrev Page := List.Vector UInt8 pageSize

abbrev PageHash := List.Vector UInt8 32

inductive EngineError where
  | agendaNotEmpty
  | notPaused (state : SlotState)
  | kvm (text : String)
  | codec (text : String)
  | store (text : String)

/-- A device on the bus: its id and its `guest_ram_snapshot_ranges`, as pairs of
address and length. -/
structure Device where
  deviceId : ℕ
  ranges : List (ℕ × ℕ)

structure Put (R : Type) where
  parent : Option R
  memBytes : ℕ
  pages : List (ℕ × Page)
  dhsnap : List UInt8
  ref : R

structure TakeSnapshotOutcome (R : Type) where
  snapshotRef : R
  pagesShipped : ℕ
  hashChain : PageHash

/-- What one attempt is given, and what it is told by KVM, guest memory and the
store. -/
structure Attempt (R : Type) where
  slotState : SlotState
  agendaEmpty : Bool
  hashChain : PageHash
  bus : List Device
  readSlice : ℕ → Except String Page
  resetDirtyRings : Except String ℕ
  resolvePages : R → Except String (List (ℕ × PageHash))
  buildDhsnap : Except EngineError (List UInt8)
  putSnapshot : Option R → ℕ → List (ℕ × Page) → List UInt8 → Except String R

inductive PageSource (R : Type) where
  | full
  | incremental (parent : R)

/-- How an attempt ends, and the tracking and the acknowledgement it leaves. -/
structure Taken (R : Type) where
  result : Exec EngineError (TakeSnapshotOutcome R)
  tracking : Tracking
  acked : Option (Put R)

section Stages

variable {R : Type} (blake3 : Page → PageHash) (memBytes : ℕ)

def validatePaused (state : SlotState) : Except EngineError Unit :=
  if state ≠ .paused then .error (.notPaused state) else .ok ()

def validateTakeSnapshotPreconditions (a : Attempt R) : Except EngineError Unit :=
  if a.agendaEmpty = false then .error .agendaNotEmpty else validatePaused a.slotState

def hexId (n : ℕ) : String :=
  let digits := Nat.toDigits 16 n
  "0x" ++ String.ofList (List.replicate (4 - digits.length) '0' ++ digits)

def rangePages (totalPages deviceId : ℕ) (range : ℕ × ℕ) : Except EngineError (List ℕ) :=
  let (gpa, len) := range
  if len = 0 then .ok []
  else if 2 ^ 64 ≤ gpa + len then
    .error (.codec ("device " ++ hexId deviceId ++ " snapshot guest RAM range overflows: " ++
      hex gpa ++ "+" ++ hex len))
  else
    let firstPage := gpa / pageSize
    let endPage := (gpa + len + (pageSize - 1)) / pageSize
    if totalPages < endPage then
      .error (.codec ("device " ++ hexId deviceId ++ " snapshot guest RAM range " ++ hex gpa ++
        ".." ++ hex (gpa + len) ++ " exceeds guest RAM"))
    else .ok (List.range' firstPage (endPage - firstPage))

/-- The pages are sorted, so that all duplicates are adjacent when they are
removed. -/
def includeDeviceGuestRamPages (bus : List Device) (totalPages : ℕ) (pageIndices : List ℕ) :
    Except EngineError (List ℕ) := do
  let declared ← bus.mapM fun dev => dev.ranges.mapM (rangePages totalPages dev.deviceId)
  .ok ((pageIndices ++ declared.flatten.flatten).insertionSort (· ≤ ·)).dedup

def readPage (readSlice : ℕ → Except String Page) (idx : ℕ) : Except EngineError (ℕ × Page) :=
  match readSlice (idx * pageSize) with
  | .error e => .error (.kvm ("page " ++ toString idx ++ " read: " ++ e))
  | .ok page => .ok (idx, page)

def readPages (readSlice : ℕ → Except String Page) (pageIndices : List ℕ) :
    Except EngineError (List (ℕ × Page)) := pageIndices.mapM (readPage readSlice)

def parentHashes (parentPages : List (ℕ × PageHash)) : ℕ → Option PageHash :=
  parentPages.foldl (fun m p => Function.update m p.1 (some p.2)) fun _ => none

def retainChanged (hashes : ℕ → Option PageHash) :
    List (ℕ × Page) → Except EngineError (List (ℕ × Page))
  | [] => .ok []
  | (idx, page) :: pages =>
    match hashes idx with
    | none => .error (.store ("resolved parent is missing guest page " ++ toString idx))
    | some parentHash => do
        let changed ← retainChanged hashes pages
        .ok (if blake3 page ≠ parentHash then (idx, page) :: changed else changed)

def retainPagesChangedFromParent (pages : List (ℕ × Page)) (parentPages : List (ℕ × PageHash)) :
    Except EngineError (List (ℕ × Page)) := retainChanged blake3 (parentHashes parentPages) pages

def resolveParent (a : Attempt R) (parent : R) : Except EngineError (List (ℕ × PageHash)) :=
  (a.resolvePages parent).mapError fun e => .store ("resolve parent pages: " ++ e)

/-- The pages that an incremental attempt ships, once the ring is drained. -/
def changedPages (a : Attempt R) (parent : R) (dirty : DirtyPageSet) :
    Except EngineError (List (ℕ × Page)) := do
  let pageIndices ← includeDeviceGuestRamPages a.bus (memBytes / pageSize) dirty.iter
  let pages ← readPages a.readSlice pageIndices
  let parentPages ← resolveParent a parent
  retainPagesChangedFromParent blake3 pages parentPages

/-- Stages 3 to 5: the container, the store, and what follows its answer. -/
def ship (a : Attempt R) (parent : Option R) (pages : List (ℕ × Page)) (t cleared : Tracking) :
    Taken R :=
  match a.buildDhsnap with
  | .error e => ⟨reject e, t, none⟩
  | .ok dhsnap =>
    match a.putSnapshot parent memBytes pages dhsnap with
    | .error e => ⟨reject (.store ("put_snapshot: " ++ e)), t, none⟩
    | .ok ref =>
      ⟨.ok ⟨ref, pages.length, a.hashChain⟩, cleared, some ⟨parent, memBytes, pages, dhsnap, ref⟩⟩

def debug : KvmError → String
  | .memory text => "Memory(" ++ text.quote ++ ")"

def takeSnapshot (a : Attempt R) (source : PageSource R) (t : Tracking) : Taken R :=
  match validateTakeSnapshotPreconditions a with
  | .error e => ⟨reject e, t, none⟩
  | .ok () =>
    match source with
    | .full =>
      match readPages a.readSlice (List.range (memBytes / pageSize)) with
      | .error e => ⟨reject e, t, none⟩
      | .ok pages => ship memBytes a none pages t t
    | .incremental parent =>
      match harvestAtBoundary a.resetDirtyRings t with
      | (.error (.error e), t') => ⟨reject (.kvm ("harvest: " ++ debug e)), t', none⟩
      | (.error .panic, t') => ⟨.error .panic, t', none⟩
      | (.error .stuck, t') => ⟨.error .stuck, t', none⟩
      | (.ok _, t') =>
        match changedPages blake3 memBytes a parent t'.dirty with
        | .error e => ⟨reject e, t', none⟩
        | .ok pages =>
          ship memBytes a (some parent) pages t' { t' with dirty := t'.dirty.clear }

end Stages

/-- The store's reading of a delta: its pages over those of the parent. -/
def overlay (base : ℕ → Page) (pages : List (ℕ × Page)) : ℕ → Page :=
  pages.foldl (fun m p => Function.update m p.1 p.2) base

/-- An acknowledged snapshot, with the RAM that its parent resolves to and the
live RAM when it was taken. -/
structure Delta (R : Type) where
  parent : R
  base : ℕ → Page
  pages : List (ℕ × Page)
  ram : ℕ → Page
  ref : R

structure World (R : Type) where
  ram : ℕ → Page
  tracking : Tracking
  parent : R
  base : ℕ → Page
  deltas : List (Delta R)

section Runs

variable {R : Type} (blake3 : Page → PageHash) (memBytes : ℕ) (S : Set Page)

/-- Every page that differs from the parent is in the dirty set or the ring. -/
def World.Tracked (w : World R) : Prop :=
  ∀ i < memBytes / pageSize, w.ram i ≠ w.base i → w.tracking.Holds i

def World.Within (w : World R) : Prop := ∀ i < memBytes / pageSize, w.ram i ∈ S ∧ w.base i ∈ S

/-- What KVM and the store are relied on for: a page that is read is the live
one, and a parent that is resolved resolves to full RAM. -/
structure Attempt.Honest (a : Attempt R) (w : World R) : Prop where
  reads : ∀ i page, a.readSlice (i * pageSize) = .ok page → i < memBytes / pageSize ∧ page = w.ram i
  resolves : ∀ ps, a.resolvePages w.parent = .ok ps →
    (∀ i h, (i, h) ∈ ps → i < memBytes / pageSize → h = blake3 (w.base i)) ∧
    ∀ i < memBytes / pageSize, ∃ h, (i, h) ∈ ps

def World.attempt (w : World R) (a : Attempt R) : Taken R :=
  takeSnapshot blake3 memBytes a (.incremental w.parent) w.tracking

def World.after (w : World R) (a : Attempt R) : World R :=
  let taken := w.attempt blake3 memBytes a
  match taken.acked with
  | none => { w with tracking := taken.tracking }
  | some put =>
    { w with
      tracking := taken.tracking
      parent := put.ref
      base := overlay w.base put.pages
      deltas := w.deltas ++ [⟨w.parent, w.base, put.pages, w.ram, put.ref⟩] }

inductive Event (R : Type) where
  | guest
  | attempt (a : Attempt R)

/-- The guest runs between attempts as it likes; that its writes are published is
what `Tracked` says. -/
inductive Step : Event R → World R → World R → Prop
  | guest {w w' : World R} (hparent : w'.parent = w.parent) (hbase : w'.base = w.base)
      (hdeltas : w'.deltas = w.deltas) (htracked : w'.Tracked memBytes)
      (hwithin : w'.Within memBytes S) : Step .guest w w'
  | attempt {w : World R} (a : Attempt R) (honest : a.Honest blake3 memBytes w) :
      Step (.attempt a) w (w.after blake3 memBytes a)

/-- The delta holds exactly the pages that differ, in order, and completes the
parent to the live RAM. -/
structure Delta.Exact (d : Delta R) : Prop where
  ascending : d.pages.Pairwise fun p q => p.1 < q.1
  mem_iff : ∀ i page, (i, page) ∈ d.pages ↔
    i < memBytes / pageSize ∧ d.ram i ≠ d.base i ∧ page = d.ram i
  overlay_eq : ∀ i < memBytes / pageSize, overlay d.base d.pages i = d.ram i

end Runs

section Pages

variable {R : Type} {blake3 : Page → PageHash} {memBytes : ℕ} {S : Set Page}
  {a : Attempt R} {base : ℕ → Page} {i total : ℕ} {idxs : List ℕ} {pages : List (ℕ × Page)}
  {w : World R}

lemma includeDeviceGuestRamPages_eq_ok {bus : List Device} {idxs' : List ℕ}
    (h : includeDeviceGuestRamPages bus total idxs = .ok idxs') :
    idxs'.Pairwise (· < ·) ∧ ∀ i ∈ idxs, i ∈ idxs' := by
  simp only [includeDeviceGuestRamPages, bind_eq_ok, Except.ok.injEq] at h
  obtain ⟨declared, -, rfl⟩ := h
  constructor
  · have hsorted := pairwise_insertionSort (· ≤ ·) (idxs ++ declared.flatten.flatten)
    have hle := hsorted.sublist (dedup_sublist _)
    exact (hle.and (nodup_dedup _)).imp fun h => lt_of_le_of_ne h.1 h.2
  · intro i hi
    rw [mem_dedup, mem_insertionSort, mem_append]
    exact .inl hi

lemma readPages_eq_ok (honest : a.Honest blake3 memBytes w)
    (h : readPages a.readSlice idxs = .ok pages) :
    pages = idxs.map (fun i => (i, w.ram i)) ∧ ∀ i ∈ idxs, i < memBytes / pageSize := by
  rw [readPages, mapM_eq_ok] at h
  induction h with
  | nil => simp
  | @cons i p idxs pages hp _ ih =>
    rw [readPage] at hp
    cases hread : a.readSlice (i * pageSize) with
    | error e => simp [hread] at hp
    | ok page =>
      rw [hread, Except.ok.injEq] at hp
      obtain ⟨hlt, rfl⟩ := honest.reads i page hread
      rw [← hp, ih.1, map_cons]
      refine ⟨rfl, fun j hj => ?_⟩
      obtain rfl | hj := mem_cons.mp hj
      · exact hlt
      · exact ih.2 j hj

lemma parentHashes_eq {ps : List (ℕ × PageHash)} {h : PageHash} (hmem : (i, h) ∈ ps)
    (hagree : ∀ h', (i, h') ∈ ps → h' = h) : parentHashes ps i = some h := by
  induction ps using reverseRecOn with
  | nil => cases hmem
  | append_singleton ps p ih =>
    rw [parentHashes, foldl_append, foldl_cons, foldl_nil]
    by_cases hi : p.1 = i
    · rw [← hi, update_self, hagree p.2 (by simp [← hi])]
    · rw [update_of_ne (Ne.symm hi)]
      apply ih
      · obtain hmem | hmem := mem_append.mp hmem
        · exact hmem
        · rw [mem_singleton] at hmem
          exact absurd (congrArg Prod.fst hmem).symm hi
      · exact fun h' hh' => hagree h' (mem_append_left _ hh')

lemma retainChanged_eq_ok {hashes : ℕ → Option PageHash} {changed : List (ℕ × Page)}
    (h : retainChanged blake3 hashes pages = .ok changed) :
    changed = pages.filter fun p => decide (hashes p.1 ≠ some (blake3 p.2)) := by
  induction pages generalizing changed with
  | nil =>
    cases h
    rfl
  | cons p pages ih =>
    obtain ⟨idx, page⟩ := p
    rw [retainChanged] at h
    cases hhash : hashes idx with
    | none => simp [hhash] at h
    | some parentHash =>
      simp only [hhash, bind_eq_ok, Except.ok.injEq] at h
      obtain ⟨rest, hrest, rfl⟩ := h
      rw [ih hrest]
      by_cases hsame : blake3 page = parentHash
      · simp [hhash, hsame]
      · simp [hhash, hsame, Ne.symm hsame]

lemma changedPages_eq_ok {dirty : DirtyPageSet} (hinj : Set.InjOn blake3 S)
    (hwithin : w.Within memBytes S) (honest : a.Honest blake3 memBytes w)
    (hdirty : ∀ i < memBytes / pageSize, w.ram i ≠ w.base i → dirty.contains i = true)
    (h : changedPages blake3 memBytes a w.parent dirty = .ok pages) :
    pages.Pairwise (fun p q => p.1 < q.1) ∧ ∀ i page, (i, page) ∈ pages ↔
        i < memBytes / pageSize ∧ w.ram i ≠ w.base i ∧ page = w.ram i := by
  simp only [changedPages, bind_eq_ok, resolveParent, mapError_eq_ok,
    retainPagesChangedFromParent] at h
  obtain ⟨idxs, hidxs, read, hread, ps, hps, hretain⟩ := h
  obtain ⟨hascending, hsub⟩ := includeDeviceGuestRamPages_eq_ok hidxs
  obtain ⟨rfl, hlt⟩ := readPages_eq_ok honest hread
  obtain ⟨hagree, hfull⟩ := honest.resolves ps hps
  have hhash (i : ℕ) (hi : i < memBytes / pageSize) :
      parentHashes ps i = some (blake3 (w.base i)) := by
    obtain ⟨h', hmem⟩ := hfull i hi
    rw [hagree i h' hmem hi] at hmem
    exact parentHashes_eq hmem fun h'' hh'' => hagree i h'' hh'' hi
  rw [retainChanged_eq_ok hretain]
  have hpairs : (idxs.map fun i => (i, w.ram i)).Pairwise fun p q => p.1 < q.1 :=
    pairwise_map.mpr hascending
  refine ⟨hpairs.sublist filter_sublist, fun i page => ?_⟩
  simp only [mem_filter, mem_map, Prod.mk.injEq, decide_eq_true_iff]
  constructor
  · rintro ⟨⟨j, hj, rfl, rfl⟩, hne⟩
    refine ⟨hlt j hj, fun hsame => ?_, rfl⟩
    rw [hhash j (hlt j hj), hsame] at hne
    exact hne rfl
  · rintro ⟨hi, hne, rfl⟩
    refine ⟨⟨i, hsub i (DirtyPageSet.mem_iter.mpr (hdirty i hi hne)), rfl, rfl⟩, ?_⟩
    rw [hhash i hi, Ne, Option.some.injEq]
    exact fun hcollide => hne (hinj (hwithin i hi).1 (hwithin i hi).2 hcollide.symm)

lemma overlay_of_not_mem (h : ∀ page, (i, page) ∉ pages) : overlay base pages i = base i := by
  induction pages using reverseRecOn with
  | nil => rfl
  | append_singleton pages p ih =>
    have hne : i ≠ p.1 := by
      rintro rfl
      exact h p.2 (by simp)
    rw [overlay, foldl_append, foldl_cons, foldl_nil, update_of_ne hne]
    exact ih fun page hpage => h page (mem_append_left _ hpage)

lemma overlay_of_mem {page : Page} (hmem : (i, page) ∈ pages)
    (hagree : ∀ page', (i, page') ∈ pages → page' = page) : overlay base pages i = page := by
  induction pages using reverseRecOn with
  | nil => cases hmem
  | append_singleton pages p ih =>
    rw [overlay, foldl_append, foldl_cons, foldl_nil]
    by_cases hi : i = p.1
    · rw [hi, update_self]
      exact hagree p.2 (by simp [hi])
    · rw [update_of_ne hi]
      apply ih
      · obtain hmem | hmem := mem_append.mp hmem
        · exact hmem
        · rw [mem_singleton] at hmem
          exact absurd (congrArg Prod.fst hmem) hi
      · exact fun page' h' => hagree page' (mem_append_left _ h')

lemma overlay_eq_of_mem_iff {ram : ℕ → Page}
    (h : ∀ i page, (i, page) ∈ pages ↔ i < total ∧ ram i ≠ base i ∧ page = ram i) (hi : i < total) :
    overlay base pages i = ram i := by
  by_cases hsame : ram i = base i
  · rw [hsame]
    exact overlay_of_not_mem fun page hmem => ((h i page).mp hmem).2.1 hsame
  · exact overlay_of_mem ((h i (ram i)).mpr ⟨hi, hsame, rfl⟩)
      fun page' hmem => ((h i page').mp hmem).2.2

end Pages

section Attempts

variable {R : Type} {blake3 : Page → PageHash} {memBytes : ℕ} {S : Set Page}
  {a : Attempt R} {t' : Tracking} {w : World R}

lemma ship_cases (a : Attempt R) (parent : Option R) (pages : List (ℕ × Page))
    (t cleared : Tracking) : (∃ e, ship memBytes a parent pages t cleared = ⟨reject e, t, none⟩) ∨
    ∃ dhsnap ref, a.putSnapshot parent memBytes pages dhsnap = .ok ref ∧
      ship memBytes a parent pages t cleared = ⟨.ok ⟨ref, pages.length, a.hashChain⟩, cleared,
        some ⟨parent, memBytes, pages, dhsnap, ref⟩⟩ := by
  cases hbuild : a.buildDhsnap with
  | error e => exact .inl ⟨e, by simp [ship, hbuild]⟩
  | ok dhsnap =>
    cases hput : a.putSnapshot parent memBytes pages dhsnap with
    | error e => exact .inl ⟨.store ("put_snapshot: " ++ e), by simp only [ship, hbuild, hput]⟩
    | ok ref => exact .inr ⟨dhsnap, ref, hput, by simp only [ship, hbuild, hput]⟩

lemma takeSnapshot_cases (blake3 : Page → PageHash) (memBytes : ℕ) (a : Attempt R) (parent : R)
    (t : Tracking) : (∃ (e : EngineError) (t' : Tracking),
      takeSnapshot blake3 memBytes a (.incremental parent) t = ⟨reject e, t', none⟩ ∧ Keeps t t') ∨
    ∃ (t' : Tracking) (pages : List (ℕ × Page)) (dhsnap : List UInt8) (ref : R),
      (∀ page, t.Holds page → t'.dirty.contains page = true) ∧
      changedPages blake3 memBytes a parent t'.dirty = .ok pages ∧
      a.putSnapshot (some parent) memBytes pages dhsnap = .ok ref ∧
      takeSnapshot blake3 memBytes a (.incremental parent) t =
        ⟨.ok ⟨ref, pages.length, a.hashChain⟩, { t' with dirty := t'.dirty.clear },
          some ⟨some parent, memBytes, pages, dhsnap, ref⟩⟩ := by
  obtain ⟨hkeeps, hsafely⟩ := harvestAtBoundary_spec a.resetDirtyRings t
  cases hvalid : validateTakeSnapshotPreconditions a with
  | error e => exact .inl ⟨e, t, by simp [takeSnapshot, hvalid], .refl t⟩
  | ok =>
    cases hharvest : harvestAtBoundary a.resetDirtyRings t with
    | mk outcome t' =>
      rw [hharvest] at hkeeps hsafely
      cases outcome with
      | error trap =>
        obtain ⟨e, rfl⟩ := hsafely
        exact .inl ⟨.kvm ("harvest: " ++ debug e), t',
          by simp only [takeSnapshot, hvalid, hharvest], hkeeps⟩
      | ok stats =>
        cases hchanged : changedPages blake3 memBytes a parent t'.dirty with
        | error e =>
          exact .inl ⟨e, t', by simp [takeSnapshot, hvalid, hharvest, hchanged], hkeeps⟩
        | ok pages =>
          have htake : takeSnapshot blake3 memBytes a (.incremental parent) t =
              ship memBytes a (some parent) pages t' { t' with dirty := t'.dirty.clear } := by
            simp [takeSnapshot, hvalid, hharvest, hchanged]
          obtain ⟨e, hship⟩ | ⟨dhsnap, ref, hput, hship⟩ :=
            ship_cases a (some parent) pages t' { t' with dirty := t'.dirty.clear }
          · exact .inl ⟨e, t', htake.trans hship, hkeeps⟩
          · exact .inr ⟨t', pages, dhsnap, ref, hsafely, hchanged, hput, htake.trans hship⟩

structure World.Sound (blake3 : Page → PageHash) (memBytes : ℕ) (S : Set Page) (w : World R) :
    Prop where
  tracked : w.Tracked memBytes
  within : w.Within memBytes S
  exact : ∀ d ∈ w.deltas, d.Exact memBytes

lemma World.after_failed {e : EngineError}
    (h : w.attempt blake3 memBytes a = ⟨reject e, t', none⟩) :
    w.after blake3 memBytes a = { w with tracking := t' } := by
  simp only [World.after, h]

lemma World.after_acked {out : TakeSnapshotOutcome R} {put : Put R}
    (h : w.attempt blake3 memBytes a = ⟨.ok out, t', some put⟩) : w.after blake3 memBytes a = {
      ram := w.ram
      tracking := t'
      parent := put.ref
      base := overlay w.base put.pages
      deltas := w.deltas ++ [⟨w.parent, w.base, put.pages, w.ram, put.ref⟩] } := by
  simp only [World.after, h]

lemma World.Sound.after (hinj : Set.InjOn blake3 S) (h : w.Sound blake3 memBytes S)
    (honest : a.Honest blake3 memBytes w) :
    (w.after blake3 memBytes a).Sound blake3 memBytes S := by
  obtain ⟨e, t', hfailed, hkeeps⟩ | ⟨t', pages, dhsnap, ref, hdirty, hchanged, -, hacked⟩ :=
    takeSnapshot_cases blake3 memBytes a w.parent w.tracking
  · rw [World.after_failed hfailed]
    exact ⟨fun i hi hne => hkeeps.holds i (h.tracked i hi hne), h.within, h.exact⟩
  · obtain ⟨hascending, hmem⟩ := changedPages_eq_ok hinj h.within honest
      (fun i hi hne => hdirty i (h.tracked i hi hne)) hchanged
    have hram (i : ℕ) (hi : i < memBytes / pageSize) : overlay w.base pages i = w.ram i :=
      overlay_eq_of_mem_iff hmem hi
    rw [World.after_acked hacked]
    refine ⟨fun i hi hne => absurd (hram i hi).symm hne, fun i hi => ?_, fun d hd => ?_⟩
    · refine ⟨(h.within i hi).1, ?_⟩
      change overlay w.base pages i ∈ S
      rw [hram i hi]
      exact (h.within i hi).1
    · obtain hd | hd := mem_append.mp hd
      · exact h.exact d hd
      · rw [mem_singleton.mp hd]
        exact ⟨hascending, hmem, fun i hi => hram i hi⟩

lemma World.Sound.step {e : Event R} {w' : World R} (hinj : Set.InjOn blake3 S)
    (hstep : Step blake3 memBytes S e w w') (h : w.Sound blake3 memBytes S) :
    w'.Sound blake3 memBytes S := by
  cases hstep with
  | guest _ _ hdeltas htracked hwithin =>
    refine ⟨htracked, hwithin, ?_⟩
    rw [hdeltas]
    exact h.exact
  | attempt a honest => exact h.after hinj honest

/-- Along every run of attempts, failed and acknowledged, and guest activity:
no page is lost, every delta is exact, and only an acknowledgement clears. -/
theorem delta_shipping_exact {R : Type} (blake3 : Page → PageHash) (memBytes : ℕ) (S : Set Page)
    (hinj : Set.InjOn blake3 S) (w0 : World R) (htracked : w0.Tracked memBytes)
    (hwithin : w0.Within memBytes S) (hdeltas : w0.deltas = []) (events : List (Event R))
    (w : World R) (hrun : Traced (Step blake3 memBytes S) events w0 w) : w.Tracked memBytes ∧
    (∀ d ∈ w.deltas, d.Exact memBytes) ∧ ∀ a : Attempt R,
      -- a failed attempt changes nothing but where the dirty pages are kept
      ((∀ out, (w.attempt blake3 memBytes a).result ≠ .ok out) →
        (∃ e, (w.attempt blake3 memBytes a).result = reject e) ∧
        w.after blake3 memBytes a =
          { w with tracking := (w.attempt blake3 memBytes a).tracking } ∧
        ∀ i, w.tracking.Holds i → (w.attempt blake3 memBytes a).tracking.Holds i) ∧
      -- a page leaves the dirty set only behind an acknowledgement
      ∀ i, w.tracking.dirty.contains i = true →
        (w.attempt blake3 memBytes a).tracking.dirty.contains i = false →
        ∃ put, (w.attempt blake3 memBytes a).acked = some put ∧
          a.putSnapshot put.parent put.memBytes put.pages put.dhsnap = .ok put.ref := by
  have hsound : w.Sound blake3 memBytes S :=
    hrun.invariant (I := World.Sound blake3 memBytes S) (fun _ _ _ _ hstep h => h.step hinj hstep)
      ⟨htracked, hwithin, by simp [hdeltas]⟩
  refine ⟨hsound.tracked, hsound.exact, fun a => ?_⟩
  obtain ⟨e, t', hfailed, hkeeps⟩ | ⟨t', pages, dhsnap, ref, -, -, hput, hacked⟩ :=
    takeSnapshot_cases blake3 memBytes a w.parent w.tracking
  · have hattempt : w.attempt blake3 memBytes a = ⟨reject e, t', none⟩ := hfailed
    rw [World.after_failed hattempt, hattempt]
    refine ⟨fun _ => ⟨⟨e, rfl⟩, rfl, hkeeps.holds⟩, fun i hi hcleared => ?_⟩
    have hkept := hkeeps.contains i hi
    rw [hcleared] at hkept
    cases hkept
  · have hattempt : w.attempt blake3 memBytes a = _ := hacked
    rw [hattempt]
    exact ⟨fun hfails => absurd rfl (hfails _), fun i _ _ => ⟨_, rfl, hput⟩⟩

end Attempts

def filled (x : UInt8) : Page := .replicate pageSize x

def firstByte (page : Page) : PageHash := .replicate 32 (page.toList.headD 0)

lemma firstByte_filled (x : UInt8) : firstByte (filled x) = .replicate 32 x := rfl

lemma injOn_firstByte : Set.InjOn firstByte {filled 0, filled 1} := by
  intro p hp q hq h
  obtain rfl | rfl := hp
  · obtain rfl | rfl := hq
    · rfl
    · rw [firstByte_filled, firstByte_filled] at h
      exact absurd h (by decide)
  · obtain rfl | rfl := hq
    · rw [firstByte_filled, firstByte_filled] at h
      exact absurd h (by decide)
    · rfl

/-- Two pages of RAM; the guest has written page 1, which the ring publishes. -/
def writtenRam (i : ℕ) : Page := if i = 1 then filled 1 else filled 0

def writtenWorld : World ℕ where
  ram := writtenRam
  tracking := ⟨⟨fun _ => ⟨gfnDirty, 0, 1⟩, 0, 1, Nat.one_pos⟩, .new 8192⟩
  parent := 0
  base := fun _ => filled 0
  deltas := []

def sampleAttempt (answer : Except String ℕ) : Attempt ℕ where
  slotState := .paused
  agendaEmpty := true
  hashChain := .replicate 32 5
  bus := []
  readSlice := fun addr =>
    if addr < 8192 then .ok (writtenRam (addr / pageSize)) else .error "range"
  resetDirtyRings := .ok 1
  resolvePages := fun _ => .ok [(0, .replicate 32 0), (1, .replicate 32 0)]
  buildDhsnap := .ok []
  putSnapshot := fun _ _ _ _ => answer

lemma honest_sampleAttempt {w : World ℕ} (answer : Except String ℕ) (hram : w.ram = writtenRam)
    (hbase : w.base = fun _ => filled 0) : (sampleAttempt answer).Honest firstByte 8192 w where
  reads := by
    intro i page h
    simp only [sampleAttempt] at h
    split at h
    · next hlt =>
        cases h
        have hidx : i * pageSize / pageSize = i := Nat.mul_div_cancel _ (by decide)
        rw [hidx, hram]
        refine ⟨?_, rfl⟩
        simp only [pageSize] at hlt ⊢
        omega
    · cases h
  resolves := by
    intro ps h
    cases h
    rw [hbase]
    refine ⟨fun i h hmem _ => ?_, fun i hi => ?_⟩
    · simp only [mem_cons, Prod.mk.injEq, not_mem_nil, or_false] at hmem
      obtain ⟨-, rfl⟩ | ⟨-, rfl⟩ := hmem <;> rfl
    · obtain rfl | rfl : i = 0 ∨ i = 1 := by
        simp only [pageSize] at hi
        omega
      · exact ⟨_, mem_cons_self⟩
      · exact ⟨_, mem_cons_of_mem _ mem_cons_self⟩

lemma tracked_writtenWorld : writtenWorld.Tracked 8192 := by
  intro i _ hne
  have hi : i = 1 := by
    by_contra hi
    exact hne (if_neg hi)
  rw [hi]
  exact .inr ⟨⟨gfnDirty, 0, 1⟩, mem_cons_self, rfl, rfl⟩

lemma within_writtenWorld : writtenWorld.Within 8192 {filled 0, filled 1} := by
  intro i _
  refine ⟨?_, .inl rfl⟩
  by_cases hi : i = 1
  · exact .inr (if_pos hi)
  · exact .inl (if_neg hi)

/-- The store is down at the first attempt and acknowledges the second one. -/
theorem delta_shipping_after_failed_put :
    ∃ w, Traced (Step firstByte 8192 {filled 0, filled 1})
        [.attempt (sampleAttempt (.error "down")), .attempt (sampleAttempt (.ok 7))]
        writtenWorld w ∧
      w.deltas.map (fun d => (d.parent, d.pages.map Prod.fst, d.ref)) = [(0, [1], 7)] ∧
      ∀ d ∈ w.deltas, d.Exact 8192 := by
  have hrun : Traced (Step firstByte 8192 {filled 0, filled 1})
      [.attempt (sampleAttempt (.error "down")), .attempt (sampleAttempt (.ok 7))] writtenWorld
      ((writtenWorld.after firstByte 8192 (sampleAttempt (.error "down"))).after firstByte 8192
        (sampleAttempt (.ok 7))) :=
    .cons (.attempt _ (honest_sampleAttempt _ rfl rfl))
      (.single (.attempt _ (honest_sampleAttempt _ rfl rfl)))
  have hexact := delta_shipping_exact firstByte 8192 _ injOn_firstByte writtenWorld
    tracked_writtenWorld within_writtenWorld rfl _ _ hrun
  exact ⟨_, hrun, rfl, hexact.2.1⟩

end DetHypervisor.DeltaShipping
