import DetHypervisor.Agenda
import DetHypervisor.Effects
import Mathlib.Logic.Relation

/-!
# Itineraries

A segment without the cuts that a driver makes in it: the guest coasts from stop to stop, inputs
are applied, epochs linked. Recorder and replay are both compared with this description.
-/

namespace DetHypervisor

open List

variable {H σ X : Type} {icount rip seq : ℕ} {kinds : List InputKind} {x : Record H}

def Passes (P : Platform H σ X) (r r' : Rail H σ) : Prop :=
  enter P r = .stepped r' ∨ ∃ es, enter P r = .serviced r' es

inductive Coast (P : Platform H σ X) (t : ℕ) : ℕ → Rail H σ → Rail H σ → Prop
  | refl (r : Rail H σ) : Coast P t 0 r r
  | snoc {n : ℕ} {r r1 r2 : Rail H σ} (hcoast : Coast P t n r r1) (hlt : r1.icount < t)
      (hpass : Passes P r1 r2) : Coast P t (n + 1) r r2

/-- Inputs applied in order at one boundary, none of which asks for an
interrupt. -/
def Applied (P : Platform H σ X) (icount rip : ℕ) : List InputKind → Rail H σ → Rail H σ → Prop
  | [], r, r' => r' = r
  | kind :: rest, r, r' =>
    ∃ r1, r.applyInput P kind icount rip = .ok (r1, none) ∧ Applied P icount rip rest r1 r'

/-- The records such inputs leave, from sequence number `seq` on. -/
def inputRecords (icount rip : ℕ) : ℕ → List InputKind → List (Record H)
  | _, [] => []
  | seq, kind :: rest => ⟨seq, icount, rip, kind.body⟩ :: inputRecords icount rip (seq + 1) rest

section Coasting

variable {P : Platform H σ X} {t n : ℕ} {r r1 r' : Rail H σ}

lemma Passes.spec (h : Passes P r r') : r.icount ≤ r'.icount ∧ ∃ new, Appended r.log new r'.log ∧
      ∀ x ∈ new, Emitted P x ∧ x.icount = r.icount := by
  rcases h with h | ⟨es, h⟩
  · obtain ⟨hle, hlog⟩ := enter_eq_stepped h
    exact ⟨hle, [], hlog ▸ .refl _, by simp⟩
  · obtain ⟨hicount, new, hlog, hnew⟩ := enter_eq_serviced h
    exact ⟨hicount.ge, new, hlog, hnew⟩

section

variable (h : Coast P t n r r')
include h

lemma Coast.le : r.icount ≤ r'.icount := by
  induction h with
  | refl => exact le_rfl
  | snoc _ _ hpass ih => exact ih.trans hpass.spec.1

lemma Coast.log : ∃ new, Appended r.log new r'.log ∧
      ∀ x ∈ new, Emitted P x ∧ r.icount ≤ x.icount ∧ x.icount ≤ r'.icount ∧ x.icount < t := by
  induction h with
  | refl => exact ⟨[], .refl _, by simp⟩
  | snoc hcoast hlt hpass ih =>
    obtain ⟨new, hlog, hnew⟩ := ih
    obtain ⟨hle, new', hlog', hnew'⟩ := hpass.spec
    refine ⟨new ++ new', hlog.trans hlog', ?_⟩
    intro x hx
    rcases mem_append.mp hx with hx | hx
    · obtain ⟨hemitted, hfrom, hto, hbelow⟩ := hnew x hx
      exact ⟨hemitted, hfrom, hto.trans hle, hbelow⟩
    · obtain ⟨hemitted, hicount⟩ := hnew' x hx
      exact ⟨hemitted, hicount ▸ hcoast.le, hicount ▸ hle, hicount ▸ hlt⟩

lemma Coast.towards {t' : ℕ} (ht : r'.icount < t') : Coast P t' n r r' := by
  induction h with
  | refl => exact .refl _
  | snoc _ _ hpass ih =>
    have hlt := hpass.spec.1.trans_lt ht
    exact (ih hlt).snoc hlt hpass

lemma Coast.eq_of_le (ht : t ≤ r.icount) : r' = r := by
  induction h with
  | refl => rfl
  | snoc hcoast hlt _ _ => exact absurd hcoast.le (by omega)

end

lemma Applied.icount_eq (h : Applied P icount rip kinds r r') : r'.icount = r.icount := by
  induction kinds generalizing r with
  | nil => rw [h]
  | cons kind rest ih =>
    obtain ⟨r1, happly, hrest⟩ := h
    rw [ih hrest, (Rail.applyInput_spec happly).1]

lemma Applied.log (h : Applied P icount rip kinds r r') :
    Appended r.log (inputRecords icount rip r.log.recordCount kinds) r'.log := by
  induction kinds generalizing r with
  | nil =>
    rw [h]
    exact .refl _
  | cons kind rest ih =>
    obtain ⟨r1, happly, hrest⟩ := h
    have hfirst := (Rail.applyInput_spec happly).2
    have hcount : r1.log.recordCount = r.log.recordCount + 1 := by
      simp [LogWriter.recordCount, hfirst.records_eq]
    have hrest := ih hrest
    rw [hcount] at hrest
    exact hfirst.trans hrest

lemma Applied.append {kinds' : List InputKind} (h : Applied P icount rip kinds r r1)
    (h' : Applied P icount rip kinds' r1 r') : Applied P icount rip (kinds ++ kinds') r r' := by
  induction kinds generalizing r with
  | nil =>
    obtain rfl : r1 = r := h
    exact h'
  | cons kind rest ih =>
    obtain ⟨r2, happly, hrest⟩ := h
    exact ⟨r2, happly, ih hrest⟩

end Coasting

lemma mem_inputRecords (h : x ∈ inputRecords icount rip seq kinds) :
    x.icount = icount ∧ x.boundaryRip = rip ∧ ∃ kind ∈ kinds, x.body = kind.body := by
  induction kinds generalizing seq with
  | nil => cases h
  | cons kind rest ih =>
    rcases mem_cons.mp h with rfl | h
    · exact ⟨rfl, rfl, kind, mem_cons_self, rfl⟩
    · obtain ⟨hicount, hrip, kind', hmem, hbody⟩ := ih h
      exact ⟨hicount, hrip, kind', mem_cons_of_mem kind hmem, hbody⟩

@[simp] lemma InputKind.isCanonical_body (kind : InputKind) :
    (kind.body : RecordBody H).isCanonical = true := by
  cases kind <;> rfl

lemma isCanonical_of_mem_inputRecords (h : x ∈ inputRecords icount rip seq kinds) :
    x.isCanonical = true := by
  obtain ⟨-, -, kind, -, hbody⟩ := mem_inputRecords h
  rw [Record.isCanonical, hbody, InputKind.isCanonical_body]

lemma Record.kinds_of_isCanonical (h : x.isCanonical = true) :
    x.isFrameMark = false ∧ x.epoch? = none := by
  unfold Record.isCanonical at h
  unfold Record.isFrameMark Record.epoch?
  cases hbody : x.body <;> simp_all [RecordBody.isCanonical]

structure Station (H σ : Type) where
  rail : Rail H σ
  chain : H

variable (P : Platform H σ X) (grid : Option ℕ) (fuel : ℕ)

/-- The guest coasts from a station to its first arrival at `t`, over no grid
point. -/
structure Arrives (a : Station H σ) (t : ℕ) (r : Rail H σ) : Prop where
  lt : a.rail.icount < t
  no_grid : ∀ i, a.rail.icount < i → i < t → ¬OnGrid grid i
  coast : ∃ n < fuel, Coast P t n a.rail r
  landed : r.icount = t

/-- The epoch link at `t`: the chain moves on and the link is logged. -/
structure Linked (t : ℕ) (a b : Station H σ) : Prop where
  chain_eq : ∃ vns, P.config.clock.vnsFromIcount t = some vns ∧
    b.chain = P.link a.chain (P.image a.rail.machine) t vns
  rail_eq : ∃ log,
    a.rail.log.record t 0 (.epochHash (t / max P.config.epochLen 1) b.chain) = .ok log ∧
      b.rail = { a.rail with log }

/-- What happens between two consecutive stops of a segment, with the inputs
that are applied on the way. -/
inductive Leg (P : Platform H σ X) (grid : Option ℕ) (fuel fin : ℕ) :
    List InputKind → Station H σ → Station H σ → Prop
  /-- A FRAME_COUNTER write before `fin` and the inputs due at that frame. -/
  | frame {a : Station H σ} {t n frame : ℕ} {kinds : List InputKind} {es : List Emit}
      {r r1 r2 : Rail H σ} (hcoast : Coast P t n a.rail r) (hfuel : n < fuel)
      (hlt : r.icount < t) (hfin : r.icount < fin)
      (hgrid : ∀ i, a.rail.icount < i → i < t → ¬OnGrid grid i)
      (henter : enter P r = .frame frame r1 es) (hframe : 0 < frame)
      (happlied : Applied P r.icount 0 kinds r1 r2) : Leg P grid fuel fin kinds a ⟨r2, a.chain⟩
  | stop {a : Station H σ} {t rip : ℕ} {kinds : List InputKind} {r r' : Rail H σ}
      (harrive : Arrives P grid fuel a t r) (hoff : ¬OnGrid grid t) (hkinds : kinds ≠ [])
      (happlied : Applied P t rip kinds r r') : Leg P grid fuel fin kinds a ⟨r', a.chain⟩
  | epoch {a b : Station H σ} {t rip : ℕ} {kinds : List InputKind} {r r' : Rail H σ}
      (harrive : Arrives P grid fuel a t r) (hon : OnGrid grid t)
      (happlied : Applied P t rip kinds r r') (hlinked : Linked P t ⟨r', a.chain⟩ b) :
      Leg P grid fuel fin kinds a b

inductive Journey (P : Platform H σ X) (grid : Option ℕ) (fuel fin : ℕ) :
    List InputKind → Station H σ → Station H σ → Prop
  | refl (a : Station H σ) : Journey P grid fuel fin [] a a
  | cons {kinds kinds' : List InputKind} {a b c : Station H σ}
      (hleg : Leg P grid fuel fin kinds a b)
      (hrest : Journey P grid fuel fin kinds' b c) : Journey P grid fuel fin (kinds ++ kinds') a c

def Glide (a b : Station H σ) : Prop :=
  ∃ t r, Arrives P grid fuel a t r ∧ OnGrid grid t ∧ Linked P t ⟨r, a.chain⟩ b

abbrev Glides : Station H σ → Station H σ → Prop := Relation.ReflTransGen (Glide P grid fuel)

def lastEpoch (rs : List (Record H)) : Option ℕ :=
  (rs.filterMap Record.epoch?).getLast?.map fun e => e.2.1

/-- How a segment ends at `e`: coast there from the last stop, then push the
final link unless the last stop was the epoch link at `e`. -/
structure Ends (m : Station H σ) (e : ℕ) (z : Station H σ) : Prop where
  no_grid : ∀ i, m.rail.icount < i → i ≤ e → ¬OnGrid grid i
  coast : ∃ n < fuel, Coast P e n m.rail z.rail
  landed : z.rail.icount = e
  chain_eq : ∃ vns, P.config.clock.vnsFromIcount e = some vns ∧
    z.chain = if lastEpoch m.rail.log.records = some e then m.chain
      else P.link m.chain (P.image z.rail.machine) e vns

section Legs

variable {P : Platform H σ X} {grid : Option ℕ} {fuel fin : ℕ} {a b : Station H σ}
  {c : Station H σ} {n t : ℕ} {new : List (Record H)} {r r' : Rail H σ}

lemma Linked.icount_eq (h : Linked P t a b) : b.rail.icount = a.rail.icount := by
  obtain ⟨log, -, hrail⟩ := h.rail_eq
  rw [hrail]

lemma Linked.log (h : Linked P t a b) : Appended a.rail.log [⟨a.rail.log.recordCount, t, 0,
      .epochHash (t / max P.config.epochLen 1) b.chain⟩] b.rail.log := by
  obtain ⟨log, hrecord, hrail⟩ := h.rail_eq
  rw [hrail]
  exact LogWriter.appended_of_record hrecord

@[simp] lemma lastEpoch_append_of_no_epoch {rs : List (Record H)}
    (h : ∀ x ∈ new, x.epoch? = none) : lastEpoch (rs ++ new) = lastEpoch rs := by
  unfold lastEpoch
  rw [filterMap_append, filterMap_eq_nil_iff.mpr h, append_nil]

lemma Linked.lastEpoch_eq (h : Linked P t a b) : lastEpoch b.rail.log.records = some t := by
  rw [h.log.records_eq]
  simp [lastEpoch, Record.epoch?]

/-- The records between two stations: all lie between their counts, and every
epoch link lies on the grid strictly beyond the first one. -/
structure Between (grid : Option ℕ) (a b : Station H σ) (new : List (Record H)) : Prop where
  icount_le : a.rail.icount ≤ b.rail.icount
  appended : Appended a.rail.log new b.rail.log
  not_before : ∀ x ∈ new, a.rail.icount ≤ x.icount
  not_beyond : ∀ x ∈ new, x.icount ≤ b.rail.icount
  epochs : ∀ x ∈ new, x.epoch? ≠ none → a.rail.icount < x.icount ∧ OnGrid grid x.icount

lemma Between.refl (a : Station H σ) : Between grid a a [] :=
  ⟨le_rfl, .refl _, by simp, by simp, by simp⟩

lemma Between.trans {xs ys : List (Record H)} (h : Between grid a b xs)
    (h' : Between grid b c ys) : Between grid a c (xs ++ ys) := by
  refine ⟨h.icount_le.trans h'.icount_le, h.appended.trans h'.appended, ?_, ?_, ?_⟩
  · intro x hx
    rcases mem_append.mp hx with hx | hx
    · exact h.not_before x hx
    · exact h.icount_le.trans (h'.not_before x hx)
  · intro x hx
    rcases mem_append.mp hx with hx | hx
    · exact (h.not_beyond x hx).trans h'.icount_le
    · exact h'.not_beyond x hx
  · intro x hx hepoch
    rcases mem_append.mp hx with hx | hx
    · exact h.epochs x hx hepoch
    · obtain ⟨hlt, hon⟩ := h'.epochs x hx hepoch
      exact ⟨h.icount_le.trans_lt hlt, hon⟩

lemma Between.of_no_epoch (hle : a.rail.icount ≤ b.rail.icount)
    (happended : Appended a.rail.log new b.rail.log)
    (hnew : ∀ x ∈ new, a.rail.icount ≤ x.icount ∧ x.icount ≤ b.rail.icount ∧ x.epoch? = none) :
    Between grid a b new :=
  ⟨hle, happended, fun x hx => (hnew x hx).1, fun x hx => (hnew x hx).2.1,
    fun x hx h => absurd (hnew x hx).2.2 h⟩

lemma Coast.between (grid : Option ℕ) (c : H) (h : Coast P t n a.rail r) :
    ∃ new, Between grid a ⟨r, c⟩ new ∧ ∀ x ∈ new, Emitted P x ∧ x.icount < t := by
  obtain ⟨new, happended, hnew⟩ := h.log
  refine ⟨new, .of_no_epoch h.le happended ?_, ?_⟩
  · intro x hx
    obtain ⟨hemitted, hfrom, hto, -⟩ := hnew x hx
    exact ⟨hfrom, hto, hemitted.not_epoch⟩
  · intro x hx
    exact ⟨(hnew x hx).1, (hnew x hx).2.2.2⟩

lemma Applied.between {c : H} (h : Applied P icount rip kinds r r') (hicount : r.icount = icount) :
    Between grid ⟨r, c⟩ ⟨r', c⟩ (inputRecords icount rip r.log.recordCount kinds) := by
  refine .of_no_epoch h.icount_eq.ge h.log ?_
  intro x hx
  have hx' : x.icount = r.icount := (mem_inputRecords hx).1.trans hicount.symm
  exact ⟨hx'.ge, hx'.le.trans h.icount_eq.ge,
    (Record.kinds_of_isCanonical (isCanonical_of_mem_inputRecords hx)).2⟩

/-- The records of a leg: what exits emit, a frame mark, the inputs, a link. -/
inductive Leg.Writes (P : Platform H σ X) (fin : ℕ) (kinds : List InputKind)
    (a b : Station H σ) : Record H → Prop
  | emitted {x : Record H} (hx : Emitted P x) (hlt : x.icount < max fin b.rail.icount) :
      Writes P fin kinds a b x
  | mark {t n frame : ℕ} {r r1 : Rail H σ} {es : List Emit} (hcoast : Coast P t n a.rail r)
      (hfin : r.icount < fin) (henter : enter P r = .frame frame r1 es) :
      Writes P fin kinds a b ⟨r.log.recordCount, r.icount, 0, .frameMark frame⟩
  | input {t rip seq : ℕ} {x : Record H} (hx : x ∈ inputRecords t rip seq kinds) :
      Writes P fin kinds a b x
  | link {seq t rip index : ℕ} {value : H} :
      Writes P fin kinds a b ⟨seq, t, rip, .epochHash index value⟩

lemma Glide.leg (fin : ℕ) (h : Glide P grid fuel a b) : Leg P grid fuel fin [] a b := by
  obtain ⟨t, r, harrive, hon, hlinked⟩ := h
  have happlied : Applied P t 0 [] r r := rfl
  exact .epoch harrive hon happlied hlinked

lemma Journey.trans {kinds' : List InputKind} (h : Journey P grid fuel fin kinds a b)
    (h' : Journey P grid fuel fin kinds' b c) : Journey P grid fuel fin (kinds ++ kinds') a c := by
  induction h with
  | refl => exact h'
  | cons hleg _ ih =>
    rw [append_assoc]
    exact .cons hleg (ih h')

section

variable (h : Leg P grid fuel fin kinds a b)
include h

lemma Leg.between : ∃ new, Between grid a b new := by
  cases h with
  | @frame a t n frame kinds es r r1 r2 hcoast _ _ _ _ henter _ happlied =>
    obtain ⟨new, hnew, -⟩ := hcoast.between grid a.chain
    obtain ⟨hicount, new', happended, hnew'⟩ := enter_eq_frame henter
    have hexit : Between grid ⟨r, a.chain⟩ ⟨r1, a.chain⟩ _ :=
      .of_no_epoch hicount.ge happended (by
        intro x hx
        rcases mem_cons.mp hx with rfl | hx
        · exact ⟨le_rfl, hicount.ge, rfl⟩
        · obtain ⟨hemitted, hx'⟩ := hnew' x hx
          exact ⟨hx'.ge, hx'.le.trans hicount.ge, hemitted.not_epoch⟩)
    exact ⟨_, (hnew.trans hexit).trans (happlied.between hicount)⟩
  | stop harrive _ _ happlied =>
    obtain ⟨n, -, hcoast⟩ := harrive.coast
    obtain ⟨new, hnew, -⟩ := hcoast.between grid a.chain
    exact ⟨_, hnew.trans (happlied.between harrive.landed)⟩
  | @epoch a b t rip kinds r r' harrive hon happlied hlinked =>
    obtain ⟨n, -, hcoast⟩ := harrive.coast
    obtain ⟨new, hnew, -⟩ := hcoast.between grid a.chain
    have hinputs := hnew.trans (happlied.between harrive.landed)
    have hicount : b.rail.icount = t := by
      rw [hlinked.icount_eq, happlied.icount_eq, harrive.landed]
    refine ⟨_, hicount ▸ harrive.lt.le, hinputs.appended.trans hlinked.log, ?_, ?_, ?_⟩
    · intro x hx
      rcases mem_append.mp hx with hx | hx
      · exact hinputs.not_before x hx
      · obtain rfl := mem_singleton.mp hx
        exact harrive.lt.le
    · intro x hx
      rcases mem_append.mp hx with hx | hx
      · exact (hinputs.not_beyond x hx).trans hlinked.icount_eq.ge
      · obtain rfl := mem_singleton.mp hx
        exact hicount.ge
    · intro x hx hepoch
      rcases mem_append.mp hx with hx | hx
      · exact hinputs.epochs x hx hepoch
      · obtain rfl := mem_singleton.mp hx
        exact ⟨harrive.lt, hon⟩

lemma Leg.writes :
    ∃ new, Appended a.rail.log new b.rail.log ∧ ∀ x ∈ new, Leg.Writes P fin kinds a b x := by
  cases h with
  | @frame a t n frame kinds es r r1 r2 hcoast _ _ hfin _ henter _ happlied =>
    obtain ⟨emits, happended, hemits⟩ := hcoast.log
    obtain ⟨-, emits', happended', hemits'⟩ := enter_eq_frame henter
    refine ⟨_, (happended.trans happended').trans happlied.log, fun x hx => ?_⟩
    simp only [mem_append, mem_cons] at hx
    rcases hx with (hx | rfl | hx) | hx
    · exact .emitted (hemits x hx).1 (lt_max_of_lt_left ((hemits x hx).2.2.1.trans_lt hfin))
    · exact .mark hcoast hfin henter
    · exact .emitted (hemits' x hx).1 (lt_max_of_lt_left ((hemits' x hx).2 ▸ hfin))
    · exact .input hx
  | @stop a t rip kinds r r' harrive _ _ happlied =>
    obtain ⟨n, -, hcoast⟩ := harrive.coast
    obtain ⟨emits, happended, hemits⟩ := hcoast.log
    have hat : r'.icount = t := happlied.icount_eq.trans harrive.landed
    refine ⟨_, happended.trans happlied.log, fun x hx => ?_⟩
    rcases mem_append.mp hx with hx | hx
    · exact .emitted (hemits x hx).1 (lt_max_of_lt_right (hat ▸ (hemits x hx).2.2.2))
    · exact .input hx
  | @epoch a b t rip kinds r r' harrive _ happlied hlinked =>
    obtain ⟨n, -, hcoast⟩ := harrive.coast
    obtain ⟨emits, happended, hemits⟩ := hcoast.log
    have hat : b.rail.icount = t :=
      hlinked.icount_eq.trans (happlied.icount_eq.trans harrive.landed)
    refine ⟨_, (happended.trans happlied.log).trans hlinked.log, fun x hx => ?_⟩
    simp only [mem_append, mem_singleton] at hx
    rcases hx with (hx | hx) | rfl
    · exact .emitted (hemits x hx).1 (lt_max_of_lt_right (hat ▸ (hemits x hx).2.2.2))
    · exact .input hx
    · exact .link

lemma Leg.journey : Journey P grid fuel fin kinds a b := by
  simpa using Journey.cons h (.refl b)

end

lemma Journey.between (h : Journey P grid fuel fin kinds a b) : ∃ new, Between grid a b new := by
  induction h with
  | refl a => exact ⟨[], .refl a⟩
  | cons hleg _ ih =>
    obtain ⟨new, hnew⟩ := hleg.between
    obtain ⟨new', hnew'⟩ := ih
    exact ⟨_, hnew.trans hnew'⟩

lemma Glide.lt (h : Glide P grid fuel a b) : a.rail.icount < b.rail.icount := by
  obtain ⟨t, r, harrive, -, hlinked⟩ := h
  rw [hlinked.icount_eq, harrive.landed]
  exact harrive.lt

lemma between_of_glides (h : Relation.ReflTransGen (Glide P grid fuel) a b) :
    ∃ new, Between grid a b new := by
  induction h with
  | refl => exact ⟨[], .refl a⟩
  | tail _ hglide ih =>
    obtain ⟨new, hnew⟩ := ih
    obtain ⟨new', hnew'⟩ := (hglide.leg 0).between
    exact ⟨_, hnew.trans hnew'⟩

/-- Every epoch link of `new` stands in the relation `Q` to the records before
it, those of `old` included. -/
def Linkwise (Q : List (Record H) → Record H → Prop) (old : List (Record H)) :
    List (Record H) → Prop
  | [] => True
  | x :: xs => (x.epoch? ≠ none → Q old x) ∧ Linkwise Q (old ++ [x]) xs

section Linkwise

variable {Q R : List (Record H) → Record H → Prop} {old xs ys : List (Record H)}

lemma linkwise_append : Linkwise Q old (xs ++ ys) ↔
    Linkwise Q old xs ∧ Linkwise Q (old ++ xs) ys := by
  induction xs generalizing old with
  | nil => simp [Linkwise]
  | cons x xs ih => simp [Linkwise, ih, and_assoc]

lemma linkwise_of_no_epoch (h : ∀ x ∈ xs, x.epoch? = none) : Linkwise Q old xs := by
  induction xs generalizing old with
  | nil => trivial
  | cons x xs ih =>
    refine ⟨fun hepoch => absurd (h x mem_cons_self) hepoch, ih ?_⟩
    exact fun y hy => h y (mem_cons_of_mem x hy)

lemma Linkwise.mono (h : Linkwise Q old xs) (hQR : ∀ old x, Q old x → R old x) :
    Linkwise R old xs := by
  induction xs generalizing old with
  | nil => trivial
  | cons x xs ih => exact ⟨fun hepoch => hQR old x (h.1 hepoch), ih h.2⟩

lemma Linkwise.at_link {e : Record H} (h : Linkwise Q old (xs ++ e :: ys))
    (hepoch : e.epoch? ≠ none) : Q (old ++ xs) e := (linkwise_append.mp h).2.1 hepoch

end Linkwise

def Beyond (old : List (Record H)) (e : Record H) : Prop := ∀ c ∈ old, c.icount < e.icount

/-- A stretch of guest execution without inputs, as the log shows it. -/
structure Stretch (P : Platform H σ X) (r r' : Rail H σ) (new : List (Record H)) : Prop where
  icount_le : r.icount ≤ r'.icount
  appended : Appended r.log new r'.log
  not_beyond : ∀ x ∈ new, x.icount ≤ r'.icount
  fresh : (∀ x ∈ r.log.records, x.icount ≤ r.icount) → Linkwise Beyond r.log.records new
  regenerated : ∀ x ∈ new, x.isCanonical = true → regenerated P x = true

namespace Stretch

variable {r1 : Rail H σ} {xs ys : List (Record H)}

lemma refl (r : Rail H σ) : Stretch P r r [] :=
  ⟨le_rfl, .refl _, by simp, fun _ => trivial, by simp⟩

lemma bounded (h : Stretch P r r' xs) (hr : ∀ x ∈ r.log.records, x.icount ≤ r.icount) :
    ∀ x ∈ r'.log.records, x.icount ≤ r'.icount := by
  intro x hx
  rw [h.appended.records_eq] at hx
  rcases mem_append.mp hx with hx | hx
  · exact (hr x hx).trans h.icount_le
  · exact h.not_beyond x hx

lemma trans (h : Stretch P r r1 xs) (h' : Stretch P r1 r' ys) : Stretch P r r' (xs ++ ys) where
  icount_le := h.icount_le.trans h'.icount_le
  appended := h.appended.trans h'.appended
  not_beyond := by
    intro x hx
    rcases mem_append.mp hx with hx | hx
    · exact (h.not_beyond x hx).trans h'.icount_le
    · exact h'.not_beyond x hx
  fresh := by
    intro hr
    refine linkwise_append.mpr ⟨h.fresh hr, ?_⟩
    rw [← h.appended.records_eq]
    exact h'.fresh (h.bounded hr)
  regenerated := by
    intro x hx
    rcases mem_append.mp hx with hx | hx
    · exact h.regenerated x hx
    · exact h'.regenerated x hx

lemma of_emitted (hle : r.icount ≤ r'.icount) (happended : Appended r.log xs r'.log)
    (hxs : ∀ x ∈ xs, Emitted P x ∧ x.icount ≤ r'.icount) : Stretch P r r' xs where
  icount_le := hle
  appended := happended
  not_beyond := fun x hx => (hxs x hx).2
  fresh := fun _ => linkwise_of_no_epoch fun x hx => (hxs x hx).1.not_epoch
  regenerated := fun x hx => (hxs x hx).1.regenerated

end Stretch

lemma Coast.stretch (h : Coast P t n r r') :
    ∃ new, Stretch P r r' new ∧ ∀ x ∈ new, Emitted P x ∧ x.icount < t := by
  obtain ⟨new, happended, hnew⟩ := h.log
  refine ⟨new, .of_emitted h.le happended fun x hx => ⟨(hnew x hx).1, (hnew x hx).2.2.1⟩, ?_⟩
  exact fun x hx => ⟨(hnew x hx).1, (hnew x hx).2.2.2⟩

lemma stretch_of_frame {frame : ℕ} {es : List Emit} (h : enter P r = .frame frame r' es) :
    ∃ new, Stretch P r r' new := by
  obtain ⟨hicount, emits, happended, hemits⟩ := enter_eq_frame h
  refine ⟨_, hicount.ge, happended, ?_, fun _ => linkwise_of_no_epoch ?_, ?_⟩ <;>
  · intro x hx
    rcases mem_cons.mp hx with rfl | hx
    · first | exact hicount.ge | rfl | (intro h; cases h)
    · first
        | exact (hemits x hx).2.le.trans hicount.ge
        | exact (hemits x hx).1.not_epoch
        | exact (hemits x hx).1.regenerated

lemma Leg.stretch (h : Leg P grid fuel fin [] a b) : ∃ new, Stretch P a.rail b.rail new := by
  cases h with
  | frame hcoast _ _ _ _ henter _ happlied =>
    obtain rfl := happlied
    obtain ⟨xs, hxs, -⟩ := hcoast.stretch
    obtain ⟨ys, hys⟩ := stretch_of_frame henter
    exact ⟨_, hxs.trans hys⟩
  | stop _ _ hne _ => exact absurd rfl hne
  | @epoch _ _ t rip _ r r' harrive _ happlied hlinked =>
    obtain rfl := happlied
    obtain ⟨n, -, hcoast⟩ := harrive.coast
    obtain ⟨xs, hxs, hbelow⟩ := hcoast.stretch
    have hat : b.rail.icount = t := hlinked.icount_eq.trans harrive.landed
    refine ⟨_, hat ▸ harrive.lt.le, hxs.appended.trans hlinked.log, ?_, ?_, ?_⟩
    · intro x hx
      rcases mem_append.mp hx with hx | hx
      · exact hat ▸ (hbelow x hx).2.le
      · obtain rfl := mem_singleton.mp hx
        exact hat.ge
    · intro ha
      refine linkwise_append.mpr ⟨hxs.fresh ha, fun _ c hc => ?_, trivial⟩
      rcases mem_append.mp hc with hc | hc
      · exact (ha c hc).trans_lt harrive.lt
      · exact (hbelow c hc).2
    · intro x hx hcanonical
      rcases mem_append.mp hx with hx | hx
      · exact hxs.regenerated x hx hcanonical
      · obtain rfl := mem_singleton.mp hx
        cases hcanonical

lemma Journey.stretch (h : Journey P grid fuel fin kinds a b) (hkinds : kinds = []) :
    ∃ new, Stretch P a.rail b.rail new := by
  induction h with
  | refl a => exact ⟨[], .refl _⟩
  | cons hleg _ ih =>
    obtain ⟨rfl, hrest⟩ := append_eq_nil_iff.mp hkinds
    obtain ⟨xs, hxs⟩ := hleg.stretch
    obtain ⟨ys, hys⟩ := ih hrest
    exact ⟨_, hxs.trans hys⟩

end Legs

end DetHypervisor
