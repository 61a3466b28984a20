import DetHypervisor.Sessions

/-!
# The drain at a pause

A run hashes its stop boundary and then drains the channel. A replay of the log behind it drains
first and hashes then, because the SDK events make it take the terminal tail.
-/

namespace DetHypervisor

open List Except

variable {H σ X : Type} {P : Platform H σ X} {fuel : ℕ} {log : SealedLog H}

/-! ## What is assumed of hash and channel -/

/-- Chain values determine what was linked, and no value is its own link. -/
structure FaithfulLinks (P : Platform H σ X) : Prop where
  injective : ∀ {c c' : H} {i i' : Image} {n v : ℕ}, P.link c i n v = P.link c' i' n v →
    c = c' ∧ i = i'
  acyclic : ∀ (c : H) (i : Image) (n v : ℕ), P.link c i n v ≠ c

/-- A drain of an empty ring does nothing. One that finds events logs them,
logs the new consumer index and writes it to guest RAM. -/
def DrainsShow (P : Platform H σ X) : Prop :=
  ∀ {n : ℕ} {s s' : σ} {es : List Emit}, P.service n .pauseDrain s = .ok (s', es) →
    (es = [] ∧ s' = s) ∨ ((∃ event, .sdk event ∈ es) ∧ (∃ data, .channel .consBump data ∈ es) ∧
      P.image s' ≠ P.image s)

def ChannelEmpty (P : Platform H σ X) (n : ℕ) (s : σ) : Prop :=
  P.detchannel = true → P.service n .pauseDrain s = .ok (s, [])

structure DrainedSome (P : Platform H σ X) (n : ℕ) (r r' : Rail H σ) (es : List Emit)
    (new : List (Record H)) : Prop where
  icount_eq : r'.icount = r.icount
  appended : Appended r.log new r'.log
  emitted : ∀ x ∈ new, Emitted P x ∧ x.icount = n
  bodies : new.map (·.body) = es.map Emit.body
  sdk : ∃ event, .sdk event ∈ es
  bump : ∃ data, .channel .consBump data ∈ es
  image_ne : P.image r'.machine ≠ P.image r.machine

lemma drainedSome_of_drain (hshow : DrainsShow P) {n : ℕ} {r r' : Rail H σ} {es : List Emit}
    (h : r.drainAtPause P n = .ok (r', es)) (hne : ¬ChannelEmpty P n r.machine) :
    ∃ new, DrainedSome P n r r' es new := by
  obtain ⟨hchannel, hservice⟩ : P.detchannel = true ∧
      P.service n .pauseDrain r.machine ≠ .ok (r.machine, []) := by
    simpa [ChannelEmpty] using hne
  rw [Rail.drainAtPause, if_pos hchannel] at h
  obtain ⟨hicount, marks, new, happended, hnew, hmarks⟩ := Rail.service_spec h
  obtain rfl : marks = [] := hmarks
  obtain ⟨s, r1, hs, hmark, hemit⟩ := Rail.service_eq_ok h
  obtain rfl : _ = r1 := Except.ok.inj hmark
  obtain ⟨hmachine, -, new', happended', -, hbodies⟩ := Rail.emit_spec hemit
  have hsame : new' = new :=
    append_cancel_left (happended'.records_eq.symm.trans happended.records_eq)
  rcases hshow hs with ⟨rfl, rfl⟩ | ⟨hsdk, hbump, himage⟩
  · exact absurd hs hservice
  · refine ⟨new, hicount, happended, hnew, hsame ▸ hbodies, hsdk, hbump, ?_⟩
    rw [hmachine]
    exact himage

/-! ## A journey that ends with its link -/

section Closing

variable {grid : Option ℕ} {fin : ℕ} {kinds : List InputKind} {a b m : Station H σ}

lemma Leg.mark_lt (h : Leg P grid fuel fin kinds a b) {x : Record H} (hx : x ∈ b.rail.log.records)
    (hmark : x.isFrameMark = true) : x ∈ a.rail.log.records ∨ x.icount < fin := by
  obtain ⟨new, happended, hnew⟩ := h.writes
  rw [happended.records_eq] at hx
  rcases mem_append.mp hx with hx | hx
  · exact .inl hx
  · cases hnew x hx with
    | emitted hemitted _ => simp [hemitted.not_mark] at hmark
    | mark _ hfin _ => exact .inr hfin
    | input hinput =>
      simp [(Record.kinds_of_isCanonical (isCanonical_of_mem_inputRecords hinput)).1] at hmark
    | link => cases hmark

lemma Journey.mark_lt (h : Journey P grid fuel fin kinds a b) {x : Record H}
    (hx : x ∈ b.rail.log.records) (hmark : x.isFrameMark = true) :
    x ∈ a.rail.log.records ∨ x.icount < fin := by
  induction h with
  | refl => exact .inl hx
  | cons hleg _ ih =>
    rcases ih hx with hx | hlt
    · exact hleg.mark_lt hx hmark
    · exact .inr hlt

lemma Journey.closing (h : Journey P grid fuel fin kinds a m)
    (ha : ∀ x ∈ a.rail.log.records, x.icount ≤ a.rail.icount) (hstart : a.rail.icount < fin)
    (hm : m.rail.icount = fin) (hon : OnGrid grid fin) :
    ∃ front e, m.rail.log.records = front ++ [e] ∧ e.epoch? ≠ none ∧ e.icount = fin := by
  induction h with
  | refl => omega
  | @cons kinds kinds' a b m hleg hrest ih =>
    obtain ⟨new, hnew⟩ := hleg.between
    have hb : ∀ x ∈ b.rail.log.records, x.icount ≤ b.rail.icount := by
      intro x hx
      rw [hnew.appended.records_eq] at hx
      rcases mem_append.mp hx with hx | hx
      · exact (ha x hx).trans hnew.icount_le
      · exact hnew.not_beyond x hx
    by_cases hlt : b.rail.icount < fin
    · exact ih hb hlt hm
    · -- Nothing can follow a leg that arrives at the end.
      obtain rfl : m = b := hrest.eq_of_fin_le (by omega) (by omega)
      cases hleg with
      | frame _ _ _ hfin _ henter _ happlied =>
        have := happlied.icount_eq.trans (enter_eq_frame henter).1
        simp only at hm
        omega
      | stop harrive hoff _ happlied =>
        have hat := happlied.icount_eq.trans harrive.landed
        simp only at hm
        exact absurd (hat.symm.trans hm ▸ hon) hoff
      | epoch harrive _ happlied hlinked =>
        have hat := hlinked.icount_eq.trans (happlied.icount_eq.trans harrive.landed)
        refine ⟨_, _, hlinked.log.records_eq, ?_, ?_⟩
        · simp [Record.epoch?]
        · exact hat.symm.trans hm

end Closing

/-! ## Where the walk of a replay stops -/

section Anchors

variable [DecidableEq H] {st st' : ReplayState H σ}

def Anchored (P : Platform H σ X) (log : SealedLog H) (st : ReplayState H σ) : Prop :=
  st.rail.icount = 0 ∨ ∃ x ∈ log.records,
    (ownInput P x = true ∨ x.isFrameMark = true) ∧ x.icount = st.rail.icount

def MarksOf (log : SealedLog H) (st : ReplayState H σ) : Prop :=
  ∀ mark ∈ st.marks, mark ∈ log.records ∧ mark.isFrameMark = true

lemma Anchored.marksBefore {seqLimit icountLimit : ℕ} {defer : Bool} {marks : List (Record H)}
    (h : Anchored P log st) (hlog : MarksOf log st) (hmarks : st.marks = marks)
    (hrun : replayFrameMarksBefore P fuel log seqLimit icountLimit defer marks st = .ok st') :
    Anchored P log st' ∧ MarksOf log st' := by
  induction marks generalizing st with
  | nil =>
    cases hrun
    rw [← hmarks]
    exact ⟨h, hlog⟩
  | cons mark marks ih =>
    rw [replayFrameMarksBefore] at hrun
    split_ifs at hrun with hlimit
    · cases hrun
      rw [← hmarks]
      exact ⟨h, hlog⟩
    · obtain ⟨⟨out, st1⟩, hto, hrun⟩ := bind_eq_ok.mp hrun
      have hran := runTo_eq_ok (by simp) hto
      cases out with
      | none => cases hrun
      | some o =>
        simp only at hrun
        split_ifs at hrun with hout
        have hmark := hlog mark (hmarks ▸ mem_cons_self)
        refine ih (.inr ⟨mark, hmark.1, .inr hmark.2, ?_⟩) ?_ hran.marks_eq hrun
        · exact hout.2.1.symm.trans (hran.boundary_eq o rfl)
        · intro x hx
          rw [hran.marks_eq] at hx
          exact hlog x (hmarks ▸ mem_cons_of_mem mark hx)

lemma Anchored.canonical {recs : List (Record H)} (h : Anchored P log st) (hlog : MarksOf log st)
    (hrecs : ∀ r ∈ recs, r ∈ log.canonical) (hrun : replayCanonical P fuel log recs st = .ok st') :
    Anchored P log st' ∧ MarksOf log st' := by
  induction recs generalizing st with
  | nil =>
    cases hrun
    exact ⟨h, hlog⟩
  | cons r rest ih =>
    obtain ⟨st1, hmarks, hrun⟩ := bind_eq_ok.mp hrun
    obtain ⟨h1, hlog1⟩ := h.marksBefore hlog rfl hmarks
    have hrest : ∀ x ∈ rest, x ∈ log.canonical := fun x hx => hrecs x (mem_cons_of_mem r hx)
    cases hkind : r.body.input? with
    | none => simp [hkind] at hrun
    | some kind =>
      simp only [hkind] at hrun
      split_ifs at hrun with hown
      · exact ih h1 hlog1 hrest hrun
      · obtain ⟨st2, hrecord, hrun⟩ := bind_eq_ok.mp hrun
        obtain ⟨hmem, hcanonical⟩ := mem_filter.mp (hrecs r mem_cons_self)
        obtain ⟨hicount, hmarks2⟩ := applyRecord_eq_ok hrecord
        refine ih (.inr ⟨r, hmem, .inl ?_, hicount.symm⟩) ?_ hrest hrun
        · simp [ownInput, hcanonical, hown]
        · intro x hx
          exact hlog1 x (hmarks2 ▸ hx)

lemma replayWalk_anchored {base : Restored H σ}
    (h : replayWalk P fuel log (startReplay P base log) = .ok st) : Anchored P log st := by
  obtain ⟨st1, hcanonical, hmarks⟩ := bind_eq_ok.mp h
  have hstart : Anchored P log (startReplay P base log) := .inl rfl
  obtain ⟨h1, hlog⟩ := hstart.canonical (fun x hx => mem_filter.mp hx) (fun r hr => hr)
    hcanonical
  exact (h1.marksBefore hlog rfl hmarks).1

end Anchors

/-! ## The end of a run that left events in the channel -/

/-- A sealed log behind an itinerary whose last stop was drained. -/
structure Paused (P : Platform H σ X) (fuel : ℕ) (base : Restored H σ) (log : SealedLog H)
    (kinds : List InputKind) (m z : Station H σ) (r : Rail H σ) (es : List Emit)
    (new : List (Record H)) : Prop where
  journey : Journey P (epochGrid P {}) fuel log.ending.endIcount kinds
    (startStation P base log.header) m
  ends : Ends P (epochGrid P {}) fuel m log.ending.endIcount z
  drain : z.rail.drainAtPause P log.ending.endIcount = .ok (r, es)
  drained : DrainedSome P log.ending.endIcount z.rail r es new
  records_eq : r.log.records = log.records
  chain_eq : z.chain = log.ending.endStateHash
  count_lt : log.records.length < 2 ^ 32
  end_lt : log.ending.endIcount < 2 ^ 64
  clock : P.config.clock.vnsFromIcount log.ending.endIcount = some log.ending.endVns
  reason_eq : log.ending.stopReason = 1

namespace Paused

variable {base : Restored H σ} {kinds : List InputKind} {m z : Station H σ} {r : Rail H σ}
  {es : List Emit} {new : List (Record H)}

section

variable (h : Paused P fuel base log kinds m z r es new)
include h

lemma split : ∃ emits, z.rail.log.records = m.rail.log.records ++ emits ∧
      log.records = m.rail.log.records ++ (emits ++ new) ∧
      ∀ x ∈ emits, Emitted P x ∧ x.icount < log.ending.endIcount := by
  obtain ⟨n, -, hcoast⟩ := h.ends.coast
  obtain ⟨emits, happended, hemits⟩ := hcoast.log
  refine ⟨emits, happended.records_eq, ?_, fun x hx => ⟨(hemits x hx).1, (hemits x hx).2.2.2⟩⟩
  rw [← h.records_eq, (happended.trans h.drained.appended).records_eq]

lemma icount_le : m.rail.icount ≤ log.ending.endIcount := by
  obtain ⟨n, -, hcoast⟩ := h.ends.coast
  exact hcoast.le.trans h.ends.landed.le

lemma terminalSdkTarget_eq : ∃ target, log.terminalSdkTarget = some target := by
  obtain ⟨emits, -, hsplit, -⟩ := h.split
  obtain ⟨event, hevent⟩ := h.drained.sdk
  have hbody : (.sdkEvent event : RecordBody H) ∈ new.map (·.body) := by
    rw [h.drained.bodies]
    exact mem_map.mpr ⟨.sdk event, hevent, rfl⟩
  obtain ⟨x, hx, hxBody⟩ := mem_map.mp hbody
  have hmem : event ∈ log.records.filterMap (SealedLog.sdkAt log.ending.endIcount) := by
    refine mem_filterMap.mpr ⟨x, ?_, ?_⟩
    · rw [hsplit]
      exact mem_append_right _ (mem_append_right _ hx)
    · simp [SealedLog.sdkAt, hxBody, (h.drained.emitted x hx).2]
  unfold SealedLog.terminalSdkTarget
  cases hlast : (log.records.filterMap (SealedLog.sdkAt log.ending.endIcount)).getLast? with
  | some target => exact ⟨target, rfl⟩
  | none =>
    rw [getLast?_eq_none_iff.mp hlast] at hmem
    cases hmem

lemma followable (hunmixed : log.Unmixed) (hframes : log.FramesFit) : Followable P log := by
  obtain ⟨emits, -, hsplit, hemits⟩ := h.split
  refine followable_of_journey h.journey h.icount_le hsplit ?_ (h.records_eq ▸ r.log.valid)
    h.count_lt h.end_lt h.clock hunmixed hframes
  intro x hx
  rcases mem_append.mp hx with hx | hx
  · exact ⟨(hemits x hx).1, (hemits x hx).2.le⟩
  · exact ⟨(h.drained.emitted x hx).1, (h.drained.emitted x hx).2.le⟩

end

/-- If a replay stands at the end before its tail, no link of the end is behind it. -/
lemma lastEpoch_ne [DecidableEq H] {st : ReplayState H σ}
    (h : Paused P fuel base log kinds m z r es new) (hunmixed : log.Unmixed)
    (hanchored : Anchored P log st) (hicount : st.rail.icount = log.ending.endIcount)
    (hm : m.rail.icount = log.ending.endIcount) :
    lastEpoch m.rail.log.records ≠ some log.ending.endIcount := by
  intro hlast
  obtain ⟨emits, -, hsplit, hemits⟩ := h.split
  obtain ⟨trip, htrip⟩ := h.journey.between
  have hrecords : m.rail.log.records = trip := htrip.appended.records_eq
  obtain ⟨y, hy, hyEpoch, hyAt⟩ := exists_of_lastEpoch hlast
  obtain ⟨hpos, hon⟩ := htrip.epochs y (hrecords ▸ hy) hyEpoch
  rw [hyAt] at hpos hon
  obtain ⟨front, e, hfront, hepoch, heAt⟩ := h.journey.closing (by rintro x ⟨⟩) hpos hm hon
  rcases hanchored with hzero | ⟨x, hx, hkind, hxAt⟩
  · have : (0 : ℕ) < log.ending.endIcount := hpos
    omega
  · rw [hicount] at hxAt
    -- The record that the replay ran to lies on the journey.
    have hxm : x ∈ m.rail.log.records := by
      rw [hsplit] at hx
      rcases mem_append.mp hx with hx | hx
      · exact hx
      · have hemitted : Emitted P x := by
          rcases mem_append.mp hx with hx | hx
          · exact (hemits x hx).1
          · exact (h.drained.emitted x hx).1
        rcases hkind with hown | hmark
        · simp only [ownInput, Bool.and_eq_true, Bool.not_eq_true'] at hown
          rw [hemitted.regenerated hown.1] at hown
          cases hown.2
        · simp [hemitted.not_mark] at hmark
    have hcanonical : x.isCanonical = true := by
      rcases hkind with hown | hmark
      · exact (Bool.and_eq_true_iff.mp hown).1
      · rcases h.journey.mark_lt hxm hmark with hx | hlt
        · cases hx
        · omega
    obtain ⟨data, hdata⟩ := h.drained.bump
    have hbody : (Emit.channel .consBump data).body ∈ new.map (·.body) := by
      rw [h.drained.bodies]
      exact mem_map_of_mem hdata
    obtain ⟨d, hd, hdBody⟩ := mem_map.mp hbody
    have hordered : Ordered (front ++ [e] ++ (emits ++ new)) := by
      rw [← hfront, ← hsplit, ← h.records_eq]
      exact r.log.ordered
    have hseq : ∀ {u v : Record H}, u ∈ front ++ [e] → v ∈ emits ++ new → u.seq < v.seq :=
      fun hu hv => ((pairwise_append.mp hordered).2.2 _ hu _ hv).1
    have hxe : x.seq < e.seq := by
      rw [hfront] at hxm
      rcases mem_append.mp hxm with hxm | hxm
      · exact ((pairwise_append.mp (pairwise_append.mp hordered).1).2.2 x hxm e
          mem_cons_self).1
      · obtain rfl := mem_singleton.mp hxm
        rw [(Record.kinds_of_isCanonical hcanonical).2] at hepoch
        exact absurd rfl hepoch
    have hmemLog : ∀ {u : Record H}, u ∈ front ++ [e] → u ∈ log.records := by
      intro u hu
      rw [hsplit, hfront]
      exact mem_append_left _ hu
    refine hunmixed x (hmemLog (hfront ▸ hxm)) e (hmemLog (by simp)) d ?_ hcanonical hepoch ?_ hxe
      (hseq (by simp) (mem_append_right _ hd)) ⟨hxAt.trans heAt.symm, ?_⟩
    · rw [hsplit]
      exact mem_append_right _ (mem_append_right _ hd)
    · rw [Record.isCanonical, hdBody]
      rfl
    · exact ((h.drained.emitted d hd).2).trans heAt.symm

lemma not_accepted [DecidableEq H] (h : Paused P fuel base log kinds m z r es new)
    (hlinks : FaithfulLinks P) (hunmixed : log.Unmixed) (hframes : log.FramesFit)
    (hkinds : ∀ kind ∈ kinds, Applicable P kind) (result : ReplayOutcome H) :
    replaySegment P fuel base log ≠ .ok result := by
  intro hreplay
  have hlog := h.followable hunmixed hframes
  obtain ⟨emits, hzrecords, hsplit, hemits⟩ := h.split
  obtain ⟨trip, htrip⟩ := h.journey.between
  have hrecords : m.rail.log.records = trip := htrip.appended.records_eq
  have hbound : ∀ x ∈ m.rail.log.records, x.icount ≤ m.rail.icount :=
    fun x hx => htrip.not_beyond x (hrecords ▸ hx)
  obtain ⟨b, st, hwalk, hst, hglides, -⟩ := walk_of_journey hlog h.journey h.icount_le hkinds hsplit
    (by
      intro x hx
      rcases mem_append.mp hx with hx | hx
      · exact (hemits x hx).1
      · exact (h.drained.emitted x hx).1)
  obtain ⟨-, -, expected, st1, out, st2, liveEnd, st', -, hwalk1, htail, hlive, hconclude⟩ :=
    replaySegment_eq_ok hreplay
  obtain rfl : st = st1 := Except.ok.inj (hwalk.symm.trans hwalk1)
  obtain ⟨target, htarget⟩ := h.terminalSdkTarget_eq
  obtain ⟨-, hend, -⟩ := concludeReplay_eq_ok hconclude
  rcases replayTail_eq_ok htail with ⟨hnone, -⟩ | ⟨target', st3, -, hterm, rfl⟩
  · rw [htarget] at hnone
    cases hnone
  obtain ⟨st4, rail, es', observed, hto, hdrain, hrail, -, -, haudit, -, -, hchain⟩ :=
    terminalTail_eq_ok hterm
  obtain ⟨tail, o, hrun, hout⟩ := h.ends.runTo_eq false hst hglides hsplit hbound h.end_lt h.clock
  cases hto.symm.trans hrun
  obtain ⟨rfl, rfl⟩ : rail = r ∧ es' = es :=
    Prod.mk.inj (Except.ok.inj (hdrain.symm.trans h.drain))
  obtain ⟨vns, hvns, hzchain⟩ := h.ends.chain_eq
  obtain rfl : vns = log.ending.endVns := Option.some.inj (hvns.symm.trans h.clock)
  -- The link over the drained machine is not the recorded end.
  have hne : P.link m.chain (P.image rail.machine) log.ending.endIcount log.ending.endVns ≠
      log.ending.endStateHash := by
    rw [← h.chain_eq, hzchain]
    split_ifs
    · exact hlinks.acyclic _ _ _ _
    · intro heq
      exact h.drained.image_ne (hlinks.injective heq).2
  have hlinked : (linkAtEnd P log out st3).chain =
      P.link m.chain (P.image rail.machine) log.ending.endIcount log.ending.endVns := by
    rcases hout with ⟨rfl, hzm⟩ | ⟨o', rfl, -, hboundary, -⟩
    · have hm : m.rail.icount = log.ending.endIcount := hzm ▸ h.ends.landed
      have hstay := (runTo_eq_ok (by simp) hto).stayed rfl
      have hlast := h.lastEpoch_ne hunmixed (replayWalk_anchored hwalk) hstay.2 hm
      have hepoch : st3.audit.lastEpochIcount = lastEpoch m.rail.log.records := by
        obtain ⟨o'', ho''⟩ := noteTerminal_eq (some target') log.ending.endIcount
          (es'.filterMap Emit.sdk?) (auditAt z.rail.log.records o)
        rw [haudit, ho'', hzm]
        rfl
      have hicount : st3.rail.icount = log.ending.endIcount := by
        rw [hrail, h.drained.icount_eq, h.ends.landed]
      have hchain3 : st3.chain = m.chain := by simpa using hchain
      rw [hrail] at hicount
      simp [linkAtEnd, hicount, hepoch, hlast, pushReplayLink, hchain3, hrail]
    · simpa [linkAtEnd, hboundary] using hchain
  rcases liveEndOf_eq_ok hlive with ⟨-, hvalue | ⟨-, hallowed⟩⟩ | ⟨hnone, -⟩
  · rw [hlinked, hend] at hvalue
    exact hne hvalue.symm
  · rcases hout with ⟨rfl, -⟩ | ⟨o', rfl, -, hboundary, -⟩
    · cases hallowed
    · unfold substitutionAllowed at hallowed
      split at hallowed
      · rename_i out seen hsome _
        cases hsome
        simp [hboundary] at hallowed
      · cases hallowed
  · rw [htarget] at hnone
    cases hnone

end Paused

/-! ## The last run of a session -/

section LastRun

variable {base : Restored H σ} {header : SegmentHeader H} {snapshotId : H} {b : ℕ}
  {liveInputs : ℕ → List InputKind} {rt rt' : Recording H σ} {kinds kinds0 : List InputKind}
  {m : Station H σ}

lemma BudgetRun.applicable (h : BudgetRun P fuel b liveInputs rt rt' kinds m)
    (hqueued : ∀ input ∈ rt.queued, Applicable P input.kind)
    (hlive : ∀ frame, ∀ kind ∈ liveInputs frame, Applicable P kind) :
    (∀ kind ∈ kinds, Applicable P kind) ∧ ∀ input ∈ rt'.queued, Applicable P input.kind := by
  obtain ⟨taken, live, rest, hkinds, hlive', hdue, hrest⟩ := h.took
  constructor
  · intro kind hkind
    rcases mem_append.mp (hkinds.mem_iff.mp hkind) with hkind | hkind
    · obtain ⟨input, hinput, rfl⟩ := mem_map.mp hkind
      have hmem := hdue.mem_iff.mpr (mem_append_left rest hinput)
      exact hqueued input (mem_filter.mp hmem).1
    · obtain ⟨frame, hframe⟩ := hlive' kind hkind
      exact hlive frame kind hframe
  · intro input hinput
    rw [hrest] at hinput
    exact hqueued input (mem_filter.mp hinput).1

lemma mem_queued_inject {events : List ScheduledEvent} {input : QueuedInput}
    (h : input ∈ (inject P events rt).queued) :
    input ∈ rt.queued ∨ input ∈ acceptedInputs P events rt :=
  mem_append.mp ((inject_spec P events rt).2.2.mem_iff.mp h)

lemma Session.journey {rounds : List Round} {inputs : List QueuedInput}
    (h : Session P fuel rounds rt inputs rt')
    (hjourney : Journey P (epochGrid P {}) fuel rt.rail.icount kinds0
      (startStation P base header) ⟨rt.rail, rt.chain⟩)
    (haligned : Aligned (epochGrid P {}) rt.rail.icount (rounds.map (·.budget) ++ [b]))
    (hkinds : ∀ kind ∈ kinds0, Applicable P kind)
    (hqueued : ∀ input ∈ rt.queued ++ inputs, Applicable P input.kind)
    (hlive : ∀ round ∈ rounds, ∀ frame, ∀ kind ∈ round.liveInputs frame, Applicable P kind) :
    (rt'.rail.icount = 0 ∨ 0 < b) ∧ (∀ input ∈ rt'.queued, Applicable P input.kind) ∧
      ∃ kinds, Journey P (epochGrid P {}) fuel rt'.rail.icount kinds
        (startStation P base header) ⟨rt'.rail, rt'.chain⟩ ∧ ∀ kind ∈ kinds, Applicable P kind := by
  induction h generalizing kinds0 with
  | nil => exact ⟨haligned, by simpa using hqueued, kinds0, hjourney, hkinds⟩
  | @cons round rest rt rt1 rt' inputs out s hrun hreason hquiet hdrive hrest ih =>
    obtain ⟨hrail, hchain, -⟩ := inject_spec P round.events rt
    obtain ⟨kinds, m, hbudget⟩ := budgetRun_of_drive hdrive hrun hreason hquiet
    rw [← hrail, ← hchain] at hjourney
    rw [← hrail] at haligned
    obtain ⟨hb, hon, hnext⟩ : 0 < round.budget ∧
        OnGrid (epochGrid P {}) ((inject P round.events rt).rail.icount + round.budget) ∧
        Aligned (epochGrid P {}) ((inject P round.events rt).rail.icount + round.budget)
          (rest.map (·.budget) ++ [b]) := by
      cases rest <;> exact haligned
    rw [← hbudget.icount_eq] at hnext
    obtain ⟨hnew, hleft⟩ := hbudget.applicable
      (fun input hinput => hqueued input (by
        rcases mem_queued_inject hinput with hinput | hinput
        · exact mem_append_left _ hinput
        · exact mem_append_right _ (mem_append_left _ hinput)))
      (hlive round mem_cons_self)
    refine ih (hbudget.extends_journey hjourney hb hon) hnext ?_ ?_ ?_
    · intro kind hkind
      exact (mem_append.mp hkind).elim (hkinds kind) (hnew kind)
    · intro input hinput
      rcases mem_append.mp hinput with hinput | hinput
      · exact hleft input hinput
      · exact hqueued input (mem_append_right _ (mem_append_right _ hinput))
    · intro r hr
      exact hlive r (mem_cons_of_mem round hr)

variable {out : SegmentOutcome H} {s : Seg H σ Unit}

lemma paused_of_drive
    (hdrive : driveRecordedRun P fuel (.ofBudget b liveInputs) rt = .ok (out, rt'))
    (hrun : runSegment P fuel (recordRequest (.ofBudget b liveInputs) rt) rt.rail rt.chain () =
      .ok (out, s)) (hreason : out.reason = .budgetReached) (hshow : DrainsShow P)
    (hne : ¬ChannelEmpty P s.rail.icount s.rail.machine)
    (hjourney : Journey P (epochGrid P {}) fuel rt.rail.icount kinds0
      (startStation P base header) ⟨rt.rail, rt.chain⟩) (hmove : rt.rail.icount = 0 ∨ 0 < b)
    (hseal : sealSegment P snapshotId rt' = .ok log) (hkinds : ∀ kind ∈ kinds0, Applicable P kind)
    (hqueued : ∀ input ∈ rt.queued, Applicable P input.kind)
    (hlive : ∀ frame, ∀ kind ∈ liveInputs frame, Applicable P kind) :
    ∃ kinds m z r es new, Paused P fuel base log kinds m z r es new ∧
      ∀ kind ∈ kinds, Applicable P kind := by
  obtain ⟨-, ⟨es, hdrain⟩, kinds, m, hbudget⟩ := budgetRun_before_drain hdrive hrun hreason
  obtain ⟨hheader, htrip, hends⟩ := hbudget.itinerary hjourney hmove
  obtain ⟨new, hdrained⟩ := drainedSome_of_drain hshow hdrain hne
  obtain ⟨-, vns, hvns, hcount, rfl⟩ := sealSegment_eq_ok hseal
  have hsegment : rt'.segmentIcount = rt.rail.icount + b := hbudget.segment_eq
  have hicount : s.rail.icount = rt'.segmentIcount := hbudget.icount_eq.trans hsegment.symm
  rw [hicount] at hdrain hdrained
  refine ⟨kinds0 ++ kinds, m, ⟨s.rail, rt'.chain⟩, rt'.rail, es, new,
    ⟨?_, hends, hdrain, hdrained, rfl, rfl, hcount, ?_, hvns, rfl⟩, ?_⟩
  · have : rt'.rail.log.header = header := hdrained.appended.header_eq.trans hheader
    simpa only [this] using htrip
  · exact hsegment ▸ hbudget.end_lt
  · intro kind hkind
    exact (mem_append.mp hkind).elim (hkinds kind) ((hbudget.applicable hqueued hlive).1 kind)

end LastRun

/-- However many events the last run of a session leaves in the channel: replay
arrives at the recorded chain value exactly when it leaves none. -/
theorem pause_drain_replay_iff [DecidableEq H] {base : Restored H σ} {seed : Option H}
    {rounds : List Round} {last : Round} {rt rt' : Recording H σ} {inputs : List QueuedInput}
    {out : SegmentOutcome H} {s : Seg H σ Unit} {snapshotId : H} (hlinks : FaithfulLinks P)
    (hshow : DrainsShow P) (hsession : Session P fuel rounds (openSegment P base seed) inputs rt)
    (haligned : Aligned (epochGrid P {}) 0 (rounds.map (·.budget) ++ [last.budget]))
    (hrun : runSegment P fuel
      (recordRequest (.ofBudget last.budget last.liveInputs) (inject P last.events rt))
      (inject P last.events rt).rail (inject P last.events rt).chain () = .ok (out, s))
    (hreason : out.reason = .budgetReached)
    (hdrive : driveRecordedRun P fuel (.ofBudget last.budget last.liveInputs)
      (inject P last.events rt) = .ok (out, rt')) (hseal : sealSegment P snapshotId rt' = .ok log)
    (hinputs : ∀ input ∈ inputs ++ acceptedInputs P last.events rt, Applicable P input.kind)
    (hlive : ∀ round ∈ rounds ++ [last], ∀ frame, ∀ kind ∈ round.liveInputs frame,
      Applicable P kind) : (∃ n, Reproduces P fuel base log n) ↔ log.Unmixed ∧
      (∀ x ∈ log.records, x.isFrameMark = true → x.icount + 1000000 < 2 ^ 64) ∧
      ChannelEmpty P s.rail.icount s.rail.machine := by
  have hstart : Journey P (epochGrid P {}) fuel (openSegment P base seed).rail.icount []
      (startStation P base (newSegmentLog P base.snapshotId seed).header)
      ⟨(openSegment P base seed).rail, (openSegment P base seed).chain⟩ := .refl _
  obtain ⟨hmove, hleft, kinds0, hjourney, hkinds0⟩ := hsession.journey hstart haligned
    (by rintro kind ⟨⟩) (fun input hinput => hinputs input (mem_append_left _ hinput))
    (fun round hround => hlive round (mem_append_left _ hround))
  obtain ⟨hrail, hchain, -⟩ := inject_spec P last.events rt
  rw [← hrail] at hmove
  rw [← hrail, ← hchain] at hjourney
  have hqueued : ∀ input ∈ (inject P last.events rt).queued, Applicable P input.kind := by
    intro input hinput
    rcases mem_queued_inject hinput with hinput | hinput
    · exact hleft input hinput
    · exact hinputs input (mem_append_right _ hinput)
  have hlast : ∀ frame, ∀ kind ∈ last.liveInputs frame, Applicable P kind :=
    hlive last (mem_append_right _ mem_cons_self)
  constructor
  · rintro ⟨n, -, result, -, hreplay, -, hresealed, -⟩
    obtain ⟨hunmixed, hframes, -⟩ := of_resealed hreplay hresealed
    refine ⟨hunmixed, hframes, ?_⟩
    by_contra hne
    obtain ⟨kinds, m, z, r, es, new, hpaused, hkinds⟩ := paused_of_drive hdrive hrun hreason hshow
      hne hjourney hmove hseal hkinds0 hqueued hlast
    exact hpaused.not_accepted hlinks hunmixed hframes hkinds result hreplay
  · rintro ⟨hunmixed, hframes, hempty⟩
    obtain ⟨kinds, m, hbudget⟩ := budgetRun_of_drive hdrive hrun hreason hempty
    obtain ⟨hheader, -, htraced⟩ := hbudget.traced hjourney hmove hseal
    refine ⟨_, htraced.replay (checkHeader_newSegmentLog hheader) hunmixed hframes ?_⟩
    intro kind hkind
    exact (mem_append.mp hkind).elim (hkinds0 kind)
      ((hbudget.applicable hqueued hlast).1 kind)

/-- A guest that pushes one event as its twelfth instruction. Draining it moves
the consumer index, which is the hundreds digit. -/
def pushing : Platform LinkTrace ℕ (List Emit) :=
  scripted 10 (fun s => .debug 1 (s + 1)) fun s =>
    if 12 ≤ s ∧ s < 100 then (s + 100, [.channel .consBump [1], .sdk ⟨1, 4, 7⟩]) else (s, [])

lemma faithfulLinks_pushing : FaithfulLinks pushing := by
  constructor
  · intro c c' i i' n v h
    obtain ⟨hhead, rfl⟩ := List.cons.inj h
    exact ⟨rfl, (Prod.mk.inj hhead).1⟩
  · intro c i n v h
    exact cons_ne_self _ _ h

lemma drainsShow_pushing : DrainsShow pushing := by
  intro n s s' es h
  have h : (if 12 ≤ s ∧ s < 100 then (s + 100, [.channel .consBump [1], .sdk ⟨1, 4, 7⟩])
      else (s, [])) = (s', es) := Except.ok.inj h
  split_ifs at h with hs
  · cases h
    refine .inr ⟨⟨⟨1, 4, 7⟩, by simp⟩, ⟨_, mem_cons_self⟩, fun himage => ?_⟩
    have hbyte : UInt8.ofNat (s + 100) = UInt8.ofNat s :=
      singleton_inj.mp (singleton_inj.mp (Image.mk.inj himage).2.2)
    have := congrArg UInt8.toNat hbyte
    simp only [UInt8.toNat_ofNat'] at this
    omega
  · cases h
    exact .inl ⟨rfl, rfl⟩

/-- Cut before the push, the segment replays. -/
theorem pause_drain_replay_pushing : ∃ out s rt log,
    runSegment pushing 20 (recordRequest (.ofBudget 11 fun _ => [])
        (inject pushing [] (openSegment pushing ⟨[], 0, []⟩ none)))
        (inject pushing [] (openSegment pushing ⟨[], 0, []⟩ none)).rail [] () = .ok (out, s) ∧
      driveRecordedRun pushing 20 (.ofBudget 11 fun _ => [])
        (inject pushing [] (openSegment pushing ⟨[], 0, []⟩ none)) = .ok (out, rt) ∧
      sealSegment pushing [] rt = .ok log ∧ ∃ n, Reproduces pushing 20 ⟨[], 0, []⟩ log n := by
  obtain ⟨out, s, rt, log, hrun, hreason, hdrive, hseal, hunmixed, hframes, hempty⟩ :
      ∃ out s rt log,
      runSegment pushing 20 (recordRequest (.ofBudget 11 fun _ => [])
        (inject pushing [] (openSegment pushing ⟨[], 0, []⟩ none)))
        (inject pushing [] (openSegment pushing ⟨[], 0, []⟩ none)).rail [] () = .ok (out, s) ∧
      out.reason = .budgetReached ∧
      driveRecordedRun pushing 20 (.ofBudget 11 fun _ => [])
        (inject pushing [] (openSegment pushing ⟨[], 0, []⟩ none)) = .ok (out, rt) ∧
      sealSegment pushing [] rt = .ok log ∧ log.Unmixed ∧
      (log.records.filter Record.isFrameMark) = [] ∧
      pushing.service s.rail.icount .pauseDrain s.rail.machine = .ok (s.rail.machine, []) :=
    ⟨_, _, _, _, rfl, rfl, rfl, rfl, by decide, rfl, rfl⟩
  refine ⟨out, s, rt, log, hrun, hdrive, hseal,
    (@pause_drain_replay_iff _ _ _ pushing 20 log _ ⟨[], 0, []⟩ none [] ⟨[], 11, fun _ => []⟩ _ _ _
      _ _ _ faithfulLinks_pushing drainsShow_pushing (.nil _) (.inl rfl) hrun hreason hdrive hseal
      ?_ ?_).mpr ⟨hunmixed, ?_, fun _ => hempty⟩⟩
  · rintro input ⟨⟩
  · intro round hround frame kind hkind
    obtain rfl := mem_singleton.mp hround
    cases hkind
  · intro x hx hmark
    exact absurd hmark (filter_eq_nil_iff.mp hframes x hx)

/-- Cut behind the push, replay drains before it links. -/
theorem drain_behind_link_diverges : ∃ out rt log expected got,
    driveRecordedRun pushing 20 (.ofBudget 15 fun _ => [])
        (openSegment pushing ⟨[], 0, []⟩ none) = .ok (out, rt) ∧
      out.reason = .budgetReached ∧ sealSegment pushing [] rt = .ok log ∧
      expected ≠ got ∧
      replaySegment pushing 20 ⟨[], 0, []⟩ log =
        .error (.divergence ⟨"end_state_hash", 15, some expected, some got⟩) :=
  ⟨_, _, _, _, _, rfl, rfl, rfl, by decide, rfl⟩

end DetHypervisor
