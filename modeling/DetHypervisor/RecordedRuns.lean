import DetHypervisor.FaithfulReplay
import DetHypervisor.Recording

/-!
# Recorded runs along an itinerary

What `Run` calls with an instruction budget leave behind, in terms of the
itinerary: a run that stops at an epoch link has just added legs, and the last
run of a segment ends it.
-/

namespace DetHypervisor

variable {H σ X : Type} {P : Platform H σ X} {grid : Option ℕ} {fuel : ℕ}
  {a b m : Station H σ} {base : Restored H σ} {fin fin' : ℕ} {kinds : List InputKind}
  {log : SealedLog H} {rt : Recording H σ} {snapshotId : H}

/-- No record lies beyond the station and every link lies on the grid. -/
structure Placed (grid : Option ℕ) (a : Station H σ) : Prop where
  not_beyond : ∀ x ∈ a.rail.log.records, x.icount ≤ a.rail.icount
  on_grid : ∀ x ∈ a.rail.log.records, x.epoch? ≠ none → OnGrid grid x.icount

lemma Placed.of_between {new : List (Record H)} (ha : Placed grid a) (h : Between grid a b new) :
    Placed grid b := by
  refine ⟨?_, ?_⟩
  · intro x hx
    rw [h.appended.records_eq] at hx
    rcases List.mem_append.mp hx with hx | hx
    · exact (ha.not_beyond x hx).trans h.icount_le
    · exact h.not_beyond x hx
  · intro x hx hepoch
    rw [h.appended.records_eq] at hx
    rcases List.mem_append.mp hx with hx | hx
    · exact ha.on_grid x hx hepoch
    · exact (h.epochs x hx hepoch).2

lemma placed_startStation (base : Restored H σ) (header : SegmentHeader H) :
    Placed grid (startStation P base header) := by
  refine ⟨?_, ?_⟩ <;>
  · intro x hx
    cases hx

lemma Placed.lastEpoch_ne (ha : Placed grid a) {n : ℕ} (h : a.rail.icount < n ∨ ¬OnGrid grid n) :
    lastEpoch a.rail.log.records ≠ some n := by
  intro hlast
  obtain ⟨x, hx, hepoch, rfl⟩ := exists_of_lastEpoch hlast
  rcases h with hlt | hoff
  · exact absurd (ha.not_beyond x hx) hlt.not_ge
  · exact hoff (ha.on_grid x hx hepoch)

lemma Leg.mono (h : Leg P grid fuel fin kinds a b) (hle : fin ≤ fin') :
    Leg P grid fuel fin' kinds a b := by
  cases h with
  | frame hcoast hfuel hlt hfin hgrid henter hframe happlied =>
    exact .frame hcoast hfuel hlt (hfin.trans_le hle) hgrid henter hframe happlied
  | stop harrive hoff hkinds happlied => exact .stop harrive hoff hkinds happlied
  | epoch harrive hon happlied hlinked => exact .epoch harrive hon happlied hlinked

lemma Journey.mono (h : Journey P grid fuel fin kinds a b) (hle : fin ≤ fin') :
    Journey P grid fuel fin' kinds a b := by
  induction h with
  | refl a => exact .refl a
  | cons hleg _ ih => exact .cons (hleg.mono hle) ih

lemma Journey.eq_of_fin_le (h : Journey P grid fuel fin kinds a m) (hfin : fin ≤ a.rail.icount)
    (hm : m.rail.icount ≤ a.rail.icount) : m = a := by
  cases h with
  | refl => rfl
  | @cons _ _ _ b _ hleg hrest =>
    obtain ⟨_, hbetween⟩ := hrest.between
    have hb := hbetween.icount_le
    cases hleg with
    | frame hcoast _ _ hlt _ _ _ _ =>
      have := hcoast.le
      omega
    | stop harrive _ _ happlied =>
      have hlt := harrive.lt
      have hat := happlied.icount_eq.trans harrive.landed
      simp only at hb
      omega
    | epoch harrive _ happlied hlinked =>
      have hlt := harrive.lt
      have hat := hlinked.icount_eq.trans (happlied.icount_eq.trans harrive.landed)
      omega

/-- A `Run` with an instruction budget and, perhaps, inputs handed in live. -/
def RunCall.ofBudget (b : ℕ) (liveInputs : ℕ → List InputKind) : RunCall where
  stop := .icountBudget b
  liveInputs := liveInputs

lemma plain_recordRequest (b : ℕ) (liveInputs : ℕ → List InputKind) (rt : Recording H σ) :
    Plain (recordRequest (.ofBudget b liveInputs) rt) where
  injections_eq := rfl
  timer_eq := rfl
  goal_eq := rfl
  awaits_eq := rfl
  pause_eq := fun _ => rfl
  frameStop_eq := fun _ => rfl
  sink := by
    intro index icount value w w' c c' h
    simp only [recordRequest, logEpochHash] at h
    split at h
    · rename_i log hlog
      simp only [Except.ok.injEq, Prod.mk.injEq] at h
      rw [hlog, h.1]
    · cases h

section Finished

variable {τ : Type} {req : RunRequest H σ τ} {vns : ℕ} {rest : List QueuedInput}
  {s s1 s' : Seg H σ τ} {boundary : Boundary} {hashed : Bool} {out : SegmentOutcome H}

lemma Finished.closes (h : Finished P grid fuel req fin rest s s1 m boundary vns hashed kinds)
    (hhashed : hashed = true)
    (hfinish : (out, s') = finish P true .budgetReached boundary vns hashed s1) :
    m = ⟨s'.rail, s'.chain⟩ := by
  rw [hhashed] at hfinish
  cases hfinish
  exact h.closed hhashed

lemma Finished.ends (h : Finished P grid fuel req fin rest s s1 m boundary vns hashed kinds)
    (hfinal : req.options.hashFinalEpoch = true) (hplaced : Placed grid ⟨s.rail, s.chain⟩)
    (hmove : s.rail.icount < fin ∨ lastEpoch s.rail.log.records ≠ some fin)
    (hfinish : (out, s') = finish P true .budgetReached boundary vns hashed s1) :
    Ends P grid fuel m fin ⟨s'.rail, s'.chain⟩ := by
  obtain ⟨new, hnew⟩ := h.journey.between
  have hstart : s.rail.icount ≤ m.rail.icount := hnew.icount_le
  obtain ⟨n, hn, hcoast⟩ := h.coast
  have hle : m.rail.icount ≤ fin := h.landed ▸ hcoast.le
  have hrail : s'.rail = s1.rail := by
    cases hfinish
    cases hashed <;> rfl
  cases hashed with
  | true =>
    have hm := h.closes rfl hfinish
    have hm' := h.closed rfl
    have hicount : m.rail.icount = fin := by rw [hm', h.landed]
    refine ⟨fun i hi hi' => absurd hi' (by omega), ⟨n, hn, by rw [hrail]; exact hcoast⟩, ?_,
      vns, h.vns_eq, ?_⟩
    · rw [hrail]
      exact h.landed
    · have hepoch := h.epoch_eq rfl
      rw [hm'] at hm ⊢
      rw [if_pos hepoch, hm]
  | false =>
    have hoff : s.rail.icount < fin → ¬OnGrid grid fin := by
      intro hlt hon
      exact Bool.false_ne_true (h.hashed_iff.mpr ⟨hon, hlt, hfinal⟩)
    have hchain : s'.chain = P.link m.chain (P.image s'.rail.machine) fin vns := by
      cases hfinish
      simp [Seg.pushLink, h.chain_eq, h.boundary_eq]
    have hlast : lastEpoch m.rail.log.records ≠ some fin := by
      rcases (hstart.trans hle).lt_or_eq with hlt | heq
      · exact (hplaced.of_between hnew).lastEpoch_ne (.inr (hoff hlt))
      · have hm : m = ⟨s.rail, s.chain⟩ := h.journey.eq_of_fin_le heq.ge (hle.trans heq.ge)
        rw [hm]
        exact hmove.resolve_left heq.not_lt
    refine ⟨?_, ⟨n, hn, by rw [hrail]; exact hcoast⟩, by rw [hrail]; exact h.landed, vns, h.vns_eq,
      by rw [if_neg hlast]; exact hchain⟩
    intro i hi hi'
    rcases hi'.lt_or_eq with hlt | rfl
    · exact h.no_grid i hi hlt
    · exact hoff (hstart.trans_lt hi)

end Finished

section Drive

variable {b : ℕ} {liveInputs : ℕ → List InputKind} {rt' : Recording H σ} {out : SegmentOutcome H}

/-- What a recorded run that succeeds has done, and what it leaves. -/
lemma driveRecordedRun_eq_ok {call : RunCall}
    (h : driveRecordedRun P fuel call rt = .ok (out, rt')) :
    ∃ s rail es, runSegment P fuel (recordRequest call rt) rt.rail rt.chain () = .ok (out, s) ∧
      s.rail.drainAtPause P out.boundary.icount = .ok (rail, es) ∧ rt' = { rt with
        rail
        chain := s.chain
        segmentIcount := out.boundary.icount
        frameCounter := P.frameCounter s.rail.machine
        queued := rt.queued.filter fun input =>
          !(s.consumed.map (·.order)).contains input.order } := by
  unfold driveRecordedRun at h
  cases hrun : runSegment P fuel (recordRequest call rt) rt.rail rt.chain () with
  | error e => simp [hrun] at h
  | ok w =>
    obtain ⟨out', s⟩ := w
    cases hdrain : s.rail.drainAtPause P out'.boundary.icount with
    | error e => simp [hrun, hdrain] at h
    | ok w =>
      obtain ⟨rail, es⟩ := w
      simp only [hrun, hdrain] at h
      cases h
      exact ⟨s, rail, es, rfl, hdrain, rfl⟩

lemma runSegment_ofBudget {s : Seg H σ Unit}
    (h : runSegment P fuel (recordRequest (.ofBudget b liveInputs) rt) rt.rail rt.chain () =
      .ok (out, s)) (hreason : out.reason = .budgetReached) :
    rt.rail.icount = rt.segmentIcount ∧ rt.rail.icount + b < 2 ^ 64 ∧
      ∃ s1 m boundary vns hashed kinds,
        Finished P (epochGrid P {}) fuel (recordRequest (.ofBudget b liveInputs) rt)
          (rt.rail.icount + b)
          (dueInputs (recordRequest (.ofBudget b liveInputs) rt) (rt.rail.icount + b))
          (startSeg (recordRequest (.ofBudget b liveInputs) rt) rt.rail rt.chain ()) s1 m boundary
          vns hashed kinds ∧ (out, s) = finish P true .budgetReached boundary vns hashed s1 :=
  runSegment_budget (plain_recordRequest b liveInputs rt) rfl rfl h hreason

lemma drainAtPause_of_quiet {n : ℕ} {r r' : Rail H σ} {es : List Emit}
    (h : r.drainAtPause P n = .ok (r', es))
    (hquiet : P.detchannel = true → P.service n .pauseDrain r.machine = .ok (r.machine, [])) :
    r' = r ∧ es = [] := by
  unfold Rail.drainAtPause at h
  split_ifs at h with hchannel
  · simp only [Rail.service, hquiet hchannel, Rail.mark, Rail.emit, Except.ok_bind,
      Except.ok.injEq, Prod.mk.injEq] at h
    exact ⟨h.1.symm, h.2.symm⟩
  · simp only [Except.ok.injEq, Prod.mk.injEq] at h
    exact ⟨h.1.symm, h.2.symm⟩

end Drive

lemma sealSegment_eq_ok (h : sealSegment P snapshotId rt = .ok log) :
    rt.queued = [] ∧ ∃ vns, P.config.clock.vnsFromIcount rt.segmentIcount = some vns ∧
      rt.rail.log.recordCount < 2 ^ 32 ∧
      log = ⟨rt.rail.log.header, ⟨snapshotId, rt.segmentIcount, vns, rt.chain, 1⟩,
        rt.rail.log.records⟩ := by
  unfold sealSegment at h
  split_ifs at h with hqueued
  refine ⟨not_not.mp hqueued, ?_⟩
  cases hvns : P.config.clock.vnsFromIcount rt.segmentIcount with
  | none => simp [hvns] at h
  | some vns =>
    simp only [hvns] at h
    split at h
    · rename_i log' hseal
      cases h
      obtain ⟨-, hcount, heq⟩ := LogWriter.seal_eq_ok_iff.mp hseal
      exact ⟨vns, rfl, hcount, heq⟩
    · cases h

lemma traced_of_sealSegment (h : sealSegment P snapshotId rt = .ok log)
    (hlt : rt.segmentIcount < 2 ^ 64)
    (hjourney : Journey P (epochGrid P {}) fuel rt.segmentIcount kinds
      (startStation P base log.header) m)
    (hends : Ends P (epochGrid P {}) fuel m rt.segmentIcount ⟨rt.rail, rt.chain⟩) :
    TracedLog P fuel base log kinds m ⟨rt.rail, rt.chain⟩ := by
  obtain ⟨-, vns, hvns, hcount, rfl⟩ := sealSegment_eq_ok h
  exact ⟨hjourney, hends, rfl, rfl, hcount, hlt, hvns, rfl⟩

section BudgetRuns

variable {b : ℕ} {liveInputs : ℕ → List InputKind} {rt' : Recording H σ} {out : SegmentOutcome H}
  {s : Seg H σ Unit}

/-- A `Run` that used up its budget and found the channel empty: what it leaves
in the slot `rt'`, in terms of the itinerary. -/
structure BudgetRun (P : Platform H σ X) (fuel b : ℕ) (liveInputs : ℕ → List InputKind)
    (rt rt' : Recording H σ) (kinds : List InputKind) (m : Station H σ) : Prop where
  end_lt : rt.rail.icount + b < 2 ^ 64
  icount_eq : rt'.rail.icount = rt.rail.icount + b
  segment_eq : rt'.segmentIcount = rt.rail.icount + b
  order_eq : rt'.nextInputOrder = rt.nextInputOrder
  journey : Journey P (epochGrid P {}) fuel (rt.rail.icount + b) kinds ⟨rt.rail, rt.chain⟩ m
  closes : 0 < b → OnGrid (epochGrid P {}) (rt.rail.icount + b) → m = ⟨rt'.rail, rt'.chain⟩
  ends : Placed (epochGrid P {}) ⟨rt.rail, rt.chain⟩ →
    0 < b ∨ lastEpoch rt.rail.log.records ≠ some (rt.rail.icount + b) →
      Ends P (epochGrid P {}) fuel m (rt.rail.icount + b) ⟨rt'.rail, rt'.chain⟩
  took : ∃ taken live rest, kinds.Perm (taken.map (·.kind) ++ live) ∧
    (∀ kind ∈ live, ∃ frame, kind ∈ liveInputs frame) ∧
    (dueInputs (recordRequest (.ofBudget b liveInputs) rt) (rt.rail.icount + b)).Perm
      (taken ++ rest) ∧
    rt'.queued = rt.queued.filter fun input => !(taken.map (·.order)).contains input.order

lemma budgetRun_before_drain
    (hdrive : driveRecordedRun P fuel (.ofBudget b liveInputs) rt = .ok (out, rt'))
    (hrun : runSegment P fuel (recordRequest (.ofBudget b liveInputs) rt) rt.rail rt.chain () =
      .ok (out, s)) (hreason : out.reason = .budgetReached) : out.boundary.icount = s.rail.icount ∧
      (∃ es, s.rail.drainAtPause P s.rail.icount = .ok (rt'.rail, es)) ∧
      ∃ kinds m, BudgetRun P fuel b liveInputs rt { rt' with rail := s.rail } kinds m := by
  obtain ⟨s', rail, es, hrun', hdrain, rfl⟩ := driveRecordedRun_eq_ok hdrive
  obtain rfl : s = s' := (Prod.mk.inj (Except.ok.inj (hrun.symm.trans hrun'))).2
  obtain ⟨-, hlt, s1, m, boundary, vns, hashed, kinds, hfinished, hfinish⟩ :=
    runSegment_ofBudget hrun hreason
  have hboundary : out.boundary.icount = rt.rail.icount + b := by
    cases hfinish
    exact hfinished.boundary_eq
  obtain ⟨hrail, hconsumed⟩ : s.rail = s1.rail ∧ s.consumed = s1.consumed := by
    cases hfinish
    cases hashed <;> exact ⟨rfl, rfl⟩
  have hlanded : s.rail.icount = rt.rail.icount + b := hrail ▸ hfinished.landed
  obtain ⟨taken, live, htaken, hkinds, hlive, hrest, -⟩ := hfinished.took
  refine ⟨hboundary.trans hlanded.symm, ⟨es, ?_⟩, kinds, m, hlt, hlanded, hboundary, rfl,
    hfinished.journey, ?_, ?_, taken, live, _, hkinds, hlive, hrest, ?_⟩
  · rwa [hlanded, ← hboundary]
  · intro hb hon
    exact hfinished.closes (hfinished.hashed_iff.mpr ⟨hon, Nat.lt_add_of_pos_right hb, rfl⟩)
      hfinish
  · intro hplaced hmove
    exact hfinished.ends rfl hplaced (hmove.imp_left fun hb => Nat.lt_add_of_pos_right hb) hfinish
  · rw [hconsumed, htaken]
    rfl

lemma budgetRun_of_drive
    (hdrive : driveRecordedRun P fuel (.ofBudget b liveInputs) rt = .ok (out, rt'))
    (hrun : runSegment P fuel (recordRequest (.ofBudget b liveInputs) rt) rt.rail rt.chain () =
      .ok (out, s)) (hreason : out.reason = .budgetReached) (hquiet : P.detchannel = true →
      P.service s.rail.icount .pauseDrain s.rail.machine = .ok (s.rail.machine, [])) :
    ∃ kinds m, BudgetRun P fuel b liveInputs rt rt' kinds m := by
  obtain ⟨-, ⟨es, hdrain⟩, hbudget⟩ := budgetRun_before_drain hdrive hrun hreason
  obtain ⟨hdrained, -⟩ := drainAtPause_of_quiet hdrain hquiet
  rwa [← hdrained] at hbudget

namespace BudgetRun

variable {header : SegmentHeader H} {kinds0 : List InputKind}

variable (h : BudgetRun P fuel b liveInputs rt rt' kinds m)
include h

variable (hjourney : Journey P (epochGrid P {}) fuel rt.rail.icount kinds0
  (startStation P base header) ⟨rt.rail, rt.chain⟩)
include hjourney

lemma extends_journey (hb : 0 < b) (hon : OnGrid (epochGrid P {}) (rt.rail.icount + b)) :
    Journey P (epochGrid P {}) fuel rt'.rail.icount (kinds0 ++ kinds)
      (startStation P base header) ⟨rt'.rail, rt'.chain⟩ := by
  have := (hjourney.mono (Nat.le_add_right _ b)).trans h.journey
  rwa [h.closes hb hon, ← h.icount_eq] at this

lemma itinerary (hmove : rt.rail.icount = 0 ∨ 0 < b) :
    rt'.rail.log.header = header ∧
      Journey P (epochGrid P {}) fuel rt'.segmentIcount (kinds0 ++ kinds)
        (startStation P base header) m ∧
      Ends P (epochGrid P {}) fuel m rt'.segmentIcount ⟨rt'.rail, rt'.chain⟩ := by
  obtain ⟨new, hnew⟩ := hjourney.between
  have hmove : 0 < b ∨ lastEpoch rt.rail.log.records ≠ some (rt.rail.icount + b) := by
    refine hmove.symm.imp_right fun hzero hlast => ?_
    obtain ⟨x, hx, hepoch, hat⟩ := exists_of_lastEpoch hlast
    -- The log held nothing at the start, and every link lies beyond it.
    have hx' : x ∈ new := by
      rw [hnew.appended.records_eq] at hx
      exact hx
    have hlater := (hnew.epochs x hx' hepoch).1
    have hbelow := hnew.not_beyond x hx'
    simp only at hbelow
    omega
  have hends := h.ends ((placed_startStation base header).of_between hnew) hmove
  have htrip := (hjourney.mono (Nat.le_add_right _ b)).trans h.journey
  rw [← h.segment_eq] at htrip hends
  obtain ⟨n, -, hcoast⟩ := hends.coast
  obtain ⟨emits, hemits, -⟩ := hcoast.log
  obtain ⟨trip, hbetween⟩ := htrip.between
  exact ⟨hemits.header_eq.trans hbetween.appended.header_eq, htrip, hends⟩

lemma traced (hmove : rt.rail.icount = 0 ∨ 0 < b)
    (hseal : sealSegment P snapshotId rt' = .ok log) :
    log.header = header ∧ log.ending.endIcount = rt.rail.icount + b ∧
      TracedLog P fuel base log (kinds0 ++ kinds) m ⟨rt'.rail, rt'.chain⟩ := by
  obtain ⟨hheader, htrip, hends⟩ := h.itinerary hjourney hmove
  have hlog : log.header = header ∧ log.ending.endIcount = rt'.segmentIcount := by
    obtain ⟨-, vns, -, -, rfl⟩ := sealSegment_eq_ok hseal
    exact ⟨hheader, rfl⟩
  have hlt := h.end_lt
  rw [← h.segment_eq] at hlt ⊢
  rw [← hlog.1] at htrip
  exact ⟨hlog.1, hlog.2, traced_of_sealSegment hseal hlt htrip hends⟩

end BudgetRun

end BudgetRuns

lemma checkHeader_newSegmentLog [DecidableEq H] {seed : Option H}
    (h : log.header = (newSegmentLog P base.snapshotId seed).header) :
    checkHeader P base log = .ok () := by
  simp [checkHeader, h, newSegmentLog, LogWriter.new]

end DetHypervisor
