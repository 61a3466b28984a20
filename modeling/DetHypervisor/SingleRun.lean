import DetHypervisor.RecordedRuns
import DetHypervisor.ReplayedLog

/-!
# One run, replayed record by record

A segment recorded in a single run with any inputs scheduled in its window.
The replay cuts the run at every record, so the question is whether the cuts
show.
-/

namespace DetHypervisor

open List

variable {H σ X : Type} {P : Platform H σ X} {fuel e : ℕ}

def InWindow (e : ℕ) (inputs : List QueuedInput) : Prop :=
  ∀ input ∈ inputs, ∃ n, input.due = .icount n ∧ 0 < n ∧ n ≤ e

def openQueued (P : Platform H σ X) (base : Restored H σ) (seed : Option H)
    (inputs : List QueuedInput) : Recording H σ := { openSegment P base seed with queued := inputs }

section Inputs

variable {base : Restored H σ} {seed : Option H} {inputs : List QueuedInput}

lemma frameInputs_eq_nil (h : InWindow e inputs) :
    (recordRequest (.ofBudget e fun _ => []) (openQueued P base seed inputs)).frameInputs = [] := by
  unfold RunRequest.frameInputs
  refine filterMap_eq_nil_iff.mpr ?_
  rintro ⟨input, index⟩ hmem
  obtain ⟨n, hdue, -⟩ := h input (fst_mem_of_mem_zipIdx hmem)
  simp [hdue]

lemma dueInputs_eq (h : InWindow e inputs) :
    dueInputs (recordRequest (.ofBudget e fun _ => []) (openQueued P base seed inputs)) e =
      inputs := by
  refine filter_eq_self.mpr fun input hmem => ?_
  obtain ⟨n, hdue, hpos, hle⟩ := h input hmem
  simp only [hdue, decide_eq_true_eq]
  exact ⟨hpos, hle⟩

lemma Took.perm_inputs {s s1 : Seg H σ Unit} {kinds : List InputKind}
    (hstart : s.pendingFrames = [])
    (htook : Took (recordRequest (.ofBudget e fun _ => []) (openQueued P base seed inputs)) inputs
      (pendingInputs (recordRequest (.ofBudget e fun _ => []) (openQueued P base seed inputs)) s1)
      s s1 kinds) : kinds.Perm (inputs.map (·.kind)) := by
  obtain ⟨taken, live, -, hkinds, hlive, hrest, hframes⟩ := htook
  have hnone : s1.pendingFrames = [] := subset_nil.mp (hstart ▸ hframes)
  have hlive : live = [] := by
    refine eq_nil_iff_forall_not_mem.mpr fun kind hkind => ?_
    obtain ⟨frame, hframe⟩ := hlive kind hkind
    cases hframe
  simp only [pendingInputs, hnone, filterMap_nil, append_nil] at hrest
  rw [hlive, append_nil] at hkinds
  exact hkinds.trans (hrest.symm.map _)

lemma traced_of_single_run {out : SegmentOutcome H} {s : Seg H σ Unit} {snapshotId : H}
    {log : SealedLog H} (hinputs : InWindow e inputs) (hrun : runSegment P fuel
      (recordRequest (.ofBudget e fun _ => []) (openQueued P base seed inputs))
      (openQueued P base seed inputs).rail base.chain () = .ok (out, s))
    (hreason : out.reason = .budgetReached)
    (hseal : s.rail.log.seal ⟨snapshotId, e, out.vns, s.chain, 1⟩ = .ok log) :
    log.header = (newSegmentLog P base.snapshotId seed).header ∧ ∃ kinds m,
      kinds.Perm (inputs.map (·.kind)) ∧ TracedLog P fuel base log kinds m ⟨s.rail, s.chain⟩ := by
  obtain ⟨-, hlt, s1, m, boundary, vns, hashed, kinds, hfinished, hfinish⟩ :=
    @runSegment_ofBudget _ _ _ P fuel (openQueued P base seed inputs) _ _ _ _ hrun hreason
  have hzero : (openQueued P base seed inputs).rail.icount + e = e := Nat.zero_add e
  rw [hzero] at hfinished hlt
  obtain ⟨-, hcount, rfl⟩ := LogWriter.seal_eq_ok_iff.mp hseal
  have hplaced : Placed (epochGrid P {})
      (startStation P base (newSegmentLog P base.snapshotId seed).header) :=
    placed_startStation base _
  have hends := hfinished.ends rfl hplaced (.inr (by rintro ⟨⟩)) hfinish
  have hvns : out.vns = vns := by
    cases hfinish
    rfl
  have hheader : s.rail.log.header = (newSegmentLog P base.snapshotId seed).header := by
    obtain ⟨new, hnew⟩ := hfinished.journey.between
    obtain ⟨n, -, hcoast⟩ := hends.coast
    obtain ⟨emits, hemits, -⟩ := hcoast.log
    exact hemits.header_eq.trans hnew.appended.header_eq
  have htook := hfinished.took
  rw [dueInputs_eq hinputs] at htook
  refine ⟨hheader, kinds, m, htook.perm_inputs (frameInputs_eq_nil hinputs),
    ⟨?_, hends, rfl, rfl, hcount, hlt, hvns ▸ hfinished.vns_eq, rfl⟩⟩
  have hjourney := hfinished.journey
  simp only [startStation, hheader]
  exact hjourney

end Inputs

/-- A single run to `e` with inputs anywhere replays to the same chain values and log, every
input fed in again, exactly when no link stands between canonical records of its count, no
frame mark comes too late, and no input is left to the channel. -/
theorem single_run_replay_iff [DecidableEq H] {base : Restored H σ} {seed : Option H}
    {inputs : List QueuedInput} {out : SegmentOutcome H} {s : Seg H σ Unit} {snapshotId : H}
    {log : SealedLog H} (hinputs : InWindow e inputs) (hrun : runSegment P fuel
      (recordRequest (.ofBudget e fun _ => []) (openQueued P base seed inputs))
      (openQueued P base seed inputs).rail base.chain () = .ok (out, s))
    (hreason : out.reason = .budgetReached)
    (hseal : s.rail.log.seal ⟨snapshotId, e, out.vns, s.chain, 1⟩ = .ok log) :
    Reproduces P fuel base log inputs.length ↔ log.Unmixed ∧
      (∀ x ∈ log.records, x.isFrameMark = true → x.icount + 1000000 < 2 ^ 64) ∧
      ∀ input ∈ inputs, Applicable P input.kind := by
  obtain ⟨hheader, kinds, m, hkinds, htraced⟩ :=
    traced_of_single_run hinputs hrun hreason hseal
  exact htraced.reproduces_queued_iff (checkHeader_newSegmentLog hheader) hkinds

/-- Three inputs for a counting guest, two of them at the epoch boundary. -/
def threeInputs : List QueuedInput :=
  [⟨.icount 10, .padSet 0 1 frameHintNone, 0⟩, ⟨.icount 10, .netRx [7], 1⟩,
    ⟨.icount 7, .padSet 1 2 frameHintNone, 2⟩]

theorem single_run_replay_counting : ∃ out s log, runSegment (counting 10) 20
        (recordRequest (.ofBudget 15 fun _ => [])
          (openQueued (counting 10) ⟨[], 0, []⟩ none threeInputs))
        (openQueued (counting 10) ⟨[], 0, []⟩ none threeInputs).rail [] () = .ok (out, s) ∧
      s.rail.log.seal ⟨[], 15, out.vns, s.chain, 1⟩ = .ok log ∧
      Reproduces (counting 10) 20 ⟨[], 0, []⟩ log 3 := by
  obtain ⟨out, s, log, hrun, hreason, hseal, hunmixed, hframes⟩ : ∃ out s log,
      runSegment (counting 10) 20
        (recordRequest (.ofBudget 15 fun _ => [])
          (openQueued (counting 10) ⟨[], 0, []⟩ none threeInputs))
        (openQueued (counting 10) ⟨[], 0, []⟩ none threeInputs).rail [] () = .ok (out, s) ∧
      out.reason = .budgetReached ∧
      s.rail.log.seal ⟨[], 15, out.vns, s.chain, 1⟩ = .ok log ∧ log.Unmixed ∧
      (log.records.filter Record.isFrameMark) = [] :=
    ⟨_, _, _, rfl, rfl, rfl, by decide, rfl⟩
  have hinputs : InWindow 15 threeInputs := by simp [InWindow, threeInputs]
  refine ⟨out, s, log, hrun, hseal,
    (single_run_replay_iff hinputs hrun hreason hseal).mpr ⟨hunmixed, ?_, ?_⟩⟩
  · intro x hx hmark
    exact absurd hmark (filter_eq_nil_iff.mp hframes x hx)
  · intro input _
    exact Bool.and_false _

/-- A guest that rings the doorbell of the channel when its counter reads ten. -/
def doorbellAtTen : ℕ → VcpuExit ℕ (List Emit) := fun s =>
  if s = 10 then .device [.channel .ringPush [1]] 11 else .debug 1 (s + 1)

/-- A pad input at the epoch boundary of a guest that rings its doorbell there: replay defers
the link to the last canonical record, which is the channel's own, and never pushes it. -/
theorem doorbell_behind_link_diverges : ∃ out s log,
    runSegment (scripted 10 doorbellAtTen (·, [])) 20
        (recordRequest (.ofBudget 15 fun _ => [])
          (openQueued (scripted 10 doorbellAtTen (·, [])) ⟨[], 0, []⟩ none
            [⟨.icount 10, .padSet 0 1 frameHintNone, 0⟩]))
        (openQueued (scripted 10 doorbellAtTen (·, [])) ⟨[], 0, []⟩ none
          [⟨.icount 10, .padSet 0 1 frameHintNone, 0⟩]).rail [] () = .ok (out, s) ∧
      out.reason = .budgetReached ∧
      s.rail.log.seal ⟨[], 15, out.vns, s.chain, 1⟩ = .ok log ∧
      log.records.map (·.body.isCanonical) = [true, false, true] ∧
      replaySegment (scripted 10 doorbellAtTen (·, [])) 20 ⟨[], 0, []⟩ log =
        .error (.divergence ⟨"EPOCH_HASH count (recording has more than replay produced)", 15,
          none, none⟩) := ⟨_, _, _, rfl, rfl, rfl, rfl, rfl⟩

end DetHypervisor
