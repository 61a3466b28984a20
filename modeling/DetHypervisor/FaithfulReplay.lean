import DetHypervisor.ReplayWalk

/-!
# Replaying an itinerary

A log that was written along an itinerary and sealed at its end replays, and the resealed log is
the recorded one.
-/

namespace DetHypervisor

open List Option

variable {H σ X : Type} {P : Platform H σ X} {fuel fin e : ℕ} {log : SealedLog H}
  {a b m : Station H σ} {base : Restored H σ} {grid : Option ℕ} {kinds : List InputKind}

lemma isSdkEvent_of_isCanonical {x : Record H} (h : x.isCanonical = true) :
    isSdkEvent x.body = false := by
  unfold Record.isCanonical at h
  cases hbody : x.body <;> simp_all [RecordBody.isCanonical, isSdkEvent]

lemma Leg.sdk_lt (h : Leg P grid fuel fin kinds a b) : ∃ new, Appended a.rail.log new b.rail.log ∧
      ∀ x ∈ new, isSdkEvent x.body = true → x.icount < max fin b.rail.icount := by
  obtain ⟨new, happended, hnew⟩ := h.writes
  refine ⟨new, happended, fun x hx hsdk => ?_⟩
  cases hnew x hx with
  | emitted _ hlt => exact hlt
  | mark | link => cases hsdk
  | input hinput =>
    rw [isSdkEvent_of_isCanonical (isCanonical_of_mem_inputRecords hinput)] at hsdk
    cases hsdk

lemma Journey.sdk_lt (h : Journey P grid fuel fin kinds a m) :
    ∃ new, Appended a.rail.log new m.rail.log ∧
      ∀ x ∈ new, isSdkEvent x.body = true → x.icount < max fin m.rail.icount := by
  induction h with
  | refl a => exact ⟨[], .refl _, by simp⟩
  | cons hleg hrest ih =>
    obtain ⟨new, happended, hnew⟩ := hleg.sdk_lt
    obtain ⟨new', happended', hnew'⟩ := ih
    obtain ⟨_, hbetween⟩ := hrest.between
    refine ⟨_, happended.trans happended', ?_⟩
    intro x hx hsdk
    rcases mem_append.mp hx with hx | hx
    · exact (hnew x hx hsdk).trans_le (max_le_max_left fin hbetween.icount_le)
    · exact hnew' x hx hsdk

lemma exists_of_lastEpoch {rs : List (Record H)} {n : ℕ} (h : lastEpoch rs = some n) :
    ∃ x ∈ rs, x.epoch? ≠ none ∧ x.icount = n := by
  obtain ⟨⟨index, icount, value⟩, hlast, rfl⟩ := map_eq_some_iff.mp h
  obtain ⟨x, hx, hepoch⟩ := mem_filterMap.mp (mem_of_getLast? hlast)
  refine ⟨x, hx, by rw [hepoch]; exact some_ne_none _, ?_⟩
  unfold Record.epoch? at hepoch
  split at hepoch
  · simp only [Option.some.injEq, Prod.mk.injEq] at hepoch
    exact hepoch.2.1
  · cases hepoch

lemma Glide.lastEpoch_eq (h : Glide P grid fuel a b) :
    lastEpoch b.rail.log.records = some b.rail.icount := by
  obtain ⟨t, r, harrive, -, hlinked⟩ := h
  rw [hlinked.lastEpoch_eq, hlinked.icount_eq, harrive.landed]

/-- Replay accepts the log, arrives at the recorded chain value by itself and
reseals the same log, having applied `n` records. -/
def Reproduces [DecidableEq H] (P : Platform H σ X) (fuel : ℕ) (base : Restored H σ)
    (log : SealedLog H) (n : ℕ) : Prop :=
  ∃ st out, replayFrom P fuel log .budgetReached (startReplay P base log) = .ok (st, out) ∧
    replaySegment P fuel base log = .ok out ∧ st.chain = log.ending.endStateHash ∧
    out.resealed = log ∧ out.recordsApplied = n

def startStation (P : Platform H σ X) (base : Restored H σ) (header : SegmentHeader H) :
    Station H σ := ⟨⟨startMachine P base header.entropySeed, 0, LogWriter.new header⟩, base.chain⟩

/-- A sealed log with the itinerary along which it was written. -/
structure TracedLog (P : Platform H σ X) (fuel : ℕ) (base : Restored H σ) (log : SealedLog H)
    (kinds : List InputKind) (m z : Station H σ) : Prop where
  journey : Journey P (epochGrid P {}) fuel log.ending.endIcount kinds
    (startStation P base log.header) m
  ends : Ends P (epochGrid P {}) fuel m log.ending.endIcount z
  records_eq : z.rail.log.records = log.records
  chain_eq : z.chain = log.ending.endStateHash
  count_lt : log.records.length < 2 ^ 32
  end_lt : log.ending.endIcount < 2 ^ 64
  clock : P.config.clock.vnsFromIcount log.ending.endIcount = some log.ending.endVns
  reason_eq : log.ending.stopReason = 1

lemma checkHeader_eq_ok [DecidableEq H] (h : checkHeader P base log = .ok ()) :
    log.header.baseSnapshotId = base.snapshotId ∧
      log.header.machineConfigHash = P.config.configHash ∧
      log.header.clockDen = P.config.clock.den := by
  unfold checkHeader at h
  split_ifs at h with hbase hconfig hclock
  rw [not_or, not_not, not_not] at hclock
  exact ⟨not_not.mp hbase, not_not.mp hconfig, hclock.2⟩

lemma followable_of_journey {last : ℕ} {emits : List (Record H)}
    (hjourney : Journey P (epochGrid P {}) fuel fin kinds (startStation P base log.header) m)
    (hle : m.rail.icount ≤ log.ending.endIcount) (hrest : log.records = m.rail.log.records ++ emits)
    (hemits : ∀ x ∈ emits, Emitted P x ∧ x.icount ≤ log.ending.endIcount)
    (hvalid : scanRecords 0 0 log.records = some last) (hcount : log.records.length < 2 ^ 32)
    (hlt : log.ending.endIcount < 2 ^ 64)
    (hclock : P.config.clock.vnsFromIcount log.ending.endIcount = some log.ending.endVns)
    (hunmixed : log.Unmixed) (hframes : log.FramesFit) : Followable P log := by
  obtain ⟨new, hnew⟩ := hjourney.between
  have hrecords : m.rail.log.records = new := hnew.appended.records_eq
  have hscan := ordered_of_scanRecords hvalid
  refine ⟨hscan.1, ?_, ?_, ?_, hunmixed, hframes, hlt, hclock⟩
  · intro x hx
    have := hscan.2 x hx
    omega
  · intro x hx
    rw [hrest, hrecords] at hx
    rcases mem_append.mp hx with hx | hx
    · exact (hnew.not_beyond x hx).trans hle
    · exact (hemits x hx).2
  · intro x hx hepoch
    rw [hrest, hrecords] at hx
    rcases mem_append.mp hx with hx | hx
    · exact (hnew.epochs x hx hepoch).2
    · exact absurd (hemits x hx).1.not_epoch hepoch

section Replay

variable [DecidableEq H] {z : Station H σ} {st : ReplayState H σ}

lemma walk_of_journey {emits : List (Record H)} (hlog : Followable P log)
    (hjourney : Journey P (epochGrid P {}) fuel fin kinds (startStation P base log.header) m)
    (hle : m.rail.icount ≤ log.ending.endIcount) (hkinds : ∀ kind ∈ kinds, Applicable P kind)
    (hrest : log.records = m.rail.log.records ++ emits) (hemitted : ∀ x ∈ emits, Emitted P x) :
    ∃ b st, replayWalk P fuel log (startReplay P base log) = .ok st ∧ StateAt b st ∧
      Glides P (epochGrid P {}) fuel b m ∧ st.recordsApplied = kinds.length := by
  obtain ⟨new, hnew⟩ := hjourney.between
  have hrecords : m.rail.log.records = new := hnew.appended.records_eq
  have hstart : OnTrack P fuel log (startStation P base log.header) log.records
      (startReplay P base log) := by
    refine ⟨rfl, ?_, rfl, _, ⟨rfl, rfl, none, rfl⟩, .refl⟩
    intro x hx hepoch
    rw [hrest, hrecords] at hx
    rcases mem_append.mp hx with hx | hx
    · exact (hnew.epochs x hx hepoch).1
    · exact absurd (hemitted x hx).not_epoch hepoch
  obtain ⟨st, htrack, happlied, hresume⟩ := hstart.journey hlog hjourney hle hkinds hrest
    fun x hx hepoch => absurd (hemitted x hx).not_epoch hepoch
  obtain ⟨b, hst, hglides⟩ := htrack.lags
  have hmarks : st.marks = [] := by
    rw [htrack.marks_eq, ← append_nil emits, filter_marks_of_emitted hemitted]
    rfl
  have hskip : resume P fuel log ((emits ++ []).filter Record.isCanonical) st =
      resume P fuel log [] st :=
    resume_skip (by rw [append_nil]; exact htrack.ordered_tail hlog) hemitted hmarks
  rw [append_nil] at hskip
  refine ⟨b, st, ?_, hst, hglides, happlied.trans (Nat.zero_add _)⟩
  rw [replayWalk_eq_resume, SealedLog.canonical, hresume, hskip]
  exact marksBefore_of_beyond (by rw [hmarks]; simp)

/-- The run to the end of an itinerary. A run that does take place links the
end, if it is asked to and if no epoch link did. -/
lemma Ends.runTo_eq {vns : ℕ} (hashFinalStop : Bool) {tl : List (Record H)}
    (h : Ends P (epochGrid P {}) fuel m e z) (hst : StateAt b st)
    (hglides : Glides P (epochGrid P {}) fuel b m) (hrest : log.records = m.rail.log.records ++ tl)
    (hbound : ∀ x ∈ m.rail.log.records, x.icount ≤ m.rail.icount) (hlt : e < 2 ^ 64)
    (hvns : P.config.clock.vnsFromIcount e = some vns) :
    ∃ tail o, runTo P fuel log e hashFinalStop true none st = .ok (tail, { st with
        rail := z.rail
        chain := if tail.isSome = true ∧ hashFinalStop = true ∧
            lastEpoch m.rail.log.records ≠ some e then
          P.link m.chain (P.image z.rail.machine) e vns else m.chain
        audit := auditAt z.rail.log.records o }) ∧
      ((tail = none ∧ z.rail = m.rail) ∨ ∃ out, tail = some out ∧ out.reason = .budgetReached ∧
        out.boundary.icount = e ∧ out.vns = vns) := by
  obtain ⟨n, -, hcoast⟩ := h.coast
  have hle : m.rail.icount ≤ e := hcoast.le.trans h.landed.le
  rcases hle.eq_or_lt with hend | hmove
  · -- The last stop is the end, so nothing was left to coast.
    have hz : z.rail = m.rail := hcoast.eq_of_le hend.ge
    rw [hz]
    rcases hglides.cases_tail with rfl | ⟨a, hglides, hglide⟩
    · obtain ⟨rail, chain, audit, marks, applied⟩ := st
      obtain ⟨rfl, rfl, o, rfl⟩ := hst
      refine ⟨none, o, ?_, .inl ⟨rfl, rfl⟩⟩
      rw [runTo_of_eq hend]
      simp
    · obtain ⟨out, o, hrun, hreason, hboundary, hvns'⟩ :=
        runTo_of_glides hashFinalStop hst hglides hglide hrest (hend ▸ hlt)
      rw [hend] at hrun hboundary hvns'
      have hlast : lastEpoch m.rail.log.records = some e := hend ▸ hglide.lastEpoch_eq
      refine ⟨some out, o, ?_, .inr ⟨out, rfl, hreason, hboundary, ?_⟩⟩
      · rw [hrun]
        simp [hlast]
      · exact Option.some.inj (hvns'.symm.trans hvns)
  · have harrive : Arrives P (epochGrid P {}) fuel m e z.rail :=
      ⟨hmove, fun i hi hi' => h.no_grid i hi hi'.le, h.coast, h.landed⟩
    have hlast : lastEpoch m.rail.log.records ≠ some e := by
      intro hlast
      obtain ⟨x, hx, -, hicount⟩ := exists_of_lastEpoch hlast
      have := hbound x hx
      omega
    obtain ⟨out, o, hrun, hreason, hboundary, hvns'⟩ := runTo_of_arrival hashFinalStop true hst
      hglides harrive (.inr (h.no_grid _ hmove le_rfl)) hrest hlt hvns
    refine ⟨some out, o, ?_, .inr ⟨out, rfl, hreason, hboundary, hvns'⟩⟩
    rw [hrun]
    simp [hlast]

end Replay

namespace TracedLog

variable {z : Station H σ}

section

variable (h : TracedLog P fuel base log kinds m z)
include h

lemma tail : ∃ emits, Appended m.rail.log emits z.rail.log ∧
      ∀ x ∈ emits, Emitted P x ∧ x.icount < log.ending.endIcount := by
  obtain ⟨n, -, hcoast⟩ := h.ends.coast
  obtain ⟨emits, happended, hemits⟩ := hcoast.log
  exact ⟨emits, happended, fun x hx => ⟨(hemits x hx).1, (hemits x hx).2.2.2⟩⟩

lemma icount_le : m.rail.icount ≤ log.ending.endIcount := by
  obtain ⟨n, -, hcoast⟩ := h.ends.coast
  exact hcoast.le.trans h.ends.landed.le

lemma between : ∃ new, Between (epochGrid P {}) (startStation P base log.header) m new ∧
      m.rail.log.records = new ∧ m.rail.log.header = log.header := by
  obtain ⟨new, hnew⟩ := h.journey.between
  exact ⟨new, hnew, hnew.appended.records_eq, hnew.appended.header_eq⟩

lemma header_eq : z.rail.log.header = log.header := by
  obtain ⟨-, -, -, hheader⟩ := h.between
  obtain ⟨emits, happended, -⟩ := h.tail
  exact happended.header_eq.trans hheader

lemma followable (hunmixed : log.Unmixed) (hframes : log.FramesFit) : Followable P log := by
  obtain ⟨emits, happended, hemits⟩ := h.tail
  have hsplit : log.records = m.rail.log.records ++ emits := by
    rw [← h.records_eq, happended.records_eq]
  exact followable_of_journey h.journey h.icount_le hsplit
    (fun x hx => ⟨(hemits x hx).1, (hemits x hx).2.le⟩) (h.records_eq ▸ z.rail.log.valid)
    h.count_lt h.end_lt h.clock hunmixed hframes

lemma lastIcount_le (hlog : Followable P log) :
    lastIcount z.rail.log.records ≤ log.ending.endIcount := by
  unfold lastIcount
  split
  · rename_i x hx
    exact hlog.icount_le x (h.records_eq ▸ mem_of_getLast? hx)
  · exact Nat.zero_le _

lemma terminalSdkTarget_eq : log.terminalSdkTarget = none := by
  obtain ⟨new, happended, hnew⟩ := h.journey.sdk_lt
  obtain ⟨emits, happended', hemits⟩ := h.tail
  have hsplit : log.records = new ++ emits := by
    rw [← h.records_eq, (happended.trans happended').records_eq]
    rfl
  have hle := h.icount_le
  have hnone : ∀ x ∈ log.records, SealedLog.sdkAt log.ending.endIcount x = none := by
    intro x hx
    rw [hsplit] at hx
    have hlt : isSdkEvent x.body = true → x.icount < log.ending.endIcount := by
      intro hsdk
      rcases mem_append.mp hx with hx | hx
      · exact (max_eq_left hle) ▸ hnew x hx hsdk
      · exact (hemits x hx).2
    unfold SealedLog.sdkAt
    split
    · rename_i event hbody
      rw [if_neg (hlt (by rw [hbody]; rfl)).ne]
    · rfl
  rw [SealedLog.terminalSdkTarget, filterMap_eq_nil_iff.mpr hnone]
  rfl

end

section Replay

variable [DecidableEq H] {st : ReplayState H σ}

variable (h : TracedLog P fuel base log kinds m z)
include h

lemma walk (hlog : Followable P log) (hkinds : ∀ kind ∈ kinds, Applicable P kind) :
    ∃ b st, replayWalk P fuel log (startReplay P base log) = .ok st ∧ StateAt b st ∧
      Glides P (epochGrid P {}) fuel b m ∧ st.recordsApplied = kinds.length := by
  obtain ⟨emits, happended, hemits⟩ := h.tail
  refine walk_of_journey hlog h.journey h.icount_le hkinds ?_ fun x hx => (hemits x hx).1
  rw [← h.records_eq, happended.records_eq]

lemma tail_eq (hst : StateAt b st) (hglides : Glides P (epochGrid P {}) fuel b m) :
    ∃ tail o, replayTail P fuel log .budgetReached st = .ok (tail, { st with
      rail := z.rail, chain := z.chain, audit := auditAt z.rail.log.records o }) := by
  obtain ⟨emits, happended, -⟩ := h.tail
  have hrest : log.records = m.rail.log.records ++ emits := by
    rw [← h.records_eq, happended.records_eq]
  obtain ⟨new, hnew, hrecords, -⟩ := h.between
  have hbound : ∀ x ∈ m.rail.log.records, x.icount ≤ m.rail.icount :=
    fun x hx => hnew.not_beyond x (hrecords ▸ hx)
  obtain ⟨vns, hvns, hchain⟩ := h.ends.chain_eq
  obtain rfl : vns = log.ending.endVns := Option.some.inj (hvns.symm.trans h.clock)
  obtain ⟨tail, o, hrun, hout⟩ :=
    h.ends.runTo_eq true hst hglides hrest hbound h.end_lt h.clock
  refine ⟨tail, o, ?_⟩
  rw [replayTail, h.terminalSdkTarget_eq]
  rcases hout with ⟨rfl, hrail⟩ | ⟨out, rfl, hreason, hboundary, hvns'⟩
  · -- The last stop is the end; the link is pushed behind the tail.
    have hicount : z.rail.icount = log.ending.endIcount := h.ends.landed
    have haudit : (auditAt z.rail.log.records o).lastEpochIcount =
        lastEpoch m.rail.log.records := by
      rw [hrail]
      rfl
    simp only [exactTail, hrun, Except.ok_bind, linkAtEnd, hicount, haudit, isNone_none,
      decide_true, Bool.and_self, Bool.true_and, decide_eq_true_eq, hchain, isSome_none,
      Bool.false_eq_true, false_and, if_false]
    by_cases hlast : lastEpoch m.rail.log.records = some log.ending.endIcount
    · simp only [hlast, ne_eq, not_true_eq_false, if_false, if_true]
    · simp only [hlast, ne_eq, not_false_eq_true, if_false, if_true, pushReplayLink]
  · simp only [exactTail, hrun, Except.ok_bind, linkAtEnd, hreason, hboundary, hvns', hchain,
      isNone_some, Bool.false_and, Bool.false_eq_true, if_false, isSome_some,
      true_and, true_or, and_self, if_true, ne_eq, not_true_eq_false]
    by_cases hlast : lastEpoch m.rail.log.records = some log.ending.endIcount <;> simp [hlast]

lemma replay (hheader : checkHeader P base log = .ok ()) (hunmixed : log.Unmixed)
    (hframes : log.FramesFit)
    (hkinds : ∀ kind ∈ kinds, Applicable P kind) : Reproduces P fuel base log kinds.length := by
  have hlog := h.followable hunmixed hframes
  obtain ⟨b, st, hwalk, hst, hglides, happlied⟩ := h.walk hlog hkinds
  obtain ⟨tail, o, htail⟩ := h.tail_eq hst hglides
  have hcount : (auditAt z.rail.log.records o).verified = log.epochs.length := by
    rw [h.records_eq]
    rfl
  have hresealed : z.rail.log.seal ⟨log.ending.endSnapshotId, log.ending.endIcount,
      log.ending.endVns, z.chain, stopReasonU8 .budgetReached⟩ = .ok log := by
    have hreason : stopReasonU8 .budgetReached = log.ending.stopReason := h.reason_eq.symm
    refine LogWriter.seal_eq_ok_iff.mpr ⟨?_, ?_, ?_⟩
    · exact h.lastIcount_le hlog
    · rw [LogWriter.recordCount, h.records_eq]
      exact h.count_lt
    · rw [h.header_eq, h.records_eq, h.chain_eq, hreason]
  have hwell : log.wellFormed = true := by
    obtain ⟨-, -, hden⟩ := checkHeader_eq_ok hheader
    exact LogWriter.wellFormed_seal (by rw [h.header_eq, hden]; exact P.config.clock.den_pos.ne')
      hresealed
  have hfrom : replayFrom P fuel log .budgetReached (startReplay P base log) = .ok
      ({ st with rail := z.rail, chain := z.chain, audit := auditAt z.rail.log.records o },
        ⟨kinds.length, log.epochs.length, log.ending.endIcount, z.chain, log⟩) := by
    have hlive : liveEndOf P fuel log .budgetReached st.audit.verified st.chain tail
        { st with rail := z.rail, chain := z.chain, audit := auditAt z.rail.log.records o } =
        .ok (z.chain, { st with
          rail := z.rail, chain := z.chain, audit := auditAt z.rail.log.records o }) := by
      simp [liveEndOf, h.chain_eq]
    have hconclude : concludeReplay log .budgetReached z.chain
        { st with rail := z.rail, chain := z.chain, audit := auditAt z.rail.log.records o } =
        .ok ⟨kinds.length, log.epochs.length, log.ending.endIcount, z.chain, log⟩ := by
      unfold concludeReplay
      rw [if_neg (not_not.mpr hcount), if_neg (not_not.mpr h.chain_eq)]
      simp [hresealed, happlied, hcount]
    simp only [replayFrom, hwalk, htail, hlive, hconclude, Except.ok_bind]
  refine ⟨_, _, hfrom, ?_, h.chain_eq, rfl, rfl⟩
  simp [replaySegment, hwell, hheader, h.reason_eq, stopReasonFromU8, hfrom, Except.map]

end Replay

end TracedLog

end DetHypervisor
