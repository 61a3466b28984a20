import DetHypervisor.Lifecycle

/-!
# Time along a lineage

What `Run` adds, `TakeSnapshot` resets and the guest reads.
-/

namespace DetHypervisor

open List

variable {H σ X Page : Type} [DecidableEq H] {B : Board H σ X Page}
  {rt0 rt rt' : SlotRuntime H σ Page}
  {act : Act} {acts : List Act} {clockBase : U64} {response : RunResponse H}

/-- A parked slot: the counter is the segment count, and the position is what
the pv-clock reads. -/
structure Settled (B : Board H σ X Page) (rt : SlotRuntime H σ Page) : Prop where
  counter_eq : rt.recording.rail.icount = rt.segmentIcount
  image_lt : B.config.clock.image rt.segmentIcount < 2 ^ 64
  vns_eq : rt.vns = pvClockVns B.config.clock rt.clockBase rt.segmentIcount
  table_eq : rt.tableIcount = rt.cumulativeIcount

structure AtBase (B : Board H σ X Page) (rt : SlotRuntime H σ Page) : Prop extends
    Settled B rt where
  segment_eq : rt.segmentIcount = 0

omit [DecidableEq H] in
lemma AtBase.vns_eq_clockBase (h : AtBase B rt) : rt.vns = rt.clockBase := by
  rw [h.vns_eq, h.segment_eq, pvClockVns_eq, ClockRatio.image_zero, U64.saturatingAdd_zero]

omit [DecidableEq H] in
lemma atBase_of_segment (hcounter : rt.recording.rail.icount = 0)
    (hsegment : rt.segmentIcount = 0) (hvns : rt.vns = rt.clockBase)
    (htable : rt.tableIcount = rt.cumulativeIcount) : AtBase B rt := by
  have himage : B.config.clock.image rt.segmentIcount = 0 := by rw [hsegment, ClockRatio.image_zero]
  refine ⟨⟨hcounter.trans hsegment.symm, by rw [himage]; decide, ?_, htable⟩, hsegment⟩
  rw [pvClockVns_eq, himage, U64.saturatingAdd_zero, hvns]

omit [DecidableEq H] in
lemma atBase_openSlot (base : Option (Snapshot H σ Page)) (machine : σ) (chain : H)
    (seed : Option H) (cumulativeIcount vns epochIndex : U64) (ramIsCow : Bool) :
    AtBase B (openSlot B base machine chain seed cumulativeIcount vns epochIndex ramIsCow) :=
  atBase_of_segment rfl rfl rfl rfl

omit [DecidableEq H] in
lemma forkSlot_eq_ok {seed : Option H} (h : forkSlot B seed rt = .ok rt') :
    rt.ramIsCow = false ∧ rt.segmentIcount = 0 ∧ rt.recording.queued = [] ∧
      ∃ child, child = openSlot B rt.base (B.load (B.ram rt.machine) rt.machine) rt.recording.chain
          seed rt.cumulativeIcount rt.vns rt.epochIndex true ∧ rt' = { child with
          recording := { child.recording with frameCounter := rt.recording.frameCounter } } := by
  unfold forkSlot at h
  split_ifs at h with hcow hsegment hqueued
  exact ⟨(Bool.not_eq_true _).mp hcow, not_not.mp hsegment, not_not.mp hqueued, _, rfl,
    (Except.ok.inj h).symm⟩

lemma takeSnapshot_eq_ok {id : H} {S : Snapshot H σ Page}
    (h : takeSnapshot B id rt = .ok (S, rt')) :
    rt.recording.queued = [] ∧ S = captured B id rt ∧ rt' = rebased B S rt := by
  unfold takeSnapshot at h
  split at h
  · cases h
  · split_ifs at h with hqueued
    cases h
    exact ⟨not_not.mp hqueued, rfl, rfl⟩

lemma OpensSlot.atBase (h : OpensSlot B rt) : AtBase B rt := by
  cases h with
  | create | restore => exact atBase_openSlot ..
  | fork h =>
    obtain ⟨-, -, -, child, rfl, rfl⟩ := forkSlot_eq_ok h
    exact atBase_of_segment rfl rfl rfl rfl

structure RanOn (B : Board H σ X Page) (rt rt' : SlotRuntime H σ Page)
    (response : RunResponse H) : Prop where
  settled : Settled B rt'
  segment_le : rt.segmentIcount ≤ rt'.segmentIcount
  cumulative_eq : rt'.cumulativeIcount =
    rt.cumulativeIcount.saturatingAdd (rt'.segmentIcount - rt.segmentIcount)
  vns_eq : rt'.vns = rt.vns.saturatingAdd
    (B.config.clock.image rt'.segmentIcount - B.config.clock.image rt.segmentIcount)
  epoch_eq : rt'.epochIndex = rt.epochIndex.saturatingAdd
    (rt'.segmentIcount / max B.config.epochLen 1 - rt.segmentIcount / max B.config.epochLen 1)
  clockBase_eq : rt'.clockBase = rt.clockBase
  base_eq : rt'.base = rt.base
  tsc_eq : rt'.tsc = .saturate (B.config.clock.image rt.segmentIcount)
  response_eq : response.icount = rt'.cumulativeIcount ∧ response.vns = rt'.vns

omit [DecidableEq H] in
lemma ranOn_of_runSlot {fuel : ℕ} {call : RunCall} (hs : Settled B rt)
    (h : runSlot B fuel call rt = .ok (response, rt')) : RanOn B rt rt' response := by
  unfold runSlot at h
  split at h
  · cases h
  rename_i startVns hstart
  obtain ⟨rfl, -⟩ := ClockRatio.vnsFromIcount_eq_some_iff.mp hstart
  split at h
  · cases h
  rename_i out rec hrun
  cases h
  obtain ⟨hcounter, hsegment, hle, hvns⟩ := driveRecordedRun_count hrun
  rw [B.config_eq] at hvns
  obtain ⟨hout, hlt⟩ := ClockRatio.vnsFromIcount_eq_some_iff.mp hvns
  rw [hs.counter_eq] at hle
  have himage := B.config.clock.image_mono hle
  have hseg : rec.segmentIcount = out.boundary.icount := hsegment
  refine ⟨⟨hcounter.trans hsegment.symm, ?_, ?_, rfl⟩, hseg ▸ hle, ?_, ?_, ?_, rfl, rfl, rfl,
    rfl, rfl⟩
  · exact hseg ▸ hlt
  · -- the image at the end is the image at the start and the difference
    change rt.vns.saturatingAdd _ = pvClockVns _ rt.clockBase rec.segmentIcount
    rw [hseg, hs.vns_eq, pvClockVns_eq, pvClockVns_eq, U64.saturatingAdd_saturatingAdd, hout,
      Nat.add_sub_cancel' himage]
  · exact congrArg (fun n => rt.cumulativeIcount.saturatingAdd (n - rt.segmentIcount)) hseg.symm
  · rw [hout, ← hseg]
    rfl
  · exact congrArg (fun n => rt.epochIndex.saturatingAdd
      (n / max B.config.epochLen 1 - rt.segmentIcount / max B.config.epochLen 1)) hseg.symm

namespace Act

def retired : Act → ℕ
  | run n => n
  | _ => 0

def closed? : Act → Option ℕ
  | snapshot n | restore n => some n
  | _ => none

end Act

def retiredBy (acts : List Act) : ℕ := (acts.map Act.retired).sum

def closedBy (acts : List Act) : List ℕ := acts.filterMap Act.closed?

structure Accounts (B : Board H σ X Page) (rt0 : SlotRuntime H σ Page) (acts : List Act)
    (rt : SlotRuntime H σ Page) : Prop where
  settled : Settled B rt
  retired_eq : (closedBy acts).sum + rt.segmentIcount = retiredBy acts
  cumulative_eq : rt.cumulativeIcount = rt0.cumulativeIcount.saturatingAdd (retiredBy acts)
  vns_eq : rt.vns = rt0.vns.saturatingAdd
    (((closedBy acts).map B.config.clock.image).sum + B.config.clock.image rt.segmentIcount)
  epoch_eq : rt.epochIndex = rt0.epochIndex.saturatingAdd
    (((closedBy acts).map (· / max B.config.epochLen 1)).sum +
      rt.segmentIcount / max B.config.epochLen 1)
  clockBase_eq : rt.clockBase =
    rt0.clockBase.saturatingAdd ((closedBy acts).map B.config.clock.image).sum

omit [DecidableEq H] in
lemma Accounts.reopen (h : Accounts B rt0 acts rt) (hstart : rt0.vns = rt0.clockBase)
    (hact : act.closed? = some rt.segmentIcount ∧ act.retired = 0 ∨
      act.closed? = none ∧ act.retired = 0 ∧ rt.segmentIcount = 0) (hbase : AtBase B rt')
    (hcumulative : rt'.cumulativeIcount = rt.cumulativeIcount) (hvns : rt'.vns = rt.vns)
    (hepoch : rt'.epochIndex = rt.epochIndex) : Accounts B rt0 (acts ++ [act]) rt' := by
  have hretired : retiredBy (acts ++ [act]) = retiredBy acts := by
    rcases hact with ⟨-, hzero⟩ | ⟨-, hzero, -⟩ <;> simp [retiredBy, hzero]
  have hclosed (f : ℕ → ℕ) (hf : f 0 = 0) : ((closedBy (acts ++ [act])).map f).sum =
      ((closedBy acts).map f).sum + f rt.segmentIcount := by
    rcases hact with ⟨hsome, -⟩ | ⟨hnone, -, hzero⟩
    · simp [closedBy, hsome]
    · simp [closedBy, hnone, hzero, hf]
  have himage := hclosed B.config.clock.image (ClockRatio.image_zero _)
  have hsum := hclosed id rfl
  have hepochs := hclosed (· / max B.config.epochLen 1) (Nat.zero_div _)
  simp only [map_id, id] at hsum
  have hbooked : rt'.vns =
      rt0.vns.saturatingAdd ((closedBy (acts ++ [act])).map B.config.clock.image).sum := by
    rw [hvns, h.vns_eq, himage]
  refine ⟨hbase.toSettled, ?_, ?_, ?_, ?_, ?_⟩
  · rw [hretired, hsum, hbase.segment_eq, Nat.add_zero, h.retired_eq]
  · rw [hretired, hcumulative, h.cumulative_eq]
  · rw [hbooked, hbase.segment_eq, ClockRatio.image_zero, Nat.add_zero]
  · rw [hepoch, h.epoch_eq, hepochs, hbase.segment_eq, Nat.zero_div, Nat.add_zero]
  · rw [← hbase.vns_eq_clockBase, hbooked, hstart]

omit [DecidableEq H] in
lemma Accounts.stay (h : Accounts B rt0 acts rt) (hact : act.closed? = none ∧ act.retired = 0)
    (hsettled : Settled B rt') (hsegment : rt'.segmentIcount = rt.segmentIcount)
    (hclock : rt'.clockBase = rt.clockBase)
    (hcumulative : rt'.cumulativeIcount = rt.cumulativeIcount) (hvns : rt'.vns = rt.vns)
    (hepoch : rt'.epochIndex = rt.epochIndex) : Accounts B rt0 (acts ++ [act]) rt' := by
  have hretired : retiredBy (acts ++ [act]) = retiredBy acts := by simp [retiredBy, hact.2]
  have hclosed : closedBy (acts ++ [act]) = closedBy acts := by simp [closedBy, hact.1]
  refine ⟨hsettled, ?_, ?_, ?_, ?_, ?_⟩
  · rw [hretired, hclosed, hsegment, h.retired_eq]
  · rw [hretired, hcumulative, h.cumulative_eq]
  · rw [hvns, h.vns_eq, hclosed, hsegment]
  · rw [hepoch, h.epoch_eq, hclosed, hsegment]
  · rw [hclock, h.clockBase_eq, hclosed]

omit [DecidableEq H] in
lemma Accounts.run (h : Accounts B rt0 acts rt) (hran : RanOn B rt rt' response) : Accounts B rt0
      (acts ++ [.run (rt'.recording.rail.icount - rt.recording.rail.icount)]) rt' := by
  have hle := hran.segment_le
  rw [hran.settled.counter_eq, h.settled.counter_eq]
  generalize hgrown : rt'.segmentIcount - rt.segmentIcount = grown
  have hretired : retiredBy (acts ++ [.run grown]) = retiredBy acts + grown := by
    simp [retiredBy, Act.retired]
  have hclosed : closedBy (acts ++ [.run grown]) = closedBy acts := by
    simp [closedBy, Act.closed?]
  have himage := B.config.clock.image_mono hle
  have hepoch : rt.segmentIcount / max B.config.epochLen 1 ≤
      rt'.segmentIcount / max B.config.epochLen 1 := Nat.div_le_div_right hle
  have hsum := h.retired_eq
  refine ⟨hran.settled, ?_, ?_, ?_, ?_, ?_⟩
  · rw [hretired, hclosed]
    omega
  · rw [hretired, hran.cumulative_eq, h.cumulative_eq, U64.saturatingAdd_saturatingAdd, hgrown]
  · rw [hclosed, hran.vns_eq, h.vns_eq, U64.saturatingAdd_saturatingAdd, Nat.add_assoc,
      Nat.add_sub_cancel' himage]
  · rw [hclosed, hran.epoch_eq, h.epoch_eq, U64.saturatingAdd_saturatingAdd, Nat.add_assoc,
      Nat.add_sub_cancel' hepoch]
  · rw [hclosed, hran.clockBase_eq, h.clockBase_eq]

omit [DecidableEq H] in
lemma observeSlot_eq_ok (h : observeSlot B rt = .ok rt') :
    ∃ rail es, rt.recording.rail.drainAtPause (B.platform rt.clockBase) rt.segmentIcount =
        .ok (rail, es) ∧ rt' = { rt with recording := { rt.recording with rail } } := by
  unfold observeSlot at h
  split at h
  · cases h
  · rename_i rail es hdrain
    exact ⟨rail, es, hdrain, (Except.ok.inj h).symm⟩

omit [DecidableEq H] in
lemma injectSlot_segment (events : List ScheduledEvent) (rt : SlotRuntime H σ Page) :
    (injectSlot B events rt).segmentIcount = rt.segmentIcount ∧
      (injectSlot B events rt).recording.rail = rt.recording.rail := by
  refine ⟨?_, (inject_spec _ events rt.recording).1⟩
  change (inject _ events rt.recording).segmentIcount = rt.recording.segmentIcount
  unfold inject queueInputsFromProto
  split_ifs
  · rfl
  · dsimp only
    split <;> rfl

lemma accounts_of_lineage (hopened : OpensSlot B rt0) (h : Traced (Acts B) acts rt0 rt) :
    Accounts B rt0 acts rt := by
  have hbase := hopened.atBase
  have hstart := hbase.vns_eq_clockBase
  refine h.induct (I := fun acts rt => Accounts B rt0 acts rt) ?_ ?_
  · refine ⟨hbase.toSettled, ?_, ?_, ?_, ?_, ?_⟩ <;>
      simp [closedBy, retiredBy, hbase.segment_eq]
  · intro acts act rt rt' _ hbooks hact
    cases hact with
    | run hrun => exact hbooks.run (ranOn_of_runSlot hbooks.settled hrun)
    | @snapshot id _ _ S hsnap =>
      obtain ⟨-, rfl, rfl⟩ := takeSnapshot_eq_ok hsnap
      rw [hbooks.settled.counter_eq]
      exact hbooks.reopen hstart (.inl ⟨rfl, rfl⟩) (atBase_of_segment rfl rfl rfl rfl) rfl rfl rfl
    | @restore id _ _ S hsnap seed =>
      obtain ⟨-, rfl, -⟩ := takeSnapshot_eq_ok hsnap
      rw [hbooks.settled.counter_eq]
      exact hbooks.reopen hstart (.inl ⟨rfl, rfl⟩) (atBase_openSlot ..) rfl rfl rfl
    | fork hfork =>
      have hchild := (OpensSlot.fork hfork).atBase
      obtain ⟨-, hzero, -, child, rfl, rfl⟩ := forkSlot_eq_ok hfork
      exact hbooks.reopen hstart (.inr ⟨rfl, rfl, hzero⟩) hchild rfl rfl rfl
    | observe hobserve =>
      obtain ⟨rail, es, hdrain, rfl⟩ := observeSlot_eq_ok hobserve
      have hsettled := hbooks.settled
      refine hbooks.stay ⟨rfl, rfl⟩ ⟨?_, hsettled.image_lt, hsettled.vns_eq,
        hsettled.table_eq⟩ rfl rfl rfl rfl rfl
      exact (drainAtPause_icount hdrain).trans hsettled.counter_eq
    | inject events =>
      obtain ⟨hsegment, hrail⟩ := injectSlot_segment (B := B) events rt
      have hsettled := hbooks.settled
      refine hbooks.stay ⟨rfl, rfl⟩ ⟨?_, ?_, ?_, hsettled.table_eq⟩ hsegment rfl rfl rfl rfl
      · rw [hsegment, hrail, hsettled.counter_eq]
      · exact hsegment ▸ hsettled.image_lt
      · rw [hsegment]
        exact hsettled.vns_eq

/-- The position of a slot along every lineage, in the slot, in the slot table,
in what `Run` answers and in what `TakeSnapshot` stores. -/
theorem position_telescopes {acts : List Act} (hopened : OpensSlot B rt0)
    (h : Traced (Acts B) acts rt0 rt) :
    rt.cumulativeIcount = rt0.cumulativeIcount.saturatingAdd (retiredBy acts) ∧
      rt.vns = rt.clockBase.saturatingAdd (B.config.clock.image rt.segmentIcount) ∧
      rt.vns = pvClockVns B.config.clock rt.clockBase rt.segmentIcount ∧
      rt.epochIndex = rt0.epochIndex.saturatingAdd
        (((closedBy acts ++ [rt.segmentIcount]).map (· / max B.config.epochLen 1)).sum) ∧
      rt.tableIcount = rt.cumulativeIcount ∧
      (∀ fuel call response rt', runSlot B fuel call rt = .ok (response, rt') →
        response.icount = rt'.cumulativeIcount ∧ response.vns = rt'.vns) ∧
      ∀ id S rt', takeSnapshot B id rt = .ok (S, rt') →
        S.cumulativeIcount = rt.cumulativeIcount ∧ S.vns = rt.vns ∧
          S.epochIndex = rt.epochIndex := by
  have hbooks := accounts_of_lineage hopened h
  have hsettled := hbooks.settled
  refine ⟨hbooks.cumulative_eq, ?_, hsettled.vns_eq, ?_, hsettled.table_eq, ?_, ?_⟩
  · rw [hsettled.vns_eq, pvClockVns_eq]
  · rw [hbooks.epoch_eq, map_append, sum_append, map_singleton, sum_singleton]
  · intro fuel call response rt' hrun
    exact (ranOn_of_runSlot hsettled hrun).response_eq
  · intro id S rt' hsnap
    obtain ⟨-, rfl, -⟩ := takeSnapshot_eq_ok hsnap
    exact ⟨rfl, rfl, rfl⟩

/-- A board around the counting guest, with one page that never changes. -/
def countingBoard (clock : ClockRatio) : Board LinkTrace ℕ Unit Unit where
  platform := fun _ => { counting 10 with config := ⟨clock, 10, .epochsOn, [], []⟩ }
  config := ⟨clock, 10, .epochsOn, [], []⟩
  config_eq := fun _ => rfl
  ram := fun _ _ => ()
  load := fun _ s => s
  ring := fun _ => []
  harvest := id
  declared := fun _ => []
  pageHash := fun _ => []
  noBase := []
  maxDeltaChain := 64

def countingSlot (clock : ClockRatio) : SlotRuntime LinkTrace ℕ Unit :=
  createVm (countingBoard clock) 0 [] none

def countingCalls : List (Rpc LinkTrace) :=
  [.run 50 { stop := .icountBudget 12 }, .snapshot [], .fork none,
    .run 50 { stop := .icountBudget 25 }]

theorem position_telescopes_counting :
    ∃ acts rt, Traced (Acts (countingBoard .default)) acts (countingSlot .default) rt ∧
      retiredBy acts = 37 ∧ rt.cumulativeIcount = U64.saturatingAdd (.saturate 0) 37 := by
  obtain ⟨acts, rt, htraced, hretired⟩ := exists_lineage (B := countingBoard .default)
    (countingSlot .default) countingCalls (fun r => retiredBy r.1)
    (a := 37) (by decide +kernel)
  have hposition := position_telescopes (.create 0 [] none) htraced
  exact ⟨acts, rt, htraced, hretired, hretired ▸ hposition.1⟩

namespace ClockRatio

variable (c : ClockRatio) (base : ℕ) (deadline : ℕ) (start : ℕ) (segments : List ℕ)

/-- What the division of a segment's time cuts off, in units of `1 / den`. -/
def cutOff (icount : ℕ) : ℕ := icount * c.num % c.den

lemma image_mul_add_cutOff (icount : ℕ) :
    c.image icount * c.den + c.cutOff icount = icount * c.num := by
  rw [Nat.mul_comm]
  exact Nat.div_add_mod (icount * c.num) c.den

lemma sum_image_mul_add_cutOff :
    (segments.map c.image).sum * c.den + (segments.map c.cutOff).sum = segments.sum * c.num := by
  induction segments with
  | nil => simp
  | cons segment segments ih =>
    have hone := c.image_mul_add_cutOff segment
    simp only [map_cons, sum_cons, Nat.add_mul]
    omega

lemma image_sum : c.image segments.sum =
      (segments.map c.image).sum + (segments.map c.cutOff).sum / c.den := by
  rw [image, ← c.sum_image_mul_add_cutOff, Nat.add_comm, Nat.add_mul_div_right _ _ c.den_pos,
    Nat.add_comm]

/-- What is left of a deadline once the images of earlier segments are in the
base of the clock. -/
def timeLeft : ℕ := deadline - (base + (segments.map c.image).sum)

/-- The time cut off in earlier segments does not move a deadline: it is past converting, or due
at once, or not reached at the count before. -/
def Unmoved : Prop :=
  2 ^ 64 ≤ c.reaches (deadline - base) ∨
    c.reaches (c.timeLeft base deadline segments) ≤ start + 1 ∨
    (c.reaches (c.timeLeft base deadline segments) - 1) * c.num + (segments.map c.cutOff).sum <
      c.timeLeft base deadline segments * c.den

lemma reaches_shift_iff :
    segments.sum + max (c.reaches (c.timeLeft base deadline segments)) (start + 1) =
        max (c.reaches (deadline - base)) (segments.sum + start + 1) ↔
      c.reaches (c.timeLeft base deadline segments) ≤ start + 1 ∨
        (c.reaches (c.timeLeft base deadline segments) - 1) * c.num + (segments.map c.cutOff).sum <
          c.timeLeft base deadline segments * c.den := by
  have hcut := c.sum_image_mul_add_cutOff segments
  have hleft : c.timeLeft base deadline segments =
      deadline - (base + (segments.map c.image).sum) := rfl
  generalize c.timeLeft base deadline segments = left at hleft ⊢
  generalize (segments.map c.image).sum = images at hcut hleft
  generalize (segments.map c.cutOff).sum = cut at hcut ⊢
  generalize segments.sum = earlier at hcut ⊢
  have hcutReaches (k : ℕ) : c.reaches left ≤ k ↔ left * c.den ≤ k * c.num := c.reaches_le_iff
  have hreaches (k : ℕ) : c.reaches (deadline - base) ≤ k ↔
      (deadline - base) * c.den ≤ k * c.num := c.reaches_le_iff
  generalize c.reaches left = m at hcutReaches ⊢
  generalize c.reaches (deadline - base) = u at hreaches ⊢
  have hsplit : (deadline - base) * c.den ≤ left * c.den + images * c.den := by
    rw [← Nat.add_mul]
    exact Nat.mul_le_mul_right _ (by omega)
  have hupper : u ≤ earlier + m := by
    have hreach := (hcutReaches m).mp le_rfl
    rw [hreaches, Nat.add_mul]
    omega
  by_cases hearly : m ≤ start + 1
  · exact ⟨fun _ => .inl hearly, fun _ => by omega⟩
  · -- past the start there is time left, and no truncation in what is left
    have hpos : 0 < left := by
      by_contra hzero
      rw [Nat.eq_zero_of_not_pos hzero] at hcutReaches
      exact hearly ((hcutReaches _).mpr (by omega))
    have hwhole : (deadline - base) * c.den = left * c.den + images * c.den := by
      rw [← Nat.add_mul]
      congr 1
      omega
    have hlast : u ≤ earlier + (m - 1) ↔ left * c.den ≤ (m - 1) * c.num + cut := by
      rw [hreaches, hwhole, Nat.add_mul]
      omega
    omega

end ClockRatio

lemma U64.saturate_eq_iff {a b : ℕ} (h : a ≤ b) :
    U64.saturate a = .saturate b ↔ a = b ∨ 2 ^ 64 - 1 ≤ a := by
  rw [Subtype.ext_iff, U64.coe_saturate, U64.coe_saturate]
  omega

/-- The count, from the start of the lineage, at which a deadline of the pv-clock comes on the
agenda of a `Run`. -/
def deadlineIcount (B : Board H σ X Page) (clockBase : U64) (earlier start : ℕ)
    (deadline : U64) (vector : ℕ) : Option ℕ :=
  (timerToInjection (B.platform clockBase) start ⟨deadline - clockBase, vector⟩).map
    (earlier + ·.icount)

omit [DecidableEq H] in
lemma deadlineIcount_eq_some_iff {deadline : U64} {earlier start vector n : ℕ} :
    deadlineIcount B clockBase earlier start deadline vector = some n ↔
      B.config.clock.reaches (deadline - clockBase) < 2 ^ 64 ∧
        n = earlier + max (B.config.clock.reaches (deadline - clockBase)) (start + 1) := by
  unfold deadlineIcount timerToInjection
  rw [B.config_eq]
  cases hicount : B.config.clock.icountForVnsTarget (deadline - clockBase) with
  | none =>
    have hover := ClockRatio.icountForVnsTarget_eq_none_iff.mp hicount
    exact ⟨nofun, fun ⟨hlt, _⟩ => absurd hlt (not_lt.mpr hover)⟩
  | some icount =>
    obtain ⟨rfl, hlt⟩ := ClockRatio.icountForVnsTarget_eq_some_iff.mp hicount
    exact ⟨fun heq => ⟨hlt, (Option.some.inj heq).symm⟩, fun heq => congrArg some heq.2.symm⟩

omit [DecidableEq H] in
lemma Accounts.deadline_iff (h : Accounts B rt0 acts rt) (deadline : U64) (vector : ℕ) :
    (∀ n, deadlineIcount B rt0.clockBase 0 (retiredBy acts) deadline vector = some n →
        deadlineIcount B rt.clockBase (closedBy acts).sum rt.segmentIcount deadline vector =
          some n) ↔
      B.config.clock.Unmoved rt0.clockBase deadline rt.segmentIcount (closedBy acts) := by
  -- a saturated base is past every deadline, as the sum it stands for is
  have hleft : (deadline - rt.clockBase : ℕ) =
      B.config.clock.timeLeft rt0.clockBase deadline (closedBy acts) := by
    have hlt := deadline.2
    rw [h.clockBase_eq]
    change (deadline - min _ _ : ℕ) = deadline - (_ + _)
    omega
  have hmono : B.config.clock.reaches
      (B.config.clock.timeLeft rt0.clockBase deadline (closedBy acts)) ≤
        B.config.clock.reaches (deadline - rt0.clockBase) := by
    rw [ClockRatio.reaches_le_iff]
    refine le_trans (Nat.mul_le_mul_right _ ?_) (B.config.clock.reaches_le_iff.mp le_rfl)
    exact Nat.sub_le_sub_left (Nat.le_add_right _ _) _
  have hshift := B.config.clock.reaches_shift_iff rt0.clockBase deadline rt.segmentIcount
    (closedBy acts)
  simp only [deadlineIcount_eq_some_iff, hleft, Nat.zero_add, ← h.retired_eq]
  constructor
  · intro hsame
    by_cases hlt : B.config.clock.reaches (deadline - rt0.clockBase) < 2 ^ 64
    · exact .inr (hshift.mp (hsame _ ⟨hlt, rfl⟩).2.symm)
    · exact .inl (not_lt.mp hlt)
  · rintro (hpast | hshow) n ⟨hlt, rfl⟩
    · omega
    · exact ⟨hmono.trans_lt hlt, (hshift.mpr hshow).symm⟩

omit [DecidableEq H] in
lemma Accounts.reading_iff (h : Accounts B rt0 acts rt) (j : ℕ) :
    pvClockVns B.config.clock rt.clockBase (rt.segmentIcount + j) =
        pvClockVns B.config.clock rt0.clockBase (retiredBy acts + j) ↔
      ((closedBy acts ++ [rt.segmentIcount + j]).map B.config.clock.cutOff).sum <
          B.config.clock.den ∨ 2 ^ 64 - 1 ≤ (rt0.clockBase : ℕ) +
          ((closedBy acts ++ [rt.segmentIcount + j]).map B.config.clock.image).sum := by
  have hsum : retiredBy acts + j = (closedBy acts ++ [rt.segmentIcount + j]).sum := by
    rw [sum_append, sum_singleton, ← h.retired_eq, Nat.add_assoc]
  have himages : ((closedBy acts).map B.config.clock.image).sum +
      B.config.clock.image (rt.segmentIcount + j) =
        ((closedBy acts ++ [rt.segmentIcount + j]).map B.config.clock.image).sum := by simp
  rw [pvClockVns_eq, pvClockVns_eq, h.clockBase_eq, U64.saturatingAdd_saturatingAdd, himages,
    hsum, ClockRatio.image_sum]
  change U64.saturate _ = U64.saturate _ ↔ _
  rw [U64.saturate_eq_iff (Nat.add_le_add_left (Nat.le_add_right _ _) _),
    Nat.add_left_cancel_iff, left_eq_add, Nat.div_eq_zero_iff_lt B.config.clock.den_pos]

/-- The guest reads what it would have read in one segment, and a deadline comes where it would
have come, exactly when the fractions cut off at the snapshots do not show. -/
theorem time_transparent_iff {acts : List Act} (hopened : OpensSlot B rt0)
    (h : Traced (Acts B) acts rt0 rt) (j : ℕ) (deadline : U64) (vector : ℕ) :
    (pvClockVns B.config.clock rt.clockBase (rt.segmentIcount + j) =
        pvClockVns B.config.clock rt0.clockBase (retiredBy acts + j) ∧
      ∀ n, deadlineIcount B rt0.clockBase 0 (retiredBy acts) deadline vector = some n →
        deadlineIcount B rt.clockBase (closedBy acts).sum rt.segmentIcount deadline vector =
          some n) ↔ (((closedBy acts ++ [rt.segmentIcount + j]).map B.config.clock.cutOff).sum <
          B.config.clock.den ∨ 2 ^ 64 - 1 ≤ (rt0.clockBase : ℕ) +
          ((closedBy acts ++ [rt.segmentIcount + j]).map B.config.clock.image).sum) ∧
      B.config.clock.Unmoved rt0.clockBase deadline rt.segmentIcount (closedBy acts) := by
  have hbooks := accounts_of_lineage hopened h
  exact and_congr (hbooks.reading_iff j) (hbooks.deadline_iff deadline vector)

def halfClock : ClockRatio := ⟨1, 2, by decide, by decide⟩

/-- Snapshots at even counts of the half clock cut nothing off. -/
theorem time_transparent_even :
    ∃ acts rt, Traced (Acts (countingBoard halfClock)) acts (countingSlot halfClock) rt ∧
      pvClockVns halfClock rt.clockBase (rt.segmentIcount + 3) =
        pvClockVns halfClock (countingSlot halfClock).clockBase (retiredBy acts + 3) := by
  obtain ⟨acts, rt, htraced, hacts⟩ := exists_lineage (B := countingBoard halfClock)
    (countingSlot halfClock)
    [.run 50 { stop := .icountBudget 12 }, .snapshot []]
    (fun r => (closedBy r.1, r.2.segmentIcount)) (a := ([12], 0)) (by decide +kernel)
  obtain ⟨hclosed, hsegment⟩ := Prod.mk.inj hacts
  refine ⟨acts, rt, htraced, ?_⟩
  refine ((time_transparent_iff (.create 0 [] none) htraced 3 (.saturate 0) 0).mpr ⟨.inl ?_, ?_⟩).1
  · rw [hclosed, hsegment]
    decide
  · rw [hclosed, hsegment]
    exact .inr (.inl (by decide))

/-- A snapshot after each of two instructions: the guest still reads zero, and
without them it reads one. -/
theorem snapshots_slow_clock :
    ∃ acts rt, Traced (Acts (countingBoard halfClock)) acts (countingSlot halfClock) rt ∧
      pvClockVns halfClock rt.clockBase rt.segmentIcount = .saturate 0 ∧
      pvClockVns halfClock (countingSlot halfClock).clockBase (retiredBy acts) = .saturate 1 := by
  obtain ⟨acts, rt, htraced, hacts⟩ := exists_lineage (B := countingBoard halfClock)
    (countingSlot halfClock)
    [.run 50 { stop := .icountBudget 1 }, .snapshot [], .run 50 { stop := .icountBudget 1 }]
    (fun r => (retiredBy r.1, pvClockVns halfClock r.2.clockBase r.2.segmentIcount))
    (a := (2, .saturate 0)) (by decide +kernel)
  obtain ⟨hretired, hreading⟩ := Prod.mk.inj hacts
  refine ⟨acts, rt, htraced, hreading, ?_⟩
  rw [hretired]
  decide

/-- Closing segments only slows a lineage's clock, by at most a unit each. -/
theorem lineage_clock_lag {acts : List Act} (hopened : OpensSlot B rt0)
    (h : Traced (Acts B) acts rt0 rt) : ∃ t lag, rt.vns = rt0.vns.saturatingAdd t ∧
      t + lag = B.config.clock.image (retiredBy acts) ∧ lag ≤ (closedBy acts).length := by
  have hbooks := accounts_of_lineage hopened h
  let c := B.config.clock
  let segments := closedBy acts ++ [rt.segmentIcount]
  refine ⟨_, (segments.map c.cutOff).sum / c.den, hbooks.vns_eq, ?_, ?_⟩
  · simpa [segments, hbooks.retired_eq] using (c.image_sum segments).symm
  · rw [← Nat.lt_succ_iff, Nat.div_lt_iff_lt_mul c.den_pos]
    have hsum := sum_lt_sum_of_ne_nil (l := segments) (by simp [segments]) c.cutOff
      (fun _ => c.den) fun n _ => Nat.mod_lt _ c.den_pos
    simpa [segments, Nat.succ_mul] using hsum

theorem lineage_clock_lag_half : ∃ acts rt t lag,
    Traced (Acts (countingBoard halfClock)) acts (countingSlot halfClock) rt ∧
      rt.vns = U64.saturatingAdd (.saturate 0) t ∧
      t + lag = halfClock.image (retiredBy acts) ∧ lag ≤ 1 := by
  obtain ⟨acts, rt, h, hclosed⟩ := exists_lineage (B := countingBoard halfClock)
    (countingSlot halfClock) [.run 9 { stop := .icountBudget 1 }, .snapshot []]
    (fun r => closedBy r.1) (a := [1]) rfl
  obtain ⟨t, lag, hvns, himage, hlag⟩ := lineage_clock_lag (.create 0 [] none) h
  exact ⟨acts, rt, t, lag, h, hvns, himage, by simpa [hclosed] using hlag⟩

end DetHypervisor
