import DetHypervisor.Lib.Owed
import DetHypervisor.FrameQueue
import DetHypervisor.Delivery

/-!
# Inputs at frames

The queue owes every accepted input at the first frame at or past its target.
It pays as long as no frame jumps over an entry that was queued before the run.
-/

namespace DetHypervisor

open List Option

variable {H σ X : Type} {P : Platform H σ X}
  {acts : List FrameAct} {frame : ℕ} {items : List FrameItem} {rt : Recording H σ}
  {run : ActiveRun} {st st' : FrameSlot H σ}

/-! ## What the slot owes -/

/-- What the slot owes: its queue, and during a run first what was queued before, then the side
queue. -/
inductive Owing : FrameSlot H σ → List FrameItem → Prop
  | parked {rt : Recording H σ} {items : List FrameItem}
      (htidy : Tidy rt.queued rt.nextInputOrder) (hsame : SameAt (frameItems rt.queued) items) :
      Owing ⟨rt, none⟩ items
  | active {rt : Recording H σ} {run : ActiveRun} {early items : List FrameItem}
      (htidy : Tidy rt.queued rt.nextInputOrder)
      (hconsumed : ∀ input ∈ run.consumed, input ∈ rt.queued)
      (hwaiting : run.waiting = rt.queued.filter fun input =>
        input.frame?.isSome && !(run.consumed.map (·.order)).contains input.order)
      (hsided : ∀ side, run.live = some side → Sided run side)
      (hsame : SameAt (frameItems run.waiting) early)
      (hitems : items = early ++ frameItems run.leftovers) : Owing ⟨rt, some run⟩ items

def FrameAct.event? : FrameAct → Option (OwedEvent FrameItem)
  | .schedule items | .live items => some (.accept items)
  | .frame n applied => some (.tick n applied)
  | .begin _ | .finish => none

/-- What the code needs at a move: a frame does not jump over an entry of the
queue that waits for an earlier one, and there are order numbers for what is
queued again. -/
def Unskipped : FrameAct → FrameSlot H σ → Prop
  | .frame frame _, ⟨_, some run⟩ => ∀ input ∈ run.waiting, ∀ n, input.frame? = some n → frame ≤ n
  | .finish, ⟨rt, some run⟩ => rt.nextInputOrder + run.leftovers.length < 2 ^ 64
  | _, _ => True

lemma mem_frameItems {inputs : List QueuedInput} {item : FrameItem} : item ∈ frameItems inputs ↔
      ∃ input ∈ inputs, input.frame? = some item.1 ∧ input.kind = item.2 := by
  simp only [frameItems, mem_filterMap, map_eq_some_iff]
  constructor
  · rintro ⟨input, hinput, n, hn, rfl⟩
    exact ⟨input, hinput, hn, rfl⟩
  · rintro ⟨input, hinput, hn, hkind⟩
    exact ⟨input, hinput, item.1, hn, Prod.ext rfl hkind⟩

lemma unskipped_frame_iff {applied : List FrameItem} :
    Unskipped (.frame frame applied) ⟨rt, some run⟩ ↔
      ∀ item ∈ frameItems run.waiting, frame ≤ item.1 := by
  constructor
  · intro h item hitem
    obtain ⟨input, hinput, hn, -⟩ := mem_frameItems.mp hitem
    exact h input hinput item.1 hn
  · intro h input hinput n hn
    exact h (n, input.kind) (mem_frameItems.mpr ⟨input, hinput, hn, rfl⟩)

lemma frameItems_hold (hsided : ∀ side, run.live = some side → Sided run side) (frame : ℕ) :
    frameItems (run.hold frame).1 =
        (frameItems run.waiting).filter (fun i => decide (i.1 = frame)) ++
          (frameItems run.leftovers).filter (fun i => decide (i.1 ≤ frame)) ∧
      frameItems (run.hold frame).2.leftovers =
        (frameItems run.leftovers).filter fun i => decide (frame < i.1) := by
  have hdue := frameItems_atTarget frame run.waiting
  unfold ActiveRun.hold ActiveRun.leftovers
  cases hlive : run.live with
  | none =>
    refine ⟨?_, rfl⟩
    rw [frameItems_append]
    exact congrArg (· ++ []) hdue
  | some side =>
    obtain ⟨hserved, hleft⟩ := LiveInputRun.observeFrame_items (hsided side hlive) frame
    refine ⟨?_, hleft⟩
    rw [frameItems_append]
    exact congrArg₂ (· ++ ·) hdue hserved

lemma Owing.frame_iff (h : Owing ⟨rt, some run⟩ items) (frame : ℕ) :
    frameItems (run.hold frame).1 = items.filter (fun i => decide (i.1 ≤ frame)) ↔
      ∀ item ∈ frameItems run.waiting, frame ≤ item.1 := by
  cases h with
  | active htidy hconsumed hwaiting hsided hsame hitems =>
    rw [(frameItems_hold hsided frame).1, hitems, filter_append, append_left_inj, hsame frame]
    constructor
    · intro heq item hitem
      by_contra hlt
      have hmem : item ∈ List.filter (fun i => decide (i.1 ≤ frame)) _ :=
        mem_filter.mpr ⟨(hsame.mem_iff item).mp hitem,
          decide_eq_true (Nat.le_of_lt (not_le.mp hlt))⟩
      rw [← heq] at hmem
      have := of_decide_eq_true (mem_filter.mp hmem).2
      omega
    · intro hlate
      rw [hsame.filter_le hlate, hsame frame]

lemma ActiveRun.hold_waiting (htidy : Tidy rt.queued rt.nextInputOrder)
    (hwaiting : run.waiting = rt.queued.filter fun input =>
      input.frame?.isSome && !(run.consumed.map (·.order)).contains input.order) (frame : ℕ) :
    (run.hold frame).2.waiting = rt.queued.filter fun input => input.frame?.isSome &&
      !((run.hold frame).2.consumed.map (·.order)).contains input.order := by
  have hmem {input : QueuedInput} (h : input ∈ run.waiting) : input ∈ rt.queued := by
    rw [hwaiting] at h
    exact (List.mem_filter.mp h).1
  change run.waiting.filter _ = rt.queued.filter fun input => input.frame?.isSome &&
    !((run.consumed ++ atTarget frame run.waiting).map (·.order)).contains input.order
  -- an order number of what is due is that of the entry itself
  have hdue : ∀ input ∈ run.waiting, input.order ∈ (atTarget frame run.waiting).map (·.order) ↔
      input.frame? = some frame := by
    intro input hinput
    constructor
    · intro h
      obtain ⟨other, hother, horder⟩ := List.mem_map.mp h
      obtain ⟨hin, htarget⟩ := List.mem_filter.mp hother
      rw [← List.inj_on_of_nodup_map htidy.nodup (hmem hin) (hmem hinput) horder]
      exact of_decide_eq_true htarget
    · intro h
      exact List.mem_map.mpr ⟨input, List.mem_filter.mpr ⟨hinput, decide_eq_true h⟩, rfl⟩
  have hsplit : (rt.queued.filter fun input => input.frame?.isSome &&
      !((run.consumed ++ atTarget frame run.waiting).map (·.order)).contains input.order) =
      run.waiting.filter fun input =>
        !((atTarget frame run.waiting).map (·.order)).contains input.order := by
    conv_rhs => rw [hwaiting]
    rw [List.filter_filter]
    refine List.filter_congr fun input _ => ?_
    rw [← hwaiting, List.map_append, List.contains_append, Bool.not_or, ← Bool.and_assoc,
      Bool.and_comm]
  rw [hsplit]
  refine List.filter_congr fun input hinput => ?_
  rw [Bool.eq_iff_iff, Bool.not_eq_true', Bool.not_eq_true', ← Bool.not_eq_true,
    ← Bool.not_eq_true, List.contains_iff_mem, hdue input hinput, decide_eq_true_eq]

/-- A step applies what is owed at its frame, and the rest stays owed. -/
lemma Owing.step {act : FrameAct} (h : Owing st items) (hstep : FrameSteps P act st st')
    (hok : Unskipped act st) : Owed.Honoured Prod.fst items act.event?.toList ∧
      Owing st' (Owed.owed Prod.fst items act.event?.toList) := by
  cases hstep with
  | schedule events rt =>
    cases h with
    | parked htidy hsame =>
      obtain ⟨htidy', htarget⟩ := htidy.inject (P := P) events
      refine ⟨trivial, .parked htidy' ?_⟩
      exact (sameAt_of_atTarget htarget).trans (hsame.append (.refl _))
  | begin streaming rt =>
    cases h with
    | parked htidy hsame =>
      have hnone : (ActiveRun.start P streaming rt).leftovers = [] := by
        cases streaming <;> rfl
      refine ⟨trivial, .active htidy nofun ?_ ?_ (show SameAt _ items from ?_) ?_⟩
      · simp [ActiveRun.start]
      · intro side hside
        cases streaming with
        | false => cases hside
        | true =>
          cases hside
          exact ⟨⟨.nil, nofun, Nat.zero_le _⟩, nofun, le_rfl⟩
      · have hall : frameItems (ActiveRun.start P streaming rt).waiting =
            frameItems rt.queued := by
          have hkeep : frameItems (rt.queued.filter fun input => input.frame?.isSome) =
              (frameItems rt.queued).filter fun _ => true :=
            frameItems_filter (fun _ => true) fun input _ n hn => by rw [hn]; rfl
          exact hkeep.trans (filter_eq_self.mpr fun _ _ => rfl)
        rw [hall]
        exact hsame
      · rw [hnone]
        exact (append_nil items).symm
  | live events rt run hlive =>
    rename_i side
    cases h with
    | active htidy hconsumed hwaiting hsided hsame hitems =>
      obtain ⟨hpending, -, -, -⟩ := side.inject_spec (P := P) events
      refine ⟨trivial, .active htidy hconsumed hwaiting ?_ hsame ?_⟩
      · intro side' hside'
        cases hside'
        exact (hsided side hlive).inject events
      · have hleft : run.leftovers = side.pending := by rw [ActiveRun.leftovers, hlive]; rfl
        change items ++ _ = _ ++ frameItems (side.inject P events).2.pending
        rw [hpending, frameItems_append, hitems, hleft, append_assoc]
  | frame rt run hframe =>
    rename_i n
    have hlate := unskipped_frame_iff.mp hok
    have happlied := (h.frame_iff n).mpr hlate
    cases h with
    | active htidy hconsumed hwaiting hsided hsame hitems =>
      have hleft : frameItems (run.hold n).2.waiting =
          (frameItems run.waiting).filter fun i => decide (n < i.1) := by
        refine frameItems_filter (fun m => decide (n < m)) fun input hinput m hm => ?_
        have hle := hok input hinput m hm
        rw [Bool.eq_iff_iff, Bool.not_eq_true', decide_eq_false_iff_not, decide_eq_true_eq,
          hm, Option.some.injEq]
        omega
      refine ⟨⟨happlied, trivial⟩, .active htidy ?_ (run.hold_waiting htidy hwaiting n) ?_
        (hleft ▸ hsame.filter fun m => decide (n < m)) ?_⟩
      · intro input hinput
        rcases mem_append.mp hinput with hold | hdue
        · exact hconsumed input hold
        · have hin := (mem_filter.mp hdue).1
          rw [hwaiting] at hin
          exact (mem_filter.mp hin).1
      · intro side hside
        obtain ⟨side', hlive, rfl⟩ := map_eq_some_iff.mp
          (show (run.live.map (·.observeFrame n)).map (·.2) = some side from hside)
        obtain ⟨before, hbefore, rfl⟩ := map_eq_some_iff.mp hlive
        exact (hsided before hbefore).observeFrame n _ rfl
      · rw [(frameItems_hold hsided n).2]
        subst hitems
        exact filter_append ..
  | finish rt run rail chain segmentIcount hothers =>
    cases h with
    | active htidy hconsumed hwaiting hsided hsame hitems =>
      obtain ⟨htidy', hsame'⟩ := requeue_spec htidy hconsumed hwaiting hothers hok
      refine ⟨trivial, .parked htidy' ?_⟩
      subst hitems
      exact hsame'.trans (hsame.append (.refl _))

def Steady (P : Platform H σ X) (act : FrameAct) (st st' : FrameSlot H σ) : Prop :=
  FrameSteps P act st st' ∧ Unskipped act st

def frameEvents (acts : List FrameAct) : List (OwedEvent FrameItem) :=
  acts.filterMap FrameAct.event?

lemma frameEvents_cons (act : FrameAct) (acts : List FrameAct) :
    frameEvents (act :: acts) = act.event?.toList ++ frameEvents acts := by
  cases hevent : act.event? <;> simp [frameEvents, hevent]

lemma frameEvents_append (acts acts' : List FrameAct) :
    frameEvents (acts ++ acts') = frameEvents acts ++ frameEvents acts' := filterMap_append

def FrameSlot.held (st : FrameSlot H σ) : List QueuedInput :=
  match st.active with
  | none => st.parked.queued
  | some run => run.waiting ++ run.leftovers

lemma Owing.sameAt_held (h : Owing st items) : SameAt (frameItems st.held) items := by
  cases h with
  | parked htidy hsame => exact hsame
  | active htidy hconsumed hwaiting hsided hsame hitems =>
    subst hitems
    change SameAt (frameItems (_ ++ _)) _
    rw [frameItems_append]
    exact hsame.append (.refl _)

lemma Owing.traced (h : Owing st items) (htraced : Traced (Steady P) acts st st') :
    Owed.Honoured Prod.fst items (frameEvents acts) ∧
      Owing st' (Owed.owed Prod.fst items (frameEvents acts)) := by
  induction htraced generalizing items with
  | nil st => exact ⟨trivial, h⟩
  | @cons act acts st st1 st' hstep _ ih =>
    obtain ⟨hhonoured, howing⟩ := h.step hstep.1 hstep.2
    rw [frameEvents_cons, Owed.honoured_append, Owed.owed_append]
    exact ⟨⟨hhonoured, (ih howing).1⟩, (ih howing).2⟩

lemma owing_of_empty (h : rt.queued = []) : Owing (⟨rt, none⟩ : FrameSlot H σ) [] := by
  refine .parked ⟨⟨?_, ?_⟩, ?_⟩ ?_ <;> rw [h]
  · exact nodup_nil
  · exact nofun
  · exact .nil
  · exact .refl _

/-! ## Live and scheduled before -/

lemma accepted_after (h : Traced (FrameSteps P) acts ⟨rt, some run⟩ st') (hacts : .finish ∉ acts)
    (hreached : ∀ side, run.live = some side → frame ≤ side.lastReachedFrame) :
    ∀ item ∈ (frameEvents acts).flatMap OwedEvent.accepted, frame < item.1 := by
  generalize hst : (⟨rt, some run⟩ : FrameSlot H σ) = st at h
  induction h generalizing rt run with
  | nil st => exact nofun
  | @cons act acts st st1 st' hstep _ ih =>
    rw [mem_cons, not_or] at hacts
    rw [frameEvents_cons, flatMap_append]
    intro item hitem
    cases hstep with
    | schedule | begin => cases hst
    | @live events rt run side hlive =>
      obtain ⟨rfl, rfl⟩ : _ ∧ _ := by simpa using hst
      obtain ⟨-, hlast, -, htargets⟩ := side.inject_spec (P := P) events
      rcases mem_append.mp hitem with hnew | hlater
      · rw [FrameAct.event?, Option.toList, flatMap_singleton] at hnew
        obtain ⟨input, hinput, hn, -⟩ := mem_frameItems.mp hnew
        obtain ⟨n, hn', hlt⟩ := htargets input hinput
        rw [hn'] at hn
        exact (hreached side hlive).trans_lt (Option.some.inj hn ▸ hlt)
      · refine ih hacts.2 (fun side' hside' => ?_) rfl item hlater
        cases hside'
        rw [hlast]
        exact hreached side hlive
    | frame rt run hframe =>
      obtain ⟨rfl, rfl⟩ : _ ∧ _ := by simpa using hst
      refine ih hacts.2 (fun side hside => ?_) rfl item hitem
      obtain ⟨w, hw, rfl⟩ := map_eq_some_iff.mp hside
      obtain ⟨before, hbefore, rfl⟩ := map_eq_some_iff.mp hw
      exact (hreached before hbefore).trans (le_max_left _ _)
    | finish => exact absurd rfl hacts.1

lemma timely_of_run (h : Traced (FrameSteps P) acts ⟨rt, some run⟩ st') (hacts : .finish ∉ acts) :
    Owed.Timely Prod.fst (frameEvents acts) := by
  generalize hst : (⟨rt, some run⟩ : FrameSlot H σ) = st at h
  induction h generalizing rt run with
  | nil st => trivial
  | @cons act acts st st1 st' hstep hrest ih =>
    rw [mem_cons, not_or] at hacts
    cases hstep with
    | schedule | begin => cases hst
    | live events rt run hlive => exact ih hacts.2 rfl
    | frame rt run hframe =>
      refine ⟨accepted_after hrest hacts.2 fun side hside => ?_, ih hacts.2 rfl⟩
      obtain ⟨w, hw, rfl⟩ := map_eq_some_iff.mp hside
      obtain ⟨before, hbefore, rfl⟩ := map_eq_some_iff.mp hw
      exact le_max_right _ _
    | finish => exact absurd rfl hacts.1

lemma steps_of_steady (h : Traced (Steady P) acts st st') : Traced (FrameSteps P) acts st st' := by
  induction h with
  | nil st => exact .nil st
  | cons hl _ ih => exact .cons hl.1 ih

lemma live_eq_scheduled (h : Owing ⟨rt, none⟩ items) {st1 st2 : FrameSlot H σ}
    {body body' : List FrameAct} {streaming : Bool}
    (hlive : Traced (Steady P) (.begin true :: body ++ [.finish]) ⟨rt, none⟩ st1)
    (hscheduled : Traced (Steady P)
      (.schedule ((frameEvents body).flatMap OwedEvent.accepted) :: .begin streaming :: body' ++
        [.finish]) ⟨rt, none⟩ st2) (hbody : .finish ∉ body)
    (hframes : ∀ e ∈ frameEvents body', e.isTick = true)
    (htimes : (frameEvents body').map OwedEvent.time? =
      ((frameEvents body).filter OwedEvent.isTick).map OwedEvent.time?) :
    frameEvents body' = (frameEvents body).filter OwedEvent.isTick ∧
      SameAt (frameItems st1.held) (frameItems st2.held) := by
  obtain ⟨hhonoured, howing⟩ := h.traced hlive
  obtain ⟨hhonoured', howing'⟩ := h.traced hscheduled
  have hends (acts : List FrameAct) (streaming : Bool) :
      frameEvents (.begin streaming :: acts ++ [.finish]) = frameEvents acts := by
    rw [cons_append, frameEvents_cons, frameEvents_append]
    exact append_nil _
  rw [hends] at hhonoured howing
  rw [cons_append, frameEvents_cons, hends] at hhonoured' howing'
  change Owed.Honoured Prod.fst (items ++ _) (frameEvents body') at hhonoured'
  have htimely : Owed.Timely Prod.fst (frameEvents body) := by
    cases steps_of_steady hlive with
    | cons hbegin hrest =>
      cases hbegin
      obtain ⟨st, hrun, -⟩ := hrest.split
      exact timely_of_run hrun hbody
  obtain ⟨hearly, howed⟩ := hhonoured.early htimely
  have heq := hhonoured'.eq_of_times hearly hframes (fun e he => (mem_filter.mp he).2) htimes
  refine ⟨heq, howing.sameAt_held.trans ?_⟩
  rw [← howed, ← heq]
  exact howing'.sameAt_held.symm

/-- Over any number of runs that jump over none of the queue, every accepted input is applied
once, at the first frame at or past its target, or is still held; a frame that jumps over
one breaks this; and live inputs have the effect of queued ones. -/
theorem frame_inputs_honoured {rt : Recording H σ} (hempty : rt.queued = [])
    {acts : List FrameAct} {st : FrameSlot H σ} (h : Traced (Steady P) acts ⟨rt, none⟩ st) :
    Owed.Honoured Prod.fst [] (frameEvents acts) ∧
      (frameItems st.held).Perm (Owed.owed Prod.fst [] (frameEvents acts)) ∧
      (∀ frame applied st', FrameSteps P (.frame frame applied) st st' →
        (Owed.Honoured Prod.fst [] (frameEvents (acts ++ [.frame frame applied])) ↔
          Unskipped (.frame frame applied) st)) ∧ ∀ body body' streaming st1 st2,
        Traced (Steady P) (.begin true :: body ++ [.finish]) st st1 →
        Traced (Steady P) (.schedule ((frameEvents body).flatMap OwedEvent.accepted) ::
          .begin streaming :: body' ++ [.finish]) st st2 →
        .finish ∉ body → (∀ e ∈ frameEvents body', e.isTick = true) →
        (frameEvents body').map OwedEvent.time? =
          ((frameEvents body).filter OwedEvent.isTick).map OwedEvent.time? →
        frameEvents body' = (frameEvents body).filter OwedEvent.isTick ∧
          SameAt (frameItems st1.held) (frameItems st2.held) := by
  obtain ⟨hhonoured, howing⟩ := (owing_of_empty hempty).traced h
  refine ⟨hhonoured, howing.sameAt_held.perm, ?_, ?_⟩
  · intro frame applied st' hstep
    rw [frameEvents_append, Owed.honoured_append, and_iff_right hhonoured]
    cases hstep with
    | frame rt run hframe =>
      rw [unskipped_frame_iff, ← howing.frame_iff frame]
      exact and_iff_left trivial
  · intro body body' streaming st1 st2 hlive hscheduled hbody hframes htimes
    obtain ⟨rt', active⟩ := st
    cases active with
    | some run =>
      cases hlive with
      | cons hbegin _ => cases hbegin.1
    | none => exact live_eq_scheduled howing hlive hscheduled hbody hframes htimes

def padded : Platform LinkTrace ℕ Unit :=
  { counting 10 with config := ⟨ClockRatio.default, 10, .epochsOn, [deviceIdPvPad], []⟩ }

def paddedSlot : Recording LinkTrace ℕ := freshCount padded

def pressAt (frame : ℕ) : ScheduledEvent := ⟨some (.atFrame frame), some (.padSet 0 1)⟩

/-- A button queued for frame 2 and one that comes in live for frame 4, in a run
that reaches frames 2 and 5: the second catches up. -/
theorem frame_inputs_padded : ∃ st acts, Traced (Steady padded) acts ⟨paddedSlot, none⟩ st ∧
      frameEvents acts = [.accept [(2, .padSet 0 1 2)], .accept [(4, .padSet 0 1 4)],
        .tick 2 [(2, .padSet 0 1 2)], .tick 5 [(4, .padSet 0 1 4)]] ∧
      Owed.Honoured Prod.fst [] (frameEvents acts) := by
  have hacts : ∃ st acts, Traced (Steady padded) acts ⟨paddedSlot, none⟩ st ∧
      frameEvents acts = [.accept [(2, .padSet 0 1 2)], .accept [(4, .padSet 0 1 4)],
        .tick 2 [(2, .padSet 0 1 2)], .tick 5 [(4, .padSet 0 1 4)]] := by
    refine ⟨_, _, .cons ⟨.schedule [pressAt 2] _, trivial⟩ <| .cons ⟨.begin true _, trivial⟩ <|
      .cons ⟨.live [pressAt 4] _ _ rfl, trivial⟩ <|
      .cons ⟨@FrameSteps.frame _ _ _ _ _ _ 2 ?_, ?_⟩ <|
      .cons ⟨@FrameSteps.frame _ _ _ _ _ _ 5 ?_, ?_⟩ <| .nil _, ?_⟩
    · decide
    · rw [unskipped_frame_iff]
      decide +kernel
    · decide
    · rw [unskipped_frame_iff]
      decide +kernel
    · rfl
  obtain ⟨st, acts, htraced, hevents⟩ := hacts
  exact ⟨st, acts, htraced, hevents, (frame_inputs_honoured rfl htraced).1⟩

/-- A button that comes in live for frame 5 and is queued again when the run stops
at frame 4: the next run jumps to frame 6 and does not apply it. -/
theorem requeued_input_skipped : ∃ st acts, Traced (FrameSteps padded) acts ⟨paddedSlot, none⟩ st ∧
      frameEvents acts = [.accept [(5, .padSet 0 1 5)], .tick 4 [], .tick 6 []] ∧
      frameItems st.held = [(5, .padSet 0 1 5)] ∧
      ¬Owed.Honoured Prod.fst [] (frameEvents acts) := by
  refine ⟨_, _, .cons (.begin true _) <| .cons (.live [pressAt 5] _ _ rfl) <|
    .cons (@FrameSteps.frame _ _ _ _ _ _ 4 ?_) <|
    .cons (@FrameSteps.finish _ _ _ _ _ _ paddedSlot.rail [] 4 [] nofun) <|
    .cons (.begin false _) <| .cons (@FrameSteps.frame _ _ _ _ _ _ 6 ?_) <| .nil _, ?_, ?_, ?_⟩
  · decide
  · decide
  · rfl
  · rfl
  · rintro ⟨-, hsix, -⟩
    cases hsix

/-! ## The frames of run control -/

section Runs

variable {τ : Type} {req : RunRequest H σ τ} {s s' : Seg H σ τ}

/-- The run of the queue's model is at the frame where run control is, with the same entries
waiting and applied. -/
structure Mirrors (req : RunRequest H σ τ) (run : ActiveRun) (s : Seg H σ τ) : Prop where
  lastFrame_eq : run.lastFrame = s.lastFrame
  waiting_eq : run.waiting = pendingInputs req s
  consumed_eq : run.consumed = s.consumed.filter (·.frame?.isSome)
  pending : ∀ p ∈ s.pendingFrames, ∃ input, req.inputs[p.2]? = some input ∧
    input.frame? = some p.1

/-- The two models start a run alike. -/
lemma mirrors_start (streaming : Bool) (call : RunCall) (rt : Recording H σ) :
    Mirrors (recordRequest call rt) (.start P streaming rt)
      (startSeg (recordRequest call rt) rt.rail rt.chain ()) := by
  refine ⟨rfl, ?_, rfl, ?_⟩
  · have hlookup : pendingInputs (recordRequest call rt)
        (startSeg (recordRequest call rt) rt.rail rt.chain ()) = _ := frames_lookup
    refine Eq.trans (filter_congr fun input _ => ?_) hlookup.symm
    rw [QueuedInput.frame?]
    cases input.due <;> rfl
  · intro p hp
    obtain ⟨⟨input, index⟩, hmem, hframe⟩ := mem_filterMap.mp hp
    have hinput := mem_zipIdx_iff_getElem?.mp hmem
    cases hdue : input.due <;> simp only [hdue, reduceCtorEq] at hframe
    cases hframe
    exact ⟨input, hinput, by rw [QueuedInput.frame?, hdue]⟩

lemma filterMap_pending {frames : List (ℕ × ℕ)} {inputs : List QueuedInput}
    (h : ∀ p ∈ frames, ∃ input, inputs[p.2]? = some input ∧ input.frame? = some p.1)
    (keep : Option ℕ → Bool) :
    (frames.filter fun p => keep (some p.1)).filterMap (fun p => inputs[p.2]?) =
      (frames.filterMap fun p => inputs[p.2]?).filter fun input => keep input.frame? := by
  induction frames with
  | nil => rfl
  | cons p rest ih =>
    rw [forall_mem_cons] at h
    obtain ⟨input, hinput, hframe⟩ := h.1
    have hrest := ih h.2
    cases hkeep : keep (some p.1) <;> simp [hkeep, hinput, hframe, hrest]

/-- The held boundary of run control is a frame of the queue: what `hold` hands out is what is
applied and logged there, and the models agree again behind it. -/
lemma Mirrors.hold {frame : ℕ} (h : Mirrors req run s)
    (hlive : req.liveInputs frame =
      ((run.live.map fun side => (side.observeFrame frame).1).getD []).map (·.kind))
    (hhold : holdFrame P req frame s = .ok s') :
    run.lastFrame < frame ∧ Mirrors req (run.hold frame).2 s' ∧
      Applied P s.rail.icount 0 ((run.hold frame).1.map (·.kind)) s.rail s'.rail := by
  unfold holdFrame at hhold
  split_ifs at hhold with hlast
  obtain ⟨s1, hdue, hside⟩ := Except.bind_eq_ok.mp hhold
  obtain ⟨r1, happlied, rfl⟩ := applyAtFrame_eq_ok hdue
  obtain ⟨r2, happlied', rfl⟩ := applyAtFrame_eq_ok hside
  have hdue : dueAtFrame req frame s = atTarget frame run.waiting := by
    rw [h.waiting_eq, pendingInputs, atTarget,
      ← filterMap_pending h.pending fun n => decide (n = some frame)]
    simp [dueAtFrame]
  refine ⟨h.lastFrame_eq ▸ not_le.mp hlast, ⟨rfl, ?_, ?_, ?_⟩, ?_⟩
  · change run.waiting.filter _ = _
    rw [h.waiting_eq, pendingInputs,
      ← filterMap_pending h.pending fun n => !decide (n = some frame)]
    simp [pendingInputs]
  · change run.consumed ++ atTarget frame run.waiting = (s.consumed ++ _).filter _
    rw [hdue, filter_append, ← h.consumed_eq]
    congr 1
    refine (filter_eq_self.mpr fun input hinput => ?_).symm
    rw [of_decide_eq_true (mem_filter.mp hinput).2]
    rfl
  · exact fun p hp => h.pending p (mem_filter.mp hp).1
  · rw [show r1.icount = s.rail.icount from happlied.icount_eq] at happlied'
    have hkinds : (run.hold frame).1.map (·.kind) =
        (dueAtFrame req frame s).map (·.kind) ++ req.liveInputs frame := by
      rw [hdue, hlive, ← map_append]
      cases hside : run.live <;> simp [ActiveRun.hold, atTarget, hside]
    rw [hkinds]
    exact happlied.append happlied'

end Runs

end DetHypervisor
