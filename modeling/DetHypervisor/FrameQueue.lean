import DetHypervisor.Sessions

/-!
# The queue of frame inputs

Inputs scheduled for a value of the guest's FRAME_COUNTER. What comes in during a streaming run
waits in a side queue, and what the run leaves there is queued again.
-/

namespace DetHypervisor

open List Except

variable {H σ X : Type} {P : Platform H σ X}

/-! ## The side queue of a streaming run -/

/-- `LiveInputRun`, with the machine configuration left in the platform. -/
structure LiveInputRun where
  lastReachedFrame : ℕ
  pending : List QueuedInput
  nextOrder : ℕ
  padIrqBlocked : Option String
  netIrqBlocked : Option String

def QueuedInput.frame? (input : QueuedInput) : Option ℕ :=
  match input.due with
  | .icount _ => none
  | .frame n => some n

/-- Number a batch of checked events. The counter moves on even when a later
event of the batch is refused. -/
def acceptWith (check : ℕ → ScheduledEvent → Except Status QueuedInput) :
    ℕ → List ScheduledEvent → ℕ → Except Status (List QueuedInput) × ℕ
  | _, [], order => (.ok [], order)
  | index, event :: rest, order =>
    match check index event with
    | .error e => (.error e, order)
    | .ok input =>
      match checkedAdd order 1 with
      | none => (.error (.resourceExhausted "scheduled input order exhausted"), order)
      | some order' =>
        let (inputs, last) := acceptWith check (index + 1) rest order'
        (inputs.map ({ input with order } :: ·), last)

namespace LiveInputRun

def activate (P : Platform H σ X) (rt : Recording H σ) : LiveInputRun where
  lastReachedFrame := rt.frameCounter
  pending := []
  nextOrder := 2 ^ 63
  padIrqBlocked := frameScheduledIrqPrecondition P rt.rail.machine (.padSet 0 0 0)
  netIrqBlocked := frameScheduledIrqPrecondition P rt.rail.machine (.netRx [])

def check (P : Platform H σ X) (run : LiveInputRun) (index : ℕ) (event : ScheduledEvent) :
    Except Status QueuedInput :=
  match event.due with
  | none => .error (.invalidArgument s!"events[{index}].at is required")
  | some (.atFrame _) => do
      let input ← queuedInputFromProto P index event 0 run.lastReachedFrame
      let blocked := match input.kind with
        | .padSet .. => run.padIrqBlocked
        | .netRx _ => run.netIrqBlocked
        | .devEvent .. => none
      match blocked with
      | some reason => .error (.failedPrecondition
          s!"events[{index}].at_frame cannot queue an IRQ: {reason}")
      | none => .ok input
  | some _ => .error (.failedPrecondition
      (s!"events[{index}]: only at_frame events are accepted while a streaming run is active " ++
        "(the icount agenda is fixed at run start)"))

/-- `live_inject_from_proto`: what the batch adds, and the queue after it. -/
def inject (P : Platform H σ X) (events : List ScheduledEvent) (run : LiveInputRun) :
    List QueuedInput × LiveInputRun :=
  if 2 ^ 32 ≤ events.length then ([], run)
  else
    let (accepted, order) := acceptWith (run.check P) 0 events run.nextOrder
    match accepted with
    | .error _ => ([], { run with nextOrder := order })
    | .ok inputs => (inputs, { run with nextOrder := order, pending := run.pending ++ inputs })

/-- `observe_frame`: everything due by now, in the order of acceptance. -/
def observeFrame (frame : ℕ) (run : LiveInputRun) : List QueuedInput × LiveInputRun :=
  let isDue (input : QueuedInput) : Bool := input.frame?.any (· ≤ frame)
  ((run.pending.filter isDue).insertionSort (fun a b => a.order ≤ b.order),
    { run with
      lastReachedFrame := max run.lastReachedFrame frame
      pending := run.pending.filter (!isDue ·) })

end LiveInputRun

/-! ## A slot between and during its runs -/

structure ActiveRun where
  lastFrame : ℕ
  /-- The frame-scheduled entries of the queue that are not applied yet. -/
  waiting : List QueuedInput
  consumed : List QueuedInput
  live : Option LiveInputRun

namespace ActiveRun

def start (P : Platform H σ X) (streaming : Bool) (rt : Recording H σ) : ActiveRun where
  lastFrame := rt.frameCounter
  waiting := rt.queued.filter (·.frame?.isSome)
  consumed := []
  live := if streaming then some (.activate P rt) else none

/-- The held FRAME_MARK boundary: first what is queued for exactly this frame,
then what the side queue hands out. -/
def hold (frame : ℕ) (run : ActiveRun) : List QueuedInput × ActiveRun :=
  let due := run.waiting.filter fun input => decide (input.frame? = some frame)
  let side := run.live.map (·.observeFrame frame)
  (due ++ (side.map (·.1)).getD [],
    { lastFrame := frame
      waiting := run.waiting.filter fun input => !decide (input.frame? = some frame)
      consumed := run.consumed ++ due
      live := side.map (·.2) })

def leftovers (run : ActiveRun) : List QueuedInput := (run.live.map (·.pending)).getD []

end ActiveRun

/-- Fresh order numbers for what is queued again; the counter saturates. -/
def reorder : List QueuedInput → ℕ → List QueuedInput × ℕ
  | [], next => ([], next)
  | input :: rest, next =>
    let (inputs, last) := reorder rest (min (next + 1) (2 ^ 64 - 1))
    ({ input with order := next } :: inputs, last)

/-- The queue after a run: what the side queue leaves is queued again, then what was applied is
dropped. -/
def requeue (others : List QueuedInput) (rt : Recording H σ) (run : ActiveRun) :
    List QueuedInput × ℕ :=
  let (again, next) := reorder run.leftovers rt.nextInputOrder
  let queue := if run.leftovers = [] then rt.queued
    else (rt.queued ++ again).insertionSort QueuedInput.keyLe
  (queue.filter fun input => !((run.consumed ++ others).map (·.order)).contains input.order, next)

structure FrameSlot (H σ : Type) where
  parked : Recording H σ
  active : Option ActiveRun

abbrev FrameItem := ℕ × InputKind

def frameItems (inputs : List QueuedInput) : List FrameItem :=
  inputs.filterMap fun input => input.frame?.map (·, input.kind)

inductive FrameAct where
  | schedule (items : List FrameItem)
  | begin (streaming : Bool)
  | live (items : List FrameItem)
  | frame (frame : ℕ) (applied : List FrameItem)
  | finish
  deriving DecidableEq

/-- The moves of the slot. A run that ends moves the rest of the slot anywhere;
the pad's register is the last counter the guest wrote. -/
inductive FrameSteps (P : Platform H σ X) : FrameAct → FrameSlot H σ → FrameSlot H σ → Prop
  | schedule (events : List ScheduledEvent) (rt : Recording H σ) :
      FrameSteps P (.schedule (frameItems (acceptedInputs P events rt))) ⟨rt, none⟩
        ⟨inject P events rt, none⟩
  | begin (streaming : Bool) (rt : Recording H σ) :
      FrameSteps P (.begin streaming) ⟨rt, none⟩ ⟨rt, some (.start P streaming rt)⟩
  | live (events : List ScheduledEvent) (rt : Recording H σ) (run : ActiveRun)
      {side : LiveInputRun} (hlive : run.live = some side) :
      FrameSteps P (.live (frameItems (side.inject P events).1)) ⟨rt, some run⟩
        ⟨rt, some { run with live := some (side.inject P events).2 }⟩
  | frame (rt : Recording H σ) (run : ActiveRun) {frame : ℕ} (hframe : run.lastFrame < frame) :
      FrameSteps P (.frame frame (frameItems (run.hold frame).1)) ⟨rt, some run⟩
        ⟨rt, some (run.hold frame).2⟩
  | finish (rt : Recording H σ) (run : ActiveRun) (rail : Rail H σ) (chain : H)
      (segmentIcount : ℕ) {others : List QueuedInput}
      (hothers : ∀ input ∈ others, input ∈ rt.queued ∧ input.frame? = none) :
      FrameSteps P .finish ⟨rt, some run⟩
        ⟨{ rt with
            rail, chain, segmentIcount
            frameCounter := run.lastFrame
            queued := (requeue others rt run).1
            nextInputOrder := (requeue others rt run).2 }, none⟩

instance : Std.Total QueuedInput.keyLe where
  total a b := by
    unfold QueuedInput.keyLe
    omega

instance : IsTrans QueuedInput QueuedInput.keyLe where
  trans a b c := by
    unfold QueuedInput.keyLe
    omega

def atTarget (frame : ℕ) (queue : List QueuedInput) : List QueuedInput :=
  queue.filter fun input => decide (input.frame? = some frame)

variable {frame last next : ℕ} {input : QueuedInput} {inputs queue : List QueuedInput}
  {rt : Recording H σ} {run : ActiveRun} {side : LiveInputRun}

lemma keyLe_of_order_le {a b : QueuedInput} (ha : a.frame? = some frame)
    (hb : b.frame? = some frame) : a.keyLe b ↔ a.order ≤ b.order := by
  unfold QueuedInput.frame? at ha hb
  split at ha <;> split at hb <;> simp_all [QueuedInput.keyLe, QueuedInput.key]

lemma atTarget_insertionSort (h : (atTarget frame queue).Pairwise fun a b => a.order ≤ b.order) :
    atTarget frame (queue.insertionSort QueuedInput.keyLe) = atTarget frame queue := by
  have htarget : ∀ input ∈ atTarget frame queue, input.frame? = some frame := fun input hinput => by
    simpa using (mem_filter.mp hinput).2
  have hsorted : (atTarget frame queue).Pairwise QueuedInput.keyLe :=
    h.imp_of_mem fun ha hb hle => (keyLe_of_order_le (htarget _ ha) (htarget _ hb)).mpr hle
  have hsub := (sublist_insertionSort hsorted filter_sublist).filter
    fun input => decide (input.frame? = some frame)
  rw [atTarget, filter_filter] at hsub
  simp only [Bool.and_self] at hsub
  exact (hsub.eq_of_length ((perm_insertionSort _ _).filter _).length_eq.symm).symm

lemma pairwise_order_atTarget (h : queue.Pairwise QueuedInput.keyLe) (frame : ℕ) :
    (atTarget frame queue).Pairwise fun a b => a.order ≤ b.order := by
  refine (h.sublist filter_sublist).imp_of_mem fun ha hb hle => ?_
  have htarget (x : QueuedInput) (hx : x ∈ atTarget frame queue) : x.frame? = some frame := by
    simpa using (mem_filter.mp hx).2
  exact (keyLe_of_order_le (htarget _ ha) (htarget _ hb)).mp hle

/-- Inputs with consecutive claims to their place: their orders go up. -/
structure Increasing (inputs : List QueuedInput) (first last : ℕ) : Prop where
  pairwise : inputs.Pairwise fun a b => a.order < b.order
  bounds : ∀ input ∈ inputs, first ≤ input.order ∧ input.order < last
  le : first ≤ last

structure Tidy (queue : List QueuedInput) (next : ℕ) : Prop extends Numbered queue next where
  sorted : queue.Pairwise QueuedInput.keyLe

lemma Tidy.filter (h : Tidy queue next) (keep : QueuedInput → Bool) :
    Tidy (queue.filter keep) next := ⟨h.toNumbered.filter keep, h.sorted.sublist filter_sublist⟩

lemma Tidy.enqueue (h : Tidy queue next) (hnew : Increasing inputs next last) :
    Tidy ((queue ++ inputs).insertionSort QueuedInput.keyLe) last ∧
      ∀ frame, atTarget frame ((queue ++ inputs).insertionSort QueuedInput.keyLe) =
        atTarget frame queue ++ atTarget frame inputs := by
  have hperm := perm_insertionSort QueuedInput.keyLe (queue ++ inputs)
  refine ⟨⟨⟨?_, ?_⟩, pairwise_insertionSort _ _⟩, fun frame => ?_⟩
  · rw [(hperm.map _).nodup_iff, map_append, nodup_append]
    refine ⟨h.nodup, ?_, ?_⟩
    · exact pairwise_map.mpr (hnew.pairwise.imp fun hlt => hlt.ne)
    · intro a ha b hb
      obtain ⟨x, hx, rfl⟩ := mem_map.mp ha
      obtain ⟨y, hy, rfl⟩ := mem_map.mp hb
      exact ((h.lt_next x hx).trans_le (hnew.bounds y hy).1).ne
  · intro input hinput
    rcases mem_append.mp (hperm.mem_iff.mp hinput) with hold | hin
    · exact (h.lt_next input hold).trans_le hnew.le
    · exact (hnew.bounds input hin).2
  · rw [atTarget_insertionSort, atTarget, filter_append]
    · rfl
    · rw [atTarget, filter_append, pairwise_append]
      refine ⟨pairwise_order_atTarget h.sorted frame, ?_, ?_⟩
      · exact (hnew.pairwise.sublist filter_sublist).imp fun hlt => hlt.le
      · intro x hx y hy
        have hx' := h.lt_next x (mem_filter.mp hx).1
        exact (hx'.trans_le (hnew.bounds y (mem_filter.mp hy).1).1).le

lemma increasing_nil (next : ℕ) : Increasing [] next next := ⟨.nil, nofun, le_rfl⟩

lemma Increasing.cons {first : ℕ} (h : Increasing inputs (first + 1) last) :
    Increasing ({ input with order := first } :: inputs) first last := by
  refine ⟨pairwise_cons.mpr ⟨fun b hb => (h.bounds b hb).1, h.pairwise⟩, ?_, by
    have := h.le
    omega⟩
  intro x hx
  rcases mem_cons.mp hx with rfl | hx
  · exact ⟨le_rfl, h.le⟩
  · have := h.bounds x hx
    omega

lemma acceptWith_spec {check : ℕ → ScheduledEvent → Except Status QueuedInput} {index order : ℕ}
    {events : List ScheduledEvent} {accepted : Except Status (List QueuedInput)}
    (h : acceptWith check index events order = (accepted, last)) :
    order ≤ last ∧ ∀ inputs, accepted = .ok inputs → Increasing inputs order last ∧
      ∀ input ∈ inputs, ∃ i event input', check i event = .ok input' ∧
        input'.due = input.due ∧ input'.kind = input.kind := by
  induction events generalizing index order accepted with
  | nil =>
    obtain ⟨rfl, rfl⟩ := Prod.mk.inj h
    refine ⟨le_rfl, ?_⟩
    rintro inputs ⟨⟩
    exact ⟨increasing_nil order, nofun⟩
  | cons event rest ih =>
    rw [acceptWith] at h
    split at h
    · cases h
      exact ⟨le_rfl, by rintro inputs ⟨⟩⟩
    · rename_i input hinput
      split at h
      · cases h
        exact ⟨le_rfl, by rintro inputs ⟨⟩⟩
      · rename_i order' hadd
        obtain ⟨rfl, -⟩ := checkedAdd_eq_some_iff.mp hadd
        generalize hrest : acceptWith check (index + 1) rest (order + 1) = w at h
        obtain ⟨accepted', last'⟩ := w
        cases h
        obtain ⟨hle, hinputs⟩ := ih hrest
        refine ⟨by omega, fun inputs hmap => ?_⟩
        obtain ⟨inputs', rfl, rfl⟩ := map_eq_ok.mp hmap
        obtain ⟨hincreasing, hchecked⟩ := hinputs inputs' rfl
        refine ⟨hincreasing.cons, fun x hx => ?_⟩
        rcases mem_cons.mp hx with rfl | hx
        · exact ⟨index, event, input, hinput, rfl, rfl⟩
        · exact hchecked x hx

def parkedCheck (P : Platform H σ X) (rt : Recording H σ) (index : ℕ) (event : ScheduledEvent) :
    Except Status QueuedInput :=
  match queuedInputFromProto P index event rt.segmentIcount rt.frameCounter with
  | .error e => .error e
  | .ok input =>
    let blocked := match input.due with
      | .frame _ => frameScheduledIrqPrecondition P rt.rail.machine input.kind
      | .icount _ => none
    match blocked with
    | some reason => .error (.failedPrecondition
        s!"events[{index}].at_frame cannot queue an IRQ: {reason}")
    | none => .ok input

lemma acceptEvents_eq (rt : Recording H σ) (index : ℕ) (events : List ScheduledEvent) (order : ℕ) :
    acceptEvents P rt index events order = acceptWith (parkedCheck P rt) index events order := by
  induction events generalizing index order with
  | nil => rfl
  | cons event rest ih =>
    rw [acceptEvents, acceptWith, parkedCheck]
    cases queuedInputFromProto P index event rt.segmentIcount rt.frameCounter with
    | error e => rfl
    | ok input =>
      obtain ⟨due, kind, order0⟩ := input
      cases due with
      | icount n =>
        cases checkedAdd order 1 with
        | none => rfl
        | some order' => simp only [ih]
      | frame n =>
        dsimp only
        cases frameScheduledIrqPrecondition P rt.rail.machine kind with
        | some reason => rfl
        | none =>
          cases checkedAdd order 1 with
          | none => rfl
          | some order' => simp only [ih]

lemma increasing_reorder (hroom : next + inputs.length < 2 ^ 64) :
    (reorder inputs next).2 = next + inputs.length ∧
      Increasing (reorder inputs next).1 next (next + inputs.length) ∧
      frameItems (reorder inputs next).1 = frameItems inputs := by
  induction inputs generalizing next with
  | nil => exact ⟨rfl, increasing_nil next, rfl⟩
  | cons input rest ih =>
    rw [length_cons] at hroom ⊢
    have hnext : min (next + 1) (2 ^ 64 - 1) = next + 1 := by omega
    obtain ⟨hlast, hincreasing, hitems⟩ := ih (show next + 1 + rest.length < 2 ^ 64 by omega)
    have hsum : next + 1 + rest.length = next + (rest.length + 1) := by omega
    rw [hsum] at hlast hincreasing
    unfold reorder
    rw [hnext]
    refine ⟨hlast, hincreasing.cons, ?_⟩
    simp only [frameItems, filterMap_cons] at hitems ⊢
    rw [hitems]
    rfl

/-! ## What is held for a frame -/

lemma frameItems_append (a b : List QueuedInput) :
    frameItems (a ++ b) = frameItems a ++ frameItems b := filterMap_append

lemma frameItems_filter {keep : QueuedInput → Bool} (keepTarget : ℕ → Bool)
    (h : ∀ input ∈ inputs, ∀ n, input.frame? = some n → keep input = keepTarget n) :
    frameItems (inputs.filter keep) = (frameItems inputs).filter (keepTarget ·.1) := by
  induction inputs with
  | nil => rfl
  | cons input rest ih =>
    rw [forall_mem_cons] at h
    have hrest := ih h.2
    simp only [frameItems] at hrest ⊢
    cases hframe : input.frame? with
    | none => cases hkeep : keep input <;> simp [hframe, hkeep, hrest]
    | some n =>
      have hsame := h.1 n hframe
      cases hkeep : keep input <;> rw [hkeep] at hsame <;>
        simp [hframe, hkeep, ← hsame, hrest]

lemma frameItems_atTarget (frame : ℕ) (inputs : List QueuedInput) :
    frameItems (atTarget frame inputs) =
      (frameItems inputs).filter fun i => decide (i.1 = frame) := by
  refine frameItems_filter (fun n => decide (n = frame)) fun input _ n hn => ?_
  simp [hn]

def SameAt (xs ys : List FrameItem) : Prop :=
  ∀ frame, xs.filter (fun i => decide (i.1 = frame)) = ys.filter fun i => decide (i.1 = frame)

namespace SameAt

variable {xs ys xs' ys' : List FrameItem}

lemma refl (xs : List FrameItem) : SameAt xs xs := fun _ => rfl

lemma append (h : SameAt xs ys) (h' : SameAt xs' ys') : SameAt (xs ++ xs') (ys ++ ys') := by
  intro frame
  rw [filter_append, filter_append, h frame, h' frame]

lemma trans {zs : List FrameItem} (h : SameAt xs ys) (h' : SameAt ys zs) : SameAt xs zs :=
  fun frame => (h frame).trans (h' frame)

variable (h : SameAt xs ys)
include h

lemma symm : SameAt ys xs := fun frame => (h frame).symm

lemma mem_iff (i : FrameItem) : i ∈ xs ↔ i ∈ ys := by
  have hmem (zs : List FrameItem) : i ∈ zs ↔ i ∈ zs.filter fun j => decide (j.1 = i.1) := by
    simp [mem_filter]
  rw [hmem xs, hmem ys, h]

lemma filter (keep : ℕ → Bool) : SameAt (xs.filter (keep ·.1)) (ys.filter (keep ·.1)) := by
  intro frame
  rw [filter_comm, h frame, filter_comm]

lemma perm : xs.Perm ys := by
  refine perm_iff_count.mpr fun i => ?_
  have hcount (zs : List FrameItem) :
      zs.count i = (zs.filter fun j => decide (j.1 = i.1)).count i :=
    (count_filter (by simp)).symm
  rw [hcount xs, hcount ys, h]

lemma filter_le (hxs : ∀ i ∈ xs, frame ≤ i.1) :
    ys.filter (fun i => decide (i.1 ≤ frame)) = xs.filter fun i => decide (i.1 = frame) := by
  rw [h frame]
  refine filter_congr fun i hi => ?_
  have := hxs i ((h.mem_iff i).mpr hi)
  exact decide_eq_decide.mpr (by omega)

end SameAt

lemma sameAt_of_atTarget {a b : List QueuedInput}
    (h : ∀ frame, atTarget frame queue = atTarget frame a ++ atTarget frame b) :
    SameAt (frameItems queue) (frameItems a ++ frameItems b) := by
  intro frame
  rw [filter_append, ← frameItems_atTarget, ← frameItems_atTarget, ← frameItems_atTarget,
    h frame, frameItems_append]

/-! ## The moves one by one -/

lemma Tidy.mono (h : Tidy queue next) (hle : next ≤ last) : Tidy queue last :=
  ⟨⟨h.nodup, fun input hinput => (h.lt_next input hinput).trans_le hle⟩, h.sorted⟩

lemma Tidy.inject (h : Tidy rt.queued rt.nextInputOrder) (events : List ScheduledEvent) :
    Tidy (inject P events rt).queued (inject P events rt).nextInputOrder ∧
      ∀ frame, atTarget frame (inject P events rt).queued =
        atTarget frame rt.queued ++ atTarget frame (acceptedInputs P events rt) := by
  unfold DetHypervisor.inject queueInputsFromProto acceptedInputs
  split_ifs
  · exact ⟨h, fun frame => (append_nil _).symm⟩
  · generalize haccept : acceptEvents P rt 0 events rt.nextInputOrder = w
    obtain ⟨accepted, order⟩ := w
    rw [acceptEvents_eq] at haccept
    obtain ⟨hle, hinputs⟩ := acceptWith_spec haccept
    cases accepted with
    | error e => exact ⟨h.mono hle, fun frame => (append_nil _).symm⟩
    | ok inputs => exact h.enqueue (hinputs inputs rfl).1

structure Sided (run : ActiveRun) (side : LiveInputRun) : Prop where
  increasing : Increasing side.pending 0 side.nextOrder
  frames : ∀ input ∈ side.pending, input.frame?.isSome = true
  reached : run.lastFrame ≤ side.lastReachedFrame

lemma LiveInputRun.target_of_check {index : ℕ} {event : ScheduledEvent}
    (h : side.check P index event = .ok input) :
    ∃ n, input.frame? = some n ∧ side.lastReachedFrame < n := by
  unfold LiveInputRun.check at h
  split at h
  · cases h
  · rename_i frame hat
    obtain ⟨input', hinput, h⟩ := bind_eq_ok.mp h
    have hsame : input' = input := by
      dsimp only at h
      split at h
      · cases h
      · exact Except.ok.inj h
    subst hsame
    obtain ⟨⟨due, hint⟩, hdue, hinput⟩ := bind_eq_ok.mp hinput
    rw [hat] at hdue
    simp only [dueFromProto] at hdue
    split_ifs at hdue with hreserved hpad hpast
    cases hdue
    obtain ⟨kind, -, hinput⟩ := bind_eq_ok.mp hinput
    cases hinput
    exact ⟨frame, rfl, not_le.mp hpast⟩
  · cases h

lemma LiveInputRun.inject_spec (side : LiveInputRun) (events : List ScheduledEvent) :
    (side.inject P events).2.pending = side.pending ++ (side.inject P events).1 ∧
      (side.inject P events).2.lastReachedFrame = side.lastReachedFrame ∧
      Increasing (side.inject P events).1 side.nextOrder (side.inject P events).2.nextOrder ∧
      ∀ input ∈ (side.inject P events).1, ∃ n, input.frame? = some n ∧
        side.lastReachedFrame < n := by
  unfold LiveInputRun.inject
  split_ifs
  · exact ⟨(append_nil _).symm, rfl, increasing_nil _, nofun⟩
  · generalize haccept : acceptWith (side.check P) 0 events side.nextOrder = w
    obtain ⟨accepted, order⟩ := w
    obtain ⟨hle, hinputs⟩ := acceptWith_spec haccept
    cases accepted with
    | error e => exact ⟨(append_nil _).symm, rfl, ⟨.nil, nofun, hle⟩, nofun⟩
    | ok inputs =>
      obtain ⟨hincreasing, hchecked⟩ := hinputs inputs rfl
      refine ⟨rfl, rfl, hincreasing, fun input hinput => ?_⟩
      obtain ⟨i, event, input', hcheck, hdue, -⟩ := hchecked input hinput
      obtain ⟨n, hn, hlt⟩ := LiveInputRun.target_of_check hcheck
      refine ⟨n, ?_, hlt⟩
      rw [QueuedInput.frame?, ← hdue]
      exact hn

lemma Sided.inject (h : Sided run side) (events : List ScheduledEvent) :
    Sided { run with live := some (side.inject P events).2 } (side.inject P events).2 := by
  obtain ⟨hpending, hreached, hincreasing, htargets⟩ := side.inject_spec (P := P) events
  have hbounds := h.increasing.bounds
  refine ⟨⟨?_, ?_, Nat.zero_le _⟩, ?_, ?_⟩
  · rw [hpending, pairwise_append]
    refine ⟨h.increasing.pairwise, hincreasing.pairwise, fun x hx y hy => ?_⟩
    exact (hbounds x hx).2.trans_le (hincreasing.bounds y hy).1
  · intro input hinput
    rw [hpending] at hinput
    refine ⟨Nat.zero_le _, ?_⟩
    rcases mem_append.mp hinput with hold | hnew
    · exact (hbounds input hold).2.trans_le hincreasing.le
    · exact (hincreasing.bounds input hnew).2
  · intro input hinput
    rw [hpending] at hinput
    rcases mem_append.mp hinput with hold | hnew
    · exact h.frames input hold
    · obtain ⟨n, hn, -⟩ := htargets input hnew
      rw [hn]
      rfl
  · rw [hreached]
    exact h.reached

lemma LiveInputRun.observeFrame_items (h : Sided run side) (frame : ℕ) :
    frameItems (side.observeFrame frame).1 =
        (frameItems side.pending).filter (fun i => decide (i.1 ≤ frame)) ∧
      frameItems (side.observeFrame frame).2.pending =
        (frameItems side.pending).filter (fun i => decide (frame < i.1)) := by
  constructor
  · have hsorted : (side.pending.filter fun input => input.frame?.any (· ≤ frame)).Pairwise
        fun a b => a.order ≤ b.order :=
      (h.increasing.pairwise.sublist filter_sublist).imp fun hlt => hlt.le
    change frameItems (List.insertionSort _ _) = _
    rw [hsorted.insertionSort_eq]
    refine frameItems_filter (fun n => decide (n ≤ frame)) fun input _ n hn => ?_
    rw [hn]
    rfl
  · refine frameItems_filter (fun n => decide (frame < n)) fun input _ n hn => ?_
    dsimp only
    rw [hn, Bool.eq_iff_iff]
    simp

lemma Sided.observeFrame (h : Sided run side) (frame : ℕ) (run' : ActiveRun)
    (hrun : run'.lastFrame = frame) : Sided run' (side.observeFrame frame).2 := by
  refine ⟨⟨?_, fun input hinput => ?_, Nat.zero_le _⟩, fun input hinput => ?_, ?_⟩
  · exact h.increasing.pairwise.sublist filter_sublist
  · exact h.increasing.bounds input (mem_filter.mp hinput).1
  · exact h.frames input (mem_filter.mp hinput).1
  · rw [hrun]
    exact le_max_right _ _

lemma requeue_spec {others : List QueuedInput} (htidy : Tidy rt.queued rt.nextInputOrder)
    (hconsumed : ∀ input ∈ run.consumed, input ∈ rt.queued)
    (hwaiting : run.waiting = rt.queued.filter fun input =>
      input.frame?.isSome && !(run.consumed.map (·.order)).contains input.order)
    (hothers : ∀ input ∈ others, input ∈ rt.queued ∧ input.frame? = none)
    (hroom : rt.nextInputOrder + run.leftovers.length < 2 ^ 64) :
    Tidy (requeue others rt run).1 (requeue others rt run).2 ∧
      SameAt (frameItems (requeue others rt run).1)
        (frameItems run.waiting ++ frameItems run.leftovers) := by
  obtain ⟨hnext, hincreasing, hitems⟩ := increasing_reorder hroom
  -- with nothing left over the queue is in order as it is
  have hsort : (if run.leftovers = [] then rt.queued
      else (rt.queued ++ (reorder run.leftovers rt.nextInputOrder).1).insertionSort
        QueuedInput.keyLe) =
      (rt.queued ++ (reorder run.leftovers rt.nextInputOrder).1).insertionSort
        QueuedInput.keyLe := by
    split_ifs with hempty
    · rw [hempty, reorder, append_nil, htidy.sorted.insertionSort_eq]
    · rfl
  unfold requeue
  dsimp only
  rw [hsort, ← hitems]
  rw [← hnext] at hincreasing
  generalize reorder run.leftovers rt.nextInputOrder = w at hincreasing
  obtain ⟨again, next⟩ := w
  obtain ⟨htidy', htarget⟩ := htidy.enqueue hincreasing
  refine ⟨htidy'.filter _, sameAt_of_atTarget fun frame => ?_⟩
  have hdropped (input : QueuedInput) (h : input ∈ run.consumed ++ others) :
      input ∈ rt.queued := by
    rcases mem_append.mp h with hc | ho
    · exact hconsumed input hc
    · exact (hothers input ho).1
  rw [atTarget, filter_comm]
  change List.filter _ (atTarget frame _) = _
  rw [htarget, filter_append]
  congr 1
  · -- of the old entries for a frame those are dropped that the run applied at it
    rw [hwaiting, atTarget, atTarget, filter_filter, filter_filter]
    refine filter_congr fun input hinput => ?_
    by_cases hframe : input.frame? = some frame
    · have hother : input.order ∉ others.map (·.order) := by
        intro hmem
        obtain ⟨other, hin, horder⟩ := mem_map.mp hmem
        obtain ⟨hqueued, hnone⟩ := hothers other hin
        rw [inj_on_of_nodup_map htidy.nodup hqueued hinput horder, hframe] at hnone
        cases hnone
      simp [hframe, hother]
    · simp [hframe]
  · refine filter_eq_self.mpr fun input hinput => ?_
    have hlate := (hincreasing.bounds input (mem_filter.mp hinput).1).1
    rw [Bool.not_eq_true', ← Bool.not_eq_true, contains_iff_mem]
    intro hmem
    obtain ⟨old, hold, horder⟩ := mem_map.mp hmem
    have := htidy.lt_next old (hdropped old hold)
    omega

end DetHypervisor
