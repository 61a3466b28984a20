import DetHypervisor.Pausing
import DetHypervisor.FrameQueue
import Mathlib.Data.List.Sigma

/-!
# The exits of a run

What the VM entries of a run came back with, in order, read off the deeds of run
control, and the counters that run control keeps as functions of that list.
-/

namespace DetHypervisor

open List

variable {H σ X τ : Type} {P : Platform H σ X} {req : RunRequest H σ τ} {s s' : Seg H σ τ}

inductive GuestExit where
  | trap
  | serviced (events : List SdkEvent)
  | frame (value : ℕ) (events : List SdkEvent)
  | halted
  deriving DecidableEq

namespace GuestExit

def frame? : GuestExit → Option ℕ
  | frame value _ => some value
  | _ => none

def events : GuestExit → List SdkEvent
  | serviced events | frame _ events => events
  | trap | halted => []

end GuestExit

def Entered.exit? : Entered H σ → Option GuestExit
  | .stepped _ => some .trap
  | .serviced _ es => some (.serviced (es.filterMap Emit.sdk?))
  | .frame value _ es => some (.frame value (es.filterMap Emit.sdk?))
  | .halted _ => some .halted
  | .failed _ => none

/-- An exit with the counter it was taken at and the frame-scheduled inputs that were
applied at it. -/
structure SeenExit where
  exit : GuestExit
  counter : ℕ
  applied : List ℕ
  deriving DecidableEq

def appliedAt (exit : GuestExit) (s : Seg H σ τ) : List ℕ :=
  match exit.frame? with
  | some value => (s.pendingFrames.filter fun p => decide (p.1 = value)).map Prod.snd
  | none => []

inductive Sees (P : Platform H σ X) (req : RunRequest H σ τ) :
    Option SeenExit → Seg H σ τ → Seg H σ τ → Prop
  | exit {s s' : Seg H σ τ} {exit : GuestExit} (hexit : (enter P s.rail).exit? = some exit)
      (h : segOf? (onEntered P req s (enter P s.rail)) = some s') :
      Sees P req (some ⟨exit, s.rail.icount, appliedAt exit s⟩) s s'
  | host {s s' : Seg H σ τ} {d : Deed} (h : Does P req (timerSlotOf req) d s s')
      (hd : d.isHost = true) (ht : d.Timely req.ScheduledAt) : Sees P req none s s'

def Saw (P : Platform H σ X) (req : RunRequest H σ τ) (s : Seg H σ τ) (exits : List SeenExit)
    (s' : Seg H σ τ) : Prop :=
  ∃ sights, Traced (Sees P req) sights s s' ∧ sights.filterMap id = exits

namespace Saw

variable {s1 : Seg H σ τ} {exits : List SeenExit}

lemma refl (s : Seg H σ τ) : Saw P req s [] s := ⟨[], .nil s, rfl⟩

lemma snoc {x : SeenExit} (h : Saw P req s exits s1) (hx : Sees P req (some x) s1 s') :
    Saw P req s (exits ++ [x]) s' := by
  obtain ⟨sights, htraced, rfl⟩ := h
  refine ⟨sights ++ [some x], htraced.append (.single hx), ?_⟩
  rw [filterMap_append]
  rfl

lemma host {d : Deed} (h : Saw P req s exits s1) (hd : d.isHost = true)
    (ht : d.Timely req.ScheduledAt)
    (hdoes : Does P req (timerSlotOf req) d s1 s') : Saw P req s exits s' := by
  obtain ⟨sights, htraced, rfl⟩ := h
  refine ⟨sights ++ [none], htraced.append (.single (.host hdoes hd ht)), ?_⟩
  rw [filterMap_append]
  exact append_nil _

lemma induct {I : List SeenExit → Seg H σ τ → Prop} (h : Saw P req s exits s') (hs : I [] s)
    (hexit : ∀ {exits exit s1 s2}, I exits s1 → (enter P s1.rail).exit? = some exit →
      segOf? (onEntered P req s1 (enter P s1.rail)) = some s2 →
      I (exits ++ [⟨exit, s1.rail.icount, appliedAt exit s1⟩]) s2)
    (hhost : ∀ {exits d s1 s2}, I exits s1 → Does P req (timerSlotOf req) d s1 s2 →
      d.isHost = true → d.Timely req.ScheduledAt → I exits s2) : I exits s' := by
  obtain ⟨sights, htraced, rfl⟩ := h
  refine htraced.induct (I := fun sights s => I (sights.filterMap id) s) hs ?_
  intro sights l s1 s2 _ hI hstep
  rw [filterMap_append]
  cases hstep with
  | exit hx h => exact hexit hI hx h
  | host h hd ht =>
    change I (sights.filterMap id ++ []) s2
    rw [append_nil]
    exact hhost hI h hd ht

end Saw

variable {exit : GuestExit} {exits : List SeenExit} {index value : ℕ} {timerSlot : Option ℕ}

lemma holdFrame_eq (h : holdFrame P req value s = .ok s') :
    s.lastFrame < value ∧ s'.lastFrame = value ∧ s'.framesSeen = s.framesSeen + 1 ∧
      s'.sdkEvents = s.sdkEvents ∧
      s'.pendingFrames = s.pendingFrames.filter (fun p => decide (p.1 ≠ value)) ∧
      s'.consumed = s.consumed ++ dueAtFrame req value s := by
  unfold holdFrame at h
  split_ifs at h with hlast
  obtain ⟨s1, hdue, hlive⟩ := Except.bind_eq_ok.mp h
  obtain ⟨r1, -, rfl⟩ := applyAtFrame_eq_ok hdue
  obtain ⟨r2, -, rfl⟩ := applyAtFrame_eq_ok hlive
  exact ⟨Nat.not_le.mp hlast, rfl, rfl, rfl, rfl, rfl⟩

structure Counters where
  framesSeen : ℕ
  lastFrame : ℕ
  sdkEvents : ℕ
  pendingFrames : List (ℕ × ℕ)
  taken : List QueuedInput

def Seg.counters (s : Seg H σ τ) : Counters :=
  ⟨s.framesSeen, s.lastFrame, s.sdkEvents, s.pendingFrames, s.consumed.filter (·.frame?.isSome)⟩

variable (req)

def RunRequest.framesAmong (indices : List ℕ) : List QueuedInput :=
  (indices.filterMap (req.inputs[·]?)).filter (·.frame?.isSome)

lemma RunRequest.framesAmong_append (is js : List ℕ) :
    req.framesAmong (is ++ js) = req.framesAmong is ++ req.framesAmong js := by
  rw [framesAmong, filterMap_append, filter_append]
  rfl

def RunRequest.matching (events : List SdkEvent) : ℕ :=
  match req.sdkFilter with
  | some filter => events.countP filter
  | none => 0

@[simp] lemma RunRequest.matching_nil : req.matching [] = 0 := by
  unfold matching
  split <;> rfl

def Counters.after (c : Counters) (exit : GuestExit) : Counters :=
  match exit.frame? with
  | none => { c with sdkEvents := c.sdkEvents + req.matching exit.events }
  | some value =>
    { framesSeen := c.framesSeen + 1
      lastFrame := value
      sdkEvents := c.sdkEvents + req.matching exit.events
      pendingFrames := c.pendingFrames.filter fun p => decide (p.1 ≠ value)
      taken := c.taken ++ req.framesAmong
        ((c.pendingFrames.filter fun p => decide (p.1 = value)).map Prod.snd) }

variable {req}

lemma Counters.after_of_quiet {c : Counters} (hframe : exit.frame? = none)
    (hevents : exit.events = []) : c.after req exit = c := by
  rw [after, hframe, hevents, req.matching_nil]
  rfl

lemma dueAtFrame_eq (value : ℕ) : dueAtFrame req value s =
    ((s.pendingFrames.filter fun p => decide (p.1 = value)).map Prod.snd).filterMap
      (req.inputs[·]?) := by
  rw [dueAtFrame, filterMap_map]
  rfl

lemma counters_onEntered {e : Entered H σ} (hexit : e.exit? = some exit)
    (h : segOf? (onEntered P req s e) = some s') : s'.counters = s.counters.after req exit ∧
      ∀ value, exit.frame? = some value → s.lastFrame < value := by
  cases e with
  | stepped | halted =>
    cases hexit
    cases h
    exact ⟨(Counters.after_of_quiet rfl rfl).symm, nofun⟩
  | failed e => cases hexit
  | serviced r es =>
    cases hexit
    cases segOf_checkSdkFeed.symm.trans h
    exact ⟨rfl, nofun⟩
  | frame value r es =>
    cases hexit
    obtain ⟨hlast, hlast', hseen, hfeed, hpending, hconsumed⟩ :=
      holdFrame_eq (segOf_onEntered_frame h)
    refine ⟨?_, fun v hv => Option.some.inj hv ▸ hlast⟩
    rw [Seg.counters, hlast', hseen, hfeed, hpending, hconsumed, filter_append, dueAtFrame_eq]
    rfl

lemma noteDelivery_counters {injection : Option ℕ} {vector : ℕ}
    (h : noteDelivery req timerSlot injection vector s = .ok s') : s'.counters = s.counters := by
  unfold noteDelivery at h
  dsimp only at h
  split_ifs at h
  · split at h
    · cases h
      rfl
    · cases h
  · cases h
    rfl

lemma Does.counters_eq {d : Deed} (h : Does P req timerSlot d s s') (hd : d.isHost = true)
    (ht : d.Timely req.ScheduledAt) : s'.counters = s.counters := by
  cases h with
  | entry | leave => cases hd
  | @input s index icount rip input r vector hindex h =>
    obtain ⟨input', hinput, hdue⟩ := ht
    cases hindex.symm.trans hinput
    have hnone : input.frame?.isSome = false := by simp [QueuedInput.frame?, hdue]
    simp [Seg.counters, filter_append, hnone]
  | vector hopen h hnote => rw [noteDelivery_counters hnote, queueVector_eq_ok h]; rfl
  | link icount vns => rfl
  | sink h =>
    obtain ⟨w, -, h⟩ := Except.bind_eq_ok.mp h
    cases h
    rfl

def framesOf (exits : List SeenExit) : List ℕ := exits.filterMap (·.exit.frame?)

def feedOf (req : RunRequest H σ τ) (exits : List SeenExit) : ℕ :=
  (exits.map fun x => req.matching x.exit.events).sum

lemma framesOf_snoc (exits : List SeenExit) (x : SeenExit) :
    framesOf (exits ++ [x]) = framesOf exits ++ x.exit.frame?.toList := by
  rw [framesOf, filterMap_append]
  cases hx : x.exit.frame? <;> simp [framesOf, hx]

lemma feedOf_snoc (exits : List SeenExit) (x : SeenExit) :
    feedOf req (exits ++ [x]) = feedOf req exits + req.matching x.exit.events := by
  simp [feedOf]

def RunRequest.scheduledFor (req : RunRequest H σ τ) (exit : GuestExit) : List ℕ :=
  match exit.frame? with
  | some value => (req.frameInputs.filter fun p => decide (p.1 = value)).map Prod.snd
  | none => []

structure Counted (req : RunRequest H σ τ) (exits : List SeenExit) (s : Seg H σ τ) : Prop where
  frames_eq : s.framesSeen = (framesOf exits).length
  increasing : (req.startFrame :: framesOf exits).Pairwise (· < ·)
  le_last : ∀ value ∈ req.startFrame :: framesOf exits, value ≤ s.lastFrame
  pending_eq : s.pendingFrames = req.frameInputs.filter fun p => decide (p.1 ∉ framesOf exits)
  feed_eq : s.sdkEvents = feedOf req exits
  applied_eq : ∀ x ∈ exits, x.applied = req.scheduledFor x.exit
  taken_eq : s.counters.taken = req.framesAmong (exits.flatMap SeenExit.applied)

namespace Counted

lemma start (req : RunRequest H σ τ) (rail : Rail H σ) (chain : H) (caller : τ) :
    Counted req [] (startSeg req rail chain caller) where
  frames_eq := rfl
  increasing := pairwise_singleton _ _
  le_last := by
    intro value hvalue
    exact (mem_singleton.mp hvalue).le
  pending_eq := by
    rw [filter_eq_self.mpr]
    · rfl
    · simp [framesOf]
  feed_eq := rfl
  applied_eq := nofun
  taken_eq := rfl

lemma of_counters (h : Counted req exits s) (heq : s'.counters = s.counters) :
    Counted req exits s' := by
  have hlast : s'.lastFrame = s.lastFrame := congrArg Counters.lastFrame heq
  refine ⟨(congrArg Counters.framesSeen heq).trans h.frames_eq, h.increasing, ?_,
    (congrArg Counters.pendingFrames heq).trans h.pending_eq,
    (congrArg Counters.sdkEvents heq).trans h.feed_eq, h.applied_eq,
    (congrArg Counters.taken heq).trans h.taken_eq⟩
  rw [hlast]
  exact h.le_last

lemma appliedAt_eq (h : Counted req exits s)
    (hlast : ∀ value, exit.frame? = some value → s.lastFrame < value) :
    appliedAt exit s = req.scheduledFor exit := by
  rw [appliedAt, RunRequest.scheduledFor]
  cases hexit : exit.frame? with
  | none => rfl
  | some value =>
    dsimp only
    rw [h.pending_eq, filter_filter]
    refine congrArg (List.map Prod.snd) (filter_congr fun p _ => ?_)
    by_cases hp : p.1 = value
    · have hnew : value ∉ framesOf exits := fun hmem =>
        (hlast value hexit).not_ge (h.le_last value (mem_cons_of_mem _ hmem))
      simp [hp, hnew]
    · simp [hp]

lemma snoc (h : Counted req exits s) {x : SeenExit} (hx : x.applied = appliedAt x.exit s)
    (hs' : s'.counters = s.counters.after req x.exit)
    (hlast : ∀ value, x.exit.frame? = some value → s.lastFrame < value) :
    Counted req (exits ++ [x]) s' := by
  have happlied : ∀ y ∈ exits ++ [x], y.applied = req.scheduledFor y.exit := by
    intro y hy
    obtain hy | hy := mem_append.mp hy
    · exact h.applied_eq y hy
    · rw [mem_singleton.mp hy, hx]
      exact h.appliedAt_eq hlast
  have hfeed : s'.sdkEvents = feedOf req (exits ++ [x]) := by
    rw [feedOf_snoc, ← h.feed_eq]
    change s'.counters.sdkEvents = _
    rw [hs', Counters.after]
    split <;> rfl
  have htaken : s'.counters.taken =
      req.framesAmong ((exits ++ [x]).flatMap SeenExit.applied) := by
    rw [flatMap_append, req.framesAmong_append, ← h.taken_eq, flatMap_singleton, hs', hx,
      Counters.after, appliedAt]
    cases x.exit.frame? with
    | none => exact (append_nil _).symm
    | some value => rfl
  have hframes := framesOf_snoc exits x
  cases hexit : x.exit.frame? with
  | none =>
    rw [Counters.after, hexit] at hs'
    rw [hexit, Option.toList_none, append_nil] at hframes
    have hlast' : s'.lastFrame = s.lastFrame := congrArg Counters.lastFrame hs'
    refine ⟨?_, ?_, ?_, ?_, hfeed, happlied, htaken⟩
    · rw [hframes, ← h.frames_eq]
      exact congrArg Counters.framesSeen hs'
    · rw [hframes]
      exact h.increasing
    · rw [hframes, hlast']
      exact h.le_last
    · rw [hframes, ← h.pending_eq]
      exact congrArg Counters.pendingFrames hs'
  | some value =>
    rw [Counters.after, hexit] at hs'
    rw [hexit, Option.toList_some] at hframes
    have hlast' : s'.lastFrame = value := congrArg Counters.lastFrame hs'
    have hpast (v : ℕ) (hv : v ∈ req.startFrame :: framesOf exits) : v < value :=
      (h.le_last v hv).trans_lt (hlast value hexit)
    refine ⟨?_, ?_, ?_, ?_, hfeed, happlied, htaken⟩
    · rw [hframes, length_append, ← h.frames_eq]
      exact congrArg Counters.framesSeen hs'
    · rw [hframes, ← cons_append, pairwise_append]
      refine ⟨h.increasing, pairwise_singleton _ _, fun v hv w hw => ?_⟩
      rw [mem_singleton.mp hw]
      exact hpast v hv
    · rw [hframes, hlast', ← cons_append]
      intro v hv
      obtain hv | hv := mem_append.mp hv
      · exact (hpast v hv).le
      · exact (mem_singleton.mp hv).le
    · have hpending : s'.pendingFrames =
          s.pendingFrames.filter fun p => decide (p.1 ≠ value) :=
        congrArg Counters.pendingFrames hs'
      rw [hframes, hpending, h.pending_eq, filter_filter]
      refine filter_congr fun p _ => ?_
      simp [and_comm]

lemma of_saw {rail : Rail H σ} {chain : H} {caller : τ}
    (h : Saw P req (startSeg req rail chain caller) exits s') : Counted req exits s' := by
  refine h.induct (I := Counted req) (start req rail chain caller) ?_ ?_
  · intro exits exit s1 s2 hI hexit hs2
    obtain ⟨hcounters, hlast⟩ := counters_onEntered hexit hs2
    exact hI.snoc rfl hcounters hlast
  · intro exits d s1 s2 hI hdoes hd ht
    exact hI.of_counters (hdoes.counters_eq hd ht)

end Counted

lemma mem_frameInputs : (value, index) ∈ req.frameInputs ↔
      ∃ input, req.inputs[index]? = some input ∧ input.due = .frame value := by
  rw [RunRequest.frameInputs, mem_filterMap]
  constructor
  · rintro ⟨⟨input, i⟩, hmem, hdue⟩
    rw [mem_zipIdx_iff_getElem?] at hmem
    dsimp only at hdue hmem
    cases hinput : input.due with
    | icount n => simp [hinput] at hdue
    | frame n =>
      simp only [hinput] at hdue
      cases hdue
      exact ⟨input, hmem, hinput⟩
  · rintro ⟨input, hinput, hdue⟩
    refine ⟨(input, index), mem_zipIdx_iff_getElem?.mpr hinput, ?_⟩
    simp [hdue]

lemma nodup_frameInputs : (req.frameInputs.map Prod.snd).Nodup := by
  have hindices : req.inputs.zipIdx.Pairwise fun p q => p.2 ≠ q.2 :=
    pairwise_map.mp (nodup_zipIdx_map_snd req.inputs)
  rw [RunRequest.frameInputs, List.Nodup, pairwise_map, pairwise_filterMap]
  refine hindices.imp ?_
  rintro ⟨a, i⟩ ⟨b, j⟩ hne p hp q hq
  cases ha : a.due <;> cases hb : b.due <;> simp [ha, hb] at hp hq
  subst hp hq
  exact hne

variable (h : Counted req exits s)
include h

lemma Counted.mem_applied_iff {x : SeenExit} (hx : x ∈ exits) :
    index ∈ x.applied ↔ ∃ value input, x.exit.frame? = some value ∧
      req.inputs[index]? = some input ∧ input.due = .frame value := by
  rw [h.applied_eq x hx, RunRequest.scheduledFor]
  cases x.exit.frame? with
  | none => simp
  | some value => simp [mem_frameInputs]

lemma Counted.nodup_applied : (exits.flatMap SeenExit.applied).Nodup := by
  rw [nodup_flatMap]
  constructor
  · intro x hx
    rw [h.applied_eq x hx, RunRequest.scheduledFor]
    split
    · exact nodup_frameInputs.sublist ((filter_sublist).map Prod.snd)
    · exact nodup_nil
  · have hframes : exits.Pairwise fun x y => ∀ v, x.exit.frame? = some v →
        ∀ w, y.exit.frame? = some w → v < w :=
      pairwise_filterMap.mp (pairwise_cons.mp h.increasing).2
    refine hframes.imp_of_mem ?_
    intro x y hx hy hlt index hxi hyi
    obtain ⟨v, input, hv, hinput, hdue⟩ := (h.mem_applied_iff hx).mp hxi
    obtain ⟨w, input', hw, hinput', hdue'⟩ := (h.mem_applied_iff hy).mp hyi
    cases hinput.symm.trans hinput'
    obtain rfl := InputAt.frame.inj (hdue.symm.trans hdue')
    exact (hlt v hv v hw).ne rfl

lemma Counted.taken : s.consumed.filter (·.frame?.isSome) =
      (exits.flatMap SeenExit.applied).filterMap (req.inputs[·]?) := by
  refine h.taken_eq.trans (filter_eq_self.mpr ?_)
  intro input hinput
  obtain ⟨index, hindex, hget⟩ := mem_filterMap.mp hinput
  obtain ⟨x, hx, hindex⟩ := mem_flatMap.mp hindex
  obtain ⟨value, input', -, hget', hdue⟩ := (h.mem_applied_iff hx).mp hindex
  cases hget.symm.trans hget'
  simp [QueuedInput.frame?, hdue]

end DetHypervisor
