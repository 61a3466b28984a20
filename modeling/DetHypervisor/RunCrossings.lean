import DetHypervisor.Leases
import DetHypervisor.LineageTime
import DetHypervisor.SlotGuards

/-!
# A `Run` and the slot table

`drive_recorded_run` marks the slot Running before it looks at anything of the
run, and crosses back when run control has returned. On the way it moves the
bus, the lAPIC, the entropy and the log into a rail and puts them back.
-/

namespace DetHypervisor

/-- `RuntimeThreadState`. -/
inductive ThreadState where
  | parked
  | running (tid : ℕ)
  | pauseRequested (tid : ℕ)
  | faulted (message : String)
  deriving DecidableEq

structure Moved (B A E L : Type) where
  bus : B
  lapic : A
  entropy : E
  log : L
  deriving DecidableEq

/-- The runtime of a slot as far as `drive_recorded_run` moves and marks it.
`counter` says that the actor has its InstRetired counter. -/
structure ActorRuntime (B A E L : Type) where
  thread : ThreadState
  pause : Bool
  counter : Bool
  bus : B
  lapic : A
  entropy : E
  log : Option L
  deriving DecidableEq

inductive DriveError where
  | status (message : String)
  | slot (e : Failure)
  | run (message : String)
  deriving DecidableEq

variable {n : ℕ} {T H B A E L : Type} [DecidableEq T]

namespace ActorRuntime

def clearPauseRequest (rt : ActorRuntime B A E L) : ActorRuntime B A E L :=
  { rt with
    pause := false
    thread := match rt.thread with
      | .pauseRequested tid => .running tid
      | thread => thread }

def putBack (rail : Moved B A E L) (rt : ActorRuntime B A E L) : ActorRuntime B A E L :=
  { rt with bus := rail.bus, lapic := rail.lapic, entropy := rail.entropy, log := some rail.log }

end ActorRuntime

/-- A `Run` as `drive_recorded_run` is called for it. `rejected` is the answer of
the checks before the slot is marked, `opened` that of run control before it
enters the guest, and `started` and `ended` are the times of the two crossings. -/
structure DriveCall (T H B A E L : Type) where
  lease : Lease T
  tid : ℕ
  started : ℕ
  ended : ℕ
  base : Option H
  rejected : Option String
  opened : Except String Unit
  execute : Moved B A E L → Except String ℕ × Moved B A E L
  drain : Moved B A E L → Except String Unit × Moved B A E L
  capture : Except String Unit

namespace DriveCall

open SlotManager Except

variable (c : DriveCall T H B A E L)

def run (rail : Moved B A E L) : Except String ℕ × Moved B A E L :=
  match c.opened with
  | .error e => (.error e, rail)
  | .ok () => c.execute rail

/-- Behind the crossing to Paused: the rings are drained, then the capture is taken. -/
def afterPause (rail : Moved B A E L) (t : Table n T H) (rt : ActorRuntime B A E L) :
    Except DriveError Unit × Table n T H × ActorRuntime B A E L :=
  let drained := c.drain rail
  let rt := rt.putBack drained.2
  match drained.1 with
  | .error e =>
    (.error (.status e), (markFaulted c.lease.slotId t).table, { rt with thread := .faulted e })
  | .ok () => (c.capture.mapError .status, t, rt)

def afterRun (ran : Except String ℕ × Moved B A E L) (t : Table n T H)
    (rt : ActorRuntime B A E L) : Except DriveError Unit × Table n T H × ActorRuntime B A E L :=
  let rt := rt.putBack ran.2
  match ran.1 with
  | .error e =>
    (.error (.run e), (markFaulted c.lease.slotId t).table, { rt with thread := .faulted e })
  | .ok icount =>
    let rt := { rt with thread := .parked }.clearPauseRequest
    let paused := markPausedAtPosition c.lease icount c.base c.ended t
    match paused.result with
    | .error e => (.error (.slot e), paused.table, rt)
    | .ok _ => c.afterPause ran.2 paused.table rt

/-- `drive_recorded_run`, with the table and the runtime it leaves. -/
def drive (t : Table n T H) (rt : ActorRuntime B A E L) :
    Except DriveError Unit × Table n T H × ActorRuntime B A E L :=
  match c.rejected with
  | some message => (.error (.status message), t, rt)
  | none =>
    let marked := markRunning c.lease c.started t
    match marked.result with
    | .error e => (.error (.slot e), marked.table, rt)
    | .ok _ =>
      let rt := { rt with thread := .running c.tid }.clearPauseRequest
      if rt.counter then
        match rt.log with
        | none => (.error (.status "slot has no active DHILOG segment"), marked.table, rt)
        | some log => c.afterRun (c.run ⟨rt.bus, rt.lapic, rt.entropy, log⟩) marked.table rt
      else (.error (.status "slot actor has no InstRetired counter"), marked.table, rt)

/-! ## Crossings -/

variable {c} {t : Table n T H} {rt : ActorRuntime B A E L} {p : Fin n}

def ran (c : DriveCall T H B A E L) (rt : ActorRuntime B A E L) (log : L) :
    Except String ℕ × Moved B A E L := c.run ⟨rt.bus, rt.lapic, rt.entropy, log⟩

structure Settled (c : DriveCall T H B A E L) (p : Fin n) (rt : ActorRuntime B A E L)
    (t' : Table n T H) (rt' : ActorRuntime B A E L) : Prop where
  state : (t'.rows p).state = .paused ∧ rt'.thread = .parked ∨
    (t'.rows p).state = .faulted ∧ ∃ e, rt'.thread = .faulted e
  parts : ∀ log, rt.log = some log → rt'.putBack (c.ran rt log).2 = rt' ∨
    rt'.putBack (c.drain (c.ran rt log).2).2 = rt'

omit [DecidableEq T] in
lemma onEntry_result {publishes : Bool} (i : Fin n)
    (act : SlotEntry T H → SlotEntry T H × Except SlotError Unit) (t : Table n T H) :
    (onEntry publishes i act t).result =
      ((act (t.rows i)).2.map fun _ => Reply.done).mapError .error := by
  unfold onEntry
  rw [dif_pos i.isLt]
  dsimp only [Fin.eta]
  cases (act (t.rows i)).2 <;> rfl

omit [DecidableEq T] in
lemma markFaulted_state (h : (t.rows p).state = .running ∨ (t.rows p).state = .paused) :
    ((markFaulted p t).table.rows p).state = .faulted := by
  unfold markFaulted
  rw [onEntry_row]
  rcases h with h | h <;>
    simp [commit, h, SlotState.transition, SlotState.canTransition, Except.mapError]

lemma markRunning_row {lease : Lease T} {now : ℕ} (hp : lease.slotId = p)
    (h : (markRunning lease now t).result = .ok .done) :
    (markRunning lease now t).table.rows p = { t.rows p with state := .running } ∧
      ∃ expires, (t.rows p).lease = some (lease.token, expires) := by
  unfold markRunning at h ⊢
  rw [hp] at h ⊢
  rw [onEntry_row]
  obtain ⟨p', hp', hok⟩ := onEntry_eq_ok h
  obtain rfl := Fin.ext hp'
  obtain ⟨e, he⟩ := commit_eq_ok hok
  rw [commit, he]
  obtain ⟨_, hvalid, he⟩ := bind_eq_ok.mp he
  obtain ⟨-, -, he⟩ := bind_eq_ok.mp he
  obtain ⟨state, hstate, he⟩ := bind_eq_ok.mp he
  obtain ⟨-, rfl⟩ := SlotState.transition_eq_ok_iff.mp (mapError_eq_ok.mp hstate)
  obtain ⟨expires, hlease, -⟩ := validateEntry_eq_ok_iff.mp hvalid
  exact ⟨(Except.ok.inj he).symm, expires, hlease⟩

/-- The crossing back is open to a lease that has not expired. -/
lemma markPausedAtPosition_row {lease : Lease T} {expires : Option ℕ} (icount : ℕ)
    (base : Option H) (now : ℕ) (hp : lease.slotId = p) (hstate : (t.rows p).state = .running)
    (hlease : (t.rows p).lease = some (lease.token, expires)) :
    let turn := markPausedAtPosition lease icount base now t
    if (t.rows p).expired now then
      (∃ e, turn.result = .error e) ∧ (turn.table.rows p).state = .running
    else turn.result = .ok .done ∧ (turn.table.rows p).state = .paused := by
  unfold markPausedAtPosition
  rw [hp]
  dsimp only
  rw [onEntry_row, onEntry_result]
  unfold SlotEntry.validateEntry SlotEntry.expired
  rw [hlease]
  cases expires with
  | none =>
    simp [commit, hstate, SlotState.transition, SlotState.canTransition, Except.mapError,
      Except.map]
  | some deadline =>
    by_cases hle : deadline ≤ now
    · simp [hle, hstate, Except.mapError, Except.map]
    · simp [hle, commit, hstate, SlotState.transition, SlotState.canTransition, Except.mapError,
        Except.map]

/-! ## Whole runs -/

lemma drive_eq (hrejected : c.rejected = none)
    (hmarked : (markRunning c.lease c.started t).result = .ok .done) : c.drive t rt =
      let marked := (markRunning c.lease c.started t).table
      let rt' := { rt with thread := .running c.tid }.clearPauseRequest
      if rt.counter then
        match rt.log with
        | none => (.error (.status "slot has no active DHILOG segment"), marked, rt')
        | some log => c.afterRun (c.ran rt log) marked rt'
      else (.error (.status "slot actor has no InstRetired counter"), marked, rt') := by
  unfold drive
  rw [hrejected]
  dsimp only
  rw [hmarked]
  rfl

/-- What a run leaves that was handed its parts. -/
lemma afterRun_cases {expires : Option ℕ} (hp : c.lease.slotId = p)
    (hstate : (t.rows p).state = .running)
    (hlease : (t.rows p).lease = some (c.lease.token, expires))
    (ran : Except String ℕ × Moved B A E L) (rt' : ActorRuntime B A E L) :
    let out := (c.afterRun ran t rt').2
    (∃ e, ran.1 = .error e ∧ (out.1.rows p).state = .faulted ∧ out.2.thread = .faulted e ∧
        out.2.putBack ran.2 = out.2) ∨
      ∃ icount, ran.1 = .ok icount ∧
        ((t.rows p).expired c.ended = true ∧ (out.1.rows p).state = .running ∨
          (t.rows p).expired c.ended = false ∧ out.2.putBack (c.drain ran.2).2 = out.2 ∧
            ((∃ e, (c.drain ran.2).1 = .error e ∧ (out.1.rows p).state = .faulted ∧
                out.2.thread = .faulted e) ∨
              (out.1.rows p).state = .paused ∧ out.2.thread = .parked)) := by
  obtain ⟨result, rail⟩ := ran
  unfold afterRun
  cases result with
  | error e =>
    refine .inl ⟨e, rfl, ?_, rfl, rfl⟩
    dsimp only
    rw [hp]
    exact markFaulted_state (.inl hstate)
  | ok icount =>
    have hpaused := markPausedAtPosition_row icount c.base c.ended hp hstate hlease
    dsimp only at hpaused ⊢
    by_cases hexpired : (t.rows p).expired c.ended = true
    · rw [if_pos hexpired] at hpaused
      obtain ⟨⟨e, he⟩, hrunning⟩ := hpaused
      rw [he]
      exact .inr ⟨icount, rfl, .inl ⟨hexpired, hrunning⟩⟩
    · rw [if_neg hexpired] at hpaused
      obtain ⟨hdone, hrest⟩ := hpaused
      rw [hdone]
      refine .inr ⟨icount, rfl, .inr ⟨(Bool.not_eq_true _).mp hexpired, ?_⟩⟩
      unfold afterPause
      dsimp only
      cases (c.drain rail).1 with
      | error e =>
        refine ⟨rfl, .inl ⟨e, rfl, ?_, rfl⟩⟩
        dsimp only
        rw [hp]
        exact markFaulted_state (.inr hrest)
      | ok _ => exact ⟨rfl, .inr ⟨hrest, rfl⟩⟩

/-- A run that was marked leaves the slot Paused or Faulted, with its parts, exactly
if the actor has its counter and its log and, should run control succeed, the lease
has not expired when the run ends. -/
theorem finished_run_settled_iff (hrejected : c.rejected = none) (hp : c.lease.slotId = p)
    (hmarked : (markRunning c.lease c.started t).result = .ok .done) (rt : ActorRuntime B A E L) :
    c.Settled p rt (c.drive t rt).2.1 (c.drive t rt).2.2 ↔
      rt.counter = true ∧ ∃ log, rt.log = some log ∧
        ∀ icount, (c.ran rt log).1 = .ok icount → (t.rows p).expired c.ended = false := by
  obtain ⟨hrow, expires, hlease⟩ := markRunning_row hp hmarked
  have hrunning : ((markRunning c.lease c.started t).table.rows p).state = .running := by rw [hrow]
  have hlost {rt' : ActorRuntime B A E L} :
      ¬c.Settled p rt (markRunning c.lease c.started t).table rt' := by
    intro h
    rcases h.state with ⟨h, -⟩ | ⟨h, -⟩
    all_goals
      rw [hrunning] at h
      cases h
  rw [drive_eq hrejected hmarked]
  dsimp only
  by_cases hcounter : rt.counter = true
  · rw [if_pos hcounter, and_iff_right hcounter]
    cases hlog : rt.log with
    | none => exact iff_of_false hlost (by simp)
    | some log =>
      have hexpired : ((markRunning c.lease c.started t).table.rows p).expired c.ended =
          (t.rows p).expired c.ended := by rw [hrow]; rfl
      have hout := afterRun_cases hp hrunning (by rw [hrow]; exact hlease) (c.ran rt log)
        { rt with thread := .running c.tid, log := some log }.clearPauseRequest
      rw [hexpired] at hout
      dsimp only at hout ⊢
      rcases hout with ⟨e, he, hstate, hthread, hparts⟩ | ⟨icount, hok, ⟨hlate, hstate⟩ |
        ⟨hearly, hparts, hrest⟩⟩
      · refine iff_of_true ⟨.inr ⟨hstate, e, hthread⟩, ?_⟩ ⟨log, rfl, by simp [he]⟩
        rintro log' hlog'
        cases hlog.symm.trans hlog'
        exact .inl hparts
      · refine iff_of_false (fun h => ?_) (fun ⟨log', hlog', h⟩ => ?_)
        · rcases h.state with ⟨h, -⟩ | ⟨h, -⟩ <;> cases hstate.symm.trans h
        · cases hlog'
          cases hlate.symm.trans (h icount hok)
      · refine iff_of_true ⟨?_, ?_⟩ ⟨log, rfl, fun _ _ => hearly⟩
        · rcases hrest with ⟨e, -, hstate, hthread⟩ | hrest
          · exact .inr ⟨hstate, e, hthread⟩
          · exact .inl hrest
        · rintro log' hlog'
          cases hlog.symm.trans hlog'
          exact .inr hparts
  · rw [if_neg hcounter]
    exact iff_of_false hlost fun h => hcounter h.1

/-- A run under a lease without a deadline. -/
theorem finished_run_settled_counting : ∃ (t : Table 3 ℕ ℕ) (c : DriveCall ℕ ℕ Unit Unit Unit ℕ)
    (rt : ActorRuntime Unit Unit Unit ℕ), (c.ran rt 0).1 = .ok 7 ∧
      c.Settled 0 rt (c.drive t rt).2.1 (c.drive t rt).2.2 := by
  let c : DriveCall ℕ ℕ Unit Unit Unit ℕ := ⟨⟨0, 0⟩, 1, 5, 20, none, none, .ok (),
    fun rail => (.ok 7, { rail with log := 7 }), fun rail => (.ok (), rail), .ok ()⟩
  let t : Table 3 ℕ ℕ := (threeSlots none).performAll [.allocate 0] (initial 3 ℕ ℕ)
  refine ⟨t, c, ⟨.parked, false, true, (), (), (), some 0⟩, rfl, ?_⟩
  exact (finished_run_settled_iff rfl rfl (by decide) _).mpr ⟨rfl, 0, rfl, fun _ _ => by decide⟩

/-- The lease of ten milliseconds runs out while the guest runs, and the slot stays
Running, with its thread parked. -/
theorem expired_run_stays_running :
    let t : Table 3 ℕ ℕ := ((threeSlots (some 10)).performAll [.allocate 0] (initial 3 ℕ ℕ))
    let c : DriveCall ℕ ℕ Unit Unit Unit ℕ := ⟨⟨0, 0⟩, 1, 5, 20, none, none, .ok (),
      fun rail => (.ok 7, rail), fun rail => (.ok (), rail), .ok ()⟩
    let done := c.drive t ⟨.parked, false, true, (), (), (), some 0⟩
    (done.2.1.rows 0).state = .running ∧ done.2.2.thread = .parked := by
  decide

/-! ## Rejected runs -/

/-- The request fails before the guest executes an instruction. -/
def FailsEarly (c : DriveCall T H B A E L) (t : Table n T H) (rt : ActorRuntime B A E L) : Prop :=
  c.rejected ≠ none ∨ (markRunning c.lease c.started t).result ≠ .ok .done ∨
    rt.counter = false ∨ rt.log = none ∨ ∃ e, c.opened = .error e

lemma markRunning_result (lease : Lease T) (now : ℕ) (t : Table n T H) :
    (markRunning lease now t).result = .ok .done ∨
      ∃ e, (markRunning lease now t).result = .error e ∧ (markRunning lease now t).table = t := by
  have htraceless : Traceless t (markRunning lease now t) := traceless_commit _ t
  cases hresult : (markRunning lease now t).result with
  | error e => exact .inr ⟨e, rfl, (htraceless e hresult).1⟩
  | ok reply =>
    obtain ⟨p, hp, -⟩ := onEntry_eq_ok hresult
    refine .inl ?_
    unfold markRunning at hresult
    rw [← hp, onEntry_result] at hresult
    obtain ⟨_, -, rfl⟩ := map_eq_ok.mp (mapError_eq_ok.mp hresult)
    rfl

lemma drive_of_refused (rt : ActorRuntime B A E L)
    (h : c.rejected ≠ none ∨ (markRunning c.lease c.started t).result ≠ .ok .done) :
    (c.drive t rt).2 = (t, rt) := by
  unfold drive
  cases hrejected : c.rejected with
  | some message => rfl
  | none =>
    rcases markRunning_result c.lease c.started t with hok | ⟨e, he, htable⟩
    · exact absurd hok (h.resolve_left (absurd hrejected))
    · dsimp only
      rw [he, htable]

/-- A run that fails before the guest runs leaves the table and the runtime alone
exactly if it fails before the slot is marked. Past run control's own checks, a slot
becomes Faulted only when the guest or the drain of the devices fails. -/
lemma untouched_iff (hp : c.lease.slotId = p) (hpaused : (t.rows p).state = .paused)
    (rt : ActorRuntime B A E L) : (c.FailsEarly t rt → ((c.drive t rt).2 = (t, rt) ↔
        c.rejected ≠ none ∨ (markRunning c.lease c.started t).result ≠ .ok .done)) ∧
      (c.opened = .ok () → ((c.drive t rt).2.1.rows p).state = .faulted → ∃ log, rt.log = some log ∧
          let ran := c.execute ⟨rt.bus, rt.lapic, rt.entropy, log⟩
          (∃ e, ran.1 = .error e) ∨ ∃ e, (c.drain ran.2).1 = .error e) := by
  by_cases hrefused : c.rejected ≠ none ∨ (markRunning c.lease c.started t).result ≠ .ok .done
  · have hsame := drive_of_refused rt hrefused
    refine ⟨fun _ => iff_of_true hsame hrefused, fun _ hfaulted => ?_⟩
    rw [hsame, hpaused] at hfaulted
    cases hfaulted
  obtain ⟨hrejected, hmarked⟩ := not_or.mp hrefused
  rw [not_not] at hrejected hmarked
  obtain ⟨hrow, expires, hlease⟩ := markRunning_row hp hmarked
  have hrunning : ((markRunning c.lease c.started t).table.rows p).state = .running := by rw [hrow]
  -- the slot is not Paused any more, unless the guest was entered
  have hmoved : ((c.drive t rt).2.1.rows p).state ≠ .paused → ¬(c.drive t rt).2 = (t, rt) := by
    intro hne hsame
    rw [hsame] at hne
    exact hne hpaused
  rw [drive_eq hrejected hmarked] at hmoved ⊢
  dsimp only at hmoved ⊢
  by_cases hcounter : rt.counter = true
  · rw [if_pos hcounter] at hmoved ⊢
    cases hlog : rt.log with
    | none =>
      simp only [hlog, hrunning] at hmoved ⊢
      exact ⟨fun _ => iff_of_false (hmoved (by simp)) hrefused, by simp⟩
    | some log =>
      simp only [hlog] at hmoved ⊢
      have hout := afterRun_cases hp hrunning (by rw [hrow]; exact hlease) (c.ran rt log)
        { rt with thread := .running c.tid, log := some log }.clearPauseRequest
      dsimp only at hout
      constructor
      · rintro (hno | hno | hno | hno | ⟨e, he⟩)
        · exact absurd hrejected hno
        · exact absurd hmarked hno
        · rw [hcounter] at hno
          cases hno
        · rw [hlog] at hno
          cases hno
        · have hran : (c.ran rt log).1 = .error e := by simp [ran, run, he]
          rcases hout with ⟨-, -, hstate, -⟩ | ⟨icount, hok, -⟩
          · exact iff_of_false (hmoved (by rw [hstate]; simp)) hrefused
          · cases hran.symm.trans hok
      · intro hopened hfaulted
        have hran : c.ran rt log = c.execute ⟨rt.bus, rt.lapic, rt.entropy, log⟩ := by
          simp [ran, run, hopened]
        refine ⟨log, rfl, ?_⟩
        rw [← hran]
        rcases hout with ⟨e, he, -⟩ | ⟨icount, -, ⟨-, hstate⟩ | ⟨-, -, ⟨e, he, -⟩ | ⟨hstate, -⟩⟩⟩
        · exact .inl ⟨e, he⟩
        · cases hstate.symm.trans hfaulted
        · exact .inr ⟨e, he⟩
        · cases hstate.symm.trans hfaulted
  · rw [if_neg hcounter] at hmoved ⊢
    exact ⟨fun _ => iff_of_false (hmoved (by rw [hrunning]; simp)) hrefused,
      fun _ h => by rw [hrunning] at h; cases h⟩

/-- The checks of run control fault a slot that was marked, and nothing else of it changes. -/
lemma drive_of_unopened {log : L} {e : String} (hrejected : c.rejected = none)
    (hp : c.lease.slotId = p) (hmarked : (markRunning c.lease c.started t).result = .ok .done)
    (hcounter : rt.counter = true) (hlog : rt.log = some log) (hopened : c.opened = .error e) :
    ((c.drive t rt).2.1.rows p).state = .faulted ∧
      (c.drive t rt).2.2 = { rt with thread := .faulted e, pause := false } := by
  obtain ⟨hrow, -⟩ := markRunning_row hp hmarked
  rw [drive_eq hrejected hmarked]
  simp only [hcounter, hlog, ran, run, hopened, afterRun, ↓reduceIte]
  refine ⟨?_, by simp [ActorRuntime.putBack, ActorRuntime.clearPauseRequest]⟩
  rw [hp]
  exact markFaulted_state (.inl (by rw [hrow]))

end DriveCall

/-- A `Run` as the worker receives it, on a slot with all its state. `text` is how run control's
errors print, `wreck` is what an execution that failed leaves. -/
structure RunRpc (T H σ Page : Type) where
  lease : Lease T
  tid : ℕ
  started : ℕ
  ended : ℕ
  checkpoints : Bool
  call : RunCall
  fuel : ℕ
  text : RunError H → String
  wreck : SlotRuntime H σ Page → SlotRuntime H σ Page
  capture : Except String Unit

/-- The actor of a slot. What a run moves out and puts back is everything the runtime has: RAM
and devices, log, chain, queue and position. -/
abbrev SlotActor (H σ Page : Type) := ActorRuntime (SlotRuntime H σ Page) Unit Unit Unit

namespace RunRpc

open SlotManager Except

variable {σ X Page : Type} (B : Board H σ X Page) (q : RunRpc T H σ Page)
  (slot : SlotRuntime H σ Page)

/-- The two checks ahead of `mark_running`. -/
def rejected : Option String :=
  if B.config.clock.vnsFromIcount slot.segmentIcount = none then
    some "segment vns conversion overflow"
  else if q.checkpoints = true ∧ B.config.hashEpochs ≠ .epochsOn then
    some "bisection checkpoint recording requires hash_epochs=EPOCHS_ON"
  else none

def opened : Except (RunError H) Unit :=
  (opening (B.platform slot.clockBase) (recordRequest q.call slot.recording)
    slot.recording.rail).map fun _ => ()

def executed : Except (RunError H) (SegmentOutcome H × Seg H σ Unit) :=
  runSegment (B.platform slot.clockBase) q.fuel (recordRequest q.call slot.recording)
    slot.recording.rail slot.recording.chain ()

/-- The runtime behind a run that returned, with its rings not drained yet. -/
def landed (out : SegmentOutcome H) (s : Seg H σ Unit) : SlotRuntime H σ Page :=
  let startVns := (B.config.clock.vnsFromIcount slot.segmentIcount).getD 0
  let epochLen := max B.config.epochLen 1
  let cumulativeIcount :=
    slot.cumulativeIcount.saturatingAdd (out.boundary.icount - slot.segmentIcount)
  { slot with
    recording := { slot.recording with
      rail := s.rail
      chain := s.chain
      segmentIcount := out.boundary.icount
      frameCounter := (B.platform slot.clockBase).frameCounter s.rail.machine
      queued := slot.recording.queued.filter fun input =>
        !(s.consumed.map (·.order)).contains input.order }
    cumulativeIcount
    vns := slot.vns.saturatingAdd (out.vns - startVns)
    epochIndex := slot.epochIndex.saturatingAdd
      (out.boundary.icount / epochLen - slot.segmentIcount / epochLen)
    tsc := .saturate startVns
    tableIcount := cumulativeIcount }

def drained : Except (BoundaryError H) (SlotRuntime H σ Page) :=
  (slot.recording.rail.drainAtPause (B.platform slot.clockBase) slot.segmentIcount).map
    fun w => { slot with recording := { slot.recording with rail := w.1 } }

/-- The call of `drive_recorded_run` for a slot in this state. -/
def toCall : DriveCall T H (SlotRuntime H σ Page) Unit Unit Unit where
  lease := q.lease
  tid := q.tid
  started := q.started
  ended := q.ended
  base := slot.base.map Snapshot.id
  rejected := q.rejected B slot
  opened := (q.opened B slot).mapError q.text
  execute := fun moved =>
    match q.executed B slot with
    | .error e => (.error (q.text e), { moved with bus := q.wreck slot })
    | .ok (out, s) => (.ok (landed B slot out s).cumulativeIcount,
        { moved with bus := landed B slot out s })
  drain := fun moved =>
    match drained B moved.bus with
    | .error e => (.error (q.text (.boundary e)), { moved with bus := q.wreck moved.bus })
    | .ok slot => (.ok (), { moved with bus := slot })
  capture := q.capture

def drive (t : Table n T H) (a : SlotActor H σ Page) :
    Except DriveError Unit × Table n T H × SlotActor H σ Page := (q.toCall B a.bus).drive t a

/-- The request is refused before the slot is marked. -/
def Refused (t : Table n T H) (a : SlotActor H σ Page) : Prop :=
  B.config.clock.vnsFromIcount a.bus.segmentIcount = none ∨
    (q.checkpoints = true ∧ B.config.hashEpochs ≠ .epochsOn) ∨
    (markRunning q.lease q.started t).result ≠ .ok .done

/-- The request fails before the guest executes an instruction: it is refused, the actor lacks its
counter or its log, or the checks of run control fail (missing event feed, budget or clock that
overflows). -/
def FailsEarly (t : Table n T H) (a : SlotActor H σ Page) : Prop :=
  q.Refused B t a ∨ a.counter = false ∨ a.log = none ∨ ∃ e, q.opened B a.bus = .error e

variable {B} {q} {slot} {t : Table n T H} {p : Fin n} {a : SlotActor H σ Page}

omit [DecidableEq T] in
/-- A run that succeeds with its drain leaves the slot as `runSlot` does. -/
lemma drained_of_runSlot {response : RunResponse H} {slot' : SlotRuntime H σ Page}
    (h : runSlot B q.fuel q.call slot = .ok (response, slot')) :
    ∃ out s, q.executed B slot = .ok (out, s) ∧ drained B (landed B slot out s) = .ok slot' := by
  unfold runSlot at h
  cases hclock : B.config.clock.vnsFromIcount slot.segmentIcount with
  | none =>
    rw [hclock] at h
    cases h
  | some startVns =>
    simp only [hclock] at h
    split at h
    · cases h
    · rename_i out recording hdrive
      cases h
      obtain ⟨s, rail, es, hrun, hdrain, rfl⟩ := driveRecordedRun_eq_ok hdrive
      refine ⟨out, s, hrun, ?_⟩
      have hdrained : (landed B slot out s).recording.rail.drainAtPause (B.platform slot.clockBase)
          (landed B slot out s).segmentIcount = .ok (rail, es) := hdrain
      rw [drained, show (landed B slot out s).clockBase = slot.clockBase from rfl, hdrained]
      simp only [Except.map, landed, hclock, Option.getD_some]

lemma refused_iff : q.Refused B t a ↔ (q.toCall B a.bus).rejected ≠ none ∨
    (markRunning q.lease q.started t).result ≠ .ok .done := by
  unfold Refused
  rw [← or_assoc]
  refine or_congr_left ?_
  change _ ↔ q.rejected B a.bus ≠ none
  unfold rejected
  split_ifs with hclock hmode
  · simp [hclock]
  · simp [hmode]
  · simp only [hclock, hmode, or_self, ne_eq, not_true_eq_false]

/-- A `Run` by count on the first slot, five milliseconds after it was leased. -/
def runBy (budget : ℕ) (checkpoints : Bool) : RunRpc ℕ LinkTrace ℕ Unit where
  lease := ⟨0, 0⟩
  tid := 1
  started := 5
  ended := 20
  checkpoints := checkpoints
  call := { stop := .icountBudget budget }
  fuel := 50
  text := fun _ => "run failed"
  wreck := id
  capture := .ok ()

def leasedTable : Table 3 ℕ LinkTrace :=
  (threeSlots none).performAll [.allocate 0] (initial 3 ℕ LinkTrace)

def parkedAt (B : Board LinkTrace ℕ Unit Unit) (segmentIcount : ℕ) : SlotActor LinkTrace ℕ Unit :=
  let slot := createVm B 0 [] none
  let rail := { slot.recording.rail with icount := segmentIcount }
  ⟨.parked, false, true, { slot with recording := { slot.recording with rail, segmentIcount } }, (),
    (), some ()⟩

def finalOnly : Platform LinkTrace ℕ Unit :=
  { counting 10 with config := ⟨.default, 10, .finalOnly, [], []⟩ }

def finalOnlyBoard : Board LinkTrace ℕ Unit Unit :=
  { countingBoard .default with
    platform := fun _ => finalOnly
    config := finalOnly.config
    config_eq := fun _ => rfl }

end RunRpc

end DetHypervisor
