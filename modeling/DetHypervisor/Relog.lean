import DetHypervisor.Points

/-!
# Run control under a rewritten log

Run control writes the log and never reads it back. So a rewriting `φ` that respects positions
and what the devices write commutes with it, as long as the request applies no inputs.
-/

namespace DetHypervisor

open Except Rail

variable {H σ X τ : Type}

variable (P : Platform H σ X) (φ : LogWriter H → LogWriter H)

/-- A record that a replay applies: canonical, and not left to the channel. -/
def RecordBody.applied (body : RecordBody H) : Bool :=
  body.isCanonical && !(body.isChannelGenerated && P.detchannel)

def Rewrites : Prop :=
  ∀ w icount rip body, body.applied P = false →
    (φ w).record icount rip body = (w.record icount rip body).bimap id φ

def Rail.relog (r : Rail H σ) : Rail H σ := { r with log := φ r.log }

@[simp] lemma Rail.relog_log (r : Rail H σ) : (r.relog φ).log = φ r.log := rfl

@[simp] lemma Rail.relog_machine (r : Rail H σ) : (r.relog φ).machine = r.machine := rfl

@[simp] lemma Rail.relog_icount (r : Rail H σ) : (r.relog φ).icount = r.icount := rfl

def Entered.relog (φ : LogWriter H → LogWriter H) : Entered H σ → Entered H σ
  | .stepped r => .stepped (r.relog φ)
  | .serviced r es => .serviced (r.relog φ) es
  | .frame n r es => .frame n (r.relog φ) es
  | .halted r => .halted (r.relog φ)
  | .failed e => .failed e

def Seg.relog (φ : LogWriter H → LogWriter H) (s : Seg H σ τ) : Seg H σ τ :=
  { s with rail := s.rail.relog φ }

def Unwind.relog (φ : LogWriter H → LogWriter H) : Unwind H σ τ → Unwind H σ τ
  | .halted s => .halted (s.relog φ)
  | .frameSinkStop s => .frameSinkStop (s.relog φ)
  | .eventStop s => .eventStop (s.relog φ)
  | .error e => .error e

section Rails

variable {P : Platform H σ X} {φ : LogWriter H → LogWriter H}

lemma emit_not_applied {icount : ℕ} {q : Request X} {s s' : σ} {es : List Emit}
    (h : P.service icount q s = .ok (s', es)) {e : Emit} (he : e ∈ es) :
    (e.body : RecordBody H).applied P = false := by
  cases e with
  | entropy | netTx | sdk => rfl
  | channel event data =>
    have hchannel : P.detchannel = true := by
      by_contra hno
      cases P.service_channel h ((Bool.not_eq_true _).mp hno) _ he
    rw [RecordBody.applied, hchannel]
    cases event <;> rfl

variable (hφ : Rewrites P φ)
include hφ

lemma Rail.append_relog (r : Rail H σ) (icount rip : ℕ)
    {body : RecordBody H} (hbody : body.applied P = false) :
    (r.relog φ).append icount rip body = (r.append icount rip body).bimap id (Rail.relog φ) := by
  unfold Rail.append
  rw [relog_log, hφ _ _ _ _ hbody]
  cases r.log.record icount rip body <;> rfl

lemma Rail.emit_relog (icount : ℕ) {es : List Emit}
    (hes : ∀ e ∈ es, (e.body : RecordBody H).applied P = false) (r : Rail H σ) :
    (r.relog φ).emit icount es = (r.emit icount es).bimap id (Rail.relog φ) := by
  induction es generalizing r with
  | nil => rfl
  | cons e es ih =>
    unfold Rail.emit
    rw [append_relog hφ r icount 0 (hes e List.mem_cons_self)]
    exact bimap_bind fun r1 => ih (fun e' he' => hes e' (List.mem_cons_of_mem e he')) r1

lemma Rail.mark_relog (icount : ℕ) (q : Request X) (r : Rail H σ) :
    (r.relog φ).mark icount q = (r.mark icount q).bimap id (Rail.relog φ) := by
  cases q with
  | frameCounter frame => exact append_relog hφ r icount 0 rfl
  | exit | pauseDrain => rfl

lemma Rail.service_relog (icount : ℕ) (q : Request X) (r : Rail H σ) :
    (r.relog φ).service P icount q =
      (r.service P icount q).bimap id (Prod.map (Rail.relog φ) id) := by
  unfold Rail.service
  rw [relog_machine]
  cases hs : P.service icount q r.machine with
  | error message => rfl
  | ok w =>
    obtain ⟨s, es⟩ := w
    have hmark := mark_relog hφ icount q { r with machine := s }
    refine (congrArg (· >>= _) hmark).trans ?_
    apply bimap_bind
    intro r1
    rw [emit_relog hφ icount (fun e he => emit_not_applied hs he) r1]
    exact bimap_bind fun r2 => rfl

lemma Rail.drainAtPause_relog (icount : ℕ) (r : Rail H σ) :
    (r.relog φ).drainAtPause P icount =
      (r.drainAtPause P icount).bimap id (Prod.map (Rail.relog φ) id) := by
  unfold Rail.drainAtPause
  split_ifs
  · exact service_relog hφ icount .pauseDrain r
  · rfl

lemma enter_relog (r : Rail H σ) :
    enter P (r.relog φ) = (enter P r).relog φ := by
  have hservice (s : σ) (q : Request X) :
      Rail.service P r.icount q ⟨s, r.icount, φ r.log⟩ =
        (Rail.service P r.icount q { r with machine := s }).bimap id
          (Prod.map (Rail.relog φ) id) :=
    service_relog hφ r.icount q { r with machine := s }
  unfold enter
  rw [relog_machine, relog_icount, relog_log]
  cases P.run r.machine with
  | debug | hlt | frameCounterWidth | kvmError => rfl
  | frameCounter frame s =>
    dsimp only
    rw [hservice]
    cases Rail.service P r.icount (.frameCounter frame) { r with machine := s } <;> rfl
  | device exit s =>
    dsimp only
    rw [hservice]
    cases Rail.service P r.icount (.exit exit) { r with machine := s } <;> rfl

end Rails

/-- A request that writes no input and whose epoch sink lets `φ` past. -/
structure Silent (φ : LogWriter H → LogWriter H) (req : RunRequest H σ τ) : Prop where
  inputs_eq : req.inputs = []
  live_eq : ∀ frame, req.liveInputs frame = []
  sink_eq : ∀ index icount value log caller,
    req.epochSink index icount value (φ log, caller) =
      (req.epochSink index icount value (log, caller)).bimap id (Prod.map φ id)

section Flights

variable {P : Platform H σ X} {φ : LogWriter H → LogWriter H} {req : RunRequest H σ τ}

def Flight.relog {α : Type} (φ : LogWriter H → LogWriter H) (f : α → α) (x : Flight H σ τ α) :
    Flight H σ τ α := x.bimap (Unwind.relog φ) f

lemma Silent.dueAtFrame_eq (hreq : Silent φ req) (frame : ℕ) (s : Seg H σ τ) :
    dueAtFrame req frame s = [] := by
  simp [dueAtFrame, hreq.inputs_eq]

lemma checkSdkFeed_relog (s : Seg H σ τ) :
    checkSdkFeed req (s.relog φ) = (checkSdkFeed req s).relog φ (Seg.relog φ) := by
  unfold checkSdkFeed
  change (if req.awaitsSdkEvent && decide (0 < s.sdkEvents) then _ else _) = _
  split_ifs <;> rfl

lemma onFrame_relog (hreq : Silent φ req) (frame : ℕ) (s : Seg H σ τ) :
    onFrame P req frame (s.relog φ) = (onFrame P req frame s).relog φ (Seg.relog φ) := by
  have hhold : holdFrame P req frame (s.relog φ) =
      (holdFrame P req frame s).relog φ (Seg.relog φ) := by
    unfold holdFrame
    rw [hreq.dueAtFrame_eq, hreq.dueAtFrame_eq, hreq.live_eq]
    change (if frame ≤ s.lastFrame then _ else _) = _
    split_ifs <;> rfl
  unfold onFrame
  rw [hhold]
  apply bimap_bind
  intro s1
  change (if req.frameStop frame then _ else if req.frameTarget = some s1.framesSeen then _
    else _) = _
  split_ifs <;> rfl

lemma onEntered_relog (hreq : Silent φ req) (s : Seg H σ τ) (e : Entered H σ) :
    onEntered P req (s.relog φ) (e.relog φ) = (onEntered P req s e).relog φ (Seg.relog φ) := by
  cases e with
  | stepped | halted | failed => rfl
  | serviced r es => exact checkSdkFeed_relog (noteExit req r es s)
  | frame n r es =>
    have hframe := onFrame_relog (P := P) hreq n (noteExit req r es s)
    refine (congrArg (· >>= _) hframe).trans ?_
    exact bimap_bind fun s1 => checkSdkFeed_relog s1

section

variable (hφ : Rewrites P φ) (hreq : Silent φ req)
include hφ hreq

lemma entry_relog (s : Seg H σ τ) : onEntered P req (s.relog φ) (enter P (s.relog φ).rail) =
      (onEntered P req s (enter P s.rail)).relog φ (Seg.relog φ) := by
  have henter : enter P (s.relog φ).rail = (enter P s.rail).relog φ := enter_relog hφ s.rail
  rw [henter]
  exact onEntered_relog hreq s (enter P s.rail)

lemma landAt_relog (fuel target : ℕ) (s : Seg H σ τ) :
    landAt P req fuel target (s.relog φ) = (landAt P req fuel target s).relog φ (Seg.relog φ) := by
  have hturn (s : Seg H σ τ) : landStep P req target (s.relog φ) =
      (landStep P req target s).map (Seg.relog φ) (Flight.relog φ (Seg.relog φ)) := by
    unfold landStep
    rw [entry_relog hφ hreq]
    change (if target < s.rail.icount then _ else if s.rail.icount = target then _ else _) = _
    split_ifs
    · rfl
    · rfl
    · cases onEntered P req s (enter P s.rail) <;> rfl
  unfold landAt
  rw [Fuel.run_map hturn]
  cases Fuel.run (landStep P req target) fuel s <;> rfl

lemma stepOneEntry_relog (fuel : ℕ) (s : Seg H σ τ) :
    stepOneEntry P req fuel (s.relog φ) = (stepOneEntry P req fuel s).relog φ (Seg.relog φ) := by
  have hturn (s : Seg H σ τ) : entryStep P req (s.relog φ) =
      (entryStep P req s).map (Seg.relog φ) (Flight.relog φ (Seg.relog φ)) := by
    have hentered (e : Entered H σ) := onEntered_relog (P := P) hreq s e
    unfold entryStep
    rw [show enter P (s.relog φ).rail = (enter P s.rail).relog φ from enter_relog hφ s.rail]
    cases enter P s.rail with
    | stepped | halted | failed => rfl
    | serviced r es =>
      have h := hentered (.serviced r es)
      dsimp only [Entered.relog] at h ⊢
      rw [h]
      cases onEntered P req s (.serviced r es) <;> rfl
    | frame n r es =>
      have h := hentered (.frame n r es)
      dsimp only [Entered.relog] at h ⊢
      rw [h]
      cases onEntered P req s (.frame n r es) <;> rfl
  unfold stepOneEntry
  rw [Fuel.run_map hturn]
  cases Fuel.run (entryStep P req) fuel s <;> rfl

lemma injectAtBoundary_relog (fuel vector budget : ℕ)
    (s : Seg H σ τ) : injectAtBoundary P req fuel vector budget (s.relog φ) =
      (injectAtBoundary P req fuel vector budget s).relog φ (Seg.relog φ) := by
  have hqueue (s : Seg H σ τ) : queueVector P vector (s.relog φ) =
      (queueVector P vector s).relog φ (Seg.relog φ) := by
    unfold queueVector
    split_ifs <;> rfl
  have hopen (s : Seg H σ τ) : P.injectable (s.relog φ).rail.machine =
      P.injectable s.rail.machine := rfl
  induction budget generalizing s with
  | zero =>
    unfold injectAtBoundary
    rw [hopen]
    split_ifs
    · exact hqueue s
    · rfl
  | succ budget ih =>
    unfold injectAtBoundary
    rw [hopen]
    split_ifs
    · exact hqueue s
    · refine (congrArg (· >>= _) (landAt_relog hφ hreq fuel (s.rail.icount + 1) s)).trans ?_
      exact bimap_bind ih

end

lemma noteDelivery_relog (timerSlot injection : Option ℕ) (vector : ℕ) (s : Seg H σ τ) :
    noteDelivery req timerSlot injection vector (s.relog φ) =
      (noteDelivery req timerSlot injection vector s).relog φ (Seg.relog φ) := by
  unfold noteDelivery
  split_ifs
  · cases req.timer <;> rfl
  · rfl

lemma deliver_relog (hφ : Rewrites P φ) (hreq : Silent φ req) (fuel : ℕ)
    (timerSlot : Option ℕ) (first : Bool) (vectors : List (ℕ × Option ℕ)) (s : Seg H σ τ) :
    deliver P req fuel timerSlot first vectors (s.relog φ) =
      (deliver P req fuel timerSlot first vectors s).relog φ (Seg.relog φ) := by
  induction vectors generalizing first s with
  | nil => rfl
  | cons v rest ih =>
    obtain ⟨vector, injection⟩ := v
    have hentry : (if first then .ok (s.relog φ) else stepOneEntry P req fuel (s.relog φ)) =
        Flight.relog φ (Seg.relog φ) (if first then .ok s else stepOneEntry P req fuel s) := by
      cases first with
      | true => rfl
      | false => exact stepOneEntry_relog hφ hreq fuel s
    unfold deliver
    rw [hentry]
    apply bimap_bind
    intro s1
    rw [injectAtBoundary_relog hφ hreq]
    apply bimap_bind
    intro s2
    rw [noteDelivery_relog]
    exact bimap_bind fun s3 => ih false s3

lemma applyInputs_relog (hreq : Silent φ req) (at_ : Boundary) (indices : List ℕ) (s : Seg H σ τ) :
    applyInputs P req at_ indices (s.relog φ) =
      (applyInputs P req at_ indices s).relog φ (Prod.map (Seg.relog φ) id) := by
  cases indices with
  | nil => rfl
  | cons index rest =>
    unfold applyInputs
    rw [hreq.inputs_eq]
    rfl

lemma sinkEpoch_relog (hreq : Silent φ req) (icount : ℕ) (s : Seg H σ τ) :
    sinkEpoch P req icount (s.relog φ) = (sinkEpoch P req icount s).relog φ (Seg.relog φ) := by
  have hsink := hreq.sink_eq (icount / max P.config.epochLen 1) icount s.chain s.rail.log s.caller
  unfold sinkEpoch
  change (Flight.lift (req.epochSink _ icount s.chain (φ s.rail.log, s.caller)) >>= _) = _
  rw [hsink]
  cases req.epochSink (icount / max P.config.epochLen 1) icount s.chain (s.rail.log, s.caller) <;>
    rfl

lemma finish_relog (hash : Bool) (reason : StopReason) (boundary : Boundary) (vns : ℕ)
    (hashed : Bool) (s : Seg H σ τ) : finish P hash reason boundary vns hashed (s.relog φ) =
      Prod.map id (Seg.relog φ) (finish P hash reason boundary vns hashed s) := by
  unfold finish
  split_ifs <;> rfl

lemma finishAtCounter_relog (hash : Bool) (reason : StopReason) (s : Seg H σ τ) :
    finishAtCounter P hash reason (s.relog φ) =
      (finishAtCounter P hash reason s).bimap id (Prod.map id (Seg.relog φ)) := by
  have hicount : (s.relog φ).rail.icount = s.rail.icount := rfl
  unfold finishAtCounter
  rw [hicount]
  cases P.config.clock.vnsFromIcount s.rail.icount with
  | none => rfl
  | some vns => exact congrArg Except.ok (finish_relog _ _ _ _ _ s)

lemma clockAt_relog {β : Type} {g : β → β} (icount : ℕ) {k k' : ℕ → Flight H σ τ β}
    (h : ∀ vns, k' vns = (k vns).relog φ g) :
    clockAt P icount >>= k' = (clockAt P icount >>= k).relog φ g := by
  unfold clockAt
  cases P.config.clock.vnsFromIcount icount with
  | none => rfl
  | some vns => exact h vns

section

variable (hφ : Rewrites P φ) (hreq : Silent φ req)
include hφ hreq

lemma pauseAt_relog (fuel : ℕ) (point : StopPoint) (boundary : Boundary) (vns : ℕ) (s : Seg H σ τ) :
    pauseAt P req fuel point boundary vns (s.relog φ) =
      (pauseAt P req fuel point boundary vns s).relog φ (Prod.map id (Seg.relog φ)) := by
  unfold pauseAt
  by_cases hepoch : point.epochHash = true
  · rw [if_pos hepoch, if_pos hepoch]
    rfl
  · rw [if_neg hepoch, if_neg hepoch, landAt_relog hφ hreq]
    apply bimap_bind
    intro s1
    apply clockAt_relog
    intro vns'
    have hsink : (if P.config.hashEpochs = .epochsOn ∨ req.options.paranoidHash = true then
          sinkEpoch P req s1.rail.icount ((s1.relog φ).pushLink P s1.rail.icount vns')
        else .ok ((s1.relog φ).pushLink P s1.rail.icount vns')) =
        Flight.relog φ (Seg.relog φ)
          (if P.config.hashEpochs = .epochsOn ∨ req.options.paranoidHash = true then
            sinkEpoch P req s1.rail.icount (s1.pushLink P s1.rail.icount vns')
          else .ok (s1.pushLink P s1.rail.icount vns')) := by
      split_ifs
      · exact sinkEpoch_relog hreq _ (s1.pushLink P s1.rail.icount vns')
      · rfl
    refine (congrArg (· >>= _) hsink).trans ?_
    exact bimap_bind fun s2 => rfl

lemma afterPoint_relog (fuel : ℕ)
    (point : StopPoint) (boundary : Boundary) (vns : ℕ) (hashed : Bool) (s : Seg H σ τ) :
    afterPoint P req fuel point boundary vns hashed (s.relog φ) =
      (afterPoint P req fuel point boundary vns hashed s).relog φ
        (Sum.map (Seg.relog φ) (Prod.map id (Seg.relog φ))) := by
  have hgoal : req.goal (s.relog φ).rail.machine = req.goal s.rail.machine := rfl
  unfold afterPoint
  rw [hgoal]
  by_cases hpoll : (point.goalPoll && req.goal s.rail.machine) = true
  · rw [if_pos hpoll, if_pos hpoll, finish_relog]
    rfl
  rw [if_neg hpoll, if_neg hpoll]
  cases point.finalStop with
  | some kind =>
    cases kind with
    | budget | hardCap =>
      dsimp only
      rw [finish_relog]
      rfl
  | none =>
    split_ifs with hpause
    · rw [pauseAt_relog hφ hreq]
      cases pauseAt P req fuel point boundary vns s <;> rfl
    · rfl

lemma atPoint_relog (fuel : ℕ)
    (injections : List ScheduledInjection) (timerSlot : Option ℕ) (point : StopPoint)
    (s : Seg H σ τ) : atPoint P req fuel injections timerSlot point (s.relog φ) =
      (atPoint P req fuel injections timerSlot point s).relog φ
        (Sum.map (Seg.relog φ) (Prod.map id (Seg.relog φ))) := by
  unfold atPoint
  rw [landAt_relog hφ hreq]
  apply bimap_bind
  intro s1
  refine (congrArg (· >>= _) (applyInputs_relog hreq (s1.rail.boundary P) point.inputs s1)).trans ?_
  apply bimap_bind
  rintro ⟨s2, queued⟩
  dsimp only [Prod.map]
  rw [deliver_relog hφ hreq]
  apply bimap_bind
  intro s3
  apply clockAt_relog
  intro vns
  have hsink (hashed : Bool) : (if hashed = true then
        sinkEpoch P req point.icount ((s3.relog φ).pushLink P point.icount vns)
      else .ok (s3.relog φ)) = Flight.relog φ (Seg.relog φ)
        (if hashed = true then sinkEpoch P req point.icount (s3.pushLink P point.icount vns)
        else .ok s3) := by
    cases hashed with
    | true => exact sinkEpoch_relog hreq _ (s3.pushLink P point.icount vns)
    | false => rfl
  refine (congrArg (· >>= _) (hsink _)).trans ?_
  exact bimap_bind fun s4 => afterPoint_relog hφ hreq _ _ _ _ _ s4

lemma walkAgenda_relog (fuel : ℕ)
    (injections : List ScheduledInjection) (timerSlot : Option ℕ) (it : AgendaIter)
    (s : Seg H σ τ) : walkAgenda P req fuel injections timerSlot it (s.relog φ) =
      (walkAgenda P req fuel injections timerSlot it s).relog φ (Prod.map id (Seg.relog φ)) := by
  have hturn (w : AgendaIter × Seg H σ τ) :
      walkStep P req fuel injections timerSlot (Prod.map id (Seg.relog φ) w) =
        (walkStep P req fuel injections timerSlot w).map (Prod.map id (Seg.relog φ))
          (Flight.relog φ (Prod.map id (Seg.relog φ))) := by
    obtain ⟨it, s⟩ := w
    unfold walkStep
    dsimp only [Prod.map, id]
    cases it.next with
    | none => rfl
    | some p =>
      obtain ⟨point, it'⟩ := p
      dsimp only
      rw [atPoint_relog hφ hreq]
      rcases atPoint P req fuel injections timerSlot point s with u | (s' | done) <;> rfl
  have hpair : (it, s.relog φ) = Prod.map id (Seg.relog φ) (it, s) := rfl
  unfold walkAgenda
  rw [hpair, Fuel.run_map hturn]
  cases Fuel.run (walkStep P req fuel injections timerSlot)
    (it.finalIcount - req.startIcount + 1) (it, s) <;> rfl

end

lemma settle_relog (x : Flight H σ τ (SegmentOutcome H × Seg H σ τ)) :
    settle P req (x.relog φ (Prod.map id (Seg.relog φ))) =
      (settle P req x).bimap id (Prod.map id (Seg.relog φ)) := by
  match x with
  | .ok done => rfl
  | .error (.halted s) | .error (.frameSinkStop s) | .error (.eventStop s) =>
    exact finishAtCounter_relog _ _ s
  | .error (.error e) => rfl

lemma runSegment_relog (hφ : Rewrites P φ) (hreq : Silent φ req) (fuel : ℕ) (rail : Rail H σ)
    (chain : H) (caller : τ) : runSegment P fuel req (rail.relog φ) chain caller =
      (runSegment P fuel req rail chain caller).bimap id (Prod.map id (Seg.relog φ)) := by
  have hopening : opening P req (rail.relog φ) = opening P req rail := rfl
  rw [runSegment_eq_opening, runSegment_eq_opening, hopening]
  cases opening P req rail with
  | error e => rfl
  | ok opened =>
    match opened with
    | none => exact finishAtCounter_relog _ _ (startSeg req rail chain caller)
    | some (injections, timerSlot, it) =>
      have hwalk := walkAgenda_relog hφ hreq fuel injections timerSlot it
        (startSeg req rail chain caller)
      exact (congrArg (settle P req) hwalk).trans (settle_relog _)

end Flights

end DetHypervisor
