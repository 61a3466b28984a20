import DetHypervisor.Delivery
import DetHypervisor.Replay

/-!
# Deferral and the counter

A deferred delivery, and the handler it starts, move the counter towards the next point. With
enough room after every vector no landing overshoots and no append falls behind the watermark of
the log.
-/

namespace DetHypervisor

open Rail

variable {H σ X τ : Type}

def BoundaryError.Steady : BoundaryError H → Prop
  | .overshoot .. => False
  | .append _ e => e ≠ .icountRegressed
  | .exit _ | .kvm _ | .divergence _ => True

def RunError.Steady : RunError H → Prop
  | .boundary e => e.Steady
  | _ => True

def Rail.Logged (r : Rail H σ) : Prop := lastIcount r.log.records ≤ r.icount

/-- KVM's single-stepping. The entry that delivers a `pending` vector retires at most `handler`
instructions, every other entry at most one. Exits and devices queue no vector. -/
structure Stepping (P : Platform H σ X) (pending : σ → Prop) (handler : ℕ) : Prop where
  handler_pos : 0 < handler
  debug : ∀ {m m' retired}, P.run m = .debug retired m' →
    ¬pending m' ∧ retired ≤ handler ∧ (¬pending m → retired ≤ 1)
  hlt : ∀ {m m'}, P.run m = .hlt m' → pending m' → pending m
  frameCounter : ∀ {m m' frame}, P.run m = .frameCounter frame m' → pending m' → pending m
  device : ∀ {m m' exit}, P.run m = .device exit m' → pending m' → pending m
  service : ∀ {icount q m m' es}, P.service icount q m = .ok (m', es) → pending m' → pending m
  padSet : ∀ {port buttons m m' v}, P.applyPadSet port buttons m = .ok (m', v) →
    pending m' → pending m
  netRx : ∀ {frame m m' v}, P.applyNetRx frame m = .ok (m', v) → pending m' → pending m

structure Keeps (pending : σ → Prop) (r r' : Rail H σ) : Prop where
  logged : r'.Logged
  icount_eq : r'.icount = r.icount
  pending_of : pending r'.machine → pending r.machine

structure Trapped (pending : σ → Prop) (handler : ℕ) (r r' : Rail H σ) : Prop where
  logged : r'.Logged
  calm : ¬pending r'.machine
  le_handler : r'.icount ≤ r.icount + handler
  le_one : ¬pending r.machine → r'.icount ≤ r.icount + 1

section Rail

variable {P : Platform H σ X} {pending : σ → Prop} {handler : ℕ} {r r1 r' : Rail H σ}

lemma Keeps.refl (h : r.Logged) : Keeps pending r r := ⟨h, rfl, id⟩

lemma Keeps.trans (h : Keeps pending r r1) (h' : Keeps pending r1 r') : Keeps pending r r' :=
  ⟨h'.logged, h'.icount_eq.trans h.icount_eq, h.pending_of ∘ h'.pending_of⟩

lemma LogWriter.record_steady {w : LogWriter H} {icount : ℕ}
    (h : lastIcount w.records ≤ icount) (rip : ℕ) (body : RecordBody H) :
    (w.record icount rip body).Post (fun w' => lastIcount w'.records = icount)
      (· ≠ .icountRegressed) := by
  cases hrecord : w.record icount rip body with
  | ok w' =>
    obtain ⟨-, -, -, -, hrecords⟩ := LogWriter.record_eq_ok_iff.mp hrecord
    change lastIcount w'.records = icount
    rw [hrecords, lastIcount_append_singleton]
  | error e =>
    unfold LogWriter.record at hrecord
    split at hrecord
    · rename_i e' hlayout
      cases hrecord
      rintro rfl
      cases body <;> simp [RecordBody.layoutError] at hlayout
      split_ifs at hlayout <;> cases hlayout
    · split_ifs at hrecord with hregressed
      · omega
      · cases hrecord
        rintro ⟨⟩

lemma Rail.append_steady (pending : σ → Prop) (h : r.Logged) (rip : ℕ) (body : RecordBody H) :
    (r.append r.icount rip body).Post (Keeps pending r) BoundaryError.Steady := by
  have hrecord := LogWriter.record_steady h rip body
  unfold Rail.append
  cases hlog : r.log.record r.icount rip body with
  | ok log => exact ⟨(hrecord.of_ok hlog).le, rfl, id⟩
  | error e => exact hrecord.of_error hlog

lemma Rail.emit_steady (pending : σ → Prop) (h : r.Logged) (es : List Emit) :
    (Rail.emit r.icount es r).Post (Keeps pending r) BoundaryError.Steady := by
  induction es generalizing r with
  | nil => exact .refl h
  | cons e es ih =>
    refine (append_steady pending h 0 e.body).andThen ?_
    intro r1 _ hkeeps
    rw [← hkeeps.icount_eq]
    exact (ih hkeeps.logged).imp (fun _ h => hkeeps.trans h)

variable (hstep : Stepping P pending handler)
include hstep

lemma Rail.service_steady (h : r.Logged) (q : Request X) :
    (r.service P r.icount q).Post (fun w => Keeps pending r w.1) BoundaryError.Steady := by
  unfold Rail.service
  cases hservice : P.service r.icount q r.machine with
  | error message => exact trivial
  | ok w =>
    obtain ⟨m, es⟩ := w
    have hmoved : Keeps pending r { r with machine := m } := ⟨h, rfl, hstep.service hservice⟩
    have hmark : (Rail.mark r.icount q { r with machine := m }).Post
        (Keeps pending { r with machine := m }) BoundaryError.Steady := by
      cases q with
      | frameCounter frame => exact append_steady pending hmoved.logged 0 (.frameMark frame)
      | exit | pauseDrain => exact .refl hmoved.logged
    refine hmark.andThen ?_
    intro r1 _ hmarked
    have hsofar := hmoved.trans hmarked
    rw [← hsofar.icount_eq]
    refine (emit_steady pending hsofar.logged es).andThen ?_
    intro r2 _ hemitted
    exact hsofar.trans hemitted

lemma Rail.inputEffect_steady (m : σ) (kind : InputKind) :
    (Rail.inputEffect P m kind : Except (BoundaryError H) _).Post
      (fun w => pending w.1 → pending m) BoundaryError.Steady := by
  cases kind with
  | padSet port buttons hint =>
    simp only [Rail.inputEffect]
    cases hpad : P.applyPadSet port buttons m with
    | ok w => exact hstep.padSet hpad
    | error message => exact trivial
  | netRx frame =>
    simp only [Rail.inputEffect]
    cases hnet : P.applyNetRx frame m with
    | ok w => exact hstep.netRx hnet
    | error message => exact trivial
  | devEvent => exact id

lemma Rail.applyInput_steady (h : r.Logged) (kind : InputKind) (rip : ℕ) :
    (r.applyInput P kind r.icount rip).Post (fun w => Keeps pending r w.1)
      BoundaryError.Steady := by
  refine (inputEffect_steady hstep r.machine kind).andThen ?_
  rintro ⟨m, vector⟩ - hpending
  have hmoved : Keeps pending r { r with machine := m } := ⟨h, rfl, hpending⟩
  refine (append_steady pending hmoved.logged rip kind.body).andThen ?_
  intro r1 _ hkeeps
  exact hmoved.trans hkeeps

lemma enter_steady (h : r.Logged) :
    match enter P r with
    | .stepped r' => Trapped pending handler r r'
    | .serviced r' _ | .frame _ r' _ | .halted r' => Keeps pending r r'
    | .failed e => e.Steady := by
  unfold enter
  cases hrun : P.run r.machine with
  | debug retired m =>
    obtain ⟨hcalm, hhandler, hone⟩ := hstep.debug hrun
    refine ⟨h.trans (Nat.le_add_right _ _), hcalm, ?_, fun hr => ?_⟩
    · exact Nat.add_le_add_left hhandler _
    · exact Nat.add_le_add_left (hone hr) _
  | hlt m => exact ⟨h, rfl, hstep.hlt hrun⟩
  | frameCounterWidth | kvmError => exact trivial
  | frameCounter frame m =>
    have hmoved : Keeps pending r { r with machine := m } := ⟨h, rfl, hstep.frameCounter hrun⟩
    have hservice := service_steady hstep hmoved.logged (.frameCounter frame)
    dsimp only at hservice ⊢
    cases hres : Rail.service P r.icount (.frameCounter frame) { r with machine := m } with
    | ok w => exact hmoved.trans (hservice.of_ok hres)
    | error e => exact hservice.of_error hres
  | device exit m =>
    have hmoved : Keeps pending r { r with machine := m } := ⟨h, rfl, hstep.device hrun⟩
    have hservice := service_steady hstep hmoved.logged (.exit exit)
    dsimp only at hservice ⊢
    cases hres : Rail.service P r.icount (.exit exit) { r with machine := m } with
    | ok w => exact hmoved.trans (hservice.of_ok hres)
    | error e => exact hservice.of_error hres

end Rail

section Flights

variable {P : Platform H σ X} {req : RunRequest H σ τ} {pending : σ → Prop} {handler fuel t : ℕ}
  {s s' : Seg H σ τ}

lemma lift_steady {α : Type} {x : Except (BoundaryError H) α} {A : α → Prop}
    (h : x.Post A BoundaryError.Steady) :
    (Flight.lift x : Flight H σ τ α).Post A (Throws RunError.Steady) := by
  cases x with
  | ok a => exact h
  | error e => exact throws_error h

lemma checkSdkFeed_steady (s : Seg H σ τ) :
    (checkSdkFeed req s).Post (· = s) (Throws RunError.Steady) := by
  unfold checkSdkFeed
  split_ifs
  · exact fun e h => by cases h
  · exact rfl

section

variable (hstep : Stepping P pending handler)
include hstep

lemma applyAtFrame_steady (message : String)
    (kinds : List InputKind) (h : s.rail.Logged) :
    (applyAtFrame P message kinds s).Post (fun s' => Keeps pending s.rail s'.rail)
      (Throws RunError.Steady) := by
  induction kinds generalizing s with
  | nil => exact .refl h
  | cons kind rest ih =>
    refine (lift_steady (applyInput_steady hstep h kind 0)).andThen ?_
    rintro ⟨r, vector⟩ - hkeeps
    cases vector with
    | some v => exact throws_error trivial
    | none =>
      exact (ih (s := { s with rail := r }) hkeeps.logged).imp
        (fun _ h => hkeeps.trans h)

lemma onFrame_steady (frame : ℕ) (h : s.rail.Logged) :
    (onFrame P req frame s).Post (fun s' => Keeps pending s.rail s'.rail)
      (Throws RunError.Steady) := by
  have hhold : (holdFrame P req frame s).Post (fun s' => Keeps pending s.rail s'.rail)
      (Throws RunError.Steady) := by
    unfold holdFrame
    split_ifs
    · exact throws_error trivial
    · refine (applyAtFrame_steady hstep _ _ (s := { s with
        lastFrame := frame, framesSeen := s.framesSeen + 1 }) h).andThen ?_
      intro s1 _ hdue
      exact (applyAtFrame_steady hstep _ _ (s := { s1 with
        pendingFrames := s1.pendingFrames.filter fun p => decide (p.1 ≠ frame)
        consumed := s1.consumed ++ dueAtFrame req frame s }) hdue.logged).imp
          (fun _ h => hdue.trans h)
  refine hhold.andThen ?_
  intro s1 _ hkeeps
  split_ifs
  · exact fun e h => by cases h
  · exact fun e h => by cases h
  · exact hkeeps

lemma onEntered_steady (h : s.rail.Logged) :
    (onEntered P req s (enter P s.rail)).Post
      (fun s' => enter P s.rail = .stepped s'.rail ∧ Trapped pending handler s.rail s'.rail ∨
        Keeps pending s.rail s'.rail) (Throws RunError.Steady) := by
  have henter := enter_steady hstep h
  cases hentered : enter P s.rail with
  | stepped r =>
    rw [hentered] at henter
    exact .inl ⟨rfl, henter⟩
  | halted r => exact fun e h => by cases h
  | failed e =>
    rw [hentered] at henter
    exact throws_error henter
  | serviced r es =>
    rw [hentered] at henter
    refine (checkSdkFeed_steady (noteExit req r es s)).imp ?_
    rintro s' rfl
    exact .inr henter
  | frame frame r es =>
    rw [hentered] at henter
    refine (onFrame_steady hstep frame (s := noteExit req r es s) henter.logged).andThen ?_
    intro s1 _ hkeeps
    refine (checkSdkFeed_steady s1).imp ?_
    rintro s' rfl
    exact .inr (henter.trans hkeeps)

end

/-- The way to the count `t` is clear: no vector is pending, or there is room
for its handler. -/
structure Clear (pending : σ → Prop) (handler t : ℕ) (s : Seg H σ τ) : Prop where
  logged : s.rail.Logged
  room : ¬pending s.rail.machine ∧ s.rail.icount ≤ t ∨ s.rail.icount + handler ≤ t

lemma queueVector_steady (vector : ℕ) (h : s.rail.Logged) :
    (queueVector P vector s).Post (fun s' => s'.rail.Logged ∧ s'.rail.icount = s.rail.icount)
      (Throws RunError.Steady) := by
  unfold queueVector
  split_ifs
  · exact throws_error trivial
  · exact ⟨h, rfl⟩

lemma noteDelivery_steady (timerSlot injection : Option ℕ) (vector : ℕ) (s : Seg H σ τ) :
    (noteDelivery req timerSlot injection vector s).Post (fun s' => s'.rail = s.rail)
      (Throws RunError.Steady) := by
  cases hnote : noteDelivery req timerSlot injection vector s with
  | ok s' => exact noteDelivery_rail hnote
  | error u =>
    unfold noteDelivery at hnote
    split_ifs at hnote
    split at hnote
    · cases hnote
    · exact Except.error.inj hnote ▸ throws_error trivial

section

variable (hstep : Stepping P pending handler)
include hstep

lemma landAt_steady (h : Clear pending handler t s) :
    (landAt P req fuel t s).Post
      (fun s' => s'.rail.Logged ∧ ¬pending s'.rail.machine ∧ s'.rail.icount = t)
      (Throws RunError.Steady) := by
  have hpos := hstep.handler_pos
  refine landAt_rule (I := Clear pending handler t) ?_ ?_ ?_
    (fun _ _ => throws_error trivial) h
  · intro s1 hclear hlt
    refine (onEntered_steady hstep hclear.logged).imp ?_
    rintro s2 (⟨-, htrapped⟩ | hkeeps)
    · refine ⟨htrapped.logged, .inl ⟨htrapped.calm, ?_⟩⟩
      rcases hclear.room with ⟨hcalm, -⟩ | hroom
      · exact (htrapped.le_one hcalm).trans hlt
      · exact htrapped.le_handler.trans hroom
    · refine ⟨hkeeps.logged, ?_⟩
      rw [hkeeps.icount_eq]
      exact hclear.room.imp (fun h => ⟨h.1 ∘ hkeeps.pending_of, h.2⟩) id
  · intro s1 hclear hat
    rcases hclear.room with ⟨hcalm, -⟩ | hroom
    · exact ⟨hclear.logged, hcalm, hat⟩
    · omega
  · intro s1 hclear hover
    rcases hclear.room with ⟨-, hle⟩ | hroom
    · omega
    · omega

lemma stepOneEntry_steady (h : s.rail.Logged) :
    (stepOneEntry P req fuel s).Post
      (fun s' => s'.rail.Logged ∧ ¬pending s'.rail.machine ∧
        s'.rail.icount ≤ s.rail.icount + handler) (Throws RunError.Steady) := by
  refine stepOneEntry_rule (I := fun s1 => s1.rail.Logged ∧ s1.rail.icount = s.rail.icount)
    ?_ ?_ (fun _ _ => throws_error trivial) ⟨h, rfl⟩
  · rintro s1 ⟨hlogged, hicount⟩ hno
    refine (onEntered_steady hstep hlogged).imp ?_
    rintro s2 (⟨hstepped, -⟩ | hkeeps)
    · exact absurd hstepped (hno _)
    · exact ⟨hkeeps.logged, hkeeps.icount_eq.trans hicount⟩
  · rintro s1 r ⟨hlogged, hicount⟩ hstepped
    have henter := enter_steady hstep hlogged
    rw [hstepped] at henter
    exact ⟨henter.logged, henter.calm, hicount ▸ henter.le_handler⟩

lemma injectAtBoundary_steady (vector budget : ℕ)
    (h : s.rail.Logged) (hcalm : ¬pending s.rail.machine) :
    (injectAtBoundary P req fuel vector budget s).Post
      (fun s' => s'.rail.Logged ∧
        s'.rail.icount ≤ s.rail.icount + if P.injectable s.rail.machine then 0 else budget)
      (Throws RunError.Steady) := by
  induction budget generalizing s with
  | zero =>
    unfold injectAtBoundary
    split_ifs
    · exact (queueVector_steady vector h).imp (fun _ h => ⟨h.1, h.2.le⟩)
    · exact throws_error trivial
  | succ budget ih =>
    unfold injectAtBoundary
    split_ifs
    · exact (queueVector_steady vector h).imp (fun _ h => ⟨h.1, h.2.le⟩)
    · have hclear : Clear pending handler (s.rail.icount + 1) s :=
        ⟨h, .inl ⟨hcalm, Nat.le_succ _⟩⟩
      refine (landAt_steady hstep hclear).andThen ?_
      rintro s1 - ⟨hlogged, hcalm1, hicount⟩
      refine (ih hlogged hcalm1).imp ?_
      rintro s2 ⟨hlogged2, hle⟩
      refine ⟨hlogged2, ?_⟩
      split_ifs at hle <;> omega

lemma deliver_rest_steady (timerSlot : Option ℕ)
    (vectors : List (ℕ × Option ℕ)) (h : s.rail.Logged) :
    (deliver P req fuel timerSlot false vectors s).Post
      (fun s' => s'.rail.Logged ∧
        s'.rail.icount ≤ s.rail.icount + vectors.length * (handler + injectDeferBudget))
      (Throws RunError.Steady) := by
  induction vectors generalizing s with
  | nil => exact ⟨h, Nat.le_add_right _ _⟩
  | cons v rest ih =>
    refine (stepOneEntry_steady hstep h).andThen ?_
    rintro s1 - ⟨hlogged1, hcalm1, hle1⟩
    refine (injectAtBoundary_steady hstep v.1 injectDeferBudget hlogged1 hcalm1).andThen ?_
    rintro s2 - ⟨hlogged2, hle2⟩
    refine (noteDelivery_steady timerSlot v.2 v.1 s2).andThen ?_
    intro s3 _ hrail
    refine (ih (hrail ▸ hlogged2)).imp ?_
    rintro s' ⟨hlogged, hle⟩
    refine ⟨hlogged, ?_⟩
    rw [hrail] at hle
    rw [List.length_cons, Nat.succ_mul]
    split_ifs at hle2 <;> omega

end

/-- How far past its point the vectors of a point can carry the counter, their
handlers included. -/
def settling (P : Platform H σ X) (handler : ℕ) (vectors : List (ℕ × Option ℕ))
    (s : Seg H σ τ) : ℕ :=
  (if P.injectable s.rail.machine then 0 else injectDeferBudget) +
    (vectors.length - 1) * (handler + injectDeferBudget) + handler

lemma deliver_steady (hstep : Stepping P pending handler) (timerSlot : Option ℕ)
    (vectors : List (ℕ × Option ℕ)) (h : s.rail.Logged) (hcalm : ¬pending s.rail.machine) :
    (deliver P req fuel timerSlot true vectors s).Post
      (fun s' => s'.rail.Logged ∧ (vectors = [] → s' = s) ∧
        s'.rail.icount + handler ≤ s.rail.icount + settling P handler vectors s)
      (Throws RunError.Steady) := by
  cases vectors with
  | nil => exact ⟨h, fun _ => rfl, by unfold settling; omega⟩
  | cons v rest =>
    refine (injectAtBoundary_steady hstep v.1 injectDeferBudget h hcalm).andThen ?_
    rintro s1 - ⟨hlogged1, hle1⟩
    refine (noteDelivery_steady timerSlot v.2 v.1 s1).andThen ?_
    intro s2 _ hrail
    refine (deliver_rest_steady hstep timerSlot rest (hrail ▸ hlogged1)).imp ?_
    rintro s' ⟨hlogged, hle⟩
    refine ⟨hlogged, fun hnil => absurd hnil (List.cons_ne_nil v rest), ?_⟩
    rw [hrail] at hle
    rw [settling, List.length_cons, Nat.add_sub_cancel]
    omega

end Flights

section Points

variable {P : Platform H σ X} {req : RunRequest H σ τ} {pending : σ → Prop} {handler fuel : ℕ}
  {s s' : Seg H σ τ}

def SinksAtCount (req : RunRequest H σ τ) : Prop :=
  ∀ index icount value w, lastIcount w.1.records ≤ icount →
    (req.epochSink index icount value w).Post (fun w' => lastIcount w'.1.records ≤ icount)
      BoundaryError.Steady

/-- Room at a point: its EPOCH_HASH waits for no deferral, and the counter can
settle before the next landing. -/
structure SpacedAt (P : Platform H σ X) (req : RunRequest H σ τ) (handler : ℕ) (p : StopPoint)
    (next : ℕ) (s : Seg H σ τ) (vectors : List (ℕ × Option ℕ)) : Prop where
  hashed : hashedAt req p = true → Prompt P vectors s
  onward : vectors ≠ [] → p.finalStop = none → req.pause p.icount = false →
    p.icount + settling P handler vectors s ≤ next
  rolled : vectors ≠ [] → p.finalStop = none → req.pause p.icount = true →
    p.epochHash = false → p.icount + settling P handler vectors s ≤ pauseTarget P p.icount

lemma applyInputs_steady (hstep : Stepping P pending handler) (at_ : Boundary)
    (indices : List ℕ) (h : s.rail.Logged) (hat : at_.icount = s.rail.icount) :
    (applyInputs P req at_ indices s).Post (fun w => Keeps pending s.rail w.1.rail)
      (Throws RunError.Steady) := by
  induction indices generalizing s with
  | nil => exact .refl h
  | cons index rest ih =>
    unfold applyInputs
    cases req.inputs[index]? with
    | none => exact throws_error trivial
    | some input =>
      rw [hat]
      refine (lift_steady (applyInput_steady hstep h input.kind at_.rip)).andThen ?_
      rintro ⟨r, vector⟩ - hkeeps
      refine (ih (s := { s with rail := r, consumed := s.consumed ++ [input] }) hkeeps.logged
        (hat.trans hkeeps.icount_eq.symm)).andThen ?_
      rintro ⟨s1, vectors⟩ - hrest
      exact hkeeps.trans hrest

lemma clockAt_steady (icount : ℕ) :
    (clockAt P icount : Flight H σ τ ℕ).Post (fun _ => True) (Throws RunError.Steady) := by
  unfold clockAt
  cases P.config.clock.vnsFromIcount icount with
  | some vns => exact trivial
  | none => exact throws_error trivial

lemma sinkEpoch_steady (hsink : SinksAtCount req) {icount : ℕ}
    (h : lastIcount s.rail.log.records ≤ icount) (hle : icount ≤ s.rail.icount) :
    (sinkEpoch P req icount s).Post
      (fun s' => s'.rail.Logged ∧ s'.rail.icount = s.rail.icount ∧ s'.rail.machine = s.rail.machine)
      (Throws RunError.Steady) := by
  refine (lift_steady (hsink _ icount s.chain (s.rail.log, s.caller) h)).andThen ?_
  rintro ⟨log, caller⟩ - hlast
  exact ⟨hlast.trans hle, rfl, rfl⟩

variable {p : StopPoint}

lemma pauseAt_steady (hstep : Stepping P pending handler) (hsink : SinksAtCount req)
    (fuel : ℕ) (boundary : Boundary) (vns : ℕ)
    (h : p.epochHash = false → Clear pending handler (pauseTarget P p.icount) s) :
    (pauseAt P req fuel p boundary vns s).Post (fun _ => True) (Throws RunError.Steady) := by
  unfold pauseAt
  by_cases hepoch : p.epochHash = true
  · rw [if_pos hepoch]
    exact trivial
  · rw [if_neg hepoch]
    refine (landAt_steady hstep (h (by simpa using hepoch))).andThen ?_
    rintro s1 - ⟨hlogged, -, -⟩
    refine (clockAt_steady _).andThen ?_
    intro vns' _ _
    have hlink : (if P.config.hashEpochs = .epochsOn ∨ req.options.paranoidHash = true then
        sinkEpoch P req (s1.rail.boundary P).icount
          (s1.pushLink P (s1.rail.boundary P).icount vns')
        else .ok (s1.pushLink P (s1.rail.boundary P).icount vns')).Post (fun _ => True)
          (Throws RunError.Steady) := by
      split_ifs
      · exact (sinkEpoch_steady (s := s1.pushLink P (s1.rail.boundary P).icount vns') hsink hlogged
          le_rfl).imp (fun _ _ => trivial)
      · exact trivial
    exact hlink.andThen (fun _ _ _ => trivial)

lemma afterPoint_steady (hstep : Stepping P pending handler) (hsink : SinksAtCount req)
    {next : ℕ} (boundary : Boundary) (vns : ℕ) (hashed : Bool)
    (hon : p.finalStop = none → req.pause p.icount = false → Clear pending handler next s)
    (hroll : p.finalStop = none → req.pause p.icount = true → p.epochHash = false →
      Clear pending handler (pauseTarget P p.icount) s) :
    (afterPoint P req fuel p boundary vns hashed s).Post
      (fun res => ∀ s', res = .inl s' → Clear pending handler next s')
      (Throws RunError.Steady) := by
  unfold afterPoint
  by_cases hgoal : (p.goalPoll && req.goal s.rail.machine) = true
  · rw [if_pos hgoal]
    exact nofun
  · rw [if_neg hgoal]
    cases hfinal : p.finalStop with
    | some kind => cases kind <;> exact nofun
    | none =>
      by_cases hpause : req.pause p.icount = true
      · rw [if_pos hpause]
        have hsteady := pauseAt_steady hstep hsink fuel boundary vns
          (hroll hfinal hpause)
        cases hres : pauseAt P req fuel p boundary vns s with
        | ok out => exact nofun
        | error u => exact hsteady.of_error hres
      · rw [if_neg hpause]
        intro s' hs'
        exact Sum.inl.inj hs' ▸ hon hfinal (by simpa using hpause)

/-- A point with room: no landing of it overshoots, no append of it falls
behind, and the way to the next point is clear. -/
lemma atPoint_steady (hstep : Stepping P pending handler) (hsink : SinksAtCount req)
    {injections : List ScheduledInjection} (timerSlot : Option ℕ) (next : ℕ)
    (hclear : Clear pending handler p.icount s) (hnext : p.finalStop = none → p.icount ≤ next)
    (hspaced : ∀ s1 queued, Poised P req fuel p s s1 queued →
      SpacedAt P req handler p next s1 (dueVectors injections queued p)) :
    (atPoint P req fuel injections timerSlot p s).Post
      (fun res => ∀ s', res = .inl s' → Clear pending handler next s')
      (Throws RunError.Steady) := by
  refine (landAt_steady hstep hclear).andThen ?_
  rintro s1 hland ⟨hlogged1, hcalm1, hat1⟩
  refine (applyInputs_steady hstep (s1.rail.boundary P) p.inputs hlogged1 rfl).andThen ?_
  rintro ⟨s2, queued⟩ happly hkeeps
  have hat2 : s2.rail.icount = p.icount := hkeeps.icount_eq.trans hat1
  have hcalm2 : ¬pending s2.rail.machine := hcalm1 ∘ hkeeps.pending_of
  have hroom := hspaced s2 queued ⟨s1, hland, happly⟩
  refine (deliver_steady hstep timerSlot (dueVectors injections queued p) hkeeps.logged
    hcalm2).andThen ?_
  rintro s3 hdeliver ⟨hlogged3, hnone, hsettled⟩
  rw [hat2] at hsettled
  refine (clockAt_steady _).andThen ?_
  intro vns _ _
  have hlink : (if hashedAt req p then sinkEpoch P req p.icount (s3.pushLink P p.icount vns)
      else .ok s3).Post (fun s4 => s4.rail.Logged ∧ s4.rail.icount = s3.rail.icount ∧
        s4.rail.machine = s3.rail.machine) (Throws RunError.Steady) := by
    split_ifs with hhashed
    · have hstand : s3.rail.icount = p.icount :=
        ((deliver_prompt (hroom.hashed hhashed)).of_ok hdeliver).trans hat2
      exact sinkEpoch_steady (s := s3.pushLink P p.icount vns) hsink (hstand ▸ hlogged3)
        hstand.ge
    · exact ⟨hlogged3, rfl, rfl⟩
  refine hlink.andThen ?_
  rintro s4 - ⟨hlogged4, hicount4, hmachine4⟩
  -- the counter settles before `t` if the vectors have room, and stands still without any
  have hway {t : ℕ} (hle : p.icount ≤ t) (hsettle : dueVectors injections queued p ≠ [] →
      p.icount + settling P handler (dueVectors injections queued p) s2 ≤ t) :
      Clear pending handler t s4 := by
    refine ⟨hlogged4, ?_⟩
    rw [hicount4, hmachine4]
    by_cases hvectors : dueVectors injections queued p = []
    · rw [hnone hvectors, hat2]
      exact .inl ⟨hcalm2, hle⟩
    · exact .inr (hsettled.trans (hsettle hvectors))
  apply afterPoint_steady hstep hsink
  · intro hfinal hpause
    exact hway (hnext hfinal) fun hvectors => hroom.onward hvectors hfinal hpause
  · intro hfinal hpause hepoch
    exact hway (le_pauseTarget P p.icount) fun hvectors =>
      hroom.rolled hvectors hfinal hpause hepoch

end Points

section Runs

variable {P : Platform H σ X} {req : RunRequest H σ τ} {pending : σ → Prop} {handler fuel : ℕ}
  {rail : Rail H σ} {chain : H} {caller : τ}

def Spaced (P : Platform H σ X) (fuel : ℕ) (req : RunRequest H σ τ) (rail : Rail H σ) (chain : H)
    (caller : τ) (handler : ℕ) : Prop :=
  ∀ p rest s vectors, ComesTo P fuel req rail chain caller p rest s vectors →
    SpacedAt P req handler p rest.nextIcount s vectors

lemma Walks.clear {injections : List ScheduledInjection} {timerSlot : Option ℕ}
    {it : AgendaIter} {k : ℕ} {w : AgendaIter × Seg H σ τ}
    (h : Walks P fuel req rail chain caller injections timerSlot it k w)
    (hstep : Stepping P pending handler) (hsink : SinksAtCount req) (hlogged : rail.Logged)
    (hcalm : ¬pending rail.machine) (hspaced : Spaced P fuel req rail chain caller handler) :
    Clear pending handler w.1.nextIcount w.2 := by
  have hstart : Clear pending handler it.nextIcount (startSeg req rail chain caller) := by
    refine ⟨hlogged, .inl ⟨hcalm, ?_⟩⟩
    exact h.start_eq.le.trans (agenda_window h.new_eq).1.cur_le_nextIcount
  obtain ⟨-, -, -, -, -, -, hclear⟩ := h.induct
    (I := fun _ w _ _ _ _ _ => Clear pending handler w.1.nextIcount w.2) hstart <| by
      intro k w cur ds inputs vectors links p it' s' vns ds' done hwalks hprogress hclear hnext
        hfinal _ _ _ hturn
      have hpoint : atPoint P req fuel injections timerSlot p w.2 = .ok (.inl s') := by
        simp only [walkStep, hnext] at hturn
        split at hturn
        · rename_i s1 hres
          cases hturn
          exact hres
        · cases hturn
        · cases hturn
      have hsteady := atPoint_steady hstep hsink timerSlot it'.nextIcount
        (AgendaIter.icount_of_next hnext ▸ hclear)
        (fun _ => (hprogress.window.rest_of_next hnext hfinal).2.cur_le_nextIcount)
        fun s1 queued hpoised => hspaced p it' s1 _ ⟨_, _, _, _, _, _, hwalks, hnext, hpoised, rfl⟩
      exact hsteady.of_ok hpoint s' rfl
  exact hclear

/-- A spaced run fails neither by overshooting nor behind the watermark. -/
theorem spaced_run_steady (hstep : Stepping P pending handler) (hsink : SinksAtCount req)
    (hlogged : rail.Logged) (hcalm : ¬pending rail.machine)
    (hspaced : Spaced P fuel req rail chain caller handler) : (∀ target counted,
      runSegment P fuel req rail chain caller ≠ .error (.boundary (.overshoot target counted))) ∧
    ∀ what,
      runSegment P fuel req rail chain caller ≠
        .error (.boundary (.append what .icountRegressed)) := by
  have hsteady {e : RunError H} (h : runSegment P fuel req rail chain caller = .error e) :
      e.Steady := by
    rcases runSegment_fails h with ⟨message, rfl, -⟩ | rfl | rfl | rfl |
      ⟨injections, timerSlot, it, k, w, p, it', hwalks, hnext, hpoint⟩
    · exact trivial
    · exact trivial
    · exact trivial
    · exact trivial
    · obtain ⟨cur, ds, inputs, vectors, links, hprogress⟩ := hwalks.progress
      have hclear := hwalks.clear hstep hsink hlogged hcalm hspaced
      have hpost := atPoint_steady hstep hsink timerSlot it'.nextIcount
        (AgendaIter.icount_of_next hnext ▸ hclear)
        (fun hfinal => (hprogress.window.rest_of_next hnext hfinal).2.cur_le_nextIcount)
        fun s1 queued hpoised => hspaced p it' s1 _ ⟨_, _, _, _, _, _, hwalks, hnext, hpoised, rfl⟩
      exact hpost.of_error hpoint e rfl
  exact ⟨fun target counted h => hsteady h, fun what h => hsteady h rfl⟩

lemma sinksAtCount_recordRequest (call : RunCall) (rt : Recording H σ) :
    SinksAtCount (recordRequest call rt) := by
  intro index icount value w hlast
  have hrecord := LogWriter.record_steady hlast 0 (.epochHash index value)
  change (logEpochHash index icount value w).Post _ _
  unfold logEpochHash
  cases hres : w.1.record icount 0 (.epochHash index value) with
  | ok log => exact (hrecord.of_ok hres).le
  | error e => exact hrecord.of_error hres

lemma stepping_counting (epochLen : ℕ) : Stepping (counting epochLen) (fun _ => False) 1 where
  handler_pos := Nat.one_pos
  debug := by
    rintro m m' retired ⟨⟩
    exact ⟨id, le_rfl, fun _ => le_rfl⟩
  hlt := fun _ h => h
  frameCounter := fun _ h => h
  device := fun _ h => h
  service := fun _ h => h
  padSet := fun _ h => h
  netRx := fun _ h => h

/-- One vector of an open window between two epochs. -/
theorem spaced_run_counting :
    Spaced (counting 10) 50 (injectedRun (counting 10) (.icountBudget 20) [⟨3, 64⟩])
      (freshCount (counting 10)).rail [] () 1 ∧ ∀ target counted,
      runSegment (counting 10) 50 (injectedRun (counting 10) (.icountBudget 20) [⟨3, 64⟩])
        (freshCount (counting 10)).rail [] () ≠ .error (.boundary (.overshoot target counted)) := by
  have hspaced : Spaced (counting 10) 50
      (injectedRun (counting 10) (.icountBudget 20) [⟨3, 64⟩])
      (freshCount (counting 10)).rail [] () 1 := by
    intro p rest s vectors hcomes
    have hsettle : settling (counting 10) 1 vectors s = 1 := by
      have hlength := hcomes.length_le (counting_quiet 10) rfl
      have hone : vectors.length - 1 = 0 := Nat.sub_eq_zero_of_le hlength
      rw [settling, hone]
      rfl
    refine ⟨fun _ => ?_, fun _ hfinal _ => ?_, fun _ _ hpause => ?_⟩
    · exact hcomes.prompt_of_open (counting_quiet 10) rfl (by decide) fun _ => rfl
    · rw [hsettle]
      obtain ⟨injections, timerSlot, it, k, w, queued, hwalks, hnext, -, -⟩ := hcomes
      obtain ⟨cur, ds, inputs, done, links, hprogress⟩ := hwalks.progress
      obtain ⟨hlt, hwindow⟩ := hprogress.window.rest_of_next hnext hfinal
      rw [← (hprogress.window.yields_of_next hnext).rest_final] at hlt
      exact hwindow.cur_lt_nextIcount hlt
    · cases hpause
  have hsink : SinksAtCount (injectedRun (counting 10) (.icountBudget 20) [⟨3, 64⟩]) :=
    sinksAtCount_recordRequest { stop := .icountBudget 20 } (freshCount (counting 10))
  exact ⟨hspaced, (spaced_run_steady (stepping_counting 10) hsink le_rfl id hspaced).1⟩

/-- A guest that logs while its window is closed: it opens at 13, and an exit
at 12 writes an ENTROPY record. -/
def lateWindow : Platform LinkTrace ℕ (List Emit) :=
  { scripted 10 (fun s => if s = 12 then .device [.entropy 8 0] 100
      else if s = 100 then .debug 1 13 else .debug 1 (s + 1)) (fun s => (s, [])) with
    injectable := fun s => decide (13 ≤ s ∧ s < 100) }

/-- The deferral from 5 to the open window at 9 passes the next point at 7; and
an exit on the way logs before the EPOCH_HASH of the point at 10. -/
theorem deferral_breaks_run :
    (runSegment (masked 10 9) 50
        (injectedRun (masked 10 9) (.icountBudget 20) [⟨5, 64⟩, ⟨7, 65⟩])
        (freshCount (masked 10 9)).rail [] ()).map (fun _ => ()) =
      .error (.boundary (.overshoot 7 9)) ∧
    (runSegment lateWindow 50 (injectedRun lateWindow (.icountBudget 20) [⟨10, 64⟩])
        (freshCount lateWindow).rail [] ()).map (fun _ => ()) =
      .error (.boundary (.append "epoch log" .icountRegressed)) := by
  decide +kernel

end Runs

end DetHypervisor
