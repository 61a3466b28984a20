import DetHypervisor.Delivery
import DetHypervisor.Sessions

/-!
# Who moves the machine

During a segment the machine is changed by the vCPU, inside a VM entry, and by the host at an
exit, an input or a vector. Nothing touches the header of the log.
-/

namespace DetHypervisor

variable {H σ X τ : Type}

def VcpuExit.state? : VcpuExit σ X → Option σ
  | .debug _ s | .hlt s | .frameCounter _ s | .frameCounterWidth s | .device _ s => some s
  | .kvmError _ => none

def VcpuStep (P : Platform H σ X) (s s' : σ) : Prop := (P.run s).state? = some s'

/-- One change made through the host mapping or the device models. -/
inductive HostStep (P : Platform H σ X) : σ → σ → Prop
  | service {icount : ℕ} {q : Request X} {s s' : σ} {es : List Emit}
      (h : P.service icount q s = .ok (s', es)) : HostStep P s s'
  | padSet {port buttons : ℕ} {s s' : σ} {vector : Option ℕ}
      (h : P.applyPadSet port buttons s = .ok (s', vector)) : HostStep P s s'
  | netRx {frame : List UInt8} {s s' : σ} {vector : Option ℕ}
      (h : P.applyNetRx frame s = .ok (s', vector)) : HostStep P s s'
  | interrupt (vector : ℕ) (s : σ) : HostStep P s (P.queueInterrupt vector s)

def MachineStep (P : Platform H σ X) (s s' : σ) : Prop := VcpuStep P s s' ∨ HostStep P s s'

/-- The rail has gone on: its machine by steps, its log under the same header. -/
structure Drifts (P : Platform H σ X) (r r' : Rail H σ) : Prop where
  moves : Relation.ReflTransGen (MachineStep P) r.machine r'.machine
  header_eq : r'.log.header = r.log.header

namespace Drifts

variable {P : Platform H σ X} {r r1 r' : Rail H σ}

lemma refl (r : Rail H σ) : Drifts P r r := ⟨.refl, rfl⟩

lemma trans (h : Drifts P r r1) (h' : Drifts P r1 r') : Drifts P r r' :=
  ⟨h.moves.trans h'.moves, h'.header_eq.trans h.header_eq⟩

lemma vcpu (h : VcpuStep P r.machine r'.machine) (hlog : r'.log = r.log) : Drifts P r r' :=
  ⟨.single (.inl h), congrArg LogWriter.header hlog⟩

lemma host (h : HostStep P r.machine r'.machine) (hheader : r'.log.header = r.log.header) :
    Drifts P r r' := ⟨.single (.inr h), hheader⟩

end Drifts

section Rails

variable {P : Platform H σ X} {r r' : Rail H σ} {es : List Emit} {icount rip : ℕ}

lemma drifts_of_service {q : Request X} (h : r.service P icount q = .ok (r', es)) :
    Drifts P r r' := by
  obtain ⟨-, marks, new, happended, -⟩ := Rail.service_spec h
  exact .host (.service (Rail.service_machine h)) happended.header_eq

lemma drifts_of_drainAtPause {n : ℕ} (h : r.drainAtPause P n = .ok (r', es)) : Drifts P r r' := by
  unfold Rail.drainAtPause at h
  split_ifs at h
  · exact drifts_of_service h
  · cases h
    exact .refl r

lemma drifts_of_applyInput {kind : InputKind} {vector : Option ℕ}
    (h : r.applyInput P kind icount rip = .ok (r', vector)) : Drifts P r r' := by
  have hheader := (Rail.applyInput_spec h).2.header_eq
  have heffect := Rail.applyInput_machine h
  cases kind with
  | padSet port buttons frameHint =>
    exact .host (.padSet (Except.mapError_eq_ok.mp heffect)) hheader
  | netRx frame => exact .host (.netRx (Except.mapError_eq_ok.mp heffect)) hheader
  | devEvent deviceId eventType payload =>
    obtain ⟨hmachine, -⟩ := Prod.mk.inj (Except.ok.inj heffect)
    exact ⟨hmachine ▸ .refl, hheader⟩

lemma Applied.drifts {kinds : List InputKind} (h : Applied P icount rip kinds r r') :
    Drifts P r r' := by
  induction kinds generalizing r with
  | nil =>
    obtain rfl : r' = r := h
    exact .refl _
  | cons kind rest ih =>
    obtain ⟨r1, happly, hrest⟩ := h
    exact (drifts_of_applyInput happly).trans (ih hrest)

lemma drifts_of_enter (h : (enter P r).rail? = some r') : Drifts P r r' := by
  have hvcpu {e : VcpuExit σ X} (r1 : Rail H σ) (hrun : P.run r.machine = e)
      (hstate : e.state? = some r1.machine) (hlog : r1.log = r.log) : Drifts P r r1 :=
    .vcpu (by rw [VcpuStep, hrun, hstate]) hlog
  generalize hentered : enter P r = entered at h
  cases hentered ▸ enters P r with
  | stepped hrun | halted hrun =>
    cases h
    exact hvcpu _ hrun rfl rfl
  | @serviced exit s _ _ hrun hservice | @frame frame s _ _ hrun hservice =>
    cases h
    exact (hvcpu { r with machine := s } hrun rfl rfl).trans (drifts_of_service hservice)
  | failed => cases h

end Rails

section Segments

variable {P : Platform H σ X} {req : RunRequest H σ τ} {s s' : Seg H σ τ}

lemma drifts_of_holdFrame {frame : ℕ} (h : holdFrame P req frame s = .ok s') :
    Drifts P s.rail s'.rail := by
  obtain ⟨-, -, -, -, kinds, happlied, -⟩ := holdFrame_eq_ok h
  exact happlied.drifts

lemma drifts_of_onEntered {e : Entered H σ} (h : segOf? (onEntered P req s e) = some s') :
    ∃ r, e.rail? = some r ∧ Drifts P r s'.rail := by
  cases e with
  | stepped r | halted r =>
    cases h
    exact ⟨r, rfl, .refl r⟩
  | failed e => cases h
  | serviced r es =>
    have hs := Option.some.inj (segOf_checkSdkFeed.symm.trans h)
    subst hs
    exact ⟨r, rfl, .refl r⟩
  | frame frame r es => exact ⟨r, rfl, drifts_of_holdFrame (segOf_onEntered_frame h)⟩

lemma drifts_of_entry (h : segOf? (onEntered P req s (enter P s.rail)) = some s') :
    Drifts P s.rail s'.rail := by
  obtain ⟨r, hr, hdrifts⟩ := drifts_of_onEntered h
  exact (drifts_of_enter hr).trans hdrifts

def KeepsHeader (req : RunRequest H σ τ) : Prop :=
  ∀ index icount value w w', req.epochSink index icount value w = .ok w' →
    w'.1.header = w.1.header

variable {timerSlot : Option ℕ}

/-- Only the epoch sink can touch more of the log than its records, and it leaves the machine. -/
lemma Does.drifts_or_sunk {d : Deed} (h : Does P req timerSlot d s s') :
    Drifts P s.rail s'.rail ∨
      s'.rail.machine = s.rail.machine ∧ ∃ icount, sinkEpoch P req icount s = .ok s' := by
  cases h with
  | entry h =>
    apply Or.inl ∘ drifts_of_entry
    rw [h]
    rfl
  | leave h hu =>
    apply Or.inl ∘ drifts_of_entry
    rw [h]
    exact hu
  | input hindex h => exact .inl (drifts_of_applyInput h)
  | vector hopen h hnote =>
    rw [noteDelivery_rail hnote, queueVector_eq_ok h]
    exact .inl (.host (.interrupt _ _) rfl)
  | link icount vns => exact .inl (.refl _)
  | sink h =>
    refine .inr ⟨?_, _, h⟩
    obtain ⟨w, -, h⟩ := Except.bind_eq_ok.mp h
    cases h
    rfl

lemma Does.drifts {d : Deed} (hsink : KeepsHeader req)
    (h : Does P req timerSlot d s s') : Drifts P s.rail s'.rail := by
  obtain hdrifts | ⟨-, icount, hsunk⟩ := h.drifts_or_sunk
  · exact hdrifts
  · obtain ⟨w, hepoch, hok⟩ := Except.bind_eq_ok.mp hsunk
    cases hok
    exact ⟨.refl, hsink _ _ _ _ _ (Flight.lift_eq_ok.mp hepoch)⟩

/-- Whatever the caller's sinks do, a run moves the machine by steps of the platform only. -/
lemma moves_of_runSegment {fuel : ℕ} {rail : Rail H σ} {chain : H} {caller : τ}
    {out : SegmentOutcome H} (h : runSegment P fuel req rail chain caller = .ok (out, s')) :
    Relation.ReflTransGen (MachineStep P) rail.machine s'.rail.machine := by
  obtain ⟨ds, -, htraced, -⟩ := runSegment_deliveries h
  refine htraced.invariant
    (I := fun s => Relation.ReflTransGen (MachineStep P) rail.machine s.rail.machine)
    (fun _ _ _ _ hdoes hmoves => ?_) .refl
  obtain hdrifts | ⟨hsame, -⟩ := hdoes.drifts_or_sunk
  · exact hmoves.trans hdrifts.moves
  · rwa [hsame]

lemma drifts_of_traced {ds : List Deed} (hsink : KeepsHeader req)
    (h : Traced (Does P req timerSlot) ds s s') : Drifts P s.rail s'.rail :=
  h.invariant (I := fun s1 => Drifts P s.rail s1.rail)
    (fun _ _ _ _ hdoes hdrifts => hdrifts.trans (hdoes.drifts hsink)) (.refl _)

end Segments

lemma keepsHeader_recordRequest (call : RunCall) (rec : Recording H σ) :
    KeepsHeader (recordRequest call rec) := by
  rintro index icount value ⟨log, caller⟩ w' h
  change logEpochHash index icount value (log, caller) = .ok w' at h
  unfold logEpochHash at h
  split at h
  · rename_i log' hrecord
    cases h
    exact (LogWriter.appended_of_record hrecord).header_eq
  · cases h

lemma drifts_of_driveRecordedRun {P : Platform H σ X} {fuel : ℕ} {call : RunCall}
    {rec rec' : Recording H σ} {out : SegmentOutcome H}
    (h : driveRecordedRun P fuel call rec = .ok (out, rec')) : Drifts P rec.rail rec'.rail := by
  obtain ⟨s, rail, es, hrun, hdrain, rfl⟩ := driveRecordedRun_eq_ok h
  obtain ⟨ds, vectors, htraced, -⟩ := runSegment_deliveries hrun
  exact (drifts_of_traced (keepsHeader_recordRequest call rec) htraced).trans
    (drifts_of_drainAtPause hdrain)

end DetHypervisor
