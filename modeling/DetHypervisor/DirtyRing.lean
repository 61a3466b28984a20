import DetHypervisor.Lib.Capped
import DetHypervisor.MachineMoves

/-!
# The dirty ring

While the ring is full, KVM leaves guest mode with `KVM_EXIT_DIRTY_RING_FULL`. Nothing empties
the ring during a run, and no exit handler has an arm for that exit. Only the slots of the worker
log their dirty pages: `VerifyReplay` runs on a memslot without the flag, so its ring stays empty.
-/

namespace DetHypervisor

open Except

variable {H σ X τ : Type}

/-- A machine with its dirty ring. `peak` is a ghost: the longest ring that a
VM entry of the run has started with. -/
structure Tracked (σ : Type) where
  machine : σ
  ring : List ℕ
  peak : ℕ
  deriving DecidableEq

def publish (ring : List ℕ) (pages : List ℕ) : List ℕ :=
  pages.foldl (fun ring page => if page ∈ ring then ring else ring ++ [page]) ring

def Tracked.entered (t : Tracked σ) (pages : List ℕ) (m : σ) : Tracked σ :=
  ⟨m, publish t.ring pages, max t.peak t.ring.length⟩

def VcpuExit.map {σ' X' : Type} (f : σ → σ') (g : X → X') : VcpuExit σ X → VcpuExit σ' X'
  | .debug retired s => .debug retired (f s)
  | .hlt s => .hlt (f s)
  | .frameCounter frame s => .frameCounter frame (f s)
  | .frameCounterWidth s => .frameCounterWidth (f s)
  | .device exit s => .device (g exit) (f s)
  | .kvmError message => .kvmError message

/-- A legal ring: a power of two above the entries the kernel reserves. -/
structure RingSize where
  entries : ℕ
  power : ∃ k, entries = 2 ^ k
  floor : 576 < entries

/-- KVM leaves guest mode from this many published pages on: 64 entries and the
512 of the page-modification log stay in reserve. -/
@[irreducible]
def RingSize.softLimit (size : RingSize) : ℕ := size.entries - 576

lemma RingSize.softLimit_pos (size : RingSize) : 0 < size.softLimit := by
  unfold softLimit
  exact Nat.sub_pos_of_lt size.floor

/-- `unexpected exit: {other:?}`, what `service_exit` answers for the exit. -/
def ringFullMessage : String := "unexpected exit: Unsupported(31)"

/-- The memory of a slot. `writes` are the pages the next VM entry writes; KVM publishes them
under `KVM_MEM_LOG_DIRTY_PAGES`, which `enable_dirty_logging` sets. -/
structure Memslot (σ : Type) where
  logging : Bool
  writes : σ → List ℕ

def Memslot.dirties (slot : Memslot σ) (s : σ) : List ℕ :=
  if slot.logging then slot.writes s else []

/-- A guest on a machine with a dirty ring, or with an unlimited one. -/
def ringed (P : Platform H σ X) (slot : Memslot σ) (size : Option RingSize) :
    Platform H (Tracked σ) (Option X) where
  config := P.config
  run := fun t =>
    if size.any fun size => decide (size.softLimit ≤ t.ring.length) then .device none t
    else (P.run t.machine).map (t.entered (slot.dirties t.machine)) some
  rip := fun t => P.rip t.machine
  frameCounter := fun t => P.frameCounter t.machine
  detchannel := P.detchannel
  service := fun icount q t =>
    match q with
    | .exit none => .error ringFullMessage
    | .exit (some exit) =>
      (P.service icount (.exit exit) t.machine).map fun w => ({ t with machine := w.1 }, w.2)
    | .frameCounter frame =>
      (P.service icount (.frameCounter frame) t.machine).map fun w =>
        ({ t with machine := w.1 }, w.2)
    | .pauseDrain =>
      (P.service icount .pauseDrain t.machine).map fun w => ({ t with machine := w.1 }, w.2)
  service_channel := by
    intro icount q t t' es h hchannel
    split at h
    · cases h
    all_goals
      obtain ⟨w, hw, hpair⟩ := Except.map_eq_ok.mp h
      cases hpair
      exact P.service_channel hw hchannel
  applyPadSet := fun port buttons t =>
    (P.applyPadSet port buttons t.machine).map fun w => ({ t with machine := w.1 }, w.2)
  applyNetRx := fun frame t =>
    (P.applyNetRx frame t.machine).map fun w => ({ t with machine := w.1 }, w.2)
  padIrqVector := fun t => P.padIrqVector t.machine
  netRxVector := fun t => P.netRxVector t.machine
  injectable := fun t => P.injectable t.machine
  queueInterrupt := fun vector t => { t with machine := P.queueInterrupt vector t.machine }
  seedEntropy := fun seed t => { t with machine := P.seedEntropy seed t.machine }
  image := fun t => P.image t.machine
  link := P.link

@[simp]
lemma ringed_config (P : Platform H σ X) (slot : Memslot σ) (size : Option RingSize) :
    (ringed P slot size).config = P.config := rfl

section Entry

variable {P : Platform H σ X} {slot : Memslot σ} {size : RingSize}
  {r r' : Rail H (Tracked σ)}

lemma enter_of_room (h : r.machine.ring.length < size.softLimit) :
    enter (ringed P slot (some size)) r = enter (ringed P slot none) r := by
  have hrun : (ringed P slot (some size)).run r.machine =
      (ringed P slot none).run r.machine := by
    simp [ringed, Nat.not_le.mpr h]
  unfold enter
  rw [hrun]
  rfl

lemma enter_of_full (h : size.softLimit ≤ r.machine.ring.length) :
    enter (ringed P slot (some size)) r = .failed (.exit ringFullMessage) := by
  have hrun : (ringed P slot (some size)).run r.machine = .device none r.machine := by
    simp [ringed, h]
  unfold enter
  rw [hrun]
  rfl

lemma service_peak {icount : ℕ} {q : Request (Option X)} {es : List Emit}
    (h : r.service (ringed P slot none) icount q = .ok (r', es)) :
    r'.machine.peak = r.machine.peak := by
  have hservice := Rail.service_machine h
  have hmap {x : Except String (σ × List Emit)}
      (h : (x.map fun w => (({ r.machine with machine := w.1 } : Tracked σ), w.2)) =
        .ok (r'.machine, es)) : r'.machine.peak = r.machine.peak := by
    obtain ⟨w, -, hpair⟩ := map_eq_ok.mp h
    exact congrArg (·.1.peak) hpair.symm
  cases q with
  | exit e =>
    cases e with
    | none => cases hservice
    | some exit => exact hmap hservice
  | frameCounter | pauseDrain => exact hmap hservice

lemma applyInput_peak {kind : InputKind} {icount rip : ℕ} {vector : Option ℕ}
    (h : r.applyInput (ringed P slot none) kind icount rip = .ok (r', vector)) :
    r'.machine.peak = r.machine.peak := by
  have heffect := Rail.applyInput_machine h
  have hmap {x : Except String (σ × Option ℕ)}
      (h : (x.map fun w => (({ r.machine with machine := w.1 } : Tracked σ), w.2)).mapError .exit =
        (.ok (r'.machine, vector) : Except (BoundaryError H) _)) :
      r'.machine.peak = r.machine.peak := by
    obtain ⟨w, -, hpair⟩ := map_eq_ok.mp (mapError_eq_ok.mp h)
    exact congrArg (·.1.peak) hpair.symm
  cases kind with
  | padSet | netRx => exact hmap heffect
  | devEvent => exact congrArg (·.1.peak) (Except.ok.inj heffect).symm

lemma enter_peak (h : (enter (ringed P slot none) r).rail? = some r') :
    r'.machine.peak = max r.machine.peak r.machine.ring.length := by
  have hrun : (ringed P slot none).run r.machine =
      (P.run r.machine.machine).map (r.machine.entered (slot.dirties r.machine.machine)) some := rfl
  unfold enter at h
  rw [hrun] at h
  cases hexit : P.run r.machine.machine with
  | debug | hlt =>
    rw [hexit] at h
    exact congrArg (·.machine.peak) (Option.some.inj h).symm
  | frameCounterWidth | kvmError =>
    rw [hexit] at h
    cases h
  | frameCounter | device =>
    simp only [hexit, VcpuExit.map] at h
    split at h
    · rename_i r1 es hservice
      obtain rfl : r1 = r' := Option.some.inj h
      exact service_peak hservice
    · cases h

end Entry

section Runs

variable {P : Platform H σ X} {slot : Memslot σ} {size : RingSize}
  {req : RunRequest H (Tracked σ) τ}
  {out : SegmentOutcome H} {s' : Seg H (Tracked σ) τ} {start : ℕ}

def Seg.peak (s : Seg H (Tracked σ) τ) : ℕ := s.rail.machine.peak

abbrev UnderRing (size : RingSize) (start : ℕ) {α : Type} (level : α → ℕ)
    (x y : Flight H (Tracked σ) τ α) : Prop :=
  Except.Capped (fun u => u.seg?.map Seg.peak) (.error (.boundary (.exit ringFullMessage)))
    size.softLimit start level x y

lemma UnderRing.unwound {α : Type} {level : α → ℕ} {u : Unwind H (Tracked σ) τ}
    (h : ∀ s, u.seg? = some s → s.peak = start) :
    UnderRing size start level (.error u) (.error u) := by
  refine .same fun k hk => ?_
  obtain ⟨s, hs, rfl⟩ := Option.map_eq_some_iff.mp hk
  exact h s hs

lemma UnderRing.lift {α : Type} {level : α → ℕ} {x : Except (BoundaryError H) α}
    (h : ∀ a, x = .ok a → level a = start) :
    UnderRing size start level (Flight.lift (σ := Tracked σ) (τ := τ) x) (Flight.lift x) := by
  cases x with
  | ok a => exact .ok (h a rfl)
  | error e => exact .fail rfl

lemma UnderRing.entry {α : Type} {level : α → ℕ} {r : Rail H (Tracked σ)}
    {f g : Entered H (Tracked σ) → Flight H (Tracked σ) τ α}
    (hfull : g (.failed (.exit ringFullMessage)) = .fail (.boundary (.exit ringFullMessage)))
    (h : ∀ k e, (∀ r', e.rail? = some r' → r'.machine.peak = k) →
      UnderRing size k level (f e) (g e)) :
    UnderRing size r.machine.peak level (f (enter (ringed P slot none) r))
      (g (enter (ringed P slot (some size)) r)) := by
  have hentered := h (max r.machine.peak r.machine.ring.length)
    (enter (ringed P slot none) r) fun r' => enter_peak
  by_cases hroom : r.machine.ring.length < size.softLimit
  · rw [enter_of_room hroom]
    exact hentered.of_le (le_max_left _ _) fun hlt => max_lt hlt hroom
  · have hcap : size.softLimit ≤ r.machine.ring.length := Nat.le_of_not_lt hroom
    rw [enter_of_full hcap, hfull]
    exact hentered.of_full (le_max_left _ _) (hcap.trans (le_max_right _ _))

variable (s : Seg H (Tracked σ) τ)

lemma applyAtFrame_underRing (message : String) (kinds : List InputKind) :
    UnderRing size s.peak Seg.peak (applyAtFrame (ringed P slot none) message kinds s)
      (applyAtFrame (ringed P slot (some size)) message kinds s) := by
  induction kinds generalizing s with
  | nil => exact .ok rfl
  | cons kind rest ih =>
    apply Except.Capped.seq fun w => w.1.machine.peak
    · apply UnderRing.lift
      rintro ⟨r, vector⟩ h
      exact applyInput_peak h
    · rintro ⟨r, vector⟩ -
      cases vector with
      | some _ => exact .fail rfl
      | none => exact ih { s with rail := r }

lemma holdFrame_underRing (frame : ℕ) :
    UnderRing size s.peak Seg.peak (holdFrame (ringed P slot none) req frame s)
      (holdFrame (ringed P slot (some size)) req frame s) := by
  unfold holdFrame
  split_ifs
  · exact .fail rfl
  · apply Except.Capped.seq Seg.peak
    · exact applyAtFrame_underRing { s with lastFrame := frame, framesSeen := s.framesSeen + 1 } _ _
    · intro s1 _
      exact applyAtFrame_underRing { s1 with
        pendingFrames := s1.pendingFrames.filter fun p => decide (p.1 ≠ frame)
        consumed := s1.consumed ++ dueAtFrame req frame s } _ _

lemma onEntered_underRing {k : ℕ} (e : Entered H (Tracked σ))
    (he : ∀ r, e.rail? = some r → r.machine.peak = k) :
    UnderRing size k Seg.peak (onEntered (ringed P slot none) req s e)
      (onEntered (ringed P slot (some size)) req s e) := by
  have hfeed (s : Seg H (Tracked σ) τ) :
      UnderRing size s.peak Seg.peak (checkSdkFeed req s) (checkSdkFeed req s) := by
    unfold checkSdkFeed
    split_ifs
    · exact .unwound fun s' hs => by cases hs; rfl
    · exact .ok rfl
  cases e with
  | stepped r => exact .ok (he r rfl)
  | failed e => exact .fail rfl
  | halted r =>
    refine .unwound fun s' hs => ?_
    cases hs
    exact he r rfl
  | serviced r es => exact he r rfl ▸ hfeed (noteExit req r es s)
  | frame n r es =>
    have hpeak : (noteExit req r es s).peak = k := he r rfl
    rw [← hpeak]
    apply Except.Capped.seq Seg.peak _ fun s1 _ => hfeed s1
    apply (holdFrame_underRing _ _).bind
    intro s1 _
    split_ifs
    · exact UnderRing.unwound fun s' hs => by cases hs; rfl
    · exact UnderRing.unwound fun s' hs => by cases hs; rfl
    · exact .ok rfl

lemma turn_landStep (P : Platform H σ X) (req : RunRequest H σ τ) (target : ℕ) (s : Seg H σ τ) :
    Except.Capped.turn (landStep P req target s) =
      if target < s.rail.icount then Flight.fail (.boundary (.overshoot target s.rail.icount))
      else if s.rail.icount = target then .ok (.inr s)
      else (onEntered P req s (enter P s.rail)).map .inl := by
  unfold landStep
  split_ifs
  · rfl
  · rfl
  · cases onEntered P req s (enter P s.rail) <;> rfl

variable (fuel : ℕ) (injections : List ScheduledInjection) (timerSlot : Option ℕ)

lemma landAt_underRing (target : ℕ) :
    UnderRing size s.peak Seg.peak (landAt (ringed P slot none) req fuel target s)
      (landAt (ringed P slot (some size)) req fuel target s) := by
  refine Except.Capped.run Seg.peak rfl (fun s => ?_) fuel s
  rw [turn_landStep, turn_landStep]
  split_ifs with hover hat
  · exact .fail rfl
  · exact .ok rfl
  · exact UnderRing.entry
      (f := fun e => (onEntered (ringed P slot none) req s e).map Sum.inl)
      (g := fun e => (onEntered (ringed P slot (some size)) req s e).map Sum.inl) rfl
      fun k e he => (onEntered_underRing s e he).map fun _ => rfl

def entryTurn (P : Platform H σ X) (req : RunRequest H σ τ) (s : Seg H σ τ) :
    Entered H σ → Flight H σ τ (Seg H σ τ ⊕ Seg H σ τ)
  | .stepped r => .ok (.inr { s with rail := r })
  | e => (onEntered P req s e).map .inl

lemma turn_entryStep (P : Platform H σ X) (req : RunRequest H σ τ) (s : Seg H σ τ) :
    Except.Capped.turn (entryStep P req s) = entryTurn P req s (enter P s.rail) := by
  unfold entryStep
  split
  · rename_i r hstepped
    rw [hstepped]
    rfl
  · rename_i hno
    have hturn : entryTurn P req s (enter P s.rail) =
        (onEntered P req s (enter P s.rail)).map .inl := by
      cases he : enter P s.rail with
      | stepped r => exact absurd he (hno r)
      | _ => rfl
    rw [hturn]
    cases onEntered P req s (enter P s.rail) <;> rfl

lemma stepOneEntry_underRing :
    UnderRing size s.peak Seg.peak (stepOneEntry (ringed P slot none) req fuel s)
      (stepOneEntry (ringed P slot (some size)) req fuel s) := by
  refine Except.Capped.run Seg.peak rfl (fun s => ?_) fuel s
  rw [turn_entryStep, turn_entryStep]
  refine UnderRing.entry rfl fun k e he => ?_
  have hentered : UnderRing (α := Seg H (Tracked σ) τ ⊕ Seg H (Tracked σ) τ) size k
      (Sum.elim Seg.peak Seg.peak) ((onEntered (ringed P slot none) req s e).map .inl)
      ((onEntered (ringed P slot (some size)) req s e).map .inl) :=
    (onEntered_underRing s e he).map fun _ => rfl
  cases e with
  | stepped r => exact .ok (he r rfl)
  | serviced | frame | halted | failed => exact hentered

lemma injectAtBoundary_underRing (vector budget : ℕ) :
    UnderRing size s.peak Seg.peak
      (injectAtBoundary (ringed P slot none) req fuel vector budget s)
      (injectAtBoundary (ringed P slot (some size)) req fuel vector budget s) := by
  have hqueue (s : Seg H (Tracked σ) τ) :
      UnderRing size s.peak Seg.peak (queueVector (ringed P slot none) vector s)
        (queueVector (ringed P slot (some size)) vector s) := by
    unfold queueVector
    split_ifs
    · exact .fail rfl
    · exact .ok rfl
  have hopen (s : Seg H (Tracked σ) τ) : (ringed P slot (some size)).injectable s.rail.machine =
      (ringed P slot none).injectable s.rail.machine := rfl
  induction budget generalizing s with
  | zero =>
    unfold injectAtBoundary
    rw [hopen]
    split_ifs
    · exact hqueue s
    · exact .fail rfl
  | succ budget ih =>
    unfold injectAtBoundary
    rw [hopen]
    split_ifs
    · exact hqueue s
    · exact (landAt_underRing _ _ _).bind fun s1 _ => ih s1

lemma noteDelivery_underRing (injection : Option ℕ) (vector : ℕ) :
    UnderRing size s.peak Seg.peak (noteDelivery req timerSlot injection vector s)
      (noteDelivery req timerSlot injection vector s) := by
  unfold noteDelivery
  split_ifs
  · split
    · exact .ok rfl
    · exact .fail rfl
  · exact .ok rfl

lemma deliver_underRing (first : Bool) (vectors : List (ℕ × Option ℕ)) :
    UnderRing size s.peak Seg.peak (deliver (ringed P slot none) req fuel timerSlot first vectors s)
      (deliver (ringed P slot (some size)) req fuel timerSlot first vectors s) := by
  induction vectors generalizing first s with
  | nil => exact .ok rfl
  | cons v rest ih =>
    obtain ⟨vector, injection⟩ := v
    apply Except.Capped.seq Seg.peak
    · cases first with
      | true => exact .ok rfl
      | false => exact stepOneEntry_underRing s fuel
    intro s1 _
    apply (injectAtBoundary_underRing _ _ _ _).bind
    intro s2 _
    exact (noteDelivery_underRing _ _ _ _).bind fun s3 _ => ih s3 false

lemma applyInputs_underRing (at_ : Boundary) (indices : List ℕ) :
    UnderRing size s.peak (fun w => w.1.peak) (applyInputs (ringed P slot none) req at_ indices s)
      (applyInputs (ringed P slot (some size)) req at_ indices s) := by
  induction indices generalizing s with
  | nil => exact .ok rfl
  | cons index rest ih =>
    unfold applyInputs
    cases req.inputs[index]? with
    | none => exact .fail rfl
    | some input =>
      apply Except.Capped.seq fun w => w.1.machine.peak
      · apply UnderRing.lift
        rintro ⟨r, vector⟩ h
        exact applyInput_peak h
      · rintro ⟨r, vector⟩ -
        exact (ih { s with rail := r, consumed := s.consumed ++ [input] }).bind
          fun w _ => .ok rfl

lemma sinkEpoch_underRing (icount : ℕ) :
    UnderRing size s.peak Seg.peak (sinkEpoch (ringed P slot none) req icount s)
      (sinkEpoch (ringed P slot (some size)) req icount s) := by
  apply Except.Capped.seq fun _ => s.peak
  · exact UnderRing.lift fun _ _ => rfl
  · exact fun w _ => .ok rfl

lemma clockAt_underRing {α : Type} {level : α → ℕ} (icount start : ℕ)
    {f g : ℕ → Flight H (Tracked σ) τ α} (h : ∀ vns, UnderRing size start level (f vns) (g vns)) :
    UnderRing size start level (clockAt (ringed P slot none) icount >>= f)
      (clockAt (ringed P slot (some size)) icount >>= g) := by
  apply Except.Capped.seq (fun _ => start) _ fun vns _ => h vns
  unfold clockAt
  rw [ringed_config, ringed_config]
  cases P.config.clock.vnsFromIcount icount with
  | some vns => exact .ok rfl
  | none => exact .fail rfl

lemma pauseAt_underRing (point : StopPoint) (boundary : Boundary) (vns : ℕ) :
    UnderRing size s.peak (fun w => w.2.peak)
      (pauseAt (ringed P slot none) req fuel point boundary vns s)
      (pauseAt (ringed P slot (some size)) req fuel point boundary vns s) := by
  unfold pauseAt
  by_cases hepoch : point.epochHash = true
  · rw [if_pos hepoch, if_pos hepoch]
    exact .ok rfl
  · rw [if_neg hepoch, if_neg hepoch]
    apply (landAt_underRing _ _ _).bind
    intro s1 _
    apply clockAt_underRing
    intro vns'
    apply Except.Capped.seq Seg.peak
    · by_cases hsink : P.config.hashEpochs = .epochsOn ∨ req.options.paranoidHash = true
      · rw [if_pos (by exact hsink), if_pos (by exact hsink)]
        exact sinkEpoch_underRing (s1.pushLink (ringed P slot none) _ vns') _
      · rw [if_neg (by exact hsink), if_neg (by exact hsink)]
        exact .ok rfl
    · exact fun s2 _ => .ok rfl

lemma finish_peak {hash hashed : Bool} {reason : StopReason} {boundary : Boundary} {vns : ℕ}
    (s : Seg H (Tracked σ) τ) :
    (finish (ringed P slot none) hash reason boundary vns hashed s).2.peak = s.peak := by
  unfold finish
  split_ifs <;> rfl

lemma afterPoint_underRing (point : StopPoint) (boundary : Boundary) (vns : ℕ) (hashed : Bool) :
    UnderRing size s.peak (Sum.elim Seg.peak fun w => w.2.peak)
      (afterPoint (ringed P slot none) req fuel point boundary vns hashed s)
      (afterPoint (ringed P slot (some size)) req fuel point boundary vns hashed s) := by
  unfold afterPoint
  by_cases hgoal : (point.goalPoll && req.goal s.rail.machine) = true
  · rw [if_pos hgoal, if_pos hgoal]
    exact .ok (finish_peak s)
  rw [if_neg hgoal, if_neg hgoal]
  cases point.finalStop with
  | some kind => cases kind <;> exact .ok (finish_peak s)
  | none =>
    split_ifs with hpause
    · exact (pauseAt_underRing _ _ _ _ _).map fun _ => rfl
    · exact .ok rfl

lemma atPoint_underRing (point : StopPoint) :
    UnderRing size s.peak (Sum.elim Seg.peak fun w => w.2.peak)
      (atPoint (ringed P slot none) req fuel injections timerSlot point s)
      (atPoint (ringed P slot (some size)) req fuel injections timerSlot point s) := by
  apply (landAt_underRing _ _ _).bind
  intro s1 _
  apply (applyInputs_underRing _ _ _).bind
  rintro ⟨s2, queued⟩ -
  apply (deliver_underRing _ _ _ _ _).bind
  intro s3 _
  apply clockAt_underRing
  intro vns
  apply Except.Capped.seq Seg.peak
  · split_ifs
    · exact sinkEpoch_underRing (s3.pushLink (ringed P slot none) _ vns) _
    · exact .ok rfl
  · exact fun s4 _ => afterPoint_underRing _ _ _ _ _ _

lemma walkAgenda_underRing (it : AgendaIter) :
    UnderRing size s.peak (fun w => w.2.peak)
      (walkAgenda (ringed P slot none) req fuel injections timerSlot it s)
      (walkAgenda (ringed P slot (some size)) req fuel injections timerSlot it s) := by
  refine Except.Capped.run (fun w : AgendaIter × Seg H (Tracked σ) τ => w.2.peak)
    rfl (fun w => ?_) _ (it, s)
  have hturn (size : Option RingSize) {point : StopPoint} {it' : AgendaIter}
      (hnext : w.1.next = some (point, it')) :
      Except.Capped.turn
          (walkStep (ringed P slot size) req fuel injections timerSlot w) =
        (atPoint (ringed P slot size) req fuel injections timerSlot point w.2).map
          (Sum.map (it', ·) id) := by
    unfold walkStep
    simp only [hnext]
    rcases atPoint (ringed P slot size) req fuel injections timerSlot point w.2 with u | c
    · rfl
    · cases c <;> rfl
  cases hnext : w.1.next with
  | none =>
    simp only [walkStep, hnext]
    exact .fail rfl
  | some p =>
    obtain ⟨point, it'⟩ := p
    rw [hturn none hnext, hturn (some size) hnext]
    apply (atPoint_underRing _ _ _ _ _).map
    rintro (s' | w') <;> rfl

lemma settle_underRing {x y : Flight H (Tracked σ) τ (SegmentOutcome H × Seg H (Tracked σ) τ)}
    (h : UnderRing size start (fun w => w.2.peak) x y) (hstart : start < size.softLimit)
    (hx : settle (ringed P slot none) req x = .ok (out, s')) :
    settle (ringed P slot (some size)) req y = .ok (out, s') ↔ s'.peak < size.softLimit := by
  have hlevel : Except.levelOf (fun u => u.seg?.map Seg.peak) (fun w => w.2.peak) x =
      some s'.peak := by
    have hcounter {reason : StopReason} {s : Seg H (Tracked σ) τ}
        (h : finishAtCounter (ringed P slot none) req.options.hashFinalStop reason s =
          .ok (out, s')) : some s.peak = some s'.peak :=
      congrArg (fun r : Rail H (Tracked σ) => some r.machine.peak) (finishAtCounter_rail h).1.symm
    match x, hx with
    | .ok w, hx => exact congrArg (fun w => some w.2.peak) (Except.ok.inj hx)
    | .error (.halted s), hx => exact hcounter hx
    | .error (.frameSinkStop s), hx => exact hcounter hx
    | .error (.eventStop s), hx => exact hcounter hx
  rcases h.capped hstart with ⟨rfl, hbelow⟩ | ⟨rfl, habove⟩
  · exact ⟨fun _ => hbelow _ hlevel, fun _ => hx⟩
  · refine ⟨fun hy => ?_, fun hlt => absurd (habove _ hlevel) (Nat.not_le.mpr hlt)⟩
    cases hy

/-- A run that would succeed with a ring without end succeeds under a given
size exactly when every VM entry of it finds room. -/
lemma runSegment_underRing {fuel : ℕ} {rail : Rail H (Tracked σ)} {chain : H} {caller : τ}
    (size : RingSize) (hpeak : rail.machine.peak = 0)
    (hrun : runSegment (ringed P slot none) fuel req rail chain caller = .ok (out, s')) :
    runSegment (ringed P slot (some size)) fuel req rail chain caller = .ok (out, s') ↔
      s'.peak < size.softLimit := by
  have hpos := size.softLimit_pos
  have hsame : opening (ringed P slot (some size)) req rail =
      opening (ringed P slot none) req rail := rfl
  rw [runSegment_eq_opening] at hrun ⊢
  rw [hsame]
  obtain ⟨opened, hopening, hrun⟩ := bind_eq_ok.mp hrun
  rw [hopening, ok_bind]
  match opened with
  | none =>
    have hrail := (finishAtCounter_rail hrun).1
    have hzero : s'.peak = 0 := (congrArg (fun r => r.machine.peak) hrail).trans hpeak
    exact ⟨fun _ => hzero ▸ hpos, fun _ => hrun⟩
  | some (injections, timerSlot, it) =>
    refine settle_underRing (walkAgenda_underRing _ _ _ _ _) ?_ hrun
    exact hpeak.trans_lt hpos

/-- Without the flag no page is published, so no VM entry finds anything in the ring. -/
lemma MachineStep.unlogged {t t' : Tracked σ} (hslot : slot.logging = false)
    (h : MachineStep (ringed P slot none) t t') (ht : t.ring = [] ∧ t.peak = 0) :
    t'.ring = [] ∧ t'.peak = 0 := by
  have hmap {α : Type} {x : Except String (σ × α)} {a : α}
      (h : (x.map fun w => (({ t with machine := w.1 } : Tracked σ), w.2)) = .ok (t', a)) :
      t'.ring = [] ∧ t'.peak = 0 := by
    obtain ⟨w, -, hpair⟩ := map_eq_ok.mp h
    cases hpair
    exact ht
  rcases h with hvcpu | hhost
  · have hentered : ∀ m, t.entered (slot.dirties t.machine) m = t' →
        t'.ring = [] ∧ t'.peak = 0 := by
      rintro m rfl
      rw [Memslot.dirties, hslot]
      exact ⟨ht.1, by simp [Tracked.entered, ht]⟩
    change ((P.run t.machine).map (t.entered (slot.dirties t.machine)) some).state? =
      some t' at hvcpu
    cases hrun : P.run t.machine with
    | kvmError message =>
      rw [hrun] at hvcpu
      cases hvcpu
    | _ =>
      rw [hrun] at hvcpu
      exact hentered _ (Option.some.inj hvcpu)
  · cases hhost with
    | @service icount q _ _ es h =>
      cases q with
      | exit e =>
        cases e with
        | none => cases h
        | some exit => exact hmap h
      | frameCounter | pauseDrain => exact hmap h
    | padSet h | netRx h => exact hmap h
    | interrupt => exact ht

lemma peak_of_unlogged {fuel : ℕ} {rail : Rail H (Tracked σ)} {chain : H} {caller : τ}
    (hslot : slot.logging = false) (hring : rail.machine.ring = [] ∧ rail.machine.peak = 0)
    (hrun : runSegment (ringed P slot none) fuel req rail chain caller = .ok (out, s')) :
    s'.peak = 0 := by
  have hmoves := moves_of_runSegment hrun
  suffices hempty : s'.rail.machine.ring = [] ∧ s'.rail.machine.peak = 0 from hempty.2
  generalize s'.rail.machine = t at hmoves
  induction hmoves with
  | refl => exact hring
  | tail _ hstep ih => exact hstep.unlogged hslot ih

/-- Under two legal ring sizes a run ends alike, with the same machine, log, chain and dirty pages:
always on a slot that does not log its dirty pages, as replay's, and else exactly when no VM entry
starts with a ring that is full under one of them. -/
theorem ring_sizes_agree_iff {fuel : ℕ} {rail : Rail H (Tracked σ)} {chain : H} {caller : τ}
    {out : SegmentOutcome H} {s' : Seg H (Tracked σ) τ} (size size' : RingSize)
    (hpeak : rail.machine.peak = 0) (hring : slot.logging = false → rail.machine.ring = [])
    (hrun : runSegment (ringed P slot none) fuel req rail chain caller = .ok (out, s')) :
    (runSegment (ringed P slot (some size)) fuel req rail chain caller = .ok (out, s') ∧
        runSegment (ringed P slot (some size')) fuel req rail chain caller = .ok (out, s')) ↔
      (slot.logging = true →
        s'.rail.machine.peak < size.softLimit ∧ s'.rail.machine.peak < size'.softLimit) := by
  rw [runSegment_underRing size hpeak hrun, runSegment_underRing size' hpeak hrun]
  refine ⟨fun h _ => h, fun h => ?_⟩
  cases hslot : slot.logging with
  | true => exact h hslot
  | false =>
    rw [peak_of_unlogged hslot ⟨hring hslot, hpeak⟩ hrun]
    exact ⟨size.softLimit_pos, size'.softLimit_pos⟩

end Runs

def smallestRing : RingSize := ⟨1024, ⟨10, rfl⟩, by decide⟩

def workerRing : RingSize := ⟨65536, ⟨16, rfl⟩, by decide⟩

/-- A guest whose every instruction scatters sixteen words over pages of their own. -/
def pageWriter (logging : Bool) (size : Option RingSize) :
    Platform LinkTrace (Tracked ℕ) (Option Unit) :=
  ringed (counting 1000) ⟨logging, fun s => (List.range 16).map (16 * s + ·)⟩ size

/-- A run of the guest after it has written the pages of `done` instructions. -/
def pageRun (logging : Bool) (done budget : ℕ) (size : Option RingSize) :
    Except (RunError LinkTrace) (SegmentOutcome LinkTrace × Seg LinkTrace (Tracked ℕ) Unit) :=
  let ring := if logging then List.range (16 * done) else []
  let fresh := openSegment (pageWriter logging size) ⟨[], ⟨done, ring, 0⟩, []⟩ none
  runSegment (pageWriter logging size) 50 (recordRequest { stop := .icountBudget budget } fresh)
    fresh.rail fresh.chain ()

/-- With and without dirty logging; without it 448 pages written before leave no trace. -/
theorem ring_sizes_agree_pageRun :
    (∃ out s', pageRun true 0 3 (some smallestRing) = .ok (out, s') ∧
      pageRun true 0 3 (some workerRing) = .ok (out, s') ∧
      s'.rail.machine.ring = List.range 48) ∧
    ∃ out s', pageRun false 28 1 (some smallestRing) = .ok (out, s') ∧
      pageRun false 28 1 (some workerRing) = .ok (out, s') := by
  constructor
  · have hok : (pageRun true 0 3 none).toOption.map
        (fun r => (r.2.rail.machine.ring, r.2.rail.machine.peak)) = some (List.range 48, 32) := by
      decide +kernel
    cases hrun : pageRun true 0 3 none with
    | error e =>
      rw [hrun] at hok
      cases hok
    | ok r =>
      obtain ⟨out, s'⟩ := r
      rw [hrun] at hok
      obtain ⟨hring, hpeak⟩ := Prod.mk.inj (Option.some.inj hok)
      have hroom : s'.rail.machine.peak < smallestRing.softLimit ∧
          s'.rail.machine.peak < workerRing.softLimit := by
        have hpeak : s'.rail.machine.peak = 32 := hpeak
        rw [hpeak]
        decide +kernel
      unfold pageRun at hrun
      have hagree := (ring_sizes_agree_iff smallestRing workerRing rfl
        (fun h => absurd h (by decide)) hrun).mpr fun _ => hroom
      exact ⟨out, s', hagree.1, hagree.2, hring⟩
  · obtain ⟨⟨out, s'⟩, hrun⟩ := Except.exists_eq_ok (x := pageRun false 28 1 none) (by rfl)
    unfold pageRun at hrun
    exact ⟨out, s', (ring_sizes_agree_iff smallestRing workerRing rfl (fun _ => rfl) hrun).mpr
      fun h => absurd h (by decide)⟩

/-- With 448 pages dirty one ring has room, and under the other the first VM
entry is an exit that nobody services. -/
theorem ring_full_faults :
    (pageRun true 28 1 (some workerRing)).map (fun r => (r.1.reason, r.1.boundary.icount)) =
        .ok (.budgetReached, 1) ∧
      (pageRun true 28 1 (some smallestRing)).map (fun r => (r.1.reason, r.1.boundary.icount)) =
        .error (.boundary (.exit ringFullMessage)) := by
  decide +kernel

end DetHypervisor
