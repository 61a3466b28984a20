import DetHypervisor.Points

/-!
# The rule of flights

What every VM entry and every deed of the host keeps holds wherever a flight of run control
comes to, point by point, however it ends.
-/

namespace DetHypervisor

variable {H σ X τ : Type} {P : Platform H σ X} {req : RunRequest H σ τ} {fuel : ℕ}
  {timerSlot : Option ℕ} {s s' : Seg H σ τ} {T : ℕ → ℕ → Prop} {I : Seg H σ τ → Prop}
  {B : Unwind H σ τ → Prop} {boundary : Boundary} {p : StopPoint}

def Deed.isHost : Deed → Bool
  | entry | leave => false
  | input .. | vector .. | link .. | sink .. => true

def Deed.Timely (T : ℕ → ℕ → Prop) : Deed → Prop
  | input index icount _ => T index icount
  | _ => True

/-- The errors that come from entering the guest, from the devices, the log and
the clock. -/
def RunError.Ordinary : RunError H → Prop
  | .boundary _ | .windowNeverOpened _ | .badVector _ | .clockOverflow | .outOfFuel => True
  | .agenda | .kvm _ | .missingSdkEventFeed | .panicked _ => False

/-- `I` is kept by all that run control does, and `B` holds of every way to unwind. -/
structure Guards (P : Platform H σ X) (req : RunRequest H σ τ) (fuel : ℕ)
    (timerSlot : Option ℕ) (T : ℕ → ℕ → Prop) (I : Seg H σ τ → Prop) (B : Unwind H σ τ → Prop) :
    Prop where
  entry : ∀ {s}, I s → (onEntered P req s (enter P s.rail)).Post I B
  host : ∀ {d s s'}, Does P req timerSlot d s s' → d.isHost = true → d.Timely T → I s → I s'
  fails : ∀ {e}, e.Ordinary → e ≠ .outOfFuel → B (.error e)
  spent : ∀ {s s'}, I s →
    Traced (Does P req timerSlot) (List.replicate fuel .entry) s s' → B (.error .outOfFuel)

lemma entries_of_landPath {t n : ℕ} (h : Fuel.Path (landStep P req t) n s s') :
    Traced (Does P req timerSlot) (List.replicate n .entry) s s' := by
  induction h with
  | refl s => exact .nil s
  | @tail n a b c _ hs ih =>
    refine ih.snoc_replicate (.entry ?_)
    unfold landStep at hs
    split_ifs at hs
    cases hentered : onEntered P req b (enter P b.rail) with
    | error u => simp [hentered] at hs
    | ok s1 =>
      simp only [hentered, Fuel.Step.next.injEq] at hs
      rw [hs]

lemma entries_of_entryPath {n : ℕ} (h : Fuel.Path (entryStep P req) n s s') :
    Traced (Does P req timerSlot) (List.replicate n .entry) s s' := by
  induction h with
  | refl s => exact .nil s
  | @tail n a b c _ hs ih =>
    refine ih.snoc_replicate (.entry ?_)
    unfold entryStep at hs
    split at hs
    · cases hs
    · cases hentered : onEntered P req b (enter P b.rail) with
      | error u => simp [hentered] at hs
      | ok s1 =>
        simp only [hentered, Fuel.Step.next.injEq] at hs
        rw [hs]

lemma noteDelivery_error {injection : Option ℕ} {vector : ℕ} {u : Unwind H σ τ}
    (h : noteDelivery req timerSlot injection vector s = .error u) :
    (∃ message, u = .error (.panicked message)) ∧ timerSlot = injection ∧ req.timer = none := by
  unfold noteDelivery at h
  dsimp only at h
  split_ifs at h with hslot
  cases htimer : req.timer with
  | some timer => simp [htimer] at h
  | none =>
    simp only [htimer, Flight.fail, Except.error.injEq] at h
    exact ⟨⟨_, h.symm⟩, hslot, rfl⟩

inductive StopsAt (req : RunRequest H σ τ) (p : StopPoint) : StopReason → Boundary → Prop
  | goal {boundary : Boundary} (hpoll : p.goalPoll = true) : StopsAt req p .goalSatisfied boundary
  | final {boundary : Boundary} {kind : StopKind} (hfinal : p.finalStop = some kind)
      (hicount : boundary.icount = p.icount) : StopsAt req p kind.reason boundary
  | paused {boundary : Boundary} (hpause : req.pause p.icount = true) :
      StopsAt req p .paused boundary

variable (req) (I) (p)

def Concluded (done : SegmentOutcome H × Seg H σ τ) : Prop :=
  I done.2 ∧ ∃ reason boundary vns, done.1 = done.2.outcome reason boundary vns ∧
    StopsAt req p reason boundary

def Onward : Seg H σ τ ⊕ SegmentOutcome H × Seg H σ τ → Prop
  | .inl s => I s
  | .inr done => Concluded req I p done

variable {req} {I} {p}

namespace Guards

variable (g : Guards P req fuel timerSlot T I B)

include g

lemma boundary_error (e : BoundaryError H) : B (.error (.boundary e)) := g.fails trivial (by simp)

lemma landAt (t : ℕ) (hs : I s) :
    (landAt P req fuel t s).Post (fun s' => I s' ∧ s'.rail.icount = t) B := by
  apply landAt_rule (I := I)
  · exact fun s1 hI _ => g.entry hI
  · exact fun s1 hI hat => ⟨hI, hat⟩
  · exact fun _ _ _ => g.boundary_error _
  · exact fun s' hpath => g.spent hs (entries_of_landPath hpath)
  · exact hs

lemma stepOneEntry (hs : I s) : (stepOneEntry P req fuel s).Post I B := by
  apply stepOneEntry_rule (I := I)
  · exact fun s1 hI _ => g.entry hI
  · intro s1 r hI hstepped
    have hentry := g.entry hI
    rw [hstepped] at hentry
    exact hentry
  · exact fun s' hpath => g.spent hs (entries_of_entryPath hpath)
  · exact hs

lemma injectAtBoundary (vector budget : ℕ) (hs : I s) :
    (injectAtBoundary P req fuel vector budget s).Post
      (fun s' => ∃ s1, I s1 ∧ P.injectable s1.rail.machine = true ∧
        queueVector P vector s1 = .ok s') B := by
  have hqueue {s : Seg H σ τ} (hs : I s) (hopen : P.injectable s.rail.machine = true) :
      (queueVector P vector s).Post (fun s' => ∃ s1, I s1 ∧
        P.injectable s1.rail.machine = true ∧ queueVector P vector s1 = .ok s') B := by
    cases hq : queueVector P vector s with
    | ok s' => exact ⟨s, hs, hopen, hq⟩
    | error u =>
      unfold queueVector at hq
      split_ifs at hq
      exact Except.error.inj hq ▸ g.fails trivial (by simp)
  induction budget generalizing s with
  | zero =>
    unfold DetHypervisor.injectAtBoundary
    split_ifs with hopen
    · exact hqueue hs hopen
    · exact g.fails trivial (by simp)
  | succ budget ih =>
    unfold DetHypervisor.injectAtBoundary
    split_ifs with hopen
    · exact hqueue hs hopen
    · refine (g.landAt (s.rail.icount + 1) hs).andThen ?_
      exact fun s1 _ h => ih h.1

lemma deliver {vectors : List (ℕ × Option ℕ)} (first : Bool)
    (hnote : ∀ v ∈ vectors, ∀ s u, noteDelivery req timerSlot v.2 v.1 s = .error u → B u)
    (hs : I s) : (deliver P req fuel timerSlot first vectors s).Post I B := by
  induction vectors generalizing first s with
  | nil => exact hs
  | cons v rest ih =>
    obtain ⟨hv, hrest⟩ := List.forall_mem_cons.mp hnote
    have hchain : (if first then .ok s else DetHypervisor.stepOneEntry P req fuel s :
        Flight H σ τ (Seg H σ τ)).Post I B := by
      split_ifs
      · exact hs
      · exact g.stepOneEntry hs
    refine hchain.andThen (fun s1 _ hs1 => ?_)
    refine (g.injectAtBoundary v.1 injectDeferBudget hs1).andThen ?_
    rintro s2 - ⟨s3, hs3, hopen, hqueue⟩
    cases hnoted : noteDelivery req timerSlot v.2 v.1 s2 with
    | error u => exact hv s2 u hnoted
    | ok s4 => exact ih false hrest (g.host (.vector hopen hqueue hnoted) rfl trivial hs3)

lemma applyInputs {at_ : Boundary} {indices : List ℕ}
    (hindices : ∀ index ∈ indices, T index at_.icount) (hs : I s) :
    (applyInputs P req at_ indices s).Post (fun w => I w.1) B := by
  induction indices generalizing s with
  | nil => exact hs
  | cons index rest ih =>
    unfold DetHypervisor.applyInputs
    cases hinput : req.inputs[index]? with
    | none => exact g.boundary_error _
    | some input =>
      cases happly : s.rail.applyInput P input.kind at_.icount at_.rip with
      | error e =>
        simp only [Flight.lift, happly, Except.error_bind]
        exact g.boundary_error e
      | ok w =>
        simp only [Flight.lift, happly, Except.ok_bind]
        obtain ⟨hindex, hrest⟩ := List.forall_mem_cons.mp hindices
        refine (ih hrest (g.host (.input hinput happly) rfl hindex hs)).andThen ?_
        exact fun _ _ h => h

lemma pushLink (icount vns : ℕ) (hs : I s) :
    I (s.pushLink P icount vns) := g.host (.link icount vns) rfl trivial hs

lemma sinkEpoch (icount : ℕ) (hs : I s) : (sinkEpoch P req icount s).Post I B := by
  cases hsink : DetHypervisor.sinkEpoch P req icount s with
  | ok s' => exact g.host (.sink hsink) rfl trivial hs
  | error u =>
    unfold DetHypervisor.sinkEpoch at hsink
    cases hcall : req.epochSink (icount / max P.config.epochLen 1) icount s.chain
        (s.rail.log, s.caller) with
    | ok w => simp [hcall, Flight.lift] at hsink
    | error e =>
      simp only [hcall, Flight.lift, Except.error_bind, Except.error.injEq] at hsink
      exact hsink ▸ g.boundary_error e

lemma clockAt (icount : ℕ) : (clockAt P icount : Flight H σ τ ℕ).Post (fun _ => True) B := by
  unfold DetHypervisor.clockAt
  cases P.config.clock.vnsFromIcount icount with
  | some vns => exact trivial
  | none => exact g.fails trivial (by simp)

lemma finish (hash hashed : Bool) (reason : StopReason) (boundary : Boundary) (vns : ℕ) (hs : I s) :
    I (finish P hash reason boundary vns hashed s).2 := by
  unfold DetHypervisor.finish
  dsimp only
  split_ifs
  · exact g.pushLink boundary.icount vns hs
  · exact hs

lemma pauseAt (boundary : Boundary) (vns : ℕ) (hpause : req.pause p.icount = true) (hs : I s) :
    (pauseAt P req fuel p boundary vns s).Post (Concluded req I p) B := by
  unfold DetHypervisor.pauseAt
  split_ifs
  · exact ⟨hs, _, _, _, rfl, .paused hpause⟩
  · refine (g.landAt _ hs).andThen (fun s1 _ hs1 => ?_)
    refine (g.clockAt _).andThen (fun vns' _ _ => ?_)
    refine (g.sinkEpoch _ (g.pushLink _ _ hs1.1)).andThen (fun s2 _ hs2 => ?_)
    exact ⟨hs2, _, _, _, rfl, .paused hpause⟩
  · refine (g.landAt _ hs).andThen (fun s1 _ hs1 => ?_)
    refine (g.clockAt _).andThen (fun vns' _ _ => ?_)
    exact ⟨g.pushLink _ _ hs1.1, _, _, _, rfl, .paused hpause⟩

lemma concluded_finish {reason : StopReason} (hash hashed : Bool)
    (vns : ℕ) (hstop : StopsAt req p reason boundary) (hs : I s) :
    Concluded req I p (DetHypervisor.finish P hash reason boundary vns hashed s) :=
  ⟨g.finish hash hashed reason boundary vns hs, reason, boundary, vns, rfl, hstop⟩

lemma afterPoint (vns : ℕ) (hashed : Bool) (hicount : boundary.icount = p.icount) (hs : I s) :
    (afterPoint P req fuel p boundary vns hashed s).Post (Onward req I p) B := by
  unfold DetHypervisor.afterPoint
  by_cases hgoal : (p.goalPoll && req.goal s.rail.machine) = true
  · rw [if_pos hgoal]
    exact g.concluded_finish _ _ _ (.goal (Bool.and_eq_true_iff.mp hgoal).1) hs
  rw [if_neg hgoal]
  cases hfinal : p.finalStop with
  | some kind =>
    cases kind with
    | budget | hardCap => exact g.concluded_finish _ _ _ (.final hfinal hicount) hs
  | none =>
    dsimp only
    by_cases hpause : req.pause p.icount = true
    · rw [if_pos hpause]
      have hspec := g.pauseAt boundary vns hpause hs
      cases hres : DetHypervisor.pauseAt P req fuel p boundary vns s with
      | ok done => exact hspec.of_ok hres
      | error u => exact hspec.of_error hres
    · rw [if_neg hpause]
      exact hs

lemma atPoint (injections : List ScheduledInjection) (hp : ∀ index ∈ p.inputs, T index p.icount)
    (hdeliver : ∀ s1 queued, Poised P req fuel p s s1 queued → I s1 →
      (DetHypervisor.deliver P req fuel timerSlot true (dueVectors injections queued p)
        s1).Post I B)
    (hs : I s) : (atPoint P req fuel injections timerSlot p s).Post (Onward req I p) B := by
  unfold DetHypervisor.atPoint
  refine (g.landAt p.icount hs).andThen (fun s1 hland hs1 => ?_)
  have hindices : ∀ index ∈ p.inputs, T index (s1.rail.boundary P).icount := by
    rw [show (s1.rail.boundary P).icount = p.icount from hs1.2]
    exact hp
  refine (g.applyInputs hindices hs1.1).andThen ?_
  rintro ⟨s2, queued⟩ happly hs2
  refine (hdeliver s2 queued ⟨s1, hland, happly⟩ hs2).andThen (fun s3 _ hs3 => ?_)
  refine (g.clockAt p.icount).andThen (fun vns _ _ => ?_)
  have hlink : (if hashedAt req p then
      DetHypervisor.sinkEpoch P req p.icount (s3.pushLink P p.icount vns)
      else .ok s3).Post I B := by
    split_ifs
    · exact g.sinkEpoch _ (g.pushLink _ _ hs3)
    · exact hs3
  refine hlink.andThen (fun s4 _ hs4 => ?_)
  exact g.afterPoint vns _ hs1.2 hs4

end Guards

end DetHypervisor
