import DetHypervisor.Itinerary
import DetHypervisor.RunControl

/-!
# Landings follow itineraries

Inversion of run control from the single exit up to `land_at`, for the requests of recorder and
replay: a flight goes over a chain of legs and then coasts.
-/

namespace DetHypervisor

open List Except

variable {H σ X τ : Type}

/-- A request that leaves all control to the guest, the queue and the budget,
and whose epoch sink logs exactly the link it is given. -/
structure Plain (req : RunRequest H σ τ) : Prop where
  injections_eq : req.injections = []
  timer_eq : req.timer = none
  goal_eq : req.goalPollPeriod = none
  awaits_eq : req.awaitsSdkEvent = false
  pause_eq : ∀ n, req.pause n = false
  frameStop_eq : ∀ n, req.frameStop n = false
  sink : ∀ {index icount : ℕ} {value : H} {w w' : LogWriter H} {c c' : τ},
    req.epochSink index icount value (w, c) = .ok (w', c') →
      w.record icount 0 (.epochHash index value) = .ok w'

def pendingInputs (req : RunRequest H σ τ) (s : Seg H σ τ) : List QueuedInput :=
  s.pendingFrames.filterMap fun p => req.inputs[p.2]?

/-- From `s` to `s'` the inputs `kinds` were applied: from the queue, which goes from `rest` to
`rest'`, or live. -/
def Took (req : RunRequest H σ τ) (rest rest' : List QueuedInput) (s s' : Seg H σ τ)
    (kinds : List InputKind) : Prop :=
  ∃ taken live, s'.consumed = s.consumed ++ taken ∧
    kinds.Perm (taken.map (·.kind) ++ live) ∧
    (∀ kind ∈ live, ∃ frame, kind ∈ req.liveInputs frame) ∧
    rest.Perm (taken ++ rest') ∧ s'.pendingFrames ⊆ s.pendingFrames

namespace Took

variable {req : RunRequest H σ τ} {rest rest1 rest' : List QueuedInput}
  {s s1 s' : Seg H σ τ} {kinds kinds' : List InputKind}

lemma refl (rest : List QueuedInput) (s : Seg H σ τ) : Took req rest rest s s [] :=
  ⟨[], [], by simp, by simp, by simp, by simp, fun _ h => h⟩

lemma trans (h : Took req rest rest1 s s1 kinds) (h' : Took req rest1 rest' s1 s' kinds') :
    Took req rest rest' s s' (kinds ++ kinds') := by
  obtain ⟨taken, live, hconsumed, hkinds, hlive, hrest, hframes⟩ := h
  obtain ⟨taken', live', hconsumed', hkinds', hlive', hrest', hframes'⟩ := h'
  refine ⟨taken ++ taken', live ++ live', ?_, ?_, ?_, ?_, List.Subset.trans hframes' hframes⟩
  · rw [hconsumed', hconsumed, append_assoc]
  · refine (hkinds.append hkinds').trans ?_
    rw [map_append, append_assoc, append_assoc]
    refine List.Perm.append_left _ ?_
    rw [← append_assoc, ← append_assoc]
    exact perm_append_comm.append_right _
  · intro kind hkind
    rcases mem_append.mp hkind with hkind | hkind
    · exact hlive kind hkind
    · exact hlive' kind hkind
  · refine hrest.trans ?_
    rw [append_assoc]
    exact hrest'.append_left taken

lemma perm_left (h : Took req rest1 rest' s s' kinds) (hperm : rest.Perm rest1) :
    Took req rest rest' s s' kinds := by
  obtain ⟨taken, live, hconsumed, hkinds, hlive, hrest, hframes⟩ := h
  exact ⟨taken, live, hconsumed, hkinds, hlive, hperm.trans hrest, hframes⟩

lemma append_left (front : List QueuedInput) (h : Took req rest rest' s s' kinds) :
    Took req (front ++ rest) (front ++ rest') s s' kinds := by
  obtain ⟨taken, live, hconsumed, hkinds, hlive, hrest, hframes⟩ := h
  refine ⟨taken, live, hconsumed, hkinds, hlive, (hrest.append_left front).trans ?_, hframes⟩
  rw [← append_assoc, ← append_assoc]
  exact perm_append_comm.append_right _

lemma eq_nil (h : Took req rest rest' s s' kinds) (hrest : rest = [])
    (hlive : ∀ frame, req.liveInputs frame = []) : kinds = [] := by
  obtain ⟨taken, live, -, hkinds, hlive', hperm, -⟩ := h
  rw [hrest] at hperm
  obtain ⟨rfl, -⟩ := append_eq_nil_iff.mp hperm.symm.eq_nil
  rcases eq_nil_or_concat live with rfl | ⟨front, kind, rfl⟩
  · exact hkinds.eq_nil
  · obtain ⟨frame, hframe⟩ := hlive' kind (by simp)
    rw [hlive frame] at hframe
    cases hframe

end Took

@[simp] lemma Flight.lift_eq_ok {α : Type} {x : Except (BoundaryError H) α} {a : α} :
    (Flight.lift x : Flight H σ τ α) = .ok a ↔ x = .ok a := by
  cases x <;> simp [Flight.lift, Flight.fail]

section Exits

variable {P : Platform H σ X} {req : RunRequest H σ τ} {s s' : Seg H σ τ}
  {frame : ℕ} {kinds : List InputKind} {message : String} {u : Unwind H σ τ}

lemma applyAtFrame_eq_ok (h : applyAtFrame P message kinds s = .ok s') :
    ∃ r, Applied P s.rail.icount 0 kinds s.rail r ∧ s' = { s with rail := r } := by
  induction kinds generalizing s with
  | nil =>
    obtain rfl : s = s' := by simpa [applyAtFrame] using h
    exact ⟨s.rail, rfl, rfl⟩
  | cons kind rest ih =>
    obtain ⟨⟨r, vector⟩, hlift, h⟩ := bind_eq_ok.mp h
    have happly := Flight.lift_eq_ok.mp hlift
    cases vector with
    | some v => simp [Flight.fail] at h
    | none =>
      obtain ⟨r', hrest, rfl⟩ := ih h
      have hicount : r.icount = s.rail.icount := (Rail.applyInput_spec happly).1
      rw [hicount] at hrest
      exact ⟨r', ⟨r, happly, hrest⟩, rfl⟩

lemma pendingInputs_split (frame : ℕ) : (pendingInputs req s).Perm (dueAtFrame req frame s ++
      (s.pendingFrames.filter fun p => decide (p.1 ≠ frame)).filterMap
        fun p => req.inputs[p.2]?) := by
  unfold pendingInputs dueAtFrame
  rw [← filterMap_append]
  refine List.Perm.filterMap _ ?_
  have hsplit := filter_append_perm (fun p : ℕ × ℕ => decide (p.1 = frame)) s.pendingFrames
  simpa using hsplit.symm

lemma applyAtFrame_error (h : applyAtFrame P message kinds s = .error u) : ∃ e, u = .error e := by
  induction kinds generalizing s with
  | nil => cases h
  | cons kind rest ih =>
    unfold applyAtFrame at h
    cases happly : s.rail.applyInput P kind s.rail.icount 0 with
    | error e =>
      simp only [happly, Flight.lift, Flight.fail, error_bind, Except.error.injEq] at h
      exact ⟨_, h.symm⟩
    | ok w =>
      obtain ⟨r, _ | v⟩ := w
      · simp only [happly, Flight.lift, ok_bind] at h
        exact ih h
      · simp only [happly, Flight.lift, Flight.fail, ok_bind, Except.error.injEq] at h
        exact ⟨_, h.symm⟩

lemma holdFrame_eq_ok (h : holdFrame P req frame s = .ok s') :
    s.lastFrame < frame ∧ s'.chain = s.chain ∧ s'.caller = s.caller ∧
      s'.framesSeen = s.framesSeen + 1 ∧ ∃ kinds, Applied P s.rail.icount 0 kinds s.rail s'.rail ∧
        Took req (pendingInputs req s) (pendingInputs req s') s s' kinds := by
  unfold holdFrame at h
  split_ifs at h with hframe
  obtain ⟨s1, hdue, hlive⟩ := bind_eq_ok.mp h
  obtain ⟨r1, happlied, rfl⟩ := applyAtFrame_eq_ok hdue
  obtain ⟨r2, happlied', rfl⟩ := applyAtFrame_eq_ok hlive
  rw [show r1.icount = s.rail.icount from happlied.icount_eq] at happlied'
  refine ⟨Nat.not_le.mp hframe, rfl, rfl, rfl, _, happlied.append happlied', ?_⟩
  exact ⟨dueAtFrame req frame s, req.liveInputs frame, rfl, .refl _,
    fun kind hkind => ⟨frame, hkind⟩, pendingInputs_split frame,
    fun _ hp => (mem_filter.mp hp).1⟩

lemma holdFrame_error (h : holdFrame P req frame s = .error u) : ∃ e, u = .error e := by
  unfold holdFrame at h
  split_ifs at h with hframe
  · exact ⟨_, (Except.error.inj h).symm⟩
  · dsimp only at h
    cases hdue : applyAtFrame P "frame-scheduled input queued IRQ vectors"
        ((dueAtFrame req frame s).map (·.kind))
        { s with lastFrame := frame, framesSeen := s.framesSeen + 1 } with
    | error u' =>
      rw [hdue, error_bind, Except.error.injEq] at h
      exact h ▸ applyAtFrame_error hdue
    | ok s1 =>
      rw [hdue, ok_bind] at h
      exact applyAtFrame_error h

lemma onEntered_serviced (hplain : Plain req) (r : Rail H σ) (es : List Emit) :
    onEntered P req s (.serviced r es) = .ok (noteExit req r es s) := by
  simp [onEntered, checkSdkFeed, hplain.awaits_eq]

lemma onEntered_frame (hplain : Plain req) (frame : ℕ) (r : Rail H σ) (es : List Emit) :
    onEntered P req s (.frame frame r es) =
      (holdFrame P req frame (noteExit req r es s) >>= fun s1 =>
        if req.frameTarget = some s1.framesSeen then .error (.eventStop s1) else .ok s1) := by
  unfold onEntered onFrame checkSdkFeed
  simp only [hplain.awaits_eq, hplain.frameStop_eq, Bool.false_and, Bool.false_eq_true, if_false]
  cases holdFrame P req frame (noteExit req r es s) with
  | error u => rfl
  | ok s1 =>
    simp only [ok_bind]
    split_ifs <;> rfl

end Exits

/-- Where a flight towards `t` is, seen from the state it started in: over a
chain of legs to the station `b`, and from there coasting. -/
structure Underway (P : Platform H σ X) (grid : Option ℕ) (fuel fin t : ℕ) (req : RunRequest H σ τ)
    (s s' : Seg H σ τ) (b : Station H σ) (n : ℕ) (kinds : List InputKind) : Prop where
  journey : Journey P grid fuel fin kinds ⟨s.rail, s.chain⟩ b
  coast : Coast P t n b.rail s'.rail
  station_chain : b.chain = s.chain
  station_icount : b.rail.icount = s.rail.icount ∨ b.rail.icount < t
  chain_eq : s'.chain = s.chain
  took : Took req (pendingInputs req s) (pendingInputs req s') s s' kinds

inductive Touchdown (P : Platform H σ X) (grid : Option ℕ) (fuel fin t : ℕ) (req : RunRequest H σ τ)
    (s : Seg H σ τ) : Flight H σ τ (Seg H σ τ) → Prop
  | landed {s' : Seg H σ τ} {b : Station H σ} {n : ℕ} {kinds : List InputKind} (hn : n < fuel)
      (h : Underway P grid fuel fin t req s s' b n kinds) (hicount : s'.rail.icount = t) :
      Touchdown P grid fuel fin t req s (.ok s')
  | frame {s' : Seg H σ τ} {kinds : List InputKind}
      (h : Journey P grid fuel fin kinds ⟨s.rail, s.chain⟩ ⟨s'.rail, s'.chain⟩)
      (hchain : s'.chain = s.chain) (hlt : s'.rail.icount < t)
      (htarget : req.frameTarget = some s'.framesSeen)
      (htook : Took req (pendingInputs req s) (pendingInputs req s') s s' kinds) :
      Touchdown P grid fuel fin t req s (.error (.eventStop s'))
  | halted {s' s1 : Seg H σ τ} {b : Station H σ} {n : ℕ} {kinds : List InputKind}
      (h : Underway P grid fuel fin t req s s1 b n kinds) (hlt : s1.rail.icount < t)
      (henter : enter P s1.rail = .halted s'.rail) (hchain : s'.chain = s.chain) :
      Touchdown P grid fuel fin t req s (.error (.halted s'))
  | failed (e : RunError H) : Touchdown P grid fuel fin t req s (.error (.error e))

section Landing

variable {P : Platform H σ X} {grid : Option ℕ} {fuel fin t n : ℕ} {req : RunRequest H σ τ}
  {s s1 : Seg H σ τ} {b : Station H σ} {kinds : List InputKind}

lemma Underway.refl (s : Seg H σ τ) : Underway P grid fuel fin t req s s ⟨s.rail, s.chain⟩ 0 [] :=
  ⟨.refl _, .refl _, rfl, .inl rfl, rfl, .refl _ _⟩

variable {s2 : Seg H σ τ} {r : Rail H σ}

lemma Underway.pass (h : Underway P grid fuel fin t req s s1 b n kinds)
    (hlt : s1.rail.icount < t) (hpass : Passes P s1.rail r)
    (hrail : s2.rail = r) (hchain : s2.chain = s1.chain) (hconsumed : s2.consumed = s1.consumed)
    (hpending : s2.pendingFrames = s1.pendingFrames) :
    Underway P grid fuel fin t req s s2 b (n + 1) kinds := by
  refine ⟨h.journey, hrail ▸ h.coast.snoc hlt hpass, h.station_chain, h.station_icount,
    hchain.trans h.chain_eq, ?_⟩
  have htook := h.took
  unfold Took pendingInputs at htook ⊢
  rwa [hconsumed, hpending]

lemma Underway.frame (h : Underway P grid fuel fin t req s s1 b n kinds)
    (hgrid : ∀ i, s.rail.icount < i → i < t → ¬OnGrid grid i) (hfuel : n < fuel) (ht : t ≤ fin)
    (hlt : s1.rail.icount < t) {frame : ℕ} {es : List Emit}
    (henter : enter P s1.rail = .frame frame r es)
    (hhold : holdFrame P req frame (noteExit req r es s1) = .ok s2) :
    ∃ kinds', Underway P grid fuel fin t req s s2 ⟨s2.rail, s.chain⟩ 0 kinds' ∧
      s2.rail.icount = s1.rail.icount := by
  obtain ⟨hframe, hchain, -, -, kinds', happlied, htook⟩ := holdFrame_eq_ok hhold
  obtain ⟨new, hbetween⟩ := h.journey.between
  have hicount : r.icount = s1.rail.icount := (enter_eq_frame henter).1
  have hleg : Leg P grid fuel fin kinds' b ⟨s2.rail, b.chain⟩ := by
    refine .frame h.coast hfuel hlt (hlt.trans_le ht) ?_ henter (Nat.zero_lt_of_lt hframe)
      (hicount ▸ happlied)
    intro i hi
    exact hgrid i (hbetween.icount_le.trans_lt hi)
  have hland : s2.rail.icount = s1.rail.icount := happlied.icount_eq.trans hicount
  rw [h.station_chain] at hleg
  exact ⟨kinds ++ kinds', ⟨h.journey.trans hleg.journey, .refl _, rfl, .inr (hland ▸ hlt),
    hchain.trans h.chain_eq, h.took.trans htook⟩, hland⟩

lemma landAt_touchdown (P : Platform H σ X) (fuel : ℕ) (hplain : Plain req) (ht : t ≤ fin)
    (hgrid : ∀ i, s.rail.icount < i → i < t → ¬OnGrid grid i) :
    Touchdown P grid fuel fin t req s (landAt P req fuel t s) := by
  unfold landAt
  cases hrun : Fuel.run (landStep P req t) fuel s with
  | none => exact .failed _
  | some result =>
    refine Fuel.run_induction_count
      (I := fun k s1 => ∃ b n kinds, n ≤ k ∧ Underway P grid fuel fin t req s s1 b n kinds)
      (Q := fun result => Touchdown P grid fuel fin t req s result) ?_ ?_
      ⟨_, 0, [], le_rfl, .refl s⟩ hrun
    · rintro k s1 s2 hk ⟨b, n, kinds, hn, h⟩ hstep
      unfold landStep at hstep
      split_ifs at hstep with hover harrived
      have hlt : s1.rail.icount < t := by omega
      cases henter : enter P s1.rail with
      | stepped r =>
        simp only [henter, onEntered] at hstep
        cases hstep
        exact ⟨b, n + 1, kinds, by omega, h.pass hlt (.inl henter) rfl rfl rfl rfl⟩
      | serviced r es =>
        simp only [henter, onEntered_serviced hplain] at hstep
        cases hstep
        exact ⟨b, n + 1, kinds, by omega, h.pass hlt (.inr ⟨es, henter⟩) rfl rfl rfl rfl⟩
      | frame frame r es =>
        rw [henter, onEntered_frame hplain] at hstep
        cases hhold : holdFrame P req frame (noteExit req r es s1) with
        | error u => simp [hhold] at hstep
        | ok s3 =>
          rw [hhold, ok_bind] at hstep
          split_ifs at hstep with htarget
          cases hstep
          obtain ⟨kinds', hnew, -⟩ := h.frame hgrid (by omega) ht hlt henter hhold
          exact ⟨_, 0, kinds', Nat.zero_le _, hnew⟩
      | halted | failed => simp [henter, onEntered] at hstep
    · rintro k s1 result hk ⟨b, n, kinds, hn, h⟩ hstep
      unfold landStep at hstep
      split_ifs at hstep with hover harrived
      · cases hstep
        exact .failed _
      · cases hstep
        exact .landed (by omega) h harrived
      have hlt : s1.rail.icount < t := by omega
      cases henter : enter P s1.rail with
      | stepped r => simp [henter, onEntered] at hstep
      | serviced r es => simp [henter, onEntered_serviced hplain] at hstep
      | frame frame r es =>
        rw [henter, onEntered_frame hplain] at hstep
        cases hhold : holdFrame P req frame (noteExit req r es s1) with
        | error u =>
          rw [hhold, error_bind] at hstep
          cases hstep
          obtain ⟨e, rfl⟩ := holdFrame_error hhold
          exact .failed e
        | ok s3 =>
          rw [hhold, ok_bind] at hstep
          split_ifs at hstep with htarget
          cases hstep
          obtain ⟨kinds', hnew, hicount⟩ := h.frame hgrid (by omega) ht hlt henter hhold
          have hjourney : Journey P grid fuel fin kinds' ⟨s.rail, s.chain⟩
              ⟨s3.rail, s3.chain⟩ := hnew.chain_eq ▸ hnew.journey
          exact .frame hjourney hnew.chain_eq (hicount ▸ hlt) htarget hnew.took
      | halted r =>
        simp only [henter, onEntered] at hstep
        cases hstep
        exact .halted h hlt henter h.chain_eq
      | failed e =>
        simp only [henter, onEntered] at hstep
        cases hstep
        exact .failed _

end Landing

end DetHypervisor
