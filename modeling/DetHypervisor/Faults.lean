import DetHypervisor.FlightRules

/-!
# What a run can fail with

The errors of `run_segment`, function by function.
-/

namespace DetHypervisor

variable {H σ X τ : Type} {P : Platform H σ X} {req : RunRequest H σ τ} {fuel : ℕ}
  {timerSlot : Option ℕ} {s s' : Seg H σ τ}
  {caller : τ} {chain : H} {e : RunError H} {injections : List ScheduledInjection}
  {it : AgendaIter} {k : ℕ} {rail : Rail H σ} {w : AgendaIter × Seg H σ τ}

def Throws (E : RunError H → Prop) (u : Unwind H σ τ) : Prop := ∀ e, u = .error e → E e

lemma throws_error {E : RunError H → Prop} (h : E e) : Throws E (.error e : Unwind H σ τ) := by
  intro e' he'
  exact Unwind.error.inj he' ▸ h

section Ordinary

variable {E : RunError H → Prop}

/-! An exit fails only at its boundary. -/

lemma checkSdkFeed_throws (E : RunError H → Prop) (s : Seg H σ τ) :
    (checkSdkFeed req s).Post (fun _ => True) (Throws E) := by
  unfold checkSdkFeed
  split_ifs
  · exact fun e h => by cases h
  · exact trivial

section

variable (hE : ∀ e, E (.boundary e))
include hE

lemma lift_throws {α : Type} (x : Except (BoundaryError H) α) :
    (Flight.lift x : Flight H σ τ α).Post (fun _ => True) (Throws E) := by
  cases x with
  | ok a => exact trivial
  | error e => exact throws_error (hE e)

lemma applyAtFrame_throws (message : String) (kinds : List InputKind)
    (s : Seg H σ τ) : (applyAtFrame P message kinds s).Post (fun _ => True) (Throws E) := by
  induction kinds generalizing s with
  | nil => exact trivial
  | cons kind rest ih =>
    refine (lift_throws hE _).andThen ?_
    rintro ⟨r, vector⟩ - -
    cases vector with
    | none => exact ih _
    | some v => exact throws_error (hE _)

lemma holdFrame_throws (frame : ℕ) (s : Seg H σ τ) :
    (holdFrame P req frame s).Post (fun _ => True) (Throws E) := by
  unfold holdFrame
  split_ifs
  · exact throws_error (hE _)
  · exact (applyAtFrame_throws hE _ _ _).andThen (fun _ _ _ => applyAtFrame_throws hE _ _ _)

lemma onEntered_throws (P : Platform H σ X) (req : RunRequest H σ τ)
    (e : Entered H σ) (s : Seg H σ τ) : (onEntered P req s e).Post (fun _ => True) (Throws E) := by
  cases e with
  | stepped r => exact trivial
  | halted r => exact fun e h => by cases h
  | failed e => exact throws_error (hE e)
  | serviced r es => exact checkSdkFeed_throws E _
  | frame frame r es =>
    simp only [onEntered]
    have hframe : (onFrame P req frame (noteExit req r es s)).Post (fun _ => True)
        (Throws E) := by
      refine (holdFrame_throws hE frame _).andThen ?_
      intro s1 _ _
      split_ifs
      · exact fun e h => by cases h
      · exact fun e h => by cases h
      · exact trivial
    exact hframe.andThen (fun _ _ _ => checkSdkFeed_throws E _)

end

lemma guards_ordinary (hE : ∀ e : RunError H, e.Ordinary → E e) :
    Guards P req fuel timerSlot (fun _ _ => True) (fun _ => True) (Throws E) where
  entry _ := onEntered_throws (fun _ => hE _ trivial) P req _ _
  host _ _ _ _ := trivial
  fails h _ := throws_error (hE _ h)
  spent _ _ := throws_error (hE _ trivial)

lemma injectAtBoundary_ordinary (fuel vector budget : ℕ) (s : Seg H σ τ) :
    (injectAtBoundary P req fuel vector budget s).Post (fun _ => True) (Throws RunError.Ordinary) :=
  ((guards_ordinary fun _ h => h : Guards P req fuel none _ _ _).injectAtBoundary vector budget
    trivial).mono (fun _ _ => trivial) fun _ h => h

lemma deliver_ordinary {first : Bool} {vectors : List (ℕ × Option ℕ)}
    (h : ∀ v ∈ vectors, timerSlot = v.2 → req.timer ≠ none) :
    (deliver P req fuel timerSlot first vectors s).Post (fun _ => True)
      (Throws RunError.Ordinary) := by
  apply (guards_ordinary fun _ h => h).deliver first _ trivial
  intro v hv s1 u hnote
  obtain ⟨-, hslot, htimer⟩ := noteDelivery_error hnote
  exact absurd htimer (h v hv hslot)

lemma deliver_throws (first : Bool) (vectors : List (ℕ × Option ℕ)) (s : Seg H σ τ) :
    (deliver P req fuel timerSlot first vectors s).Post (fun _ => True)
      (Throws fun e => e.Ordinary ∨ ∃ message, e = .panicked message) := by
  apply (guards_ordinary fun _ => .inl).deliver first _ trivial
  intro v _ s1 u hnote
  obtain ⟨⟨message, rfl⟩, -⟩ := noteDelivery_error hnote
  exact throws_error (.inr ⟨message, rfl⟩)

lemma atPoint_throws (P : Platform H σ X) (req : RunRequest H σ τ) (fuel : ℕ)
    (injections : List ScheduledInjection) (timerSlot : Option ℕ) (p : StopPoint) (s : Seg H σ τ) :
    (atPoint P req fuel injections timerSlot p s).Post (fun _ => True)
      (Throws fun e => e.Ordinary ∨ ∃ s1 queued, Poised P req fuel p s s1 queued ∧
        deliver P req fuel timerSlot true (dueVectors injections queued p) s1 =
          .error (.error e)) := by
  apply ((guards_ordinary fun _ => .inl).atPoint injections (fun _ _ => trivial) _ trivial).mono
    (fun _ _ => trivial) fun _ h => h
  intro s1 queued hpoised _
  cases hres : deliver P req fuel timerSlot true (dueVectors injections queued p) s1 with
  | ok s2 => exact trivial
  | error u => exact fun e he => .inr ⟨s1, queued, hpoised, he ▸ hres⟩

end Ordinary

section

variable (h : Walks P fuel req rail chain caller injections timerSlot it k w)
include h

lemma Walks.next :
    ∃ p it', w.1.next = some (p, it') := by
  obtain ⟨cur, ds, inputs, vectors, links, hprogress⟩ := h.progress
  obtain ⟨p, it', hnext, -⟩ := hprogress.window.yields
  exact ⟨p, it', hnext⟩

lemma Walks.count_le :
    req.startIcount + k ≤ it.finalIcount := by
  obtain ⟨cur, ds, inputs, vectors, links, hprogress, hle⟩ :=
    h.induct (I := fun k _ cur _ _ _ _ => req.startIcount + k ≤ cur) le_rfl <| by
      intro k w cur ds inputs vectors links p it' s' vns ds' done _ hprogress hle hnext hfinal
        _ _ _ _
      have hyields := hprogress.window.yields_of_next hnext
      have := (hprogress.window.rest_of_next hnext hfinal).1
      have := hyields.cur_le
      have := hyields.cur_lt (by omega)
      omega
  have := hprogress.window.cur_le
  have := hprogress.final_eq
  omega

lemma Walks.runSegment_eq {r : Flight H σ τ (SegmentOutcome H × Seg H σ τ)}
    (hdone : walkStep P req fuel injections timerSlot w = .done r) :
    runSegment P fuel req rail chain caller = settle P req r := by
  have hle := h.count_le
  have hrun : Fuel.run (walkStep P req fuel injections timerSlot)
      (it.finalIcount - req.startIcount + 1) (it, startSeg req rail chain caller) = some r := by
    rw [show it.finalIcount - req.startIcount + 1 =
      k + (it.finalIcount - req.startIcount - k + 1) by omega, h.path.run]
    exact Fuel.run_succ_done hdone _
  have hwalk : walkAgenda P req fuel injections timerSlot it (startSeg req rail chain caller) =
      r := by
    unfold walkAgenda
    rw [hrun, Option.getD_some]
  rw [runSegment_eq_opening, h.opening_eq, Except.ok_bind]
  exact congrArg (settle P req) hwalk

end

lemma runSegment_fails (h : runSegment P fuel req rail chain caller = .error e) :
    (∃ message, e = .kvm message ∧ rail.icount ≠ req.startIcount) ∨ e = .missingSdkEventFeed ∨
      e = .agenda ∨ e = .clockOverflow ∨ ∃ injections timerSlot it k w p it',
        Walks P fuel req rail chain caller injections timerSlot it k w ∧ w.1.next = some (p, it') ∧
          atPoint P req fuel injections timerSlot p w.2 = .error (.error e) := by
  have hcounter {reason : StopReason} {s : Seg H σ τ}
      (h : finishAtCounter P req.options.hashFinalStop reason s = .error e) :
      e = .clockOverflow := by
    unfold finishAtCounter at h
    split at h
    · cases h
    · exact (Except.error.inj h).symm
  rw [runSegment_eq_opening] at h
  match hopening : opening P req rail with
  | .error e' =>
    rw [hopening] at h
    cases h
    rcases opening_error hopening with hkvm | rfl | rfl | rfl
    · exact .inl hkvm
    · exact .inr (.inr (.inr (.inl rfl)))
    · exact .inr (.inl rfl)
    · exact .inr (.inr (.inl rfl))
  | .ok none =>
    rw [hopening, Except.ok_bind] at h
    exact .inr (.inr (.inr (.inl (hcounter h))))
  | .ok (some (injections, timerSlot, it)) =>
    have hstart : Walks P fuel req rail chain caller injections timerSlot it 0
        (it, startSeg req rail chain caller) := walks_of_opening hopening
    rw [hopening, Except.ok_bind] at h
    unfold runOpened walkAgenda at h
    cases hrun : Fuel.run (walkStep P req fuel injections timerSlot)
        (it.finalIcount - req.startIcount + 1) (it, startSeg req rail chain caller) with
    | none =>
      -- the agenda has fewer points than that
      obtain ⟨w, hpath⟩ := Fuel.exists_path_of_run_eq_none hrun
      have hle := Walks.count_le (w := w) { hstart with path := hpath }
      omega
    | some result =>
      simp only [hrun, Option.getD_some] at h
      obtain ⟨k, w, -, hpath, hdone⟩ := Fuel.exists_path_of_run hrun
      have hwalks : Walks P fuel req rail chain caller injections timerSlot it k w :=
        { hstart with path := hpath }
      obtain ⟨p, it', hnext⟩ := hwalks.next
      simp only [walkStep, hnext] at hdone
      cases hpoint : atPoint P req fuel injections timerSlot p w.2 with
      | ok res =>
        cases res with
        | inl s1 => simp [hpoint] at hdone
        | inr out =>
          simp only [hpoint] at hdone
          cases hdone
          cases h
      | error u =>
        simp only [hpoint] at hdone
        cases hdone
        cases u with
        | halted | frameSinkStop | eventStop => exact .inr (.inr (.inr (.inl (hcounter h))))
        | error e' =>
          cases h
          exact .inr (.inr (.inr (.inr ⟨injections, timerSlot, it, k, w, p, it', hwalks,
            hnext, hpoint⟩)))

lemma runSegment_throws (h : runSegment P fuel req rail chain caller = .error e) :
    e.Ordinary ∨ e = .agenda ∨ e = .missingSdkEventFeed ∨
      (∃ message, e = .kvm message ∧ rail.icount ≠ req.startIcount) ∨
      ∃ injections timerSlot it k w p it' s1 queued,
        Walks P fuel req rail chain caller injections timerSlot it k w ∧
          w.1.next = some (p, it') ∧ Poised P req fuel p w.2 s1 queued ∧
          deliver P req fuel timerSlot true (dueVectors injections queued p) s1 =
            .error (.error e) := by
  rcases runSegment_fails h with hkvm | hfeed | hagenda | rfl |
    ⟨injections, timerSlot, it, k, w, p, it', hwalks, hnext, hpoint⟩
  · exact .inr (.inr (.inr (.inl hkvm)))
  · exact .inr (.inr (.inl hfeed))
  · exact .inr (.inl hagenda)
  · exact .inl trivial
  · have hthrows := atPoint_throws P req fuel injections timerSlot p w.2
    rcases hthrows.of_error hpoint e rfl with hord | ⟨s1, queued, hpoised, hdeliver⟩
    · exact .inl hord
    · exact .inr (.inr (.inr (.inr ⟨injections, timerSlot, it, k, w, p, it', s1, queued, hwalks,
        hnext, hpoised, hdeliver⟩)))

end DetHypervisor
