import DetHypervisor.Lib.Traced
import DetHypervisor.Landing

/-!
# What run control does

Run control as a labelled transition system: VM entries, applied inputs, delivered vectors, hash
links and calls of the epoch sink, each with the counter at that moment.
-/

namespace DetHypervisor

open List Except

variable {H σ X τ : Type}

inductive Deed where
  | entry
  | leave
  | input (index icount counter : ℕ)
  | vector (vector : ℕ) (injection : Option ℕ) (counter : ℕ)
  | link (icount vns counter : ℕ)
  | sink (icount : ℕ)
  deriving DecidableEq

def Unwind.seg? : Unwind H σ τ → Option (Seg H σ τ)
  | .halted s | .frameSinkStop s | .eventStop s => some s
  | .error _ => none

def segOf? : Flight H σ τ (Seg H σ τ) → Option (Seg H σ τ)
  | .ok s => some s
  | .error u => u.seg?

inductive Does (P : Platform H σ X) (req : RunRequest H σ τ) (timerSlot : Option ℕ) :
    Deed → Seg H σ τ → Seg H σ τ → Prop
  | entry {s s' : Seg H σ τ} (h : onEntered P req s (enter P s.rail) = .ok s') :
      Does P req timerSlot .entry s s'
  | leave {s s' : Seg H σ τ} {u : Unwind H σ τ}
      (h : onEntered P req s (enter P s.rail) = .error u) (hu : u.seg? = some s') :
      Does P req timerSlot .leave s s'
  | input {s : Seg H σ τ} {index icount rip : ℕ} {input : QueuedInput} {r : Rail H σ}
      {vector : Option ℕ} (hindex : req.inputs[index]? = some input)
      (h : s.rail.applyInput P input.kind icount rip = .ok (r, vector)) :
      Does P req timerSlot (.input index icount s.rail.icount) s
        { s with rail := r, consumed := s.consumed ++ [input] }
  | vector {s s1 s' : Seg H σ τ} {vector : ℕ} {injection : Option ℕ}
      (hopen : P.injectable s.rail.machine = true) (h : queueVector P vector s = .ok s1)
      (hnote : noteDelivery req timerSlot injection vector s1 = .ok s') :
      Does P req timerSlot (.vector vector injection s.rail.icount) s s'
  | link {s : Seg H σ τ} (icount vns : ℕ) :
      Does P req timerSlot (.link icount vns s.rail.icount) s (s.pushLink P icount vns)
  | sink {s s' : Seg H σ τ} {icount : ℕ} (h : sinkEpoch P req icount s = .ok s') :
      Does P req timerSlot (.sink icount) s s'

namespace Deed

def input? : Deed → Option (ℕ × ℕ × ℕ)
  | input index icount counter => some (index, icount, counter)
  | _ => none

def vector? : Deed → Option (ℕ × Option ℕ × ℕ)
  | vector v injection counter => some (v, injection, counter)
  | _ => none

def link? : Deed → Option (ℕ × ℕ × ℕ)
  | link icount vns counter => some (icount, vns, counter)
  | _ => none

end Deed

structure Kept (s s' : Seg H σ τ) : Prop where
  chain_eq : s'.chain = s.chain
  delivered_eq : s'.delivered = s.delivered
  timerFired_eq : s'.timerFired = s.timerFired

def Entered.rail? : Entered H σ → Option (Rail H σ)
  | .stepped r | .serviced r _ | .frame _ r _ | .halted r => some r
  | .failed _ => none

section Entry

variable {P : Platform H σ X} {req : RunRequest H σ τ} {s s' : Seg H σ τ}

variable {frame : ℕ}

lemma holdFrame_kept (h : holdFrame P req frame s = .ok s') :
    s'.rail.icount = s.rail.icount ∧ Kept s s' := by
  unfold holdFrame at h
  split_ifs at h
  obtain ⟨s1, hdue, hlive⟩ := bind_eq_ok.mp h
  obtain ⟨r1, happlied, rfl⟩ := applyAtFrame_eq_ok hdue
  obtain ⟨r2, happlied', rfl⟩ := applyAtFrame_eq_ok hlive
  exact ⟨happlied'.icount_eq.trans happlied.icount_eq, rfl, rfl, rfl⟩

lemma segOf_checkSdkFeed : segOf? (checkSdkFeed req s) = some s := by
  unfold checkSdkFeed
  split_ifs <;> rfl

lemma segOf_onFrame (h : segOf? (onFrame P req frame s) = some s') :
    holdFrame P req frame s = .ok s' := by
  unfold onFrame at h
  cases hhold : holdFrame P req frame s with
  | error u =>
    obtain ⟨e, rfl⟩ := holdFrame_error hhold
    rw [hhold] at h
    cases h
  | ok s1 =>
    rw [hhold, ok_bind] at h
    split_ifs at h <;> exact congrArg _ (Option.some.inj h)

lemma segOf_onEntered_frame {r : Rail H σ} {es : List Emit}
    (h : segOf? (onEntered P req s (.frame frame r es)) = some s') :
    holdFrame P req frame (noteExit req r es s) = .ok s' := by
  simp only [onEntered] at h
  cases hframe : onFrame P req frame (noteExit req r es s) with
  | error u =>
    rw [hframe] at h
    exact segOf_onFrame (hframe ▸ h)
  | ok s1 =>
    rw [hframe, ok_bind] at h
    cases segOf_checkSdkFeed.symm.trans h
    exact segOf_onFrame (hframe ▸ rfl)

lemma segOf_onEntered {e : Entered H σ} (h : segOf? (onEntered P req s e) = some s') :
    ∃ r, e.rail? = some r ∧ s'.rail.icount = r.icount ∧ Kept s s' := by
  cases e with
  | stepped r | halted r =>
    cases h
    exact ⟨r, rfl, rfl, rfl, rfl, rfl⟩
  | failed e => cases h
  | serviced r es =>
    have hs := Option.some.inj (segOf_checkSdkFeed.symm.trans h)
    subst hs
    exact ⟨r, rfl, rfl, rfl, rfl, rfl⟩
  | frame frame r es =>
    obtain ⟨hicount, hkept⟩ := holdFrame_kept (segOf_onEntered_frame h)
    exact ⟨r, rfl, hicount, hkept.chain_eq, hkept.delivered_eq, hkept.timerFired_eq⟩

lemma enter_icount_le {r r' : Rail H σ} (h : (enter P r).rail? = some r') :
    r.icount ≤ r'.icount := by
  cases henter : enter P r with
  | stepped r1 =>
    rw [henter] at h
    cases h
    exact (enter_eq_stepped henter).1
  | serviced r1 es =>
    rw [henter] at h
    cases h
    exact (enter_eq_serviced henter).1.ge
  | frame frame r1 es =>
    rw [henter] at h
    cases h
    exact (enter_eq_frame henter).1.ge
  | halted r1 =>
    rw [henter] at h
    cases h
    exact (enter_eq_halted henter).1.ge
  | failed e =>
    rw [henter] at h
    cases h

lemma onEntered_unwound {u : Unwind H σ τ} (h : onEntered P req s (enter P s.rail) = .error u)
    (hu : u.seg? = some s') : s'.rail.icount = s.rail.icount := by
  have hseg : segOf? (onEntered P req s (enter P s.rail)) = some s' := by rw [h]; exact hu
  obtain ⟨r, hr, hicount, -⟩ := segOf_onEntered hseg
  cases henter : enter P s.rail with
  | stepped r1 =>
    rw [henter] at h
    cases h
  | serviced r1 es =>
    rw [henter] at hr
    cases hr
    exact hicount.trans (enter_eq_serviced henter).1
  | frame frame r1 es =>
    rw [henter] at hr
    cases hr
    exact hicount.trans (enter_eq_frame henter).1
  | halted r1 =>
    rw [henter] at hr
    cases hr
    exact hicount.trans (enter_eq_halted henter).1
  | failed e =>
    rw [henter] at hr
    cases hr

end Entry

lemma queueVector_eq_ok {P : Platform H σ X} {vector : ℕ} {s s' : Seg H σ τ}
    (h : queueVector P vector s = .ok s') :
    s' = { s with rail := { s.rail with machine := P.queueInterrupt vector s.rail.machine } } := by
  unfold queueVector at h
  split_ifs at h
  exact (Except.ok.inj h).symm

lemma noteDelivery_rail {req : RunRequest H σ τ} {timerSlot injection : Option ℕ}
    {vector : ℕ} {s s' : Seg H σ τ} (h : noteDelivery req timerSlot injection vector s = .ok s') :
    s'.rail = s.rail := by
  unfold noteDelivery at h
  dsimp only at h
  split_ifs at h
  · split at h
    · cases h
      rfl
    · cases h
  · cases h
    rfl

lemma sinkEpoch_icount {P : Platform H σ X} {req : RunRequest H σ τ} {icount : ℕ}
    {s s' : Seg H σ τ} (h : sinkEpoch P req icount s = .ok s') :
    s'.rail.icount = s.rail.icount := by
  obtain ⟨⟨log, caller⟩, -, h⟩ := bind_eq_ok.mp h
  cases h
  rfl

section Deeds

variable {P : Platform H σ X} {req : RunRequest H σ τ} {timerSlot : Option ℕ}
  {s s' : Seg H σ τ} {d : Deed}

lemma Does.icount_eq (h : Does P req timerSlot d s s') (hd : d ≠ .entry) :
    s'.rail.icount = s.rail.icount := by
  cases h with
  | entry h => exact absurd rfl hd
  | leave h hu => exact onEntered_unwound h hu
  | input hindex h => exact (Rail.applyInput_spec h).1
  | vector hopen h hnote =>
    rw [noteDelivery_rail hnote, queueVector_eq_ok h]
  | link icount vns => rfl
  | sink h => exact sinkEpoch_icount h

lemma Does.icount_le (h : Does P req timerSlot d s s') : s.rail.icount ≤ s'.rail.icount := by
  by_cases hd : d = .entry
  · subst hd
    cases h with
    | entry h =>
      have hseg : segOf? (onEntered P req s (enter P s.rail)) = some s' := by rw [h]; rfl
      obtain ⟨r, hr, hicount, -⟩ := segOf_onEntered hseg
      exact hicount ▸ enter_icount_le hr
  · exact (h.icount_eq hd).ge

/-- From `s` to `s'` run control applied `inputs`, delivered `vectors` and
pushed `links`. -/
structure Conduct (P : Platform H σ X) (req : RunRequest H σ τ) (timerSlot : Option ℕ)
    (s s' : Seg H σ τ) (ds : List Deed) (inputs : List (ℕ × ℕ × ℕ))
    (vectors : List (ℕ × Option ℕ × ℕ)) (links : List (ℕ × ℕ × ℕ)) : Prop where
  traced : Traced (Does P req timerSlot) ds s s'
  inputs_eq : ds.filterMap Deed.input? = inputs
  vectors_eq : ds.filterMap Deed.vector? = vectors
  links_eq : ds.filterMap Deed.link? = links

namespace Conduct

variable {s1 : Seg H σ τ} {ds ds' : List Deed} {inputs inputs' : List (ℕ × ℕ × ℕ)}
  {vectors vectors' : List (ℕ × Option ℕ × ℕ)} {links links' : List (ℕ × ℕ × ℕ)}

lemma refl (s : Seg H σ τ) : Conduct P req timerSlot s s [] [] [] [] := ⟨.nil s, rfl, rfl, rfl⟩

lemma trans (h : Conduct P req timerSlot s s1 ds inputs vectors links)
    (h' : Conduct P req timerSlot s1 s' ds' inputs' vectors' links') :
    Conduct P req timerSlot s s' (ds ++ ds') (inputs ++ inputs') (vectors ++ vectors')
      (links ++ links') := by
  refine ⟨h.traced.append h'.traced, ?_, ?_, ?_⟩
  · rw [filterMap_append, h.inputs_eq, h'.inputs_eq]
  · rw [filterMap_append, h.vectors_eq, h'.vectors_eq]
  · rw [filterMap_append, h.links_eq, h'.links_eq]

lemma of_does (h : Does P req timerSlot d s s') :
    Conduct P req timerSlot s s' [d] d.input?.toList d.vector?.toList d.link?.toList := by
  refine ⟨.single h, ?_, ?_, ?_⟩ <;> cases d <;> rfl

lemma icount_le (h : Conduct P req timerSlot s s' ds inputs vectors links) :
    s.rail.icount ≤ s'.rail.icount :=
  h.traced.invariant (I := fun s1 => s.rail.icount ≤ s1.rail.icount)
    (fun _ _ _ _ hdoes hle => hle.trans hdoes.icount_le) le_rfl

end Conduct

end Deeds

section Flights

variable {P : Platform H σ X} {req : RunRequest H σ τ} {timerSlot : Option ℕ} {fuel t : ℕ}
  {s s' : Seg H σ τ} {u : Unwind H σ τ}

/-- A flight of VM entries alone; `left` when the last one unwound it. -/
def Flown (P : Platform H σ X) (req : RunRequest H σ τ) (timerSlot : Option ℕ)
    (left : Bool) (s s' : Seg H σ τ) : Prop :=
  ∃ n, Conduct P req timerSlot s s'
    (List.replicate n .entry ++ if left then [.leave] else []) [] [] []

lemma Flown.refl (s : Seg H σ τ) : Flown P req timerSlot false s s := ⟨0, .refl s⟩

lemma Flown.trans {left : Bool} {s1 : Seg H σ τ} (h : Flown P req timerSlot false s s1)
    (h' : Flown P req timerSlot left s1 s') : Flown P req timerSlot left s s' := by
  obtain ⟨n, h⟩ := h
  obtain ⟨m, h'⟩ := h'
  refine ⟨n + m, ?_⟩
  have htrans := h.trans h'
  simpa [← append_assoc, replicate_append_replicate] using htrans

lemma Flown.entry (h : onEntered P req s (enter P s.rail) = .ok s') :
    Flown P req timerSlot false s s' := ⟨1, .of_does (.entry h)⟩

lemma Flown.leave (h : onEntered P req s (enter P s.rail) = .error u) (hu : u.seg? = some s') :
    Flown P req timerSlot true s s' := ⟨0, .of_does (.leave h hu)⟩

lemma Flown.icount_le {left : Bool} (h : Flown P req timerSlot left s s') :
    s.rail.icount ≤ s'.rail.icount := by
  obtain ⟨n, h⟩ := h
  exact h.icount_le

/-- An early stop comes from an exit, and the state it leaves satisfies `Q`. -/
def Stopped (P : Platform H σ X) (req : RunRequest H σ τ) (Q : Seg H σ τ → Prop)
    (u : Unwind H σ τ) : Prop :=
  ∀ s', u.seg? = some s' → Q s' ∧ ∃ s, onEntered P req s (enter P s.rail) = .error u

lemma stopped_error {Q : Seg H σ τ → Prop} (e : RunError H) : Stopped P req Q (.error e) := by
  intro s' h
  cases h

lemma Stopped.imp {Q Q' : Seg H σ τ → Prop} (h : Stopped P req Q u)
    (hQ : ∀ s', Q s' → Q' s') : Stopped P req Q' u :=
  fun s' hs' => ⟨hQ s' (h s' hs').1, (h s' hs').2⟩

variable {B : Unwind H σ τ → Prop} {I A : Seg H σ τ → Prop}

lemma flight_rule {step : Seg H σ τ → Fuel.Step (Seg H σ τ) (Flight H σ τ (Seg H σ τ))}
    (hstep : ∀ s, I s → (step s).Post I (Except.Post A B))
    (hfuel : ∀ s', Fuel.Path step fuel s s' → B (.error .outOfFuel)) (hs : I s) :
    ((Fuel.run step fuel s).getD (.fail .outOfFuel)).Post A B := by
  cases hrun : Fuel.run step fuel s with
  | none =>
    obtain ⟨s', hpath⟩ := Fuel.exists_path_of_run_eq_none hrun
    exact hfuel s' hpath
  | some result =>
    exact Fuel.run_induction (fun a a' ha => (hstep a ha).of_next)
      (fun a r ha => (hstep a ha).of_done) hs hrun

lemma landAt_rule
    (hentry : ∀ s, I s → s.rail.icount < t → (onEntered P req s (enter P s.rail)).Post I B)
    (harrived : ∀ s, I s → s.rail.icount = t → A s)
    (hover : ∀ s, I s → t < s.rail.icount → B (.error (.boundary (.overshoot t s.rail.icount))))
    (hfuel : ∀ s', Fuel.Path (landStep P req t) fuel s s' → B (.error .outOfFuel)) (hs : I s) :
    (landAt P req fuel t s).Post A B := by
  refine flight_rule (fun s1 hI => ?_) hfuel hs
  unfold landStep
  split_ifs with hgt hat
  · exact hover s1 hI hgt
  · exact harrived s1 hI hat
  · have hpost := hentry s1 hI (by omega)
    cases hentered : onEntered P req s1 (enter P s1.rail) with
    | ok s3 => exact hpost.of_ok hentered
    | error u => exact hpost.of_error hentered

lemma stepOneEntry_rule
    (hentry : ∀ s, I s → (∀ r, enter P s.rail ≠ .stepped r) →
      (onEntered P req s (enter P s.rail)).Post I B)
    (htrap : ∀ s r, I s → enter P s.rail = .stepped r → A { s with rail := r })
    (hfuel : ∀ s', Fuel.Path (entryStep P req) fuel s s' → B (.error .outOfFuel)) (hs : I s) :
    (stepOneEntry P req fuel s).Post A B := by
  refine flight_rule (fun s1 hI => ?_) hfuel hs
  unfold entryStep
  split
  · rename_i r hstepped
    exact htrap s1 r hI hstepped
  · rename_i hno
    have hpost := hentry s1 hI hno
    cases hentered : onEntered P req s1 (enter P s1.rail) with
    | ok s3 => exact hpost.of_ok hentered
    | error u => exact hpost.of_error hentered

variable (P) (req) (timerSlot) (fuel) (vector : ℕ) (budget : ℕ)

lemma landAt_spec (t : ℕ) (s : Seg H σ τ) : (landAt P req fuel t s).Post
      (fun s' => Flown P req timerSlot false s s' ∧ s'.rail.icount = t)
      (Stopped P req fun s' => Flown P req timerSlot true s s' ∧ s'.rail.icount < t) := by
  refine landAt_rule (I := Flown P req timerSlot false s) ?_ (fun s1 h hat => ⟨h, hat⟩)
    (fun _ _ _ => stopped_error _) (fun _ _ => stopped_error _) (.refl s)
  intro s1 hflown hlt
  cases hentered : onEntered P req s1 (enter P s1.rail) with
  | ok s2 => exact hflown.trans (.entry hentered)
  | error u =>
    intro s' hu
    have hicount := onEntered_unwound hentered hu
    exact ⟨⟨hflown.trans (.leave hentered hu), by omega⟩, s1, hentered⟩

lemma stepOneEntry_spec (s : Seg H σ τ) :
    (stepOneEntry P req fuel s).Post (Flown P req timerSlot false s)
      (Stopped P req (Flown P req timerSlot true s)) := by
  refine stepOneEntry_rule (I := Flown P req timerSlot false s) ?_ ?_
    (fun _ _ => stopped_error _) (.refl s)
  · intro s1 hflown _
    cases hentered : onEntered P req s1 (enter P s1.rail) with
    | ok s2 => exact hflown.trans (.entry hentered)
    | error u => exact fun s' hu => ⟨hflown.trans (.leave hentered hu), s1, hentered⟩
  · intro s1 r hflown hstepped
    exact hflown.trans (.entry (by rw [hstepped]; rfl))

/-- A vector queued after single steps; no step when the window was open. -/
structure Deferred (s s1 s' : Seg H σ τ) : Prop where
  flown : Flown P req timerSlot false s s1
  window : P.injectable s1.rail.machine = true
  queued : queueVector P vector s1 = .ok s'
  icount_le : s1.rail.icount ≤ s.rail.icount + budget
  prompt : P.injectable s.rail.machine = true → s1 = s

lemma injectAtBoundary_spec (s : Seg H σ τ) : (injectAtBoundary P req fuel vector budget s).Post
      (fun s' => ∃ s1, Deferred P req timerSlot vector budget s s1 s')
      (Stopped P req fun s' => Flown P req timerSlot true s s' ∧
        P.injectable s.rail.machine = false) := by
  have hqueue (budget : ℕ) {s : Seg H σ τ} (hopen : P.injectable s.rail.machine = true) :
      (queueVector P vector s).Post (fun s' => ∃ s1, Deferred P req timerSlot vector budget s s1 s')
        (Stopped P req fun s' => Flown P req timerSlot true s s' ∧
          P.injectable s.rail.machine = false) := by
    cases hq : queueVector P vector s with
    | ok s' => exact ⟨s, .refl s, hopen, hq, Nat.le_add_right _ _, fun _ => rfl⟩
    | error u =>
      unfold queueVector at hq
      split_ifs at hq
      cases hq
      exact stopped_error _
  induction budget generalizing s with
  | zero =>
    unfold injectAtBoundary
    split_ifs with hopen
    · exact hqueue 0 hopen
    · exact stopped_error _
  | succ budget ih =>
    unfold injectAtBoundary
    split_ifs with hopen
    · exact hqueue _ hopen
    · have hclosed : P.injectable s.rail.machine = false := by simpa using hopen
      refine (landAt_spec P req timerSlot fuel (s.rail.icount + 1) s).bind ?_ ?_
      · rintro s1 - ⟨hflown, hicount⟩
        refine (ih s1).mono ?_ ?_
        · rintro s' ⟨s2, h⟩
          have hle := h.icount_le
          exact ⟨s2, hflown.trans h.flown, h.window, h.queued, by omega,
            fun h => absurd h hopen⟩
        · exact fun u h => h.imp fun s' hs' => ⟨hflown.trans hs'.1, hclosed⟩
      · exact fun u h => h.imp fun s' hs' => ⟨hs'.1, hclosed⟩

end Flights

end DetHypervisor
