import DetHypervisor.BoundaryEngine

/-!
# Landing at an exact count

The margins leave room for the skid of a far entry, so a landing never passes its target. But an
entry may stop between two iterations of a string instruction, and a far entry that ends at the
target count may end inside the next one.
-/

namespace DetHypervisor.Engine

/-- The guest's execution as a line of interruptible points. An iteration of a string
instruction moves to the next point without retiring. -/
structure Guest where
  count : ℕ → ℕ
  regs : ℕ → ℕ × ℕ
  count_mono : Monotone count
  count_succ : ∀ point, count (point + 1) ≤ count point + 1

section Landing

variable {ω X ε : Type}

/-- What is assumed of the host: only entries move the guest, a far entry stops at most `skid`
retirements past the armed period, and a single-stepped one retires at most one instruction. -/
structure Tracks (G : Guest) (E : Host ω X) (onExit : Handler ω X ε) (skid : ℕ)
    (pos : ω → ℕ) : Prop where
  read_pos : ∀ w, pos (E.read w).2 = pos w
  read_eq : ∀ w c, (E.read w).1 = .ok c → c = G.count (pos w)
  regs_pos : ∀ w, pos (E.getRegs w).2 = pos w
  regs_eq : ∀ w r, (E.getRegs w).1 = .ok r → r = G.regs (pos w)
  arm_pos : ∀ period w, pos (E.armPeriod period w).2 = pos w
  debug_pos : ∀ on w, pos (E.setGuestDebug on w).2 = pos w
  clear_pos : ∀ w, pos (E.clearImmediateExit w) = pos w
  exit_pos : ∀ x w, pos (onExit x w).2 = pos w
  exit_ne : ∀ x w target counted, (onExit x w).1 ≠ .error (.overshoot target counted)
  run_le : ∀ debug period w, pos w ≤ pos (E.run debug period w).2
  run_far : ∀ period w,
    G.count (pos (E.run false period w).2) ≤ G.count (pos w) + period + skid
  run_step : ∀ period w, G.count (pos (E.run true period w).2) ≤ G.count (pos w) + 1

/-- A turn leaves the guest not before its point and not past the target, and lands at the
target only. -/
structure Kept (G : Guest) (pos : ω → ℕ) (target start : ℕ)
    (r : Except (Error ε) Boundary) (v : Vcpu ω) : Prop where
  le : start ≤ pos v.env
  count_le : G.count (pos v.env) ≤ target
  not_overshoot : ∀ t c, r ≠ .error (.overshoot t c)
  lands : ∀ b, r = .ok b → G.count (pos v.env) = target ∧
    b = ⟨target, (G.regs (pos v.env)).1, (G.regs (pos v.env)).2⟩

structure Short (G : Guest) (pos : ω → ℕ) (target start : ℕ) (s : Bool × Vcpu ω) : Prop where
  le : start ≤ pos s.2.env
  count_le : G.count (pos s.2.env) ≤ target
  debug_eq : s.2.debug = s.1

def Leave.result {ρ : Type} : Leave ε ρ → Except (Error ε) ρ
  | .early e => .error e
  | .broke r => r

variable {G : Guest} {E : Host ω X} {onExit : Handler ω X ε} {m : Margins} {pos : ω → ℕ}
  {target start skid : ℕ} {fuel : ℕ} {r : Return ε} {s : Bool × Vcpu ω} {v v' : Vcpu ω}

def Within (G : Guest) (pos : ω → ℕ) (target start : ℕ) (w : ω) : Prop :=
  start ≤ pos w ∧ G.count (pos w) ≤ target

lemma Within.of_pos {w w' : ω} (h : Within G pos target start w) (hpos : pos w' = pos w) :
    Within G pos target start w' := ⟨hpos.symm ▸ h.1, hpos.symm ▸ h.2⟩

lemma Kept.of_error {e : Error ε} (hv : Within G pos target start v.env)
    (he : ∀ t c, e ≠ .overshoot t c) : Kept G pos target start (.error e) v :=
  ⟨hv.1, hv.2, fun t c h => he t c (Except.error.inj h), nofun⟩

namespace Tracks

variable (hT : Tracks G E onExit skid pos) {e : Error ε} {on : Bool} {r : Except (Error ε) Unit}
  {w : ω} {x : Exit X}
include hT

lemma setSinglestep_pos (h : setSinglestep E on v = (r, v')) :
    pos v'.env = pos v.env ∧ ∀ t c, r ≠ .error (.overshoot t c) := by
  have hpos := hT.debug_pos on v.env
  unfold setSinglestep at h
  split at h
  next hset =>
    cases h
    rw [hset] at hpos
    exact ⟨hpos, nofun⟩
  next hset =>
    cases h
    rw [hset] at hpos
    exact ⟨hpos, nofun⟩

lemma setSinglestep_kept (h : setSinglestep E on v = (.error e, v'))
    (hv : Within G pos target start v.env) : Kept G pos target start (.error e) v' := by
  obtain ⟨hpos, hne⟩ := hT.setSinglestep_pos h
  exact .of_error (hv.of_pos hpos) fun t c he => hne t c (he ▸ rfl)

lemma arm_pos_eq {period : ℕ} (h : arm E period v = (r, v')) :
    pos v'.env = pos v.env ∧ ∀ t c, r ≠ .error (.overshoot t c) := by
  have hpos := hT.arm_pos period v.env
  unfold arm at h
  split at h
  next harm =>
    cases h
    rw [harm] at hpos
    exact ⟨hpos, nofun⟩
  next harm =>
    cases h
    rw [harm] at hpos
    exact ⟨hpos, nofun⟩

lemma exit_within {w' : ω} (h : onExit x w = (r, w')) (hw : Within G pos target start w) :
    Within G pos target start w' := by
  have hpos := hT.exit_pos x w
  rw [h] at hpos
  exact hw.of_pos hpos

lemma exit_kept (h : onExit x w = (.error e, v.env)) (hw : Within G pos target start w) :
    Kept G pos target start (.error e) v := by
  refine .of_error (hT.exit_within h hw) fun t c he => hT.exit_ne x w t c ?_
  rw [h, he]

lemma farEntry_kept (hentry : Within G pos target start (E.run v.debug v.period v.env).2) :
    (farEntry E onExit v).Post (fun v' => Within G pos target start v'.env) fun p =>
      Kept G pos target start p.1.result p.2 := by
  unfold farEntry
  split
  next x w hkvm =>
    rw [hkvm] at hentry
    split
    next w1 hok => exact hT.exit_within hok hentry
    next e w1 herr => exact hT.exit_kept (v := { v with env := w1 }) herr hentry
  next w hkvm =>
    rw [hkvm] at hentry
    exact hentry.of_pos (hT.clear_pos w)
  next e w hkvm =>
    rw [hkvm] at hentry
    exact .of_error hentry nofun

lemma rearm_kept (hv : Within G pos target start v.env) :
    (rearm E v : Fuel.Step (Vcpu ω) (Leave ε Boundary × Vcpu ω)).Post
      (fun v' => Within G pos target start v'.env) fun p =>
        Kept G pos target start p.1.result p.2 := by
  unfold rearm
  split
  next v1 hset => exact hv.of_pos (hT.setSinglestep_pos hset).1
  next e v1 hset => exact hT.setSinglestep_kept hset hv

lemma nearEntry_kept (hentry : Within G pos target start (E.run v.debug v.period v.env).2) :
    (nearEntry E onExit v).Post (fun v' => Within G pos target start v'.env) fun p =>
      Kept G pos target start p.1.result p.2 := by
  unfold nearEntry
  split
  next w hkvm =>
    rw [hkvm] at hentry
    exact hT.rearm_kept (v := { v with env := w }) hentry
  next x w hx hkvm =>
    rw [hkvm] at hentry
    split
    next w1 hok => exact hT.rearm_kept (v := { v with env := w1 }) (hT.exit_within hok hentry)
    next e w1 herr => exact hT.exit_kept (v := { v with env := w1 }) herr hentry
  next w hkvm =>
    rw [hkvm] at hentry
    exact hentry.of_pos (hT.clear_pos w)
  next e w hkvm =>
    rw [hkvm] at hentry
    exact .of_error hentry nofun

lemma flagged_nearEntry_kept (hv : v.debug = true) (hle : start ≤ pos v.env)
    (hcount : G.count (pos v.env) < target) :
    (flagged true (nearEntry E onExit v)).Post (Short G pos target start) fun p =>
      Kept G pos target start p.1.result p.2.2 := by
  have hentry : Within G pos target start (E.run v.debug v.period v.env).2 := by
    refine ⟨hle.trans (hT.run_le _ _ _), ?_⟩
    rw [hv]
    exact (hT.run_step v.period v.env).trans hcount
  have hdebug := nearEntry_spec E onExit hv
  have hkept := hT.nearEntry_kept hentry
  cases hturn : nearEntry E onExit v with
  | next v' =>
    obtain ⟨hle', hcount'⟩ := hkept.of_next hturn
    exact ⟨hle', hcount', hdebug.of_next hturn⟩
  | done p => exact hkept.of_done hturn

end Tracks

variable (hT : Tracks G E onExit m.skidMargin pos)
include hT

lemma approach_kept (hs : Short G pos target start s) (hcount : G.count (pos s.2.env) < target) :
    (approach E onExit m (target - G.count (pos s.2.env)) s).Post (Short G pos target start)
      fun p => Kept G pos target start p.1.result p.2.2 := by
  obtain ⟨stepping, v⟩ := s
  obtain ⟨hle, -, hdebug⟩ := hs
  cases stepping with
  | true => exact hT.flagged_nearEntry_kept hdebug hle hcount
  | false =>
    have hv : Within G pos target start v.env := ⟨hle, hcount.le⟩
    have harmed : ∀ {period : ℕ} {e : Error ε} {v1 : Vcpu ω},
        arm E period v = (.error e, v1) → Kept G pos target start (.error e) v1 := by
      intro period e v1 harm
      obtain ⟨hpos, hne⟩ := hT.arm_pos_eq harm
      exact .of_error (hv.of_pos hpos) fun t c he => hne t c (he ▸ rfl)
    unfold approach
    dsimp only
    split_ifs with hfar
    · split
      next e v1 harm => exact harmed harm
      next v1 harm =>
        have hpos := (hT.arm_pos_eq harm).1
        have hoff : v1.debug = false := (arm_debug harm).trans hdebug
        have hbound := hT.run_far v1.period v1.env
        rw [← hoff, (arm_ok harm).2, hpos] at hbound
        have hentry : Within G pos target start (E.run v1.debug v1.period v1.env).2 := by
          refine ⟨(hpos.symm ▸ hle).trans (hT.run_le _ _ _), ?_⟩
          rw [(arm_ok harm).2]
          omega
        have hkept := hT.farEntry_kept hentry
        have hstays := farEntry_debug E onExit v1
        cases hturn : farEntry E onExit v1 with
        | next v' =>
          obtain ⟨hle', hcount'⟩ := hkept.of_next hturn
          exact ⟨hle', hcount', (hstays.of_next hturn).trans hoff⟩
        | done p => exact hkept.of_done hturn
    · split
      next e v1 harm => exact harmed harm
      next v1 harm =>
        have hpos := (hT.arm_pos_eq harm).1
        split
        next e v2 hset => exact hT.setSinglestep_kept hset (hv.of_pos hpos)
        next v2 hset =>
          have hpos2 := (hT.setSinglestep_pos hset).1.trans hpos
          exact hT.flagged_nearEntry_kept (setSinglestep_ok hset).2.1 (hpos2.symm ▸ hle)
            (hpos2.symm ▸ hcount)

lemma landTurn_kept (hs : Short G pos target start s) :
    (landTurn E onExit m target s).Post (Short G pos target start) fun p =>
      Kept G pos target start p.1.result p.2.2 := by
  have hpos := hT.read_pos s.2.env
  have hwithin : Within G pos target start s.2.env := ⟨hs.le, hs.count_le⟩
  unfold landTurn
  split
  next e w hread =>
    rw [hread] at hpos
    exact .of_error (hwithin.of_pos hpos) nofun
  next c w hread =>
    rw [hread] at hpos
    obtain rfl : c = G.count (pos s.2.env) := hT.read_eq s.2.env c (by rw [hread])
    split_ifs with hover hat
    · exact (Nat.not_lt.mpr hs.count_le hover).elim
    · have hregs := hT.regs_pos w
      split
      next e w' hget =>
        rw [hget] at hregs
        exact .of_error (hwithin.of_pos (hregs.trans hpos)) nofun
      next rip rcx w' hget =>
        have heq : (rip, rcx) = G.regs (pos w) := hT.regs_eq w _ (by rw [hget])
        rw [hget] at hregs
        have hpos' : pos w' = pos s.2.env := hregs.trans hpos
        obtain ⟨hle, hcount⟩ := hwithin.of_pos hpos'
        refine ⟨hle, hcount, nofun, fun b h => ?_⟩
        cases h
        have hregs' : G.regs (pos w') = (rip, rcx) := by rw [heq, hregs]
        exact ⟨by rw [hpos', hat], by dsimp only; rw [hregs', hat]⟩
    · have hshort : Short G pos target start (s.1, { s.2 with env := w }) :=
        ⟨(hwithin.of_pos hpos).1, (hwithin.of_pos hpos).2, hs.debug_eq⟩
      have hposw : pos w = pos s.2.env := hpos
      rw [← hposw] at hat ⊢
      exact approach_kept hT hshort (lt_of_le_of_ne (hwithin.of_pos hpos).2 hat)

lemma short_of_path (hv : v.debug = false) (hcount : G.count (pos v.env) ≤ target) {n : ℕ}
    (h : Fuel.Path (landTurn E onExit m target) n (false, v) s) :
    Short G pos target (pos v.env) s :=
  h.preserves (I := Short G pos target (pos v.env))
    (fun _ _ ha hnext => (landTurn_kept hT ha).of_next hnext) ⟨le_rfl, hcount, hv⟩

lemma landAt_kept (hv : v.debug = false)
    (hcount : G.count (pos v.env) ≤ target) (h : landAt E onExit m target fuel v = some (r, v')) :
    Kept G pos target (pos v.env) r.result v' := by
  obtain ⟨⟨l, b, v1⟩, hrun, hend⟩ := Option.map_eq_some_iff.mp h
  obtain ⟨k, s, -, hpath, hdone⟩ := Fuel.exists_path_of_run hrun
  have hkept := (landTurn_kept hT (short_of_path hT hv hcount hpath)).of_done hdone
  cases l with
  | early e =>
    cases hend
    exact hkept
  | broke r' =>
    cases b with
    | false =>
      cases hend
      exact hkept
    | true =>
      unfold landEnd at hend
      dsimp only at hend
      split at hend
      next v2 hset =>
        have hpos := (hT.setSinglestep_pos hset).1
        cases hend
        refine ⟨hpos.symm ▸ hkept.le, hpos.symm ▸ hkept.count_le, hkept.not_overshoot,
          fun b hb => ?_⟩
        rw [hpos]
        exact hkept.lands b hb
      next e v2 hset =>
        cases hend
        exact hT.setSinglestep_kept hset ⟨hkept.le, hkept.count_le⟩

lemma landAt_of_at
    (hcount : G.count (pos v.env) = target) (h : landAt E onExit m target fuel v = some (r, v')) :
    pos v'.env = pos v.env := by
  obtain ⟨⟨l, b, v1⟩, hrun, hend⟩ := Option.map_eq_some_iff.mp h
  obtain ⟨n, rfl⟩ : ∃ n, fuel = n + 1 := by
    cases fuel with
    | zero => cases hrun
    | succ n => exact ⟨n, rfl⟩
  have hturn : ∃ l' v2, landTurn E onExit m target (false, v) = .done (l', false, v2) ∧
      pos v2.env = pos v.env := by
    have hpos := hT.read_pos v.env
    unfold landTurn
    split
    next e w hread =>
      rw [hread] at hpos
      exact ⟨_, _, rfl, hpos⟩
    next c w hread =>
      rw [hread] at hpos
      obtain rfl : c = target := (hT.read_eq v.env c (by rw [hread])).trans hcount
      rw [if_neg (lt_irrefl c), if_pos rfl]
      have hregs := hT.regs_pos w
      split
      next hget =>
        rw [hget] at hregs
        exact ⟨_, _, rfl, hregs.trans hpos⟩
      next hget =>
        rw [hget] at hregs
        exact ⟨_, _, rfl, hregs.trans hpos⟩
  obtain ⟨l', v2, hturn, hpos⟩ := hturn
  rw [Fuel.run_succ_done hturn, Option.some.injEq, Prod.mk.injEq, Prod.mk.injEq] at hrun
  obtain ⟨rfl, rfl, rfl⟩ := hrun
  cases l' with
  | early | broke =>
    cases hend
    exact hpos

end Landing

/-- Some landing from the point `start` ends at the boundary `b`: with some
margins, and some exits and kicks on the way. -/
def Lands (G : Guest) (start target : ℕ) (b : Boundary) : Prop :=
  ∃ (ω X ε : Type) (E : Host ω X) (onExit : Handler ω X ε) (m : Margins) (pos : ω → ℕ)
    (v : Vcpu ω) (fuel : ℕ) (r : Return ε) (v' : Vcpu ω),
    Tracks G E onExit m.skidMargin pos ∧ pos v.env = start ∧ v.debug = false ∧
      landAt E onExit m target fuel v = some (r, v') ∧ r.result = .ok b

/-- A host whose far entries run to the point `p` when the period and the skid
allow it. -/
def jumpHost (G : Guest) (skid p : ℕ) : Host ℕ Unit where
  read w := (.ok (G.count w), w)
  armPeriod _ w := (.ok (), w)
  run debug period w :=
    (.interrupted, if debug = false ∧ w ≤ p ∧ G.count p ≤ G.count w + period + skid then p else w)
  setGuestDebug _ w := (.ok (), w)
  getRegs w := (.ok (G.regs w), w)
  clearImmediateExit w := w
  injectable w := (.ok true, w)
  queueInterrupt _ w := (.ok (), w)

def servicing : Handler ℕ Unit Unit := fun _ w => (.ok (), w)

lemma tracks_jumpHost (G : Guest) (skid p : ℕ) :
    Tracks G (jumpHost G skid p) servicing skid id := by
  constructor
  case read_eq => exact fun w c h => (Except.ok.inj h).symm
  case regs_eq => exact fun w r h => (Except.ok.inj h).symm
  case run_le =>
    intro debug period w
    simp only [jumpHost, id]
    split_ifs with h
    · exact h.2.1
    · exact le_rfl
  case run_far =>
    intro period w
    simp only [jumpHost, id]
    split_ifs with h
    · exact h.2.2
    · exact (Nat.le_add_right _ _).trans (Nat.le_add_right _ _)
  case run_step =>
    intro period w
    simp [jumpHost]
  all_goals intros; first | rfl | nofun

lemma lands_jump {G : Guest} {start target p : ℕ} (m : Margins)
    (hfar : m.skidMargin + m.resyncSlack < target - G.count start) (hle : start ≤ p)
    (hp : G.count p = target) : Lands G start target ⟨target, (G.regs p).1, (G.regs p).2⟩ := by
  set period := target - G.count start - m.skidMargin with hperiod
  refine ⟨ℕ, Unit, Unit, jumpHost G m.skidMargin p, servicing, m, id, ⟨start, false, 0⟩, 2,
    .closed (.ok ⟨target, (G.regs p).1, (G.regs p).2⟩),
    ⟨p, false, period⟩, tracks_jumpHost G m.skidMargin p, rfl, rfl, ?_, rfl⟩
  have hjump : landTurn (jumpHost G m.skidMargin p) servicing m target
      (false, ⟨start, false, 0⟩) = .next (false, ⟨p, false, period⟩) := by
    have hreach : start ≤ p ∧ G.count p ≤ G.count start + period + m.skidMargin := by omega
    unfold landTurn
    simp only [jumpHost]
    rw [if_neg (by omega), if_neg (by omega)]
    simp only [approach, arm, farEntry, flagged]
    rw [if_pos hfar, ← hperiod]
    simp [hreach.1, hreach.2]
  have hland : landTurn (jumpHost G m.skidMargin p) servicing m target
      (false, ⟨p, false, period⟩) =
      .done (.broke (.ok ⟨target, (G.regs p).1, (G.regs p).2⟩), false, ⟨p, false, period⟩) := by
    unfold landTurn
    simp only [jumpHost]
    rw [if_neg (by omega), if_pos hp, hp]
  unfold landAt
  rw [Fuel.run_succ_next hjump, Fuel.run_succ_done hland]
  rfl

def noMargins : Margins := ⟨0, 0, by norm_num, by norm_num⟩

/-- The engine lands at the target only and never overshoots. The boundary is the same for all
margins exactly when the points of the guest at the target count look alike, or no entry is
made. -/
theorem exact_landing_iff (G : Guest) {start target : ℕ} (hstart : G.count start ≤ target) :
    (∀ (ω X ε : Type) (E : Host ω X) (onExit : Handler ω X ε) (m : Margins) (pos : ω → ℕ)
      (v : Vcpu ω), Tracks G E onExit m.skidMargin pos → pos v.env = start → v.debug = false →
      (∀ n s, Fuel.Path (landTurn E onExit m target) n (false, v) s →
        G.count (pos s.2.env) ≤ target) ∧
      ∀ fuel r v', landAt E onExit m target fuel v = some (r, v') → G.count (pos v'.env) ≤ target ∧
        (∀ t c, r.result ≠ .error (.overshoot t c)) ∧
        ∀ b, r.result = .ok b → b.icount = target ∧ G.count (pos v'.env) = target) ∧
    ((∀ b b', Lands G start target b → Lands G start target b' → b = b') ↔
      G.count start = target ∨ ∀ p q, start ≤ p → start ≤ q → G.count p = target →
        G.count q = target → G.regs p = G.regs q) := by
  constructor
  · intro ω X ε E onExit m pos v hT hpos hv
    subst hpos
    refine ⟨fun n s hpath => (short_of_path hT hv hstart hpath).count_le, ?_⟩
    intro fuel r v' h
    have hkept := landAt_kept hT hv hstart h
    refine ⟨hkept.count_le, hkept.not_overshoot, fun b hb => ?_⟩
    obtain ⟨hat, rfl⟩ := hkept.lands b hb
    exact ⟨rfl, hat⟩
  constructor
  · intro hsame
    rcases hstart.eq_or_lt with heq | hlt
    · exact .inl heq
    · refine .inr fun p q hp hq hpt hqt => ?_
      have heq := hsame _ _ (lands_jump noMargins (Nat.sub_pos_of_lt hlt) hp hpt)
        (lands_jump noMargins (Nat.sub_pos_of_lt hlt) hq hqt)
      rw [Boundary.mk.injEq] at heq
      exact Prod.ext heq.2.1 heq.2.2
  · intro hcond b b' hb hb'
    obtain ⟨ω, X, ε, E, onExit, m, pos, v, fuel, r, v', hT, hpos, hv, h, hok⟩ := hb
    obtain ⟨ω1, X1, ε1, E1, onExit1, m1, pos1, v1, fuel1, r1, v1', hT1, hpos1, hv1, h1, hok1⟩ := hb'
    have hkept := landAt_kept hT hv (hpos ▸ hstart) h
    have hkept1 := landAt_kept hT1 hv1 (hpos1 ▸ hstart) h1
    obtain ⟨hat, rfl⟩ := hkept.lands b hok
    obtain ⟨hat1, rfl⟩ := hkept1.lands b' hok1
    have hregs : G.regs (pos v'.env) = G.regs (pos1 v1'.env) := by
      rcases hcond with heq | hall
      · rw [landAt_of_at hT (hpos ▸ heq) h, landAt_of_at hT1 (hpos1 ▸ heq) h1, hpos, hpos1]
      · exact hall _ _ (hpos ▸ hkept.le) (hpos1 ▸ hkept1.le) hat hat1
    rw [hregs]

def plainGuest : Guest where
  count := id
  regs point := (point, 0)
  count_mono := monotone_id
  count_succ _ := le_rfl

/-- A guest whose fourth instruction is a string instruction of four iterations:
`rip` stays while `rcx` counts down. -/
def stringGuest : Guest where
  count point := if point ≤ 3 then point else if point ≤ 6 then 3 else point - 3
  regs point := if point ≤ 3 then (point, 4) else if point ≤ 6 then (3, 7 - point) else
    (point - 3, 0)
  count_mono := by
    intro a b hab
    dsimp only
    split_ifs <;> omega
  count_succ := by
    intro point
    split_ifs <;> omega

theorem exact_landing_plain : plainGuest.count 0 ≤ 3 ∧
      ∀ b b', Lands plainGuest 0 3 b → Lands plainGuest 0 3 b' → b = b' := by
  refine ⟨by decide, (exact_landing_iff plainGuest (by decide)).2.mpr (.inr ?_)⟩
  intro p q _ _ hp hq
  rw [show p = 3 from hp, show q = 3 from hq]

/-- A far entry that uses up its skid lands inside the string instruction. -/
theorem landing_inside_string : Lands stringGuest 0 3 ⟨3, 3, 4⟩ ∧ Lands stringGuest 0 3 ⟨3, 3, 2⟩ :=
  ⟨lands_jump (p := 3) ⟨1, 1, by norm_num, by norm_num⟩ (by decide) (by decide) (by decide),
    lands_jump (p := 5) ⟨1, 1, by norm_num, by norm_num⟩ (by decide) (by decide) (by decide)⟩

end DetHypervisor.Engine
