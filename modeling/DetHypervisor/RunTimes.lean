import DetHypervisor.LineageTime

/-!
# The TSC and inputs at a time
-/

namespace DetHypervisor

variable {H σ X Page : Type} [DecidableEq H] {B : Board H σ X Page}
  {rt0 rt : SlotRuntime H σ Page} {acts : List Act} {clockBase : U64} {current : ℕ}

/-- The clock of the segment starts at zero, or its image has used up the word:
only then is the image of the segment count the time of the guest. -/
def TscAligned (B : Board H σ X Page) (rt : SlotRuntime H σ Page) : Prop :=
  (rt.clockBase : ℕ) = 0 ∨ B.config.clock.image rt.segmentIcount = 2 ^ 64 - 1

omit [DecidableEq H] in
lemma Settled.saturate_image_eq_iff (h : Settled B rt) :
    U64.saturate (B.config.clock.image rt.segmentIcount) = rt.vns ↔ TscAligned B rt := by
  have hlt := h.image_lt
  unfold TscAligned
  rw [h.vns_eq, pvClockVns_eq]
  change U64.saturate _ = U64.saturate _ ↔ _
  rw [U64.saturate_eq_iff (Nat.le_add_left _ _)]
  omega

lemma tsc_le_of_lineage (hopened : OpensSlot B rt0) (h : Traced (Acts B) acts rt0 rt) :
    (rt.tsc : ℕ) ≤ rt.vns := by
  refine h.induct (I := fun _ rt => (rt.tsc : ℕ) ≤ rt.vns) ?_ ?_
  · cases hopened with
    | create | restore => exact le_rfl
    | fork hfork =>
      obtain ⟨-, -, -, child, rfl, rfl⟩ := forkSlot_eq_ok hfork
      exact le_rfl
  · intro acts act rt rt' hlineage hle hact
    cases hact with
    | run hrun =>
      have hsettled := (accounts_of_lineage hopened hlineage).settled
      have hran := ranOn_of_runSlot hsettled hrun
      have himage := B.config.clock.image_mono hran.segment_le
      rw [hran.tsc_eq, hran.settled.vns_eq, pvClockVns_eq]
      change min _ _ ≤ min _ _
      omega
    | snapshot hsnap =>
      obtain ⟨-, rfl, rfl⟩ := takeSnapshot_eq_ok hsnap
      exact hle
    | restore hsnap seed => exact le_rfl
    | fork hfork =>
      obtain ⟨-, -, -, child, rfl, rfl⟩ := forkSlot_eq_ok hfork
      exact le_rfl
    | observe hobserve =>
      obtain ⟨rail, es, -, rfl⟩ := observeSlot_eq_ok hobserve
      exact hle
    | inject events => exact hle

/-- A `Run` installs the time the guest reads, which is no step back, exactly when the TSC is
aligned; no other step takes it back. -/
theorem tsc_follows_time_iff {acts : List Act} (hopened : OpensSlot B rt0)
    (h : Traced (Acts B) acts rt0 rt) :
    (∀ fuel call response rt', runSlot B fuel call rt = .ok (response, rt') →
      ((rt'.tsc = pvClockVns B.config.clock rt.clockBase rt.segmentIcount ∧ (rt.tsc : ℕ) ≤ rt'.tsc ∧
          ∀ S seed, rt = restoreSnapshot B S seed → rt'.tsc = S.vns) ↔ TscAligned B rt)) ∧
    ∀ act rt', Acts B act rt rt' → (∀ n, act ≠ .run n) → (rt.tsc : ℕ) ≤ rt'.tsc := by
  have hsettled := (accounts_of_lineage hopened h).settled
  have hbehind := tsc_le_of_lineage hopened h
  constructor
  · intro fuel call response rt' hrun
    have htsc := (ranOn_of_runSlot hsettled hrun).tsc_eq
    rw [← hsettled.vns_eq, htsc, ← hsettled.saturate_image_eq_iff]
    refine ⟨And.left, fun heq => ⟨heq, heq ▸ hbehind, ?_⟩⟩
    rintro S seed rfl
    exact heq
  · intro act rt' hact hother
    cases hact with
    | run hrun => exact absurd rfl (hother _)
    | snapshot hsnap =>
      obtain ⟨-, rfl, rfl⟩ := takeSnapshot_eq_ok hsnap
      exact le_rfl
    | restore hsnap seed =>
      obtain ⟨-, rfl, -⟩ := takeSnapshot_eq_ok hsnap
      exact hbehind
    | fork hfork =>
      obtain ⟨-, -, -, child, rfl, rfl⟩ := forkSlot_eq_ok hfork
      exact hbehind
    | observe hobserve =>
      obtain ⟨rail, es, -, rfl⟩ := observeSlot_eq_ok hobserve
      exact le_rfl
    | inject events => exact le_rfl

/-- The second `Run` of the first segment after a boot installs the guest's time. -/
theorem tsc_follows_time_boot :
    ∃ acts rt response rt', Traced (Acts (countingBoard .default)) acts (countingSlot .default) rt ∧
      rt.segmentIcount = 12 ∧
      runSlot (countingBoard .default) 50 { stop := .icountBudget 5 } rt = .ok (response, rt') ∧
      rt'.tsc = pvClockVns .default rt.clockBase rt.segmentIcount := by
  obtain ⟨acts, rt, htraced, hread⟩ := exists_lineage (B := countingBoard .default)
    (countingSlot .default) [.run 50 { stop := .icountBudget 12 }]
    (fun r => (r.2.clockBase, r.2.segmentIcount,
      (runSlot (countingBoard .default) 50 { stop := .icountBudget 5 } r.2).toOption.isSome))
    (a := (.saturate 0, 12, true)) (by decide +kernel)
  simp only [Prod.mk.injEq] at hread
  obtain ⟨hbase, hcount, hok⟩ := hread
  obtain ⟨r, hrun⟩ := Except.exists_eq_ok hok
  have hiff := (tsc_follows_time_iff (.create 0 [] none) htraced).1 _ _ _ _ hrun
  exact ⟨acts, rt, r.1, r.2, htraced, hcount, hrun,
    (hiff.mpr (.inl (congrArg Subtype.val hbase))).1⟩

/-- After 12 instructions and a snapshot the guest reads 12, and the next `Run`
puts the TSC back to zero. -/
theorem run_resets_tsc :
    ∃ acts rt, Traced (Acts (countingBoard .default)) acts (countingSlot .default) rt ∧
      rt.tsc = .saturate 12 ∧ rt.clockBase = .saturate 12 ∧ rt.segmentIcount = 0 ∧
      ((runSlot (countingBoard .default) 50 { stop := .icountBudget 5 } rt).toOption.map
        (·.2.tsc)) = some (.saturate 0) := by
  obtain ⟨acts, rt, htraced, hread⟩ := exists_lineage (B := countingBoard .default)
    (countingSlot .default) [.run 50 { stop := .icountBudget 12 }, .restore [] none]
    (fun r => (r.2.tsc, r.2.clockBase, r.2.segmentIcount,
      (runSlot (countingBoard .default) 50 { stop := .icountBudget 5 } r.2).toOption.map
        (·.2.tsc))) (a := (.saturate 12, .saturate 12, 0, some (.saturate 0)))
    (by decide +kernel)
  simp only [Prod.mk.injEq] at hread
  exact ⟨acts, rt, htraced, hread⟩

/-- What an answer to an `at_vns` event should be: the first count after the current one at
which the guest reads the target, or a refusal if there is none. -/
def LandsAtTime (B : Board H σ X Page) (rt : SlotRuntime H σ Page) (index : ℕ)
    (event : Option WireEvent) (target : U64) : Except Status QueuedInput → Prop
  | .ok input => ∃ n, input.due = .icount n ∧
      IsLeast {m | rt.segmentIcount < m ∧
        (target : ℕ) ≤ pvClockVns B.config.clock rt.clockBase m} n
  | .error _ => (∃ e, kindFromProto index frameHintNone event = .error e) ∨
      B.config.clock.icountForVnsTarget target = none ∨
      ∀ m, rt.segmentIcount < m → m < 2 ^ 64 →
        ¬(target : ℕ) ≤ pvClockVns B.config.clock rt.clockBase m

lemma le_pvClockVns_iff {c : ClockRatio} {target : U64} {m : ℕ} :
    (target : ℕ) ≤ pvClockVns c clockBase m ↔ (target : ℕ) ≤ clockBase + c.image m := by
  have hlt := target.2
  rw [pvClockVns_eq]
  change _ ≤ min _ _ ↔ _
  omega

lemma isLeast_reaches_iff (c : ClockRatio) (clockBase target : U64)
    (hlt : current < c.reaches target) :
    IsLeast {m | current < m ∧ (target : ℕ) ≤ pvClockVns c clockBase m} (c.reaches target) ↔
      c.reaches target = current + 1 ∨
        (clockBase + c.image (c.reaches target - 1) : ℕ) < target := by
  have himage : (target : ℕ) ≤ c.image (c.reaches target) := c.le_image_iff.mpr le_rfl
  simp only [le_pvClockVns_iff]
  constructor
  · intro hleast
    by_contra hne
    obtain ⟨hnext, hbefore⟩ := not_or.mp hne
    have := hleast.2 ⟨by omega, not_lt.mp hbefore⟩
    omega
  · intro hcond
    refine ⟨⟨hlt, himage.trans (Nat.le_add_left _ _)⟩, ?_⟩
    rintro m ⟨hm, htime⟩
    rcases hcond with hnext | hbefore
    · omega
    · by_contra hsmall
      have := c.image_mono (show m ≤ c.reaches target - 1 by omega)
      omega

omit [DecidableEq H] in
lemma queuedInputFromProto_atVns (P : Platform H σ X) (index current frame : ℕ)
    (event : Option WireEvent) (target : ℕ) :
    queuedInputFromProto P index ⟨some (.atVns target), event⟩ current frame =
      match P.config.clock.icountForVnsTarget target with
      | none => .error (.invalidArgument s!"events[{index}].at_vns overflows")
      | some icount =>
        if icount ≤ current then
          .error (.invalidArgument
            (s!"events[{index}] must land after current segment icount " ++
              s!"{current}, got {icount}"))
        else (kindFromProto index frameHintNone event).map fun kind =>
          ⟨.icount icount, kind, 0⟩ := by
  simp only [queuedInputFromProto, dueFromProto]
  cases P.config.clock.icountForVnsTarget target with
  | none => rfl
  | some icount =>
    refine if_congr Iff.rfl rfl ?_
    cases kindFromProto index frameHintNone event <;> rfl

lemma never_later_iff (c : ClockRatio) (clockBase target : U64)
    (hpast : c.reaches target ≤ current) :
    (∀ m, current < m → m < 2 ^ 64 → ¬(target : ℕ) ≤ pvClockVns c clockBase m) ↔
      2 ^ 64 ≤ current + 1 := by
  constructor
  · intro hnever
    by_contra hnext
    apply hnever (current + 1) (Nat.lt_succ_self _) (not_le.mp hnext)
    rw [le_pvClockVns_iff]
    exact (c.le_image_iff.mpr (hpast.trans (Nat.le_succ current))).trans (Nat.le_add_left _ _)
  · intro hlast m hm hlt
    omega

omit [DecidableEq H] in
/-- The conversion leaves the base of the clock out, so it lands where it should exactly when
the base makes no difference at the count before, and it refuses every time that has been
reached. -/
theorem at_vns_lands_iff (rt : SlotRuntime H σ Page) (index frame : ℕ)
    (event : Option WireEvent) (target : U64) : LandsAtTime B rt index event target
        (queuedInputFromProto (B.platform rt.clockBase) index ⟨some (.atVns target), event⟩
          rt.segmentIcount frame) ↔ (∃ e, kindFromProto index frameHintNone event = .error e) ∨
        2 ^ 64 ≤ B.config.clock.reaches target ∨ rt.segmentIcount < B.config.clock.reaches target ∧
          (B.config.clock.reaches target = rt.segmentIcount + 1 ∨
            (rt.clockBase + B.config.clock.image (B.config.clock.reaches target - 1) : ℕ) <
              target) ∨
        B.config.clock.reaches target ≤ rt.segmentIcount ∧ 2 ^ 64 ≤ rt.segmentIcount + 1 := by
  rw [queuedInputFromProto_atVns, B.config_eq]
  cases hicount : B.config.clock.icountForVnsTarget target with
  | none =>
    have hover := ClockRatio.icountForVnsTarget_eq_none_iff.mp hicount
    exact ⟨fun _ => .inr (.inl hover), fun _ => .inr (.inl hicount)⟩
  | some icount =>
    obtain ⟨rfl, hlt⟩ := ClockRatio.icountForVnsTarget_eq_some_iff.mp hicount
    have hover : ¬2 ^ 64 ≤ B.config.clock.reaches target := not_le.mpr hlt
    by_cases hpast : B.config.clock.reaches target ≤ rt.segmentIcount
    · have hnever := never_later_iff B.config.clock rt.clockBase target hpast
      simp only [hpast, if_true, LandsAtTime, hicount, hnever, not_lt.mpr hpast, hover,
        reduceCtorEq, false_or, true_and, false_and]
    · have hleast := isLeast_reaches_iff B.config.clock rt.clockBase target (not_le.mp hpast)
      cases hkind : kindFromProto index frameHintNone event with
      | error e => simp [hpast, LandsAtTime, hkind, Except.map]
      | ok kind =>
        dsimp only
        rw [if_neg hpast]
        constructor
        · rintro ⟨n, ⟨⟩, hn⟩
          exact .inr (.inr (.inl ⟨not_le.mp hpast, hleast.mp hn⟩))
        · rintro (⟨e, ⟨⟩⟩ | hover' | ⟨-, hbefore⟩ | ⟨hreached, -⟩)
          · exact absurd hover' hover
          · exact ⟨_, rfl, hleast.mpr hbefore⟩
          · exact absurd hreached hpast

/-- After 12 instructions and a snapshot an input at time 20 is put on count 20,
where the guest reads 32; it reads 20 at count 8. -/
theorem at_vns_misses_base :
    ∃ acts rt, Traced (Acts (countingBoard .default)) acts (countingSlot .default) rt ∧
      (queuedInputFromProto ((countingBoard .default).platform rt.clockBase) 0
          ⟨some (.atVns 20), some (.netRx [1])⟩ rt.segmentIcount 0).toOption.map (·.due) =
        some (.icount 20) ∧ pvClockVns .default rt.clockBase 20 = .saturate 32 ∧
      pvClockVns .default rt.clockBase 8 = .saturate 20 := by
  obtain ⟨acts, rt, htraced, hread⟩ := exists_lineage (B := countingBoard .default)
    (countingSlot .default) [.run 50 { stop := .icountBudget 12 }, .snapshot []]
    (fun r => ((queuedInputFromProto ((countingBoard .default).platform r.2.clockBase) 0
        ⟨some (.atVns 20), some (.netRx [1])⟩ r.2.segmentIcount 0).toOption.map (·.due),
      pvClockVns .default r.2.clockBase 20, pvClockVns .default r.2.clockBase 8))
    (a := (some (.icount 20), .saturate 32, .saturate 20)) (by decide +kernel)
  simp only [Prod.mk.injEq] at hread
  exact ⟨acts, rt, htraced, hread⟩

end DetHypervisor
