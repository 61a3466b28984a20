import DetHypervisor.LineageTime
import DetHypervisor.LinkCounts
import DetHypervisor.MachineMoves

/-!
# A slot and its base snapshot

What ties a slot to its base snapshot is kept by three handlers that do not check each other:
`TakeSnapshot`, `Fork` and the header of a log. Over every history of a slot, this says when it
is where its base is.
-/

namespace DetHypervisor

open List

variable {H σ X Page : Type} {B : Board H σ X Page} {rt rt' : SlotRuntime H σ Page}
  {S : Snapshot H σ Page} {call : RunCall} {fuel : ℕ} {response : RunResponse H}

structure SameSegment (B : Board H σ X Page) (rt rt' : SlotRuntime H σ Page) : Prop where
  base_eq : rt'.base = rt.base
  start_eq : rt'.segmentStart = rt.segmentStart
  cow_eq : rt'.ramIsCow = rt.ramIsCow
  dirty_eq : rt'.dirty = rt.dirty
  clockBase_eq : rt'.clockBase = rt.clockBase
  drifts : Drifts (B.platform rt.clockBase) rt.recording.rail rt'.recording.rail

lemma runSlot_eq_ok (h : runSlot B fuel call rt = .ok (response, rt')) :
    ∃ out, driveRecordedRun (B.platform rt.clockBase) fuel call rt.recording =
        .ok (out, rt'.recording) ∧
      rt'.base = rt.base ∧ rt'.segmentStart = rt.segmentStart ∧ rt'.ramIsCow = rt.ramIsCow ∧
      rt'.dirty = rt.dirty ∧ rt'.clockBase = rt.clockBase := by
  unfold runSlot at h
  split at h
  · cases h
  split at h
  · cases h
  rename_i out rec hrun
  cases h
  exact ⟨out, hrun, rfl, rfl, rfl, rfl, rfl⟩

lemma sameSegment_of_runSlot (h : runSlot B fuel call rt = .ok (response, rt')) :
    SameSegment B rt rt' := by
  obtain ⟨out, hrun, hbase, hstart, hcow, hdirty, hclock⟩ := runSlot_eq_ok h
  exact ⟨hbase, hstart, hcow, hdirty, hclock, drifts_of_driveRecordedRun hrun⟩

lemma sameSegment_of_observeSlot (h : observeSlot B rt = .ok rt') : SameSegment B rt rt' := by
  obtain ⟨rail, es, hdrain, rfl⟩ := observeSlot_eq_ok h
  exact ⟨rfl, rfl, rfl, rfl, rfl, drifts_of_drainAtPause hdrain⟩

lemma sameSegment_injectSlot (events : List ScheduledEvent) (rt : SlotRuntime H σ Page) :
    SameSegment B rt (injectSlot B events rt) := by
  refine ⟨rfl, rfl, rfl, rfl, rfl, ?_⟩
  rw [(injectSlot_segment events rt).2]
  exact .refl _

/-- A path of the machine with the pages the host changed on it. -/
inductive HostWrote (B : Board H σ X Page) (vnsBase : U64) : Set ℕ → σ → σ → Prop
  | refl (s : σ) : HostWrote B vnsBase ∅ s s
  | vcpu {W : Set ℕ} {s s1 s' : σ} (h : HostWrote B vnsBase W s s1)
      (hstep : VcpuStep (B.platform vnsBase) s1 s') : HostWrote B vnsBase W s s'
  | host {W : Set ℕ} {s s1 s' : σ} (h : HostWrote B vnsBase W s s1)
      (hstep : HostStep (B.platform vnsBase) s1 s') :
      HostWrote B vnsBase (W ∪ {page | B.ram s' page ≠ B.ram s1 page}) s s'

lemma exists_hostWrote {vnsBase : U64} {s s' : σ}
    (h : Relation.ReflTransGen (MachineStep (B.platform vnsBase)) s s') :
    ∃ W, HostWrote B vnsBase W s s' := by
  induction h with
  | refl => exact ⟨∅, .refl s⟩
  | tail _ hstep ih =>
    obtain ⟨W, hW⟩ := ih
    rcases hstep with hvcpu | hhost
    · exact ⟨W, hW.vcpu hvcpu⟩
    · exact ⟨_, hW.host hhost⟩

inductive Opening (H σ Page : Type) where
  | create
  | restore
  | snapshot
  | fork (seed : Option H) (parent : SlotRuntime H σ Page)

def overlooked (B : Board H σ X Page) (rt : SlotRuntime H σ Page) (W : Set ℕ) : Set ℕ :=
  {page ∈ W | (deltaParent B rt).isSome ∧ page ∉ snapshotPages B rt}

def reported (B : Board H σ X Page) (rt : SlotRuntime H σ Page) : Set ℕ :=
  {page | page ∈ rt.dirty ∨ page ∈ B.ring rt.machine}

/-- A slot that RPCs lead to: how its segment was opened, how often it has run since, and the
pages written since its base behind the back of its ring; those of the parent too after a
fork. -/
inductive History [DecidableEq H] (B : Board H σ X Page) :
    Opening H σ Page → ℕ → Set ℕ → SlotRuntime H σ Page → Prop
  | create (machine : σ) (chain : H) (seed : Option H) :
      History B .create 0 ∅ (createVm B machine chain seed)
  | restore (S : Snapshot H σ Page) (seed : Option H) :
      History B .restore 0 ∅ (restoreSnapshot B S seed)
  | fork {o : Opening H σ Page} {n : ℕ} {W : Set ℕ} {seed : Option H}
      {parent child : SlotRuntime H σ Page} (h : History B o n W parent)
      (hfork : forkSlot B seed parent = .ok child) :
      History B (.fork seed parent) 0 (W ∪ reported B parent) child
  | snapshot {o : Opening H σ Page} {n : ℕ} {W : Set ℕ} {id : H} {rt rt' : SlotRuntime H σ Page}
      {S : Snapshot H σ Page} (h : History B o n W rt)
      (hsnap : takeSnapshot B id rt = .ok (S, rt')) :
      History B .snapshot 0 (overlooked B rt W) rt'
  | run {o : Opening H σ Page} {n : ℕ} {W V : Set ℕ} {fuel : ℕ} {call : RunCall}
      {response : RunResponse H} {rt rt' : SlotRuntime H σ Page} (h : History B o n W rt)
      (hrun : runSlot B fuel call rt = .ok (response, rt'))
      (hwrote : HostWrote B rt.clockBase V rt.machine rt'.machine) :
      History B o (n + 1) (W ∪ V) rt'
  | observe {o : Opening H σ Page} {n : ℕ} {W V : Set ℕ} {rt rt' : SlotRuntime H σ Page}
      (h : History B o n W rt) (hobserve : observeSlot B rt = .ok rt')
      (hwrote : HostWrote B rt.clockBase V rt.machine rt'.machine) : History B o n (W ∪ V) rt'
  | inject {o : Opening H σ Page} {n : ℕ} {W : Set ℕ} {rt : SlotRuntime H σ Page}
      (h : History B o n W rt) (events : List ScheduledEvent) :
      History B o n W (injectSlot B events rt)

lemma history_of_lineage [DecidableEq H] {acts : List Act} {rt0 : SlotRuntime H σ Page}
    (h0 : ∃ o n W, History B o n W rt0) (h : Traced (Acts B) acts rt0 rt) :
    ∃ o n W, History B o n W rt := by
  refine h.invariant (I := fun rt => ∃ o n W, History B o n W rt) ?_ h0
  rintro _ - rt rt' hact ⟨o, n, W, hrt⟩
  cases hact with
  | run hrun =>
    obtain ⟨V, hV⟩ := exists_hostWrote (sameSegment_of_runSlot hrun).drifts.moves
    exact ⟨o, n + 1, W ∪ V, hrt.run hrun hV⟩
  | snapshot hsnap => exact ⟨_, _, _, hrt.snapshot hsnap⟩
  | restore hsnap seed => exact ⟨_, _, _, .restore _ seed⟩
  | fork hfork => exact ⟨_, _, _, hrt.fork hfork⟩
  | observe hobserve =>
    obtain ⟨V, hV⟩ := exists_hostWrote (sameSegment_of_observeSlot hobserve).drifts.moves
    exact ⟨o, n, W ∪ V, hrt.observe hobserve hV⟩
  | inject events => exact ⟨o, n, W, hrt.inject events⟩

/-! ## A slot with a disk -/

structure Disk where
  pc : ℕ
  ram : ℕ → ℕ
  prng : ℕ

/-- A guest that starts with a pv-blk read, which writes page 0 through the host
mapping, and then executes instructions. -/
def diskPlatform : Platform ℕ Disk Unit where
  config := ⟨ClockRatio.default, 10, .epochsOn, [], 0⟩
  run := fun s => if s.pc = 0 then .device () { s with pc := 1 }
    else .debug 1 { s with pc := s.pc + 1 }
  rip := Disk.pc
  frameCounter := fun _ => 0
  detchannel := false
  service := fun _ _ s => .ok ({ s with ram := Function.update s.ram 0 7 }, [])
  service_channel := by
    rintro _ _ _ _ _ ⟨⟩ _ e he
    cases he
  applyPadSet := fun _ _ s => .ok (s, none)
  applyNetRx := fun _ s => .ok (s, none)
  padIrqVector := fun _ => none
  netRxVector := fun _ => none
  injectable := fun _ => true
  queueInterrupt := fun _ s => s
  seedEntropy := fun seed s => { s with prng := seed }
  image := fun s => ⟨[], [], [[UInt8.ofNat s.pc]]⟩
  link := fun chain _ _ _ => chain + 1

def diskBoard (declared : List ℕ) : Board ℕ Disk Unit ℕ where
  platform := fun _ => diskPlatform
  config := diskPlatform.config
  config_eq := fun _ => rfl
  ram := Disk.ram
  load := fun ram s => { s with ram }
  ring := fun _ => []
  harvest := id
  declared := fun _ => declared
  pageHash := id
  noBase := 0
  maxDeltaChain := 64

def diskSlot (declared : List ℕ) : SlotRuntime ℕ Disk ℕ :=
  createVm (diskBoard declared) ⟨0, fun _ => 0, 3⟩ 0 none

def diskBase (declared : List ℕ) : Snapshot ℕ Disk ℕ :=
  captured (diskBoard declared) 1 (diskSlot declared)

/-! ## The entropy stream -/

section Entropy

variable {E : Type} {prng : σ → E} {fromSeed : H → E}

/-- `prng` reads the generator off the machine: a seed replaces it, and it
travels with the machine. -/
structure ReadsEntropy (B : Board H σ X Page) (prng : σ → E) (fromSeed : H → E) : Prop where
  seed : ∀ vnsBase seed s, prng ((B.platform vnsBase).seedEntropy seed s) = fromSeed seed
  load : ∀ ram s, prng (B.load ram s) = prng s
  harvest : ∀ s, prng (B.harvest s) = prng s

def Snapshot.restored (B : Board H σ X Page) (S : Snapshot H σ Page) : Restored H σ :=
  ⟨S.id, B.load S.ram S.machine, S.chain⟩

/-- The generator of a segment on `S`: fresh from a seed, or the stored one. -/
def headerEntropy (prng : σ → E) (fromSeed : H → E) (S : Snapshot H σ Page) : Option H → E
  | none => prng S.machine
  | some seed => fromSeed seed

/-- A fork without a seed has to find the stored generator in its parent. -/
def Opening.Continues (prng : σ → E) : Opening H σ Page → Prop
  | .fork none parent => ∀ S, parent.base = some S → prng parent.machine = prng S.machine
  | _ => True

def SlotRuntime.headerSeed (rt : SlotRuntime H σ Page) : Option H :=
  rt.recording.rail.log.header.entropySeed

lemma ReadsEntropy.startMachine_eq (hE : ReadsEntropy B prng fromSeed) (vnsBase : U64)
    (base : Restored H σ) (seed : Option H) : prng (startMachine (B.platform vnsBase) base seed) =
      seed.elim (prng base.machine) fromSeed := by
  cases seed with
  | none => rfl
  | some seed => exact hE.seed vnsBase seed base.machine

lemma ReadsEntropy.rebased_eq (hE : ReadsEntropy B prng fromSeed) (S : Snapshot H σ Page)
    (rt : SlotRuntime H σ Page) : prng (rebased B S rt).segmentStart = prng rt.machine := by
  change prng (if (deltaParent B rt).isSome then B.harvest rt.machine else rt.machine) = _
  split_ifs
  · exact hE.harvest _
  · rfl

lemma SameSegment.headerSeed_eq (h : SameSegment B rt rt') : rt'.headerSeed = rt.headerSeed :=
  congrArg SegmentHeader.entropySeed h.drifts.header_eq

/-- Replay installs what the header says, and the segment started from that generator exactly if
it was not opened by a seedless fork of a parent whose generator had left its base. -/
theorem header_determines_entropy_iff [DecidableEq H] {o : Opening H σ Page} {n : ℕ} {W : Set ℕ}
    (hE : ReadsEntropy B prng fromSeed) (h : History B o n W rt) (hbase : rt.base = some S) :
    prng (startMachine (B.platform S.vns) (S.restored B) rt.headerSeed) =
        headerEntropy prng fromSeed S rt.headerSeed ∧
      (prng rt.segmentStart = headerEntropy prng fromSeed S rt.headerSeed ↔ o.Continues prng) := by
  constructor
  · rw [hE.startMachine_eq]
    cases rt.headerSeed with
    | none => exact hE.load _ _
    | some seed => rfl
  -- an RPC that stays in the segment keeps all three terms
  have hstay {o : Opening H σ Page} {rt rt' : SlotRuntime H σ Page} (hsame : SameSegment B rt rt')
      (hbase : rt'.base = some S)
      (ih : rt.base = some S →
        (prng rt.segmentStart = headerEntropy prng fromSeed S rt.headerSeed ↔ o.Continues prng)) :
      prng rt'.segmentStart = headerEntropy prng fromSeed S rt'.headerSeed ↔ o.Continues prng := by
    rw [hsame.start_eq, hsame.headerSeed_eq]
    exact ih (hsame.base_eq ▸ hbase)
  induction h with
  | create machine chain seed => cases hbase
  | restore S seed =>
    cases hbase
    refine iff_of_true ?_ trivial
    refine (hE.startMachine_eq S.vns (S.restored B) seed).trans ?_
    cases seed with
    | none => exact hE.load _ _
    | some seed => rfl
  | @fork o n W seed parent child _ hfork _ =>
    obtain ⟨-, -, -, opened, rfl, rfl⟩ := forkSlot_eq_ok hfork
    have hstart := hE.startMachine_eq parent.vns ⟨(parent.base.map Snapshot.id).getD B.noBase,
      B.load (B.ram parent.machine) parent.machine, parent.recording.chain⟩ seed
    change prng (startMachine _ _ seed) = headerEntropy prng fromSeed S seed ↔ _
    rw [hstart]
    cases seed with
    | some seed => exact iff_of_true rfl trivial
    | none =>
      change prng (B.load _ _) = prng S.machine ↔
        ∀ S', parent.base = some S' → prng parent.machine = prng S'.machine
      rw [hE.load]
      constructor
      · intro heq S' hS'
        cases hbase.symm.trans hS'
        exact heq
      · exact fun hall => hall S hbase
  | @snapshot o n W id rt rt' S' _ hsnap _ =>
    obtain ⟨-, rfl, rfl⟩ := takeSnapshot_eq_ok hsnap
    cases hbase
    exact iff_of_true (hE.rebased_eq _ rt) trivial
  | run _ hrun _ ih => exact hstay (sameSegment_of_runSlot hrun) hbase ih
  | observe _ hobserve _ ih => exact hstay (sameSegment_of_observeSlot hobserve) hbase ih
  | inject _ events ih => exact hstay (sameSegment_injectSlot events _) hbase ih

lemma diskBoard_entropy (declared : List ℕ) : ReadsEntropy (diskBoard declared) Disk.prng id :=
  ⟨fun _ _ _ => rfl, fun _ _ => rfl, fun _ => rfl⟩

/-- A restore and a fork, both without a seed. -/
theorem header_determines_entropy_disk :
    ∃ o n W child S, History (diskBoard []) o n W child ∧ child.base = some S ∧
      child.segmentStart.prng = headerEntropy Disk.prng id S child.headerSeed := by
  have hrestored := History.restore (B := diskBoard []) (diskBase []) none
  have hforked := hrestored.fork (show forkSlot (diskBoard []) none _ = .ok _ from rfl)
  have hheader := header_determines_entropy_iff (S := diskBase []) (diskBoard_entropy [])
    hforked rfl
  refine ⟨_, _, _, _, diskBase [], hforked, rfl, hheader.2.mpr ?_⟩
  rintro S ⟨⟩
  rfl

/-- Restored with a seed and forked without one: the child runs on the seed, and
its header sends a replay to the generator of the base. -/
theorem seeded_restore_forks_unseeded :
    ∃ o n W child S, History (diskBoard []) o n W child ∧ child.base = some S ∧
      child.headerSeed = none ∧ child.segmentStart.prng = 7 ∧
      headerEntropy Disk.prng id S child.headerSeed = 3 := by
  have hrestored := History.restore (B := diskBoard []) (diskBase []) (some 7)
  have hforked := hrestored.fork (show forkSlot (diskBoard []) none _ = .ok _ from rfl)
  exact ⟨_, _, _, _, diskBase [], hforked, rfl, rfl, rfl, rfl⟩

end Entropy

/-! ## The chain of a run -/

section Links

variable {τ : Type} {P : Platform H σ X} {req : RunRequest H σ τ} {s s' : Seg H σ τ}
  {timerSlot : Option ℕ} {ds : List Deed}

def LinkStep (P : Platform H σ X) (chain chain' : H) : Prop :=
  ∃ machine icount vns, chain' = P.link chain (P.image machine) icount vns

lemma Does.linkStep {d : Deed} (h : Does P req timerSlot d s s') (hd : d.link? ≠ none) :
    LinkStep P s.chain s'.chain := by
  cases h with
  | link icount vns => exact ⟨s.rail.machine, icount, vns, rfl⟩
  | entry | leave | input | vector | sink => exact absurd rfl hd

lemma links_of_traced (h : Traced (Does P req timerSlot) ds s s') :
    Relation.ReflTransGen (LinkStep P) s.chain s'.chain := by
  refine h.invariant (I := fun s1 => Relation.ReflTransGen (LinkStep P) s.chain s1.chain) ?_ .refl
  intro d _ s1 s2 hdoes hlinks
  by_cases hd : d.link? = none
  · rwa [hdoes.chain_eq hd]
  · exact hlinks.tail (hdoes.linkStep hd)

lemma linked_of_traced (h : Traced (Does P req timerSlot) ds s s') (hds : linkLabels ds ≠ []) :
    Relation.TransGen (LinkStep P) s.chain s'.chain := by
  induction h with
  | nil s => exact absurd rfl hds
  | @cons d ds s s1 s' hdoes hrest ih =>
    by_cases hd : d.link? = none
    · rw [← hdoes.chain_eq hd]
      apply ih
      simpa only [linkLabels, filterMap_cons, hd] using hds
    · exact .head' (hdoes.linkStep hd) (links_of_traced hrest)

lemma runSegment_linked {rail : Rail H σ} {chain : H} {caller : τ} {out : SegmentOutcome H}
    (h : runSegment P fuel req rail chain caller = .ok (out, s'))
    (hhash : req.options.hashFinalStop = true) : Relation.TransGen (LinkStep P) chain s'.chain := by
  suffices hlabels : ∃ timerSlot ds, Traced (Does P req timerSlot) ds
      (startSeg req rail chain caller) s' ∧ linkLabels ds ≠ [] by
    obtain ⟨timerSlot, ds, htraced, hds⟩ := hlabels
    exact linked_of_traced htraced hds
  obtain ⟨-, hfinish | ⟨injections, timerSlot, it, k, w, p, rest, hwalks, hnext, hending⟩⟩ :=
    runSegment_ends h
  · rw [hhash] at hfinish
    obtain ⟨ds, vns, hds, -⟩ := finishAtCounter_conduct req none hfinish
    exact ⟨none, ds, hds.traced, by simp [hds.linkLabels_eq]⟩
  obtain ⟨cur, ds, inputs, vectors, links, hprogress⟩ := hwalks.progress
  have hsofar := hprogress.tally.conduct
  cases hending with
  | stop hhandled hboundary hafter =>
    obtain ⟨ds', done, hdeeds⟩ := hhandled.deeds
    obtain ⟨ds'', links', hds'', hlinks, -⟩ := hafter.linked hboundary hhash
    have hall := (hsofar.trans hdeeds.conduct).trans hds''
    refine ⟨timerSlot, _, hall.traced, fun hnil => ?_⟩
    rw [hall.linkLabels_eq, map_eq_nil_iff, append_assoc] at hnil
    obtain ⟨-, hnil⟩ := append_eq_nil_iff.mp hnil
    obtain ⟨hpoint, rfl⟩ := append_eq_nil_iff.mp hnil
    cases hhashed : hashedAt req p <;> simp [hhashed] at hpoint hlinks
  | cut hcut hfinish _ =>
    obtain ⟨ds', inputs', done, queued, hds', -⟩ := hcut.conduct
    rw [hhash] at hfinish
    obtain ⟨ds'', vns, hds'', -⟩ := finishAtCounter_conduct req timerSlot hfinish
    have hall := (hsofar.trans hds').trans hds''
    refine ⟨timerSlot, _, hall.traced, ?_⟩
    rw [hall.linkLabels_eq]
    simp

lemma runSlot_linked (h : runSlot B fuel call rt = .ok (response, rt')) :
    Relation.TransGen (LinkStep (B.platform rt.clockBase)) rt.recording.chain
      rt'.recording.chain := by
  obtain ⟨out, hrun, -⟩ := runSlot_eq_ok h
  obtain ⟨s, rail, es, hseg, -, hrec⟩ := driveRecordedRun_eq_ok hrun
  rw [hrec]
  exact runSegment_linked hseg rfl

end Links

section Forks

variable {D : Type} {devices : σ → D} {frame : D → ℕ} {cursor : (ℕ → Page) → D → ℕ}

structure ReadsRam (B : Board H σ X Page) : Prop where
  load : ∀ ram s, B.ram (B.load ram s) = ram
  harvest : ∀ s, B.ram (B.harvest s) = B.ram s
  seed : ∀ vnsBase seed s, B.ram ((B.platform vnsBase).seedEntropy seed s) = B.ram s

/-- `devices` reads vCPU, devices and lAPIC off the machine, everything besides
RAM and the generator; the FRAME_COUNTER is in it. -/
structure ReadsDevices (B : Board H σ X Page) (devices : σ → D) (frame : D → ℕ) : Prop where
  load : ∀ ram s, devices (B.load ram s) = devices s
  harvest : ∀ s, devices (B.harvest s) = devices s
  seed : ∀ vnsBase seed s, devices ((B.platform vnsBase).seedEntropy seed s) = devices s
  frameCounter : ∀ vnsBase s, (B.platform vnsBase).frameCounter s = frame (devices s)

/-- A drain that finds the rings empty changes nothing, and one that takes events out moves their
consumer index, which guest or host reads off RAM and devices. -/
structure DrainsForward (B : Board H σ X Page) (devices : σ → D) (cursor : (ℕ → Page) → D → ℕ) :
    Prop where
  idle : ∀ {vnsBase n r r'}, Rail.drainAtPause (B.platform vnsBase) n r = .ok (r', []) →
    r'.machine = r.machine
  forward : ∀ {vnsBase n r r' es}, Rail.drainAtPause (B.platform vnsBase) n r = .ok (r', es) →
    es ≠ [] → cursor (B.ram r.machine) (devices r.machine) <
      cursor (B.ram r'.machine) (devices r'.machine)

inductive Usage where
  | run
  | observe (drained : List Emit)
  | inject

def Usage.Still : Usage → Prop
  | run => False
  | observe drained => drained = []
  | inject => True

/-- The RPCs a slot can see without leaving its base; `observe` is `observeSlot` with the events
it drains. -/
inductive Uses (B : Board H σ X Page) : Usage → SlotRuntime H σ Page → SlotRuntime H σ Page → Prop
  | run {fuel : ℕ} {call : RunCall} {response : RunResponse H} {rt rt' : SlotRuntime H σ Page}
      (h : runSlot B fuel call rt = .ok (response, rt')) : Uses B .run rt rt'
  | observe {rt : SlotRuntime H σ Page} {rail : Rail H σ} {es : List Emit}
      (h : rt.recording.rail.drainAtPause (B.platform rt.clockBase) rt.segmentIcount =
        .ok (rail, es)) :
      Uses B (.observe es) rt { rt with recording := { rt.recording with rail } }
  | inject (events : List ScheduledEvent) (rt : SlotRuntime H σ Page) :
      Uses B .inject rt (injectSlot B events rt)

/-- A slot that has just been put on its base `S`, whatever came before, and whether `S` stores
the RAM it has. -/
inductive Based [DecidableEq H] (B : Board H σ X Page) (S : Snapshot H σ Page) :
    Prop → SlotRuntime H σ Page → Prop
  | restore (seed : Option H) : Based B S True (restoreSnapshot B S seed)
  | snapshot {id : H} {rt rt' : SlotRuntime H σ Page} (h : takeSnapshot B id rt = .ok (S, rt')) :
      Based B S (S.ram = B.ram rt.machine) rt'

/-- A machine that starts from loaded RAM has that RAM, whatever its seed. -/
lemma ReadsRam.started (hR : ReadsRam B) (vnsBase : U64) (id chain : H) (ram : ℕ → Page) (s : σ)
    (seed : Option H) :
    B.ram (startMachine (B.platform vnsBase) ⟨id, B.load ram s, chain⟩ seed) = ram := by
  cases seed with
  | none => exact hR.load ram s
  | some seed => exact (hR.seed vnsBase seed _).trans (hR.load ram s)

lemma ReadsDevices.started (hD : ReadsDevices B devices frame) (vnsBase : U64) (id chain : H)
    (ram : ℕ → Page) (s : σ) (seed : Option H) :
    devices (startMachine (B.platform vnsBase) ⟨id, B.load ram s, chain⟩ seed) = devices s := by
  cases seed with
  | none => exact hD.load ram s
  | some seed => exact (hD.seed vnsBase seed _).trans (hD.load ram s)

variable (B) (devices) (frame)

structure SameStart (rt rt' : SlotRuntime H σ Page) : Prop where
  ram_eq : B.ram rt.machine = B.ram rt'.machine
  devices_eq : devices rt.machine = devices rt'.machine
  chain_eq : rt.recording.chain = rt'.recording.chain
  cumulative_eq : rt.cumulativeIcount = rt'.cumulativeIcount
  segment_eq : rt.segmentIcount = rt'.segmentIcount
  vns_eq : rt.vns = rt'.vns
  epoch_eq : rt.epochIndex = rt'.epochIndex
  frame_eq : rt.recording.frameCounter = rt'.recording.frameCounter

structure StandsAt (S : Snapshot H σ Page) (rt : SlotRuntime H σ Page) : Prop where
  chain_eq : rt.recording.chain = S.chain
  cumulative_eq : rt.cumulativeIcount = S.cumulativeIcount
  vns_eq : rt.vns = S.vns
  epoch_eq : rt.epochIndex = S.epochIndex
  frame_eq : rt.recording.frameCounter = frame (devices S.machine)

variable (cursor)

def SlotRuntime.index (rt : SlotRuntime H σ Page) : ℕ :=
  cursor (B.ram rt.machine) (devices rt.machine)

structure SinceBase (S : Snapshot H σ Page) (rt1 : SlotRuntime H σ Page) (us : List Usage)
    (rt : SlotRuntime H σ Page) : Prop where
  clockBase_eq : rt.clockBase = S.vns
  linked : Relation.ReflTransGen (LinkStep (B.platform S.vns)) S.chain rt.recording.chain
  moved : .run ∈ us → Relation.TransGen (LinkStep (B.platform S.vns)) S.chain rt.recording.chain
  stands : .run ∉ us → StandsAt devices frame S rt
  still : (∀ u ∈ us, u.Still) → rt.machine = rt1.machine
  index_le : .run ∉ us → rt1.index B devices cursor ≤ rt.index B devices cursor
  index_lt : .run ∉ us → (∃ u ∈ us, ¬u.Still) →
    rt1.index B devices cursor < rt.index B devices cursor

variable {cursor}
variable {B} {devices} {frame}

lemma standsAt_restoreSnapshot (hD : ReadsDevices B devices frame) (S : Snapshot H σ Page)
    (seed : Option H) : StandsAt devices frame S (restoreSnapshot B S seed) := by
  refine ⟨rfl, rfl, rfl, rfl, ?_⟩
  exact (hD.frameCounter S.vns _).trans (congrArg frame (hD.started S.vns _ _ _ _ seed))

lemma standsAt_rebased [DecidableEq H] (hD : ReadsDevices B devices frame) (id : H)
    (rt : SlotRuntime H σ Page) :
    StandsAt devices frame (captured B id rt) (rebased B (captured B id rt) rt) :=
  ⟨rfl, rfl, rfl, rfl, hD.frameCounter rt.clockBase rt.machine⟩

lemma injectSlot_stands (events : List ScheduledEvent) (rt : SlotRuntime H σ Page) :
    (injectSlot B events rt).recording.chain = rt.recording.chain ∧
      (injectSlot B events rt).recording.frameCounter = rt.recording.frameCounter ∧
      (injectSlot B events rt).machine = rt.machine := by
  change (inject _ events rt.recording).chain = _ ∧
    (inject _ events rt.recording).frameCounter = _ ∧
    (inject _ events rt.recording).rail.machine = _
  unfold inject queueInputsFromProto
  split_ifs
  · exact ⟨rfl, rfl, rfl⟩
  · dsimp only
    split <;> exact ⟨rfl, rfl, rfl⟩

lemma Based.stands [DecidableEq H] {whole : Prop} (hD : ReadsDevices B devices frame)
    (h : Based B S whole rt) : rt.clockBase = S.vns ∧ StandsAt devices frame S rt := by
  cases h with
  | restore seed => exact ⟨rfl, standsAt_restoreSnapshot hD S seed⟩
  | @snapshot id rt rt' hsnap =>
    obtain ⟨-, rfl, rfl⟩ := takeSnapshot_eq_ok hsnap
    exact ⟨rfl, standsAt_rebased hD id rt⟩

/-- Right after its base is installed a slot has the stored devices, and the stored RAM exactly
if the base is whole. -/
lemma Based.machine [DecidableEq H] {whole : Prop} (hR : ReadsRam B)
    (hD : ReadsDevices B devices frame) (h : Based B S whole rt) :
    devices rt.machine = devices S.machine ∧ (B.ram rt.machine = S.ram ↔ whole) := by
  cases h with
  | restore seed =>
    exact ⟨hD.started S.vns _ _ _ _ seed, iff_of_true (hR.started S.vns _ _ _ _ seed) trivial⟩
  | @snapshot id rt rt' hsnap =>
    obtain ⟨-, rfl, rfl⟩ := takeSnapshot_eq_ok hsnap
    change devices (if _ then _ else _) = _ ∧ (B.ram (if _ then _ else _) = _ ↔ _)
    split_ifs
    · rw [hD.harvest, hR.harvest]
      exact ⟨rfl, eq_comm⟩
    · exact ⟨rfl, eq_comm⟩

/-- What each call on the slot keeps. -/
lemma SinceBase.use {rt1 : SlotRuntime H σ Page} {us : List Usage} {u : Usage}
    (hdrain : DrainsForward B devices cursor) (h : SinceBase B devices frame cursor S rt1 us rt)
    (huse : Uses B u rt rt') : SinceBase B devices frame cursor S rt1 (us ++ [u]) rt' := by
  obtain ⟨hclock, hlinked, hmoved, hstands, hstill, hle, hlt⟩ := h
  have hleft : .run ∉ us ++ [u] → .run ∉ us := fun hno hrun => hno (mem_append_left _ hrun)
  cases huse with
  | run hrun =>
    have hhere : Usage.run ∈ us ++ [.run] := by simp
    have hstep := runSlot_linked hrun
    rw [hclock] at hstep
    have hthere := Relation.TransGen.trans_right hlinked hstep
    exact ⟨(sameSegment_of_runSlot hrun).clockBase_eq.trans hclock, hthere.to_reflTransGen,
      fun _ => hthere, (absurd hhere ·), fun hall => (hall _ hhere).elim, (absurd hhere ·),
      (absurd hhere ·)⟩
  | @observe rt rail es hobserve =>
    have hpart : rt.index B devices cursor ≤ cursor (B.ram rail.machine) (devices rail.machine) ∧
        (es ≠ [] → rt.index B devices cursor <
          cursor (B.ram rail.machine) (devices rail.machine)) := by
      refine ⟨?_, hdrain.forward hobserve⟩
      by_cases hes : es = []
      · subst hes
        rw [hdrain.idle hobserve]
        exact le_rfl
      · exact (hdrain.forward hobserve hes).le
    refine ⟨hclock, hlinked, fun hrun => hmoved (by simpa using hrun), fun hno => ?_,
      fun hall => ?_, fun hno => (hle (hleft hno)).trans hpart.1, fun hno hany => ?_⟩
    · obtain ⟨hchain, hcumulative, hvns, hepoch, hframe⟩ := hstands (hleft hno)
      exact ⟨hchain, hcumulative, hvns, hepoch, hframe⟩
    · obtain rfl : es = [] := hall (.observe es) (by simp)
      exact (hdrain.idle hobserve).trans (hstill fun u hu => hall u (mem_append_left _ hu))
    · obtain ⟨u, hu, hmove⟩ := hany
      rcases mem_append.mp hu with hu | hu
      · exact (hlt (hleft hno) ⟨u, hu, hmove⟩).trans_le hpart.1
      · obtain rfl := mem_singleton.mp hu
        exact (hle (hleft hno)).trans_lt (hpart.2 hmove)
  | inject events =>
    obtain ⟨hchain', hframe', hmachine'⟩ := injectSlot_stands (B := B) events rt
    have hindex : (injectSlot B events rt).index B devices cursor = rt.index B devices cursor := by
      rw [SlotRuntime.index, hmachine', SlotRuntime.index]
    refine ⟨hclock, hchain'.symm ▸ hlinked, fun hrun => hchain'.symm ▸ hmoved (by simpa using hrun),
      fun hno => ?_, fun hall => ?_, fun hno => hindex ▸ hle (hleft hno), fun hno hany => ?_⟩
    · obtain ⟨hchain, hcumulative, hvns, hepoch, hframe⟩ := hstands (hleft hno)
      exact ⟨hchain'.trans hchain, hcumulative, hvns, hepoch, hframe'.trans hframe⟩
    · exact hmachine'.trans (hstill fun u hu => hall u (mem_append_left _ hu))
    · obtain ⟨u, hu, hmove⟩ := hany
      rcases mem_append.mp hu with hu | hu
      · exact hindex ▸ hlt (hleft hno) ⟨u, hu, hmove⟩
      · exact absurd (mem_singleton.mp hu ▸ trivial) hmove

lemma sinceBase_of_traced [DecidableEq H] {whole : Prop} {rt1 : SlotRuntime H σ Page}
    {us : List Usage} (hD : ReadsDevices B devices frame)
    (hdrain : DrainsForward B devices cursor) (hbased : Based B S whole rt1)
    (h : Traced (Uses B) us rt1 rt) : SinceBase B devices frame cursor S rt1 us rt := by
  obtain ⟨hclock, hstands⟩ := hbased.stands hD
  refine h.induct (I := SinceBase B devices frame cursor S rt1) ?_
    (fun _ hsince huse => hsince.use hdrain huse)
  exact ⟨hclock, hstands.chain_eq ▸ .refl, nofun, fun _ => hstands, fun _ => rfl, fun _ => le_rfl,
    fun _ ⟨_, hu, _⟩ => absurd hu not_mem_nil⟩

/-- The child of a fork starts where a restore of the parent's base starts exactly if the base
stored the parent's RAM and since then there was no `Run` and no observation drained an event. -/
theorem fork_starts_at_base_iff [DecidableEq H] {whole : Prop} {us : List Usage}
    {rt1 child : SlotRuntime H σ Page} {seed : Option H} (hR : ReadsRam B)
    (hD : ReadsDevices B devices frame) (hdrain : DrainsForward B devices cursor)
    (hbased : Based B S whole rt1)
    (hbehind : cursor S.ram (devices S.machine) ≤ rt1.index B devices cursor)
    (h : Traced (Uses B) us rt1 rt) (hfork : forkSlot B seed rt = .ok child)
    (hfresh : ¬Relation.TransGen (LinkStep (B.platform S.vns)) S.chain S.chain) :
    SameStart B devices child (restoreSnapshot B S seed) ↔ whole ∧ ∀ u ∈ us, u.Still := by
  have hsince := sinceBase_of_traced hD hdrain hbased h
  obtain ⟨hdevices1, hwhole⟩ := hbased.machine hR hD
  obtain ⟨hcow, -, -, opened, rfl, rfl⟩ := forkSlot_eq_ok hfork
  have hram := hR.started rt.vns ((rt.base.map Snapshot.id).getD B.noBase) rt.recording.chain
    (B.ram rt.machine) rt.machine seed
  have hram' := hR.started S.vns S.id S.chain S.ram S.machine seed
  have hdevices := hD.started rt.vns ((rt.base.map Snapshot.id).getD B.noBase) rt.recording.chain
    (B.ram rt.machine) rt.machine seed
  have hdevices' := hD.started S.vns S.id S.chain S.ram S.machine seed
  constructor
  · intro hsame
    have hramEq := (hram.symm.trans hsame.ram_eq).trans hram'
    have hdevicesEq := (hdevices.symm.trans hsame.devices_eq).trans hdevices'
    have hno : .run ∉ us := by
      intro hrun
      have hmoved := hsince.moved hrun
      have hchain : rt.recording.chain = S.chain := hsame.chain_eq
      rw [hchain] at hmoved
      exact hfresh hmoved
    have hstill : ∀ u ∈ us, u.Still := by
      by_contra hany
      have hlt := hsince.index_lt hno (by simpa using hany)
      rw [SlotRuntime.index.eq_def _ _ _ rt, hramEq, hdevicesEq] at hlt
      omega
    exact ⟨hwhole.mp (hsince.still hstill ▸ hramEq), hstill⟩
  · rintro ⟨hstored, hstill⟩
    have hmachine := hsince.still hstill
    obtain ⟨hchain, hcumulative, hvns, hepoch, hframe⟩ :=
      hsince.stands fun hrun => hstill _ hrun
    have hrestored := standsAt_restoreSnapshot hD S seed
    refine ⟨(hram.trans ?_).trans hram'.symm, (hdevices.trans ?_).trans hdevices'.symm, hchain,
      hcumulative, rfl, hvns, hepoch, hframe.trans hrestored.frame_eq.symm⟩
    · rw [hmachine, hwhole.mpr hstored]
    · rw [hmachine, hdevices1]

lemma diskBoard_ram (declared : List ℕ) : ReadsRam (diskBoard declared) :=
  ⟨fun _ _ => rfl, fun _ => rfl, fun _ _ _ => rfl⟩

lemma diskBoard_devices (declared : List ℕ) :
    ReadsDevices (diskBoard declared) Disk.pc (fun _ => 0) :=
  ⟨fun _ _ => rfl, fun _ => rfl, fun _ _ _ => rfl, fun _ _ => rfl⟩

lemma lt_of_diskLinks {chain chain' : ℕ}
    (h : Relation.TransGen (LinkStep diskPlatform) chain chain') : chain < chain' := by
  induction h with
  | single hlink =>
    obtain ⟨_, _, _, rfl⟩ := hlink
    exact Nat.lt_succ_self _
  | tail _ hlink ih =>
    obtain ⟨_, _, _, rfl⟩ := hlink
    exact ih.trans (Nat.lt_succ_self _)

lemma diskBoard_drains (declared : List ℕ) :
    DrainsForward (diskBoard declared) Disk.pc (fun _ _ => 0) where
  idle h := by
    cases h
    rfl
  forward h hne := by
    cases h
    exact absurd rfl hne

/-- The fork of a slot that was restored and observed. -/
theorem fork_starts_at_base_disk :
    ∃ rt child, Traced (Uses (diskBoard [])) [.observe []]
        (restoreSnapshot (diskBoard []) (diskBase []) none) rt ∧
      forkSlot (diskBoard []) none rt = .ok child ∧ SameStart (diskBoard []) Disk.pc child
        (restoreSnapshot (diskBoard []) (diskBase []) none) := by
  have hobserved : Traced (Uses (diskBoard [])) [.observe []]
      (restoreSnapshot (diskBoard []) (diskBase []) none) _ := .single (.observe rfl)
  have hiff := fork_starts_at_base_iff (S := diskBase []) (diskBoard_ram []) (diskBoard_devices [])
    (diskBoard_drains []) (.restore none) le_rfl hobserved
    (show forkSlot (diskBoard []) none _ = .ok _ from rfl) fun h => (lt_of_diskLinks h).ne rfl
  exact ⟨_, _, hobserved, rfl, hiff.mpr ⟨trivial, by simp [Usage.Still]⟩⟩

/-- A run for no more frames after the snapshot: it returns at once, but it adds
a link, and the segment count is still zero when the slot is forked. -/
theorem zero_budget_run_moves_fork :
    ∃ acts parent, Traced (Acts (diskBoard [])) acts (diskSlot []) parent ∧
      (forkSlot (diskBoard []) none parent).toOption.map (·.recording.chain) = some 1 ∧
      parent.base.map (fun S => (restoreSnapshot (diskBoard []) S none).recording.chain) =
        some 0 := by
  obtain ⟨acts, parent, htraced, hchains⟩ := exists_lineage (B := diskBoard []) (diskSlot [])
    [.snapshot 1, .run 50 { stop := .frameBudget 0 0 }]
    (fun r => ((forkSlot (diskBoard []) none r.2).toOption.map (·.recording.chain),
      r.2.base.map fun S => (restoreSnapshot (diskBoard []) S none).recording.chain))
    (a := (some 1, some 0)) (by decide +kernel)
  exact ⟨acts, parent, htraced, Prod.mk.inj hchains⟩

end Forks

/-! ## Incremental snapshots -/

section Pages

variable {W V : Set ℕ} {n : ℕ} {o : Opening H σ Page}

/-- The ring reports what the vCPU writes and nothing the host does can take a
page out of it. -/
structure RingReports (B : Board H σ X Page) : Prop where
  vcpu : ∀ vnsBase s s', VcpuStep (B.platform vnsBase) s s' →
    ∀ page ∉ B.ring s', page ∉ B.ring s ∧ B.ram s' page = B.ram s page
  host : ∀ vnsBase s s', HostStep (B.platform vnsBase) s s' → B.ring s' = B.ring s

variable {page : ℕ}

lemma HostWrote.page_eq (hring : RingReports B) {vnsBase : U64} {s s' : σ}
    (h : HostWrote B vnsBase V s s') (hpage : page ∉ V) (hout : page ∉ B.ring s') :
    page ∉ B.ring s ∧ B.ram s' page = B.ram s page := by
  induction h with
  | refl s => exact ⟨hout, rfl⟩
  | vcpu _ hstep ih =>
    obtain ⟨hbefore, heq⟩ := hring.vcpu _ _ _ hstep page hout
    obtain ⟨hstart, heq'⟩ := ih hpage hbefore
    exact ⟨hstart, heq.trans heq'⟩
  | @host V s s1 s' _ hstep ih =>
    obtain ⟨hold, hsame⟩ := not_or.mp hpage
    obtain ⟨hstart, heq⟩ := ih hold (hring.host _ _ _ hstep ▸ hout)
    exact ⟨hstart, (not_not.mp hsame).trans heq⟩

/-- Only pages that were written, and that no snapshot looked at since, can
differ from the base. -/
def Covered (B : Board H σ X Page) (W : Set ℕ) (rt : SlotRuntime H σ Page) : Prop :=
  ∀ S, rt.base = some S → ∀ page ∉ W, page ∉ reported B rt → B.ram rt.machine page = S.ram page

lemma Covered.stay (hring : RingReports B) (h : Covered B W rt) (hsame : SameSegment B rt rt')
    (hwrote : HostWrote B rt.clockBase V rt.machine rt'.machine) : Covered B (W ∪ V) rt' := by
  intro S hbase page hpage hout
  obtain ⟨hW, hV⟩ := not_or.mp hpage
  obtain ⟨hdirty, hringed⟩ := not_or.mp hout
  obtain ⟨hbefore, heq⟩ := hwrote.page_eq hring hV hringed
  rw [hsame.dirty_eq] at hdirty
  exact heq.trans (h S (hsame.base_eq ▸ hbase) page hW (not_or.mpr ⟨hdirty, hbefore⟩))

lemma deltaParent_eq_some (h : deltaParent B rt = some S) : rt.base = some S :=
  (Option.filter_eq_some_iff.mp h).1

lemma reported_subset (h : page ∈ reported B rt) : page ∈ snapshotPages B rt := by
  rcases h with hdirty | hring
  · exact mem_append_left _ (mem_append_left _ hdirty)
  · exact mem_append_left _ (mem_append_right _ hring)

variable [DecidableEq H]

lemma captured_page (hhash : Function.Injective B.pageHash) (id : H)
    (h : ∀ S, deltaParent B rt = some S → page ∉ snapshotPages B rt →
      B.ram rt.machine page = S.ram page) :
    (captured B id rt).ram page = B.ram rt.machine page := by
  change flattenedPages B rt page = _
  unfold flattenedPages
  cases hparent : deltaParent B rt with
  | none => rfl
  | some S =>
    dsimp only
    split_ifs with hship
    · rfl
    · by_cases hmem : page ∈ snapshotPages B rt
      · by_contra hne
        exact hship ⟨hmem, fun heq => hne (hhash heq).symm⟩
      · exact (h S hparent hmem).symm

lemma captured_overlooked (id : H) (hparent : deltaParent B rt = some S)
    (hpage : page ∉ snapshotPages B rt) : (captured B id rt).ram page = S.ram page := by
  change flattenedPages B rt page = _
  simp [flattenedPages, hparent, hpage]

lemma Covered.captured_page (hhash : Function.Injective B.pageHash) (h : Covered B W rt) (id : H)
    (hpage : page ∉ overlooked B rt W) : (captured B id rt).ram page = B.ram rt.machine page := by
  refine DetHypervisor.captured_page hhash id fun S hparent hout => ?_
  refine h S (deltaParent_eq_some hparent) page (fun hW => hpage ⟨hW, ?_, hout⟩)
    (mt reported_subset hout)
  rw [hparent]
  rfl

lemma covered_of_history (hR : ReadsRam B) (hring : RingReports B)
    (hhash : Function.Injective B.pageHash) (h : History B o n W rt) : Covered B W rt := by
  induction h with
  | create machine chain seed => nofun
  | restore S seed =>
    rintro _ ⟨⟩ page - -
    exact congrFun (hR.started S.vns _ _ S.ram S.machine seed) page
  | @fork o n W seed parent child _ hfork ih =>
    obtain ⟨-, -, -, opened, rfl, rfl⟩ := forkSlot_eq_ok hfork
    intro S hbase page hpage _
    obtain ⟨hW, hreported⟩ := not_or.mp hpage
    exact (congrFun (hR.started parent.vns _ parent.recording.chain _ parent.machine seed)
      page).trans (ih S hbase page hW hreported)
  | @snapshot o n W id rt rt' S' _ hsnap ih =>
    obtain ⟨-, rfl, rfl⟩ := takeSnapshot_eq_ok hsnap
    rintro _ ⟨⟩ page hpage -
    rw [ih.captured_page hhash id hpage]
    change B.ram (if (deltaParent B rt).isSome then B.harvest rt.machine else rt.machine) page = _
    split_ifs
    · rw [hR.harvest]
    · rfl
  | run _ hrun hwrote ih => exact ih.stay hring (sameSegment_of_runSlot hrun) hwrote
  | observe _ hobserve hwrote ih => exact ih.stay hring (sameSegment_of_observeSlot hobserve) hwrote
  | @inject o n W rt _ events ih =>
    intro S hbase page hW hout
    have hmachine : (injectSlot B events rt).machine = rt.machine :=
      congrArg Rail.machine (injectSlot_segment events rt).2
    rw [reported, hmachine] at hout
    rw [hmachine]
    exact ih S hbase page hW hout

/-- The snapshot a slot stores restores to its RAM exactly if every page written
behind the back of its ring is looked at or has its old content. -/
theorem snapshot_complete_iff {id : H} (hR : ReadsRam B) (hring : RingReports B)
    (hhash : Function.Injective B.pageHash) (h : History B o n W rt)
    (hsnap : takeSnapshot B id rt = .ok (S, rt')) (seed : Option H) :
    B.ram (restoreSnapshot B S seed).machine = B.ram rt.machine ↔
      ∀ parent, deltaParent B rt = some parent → ∀ page ∈ W, page ∉ snapshotPages B rt →
        B.ram rt.machine page = parent.ram page := by
  obtain ⟨-, rfl, -⟩ := takeSnapshot_eq_ok hsnap
  have hcovered := covered_of_history hR hring hhash h
  have hrestored : B.ram (restoreSnapshot B (captured B id rt) seed).machine =
      (captured B id rt).ram :=
    hR.started _ _ _ _ _ seed
  rw [hrestored]
  constructor
  · intro heq parent hparent page _ hout
    rw [← heq]
    exact captured_overlooked id hparent hout
  · intro hall
    funext page
    refine captured_page hhash id fun parent hparent hout => ?_
    by_cases hW : page ∈ W
    · exact hall parent hparent page hW hout
    · exact hcovered parent (deltaParent_eq_some hparent) page hW (mt reported_subset hout)

lemma diskBoard_ring (declared : List ℕ) : RingReports (diskBoard declared) := by
  refine ⟨fun _ s s' hstep page _ => ⟨not_mem_nil, ?_⟩, fun _ _ _ _ => rfl⟩
  change (if s.pc = 0 then VcpuExit.device () { s with pc := 1 }
    else .debug 1 { s with pc := s.pc + 1 } : VcpuExit Disk Unit).state? = some s' at hstep
  split_ifs at hstep
  all_goals
    cases hstep
    rfl

lemma disk_page_eq {s s' : Disk} (h : Relation.ReflTransGen (MachineStep diskPlatform) s s')
    (hpage : page ≠ 0) : s'.ram page = s.ram page := by
  induction h with
  | refl => rfl
  | tail _ hstep ih =>
    rcases hstep with hvcpu | hhost
    · exact ((diskBoard_ring []).vcpu (.saturate 0) _ _ hvcpu page not_mem_nil).2.trans ih
    · cases hhost with
      | service h =>
        cases h
        exact (Function.update_of_ne hpage _ _).trans ih
      | padSet h | netRx h =>
        cases h
        exact ih
      | interrupt vector s => exact ih

/-- With the page of the read declared by its device, the snapshot has it. -/
theorem snapshot_complete_disk : ∃ o n W rt S rt', History (diskBoard [0]) o n W rt ∧
      takeSnapshot (diskBoard [0]) 2 rt = .ok (S, rt') ∧ rt.machine.ram 0 = 7 ∧
      (restoreSnapshot (diskBoard [0]) S none).machine.ram = rt.machine.ram := by
  have hboot := History.restore (B := diskBoard [0]) (diskBase [0]) none
  obtain ⟨acts, rt, htraced, hread⟩ := exists_lineage (B := diskBoard [0])
    (restoreSnapshot (diskBoard [0]) (diskBase [0]) none) [.run 50 { stop := .icountBudget 2 }]
    (fun r => (r.1, r.2.machine.ram 0, (takeSnapshot (diskBoard [0]) 2 r.2).toOption.isSome))
    (a := ([.run 2], 7, true)) (by decide +kernel)
  obtain ⟨rfl, hread⟩ := Prod.mk.inj hread
  obtain ⟨hread, hsome⟩ := Prod.mk.inj hread
  obtain ⟨o, n, W, hhistory⟩ := history_of_lineage ⟨_, _, _, hboot⟩ htraced
  cases hsnap : takeSnapshot (diskBoard [0]) 2 rt with
  | error e =>
    rw [hsnap] at hsome
    cases hsome
  | ok r =>
    obtain ⟨S, rt'⟩ := r
    refine ⟨o, n, W, rt, S, rt', hhistory, hsnap, hread, ?_⟩
    refine (snapshot_complete_iff (diskBoard_ram [0]) (diskBoard_ring [0])
      Function.injective_id hhistory hsnap none).mpr fun parent hparent page _ hout => ?_
    have hpage : page ≠ 0 := fun h => hout (mem_append_right _ (by simp [h, diskBoard]))
    obtain _ | ⟨hact, hnil⟩ := htraced
    cases hnil
    generalize hlabel : Act.run 2 = act at hact
    cases hact with
    | run hrun =>
      have hsame := sameSegment_of_runSlot hrun
      have hbase := hsame.base_eq.symm.trans (deltaParent_eq_some hparent)
      cases hbase
      exact disk_page_eq hsame.drifts.moves hpage
    | snapshot | restore | fork | observe | inject => cases hlabel

/-- The page of a pv-blk read is in no ring and in no declared range. -/
theorem snapshot_misses_disk_read :
    ∃ acts rt, Traced (Acts (diskBoard [])) acts (diskSlot []) rt ∧
      (takeSnapshot (diskBoard []) 2 rt).toOption.map (fun r =>
        ((restoreSnapshot (diskBoard []) r.1 none).machine.ram 0, rt.machine.ram 0)) =
      some (0, 7) := by
  exact exists_lineage (B := diskBoard []) (diskSlot [])
    [.snapshot 1, .run 50 { stop := .icountBudget 2 }]
    (fun r => (takeSnapshot (diskBoard []) 2 r.2).toOption.map fun t =>
      ((restoreSnapshot (diskBoard []) t.1 none).machine.ram 0, r.2.machine.ram 0))
    (a := some (0, 7)) (by decide +kernel)

end Pages

end DetHypervisor
