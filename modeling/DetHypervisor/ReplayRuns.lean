import DetHypervisor.Replay
import DetHypervisor.Runs

/-!
# Replay quanta along an itinerary

One `run_to` of a replay, started at a station of the recorded itinerary, ends at the next
station. Its agenda consists of grid points and of the target.
-/

namespace DetHypervisor

open List Except

variable {H σ X : Type} [DecidableEq H] {P : Platform H σ X} {fuel : ℕ}

def auditAt (rs : List (Record H)) (observed : Option ℕ) : Audit :=
  ⟨(rs.filterMap Record.epoch?).length, lastEpoch rs, observed⟩

omit [DecidableEq H] in
lemma auditAt_append {rs new : List (Record H)} (h : ∀ x ∈ new, x.epoch? = none)
    (o : Option ℕ) : auditAt (rs ++ new) o = auditAt rs o := by
  unfold auditAt
  rw [lastEpoch_append_of_no_epoch h, filterMap_append, filterMap_eq_nil_iff.mpr h, append_nil]

omit [DecidableEq H] in
lemma noteTerminal_eq (target : Option SdkEvent) (icount : ℕ) (events : List SdkEvent)
    (a : Audit) : ∃ o, noteTerminal target icount events a = { a with observed := o } := by
  unfold noteTerminal
  cases target with
  | none => exact ⟨a.observed, rfl⟩
  | some event =>
    dsimp only
    split_ifs
    · exact ⟨_, rfl⟩
    · exact ⟨a.observed, rfl⟩

def Until.isQuantum : Until → Bool
  | .icountBudget _ | .frameBudget .. => true
  | _ => false

structure Quantum (H : Type) where
  log : SealedLog H
  start : ℕ
  stop : Until
  hashFinalStop : Bool
  hashFinalEpoch : Bool

def Quantum.request (q : Quantum H) : RunRequest H σ Audit :=
  replayRequest q.log q.start q.stop q.hashFinalStop q.hashFinalEpoch

section Requests

variable {q : Quantum H}
  {a b b' : Station H σ} {cap frame n t vns : ℕ} {es : List Emit} {it : AgendaIter}
  {r r' : Rail H σ} {s : Seg H σ Audit} {tl : List (Record H)}

lemma Quantum.plain (h : q.stop.isQuantum = true) : Plain (q.request : RunRequest H σ Audit) where
  injections_eq := rfl
  timer_eq := rfl
  goal_eq := by
    cases hstop : q.stop <;>
      simp_all [Until.isQuantum, RunRequest.goalPollPeriod, request, replayRequest]
  awaits_eq := by
    cases hstop : q.stop <;>
      simp_all [Until.isQuantum, RunRequest.awaitsSdkEvent, request, replayRequest]
  pause_eq := fun _ => rfl
  frameStop_eq := fun _ => rfl
  sink := by
    intro index icount value w w' c c' hsink
    simp only [request, replayRequest, verifyEpoch] at hsink
    split at hsink
    · cases hsink
    · split_ifs at hsink
      cases hrecord : w.record icount 0 (.epochHash index value) with
      | error e => simp [hrecord] at hsink
      | ok w1 =>
        simp only [hrecord, Except.ok.injEq, Prod.mk.injEq] at hsink
        rw [hsink.1]

lemma noteExit_request (q : Quantum H) (r : Rail H σ) (es : List Emit) (s : Seg H σ Audit) :
    ∃ o, noteExit q.request r es s =
      { s with rail := r, caller := { s.caller with observed := o } } := by
  obtain ⟨o, ho⟩ := noteTerminal_eq q.log.terminalSdkTarget r.icount (es.filterMap Emit.sdk?)
    s.caller
  refine ⟨o, ?_⟩
  rw [← ho]
  rfl

lemma run_of_coast (hstop : q.stop.isQuantum = true) (h : Coast P t n s.rail r) (k : ℕ) : ∃ o,
      Fuel.run (landStep P q.request t) (n + k) s = Fuel.run (landStep P q.request t) k
          { s with rail := r, caller := { s.caller with observed := o } } := by
  generalize hs : s.rail = r0 at h
  induction h generalizing k with
  | refl => exact ⟨s.caller.observed, by rw [Nat.zero_add, ← hs]⟩
  | @snoc n _ r1 r2 _ hlt hpass ih =>
    obtain ⟨o, hrun⟩ := ih (k + 1) hs
    rw [show n + 1 + k = n + (k + 1) by omega, hrun]
    rcases hpass with hstep | ⟨es, hserviced⟩
    · refine ⟨o, Fuel.run_succ_next ?_ k⟩
      simp [landStep, hlt.le.not_gt, hlt.ne, hstep, onEntered]
    · obtain ⟨o', ho'⟩ := noteExit_request q r2 es
        { s with rail := r1, caller := { s.caller with observed := o } }
      refine ⟨o', Fuel.run_succ_next ?_ k⟩
      simp [landStep, hlt.le.not_gt, hlt.ne, hserviced,
        onEntered_serviced (Quantum.plain hstop), ho']

lemma landAt_of_coast (hstop : q.stop.isQuantum = true) (h : Coast P t n s.rail r)
    (hn : n < fuel) (hr : r.icount = t) : ∃ o, landAt P q.request fuel t s =
        .ok { s with rail := r, caller := { s.caller with observed := o } } := by
  obtain ⟨k, rfl⟩ : ∃ k, fuel = n + (k + 1) := ⟨fuel - n - 1, by omega⟩
  obtain ⟨o, hrun⟩ := run_of_coast hstop h (k + 1)
  refine ⟨o, ?_⟩
  rw [landAt, hrun, Fuel.run_succ_done (r := .ok _)]
  · rfl
  · simp [landStep, hr]

attribute [local simp] Quantum.request replayRequest

lemma holdFrame_request (hframe : s.lastFrame < frame) (hpending : s.pendingFrames = []) :
    holdFrame P q.request frame s =
      .ok { s with lastFrame := frame, framesSeen := s.framesSeen + 1 } := by
  simp [holdFrame, hframe.not_ge, dueAtFrame, hpending, applyAtFrame]

lemma landAt_of_frame (hstop : q.stop = .frameBudget 1 cap) (h : Coast P t n s.rail r)
    (hn : n < fuel) (hlt : r.icount < t) (henter : enter P r = .frame frame r' es)
    (hframe : s.lastFrame < frame) (hseen : s.framesSeen = 0) (hpending : s.pendingFrames = []) :
    ∃ o, landAt P q.request
        fuel t s = .error (.eventStop
          { s with
            rail := r'
            caller := { s.caller with observed := o }
            lastFrame := frame
            framesSeen := 1 }) := by
  obtain ⟨k, rfl⟩ : ∃ k, fuel = n + (k + 1) := ⟨fuel - n - 1, by omega⟩
  have hquantum : q.stop.isQuantum = true := by rw [hstop]; rfl
  obtain ⟨o, hrun⟩ := run_of_coast hquantum h (k + 1)
  obtain ⟨o', ho'⟩ := noteExit_request q r' es
    { s with rail := r, caller := { s.caller with observed := o } }
  refine ⟨o', ?_⟩
  rw [landAt, hrun, Fuel.run_succ_done (r := .error (.eventStop _))]
  · rfl
  · simp only [landStep, hlt.le.not_gt, hlt.ne, if_false, henter]
    rw [onEntered_frame (Quantum.plain hquantum),
      holdFrame_request (by rw [ho']; exact hframe) (by rw [ho']; exact hpending), ho']
    simp [hseen, RunRequest.frameTarget, hstop]

lemma atPoint_of_landed {p : StopPoint} {s1 : Seg H σ Audit} (hstop : q.stop.isQuantum = true)
    (hinputs : p.inputs = []) (hinjections : p.injections = []) (hgoal : p.goalPoll = false)
    (hvns : P.config.clock.vnsFromIcount p.icount = some vns) (hland : landAt P q.request fuel
      p.icount s = .ok s1) :
    atPoint P q.request fuel [] none p s =
      ((if p.epochHash && (p.finalStop.isNone || q.hashFinalEpoch) then
          sinkEpoch P q.request p.icount
            (s1.pushLink P p.icount vns)
        else .ok s1) >>= fun s2 => .ok (match p.finalStop with
          | some kind => .inr (finish P q.hashFinalStop kind.reason (s1.rail.boundary P) vns
              (p.epochHash && (p.finalStop.isNone || q.hashFinalEpoch)) s2)
          | none => .inl s2)) := by
  unfold atPoint
  simp only [hland, hinputs, hinjections, applyInputs, deliver, clockAt, hvns, map_nil,
    filterMap_nil, append_nil, ok_bind,
    afterPoint_eq (Quantum.plain hstop) hgoal]
  rfl

lemma next_of_no_inputs {grid : Option ℕ} {cur : ℕ} (h : it.At grid cur)
    (hinputs : it.inputs = []) (hlt : cur < t) (hle : t ≤ it.finalIcount)
    (hgrid : ∀ i, cur < i → i < t → ¬OnGrid grid i) (ht : OnGrid grid t ∨ t = it.finalIcount) :
    ∃ p it', it.next = some (p, it') ∧ AgendaIter.NextSpec grid cur it p it' ∧ p.icount = t ∧
      p.inputs = [] ∧ it'.inputs = [] := by
  obtain ⟨p, it', hnext, hspec⟩ := h.next_spec (hlt.trans_le hle)
  have hnone : p.inputs = [] := by simp [hspec.inputs_eq, hinputs]
  refine ⟨p, it', hnext, hspec, le_antisymm ?_ ?_, hnone, by simp [hspec.rest_inputs, hinputs]⟩
  · by_contra hgt
    rcases ht with hon | hfin
    · exact hspec.no_grid t hlt (by omega) hon
    · have := hspec.le_final
      omega
  · by_contra hgt
    rcases hspec.cause with hfin | hon | hne
    · omega
    · exact hgrid p.icount hspec.cur_lt (by omega) hon
    · exact hne hnone

structure SegAt (b : Station H σ) (s : Seg H σ Audit) : Prop where
  rail_eq : s.rail = b.rail
  chain_eq : s.chain = b.chain
  caller_eq : ∃ o, s.caller = auditAt b.rail.log.records o
  lastFrame_eq : s.lastFrame = 0
  framesSeen_eq : s.framesSeen = 0
  pending_eq : s.pendingFrames = []

lemma landAt_segAt (hstop : q.stop.isQuantum = true) (hs : SegAt b s)
    (hcoast : Coast P t n b.rail r) (hn : n < fuel) (hr : r.icount = t) : ∃ s1,
      landAt P q.request fuel t s = .ok s1 ∧ SegAt ⟨r, b.chain⟩ s1 := by
  obtain ⟨o, hland⟩ := landAt_of_coast hstop
    (hs.rail_eq ▸ hcoast) hn hr
  obtain ⟨o0, ho0⟩ := hs.caller_eq
  obtain ⟨new, happended, hnew⟩ := hcoast.log
  refine ⟨_, hland, ⟨rfl, hs.chain_eq, ⟨o, ?_⟩, hs.lastFrame_eq, hs.framesSeen_eq, hs.pending_eq⟩⟩
  rw [happended.records_eq, auditAt_append fun x hx => (hnew x hx).1.not_epoch, ho0]
  rfl

lemma sinkEpoch_segAt (hlog : q.log.records = b.rail.log.records ++ tl) (hs : SegAt a s)
    (h : Linked P t a b) (hvns : P.config.clock.vnsFromIcount t = some vns) : ∃ s',
      sinkEpoch P q.request t
        (s.pushLink P t vns) = .ok s' ∧ SegAt b s' := by
  obtain ⟨vns', hvns', hchain⟩ := h.chain_eq
  obtain rfl : vns' = vns := Option.some.inj (hvns'.symm.trans hvns)
  obtain ⟨w, hrecord, hrail⟩ := h.rail_eq
  obtain ⟨o, ho⟩ := hs.caller_eq
  have hexpected : q.log.epochs[(auditAt a.rail.log.records o).verified]? =
      some (t / max P.config.epochLen 1, t, b.chain) := by
    rw [SealedLog.epochs, hlog, h.log.records_eq]
    simp [auditAt, Record.epoch?]
  have hw := (LogWriter.appended_of_record hrecord).records_eq
  have hsink : verifyEpoch q.log.epochs (t / max P.config.epochLen 1) t b.chain
      (a.rail.log, auditAt a.rail.log.records o) = .ok (w, auditAt w.records o) := by
    unfold verifyEpoch
    rw [hexpected]
    simp [hrecord, hw, auditAt, Record.epoch?, lastEpoch]
  refine ⟨{ s with rail := b.rail, chain := b.chain, caller := auditAt b.rail.log.records o },
    ?_, ⟨rfl, rfl, ⟨o, rfl⟩, hs.lastFrame_eq, hs.framesSeen_eq, hs.pending_eq⟩⟩
  unfold sinkEpoch Seg.pushLink
  simp only [hs.rail_eq, hs.chain_eq, ho, ← hchain, Quantum.request, replayRequest, hsink,
    Flight.lift, ok_bind, hrail]

structure Heading (P : Platform H σ X) (b : Station H σ) (w : AgendaIter × Seg H σ Audit) :
    Prop where
  at_ : w.1.At (epochGrid P {}) b.rail.icount
  inputs_eq : w.1.inputs = []
  seg : SegAt b w.2

def Concludes (P : Platform H σ X) (fuel : ℕ) (q : Quantum H) (w : AgendaIter × Seg H σ Audit)
    (t vns : ℕ) (hashed : Bool) (c : Station H σ) : Prop :=
  ∃ s' boundary, walkStep P q.request fuel [] none w =
      .done (.ok (finish P q.hashFinalStop w.1.stopKind.reason boundary vns hashed s')) ∧
    boundary.icount = t ∧ SegAt c s'

variable {w : AgendaIter × Seg H σ Audit}

section

variable (h : Heading P b w)
include h

section

variable (hstop : q.stop.isQuantum = true)
include hstop

lemma Heading.arrive (harrive : Arrives P (epochGrid P {}) fuel b t r) (hle : t ≤ w.1.finalIcount)
    (ht : OnGrid (epochGrid P {}) t ∨ t = w.1.finalIcount)
    (hvns : P.config.clock.vnsFromIcount t = some vns) :
    ∃ p it' s1, w.1.next = some (p, it') ∧
      AgendaIter.NextSpec (epochGrid P {}) b.rail.icount w.1 p it' ∧ p.icount = t ∧
      it'.inputs = [] ∧ SegAt ⟨r, b.chain⟩ s1 ∧ (s1.rail.boundary P).icount = t ∧
      atPoint P q.request fuel [] none p w.2 =
        ((if p.epochHash && (p.finalStop.isNone || q.hashFinalEpoch) then
            sinkEpoch P q.request t (s1.pushLink P t vns)
          else .ok s1) >>= fun s2 => .ok (match p.finalStop with
            | some kind => .inr (finish P q.hashFinalStop kind.reason (s1.rail.boundary P) vns
                (p.epochHash && (p.finalStop.isNone || q.hashFinalEpoch)) s2)
            | none => .inl s2)) := by
  obtain ⟨p, it', hnext, hspec, rfl, hp, hit'⟩ := next_of_no_inputs h.at_ h.inputs_eq harrive.lt
    hle harrive.no_grid ht
  obtain ⟨n, hn, hcoast⟩ := harrive.coast
  obtain ⟨s1, hland, hs1⟩ := landAt_segAt hstop h.seg hcoast hn harrive.landed
  refine ⟨p, it', s1, hnext, hspec, rfl, hit', hs1, ?_,
    atPoint_of_landed hstop hp hspec.injections_eq hspec.goalPoll_eq hvns hland⟩
  rw [Rail.boundary, hs1.rail_eq]
  exact harrive.landed

lemma walkStep_of_glide
    (hglide : Glide P (epochGrid P {}) fuel b b') (hlt : b'.rail.icount < w.1.finalIcount)
    (hlog : q.log.records = b'.rail.log.records ++ tl) :
    ∃ w', walkStep P q.request fuel [] none w = .next w' ∧ Heading P b' w' ∧
      w'.1.finalIcount = w.1.finalIcount ∧ w'.1.stopKind = w.1.stopKind := by
  obtain ⟨t, r, harrive, hon, hlinked⟩ := hglide
  have ht : b'.rail.icount = t := hlinked.icount_eq.trans harrive.landed
  rw [ht] at hlt
  obtain ⟨vns, hvns, -⟩ := hlinked.chain_eq
  obtain ⟨p, it', s1, hnext, hspec, rfl, hit', hs1, -, hpoint⟩ :=
    h.arrive hstop harrive hlt.le (.inl hon) hvns
  obtain ⟨s2, hsink, hs2⟩ := sinkEpoch_segAt hlog hs1 hlinked hvns
  have hfinal : p.finalStop = none := by rw [hspec.finalStop_eq, if_neg hlt.ne]
  have hepoch : p.epochHash = true := hspec.epochHash_iff.mpr hon
  refine ⟨(it', s2), ?_, ⟨ht ▸ hspec.rest hlt, hit', hs2⟩, hspec.rest_final, hspec.rest_kind⟩
  simp only [walkStep, hnext, hpoint, hepoch, hfinal, Option.isNone_none, Bool.true_or,
    Bool.and_true, if_true, hsink, ok_bind]

lemma concludes_of_glide
    (hhash : q.hashFinalEpoch = true) (hglide : Glide P (epochGrid P {}) fuel b b')
    (hfin : b'.rail.icount = w.1.finalIcount) (hlog : q.log.records = b'.rail.log.records ++ tl)
    (hvns : P.config.clock.vnsFromIcount b'.rail.icount = some vns) :
    Concludes P fuel q w b'.rail.icount vns true b' := by
  obtain ⟨t, r, harrive, hon, hlinked⟩ := hglide
  rw [show b'.rail.icount = t from hlinked.icount_eq.trans harrive.landed] at hfin hvns ⊢
  obtain ⟨p, it', s1, hnext, hspec, rfl, -, hs1, hboundary, hpoint⟩ :=
    h.arrive hstop harrive hfin.le (.inl hon) hvns
  obtain ⟨s2, hsink, hs2⟩ := sinkEpoch_segAt hlog hs1 hlinked hvns
  have hfinal : p.finalStop = some w.1.stopKind := by rw [hspec.finalStop_eq, if_pos hfin]
  have hepoch : p.epochHash = true := hspec.epochHash_iff.mpr hon
  refine ⟨s2, s1.rail.boundary P, ?_, hboundary, hs2⟩
  simp only [walkStep, hnext, hpoint, hepoch, hfinal, hhash, Bool.or_true, Bool.and_true, if_true,
    hsink, ok_bind]

lemma concludes_of_arrival (hhash : q.hashFinalEpoch = false ∨ ¬OnGrid (epochGrid P {}) t)
    (harrive : Arrives P (epochGrid P {}) fuel b t r) (hfin : t = w.1.finalIcount)
    (hvns : P.config.clock.vnsFromIcount t = some vns) :
    Concludes P fuel q w t vns false ⟨r, b.chain⟩ := by
  obtain ⟨p, it', s1, hnext, hspec, rfl, -, hs1, hboundary, hpoint⟩ :=
    h.arrive hstop harrive hfin.le (.inr hfin) hvns
  have hfinal : p.finalStop = some w.1.stopKind := by rw [hspec.finalStop_eq, if_pos hfin]
  have hhashed : (p.epochHash && (p.finalStop.isNone || q.hashFinalEpoch)) = false := by
    rcases hhash with hhash | hoff
    · simp [hfinal, hhash]
    · have hepoch : p.epochHash = false := by
        rw [← Bool.not_eq_true, hspec.epochHash_iff]
        exact hoff
      simp [hepoch]
  refine ⟨s1, s1.rail.boundary P, ?_, hboundary, hs1⟩
  rw [walkStep, hnext]
  dsimp only
  rw [hpoint, hhashed]
  simp only [hfinal, Bool.false_eq_true, if_false, ok_bind]

end

lemma walkStep_of_frame (hstop : q.stop = .frameBudget 1 cap)
    (hcoast : Coast P t n b.rail r) (hn : n < fuel) (hlt : r.icount < t)
    (hgrid : ∀ i, b.rail.icount < i → i < t → ¬OnGrid (epochGrid P {}) i)
    (henter : enter P r = .frame frame r' es) (hframe : 0 < frame)
    (hcap : r.icount < w.1.finalIcount) :
    ∃ s', walkStep P q.request fuel [] none w = .done (.error (.eventStop s')) ∧
      s'.rail = r' ∧ s'.chain = b.chain ∧ s'.framesSeen = 1 ∧
      ∃ o, s'.caller = auditAt r'.log.records o := by
  obtain ⟨p, it', hnext, hspec⟩ := h.at_.next_spec (hcoast.le.trans_lt hcap)
  have hs := h.seg
  -- The run heads for the target or a grid point; both lie beyond the frame.
  have hbeyond : r.icount < p.icount := by
    rcases hspec.cause with hfin | hon | hne
    · omega
    · by_contra hle
      exact hgrid p.icount hspec.cur_lt (by omega) hon
    · exact absurd (by simp [hspec.inputs_eq, h.inputs_eq]) hne
  obtain ⟨o, hland⟩ := landAt_of_frame hstop
    (hs.rail_eq ▸ hcoast.towards hbeyond) hn hbeyond henter (hs.lastFrame_eq ▸ hframe)
    hs.framesSeen_eq hs.pending_eq
  obtain ⟨new, happended, hnew⟩ := hcoast.log
  obtain ⟨-, new', happended', hnew'⟩ := enter_eq_frame henter
  obtain ⟨o0, ho0⟩ := hs.caller_eq
  refine ⟨{ w.2 with
    rail := r'
    caller := { w.2.caller with observed := o }
    lastFrame := frame
    framesSeen := 1 }, ?_, rfl, hs.chain_eq, rfl, o, ?_⟩
  · simp only [walkStep, hnext, atPoint, hland, error_bind]
  · have hnone : ∀ x ∈ (⟨r.log.recordCount, r.icount, 0, .frameMark frame⟩ : Record H) :: new',
        x.epoch? = none := by
      intro x hx
      rcases mem_cons.mp hx with rfl | hx
      · rfl
      · exact (hnew' x hx).1.not_epoch
    rw [happended'.records_eq, auditAt_append hnone, happended.records_eq,
      auditAt_append fun x hx => (hnew x hx).1.not_epoch, ho0]
    rfl

end

lemma run_of_glides {N : ℕ} (h : Heading P b w) (hstop : q.stop.isQuantum = true)
    (hglides : Glides P (epochGrid P {}) fuel b a)
    (hlt : a.rail.icount < w.1.finalIcount) (hlog : q.log.records = a.rail.log.records ++ tl)
    (hN : w.1.finalIcount - b.rail.icount < N) : ∃ N' w', w.1.finalIcount - a.rail.icount < N' ∧
      Fuel.run (walkStep P q.request fuel [] none) N w =
        Fuel.run (walkStep P q.request fuel [] none) N' w' ∧
      Heading P a w' ∧ w'.1.finalIcount = w.1.finalIcount ∧ w'.1.stopKind = w.1.stopKind := by
  induction hglides using Relation.ReflTransGen.head_induction_on generalizing N w with
  | refl => exact ⟨N, w, hN, rfl, h, rfl, rfl⟩
  | @head b b' hglide hrest ih =>
    obtain ⟨new, hnew⟩ := between_of_glides hrest
    obtain ⟨w1, hstep, h1, hfin1, hkind1⟩ :=
      walkStep_of_glide h hstop hglide (hnew.icount_le.trans_lt hlt)
        (by rw [hlog, hnew.appended.records_eq, append_assoc])
    have hlt' := hglide.lt
    have hle := hnew.icount_le
    obtain ⟨M, rfl⟩ : ∃ M, N = M + 1 := ⟨N - 1, by omega⟩
    obtain ⟨N', w', hN', hrun, h', hfin', hkind'⟩ :=
      ih (N := M) h1 (hfin1 ▸ hlt) (by rw [hfin1]; omega)
    refine ⟨N', w', hfin1 ▸ hN', ?_, h', hfin'.trans hfin1, hkind'.trans hkind1⟩
    rw [Fuel.run_succ_next hstep, hrun]

lemma Quantum.runSegment_eq (fuel : ℕ) (hstart : b.rail.icount = q.start)
    (hclock : P.config.clock.vnsFromIcount q.start = some vns)
    (hstop : q.stop = .icountBudget n ∨ q.stop = .frameBudget 1 n) (hlt : q.start + n < 2 ^ 64)
    (o : Option ℕ) : ∃ w, Heading P b w ∧ w.1.finalIcount = b.rail.icount + n ∧
      (q.stop = .icountBudget n → w.1.stopKind = .budget) ∧
      runSegment P fuel q.request b.rail b.chain (auditAt b.rail.log.records o) =
        settle P q.request ((Fuel.run (walkStep P q.request fuel [] none) (n + 1) w).getD
          (.fail .outOfFuel)) := by
  have hquantum : q.stop.isQuantum = true := by rcases hstop with h | h <;> rw [h] <;> rfl
  have hplain : Plain (q.request : RunRequest H σ Audit) := Quantum.plain hquantum
  have hfinal : (agendaInputs P (q.request : RunRequest H σ Audit) []).finalStop =
      .icountBudget n ∨
      (agendaInputs P (q.request : RunRequest H σ Audit) []).finalStop = .hardCap n := by
    rcases hstop with h | h
    · exact .inl (by simp [agendaInputs, RunRequest.finalStop, h])
    · exact .inr (by simp [agendaInputs, RunRequest.finalStop, h])
  obtain ⟨it, hnew⟩ := AgendaIter.new_isSome hfinal hlt
  obtain ⟨hat, hfin, hinputs, hkind⟩ := AgendaIter.at_of_new hnew hfinal rfl hplain.goal_eq
    fun len hlen => epochGrid_pos hlen
  have hframe : (q.request : RunRequest H σ Audit).frameTarget ≠ some 0 := by
    rcases hstop with h | h <;> simp [RunRequest.frameTarget, h]
  refine ⟨(it, startSeg q.request b.rail b.chain (auditAt b.rail.log.records o)),
    ⟨hstart ▸ hat, hinputs, ⟨rfl, rfl, ⟨o, rfl⟩, rfl, rfl, rfl⟩⟩, hstart ▸ hfin, ?_, ?_⟩
  · intro h
    exact hkind (by simp [agendaInputs, RunRequest.finalStop, h])
  · have hlen : it.finalIcount - (q.request : RunRequest H σ Audit).startIcount = n := by
      rw [hfin]
      exact Nat.add_sub_cancel_left _ _
    have hclock' : P.config.clock.vnsFromIcount
        (q.request : RunRequest H σ Audit).startIcount ≠ none := by
      simp [hclock]
    unfold runSegment
    rw [if_neg (by simpa using hstart), if_neg hclock',
      if_neg (by simp [-Quantum.request, hplain.awaits_eq]), if_neg hframe, hplain.timer_eq,
      hplain.injections_eq]
    simp only [hnew, walkAgenda, hlen]

end Requests

section RunTo

variable {log : SealedLog H} {st : ReplayState H σ} {a b : Station H σ} {t vns : ℕ}
  {tl : List (Record H)} {hashFinalStop hashFinalEpoch : Bool}

structure StateAt (b : Station H σ) (st : ReplayState H σ) : Prop where
  rail_eq : st.rail = b.rail
  chain_eq : st.chain = b.chain
  audit_eq : ∃ o, st.audit = auditAt b.rail.log.records o

lemma runTo_of_eq (ht : st.rail.icount = t) :
    runTo P fuel log t hashFinalStop hashFinalEpoch none st = .ok (none, st) := by
  unfold runTo
  rw [if_neg (by omega), if_pos ⟨ht.symm, rfl⟩]

omit [DecidableEq H] in
lemma SegAt.finish (st : ReplayState H σ) {s s' : Seg H σ Audit} {c : H} {r : Rail H σ}
    {boundary : Boundary}
    {hash hashed : Bool} {reason : StopReason} {out : SegmentOutcome H} (hs : SegAt ⟨r, c⟩ s)
    (h : (out, s') = finish P hash reason boundary vns hashed s) :
    out.reason = reason ∧ out.boundary = boundary ∧ out.vns = vns ∧ ∃ o,
      { st with rail := s'.rail, chain := s'.chain, audit := s'.caller } = { st with
        rail := r
        chain := if hash && !hashed then P.link c (P.image r.machine) boundary.icount vns else c
        audit := auditAt r.log.records o } := by
  obtain ⟨o, ho⟩ := hs.caller_eq
  cases h
  refine ⟨rfl, rfl, rfl, o, ?_⟩
  cases hash && !hashed
  · simp [hs.rail_eq, hs.chain_eq, ho]
  · simp [Seg.pushLink, hs.rail_eq, hs.chain_eq, ho]

lemma runTo_of_concludes (hashFinalStop hashFinalEpoch : Bool) {hashed : Bool} {c : Station H σ}
    (hst : StateAt b st) (hglides : Glides P (epochGrid P {}) fuel b a)
    (hlt : a.rail.icount < t) (hlog : log.records = a.rail.log.records ++ tl) (ht : t < 2 ^ 64)
    (hvns : P.config.clock.vnsFromIcount t = some vns)
    (hends : ∀ q : Quantum H, q.log = log → q.hashFinalEpoch = hashFinalEpoch →
      q.stop.isQuantum = true → ∀ w, Heading P a w → w.1.finalIcount = t →
        Concludes P fuel q w t vns hashed c) :
    ∃ out o, runTo P fuel log t hashFinalStop hashFinalEpoch none st = .ok (some out, { st with
          rail := c.rail
          chain := if hashFinalStop && !hashed then P.link c.chain (P.image c.rail.machine) t vns
            else c.chain
          audit := auditAt c.rail.log.records o }) ∧
      out.reason = .budgetReached ∧ out.boundary.icount = t ∧ out.vns = vns := by
  obtain ⟨new, hnew⟩ := between_of_glides hglides
  have hb : b.rail.icount < t := hnew.icount_le.trans_lt hlt
  obtain ⟨o, ho⟩ := hst.audit_eq
  obtain ⟨start, hstart⟩ := P.config.clock.vnsFromIcount_of_le hb.le hvns
  let q : Quantum H :=
    ⟨log, b.rail.icount, .icountBudget (t - b.rail.icount), hashFinalStop, hashFinalEpoch⟩
  obtain ⟨w, hw, hfin, hkind, hrun⟩ := Quantum.runSegment_eq (q := q) fuel (b := b) rfl hstart
    (.inl rfl) (show b.rail.icount + (t - b.rail.icount) < 2 ^ 64 by omega) o
  have hfinal : w.1.finalIcount = t := by omega
  obtain ⟨N', w', hN', hwalk, hw', hfin', hkind'⟩ := run_of_glides (q := q) hw rfl hglides
    (hfinal ▸ hlt) hlog (show _ < t - b.rail.icount + 1 by omega)
  obtain ⟨s1, boundary, hstep, hboundary, hs1⟩ := hends q rfl rfl rfl w' hw' (hfin'.trans hfinal)
  obtain ⟨M, rfl⟩ : ∃ M, N' = M + 1 := ⟨N' - 1, by omega⟩
  rw [hwalk, Fuel.run_succ_done hstep, hkind', hkind rfl] at hrun
  generalize hdone : finish P _ _ boundary vns hashed s1 = res at hrun
  obtain ⟨out, s'⟩ := res
  obtain ⟨hreason, hout, hvns', o', hstate⟩ := hs1.finish st hdone.symm
  rw [hboundary] at hstate
  refine ⟨out, o', ?_, hreason, hout ▸ hboundary, hvns'⟩
  rw [← hstate]
  unfold runTo
  simp only [hst.rail_eq, hst.chain_eq, ho, hb.not_gt, hb.ne', false_and, if_false, quantumStop]
  rw [show runSegment P fuel (replayRequest log b.rail.icount _ hashFinalStop hashFinalEpoch)
    b.rail b.chain _ = _ from hrun]
  rfl

lemma runTo_of_arrival (hashFinalStop hashFinalEpoch : Bool) {r : Rail H σ}
    (hst : StateAt b st) (hglides : Glides P (epochGrid P {}) fuel b a)
    (harrive : Arrives P (epochGrid P {}) fuel a t r)
    (hhash : hashFinalEpoch = false ∨ ¬OnGrid (epochGrid P {}) t)
    (hlog : log.records = a.rail.log.records ++ tl) (ht : t < 2 ^ 64)
    (hvns : P.config.clock.vnsFromIcount t = some vns) :
    ∃ out o, runTo P fuel log t hashFinalStop hashFinalEpoch none st = .ok (some out, { st with
          rail := r
          chain := if hashFinalStop then P.link a.chain (P.image r.machine) t vns else a.chain
          audit := auditAt r.log.records o }) ∧
      out.reason = .budgetReached ∧ out.boundary.icount = t ∧ out.vns = vns := by
  obtain ⟨out, o, hrun, hout⟩ := runTo_of_concludes hashFinalStop hashFinalEpoch hst hglides
    harrive.lt hlog ht hvns fun q _ hq hstop w hw hfin =>
      concludes_of_arrival hw hstop (hq ▸ hhash) harrive hfin.symm hvns
  rw [Bool.not_false, Bool.and_true] at hrun
  exact ⟨out, o, hrun, hout⟩

lemma runTo_of_glides (hashFinalStop : Bool) {a' : Station H σ} (hst : StateAt b st)
    (hglides : Glides P (epochGrid P {}) fuel b a) (hglide : Glide P (epochGrid P {}) fuel a a')
    (hlog : log.records = a'.rail.log.records ++ tl) (ht : a'.rail.icount < 2 ^ 64) :
    ∃ out o, runTo P fuel log a'.rail.icount hashFinalStop true none st = .ok (some out, { st with
          rail := a'.rail, chain := a'.chain, audit := auditAt a'.rail.log.records o }) ∧
      out.reason = .budgetReached ∧ out.boundary.icount = a'.rail.icount ∧
      P.config.clock.vnsFromIcount a'.rail.icount = some out.vns := by
  obtain ⟨new, hnew⟩ := (hglide.leg 0).between
  obtain ⟨vns, hvns⟩ : ∃ vns, P.config.clock.vnsFromIcount a'.rail.icount = some vns := by
    obtain ⟨t, r, harrive, -, hlinked⟩ := hglide
    obtain ⟨vns, hvns, -⟩ := hlinked.chain_eq
    rw [hlinked.icount_eq, harrive.landed]
    exact ⟨vns, hvns⟩
  obtain ⟨out, o, hrun, hreason, hboundary, rfl⟩ := runTo_of_concludes hashFinalStop true hst
    hglides hglide.lt (by rw [hlog, hnew.appended.records_eq, append_assoc]) ht hvns
    fun q hq hhash hstop w hw hfin =>
      concludes_of_glide hw hstop hhash hglide hfin.symm (by rw [hq, hlog]) hvns
  rw [Bool.not_true, Bool.and_false] at hrun
  exact ⟨out, o, hrun, hreason, hboundary, hvns⟩

lemma runTo_of_frame (hashFinalEpoch : Bool) {n frame : ℕ} {r r' : Rail H σ} {es : List Emit}
    (hst : StateAt b st) (hglides : Glides P (epochGrid P {}) fuel b a)
    (hcoast : Coast P t n a.rail r) (hn : n < fuel) (hlt : r.icount < t)
    (hgrid : ∀ i, a.rail.icount < i → i < t → ¬OnGrid (epochGrid P {}) i)
    (henter : enter P r = .frame frame r' es) (hframe : 0 < frame)
    (hlog : log.records = a.rail.log.records ++ tl) (hcap : r.icount + 1000000 < 2 ^ 64)
    (hvns : P.config.clock.vnsFromIcount r.icount = some vns) :
    ∃ out o, runTo P fuel log r.icount false hashFinalEpoch (some 1) st = .ok (some out, { st with
          rail := r', chain := a.chain, audit := auditAt r'.log.records o }) ∧
      out.reason = .budgetReached ∧ out.boundary.icount = r.icount ∧ out.framesElapsed = 1 := by
  obtain ⟨new, hnew⟩ := between_of_glides hglides
  have hle := hnew.icount_le.trans hcoast.le
  obtain ⟨o, ho⟩ := hst.audit_eq
  obtain ⟨start, hstart⟩ := P.config.clock.vnsFromIcount_of_le hle hvns
  obtain ⟨cap, hcapEq⟩ : ∃ cap, cap = r.icount - b.rail.icount + 1000000 := ⟨_, rfl⟩
  let q : Quantum H := ⟨log, b.rail.icount, .frameBudget 1 cap, false, hashFinalEpoch⟩
  obtain ⟨w, hw, hfin, -, hrun⟩ := Quantum.runSegment_eq (q := q) fuel (b := b) rfl hstart
    (.inr rfl) (show b.rail.icount + cap < 2 ^ 64 by omega) o
  have hbeyond : r.icount < w.1.finalIcount := by omega
  obtain ⟨N', w', hN', hwalk, hw', hfin', -⟩ := run_of_glides (q := q) (N := cap + 1) hw rfl
    hglides (hcoast.le.trans_lt hbeyond) hlog (by omega)
  obtain ⟨s2, hstep, hrail, hchain, hseen, o', ho'⟩ := walkStep_of_frame (q := q) hw' rfl hcoast hn
    hlt hgrid henter hframe (hfin' ▸ hbeyond)
  obtain ⟨M, rfl⟩ : ∃ M, N' = M + 1 := ⟨N' - 1, by omega⟩
  rw [hwalk, Fuel.run_succ_done hstep] at hrun
  have hicount : s2.rail.icount = r.icount := hrail ▸ (enter_eq_frame henter).1
  have hsettle : settle P (q.request : RunRequest H σ Audit) (.error (.eventStop s2)) =
      .ok (finish P false .budgetReached (s2.rail.boundary P) vns false s2) := by
    simp [settle, finishAtCounter, hicount, hvns, RunRequest.eventReason, Quantum.request,
      replayRequest, q]
  refine ⟨s2.outcome .budgetReached (s2.rail.boundary P) vns, o', ?_, rfl, hicount, hseen⟩
  have hadd : checkedAdd (r.icount - b.rail.icount) 1000000 = some cap :=
    checkedAdd_eq_some_iff.mpr ⟨hcapEq, by omega⟩
  have hquantum : quantumStop (r.icount - b.rail.icount) (some 1) = some (.frameBudget 1 cap) := by
    rw [quantumStop, hadd, Option.map_some]
  unfold runTo
  simp only [hst.rail_eq, hst.chain_eq, ho, hle.not_gt, reduceCtorEq, and_false, if_false, hquantum]
  rw [show runSegment P fuel (replayRequest log b.rail.icount _ false hashFinalEpoch)
    b.rail b.chain _ = _ from hrun, Option.getD_some, hsettle]
  simp [finish, hrail, hchain, ho']

end RunTo

end DetHypervisor
