import DetHypervisor.Lib.Outcome
import DetHypervisor.Machine

/-!
# What the rail writes

Every operation of the device rail only appends to the log. This module says,
once per operation, which records it appends and what else of the rail it
changes.
-/

namespace DetHypervisor

open List Except Rail

variable {H σ X : Type}
  {P : Platform H σ X} {es : List Emit} {icount rip : ℕ} {kind : InputKind} {q : Request X}
  {r r' : Rail H σ} {vector : Option ℕ}

structure Appended (w : LogWriter H) (new : List (Record H)) (w' : LogWriter H) : Prop where
  header_eq : w'.header = w.header
  records_eq : w'.records = w.records ++ new

namespace Appended

lemma refl (w : LogWriter H) : Appended w [] w := ⟨rfl, (append_nil _).symm⟩

lemma trans {w w1 w2 : LogWriter H} {xs ys : List (Record H)} (h1 : Appended w xs w1)
    (h2 : Appended w1 ys w2) : Appended w (xs ++ ys) w2 := by
  refine ⟨h2.header_eq.trans h1.header_eq, ?_⟩
  rw [h2.records_eq, h1.records_eq, append_assoc]

end Appended

/-- A record that the devices write while an exit is serviced, other than the
FRAME_MARK of a frame exit. -/
structure Emitted (P : Platform H σ X) (r : Record H) : Prop where
  not_mark : r.isFrameMark = false
  not_epoch : r.epoch? = none
  regenerated : r.isCanonical = true → regenerated P r = true

lemma LogWriter.appended_of_record {w w' : LogWriter H} {body : RecordBody H}
    (h : w.record icount rip body = .ok w') :
    Appended w [⟨w.recordCount, icount, rip, body⟩] w' := by
  obtain ⟨-, -, -, hheader, hrecords⟩ := LogWriter.record_eq_ok_iff.mp h
  exact ⟨hheader, hrecords⟩

namespace Rail

variable {body : RecordBody H}

lemma append_eq_ok : r.append icount rip body = .ok r' ↔
      ∃ log, r.log.record icount rip body = .ok log ∧ r' = { r with log } := by
  unfold append
  cases h : r.log.record icount rip body with
  | error e => simp
  | ok log => simp [eq_comm]

lemma append_spec (h : r.append icount rip body = .ok r') :
    r'.machine = r.machine ∧ r'.icount = r.icount ∧
      Appended r.log [⟨r.log.recordCount, icount, rip, body⟩] r'.log := by
  obtain ⟨log, hlog, rfl⟩ := append_eq_ok.mp h
  exact ⟨rfl, rfl, LogWriter.appended_of_record hlog⟩

lemma emit_spec (h : emit icount es r = .ok r') : r'.machine = r.machine ∧ r'.icount = r.icount ∧
      ∃ new, Appended r.log new r'.log ∧ (∀ x ∈ new, x.icount = icount) ∧
        new.map (·.body) = es.map Emit.body := by
  induction es generalizing r with
  | nil =>
    obtain rfl : r = r' := by simpa [emit] using h
    exact ⟨rfl, rfl, [], .refl _, by simp, rfl⟩
  | cons e es ih =>
    obtain ⟨r1, happend, hrest⟩ := bind_eq_ok.mp h
    obtain ⟨hmachine, hicount, hlog⟩ := append_spec happend
    obtain ⟨hmachine', hicount', new, hlog', hnew, hbodies⟩ := ih hrest
    refine ⟨hmachine'.trans hmachine, hicount'.trans hicount, _, hlog.trans hlog', ?_, ?_⟩
    · intro x hx
      rcases mem_append.mp hx with hx | hx
      · obtain rfl := mem_singleton.mp hx
        rfl
      · exact hnew x hx
    · simp [hbodies]

end Rail

lemma emitted_of_service {s s' : σ} (h : P.service icount q s = .ok (s', es)) {x : Record H}
    {e : Emit} (he : e ∈ es) (hx : x.body = e.body) : Emitted P x := by
  refine ⟨?_, ?_, ?_⟩
  · cases e <;> simp [Record.isFrameMark, hx, Emit.body]
  · cases e <;> simp [Record.epoch?, hx, Emit.body]
  · intro hcanonical
    rw [Record.isCanonical, hx] at hcanonical
    cases e with
    | entropy | netTx | sdk => simp [Emit.body, RecordBody.isCanonical] at hcanonical
    | channel event data =>
      have hchannel : P.detchannel = true := by
        by_contra hno
        have := P.service_channel h (by simpa using hno) _ he
        simp [Emit.isChannel] at this
      rw [regenerated, hchannel, Bool.and_true, Record.isChannelGenerated, hx]
      cases event <;> rfl

lemma Rail.mark_machine (h : r.mark icount q = .ok r') : r'.machine = r.machine := by
  unfold Rail.mark at h
  cases q with
  | frameCounter frame => exact (append_spec h).1
  | exit | pauseDrain => exact congrArg Rail.machine (Except.ok.inj h).symm

section

variable (h : r.service P icount q = .ok (r', es))
include h

lemma Rail.service_eq_ok :
    ∃ s r1, P.service icount q r.machine = .ok (s, es) ∧
      Rail.mark icount q { r with machine := s } = .ok r1 ∧ Rail.emit icount es r1 = .ok r' := by
  unfold Rail.service at h
  cases hs : P.service icount q r.machine with
  | error message => simp [hs] at h
  | ok w =>
    obtain ⟨s, es'⟩ := w
    simp only [hs] at h
    obtain ⟨r1, hmark, h⟩ := bind_eq_ok.mp h
    obtain ⟨r2, hemit, h⟩ := bind_eq_ok.mp h
    obtain ⟨rfl, rfl⟩ : r2 = r' ∧ es' = es := by simpa using h
    exact ⟨s, r1, rfl, hmark, hemit⟩

lemma Rail.service_spec :
    r'.icount = r.icount ∧
      ∃ marks new, Appended r.log (marks ++ new) r'.log ∧
        (∀ x ∈ new, Emitted P x ∧ x.icount = icount) ∧
        match q with
        | .frameCounter frame => marks = [⟨r.log.recordCount, icount, 0, .frameMark frame⟩]
        | _ => marks = [] := by
  obtain ⟨s, r1, hs, hmark, hemit⟩ := service_eq_ok h
  obtain ⟨-, hicount, new, hlog, hnew, hbodies⟩ := emit_spec hemit
  have hemitted : ∀ x ∈ new, Emitted P x ∧ x.icount = icount := by
    intro x hx
    have hmem : x.body ∈ es.map Emit.body := hbodies ▸ mem_map_of_mem hx
    obtain ⟨e, he, hbody⟩ := mem_map.mp hmem
    exact ⟨emitted_of_service hs he hbody.symm, hnew x hx⟩
  unfold Rail.mark at hmark
  cases q with
  | frameCounter frame =>
    obtain ⟨-, hicount', hlog'⟩ := append_spec hmark
    exact ⟨hicount.trans hicount', _, new, hlog'.trans hlog, hemitted, rfl⟩
  | exit | pauseDrain =>
    obtain rfl : _ = r1 := Except.ok.inj hmark
    exact ⟨hicount, [], new, hlog, hemitted, rfl⟩

lemma Rail.service_machine :
    P.service icount q r.machine = .ok (r'.machine, es) := by
  obtain ⟨s, r1, hs, hmark, hemit⟩ := service_eq_ok h
  rw [(emit_spec hemit).1, mark_machine hmark, hs]

end

section Enter

inductive Enters (P : Platform H σ X) (r : Rail H σ) : Entered H σ → Prop
  | stepped {retired : ℕ} {s : σ} (h : P.run r.machine = .debug retired s) :
      Enters P r (.stepped { r with machine := s, icount := r.icount + retired })
  | halted {s : σ} (h : P.run r.machine = .hlt s) : Enters P r (.halted { r with machine := s })
  | serviced {exit : X} {s : σ} {r' : Rail H σ} {es : List Emit}
      (hrun : P.run r.machine = .device exit s)
      (h : Rail.service P r.icount (.exit exit) { r with machine := s } = .ok (r', es)) :
      Enters P r (.serviced r' es)
  | frame {frame : ℕ} {s : σ} {r' : Rail H σ} {es : List Emit}
      (hrun : P.run r.machine = .frameCounter frame s)
      (h : Rail.service P r.icount (.frameCounter frame) { r with machine := s } = .ok (r', es)) :
      Enters P r (.frame frame r' es)
  | failed (e : BoundaryError H) : Enters P r (.failed e)

lemma enters (P : Platform H σ X) (r : Rail H σ) : Enters P r (enter P r) := by
  unfold enter
  cases hrun : P.run r.machine with
  | debug retired s => exact .stepped hrun
  | hlt s => exact .halted hrun
  | frameCounterWidth | kvmError => exact .failed _
  | frameCounter frame s =>
    dsimp only
    split
    next hservice => exact .frame hrun hservice
    next => exact .failed _
  | device exit s =>
    dsimp only
    split
    next hservice => exact .serviced hrun hservice
    next => exact .failed _

lemma enter_eq_stepped (h : enter P r = .stepped r') : r.icount ≤ r'.icount ∧ r'.log = r.log := by
  cases h ▸ enters P r with
  | stepped hrun => exact ⟨Nat.le_add_right _ _, rfl⟩

lemma enter_eq_halted (h : enter P r = .halted r') : r'.icount = r.icount ∧ r'.log = r.log := by
  cases h ▸ enters P r with
  | halted hrun => exact ⟨rfl, rfl⟩

lemma enter_eq_serviced (h : enter P r = .serviced r' es) : r'.icount = r.icount ∧
      ∃ new, Appended r.log new r'.log ∧ ∀ x ∈ new, Emitted P x ∧ x.icount = r.icount := by
  cases h ▸ enters P r with
  | serviced hrun hs =>
    obtain ⟨hicount, marks, new, hlog, hnew, hmarks⟩ := service_spec hs
    obtain rfl : marks = [] := hmarks
    exact ⟨hicount, new, hlog, hnew⟩

lemma enter_eq_frame {frame : ℕ} (h : enter P r = .frame frame r' es) : r'.icount = r.icount ∧
      ∃ new, Appended r.log
          (⟨r.log.recordCount, r.icount, 0, .frameMark frame⟩ :: new) r'.log ∧
        ∀ x ∈ new, Emitted P x ∧ x.icount = r.icount := by
  cases h ▸ enters P r with
  | frame hrun hs =>
    obtain ⟨hicount, marks, new, hlog, hnew, hmarks⟩ := service_spec hs
    obtain rfl : marks = _ := hmarks
    exact ⟨hicount, new, hlog, hnew⟩

end Enter

lemma Rail.applyInput_spec (h : r.applyInput P kind icount rip = .ok (r', vector)) :
    r'.icount = r.icount ∧ Appended r.log [⟨r.log.recordCount, icount, rip, kind.body⟩] r'.log := by
  unfold Rail.applyInput at h
  obtain ⟨⟨s, v⟩, -, h⟩ := bind_eq_ok.mp h
  obtain ⟨r1, happend, h⟩ := bind_eq_ok.mp h
  obtain ⟨rfl, rfl⟩ : r1 = r' ∧ v = vector := by simpa using h
  exact (append_spec happend).2

lemma Rail.applyInput_machine (h : r.applyInput P kind icount rip = .ok (r', vector)) :
    Rail.inputEffect (H := H) P r.machine kind = .ok (r'.machine, vector) := by
  unfold Rail.applyInput at h
  obtain ⟨⟨s, v⟩, heffect, h⟩ := bind_eq_ok.mp h
  obtain ⟨r1, happend, h⟩ := bind_eq_ok.mp h
  obtain ⟨rfl, rfl⟩ : r1 = r' ∧ v = vector := by simpa using h
  rw [heffect, (append_spec happend).1]

end DetHypervisor
