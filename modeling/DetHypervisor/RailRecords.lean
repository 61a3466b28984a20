import DetHypervisor.DeviceRail

/-!
# What the rail logs

Along any run of the rail the canonical records of the log are the inputs that
were applied, in their order. An operation that fails has logged nothing and
queued nothing.
-/

namespace DetHypervisor.Devices

open Bytes Dhilog Checked List
open Lapic (LocalApic LapicError)

variable {χ : Type}

/-- A dispatch leaves the queue alone and writes at most one record, an auxiliary
one. -/
inductive DevCtx.Dispatched (c c' : DevCtx) : Prop
  | quiet (hlog : c'.log = c.log) (hirqs : c'.irqQueue = c.irqQueue)
      (hfault : c'.logFault = c.logFault)
  | recorded (call : Call) (haux : call.kind.isAux = true)
      (hlog : c.log.append call = .ok c'.log) (hirqs : c'.irqQueue = c.irqQueue)
      (hfault : c'.logFault = c.logFault)
  | dropped (e : WriteError) (hlog : c'.log = c.log) (hirqs : c'.irqQueue = c.irqQueue)
      (hfault : c'.logFault = c.logFault.or (some e))

lemma DevCtx.dispatched_record {c c1 : DevCtx} (call : Call) (haux : call.kind.isAux = true)
    (hlog : c1.log = c.log) (hirqs : c1.irqQueue = c.irqQueue)
    (hfault : c1.logFault = c.logFault) : c.Dispatched (c1.record (c.log.append call)) := by
  cases happ : c.log.append call with
  | ok w => exact .recorded call haux happ hirqs hfault
  | error e => exact .dropped e hlog hirqs (congrArg (·.or (some e)) hfault)

lemma DevCtx.logNetTx_cases (c : DevCtx) (len : UInt32) (digest8 : UInt64) :
    (∃ e, c.logNetTx len digest8 = { c with logFault := c.logFault.or (some e) }) ∨
    ∃ w, c.log.append ⟨c.icount, c.boundaryRip, .netTx len digest8⟩ = .ok w ∧
      c.logNetTx len digest8 = { c with log := w } := by
  rw [logNetTx]
  cases happ : c.log.netTx c.icount c.boundaryRip len digest8 with
  | error e => exact .inl ⟨e, rfl⟩
  | ok w => exact .inr ⟨w, happ, rfl⟩

namespace Device

variable (P : Primitives) (off : ℕ) (data : List UInt8) (c : DevCtx)

lemma dispatched_pad (d : PvPad) : c.Dispatched (d.mmioWrite off data c).2 := by
  rw [PvPad.mmioWrite]
  split_ifs
  · exact .quiet rfl rfl rfl
  · exact .quiet rfl rfl rfl
  · exact DevCtx.dispatched_record ⟨c.icount, c.boundaryRip, .frameMark _⟩ rfl rfl rfl rfl
  · exact .quiet rfl rfl rfl

lemma dispatched_entropy (d : PvEntropy) : c.Dispatched (d.mmioWrite P off data c).2 := by
  rw [PvEntropy.mmioWrite]
  split_ifs
  · exact .quiet rfl rfl rfl
  · exact .quiet rfl rfl rfl
  · rw [PvEntropy.doorbell]
    split_ifs
    · exact .quiet rfl rfl rfl
    · dsimp only
      split_ifs
      · exact DevCtx.dispatched_record ⟨c.icount, c.boundaryRip, .entropy _ _⟩ rfl rfl rfl rfl
      · exact .quiet rfl rfl rfl
  · exact .quiet rfl rfl rfl

lemma doorbell_cases (d : PvNet) : d.doorbell P c = ({ d with txStatus := PvNet.statusFault }, c) ∨
    ∃ digest, d.doorbell P c =
      ({ d with txStatus := PvNet.statusOk }, c.logNetTx d.txLen digest) := by
  rw [PvNet.doorbell]
  split_ifs
  · exact .inl rfl
  · cases c.ram.read d.txBufGpa.toNat d.txLen.toNat with
    | error _ => exact .inl rfl
    | ok frame => exact .inr ⟨_, rfl⟩

lemma net_mmioWrite_cases (d : PvNet) :
    (off = PvNet.regTxDoorbell ∧ data.length = 4 ∧ d.mmioWrite P off data c = d.doorbell P c) ∨
    (off = PvNet.regTxLen ∧ data.length = 4 ∧
      d.mmioWrite P off data c = ({ d with txLen := ofLe UInt32 data }, c)) ∨
    ∃ d' : PvNet, d.mmioWrite P off data c = (d', c) ∧ d'.txLen = d.txLen ∧
      d'.txStatus = d.txStatus := by
  rw [PvNet.mmioWrite]
  by_cases htx : off = PvNet.regTxBufGpa ∧ data.length = 8
  · exact .inr (.inr ⟨_, if_pos htx, rfl, rfl⟩)
  rw [if_neg htx]
  by_cases hlen : off = PvNet.regTxLen ∧ data.length = 4
  · exact .inr (.inl ⟨hlen.1, hlen.2, if_pos hlen⟩)
  rw [if_neg hlen]
  by_cases hbell : off = PvNet.regTxDoorbell ∧ data.length = 4
  · exact .inl ⟨hbell.1, hbell.2, if_pos hbell⟩
  rw [if_neg hbell]
  refine .inr (.inr ?_)
  split_ifs <;> exact ⟨_, rfl, rfl, rfl⟩

lemma dispatched_net (d : PvNet) : c.Dispatched (d.mmioWrite P off data c).2 := by
  obtain ⟨-, -, h⟩ | ⟨-, -, h⟩ | ⟨d', h, -, -⟩ := net_mmioWrite_cases P off data c d
  · obtain hbell | ⟨digest, hbell⟩ := doorbell_cases P c d
    · rw [h, hbell]
      exact .quiet rfl rfl rfl
    · rw [h, hbell]
      exact DevCtx.dispatched_record ⟨c.icount, c.boundaryRip, .netTx _ _⟩ rfl rfl rfl rfl
  · rw [h]
    exact .quiet rfl rfl rfl
  · rw [h]
    exact .quiet rfl rfl rfl

lemma dispatched_mmioWrite (d : Device χ) : c.Dispatched (d.mmioWrite P off data c).2 := by
  cases d with
  | clock | blk | serial | channel => exact .quiet rfl rfl rfl
  | pad d => exact dispatched_pad off data c d
  | entropy d => exact dispatched_entropy P off data c d
  | net d => exact dispatched_net P off data c d

end Device

def canonicalCalls (calls : List Call) : List Call := calls.filter (!·.kind.isAux)

/-- What an operation does before it comes to the log. -/
inductive DeviceHalf (P : Primitives) (r : DeviceRail χ) : RailOp → DeviceRail χ → Prop
  | write {icount gpa : UInt64} {data : List UInt8} {host : ℕ → Bool} {base : ℕ} {dev : Device χ}
      (hlapic : LocalApic.containsMmio gpa = false)
      (hlookup : r.bus.lookup gpa.toNat = .ok (base, dev)) :
      DeviceHalf P r (.serviceExit icount (.mmioWrite gpa data) host)
        (r.leave (r.bus.set base (dev.mmioWrite P (gpa.toNat - base) data (r.ctx icount 0 host)).1)
          (dev.mmioWrite P (gpa.toNat - base) data (r.ctx icount 0 host)).2)
  | padSet {icount boundaryRip : UInt64} {port : UInt8} {buttons frameHint : UInt32} {base : ℕ}
      {pad pad' : PvPad} {vector : Option UInt8}
      (hfirst : r.bus.first Device.pad? = some (base, pad))
      (happly : pad.applyPadSet port buttons = .ok (vector, pad')) :
      DeviceHalf P r (.applyPadSet icount boundaryRip port buttons frameHint)
        { r with bus := r.bus.set base (.pad pad') }
  | netRx {icount boundaryRip : UInt64} {frame : List UInt8} {base : ℕ} {net : PvNet}
      (hfirst : r.bus.first Device.net? = some (base, net)) :
      DeviceHalf P r (.applyNetRx icount boundaryRip frame)
        { r with
          bus := r.bus.set base (.net { net with rxLen := UInt32.ofNat frame.length })
          mem := r.mem.overwrite net.rxBufGpa.toNat frame }
  | timer {icount boundaryRip : UInt64} {fired : FiredTimer} {base : ℕ} {clk : PvClock}
      (hfirst : r.bus.first Device.clock? = some (base, clk)) :
      DeviceHalf P r (.logTimerFired icount boundaryRip fired)
        { r with bus := r.bus.set base (.clock clk.disarm) }
  | none {op : RailOp} (hop : op.onlyLogs = true) : DeviceHalf P r op r

/-- What an operation that failed has left: all as it was, unless the failure was that of the
log, which comes after the device half, or that of the copy of a received frame, whose first part
had been made. -/
inductive Spared (P : Primitives) (r : DeviceRail χ) : RailOp → RailError → DeviceRail χ → Prop
  | same {op : RailOp} {e : RailError} (hlog : ¬e.IsLog)
      (hcopy : ∀ icount boundaryRip frame, op = .applyNetRx icount boundaryRip frame →
        e ≠ .record (.net .memFault)) : Spared P r op e r
  | half {op : RailOp} {e : RailError} {r' : DeviceRail χ} (hlog : e.IsLog)
      (h : DeviceHalf P r op r') : Spared P r op e r'
  | copied {icount boundaryRip : UInt64} {frame : List UInt8} {base : ℕ} {net : PvNet}
      (hfirst : r.bus.first Device.net? = some (base, net)) :
      Spared P r (.applyNetRx icount boundaryRip frame) (.record (.net .memFault))
        { r with
          mem := r.mem.overwrite net.rxBufGpa.toNat
            (frame.take (r.mem.moved net.rxBufGpa.toNat frame.length)) }

/-- An operation fails without a record or a vector, or it succeeds and its input is
the one canonical record that it appends. -/
inductive Books (P : Primitives) (op : RailOp) (r : DeviceRail χ) :
    Except RailError RailAnswer × DeviceRail χ → Prop
  | refused {e : RailError} {r' : DeviceRail χ} (hlog : r'.log = r.log) (hirqs : r'.irqs = r.irqs)
      (hspared : Spared P r op e r') : Books P op r (.error e, r')
  | made {a : RailAnswer} {r' : DeviceRail χ} (calls : List Call)
      (hlog : r.log.appendAll calls = .ok r'.log)
      (hinput : canonicalCalls calls = op.input.toList)
      (hirqs : r.irqs ++ a.queued = a.taken ++ r'.irqs) : Books P op r (.ok a, r')

namespace DeviceRail

variable {P : Primitives} {r r' : DeviceRail χ} {op : RailOp}

lemma books_same {e : RailError} (hlog : ¬e.IsLog)
    (hcopy : ∀ icount boundaryRip frame, op = .applyNetRx icount boundaryRip frame →
      e ≠ .record (.net .memFault)) : Books P op r (.error e, r) :=
  .refused rfl rfl (.same hlog hcopy)

lemma books_quiet {a : RailAnswer} (hop : op.input = none) (hlog : r'.log = r.log)
    (hirqs : r.irqs ++ a.queued = a.taken ++ r'.irqs) : Books P op r (.ok a, r') := by
  apply Books.made [] _ _ hirqs
  · exact congrArg Except.ok hlog.symm
  · rw [hop]
    rfl

lemma books_land {r0 : DeviceRail χ} {call : Call} {vector : Option UInt8}
    (hhalf : DeviceHalf P r op r0) (hlog : r0.log = r.log) (hirqs : r0.irqs = r.irqs)
    (hcall : canonicalCalls [call] = op.input.toList) :
    Books P op r (answer .landed (r0.land call vector)) := by
  obtain ⟨e, -, h⟩ | ⟨log, happ, h⟩ := r0.land_cases call vector
  · rw [h]
    exact .refused hlog hirqs (.half trivial hhalf)
  · rw [h]
    refine .made [call] ?_ hcall (congrArg (· ++ vector.toList) hirqs.symm)
    rw [LogWriter.appendAll, foldlM_cons, ← hlog, happ]
    rfl

lemma not_isLog_of_drainNetTx {e : RecordError} (h : r.drainNetTx = .error e) :
    ¬(RailError.record e).IsLog := by
  rw [drainNetTx] at h
  cases hfirst : r.bus.first Device.net? with
  | none =>
    rw [hfirst] at h
    cases h
    exact id
  | some found =>
    simp only [hfirst] at h
    split_ifs at h
    · cases h
      exact id
    · split at h <;> cases h
      exact id

lemma books_serviceExit (icount : UInt64) (exit : Exit) (host : ℕ → Bool) :
    Books P (.serviceExit icount exit host) r (r.perform P (.serviceExit icount exit host)) := by
  rw [perform]
  obtain ⟨e, hlog, h⟩ | ⟨reply, lapic, serial, h, -⟩ |
    ⟨gpa, data, base, dev, rfl, hlapic, hlookup, h⟩ := r.serviceExit_cases P icount exit host
  · rw [h]
    exact books_same hlog nofun
  · rw [h]
    exact books_quiet rfl rfl (append_nil _)
  · rw [h]
    -- the three ends of a dispatch
    obtain ⟨hlog, hirqs, hfault⟩ | ⟨call, haux, hlog, hirqs, hfault⟩ | ⟨e, hlog, hirqs, hfault⟩ :=
      Device.dispatched_mmioWrite P (gpa.toNat - base) data (r.ctx icount 0 host) dev
    · rw [checkLogFault, hfault]
      exact books_quiet rfl hlog ((append_nil _).trans hirqs.symm)
    · rw [checkLogFault, hfault]
      refine .made [call] ?_ ?_ ((append_nil _).trans hirqs.symm)
      · rw [LogWriter.appendAll, foldlM_cons, show r.log.append call = _ from hlog]
        rfl
      · simp [canonicalCalls, haux, RailOp.input]
    · rw [checkLogFault, hfault]
      exact .refused hlog hirqs (.half trivial (.write hlapic hlookup))

lemma books_perform (op : RailOp) : Books P op r (r.perform P op) := by
  cases op with
  | serviceExit icount exit host => exact books_serviceExit icount exit host
  | applyPadSet icount boundaryRip port buttons frameHint =>
    rw [perform]
    obtain ⟨e, hlog, h⟩ | ⟨base, pad, pad', vector, hfirst, happly, h⟩ :=
      r.applyPadSet_cases icount boundaryRip port buttons frameHint
    · rw [h]
      exact books_same hlog nofun
    · rw [h]
      exact books_land (.padSet hfirst happly) rfl rfl rfl
  | applyNetRx icount boundaryRip frame =>
    rw [perform]
    obtain ⟨e, h, hlog, hne⟩ | ⟨base, net, hfirst, h⟩ | ⟨base, net, hfirst, h⟩ :=
      r.applyNetRx_cases icount boundaryRip frame
    · rw [h]
      exact books_same hlog fun _ _ _ _ he => hne (RailError.record.inj he)
    · rw [h]
      exact .refused rfl rfl (.copied hfirst)
    · rw [h]
      exact books_land (.netRx hfirst) rfl rfl rfl
  | applyDevEvent | logEpochHash => exact books_land (.none rfl) rfl rfl rfl
  | drainNetTx =>
    rw [perform]
    cases hdrain : r.drainNetTx with
    | error e => exact books_same (not_isLog_of_drainNetTx hdrain) nofun
    | ok frame => exact books_quiet rfl rfl (append_nil _)
  | logTimerFired icount boundaryRip fired =>
    rw [perform, logTimerFired]
    cases hfirst : r.bus.first Device.clock? with
    | none => exact books_same id nofun
    | some found => exact books_land (.timer hfirst) rfl rfl rfl
  | setClockVnsBase vns =>
    rw [perform, setClockVnsBase]
    cases r.bus.first Device.clock? with
    | none => exact books_same id nofun
    | some found => exact books_quiet rfl rfl (append_nil _)
  | logBisectionCheckpoint icount boundaryRip maxCoveredGap ref checkpointVns =>
    exact books_land (.none rfl) rfl rfl rfl
  | takeIrqs => exact books_quiet rfl rfl rfl
  | guestRuns mem => exact books_quiet rfl rfl (append_nil _)

end DeviceRail

def MmioBus.netReg (b : MmioBus χ) (g : PvNet → UInt32) : Option (ℕ × UInt32) :=
  b.first fun dev => dev.net?.map g

/-- The operation is a serviced write of four bytes to a register of the window. -/
def RailOp.Writes (base off : ℕ) (op : RailOp) : Prop :=
  ∃ icount gpa data host, op = .serviceExit icount (.mmioWrite gpa data) host ∧
    LocalApic.containsMmio gpa = false ∧ gpa.toNat = base + off ∧ data.length = 4

lemma Device.net?_mmioWrite (P : Primitives) (off : ℕ) (data : List UInt8) (c : DevCtx)
    (dev : Device χ) : (dev.mmioWrite P off data c).1.net? =
      dev.net?.map fun d => (d.mmioWrite P off data c).1 := by
  cases dev <;> rfl

lemma MmioBus.netReg_set {δ : Type} {b : MmioBus χ} {sel : Device χ → Option δ} {base : ℕ}
    {d : δ} {g : PvNet → UInt32} {dev' : Device χ} (hfirst : b.first sel = some (base, d))
    (hdev : ∀ dev, sel dev = some d → dev'.net?.map g = dev.net?.map g) :
    (b.set base dev').netReg g = b.netReg g := by
  obtain ⟨dev, hmem, hsel⟩ := mem_of_first hfirst
  exact first_set hmem (hdev dev hsel)

lemma Device.net?_eq_none_of_pad {dev : Device χ} {d : PvPad} (h : dev.pad? = some d) :
    dev.net? = none := by
  cases dev <;> first | rfl | cases h

lemma Device.net?_eq_none_of_clock {dev : Device χ} {d : PvClock} (h : dev.clock? = some d) :
    dev.net? = none := by
  cases dev <;> first | rfl | cases h

namespace DeviceRail

variable {P : Primitives} {r r' : DeviceRail χ} {op : RailOp}
  {base : ℕ} {d : PvNet} {labels : List (RailOp × Except RailError RailAnswer)}
  {x : UInt32}

lemma bus_land (r : DeviceRail χ) (call : Call) (vector : Option UInt8) :
    (r.land call vector).2.bus = r.bus := by
  obtain ⟨e, -, h⟩ | ⟨log, -, h⟩ := r.land_cases call vector <;> rw [h]

section NetReg

variable {g : PvNet → UInt32} {reg : ℕ}

lemma netReg_perform (hrx : ∀ (d : PvNet) n, g { d with rxLen := n } = g d)
    (hwrite : ∀ off data c (d : PvNet), ¬(off = reg ∧ data.length = 4) →
      g (d.mmioWrite P off data c).1 = g d) (hop : ¬op.Writes base reg)
    (h : r.bus.netReg g = some (base, x)) : (r.perform P op).2.bus.netReg g = some (base, x) := by
  cases op with
  | serviceExit icount exit host =>
    rw [perform]
    obtain ⟨e, -, hexit⟩ | ⟨reply, lapic, serial, hexit, -⟩ |
      ⟨gpa, data, base', dev, rfl, hgpa, hlookup, hexit⟩ := r.serviceExit_cases P icount exit host
    · rw [hexit]
      exact h
    · rw [hexit]
      exact h
    · rw [hexit]
      obtain ⟨hmem, hle, -⟩ := MmioBus.mem_of_lookup hlookup
      by_cases hbase : base' = base
      · subst hbase
        have hoff : ¬(gpa.toNat - base' = reg ∧ data.length = 4) := by
          rintro ⟨rfl, hlen⟩
          exact hop ⟨icount, gpa, data, host, rfl, hgpa, (Nat.add_sub_cancel' hle).symm, hlen⟩
        refine (MmioBus.first_set hmem ?_).trans h
        rw [Device.net?_mmioWrite, Option.map_map]
        exact congrArg (dev.net?.map ·) (funext fun d => hwrite _ _ _ d hoff)
      · refine MmioBus.first_set_of_ne h hmem hbase fun hnone => ?_
        rw [Device.net?_mmioWrite, Option.map_eq_none_iff.mp hnone]
        rfl
  | applyPadSet icount boundaryRip port buttons frameHint =>
    rw [perform]
    obtain ⟨e, -, happly⟩ | ⟨base', pad, pad', vector, hfirst, -, happly⟩ :=
      r.applyPadSet_cases icount boundaryRip port buttons frameHint
    · rw [happly]
      exact h
    · rw [happly, answer, bus_land]
      refine (MmioBus.netReg_set hfirst fun dev hdev => ?_).trans h
      rw [Device.net?_eq_none_of_pad hdev]
      rfl
  | applyNetRx icount boundaryRip frame =>
    rw [perform]
    obtain ⟨e, happly, -⟩ | ⟨_, _, -, happly⟩ | ⟨base', net, hfirst, happly⟩ :=
      r.applyNetRx_cases icount boundaryRip frame
    · rw [happly]
      exact h
    · rw [happly]
      exact h
    · rw [happly, answer, bus_land]
      refine (MmioBus.netReg_set hfirst fun dev hdev => ?_).trans h
      rw [hdev]
      exact congrArg some (hrx net _)
  | applyDevEvent icount boundaryRip deviceId eventType payload =>
    rw [perform, answer, applyDevEvent, bus_land]
    exact h
  | drainNetTx | takeIrqs | guestRuns => exact h
  | logTimerFired icount boundaryRip fired =>
    rw [perform, logTimerFired]
    cases hfirst : r.bus.first Device.clock? with
    | none => exact h
    | some found =>
      rw [answer, bus_land]
      refine (MmioBus.netReg_set hfirst fun dev hdev => ?_).trans h
      rw [Device.net?_eq_none_of_clock hdev]
      rfl
  | setClockVnsBase vns =>
    rw [perform, setClockVnsBase]
    cases hfirst : r.bus.first Device.clock? with
    | none => exact h
    | some found =>
      refine (MmioBus.netReg_set hfirst fun dev hdev => ?_).trans h
      rw [Device.net?_eq_none_of_clock hdev]
      rfl
  | logEpochHash epochIndex icount chainValue =>
    rw [perform, answer, logEpochHash, bus_land]
    exact h
  | logBisectionCheckpoint icount boundaryRip maxCoveredGap ref checkpointVns =>
    rw [perform, answer, logBisectionCheckpoint, bus_land]
    exact h

end NetReg

lemma txLen_mmioWrite (P : Primitives) (off : ℕ) (data : List UInt8) (c : DevCtx) (d : PvNet)
    (h : ¬(off = PvNet.regTxLen ∧ data.length = 4)) :
    (d.mmioWrite P off data c).1.txLen = d.txLen := by
  obtain ⟨-, -, hw⟩ | ⟨hoff, hlen, -⟩ | ⟨d', hw, htx, -⟩ :=
    Device.net_mmioWrite_cases P off data c d
  · obtain hbell | ⟨digest, hbell⟩ := Device.doorbell_cases P c d <;> rw [hw, hbell]
  · exact absurd ⟨hoff, hlen⟩ h
  · rw [hw, htx]

lemma txStatus_mmioWrite (P : Primitives) (off : ℕ) (data : List UInt8) (c : DevCtx) (d : PvNet)
    (h : ¬(off = PvNet.regTxDoorbell ∧ data.length = 4)) :
    (d.mmioWrite P off data c).1.txStatus = d.txStatus := by
  obtain ⟨hoff, hlen, -⟩ | ⟨-, -, hw⟩ | ⟨d', hw, -, htx⟩ :=
    Device.net_mmioWrite_cases P off data c d
  · exact absurd ⟨hoff, hlen⟩ h
  · rw [hw]
  · rw [hw, htx]

lemma txLen_run (h : Traced (Step P) labels r r')
    (hops : ∀ l ∈ labels, ¬l.1.Writes base PvNet.regTxLen)
    (hr : r.bus.netReg PvNet.txLen = some (base, x)) :
    r'.bus.netReg PvNet.txLen = some (base, x) := by
  refine h.invariant (I := fun r => r.bus.netReg PvNet.txLen = some (base, x)) ?_ hr
  intro l hl r r' hstep hr
  have hkept := netReg_perform (fun _ _ => rfl) (txLen_mmioWrite P) (hops l hl) hr
  rwa [show r.perform P l.1 = _ from hstep] at hkept

lemma txStatus_run (h : Traced (Step P) labels r r')
    (hops : ∀ l ∈ labels, ¬l.1.Writes base PvNet.regTxDoorbell)
    (hr : r.bus.netReg PvNet.txStatus = some (base, x)) :
    r'.bus.netReg PvNet.txStatus = some (base, x) := by
  refine h.invariant (I := fun r => r.bus.netReg PvNet.txStatus = some (base, x)) ?_ hr
  intro l hl r r' hstep hr
  have hkept := netReg_perform (fun _ _ => rfl) (txStatus_mmioWrite P) (hops l hl) hr
  rwa [show r.perform P l.1 = _ from hstep] at hkept

lemma netReg_of_first {g : PvNet → UInt32} (h : r.bus.first Device.net? = some (base, d)) :
    r.bus.netReg g = some (base, g d) := by
  rw [MmioBus.netReg, MmioBus.first_map, h]
  rfl

lemma netReg_of_drainNetTx {frame : List UInt8} (h : r.drainNetTx = .ok (some frame)) :
    ∃ base len, r.bus.netReg PvNet.txStatus = some (base, PvNet.statusOk) ∧
      r.bus.netReg PvNet.txLen = some (base, len) ∧ len.toNat = frame.length := by
  rw [drainNetTx] at h
  cases hfirst : r.bus.first Device.net? with
  | none => simp [hfirst] at h
  | some found =>
    obtain ⟨base, d⟩ := found
    simp only [hfirst] at h
    by_cases hstatus : d.txRegs.2.2 ≠ PvNet.statusOk ∨ d.txRegs.2.1 = 0
    · rw [if_pos hstatus] at h
      cases h
    rw [if_neg hstatus] at h
    obtain ⟨hok, -⟩ := not_or.mp hstatus
    by_cases hbig : PvNet.maxFrame < d.txRegs.2.1.toNat
    · rw [if_pos hbig] at h
      cases h
    rw [if_neg hbig] at h
    obtain hfits | hfits := le_or_gt (d.txRegs.1.toNat + d.txRegs.2.1.toNat) r.mem.size
    · rw [GuestRam.read_of_le hfits] at h
      cases h
      refine ⟨base, d.txLen, ?_, netReg_of_first hfirst, (Extent.length_read _ _ _).symm⟩
      rw [netReg_of_first hfirst, show d.txStatus = _ from not_not.mp hok]
    · rw [GuestRam.read_of_gt hfits] at h
      cases h

lemma ring_cases {icount gpa : UInt64} {data : List UInt8} {host : ℕ → Bool} {a : RailAnswer}
    (hnet : r.bus.first Device.net? = some (base, d)) (hlapic : LocalApic.containsMmio gpa = false)
    (hgpa : gpa.toNat = base + PvNet.regTxDoorbell) (hdata : data.length = 4)
    (h : r.perform P (.serviceExit icount (.mmioWrite gpa data) host) = (.ok a, r')) :
    r'.bus.netReg PvNet.txLen = some (base, d.txLen) ∧
      (r'.bus.netReg PvNet.txStatus = some (base, PvNet.statusFault) ∨
      ∃ digest, r.log.append ⟨icount, 0, .netTx d.txLen digest⟩ = .ok r'.log) := by
  rw [perform] at h
  obtain ⟨e, -, hexit⟩ | ⟨reply, lapic, serial, hexit, hmmio⟩ |
    ⟨gpa', data', base', dev, heq, -, hlookup, hexit⟩ :=
    r.serviceExit_cases P icount (.mmioWrite gpa data) host
  · rw [hexit] at h
    cases h
  · exact absurd (hmmio gpa data rfl) (by simp [hlapic])
  cases heq
  obtain ⟨dev', hmem, hdev'⟩ := MmioBus.mem_of_first hnet
  obtain rfl : dev' = .net d := by cases dev' <;> cases hdev'; rfl
  rw [hgpa, MmioBus.lookup_of_mem hmem (by decide)] at hlookup
  cases hlookup
  have hoff : gpa.toNat - base = PvNet.regTxDoorbell := by omega
  have hwrite : d.mmioWrite P PvNet.regTxDoorbell data (r.ctx icount 0 host) =
      d.doorbell P (r.ctx icount 0 host) := by
    rw [PvNet.mmioWrite, if_neg (by simp [PvNet.regTxDoorbell, PvNet.regTxBufGpa]),
      if_neg (by simp [PvNet.regTxDoorbell, PvNet.regTxLen]), if_pos ⟨rfl, hdata⟩]
  rw [hexit, hoff, Device.mmioWrite, hwrite] at h
  obtain hbell | ⟨digest, hbell⟩ := Device.doorbell_cases P (r.ctx icount 0 host) d
  · rw [hbell] at h
    cases h
    exact ⟨MmioBus.first_set_self (netReg_of_first hnet) rfl,
      .inl (MmioBus.first_set_self (netReg_of_first hnet) rfl)⟩
  · rw [hbell] at h
    obtain ⟨e, hlog⟩ | ⟨w, happ, hlog⟩ := (r.ctx icount 0 host).logNetTx_cases d.txLen digest
    · rw [hlog] at h
      cases h
    · rw [hlog] at h
      cases h
      exact ⟨MmioBus.first_set_self (netReg_of_first hnet) rfl, .inr ⟨digest, happ⟩⟩

end DeviceRail

variable (labels : List (RailOp × Except RailError RailAnswer))

def appliedInputs : List Call :=
  labels.flatMap fun l => match l.2 with
    | .ok _ => l.1.input.toList
    | .error _ => []

def queuedVectors : List UInt8 :=
  labels.flatMap fun l => match l.2 with
    | .ok a => a.queued
    | .error _ => []

def takenVectors : List UInt8 :=
  labels.flatMap fun l => match l.2 with
    | .ok a => a.taken
    | .error _ => []

namespace DeviceRail

variable {P : Primitives} {r0 r : DeviceRail χ}
  {labels : List (RailOp × Except RailError RailAnswer)}

lemma appendAll_append {w w1 w2 : Dhilog.LogWriter} {calls calls' : List Call}
    (h : w.appendAll calls = .ok w1) (h' : w1.appendAll calls' = .ok w2) :
    w.appendAll (calls ++ calls') = .ok w2 := by
  rw [LogWriter.appendAll] at h
  rw [LogWriter.appendAll, foldlM_append, h]
  exact h'

lemma books_run (h : Traced (Step P) labels r0 r) :
    (∃ calls, r0.log.appendAll calls = .ok r.log ∧ canonicalCalls calls = appliedInputs labels) ∧
      r0.irqs ++ queuedVectors labels = takenVectors labels ++ r.irqs := by
  refine h.induct (I := fun labels r =>
    (∃ calls, r0.log.appendAll calls = .ok r.log ∧ canonicalCalls calls = appliedInputs labels) ∧
      r0.irqs ++ queuedVectors labels = takenVectors labels ++ r.irqs) ?_ ?_
  · exact ⟨⟨[], rfl, rfl⟩, append_nil _⟩
  intro labels l r r' _ ⟨⟨calls, hlog, hinputs⟩, hirqs⟩ hstep
  obtain ⟨op, res⟩ := l
  have hbooks : Books P op r (res, r') := by
    have := books_perform (P := P) (r := r) op
    rwa [show r.perform P op = _ from hstep] at this
  simp only [appliedInputs, queuedVectors, takenVectors, flatMap_append] at hinputs hirqs ⊢
  cases hbooks with
  | refused hlog' hirqs' _ =>
    rw [hlog', hirqs']
    simp only [flatMap_singleton, append_nil]
    exact ⟨⟨calls, hlog, hinputs⟩, hirqs⟩
  | @made a _ calls' hlog' hinput hirqs' =>
    simp only [flatMap_singleton]
    refine ⟨⟨calls ++ calls', appendAll_append hlog hlog', ?_⟩, ?_⟩
    · rw [canonicalCalls, filter_append]
      exact congrArg₂ (· ++ ·) hinputs hinput
    · rw [← append_assoc, hirqs, append_assoc, hirqs', append_assoc]

lemma irqs_of_seal {outcome : RailOutcome} {endSnapshotId : Hash} {image : List UInt8}
    (h : r.seal P outcome endSnapshotId = .ok image) : r.irqs = [] := by
  rw [«seal»] at h
  by_contra hne
  rw [if_pos hne] at h
  cases h

/-- The canonical records of a run are the inputs of its operations that succeeded. An operation
that fails leaves all as it was, but for its device half if it is the log that failed, and for the
part that was copied of a received frame. A frame is drained only if the last doorbell logged one
of its length, or the guest has programmed another since. A rail is sealed only when every vector
has been taken. -/
theorem rail_logs_what_it_applies (P : Primitives) (h : Traced (Step P) labels r0 r) :
    (∃ calls, r0.log.appendAll calls = .ok r.log ∧ canonicalCalls calls = appliedInputs labels) ∧
    (∀ op e r', r.perform P op = (.error e, r') →
      r'.log = r.log ∧ r'.irqs = r.irqs ∧ Spared P r op e r') ∧
    (∀ base d, r0.bus.first Device.net? = some (base, d) → d.txStatus ≠ PvNet.statusOk →
      (∀ l ∈ labels, ¬l.1.Writes base PvNet.regTxDoorbell) →
      ∀ frame, r.drainNetTx ≠ .ok (some frame)) ∧ (∀ r1 r2 post base d icount gpa data host a frame,
      r1.bus.first Device.net? = some (base, d) → LocalApic.containsMmio gpa = false →
      gpa.toNat = base + PvNet.regTxDoorbell → data.length = 4 →
      Step P (.serviceExit icount (.mmioWrite gpa data) host, .ok a) r1 r2 →
      Traced (Step P) post r2 r →
      (∀ l ∈ post, ¬l.1.Writes base PvNet.regTxDoorbell ∧ ¬l.1.Writes base PvNet.regTxLen) →
      r.drainNetTx = .ok (some frame) → ∃ len digest, len.toNat = frame.length ∧
        r1.log.append ⟨icount, 0, .netTx len digest⟩ = .ok r2.log) ∧
    ∀ outcome endSnapshotId image, r.seal P outcome endSnapshotId = .ok image →
      r.irqs = [] ∧ r0.irqs ++ queuedVectors labels = takenVectors labels := by
  obtain ⟨hcalls, hirqs⟩ := books_run h
  refine ⟨hcalls, ?_, ?_, ?_, ?_⟩
  · intro op e r' hop
    have hbooks := books_perform (P := P) (r := r) op
    rw [hop] at hbooks
    cases hbooks with
    | refused hlog hirqs hspared => exact ⟨hlog, hirqs, hspared⟩
  · intro base d hnet hstatus hops frame hdrain
    obtain ⟨base', len, hok, -, -⟩ := netReg_of_drainNetTx hdrain
    have hkept := txStatus_run h hops (netReg_of_first hnet)
    rw [hok] at hkept
    exact hstatus (congrArg Prod.snd (Option.some.inj hkept)).symm
  · intro r1 r2 post base d icount gpa data host a frame hnet hlapic hgpa hdata hring hpost hops
      hdrain
    obtain ⟨hlen, hends⟩ := ring_cases hnet hlapic hgpa hdata hring
    obtain ⟨base', len, hok, hlen', hframe⟩ := netReg_of_drainNetTx hdrain
    have hkept := txLen_run hpost (fun l hl => (hops l hl).2) hlen
    rw [hlen'] at hkept
    cases hkept
    obtain hfault | ⟨digest, happ⟩ := hends
    · -- a faulted doorbell leaves a status that no drain passes
      have hkept := txStatus_run hpost (fun l hl => (hops l hl).1) hfault
      rw [hok] at hkept
      cases hkept
    · exact ⟨_, digest, hframe, happ⟩
  · intro outcome endSnapshotId image hseal
    have hnil := irqs_of_seal hseal
    rw [hnil, append_nil] at hirqs
    exact ⟨hnil, hirqs⟩

def smallRail : DeviceRail Unit :=
  .new ⟨[(0x1000, .pad .new), (0x2000, .net .new)], by simp, by simp [windowLen]⟩
    ⟨.replicate 32 0, 0, 0, Nat.two_pow_pos 68⟩
    (.new ⟨.replicate 32 0, .replicate 32 0, .replicate 32 0, 1, 1, 0⟩)
    (.ofMapping 16 (fun _ => 0) (by norm_num))

def smallPrimitives : Primitives := ⟨fun _ => .replicate 32 0, fun _ _ _ => .replicate 4 0⟩

def smallWrite (icount gpa : UInt64) (data : List UInt8) : RailOp :=
  .serviceExit icount (.mmioWrite gpa data) fun _ => true

def smallRun (ops : List RailOp) : DeviceRail Unit :=
  ops.foldl (fun r op => (r.perform smallPrimitives op).2) smallRail

/-- Of an event and a refused pad input, the event is the one canonical record. -/
theorem rail_logs_dev_event : ∃ r, Traced (Step smallPrimitives)
        [(.applyDevEvent 5 0 1 1 [], .ok (.landed none)),
          (.applyPadSet 3 0 0 7 0, .error (.record (.log .icountRegressed)))] smallRail r ∧
      ∃ calls, smallRail.log.appendAll calls = .ok r.log ∧
        canonicalCalls calls = [⟨5, 0, .devEvent 1 1 []⟩] := by
  have h : Traced (Step smallPrimitives)
      [(.applyDevEvent 5 0 1 1 [], .ok (.landed none)),
        (.applyPadSet 3 0 0 7 0, .error (.record (.log .icountRegressed)))] smallRail
      (smallRun [.applyDevEvent 5 0 1 1 [], .applyPadSet 3 0 0 7 0]) := by
    have hevent : Step smallPrimitives (.applyDevEvent 5 0 1 1 [], .ok (.landed none)) smallRail
        (smallRun [.applyDevEvent 5 0 1 1 []]) := rfl
    exact .cons hevent (.single rfl)
  exact ⟨_, h, (rail_logs_what_it_applies smallPrimitives h).1⟩

/-- A pad input is refused by the log when the pad has latched it; a received frame that does
not fit is copied as far as memory goes; a length programmed after a doorbell is that of the
frame drained. -/
theorem rail_keeps_refused_input :
    (((smallRun [.applyDevEvent 5 0 1 1 []]).applyPadSet 3 0 0 7 0).1 =
        .error (.log .icountRegressed) ∧
      ((smallRun [.applyDevEvent 5 0 1 1 []]).bus.first Device.pad?).map (·.2.latch 0) = some 0 ∧
      (((smallRun [.applyDevEvent 5 0 1 1 []]).applyPadSet 3 0 0 7 0).2.bus.first Device.pad?).map
        (·.2.latch 0) = some 7) ∧
    ((smallRun [smallWrite 1 0x2020 (toLe (14 : UInt64)), smallWrite 1 0x2028 (toLe (4 : UInt32)),
        .applyNetRx 2 0 [1, 2, 3, 4]]).mem.bytes 14 = 1 ∧
      ((smallRun [smallWrite 1 0x2020 (toLe (14 : UInt64)),
        smallWrite 1 0x2028 (toLe (4 : UInt32))]).applyNetRx 2 0 [1, 2, 3, 4]).1 =
          .error (.net .memFault)) ∧ smallRail.log.append ⟨2, 0, .netTx 4 0⟩ = .ok (smallRun
        [smallWrite 1 0x2010 (toLe (4 : UInt32)), smallWrite 2 0x2014 (toLe (0 : UInt32))]).log ∧
      (smallRun [smallWrite 1 0x2010 (toLe (4 : UInt32)), smallWrite 2 0x2014 (toLe (0 : UInt32)),
        smallWrite 3 0x2010 (toLe (8 : UInt32))]).drainNetTx = .ok (some (zeros 8)) :=
  ⟨⟨rfl, rfl, rfl⟩, ⟨rfl, rfl⟩, rfl, rfl⟩

end DeviceRail

end DetHypervisor.Devices
