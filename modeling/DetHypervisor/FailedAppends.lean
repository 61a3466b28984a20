import DetHypervisor.DhilogRoundTrip

/-!
# Appends that fail

The methods of the writer take it by `&mut self`, so what a method has written
before it returns an error stays. Here they are read statement by statement.
-/

namespace DetHypervisor.Dhilog

open Bytes

abbrev Writing := ExceptT WriteError (StateM LogWriter)

namespace Writing

def push (bytes : List UInt8) : Writing Unit := modify fun w => { w with buf := w.buf ++ bytes }

def record (kind : Kind) (rflags : UInt8) (icount boundaryRip : UInt64) (payload : List UInt8) :
    Writing Unit := do
  if maxPayload < payload.length then throw .payloadTooLong
  if 0 < (← get).recordCount ∧ icount < (← get).lastIcount then throw .icountRegressed
  if 2 ^ 32 ≤ (← get).recordCount then throw .seqOverflow
  let seq := UInt32.ofNat (← get).recordCount
  push [kind.code]
  push [rflags]
  push (toLe (UInt16.ofNat payload.length))
  push (toLe seq)
  push (toLe icount)
  push (toLe boundaryRip)
  push payload
  push (zeros (padLen payload.length))
  modify fun w => { w with recordCount := w.recordCount + 1 }
  modify fun w => { w with lastIcount := icount }
  if rflags &&& rflagAux != 0 then modify fun w => { w with hasAux := true }

def append (c : Call) : Writing Unit :=
  let framing := record c.kind (if c.kind.isAux then rflagAux else 0) c.icount c.boundaryRip
    c.body.payload
  match c.body with
  | .devEvent _ _ data => do
    if maxDevEventData < data.length then throw .payloadTooLong
    framing
  | .netRx frame => do
    if frame.isEmpty then throw .emptyNetRx
    if maxNetRxFrame < frame.length then throw .payloadTooLong
    framing
  | .epochHash .. => do
    framing
    modify fun w => { w with wroteEpochHash := true }
  | _ => framing

/-- The calls one after the other, whether they fail or not, with what each returned. -/
def attempts : List Call → StateM LogWriter (List (Except WriteError Unit))
  | [] => pure []
  | c :: rest => do
    let result ← (append c).run
    return result :: (← attempts rest)

def outcome (w : LogWriter) : Except WriteError LogWriter → Except WriteError Unit × LogWriter
  | .ok w' => (.ok (), w')
  | .error e => (.error e, w)

lemma run_get_bind {α : Type} (k : LogWriter → Writing α) (w : LogWriter) :
    (get >>= k : Writing α).run w = (k w).run w := rfl

lemma run_modify_bind {α : Type} (f : LogWriter → LogWriter) (k : Unit → Writing α)
    (w : LogWriter) : (modify f >>= k : Writing α).run w = (k ()).run (f w) := rfl

lemma run_bind_modify {w : LogWriter} {x : Writing Unit} {f : LogWriter → LogWriter}
    {r : Except WriteError LogWriter} (h : x.run w = outcome w r) :
    (do x; modify f : Writing Unit).run w = outcome w (r.map f) := by
  have hrun : (do x; modify f : Writing Unit).run w =
      (ExceptT.bindCont (fun _ => modify f : Unit → Writing Unit) (x.run w).1).run
        (x.run w).2 := rfl
  rw [hrun, h]
  cases r <;> rfl

lemma record_eq (kind : Kind) (rflags : UInt8) (icount boundaryRip : UInt64)
    (payload : List UInt8) (w : LogWriter) : (record kind rflags icount boundaryRip payload).run w =
      outcome w (w.record kind rflags icount boundaryRip payload) := by
  unfold record LogWriter.record
  by_cases hlen : maxPayload < payload.length
  · rw [if_pos hlen, if_pos hlen]
    rfl
  rw [if_neg hlen, if_neg hlen, run_get_bind, run_get_bind]
  by_cases hicount : 0 < w.recordCount ∧ icount < w.lastIcount
  · rw [if_pos hicount, if_pos hicount]
    rfl
  rw [if_neg hicount, if_neg hicount, run_get_bind]
  by_cases hseq : 2 ^ 32 ≤ w.recordCount
  · rw [if_pos hseq, if_pos hseq]
    rfl
  rw [if_neg hseq, if_neg hseq, run_get_bind]
  simp only [push, run_modify_bind]
  by_cases haux : (rflags &&& rflagAux != 0) = true
  · rw [if_pos haux]
    simp [outcome, Record.isAux, Record.bytes, Record.preamble, haux]
    rfl
  · rw [if_neg haux]
    simp [outcome, Record.isAux, Record.bytes, Record.preamble, haux]
    rfl

lemma append_eq (c : Call) (w : LogWriter) : (append c).run w = outcome w (w.append c) := by
  have hframe := record_eq c.kind (if c.kind.isAux then rflagAux else 0) c.icount c.boundaryRip
    c.body.payload w
  obtain ⟨icount, boundaryRip, emission⟩ := c
  have hevent (deviceId eventType : UInt16) (data : List UInt8) :
      (do if maxDevEventData < data.length then throw .payloadTooLong
          record .devEvent 0 icount boundaryRip
            (RecordBody.devEvent deviceId eventType data).payload : Writing Unit).run w =
        outcome w (w.devEvent icount boundaryRip deviceId eventType data) := by
    unfold LogWriter.devEvent
    split_ifs
    · rfl
    · exact record_eq ..
  cases emission with
  | devEvent deviceId eventType data => exact hevent deviceId eventType data
  | pioAnswer port value => exact hevent _ _ (toLe port ++ zeros 2 ++ toLe value)
  | netRx frame =>
    change (if frame.isEmpty then throw .emptyNetRx
      else if maxNetRxFrame < frame.length then throw .payloadTooLong
      else record .netRx 0 icount boundaryRip frame : Writing Unit).run w =
        outcome w (w.netRx icount boundaryRip frame)
    unfold LogWriter.netRx
    split_ifs
    · rfl
    · rfl
    · exact hframe
  | epochHash epochIndex chainValue =>
    exact run_bind_modify hframe
  | _ => exact hframe

lemma append_of_error {c : Call} {w : LogWriter} {e : WriteError}
    (h : ((append c).run w).1 = .error e) : ((append c).run w).2 = w := by
  rw [append_eq] at h ⊢
  cases hw : w.append c with
  | ok w' =>
    rw [hw] at h
    cases h
  | error e' => rfl

/-- A call that fails on a writer that any calls have led to, and what comes after
it: the later calls return what they would return without it, and so does the
seal. -/
theorem failed_append_invisible (header : SegmentHeader) (before : List Call) (c : Call)
    (later : List Call) (e : WriteError) :
    let w := (attempts before (.new header)).2
    ((append c).run w).1 = .error e →
      (attempts (c :: later) w).1 = .error e :: (attempts later w).1 ∧
        ∀ blake3 params, (attempts (c :: later) w).2.seal blake3 params =
          (attempts later w).2.seal blake3 params := by
  intro w h
  have hrun : (append c).run w = (.error e, w) := Prod.ext h (append_of_error h)
  have hall : attempts (c :: later) w =
      (((append c).run w).1 :: (attempts later ((append c).run w).2).1,
        (attempts later ((append c).run w).2).2) := rfl
  rw [hall, hrun]
  exact ⟨rfl, fun _ _ => rfl⟩

/-- An EPOCH_HASH that goes back to the count 3 sets no flag. -/
theorem failed_append_invisible_epochHash :
    let w := (attempts [⟨5, 0x1000, .padSet 0 3 0⟩]
      (.new ⟨.replicate 32 1, .replicate 32 0, .replicate 32 2, 3, 2, 0⟩)).2
    let c : Call := ⟨3, 0x1004, .epochHash 1 (.replicate 32 7)⟩
    ((append c).run w).1 = .error .icountRegressed ∧
      ∀ blake3 params, (attempts [c, ⟨5, 0x1004, .padSet 0 4 0⟩] w).2.seal blake3 params =
        (attempts [⟨5, 0x1004, .padSet 0 4 0⟩] w).2.seal blake3 params := by
  intro w c
  exact ⟨rfl, (failed_append_invisible _ _ c [⟨5, 0x1004, .padSet 0 4 0⟩] .icountRegressed rfl).2⟩

end Writing

end DetHypervisor.Dhilog
