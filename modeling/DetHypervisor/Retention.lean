import DetHypervisor.PvDevices
import Mathlib.Data.List.DropRight

/-!
# What is kept of a guest's output

The debug serial port and the guest-event backlog of a slot both keep the newest part of what
they are given, up to a cap.
-/

namespace List

variable {α : Type}

lemma rtake_of_length_le {l : List α} {n : ℕ} (h : l.length ≤ n) : l.rtake n = l := by
  rw [rtake, Nat.sub_eq_zero_of_le h, drop_zero]

lemma rtake_sublist (l : List α) (n : ℕ) : l.rtake n <+ l := drop_sublist _ l

lemma length_rtake (l : List α) (n : ℕ) : (l.rtake n).length = min l.length n := by
  rw [rtake, length_drop]
  omega

/-- What an append pushes out was going to be pushed out anyway. -/
lemma rtake_rtake_append (a b : List α) (n : ℕ) : (a.rtake n ++ b).rtake n = (a ++ b).rtake n := by
  have hdrop : a.rtake n ++ b = (a ++ b).drop (a.length - n) := by
    rw [drop_append_of_le_length (Nat.sub_le _ _), rtake]
  rw [hdrop, rtake, rtake, drop_drop, length_drop, length_append]
  congr 1
  omega

lemma rtake_append_rtake (a b : List α) (n : ℕ) : (a ++ b.rtake n).rtake n = (a ++ b).rtake n := by
  simp only [rtake_eq_reverse_take_reverse, reverse_append, reverse_reverse, take_append, take_take,
    length_take, length_reverse, min_self]
  congr 3
  omega

end List

namespace DetHypervisor

open List

namespace Devices.DebugSerial

def takeOutput (d : DebugSerial) : List UInt8 × DebugSerial := (d.out, { d with out := [] })

inductive Op where
  | pioWrite (port : ℕ) (data : List UInt8)
  | mmioWrite (off : ℕ) (data : List UInt8)
  | takeOutput
  | snapshot
  | restore (bytes : List UInt8) (secVersion : UInt16)

def perform (d : DebugSerial) : Op → DebugSerial
  | .pioWrite port data => d.pioWrite port data
  | .mmioWrite off data => d.mmioWrite off data
  | .takeOutput => d.takeOutput.2
  | .snapshot => d
  | .restore bytes secVersion =>
    match restore bytes secVersion with
    | .ok d' => d'
    | .error _ => d

/-- What was written since the last drain or restore, and how much before each drain since the
last restore. -/
structure Written where
  since : List UInt8
  drained : List ℕ

def Written.record (w : Written) : Op → Written
  | .pioWrite port data => if port = pioBase then { w with since := w.since ++ data } else w
  | .mmioWrite off data =>
    if data.length = 4 ∧ off = 0x08 then { w with since := w.since ++ data.take 1 } else w
  | .takeOutput => ⟨[], w.since.length :: w.drained⟩
  | .snapshot => w
  | .restore bytes secVersion => if secVersion ≠ sectionVersion ∨ bytes ≠ [] then w else ⟨[], []⟩

def written (ops : List Op) : Written := ops.foldl Written.record ⟨[], []⟩

def after (ops : List Op) : DebugSerial := ops.foldl perform new

/-- Pending output and counter account for what was written since the last drain or restore. -/
def Accounts (d : DebugSerial) (since : List UInt8) : Prop :=
  d.out = since.rtake maxPendingOutput ∧ d.droppedBytes = since.length - maxPendingOutput ∧
    d.droppedBytes + d.out.length = since.length

def lost (drained : List ℕ) : ℕ := (drained.map (· - maxPendingOutput)).sum

/-- The counter also has what was lost before the drains. -/
def Tracks (d : DebugSerial) (w : Written) : Prop :=
  d.out = w.since.rtake maxPendingOutput ∧
    d.droppedBytes = w.since.length - maxPendingOutput + lost w.drained

variable {d : DebugSerial} {w : Written}

lemma Tracks.pushOutput (h : Tracks d w) (data : List UInt8) :
    Tracks (d.pushOutput data) { w with since := w.since ++ data } := by
  obtain ⟨hout, hdropped⟩ := h
  have hlen : (d.out ++ data).length = min w.since.length maxPendingOutput + data.length := by
    rw [length_append, hout, length_rtake]
  have hkept : (d.out ++ data).rtake maxPendingOutput =
      (w.since ++ data).rtake maxPendingOutput := by rw [hout, rtake_rtake_append]
  dsimp only [DebugSerial.pushOutput, Tracks]
  split_ifs with hover
  · refine ⟨by rw [← hkept, rtake], ?_⟩
    dsimp only
    rw [hdropped, hlen, length_append]
    omega
  · refine ⟨(rtake_of_length_le (not_lt.mp hover)).symm.trans hkept, ?_⟩
    rw [hdropped, length_append]
    omega

lemma Tracks.perform (h : Tracks d w) (op : Op) : Tracks (d.perform op) (w.record op) := by
  cases op with
  | pioWrite port data =>
    dsimp only [DebugSerial.perform, DebugSerial.pioWrite, Written.record]
    split_ifs
    · exact h.pushOutput data
    · exact h
  | mmioWrite off data =>
    dsimp only [DebugSerial.perform, DebugSerial.mmioWrite, Written.record]
    split_ifs
    · exact h.pushOutput (data.take 1)
    · exact h
  | takeOutput =>
    refine ⟨(rtake_nil _).symm, h.2.trans ?_⟩
    simp [lost, Written.record]
  | snapshot => exact h
  | restore bytes secVersion =>
    dsimp only [DebugSerial.perform, DebugSerial.restore, Written.record, Checked.rejectIf]
    split_ifs
    · exact h
    · exact ⟨(rtake_nil _).symm, rfl⟩

lemma tracks_after (ops : List Op) : Tracks (after ops) (written ops) := by
  induction ops using List.reverseRecOn with
  | nil => exact ⟨(rtake_nil _).symm, rfl⟩
  | append_singleton ops op ih =>
    rw [after, written, foldl_concat, foldl_concat]
    exact ih.perform op

/-- The counter is not reset by a drain: the books balance exactly if nothing had been lost at
any drain since the last restore. -/
theorem serial_accounts_iff (ops : List Op) : Accounts (after ops) (written ops).since ↔
      ∀ n ∈ (written ops).drained, n ≤ maxPendingOutput := by
  obtain ⟨hout, hdropped⟩ := tracks_after ops
  have hlost : lost (written ops).drained = 0 ↔
      ∀ n ∈ (written ops).drained, n ≤ maxPendingOutput := by
    simp only [lost, sum_eq_zero_iff, mem_map, forall_exists_index, and_imp,
      forall_apply_eq_imp_iff₂, Nat.sub_eq_zero_iff_le]
  rw [← hlost]
  constructor
  · intro h
    have hcount := h.2.1
    omega
  · intro h
    refine ⟨hout, by omega, ?_⟩
    rw [hdropped, hout, length_rtake]
    omega

/-- One byte is lost, the output is drained, and the counter still has it. -/
theorem drain_keeps_the_count :
    ¬ Accounts (after [.pioWrite pioBase (replicate (maxPendingOutput + 1) 0), .takeOutput])
      [] := by
  intro h
  have hdropped := (tracks_after
    [.pioWrite pioBase (replicate (maxPendingOutput + 1) 0), .takeOutput]).2
  rw [h.2.1] at hdropped
  simp [written, Written.record, lost] at hdropped

end Devices.DebugSerial

namespace GuestEvents

def maxRetained : ℕ := 1024

/-- A drained event; what a selection returns has the same four fields. -/
structure Event where
  stream : UInt32
  icount : ℕ
  vns : ℕ
  payload : List UInt8
  deriving DecidableEq

def trim (events : List Event) : List Event := events.drop (events.length - maxRetained)

def append (retained events : List Event) : List Event :=
  if events = [] then retained else trim (retained ++ events)

def wanted (streams : List UInt32) (event : Event) : Bool :=
  streams.isEmpty || streams.contains event.stream

def select (retained : List Event) (streams : List UInt32) : List Event × List Event :=
  let (selected, rest) := retained.partition (wanted streams)
  (selected, trim rest)

/-- The exits of a Run, with the events that each drains. -/
def duringRun (exits : List (List Event)) : List Event :=
  exits.foldl (fun drained events => trim (drained ++ events)) []

inductive Op where
  | run (exits : List (List Event))
  | pauseDrain (events : List Event)
  | select (streams : List UInt32)

def Op.drained : Op → List Event
  | .run exits => exits.flatten
  | .pauseDrain events => events
  | .select _ => []

/-- The selected events and the backlog. -/
def perform (retained : List Event) : Op → List Event × List Event
  | .run exits => ([], append retained (duringRun exits))
  | .pauseDrain events => ([], append retained events)
  | .select streams => select retained streams

/-- All that the selections returned, and the backlog. -/
def performAll (retained : List Event) : List Op → List Event × List Event
  | [] => ([], retained)
  | op :: ops =>
    let (selected, retained) := perform retained op
    let (delivered, retained) := performAll retained ops
    (selected ++ delivered, retained)

lemma duringRun_eq (exits : List (List Event)) : duringRun exits = trim exits.flatten := by
  induction exits using List.reverseRecOn with
  | nil => rfl
  | append_singleton exits events ih =>
    rw [duringRun, foldl_concat, ← duringRun, ih, flatten_concat]
    exact rtake_rtake_append _ events _

variable {retained : List Event}

section

variable (h : retained.length ≤ maxRetained)
include h

lemma append_trim (events : List Event) :
    append retained (trim events) = (retained ++ events).rtake maxRetained := by
  unfold append
  split_ifs with hnone
  · have hlen := congrArg List.length hnone
    simp only [trim, length_drop, length_nil, maxRetained] at hlen
    obtain rfl : events = [] := length_eq_zero_iff.mp (by omega)
    rw [append_nil, rtake_of_length_le h]
  · exact rtake_append_rtake retained events maxRetained

lemma select_eq (streams : List UInt32) : select retained streams =
      (retained.filter (wanted streams), retained.filter (!wanted streams ·)) := by
  have hrest := (length_filter_le (!wanted streams ·) retained).trans h
  simp only [select, partition_eq_filter_filter]
  exact congrArg _ (rtake_of_length_le hrest)

lemma perform_of_drain {op : Op} (hop : ∀ streams, op ≠ .select streams) :
    perform retained op = ([], (retained ++ op.drained).rtake maxRetained) := by
  cases op with
  | run exits =>
    rw [perform, duringRun_eq, append_trim h]
    rfl
  | pauseDrain events =>
    rw [perform, append]
    split_ifs with hnone
    · subst hnone
      rw [Op.drained, append_nil, rtake_of_length_le h]
    · rfl
  | select streams => exact absurd rfl (hop streams)

/-- A step neither loses track of an event nor has it twice. -/
lemma perform_spec (op : Op) : (perform retained op).2.length ≤ maxRetained ∧
      (perform retained op).1 ++ (perform retained op).2 <+~ retained ++ op.drained := by
  cases op with
  | select streams =>
    rw [perform, select_eq h, Op.drained, append_nil]
    refine ⟨(length_filter_le _ _).trans h, ?_⟩
    exact (filter_append_perm (wanted streams) retained).subperm
  | run exits | pauseDrain events =>
    simp only [perform_of_drain h, ne_eq, reduceCtorEq, not_false_eq_true, implies_true,
      nil_append, length_rtake]
    exact ⟨min_le_right _ _, (rtake_sublist _ _).subperm⟩

lemma performAll_spec (ops : List Op) : (performAll retained ops).2.length ≤ maxRetained ∧
      (performAll retained ops).1 ++ (performAll retained ops).2 <+~
        retained ++ ops.flatMap Op.drained := by
  induction ops generalizing retained with
  | nil => exact ⟨h, by simpa [performAll] using Subperm.refl retained⟩
  | cons op ops ih =>
    obtain ⟨hlen, hstep⟩ := perform_spec h op
    obtain ⟨hbound, hrest⟩ := ih hlen
    refine ⟨hbound, ?_⟩
    change (perform retained op).1 ++ _ ++ _ <+~ retained ++ (op :: ops).flatMap Op.drained
    rw [append_assoc, flatMap_cons, ← append_assoc retained]
    apply ((subperm_append_left _).mpr hrest).trans
    rw [← append_assoc]
    exact (subperm_append_right _).mpr hstep

lemma performAll_drains {drains : List Op}
    (hdrains : ∀ op ∈ drains, ∀ streams, op ≠ .select streams) : performAll retained drains =
      ([], (retained ++ drains.flatMap Op.drained).rtake maxRetained) := by
  induction drains generalizing retained with
  | nil => rw [flatMap_nil, append_nil, rtake_of_length_le h, performAll]
  | cons op drains ih =>
    have hstep := perform_of_drain h (hdrains op mem_cons_self)
    have hlen := (perform_spec h op).1
    rw [hstep] at hlen
    simp only [performAll, hstep]
    rw [ih hlen fun op' hop' => hdrains op' (mem_cons_of_mem op hop'), rtake_rtake_append,
      append_assoc, flatMap_cons, nil_append]

end

/-- After any history, runs and pause drains leave the last events of the backlog and of what
they drained, a selection takes the events it asked for, in order, and leaves the others, and what
was delivered and what is kept was drained, each once. -/
theorem backlog_exact (ops : List Op) :
    (∀ drains : List Op, (∀ op ∈ drains, ∀ streams, op ≠ .select streams) →
      (performAll (performAll [] ops).2 drains).2 =
        ((performAll [] ops).2 ++ drains.flatMap Op.drained).rtake maxRetained) ∧
    (∀ exits, duringRun exits = exits.flatten.rtake maxRetained) ∧
    (∀ streams, select (performAll [] ops).2 streams =
      ((performAll [] ops).2.filter (wanted streams),
        (performAll [] ops).2.filter (!wanted streams ·))) ∧
    (performAll [] ops).1 ++ (performAll [] ops).2 <+~ ops.flatMap Op.drained := by
  obtain ⟨hlen, honce⟩ := @performAll_spec [] (Nat.zero_le _) ops
  refine ⟨fun drains hdrains => ?_, duringRun_eq, select_eq hlen, honce⟩
  rw [performAll_drains hlen hdrains]

end GuestEvents

end DetHypervisor
