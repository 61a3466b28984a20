import DetHypervisor.DhilogImages

/-!
# Hostile logs

Whatever bytes it is given, the reader returns a log or an error, and what it hands out
afterwards without further checks stays inside the bytes.
-/

namespace DetHypervisor.Dhilog

variable {body : List UInt8} {e : Record} {header : Header} {rs : List Record}

open Bytes Checked List Except RecordScan

section

variable {blake3 : List UInt8 → Hash} {bytes : List UInt8}

lemma LogReader.parse_safely (blake3 : List UInt8 → Hash) (hbytes : bytes.length < 2 ^ 64) :
    Safely (fun reader => reader.header.Accepted true ∧ bytes = reader.header.bytes ++ reader.body ∧
      blake3 reader.body = reader.header.bodyHash ∧
      ∃ rs e, SealedBody reader.header reader.body rs e) (LogReader.parse blake3 bytes) := by
  rw [LogReader.parse, safely_bind]
  apply (parseHeaderWithSeal_safely bytes true).keep.mono _ fun _ ht => ht
  rintro header ⟨hheader, -⟩
  obtain ⟨haccepted, body, rfl⟩ := parseHeaderWithSeal_eq_ok_iff.mp hheader
  rw [length_append, header.length_bytes] at hbytes
  have hbody : (header.bytes ++ body).drop headerLen = body := by
    rw [← header.length_bytes, drop_left]
  rw [safely_bind, safely_suffix (by simp), hbody, safely_bind, safely_rejectIf]
  intro hhash
  rw [safely_bind]
  apply (validateRecords_safely (by omega)).weaken
  exact fun _ hsealed => ⟨haccepted, rfl, not_not.mp hhash, hsealed⟩

lemma LogReader.sealedBody_of_parse {bytes : Slice} {header : Header} {body : List UInt8}
    (h : LogReader.parse blake3 bytes = .ok ⟨header, body⟩) :
    header.Accepted true ∧ bytes.val = header.bytes ++ body ∧ blake3 body = header.bodyHash ∧
      body.length < 2 ^ 64 ∧ ∃ rs e, SealedBody header body rs e := by
  have hbytes : bytes.val.length < 2 ^ 64 := bytes.property.trans (by decide)
  obtain ⟨haccepted, hcut, hhash, hsealed⟩ := (parse_safely blake3 hbytes).of_ok h
  refine ⟨haccepted, hcut, hhash, ?_, hsealed⟩
  rw [hcut, length_append] at hbytes
  exact lt_of_le_of_lt (Nat.le_add_left _ _) hbytes

lemma LogReader.parse_of_sealedBody {header : Header} {body : List UInt8} {rs : List Record}
    {e : Record} (hbody : body.length < 2 ^ 64) (haccepted : header.Accepted true)
    (hhash : blake3 body = header.bodyHash) (h : SealedBody header body rs e) :
    LogReader.parse blake3 (header.bytes ++ body) = .ok ⟨header, body⟩ := by
  have hheader : parseHeader (header.bytes ++ body) = .ok header :=
    parseHeaderWithSeal_eq_ok_iff.mpr ⟨haccepted, body, rfl⟩
  simp only [LogReader.parse, bind_eq_ok, suffix_eq_ok_iff, rejectIf_eq_ok_iff]
  refine ⟨header, hheader, body, ⟨by simp, ?_⟩, (), not_not.mpr hhash, (),
    validateRecords_of_sealedBody hbody h, rfl⟩
  rw [← header.length_bytes, drop_left]

end

/-- The records that the validation loop reads on its way from one state to
another. -/
inductive Visits (header : Header) (body : List UInt8) : Walk → List Record → Walk → Prop where
  | nil (w : Walk) : Visits header body w [] w
  | cons {w w' w'' : Walk} {r : Record} {rs : List Record} {scan : RecordScan}
      (hscan : scanNextRecord body w.scan = .ok (some (r, scan)))
      (hturn : validateTurn header body w = .ok (.next w')) (hrest : Visits header body w' rs w'') :
      Visits header body w (r :: rs) w''

lemma Record.Valid.body_of_isEnd {r : Record} (h : r.Valid) (hend : r.isEnd = true) :
    ∃ stopReason endStateHash, r.body = .ok (.end stopReason endStateHash) := by
  have hlen := h.length_payload_of_isEnd hend
  suffices hsafe : Safely (fun b => ∃ stopReason endStateHash, b = .end stopReason endStateHash)
      r.body by
    obtain ⟨_, hb, stopReason, endStateHash, rfl⟩ := hsafe.returns
    exact ⟨stopReason, endStateHash, hb⟩
  rw [Record.body, Record.isEnd_iff.mp hend]
  simp (disch := omega) only [safely_bind, safely_index, safely_array, safely_ok]
  exact ⟨_, _, rfl⟩

section

variable (h : SealedBody header body rs e)
include h

lemma SealedBody.visits {pre post : List Record}
    (hbody : body.length < 2 ^ 64) (hcut : rs ++ [e] = pre ++ post) :
    Visits header body (Walk.after pre) post (Walk.after (rs ++ [e])) := by
  induction post generalizing pre with
  | nil =>
    rw [hcut, append_nil]
    exact .nil _
  | cons r post ih =>
    exact .cons (h.scanNextRecord_eq hbody hcut) (h.validateTurn_eq hbody hcut)
      (ih (by simp [hcut]))

lemma SealedBody.validateTurn_done :
    validateTurn header body (Walk.after (rs ++ [e])) = .ok (.done (Walk.after (rs ++ [e]))) := by
  rw [validateTurn, if_pos]
  rw [Walk.scan_after, offset_after, ← h.body_eq]

lemma SealedBody.exists_end (hbody : body.length < 2 ^ 64) :
    ∃ p, LogReader.end ⟨header, body⟩ = .ok p := by
  obtain ⟨stopReason, endStateHash, he⟩ :=
    (h.sequenced.valid (by simp : e ∈ rs ++ [e])).body_of_isEnd h.isEnd
  refine ⟨(stopReason, endStateHash), ?_⟩
  rw [LogReader.end, h.records_eq hbody, ok_bind, getLast?_concat]
  simp only [he, ok_bind]

end

def Leads (body : List UInt8) (rs : List Record) : Prop :=
  Sequenced rs ∧ ∃ rest, body = image rs ++ rest

structure Inspected (body : List UInt8) (out : List Record × InspectionStop) : Prop where
  leads : Leads body out.1
  stop : scanNextRecord body (.after out.1) = match out.2 with
    | .eof => .ok none
    | .corrupt e => .error (.error e)

lemma inspectTurn_eq_ok (hbody : body.length < 2 ^ 64) (h : Leads body rs) :
    ∃ s, inspectTurn body (.after rs, rs) = .ok s ∧
      Turns (fun s => ∃ rs, s = (RecordScan.after rs, rs) ∧ Leads body rs) (Inspected body)
        (fun s => body.length - s.1.offset) (RecordScan.after rs, rs) s := by
  have hscan := scanNextRecord_safely hbody (count_le_offset_after rs)
  rw [inspectTurn]
  cases hnext : scanNextRecord body (RecordScan.after rs) with
  | error t =>
    obtain ⟨e, rfl⟩ := hscan.of_error hnext
    exact ⟨_, rfl, h, hnext⟩
  | ok o =>
    have hfound := hscan.of_ok hnext
    cases o with
    | none => exact ⟨_, rfl, h, hnext⟩
    | some p =>
      obtain ⟨r, scan'⟩ := p
      obtain ⟨hr, hrest, rfl⟩ := hfound
      rw [offset_after] at hrest
      refine ⟨_, rfl, ⟨rs ++ [r], by rw [after_snoc], sequenced_snoc.mpr ⟨h.1, hr⟩,
        starts_snoc h.2 hrest⟩, ?_⟩
      obtain ⟨rest, hrest⟩ := hrest
      have hlength := congrArg List.length hrest
      rw [length_drop, length_append, r.length_bytes] at hlength
      simp only [RecordScan.past, offset_after, r.length_bytes]
      omega

lemma LogInspection.parseUnsealed_of_header {bytes : List UInt8} (hbytes : bytes.length < 2 ^ 64)
    (h : parseHeaderForInspection bytes = .ok header) :
    ∃ body out, bytes = header.bytes ++ body ∧ Inspected body out ∧
      LogInspection.parseUnsealed bytes = .ok ⟨header, out.1, out.2⟩ := by
  obtain ⟨-, body, rfl⟩ := parseHeaderWithSeal_eq_ok_iff.mp h
  have hsuffix : suffix (header.bytes ++ body) headerLen = (.ok body : Exec ReadError _) := by
    rw [suffix_eq_ok_iff, ← header.length_bytes, drop_left]
    exact ⟨by simp, rfl⟩
  rw [length_append] at hbytes
  obtain ⟨out, hloop, hout⟩ : ∃ out, loop (inspectTurn body) (body.length + 1) (.default, []) =
      .ok out ∧ Inspected body out := by
    refine loop_eq_ok (I := fun s => ∃ rs, s = (RecordScan.after rs, rs) ∧ Leads body rs)
      (μ := fun s => body.length - s.1.offset) ?_ ⟨[], rfl, sequenced_nil, body, rfl⟩ (by omega)
    rintro _ ⟨rs, rfl, h⟩
    exact inspectTurn_eq_ok (by omega) h
  refine ⟨body, out, rfl, hout, ?_⟩
  rw [parseUnsealed, h, ok_bind, hsuffix, ok_bind, hloop, ok_bind]

lemma LogInspection.parseUnsealed_safely {bytes : List UInt8} (hbytes : bytes.length < 2 ^ 64) :
    Safely (fun log => ∃ body, bytes = log.header.bytes ++ body ∧
      Inspected body (log.records, log.stop)) (LogInspection.parseUnsealed bytes) := by
  cases hheader : parseHeaderForInspection bytes with
  | error t =>
    rw [parseUnsealed, hheader]
    exact (parseHeaderWithSeal_safely bytes false).of_error hheader
  | ok header =>
    obtain ⟨body, out, hcut, hout, hparse⟩ := parseUnsealed_of_header hbytes hheader
    rw [hparse]
    exact ⟨body, hcut, hout⟩

/-- Every byte string is read without a panic and in finitely many steps. The iterator of an
accepted log yields the records that were validated, up to the last byte; the typed views
are there; and counts are as the format demands, in a crash artifact too. -/
theorem reader_robust (blake3 : List UInt8 → Hash) (bytes : Slice) :
    (LogReader.parse blake3 bytes ≠ .error .panic ∧ LogReader.parse blake3 bytes ≠ .error .stuck) ∧
    (LogInspection.parseUnsealed bytes ≠ .error .panic ∧
      LogInspection.parseUnsealed bytes ≠ .error .stuck) ∧
    (∀ reader, LogReader.parse blake3 bytes = .ok reader →
      ∃ rs w, Visits reader.header reader.body .start rs w ∧
        validateTurn reader.header reader.body w = .ok (.done w) ∧
        reader.records = .ok rs ∧ reader.body = rs.flatMap Record.bytes ∧
        (∀ r ∈ rs, ∃ b, r.body = .ok b) ∧ (∃ p, reader.end = .ok p) ∧
        rs.Pairwise (fun r t => r.icount ≤ t.icount) ∧
        ∀ i (r : Record), rs[i]? = some r → r.seq.toNat = i) ∧
    (∀ log, LogInspection.parseUnsealed bytes = .ok log →
      (∃ rest, bytes.val.drop headerLen = log.records.flatMap Record.bytes ++ rest) ∧
        (∀ r ∈ log.records, ∃ b, r.body = .ok b) ∧
        log.records.Pairwise (fun r t => r.icount ≤ t.icount) ∧
        ∀ i (r : Record), log.records[i]? = some r → r.seq.toNat = i) := by
  have hbytes : bytes.val.length < 2 ^ 64 := bytes.property.trans (by decide)
  have hparse := LogReader.parse_safely blake3 hbytes
  have hinspect := LogInspection.parseUnsealed_safely hbytes
  refine ⟨⟨hparse.ne_panic, hparse.ne_stuck⟩, ⟨hinspect.ne_panic, hinspect.ne_stuck⟩, ?_, ?_⟩
  · rintro ⟨header, body⟩ hreader
    obtain ⟨-, -, -, hbody, rs, e, h⟩ := LogReader.sealedBody_of_parse hreader
    exact ⟨rs ++ [e], Walk.after (rs ++ [e]), h.visits hbody (nil_append _).symm,
      h.validateTurn_done,
      h.records_eq hbody, h.body_eq, fun r hr => (h.sequenced.valid hr).exists_body,
      h.exists_end hbody, h.sequenced.pairwise_icount, fun i r hr => h.sequenced.seq_eq hr⟩
  · intro log hlog
    obtain ⟨body, hcut, ⟨hrecords, rest, hrest⟩, -⟩ := hinspect.of_ok hlog
    refine ⟨⟨rest, ?_⟩, fun r hr => (hrecords.valid hr).exists_body, hrecords.pairwise_icount,
      fun i r hr => hrecords.seq_eq hr⟩
    rw [hcut, ← log.header.length_bytes, drop_left, hrest]
    rfl

section Inspection

variable {pre post rs' : List Record} {r : Record} {out : List Record × InspectionStop}

lemma Leads.scanNextRecord_eq (h : Leads body rs) (hbody : body.length < 2 ^ 64)
    (hcut : rs = pre ++ r :: post) :
    scanNextRecord body (.after pre) = .ok (some (r, (RecordScan.after pre).past r)) := by
  obtain ⟨hrs, rest, rfl⟩ := h
  apply scanNextRecord_of_admits hbody (count_le_offset_after pre) (hrs pre r post hcut)
  rw [offset_after, hcut, image_append, append_assoc, drop_left, image_cons, append_assoc]

lemma Leads.of_snoc (h : Leads body (rs ++ [r])) : Leads body rs := by
  obtain ⟨hrs, rest, rfl⟩ := h
  refine ⟨(sequenced_snoc.mp hrs).1, image [r] ++ rest, ?_⟩
  rw [image_append, append_assoc]

lemma Inspected.longest (h : Inspected body out) (hbody : body.length < 2 ^ 64)
    (hrs : Leads body rs) : rs <+: out.1 := by
  induction rs using reverseRecOn with
  | nil => exact nil_prefix
  | append_singleton rs r ih =>
    have hcut : rs ++ [r] = rs ++ r :: [] := rfl
    have hscan := hrs.scanNextRecord_eq hbody hcut
    obtain ⟨post, hpost⟩ := ih hrs.of_snoc
    cases post with
    | nil =>
      -- the scan that has stopped behind `rs` would find `r`
      have hstop := h.stop
      rw [← hpost, append_nil, hscan] at hstop
      cases hout : out.2 <;> simp [hout] at hstop
    | cons x post =>
      have hx := h.leads.scanNextRecord_eq hbody hpost.symm
      rw [hscan, Except.ok.injEq, Option.some.injEq, Prod.mk.injEq] at hx
      exact ⟨post, by rw [← hpost, hx.1, append_assoc, singleton_append]⟩

lemma Inspected.corrupt_iff (h : Inspected body out) (hbody : body.length < 2 ^ 64) :
    (∃ e, out.2 = .corrupt e) ↔ body ≠ image out.1 := by
  have hscan := scanNextRecord_safely hbody (count_le_offset_after out.1)
  have hstop := h.stop
  obtain ⟨-, rest, hrest⟩ := h.leads
  cases hout : out.2 with
  | eof =>
    rw [hout] at hstop
    have hend : body.length ≤ (RecordScan.after out.1).offset := hscan.of_ok hstop
    rw [offset_after, hrest, length_append] at hend
    obtain rfl : rest = [] := length_eq_zero_iff.mp (by omega)
    simp [hrest]
  | corrupt e =>
    refine ⟨fun _ himage => ?_, fun _ => ⟨e, rfl⟩⟩
    rw [hout, scanNextRecord, if_pos] at hstop
    · cases hstop
    · rw [offset_after, ← himage]

end Inspection

/-- An accepted image is inspected to the same header and records. In any image with a well-
shaped header the inspection returns every string of well-formed records at the start, and
reports corruption exactly if bytes are left behind it. -/
theorem inspection_agrees (blake3 : List UInt8 → Hash) (bytes : Slice) :
    (∀ reader, LogReader.parse blake3 bytes = .ok reader → ∃ rs, reader.records = .ok rs ∧
      LogInspection.parseUnsealed bytes = .ok ⟨reader.header, rs, .eof⟩) ∧
    ∀ header, parseHeaderForInspection bytes = .ok header →
      ∃ log body, LogInspection.parseUnsealed bytes = .ok log ∧ log.header = header ∧
        bytes = header.bytes ++ body ∧ Leads body log.records ∧
        (∀ rs, Leads body rs → rs <+: log.records) ∧
        ((∃ e, log.stop = .corrupt e) ↔ body ≠ image log.records) := by
  have hbytes : bytes.val.length < 2 ^ 64 := bytes.property.trans (by decide)
  have hregion {header : Header} {body : List UInt8} (h : bytes.val = header.bytes ++ body) :
      body.length < 2 ^ 64 := by
    rw [h, length_append] at hbytes
    omega
  constructor
  · rintro ⟨header, body⟩ hreader
    obtain ⟨haccepted, hcut, -, hbody, rs, e, h⟩ := LogReader.sealedBody_of_parse hreader
    have hheader : parseHeaderForInspection bytes = .ok header :=
      parseHeaderWithSeal_eq_ok_iff.mpr ⟨⟨haccepted.1, haccepted.2, nofun, haccepted.4⟩, body, hcut⟩
    obtain ⟨body', ⟨records, stop⟩, hcut', hout, hparse⟩ :=
      LogInspection.parseUnsealed_of_header hbytes hheader
    obtain rfl := append_cancel_left (hcut.symm.trans hcut')
    obtain ⟨post, hpost⟩ := hout.longest hbody ⟨h.sequenced, [], by rw [append_nil, h.body_eq]⟩
    have hnil : post = [] := by
      cases post with
      | nil => rfl
      | cons x post =>
        have hx := hout.leads.scanNextRecord_eq hbody hpost.symm
        rw [scanNextRecord, if_pos (by rw [offset_after, ← h.body_eq])] at hx
        cases hx
    obtain rfl : rs ++ [e] = records := by
      rw [hnil, append_nil] at hpost
      exact hpost
    cases stop with
    | eof => exact ⟨_, h.records_eq hbody, hparse⟩
    | corrupt error => exact absurd h.body_eq ((hout.corrupt_iff hbody).mp ⟨error, rfl⟩)
  · intro header hheader
    obtain ⟨body, out, hcut, hout, hparse⟩ := LogInspection.parseUnsealed_of_header hbytes hheader
    exact ⟨_, body, hparse, rfl, hcut, hout.leads, fun rs => hout.longest (hregion hcut),
      hout.corrupt_iff (hregion hcut)⟩

/-- No sealed log continues another: one cut short, or with bytes behind its end, is refused. -/
theorem sealed_logs_prefix_free (blake3 : List UInt8 → Hash) (bytes bytes' : Slice) :
    (∃ log log', LogReader.parse blake3 bytes = .ok log ∧ LogReader.parse blake3 bytes' = .ok log' ∧
      bytes.val <+: bytes'.val) ↔
      bytes = bytes' ∧ ∃ log, LogReader.parse blake3 bytes = .ok log := by
  constructor
  · rintro ⟨⟨header, body⟩, ⟨header', body'⟩, hparse, hparse', rest, hrest⟩
    obtain ⟨-, hcut, -, -, rs, e, h⟩ := LogReader.sealedBody_of_parse hparse
    obtain ⟨hshape, hcut', -, hlt, rs', e', h'⟩ := LogReader.sealedBody_of_parse hparse'
    obtain ⟨_, out, heq, hout, -⟩ := LogInspection.parseUnsealed_of_header
      (bytes'.2.trans (by decide))
      (parseHeaderWithSeal_eq_ok_iff.mpr ⟨⟨hshape.1, hshape.2, nofun, hshape.4⟩, _, hcut'⟩)
    obtain rfl := append_cancel_left (hcut'.symm.trans heq)
    rw [hcut, append_assoc, hcut'] at hrest
    obtain ⟨hheader, rfl⟩ := append_inj hrest (by simp)
    have hle := hout.longest hlt ⟨h.sequenced, rest, by rw [h.body_eq]⟩
    have hle' := hout.longest hlt ⟨h'.sequenced, [], by rw [append_nil, h'.body_eq]⟩
    -- only the last record of each is an END
    have hrecords : rs ++ [e] = rs' ++ [e'] := by
      rcases prefix_or_prefix_of_prefix hle hle' with hle | hle
      all_goals rcases prefix_concat_iff.mp hle with heq | hin
      · exact heq
      · cases (h'.not_isEnd e (hin.subset (by simp))).symm.trans h.isEnd
      · exact heq.symm
      · cases (h.not_isEnd e' (hin.subset (by simp))).symm.trans h'.isEnd
    refine ⟨Subtype.ext ?_, _, hparse⟩
    rw [hcut, hcut', hheader, h'.body_eq, ← hrecords, ← h.body_eq]
  · rintro ⟨rfl, log, hlog⟩
    exact ⟨log, log, hlog, hlog, prefix_rfl⟩

end DetHypervisor.Dhilog
