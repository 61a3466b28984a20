import DetHypervisor.Lib.Fuel
import DetHypervisor.Lib.Outcome
import DetHypervisor.PvBlk

/-!
# Blobs of the image cache

A blob is read in pieces while others may write to its file; the bytes are hashed as they are
kept.
-/

namespace DetHypervisor.Images

open Devices

variable {H ι : Type}

/-- The errors also carry the kind and the path of the blob. -/
inductive ResolverError (H ι : Type) where
  | notOpened (source : ι)
  | hashMismatch (expected actual : H)
  | tooLarge (len max : ℕ)
  | allocationFailed (requested : ℕ)
  | io (source : ι)

def bufLen : ℕ := 64 * 1024

abbrev ReadResult (ι : Type) := Except ι { buf : List UInt8 // buf.length ≤ bufLen }

structure Progress where
  total : ℕ
  hashed : List UInt8
  out : List UInt8

def Progress.start : Progress := ⟨0, [], []⟩

variable (reads : ℕ → ReadResult ι) (reserve : ℕ → Bool) (maxBytes : ℕ)

/-- A read and what is done with it; `reserve` tells if memory for so many bytes can be had. -/
def turn : ℕ × Progress → Fuel.Step (ℕ × Progress) (Except (ResolverError H ι) Progress)
  | (i, p) =>
    match reads i with
    | .error source => .done (.error (.io source))
    | .ok ⟨buf, _⟩ =>
      if buf = [] then .done (.ok p)
      else if 2 ^ 64 ≤ p.total + buf.length then .done (.error (.tooLarge (2 ^ 64 - 1) maxBytes))
      else if maxBytes < p.total + buf.length then
        .done (.error (.tooLarge (p.total + buf.length) maxBytes))
      else if reserve (p.out.length + buf.length) = false then
        .done (.error (.allocationFailed (p.total + buf.length)))
      else .next (i + 1, ⟨p.total + buf.length, p.hashed ++ buf, p.out ++ buf⟩)

/-- `opened` is what opening the file and reading its length gave. -/
def readVerifiedBlobLimited [DecidableEq H] (blake3 : List UInt8 → H) (opened : Except ι ℕ)
    (expected : H) : Option (Except (ResolverError H ι) (List UInt8)) :=
  match opened with
  | .error source => some (.error (.notOpened source))
  | .ok len =>
    if maxBytes < len then some (.error (.tooLarge len maxBytes))
    else if reserve len = false then some (.error (.allocationFailed len))
    else (Fuel.run (turn reads reserve maxBytes) (maxBytes + 1) (0, .start)).map fun result => do
      let p ← result
      if blake3 p.hashed ≠ expected then .error (.hashMismatch expected (blake3 p.hashed))
      else .ok p.out

/-- What is kept is what was counted and hashed. -/
structure Progress.Sound (p : Progress) : Prop where
  total_eq : p.total = p.out.length
  hashed_eq : p.hashed = p.out
  le_max : p.out.length ≤ maxBytes

variable {reads reserve maxBytes}

lemma turn_spec {i : ℕ} {p : Progress} (h : p.Sound maxBytes) :
    (turn (H := H) reads reserve maxBytes (i, p)).Post
      (fun q => q.2.Sound maxBytes ∧ p.out.length < q.2.out.length)
      fun r => ∀ q, r = .ok q → q = p := by
  have hfails {e : ResolverError H ι} (q : Progress) (hq : Except.error e = .ok q) : q = p := by
    cases hq
  dsimp only [turn]
  cases reads i with
  | error source => exact hfails
  | ok read =>
    dsimp only
    split_ifs with hend hwrap hlarge hreserve
    · exact fun q hq => (Except.ok.inj hq).symm
    · exact hfails
    · exact hfails
    · exact hfails
    · have hpos := List.length_pos_iff.mpr hend
      have htotal := h.total_eq
      refine ⟨⟨?_, by rw [h.hashed_eq], ?_⟩, ?_⟩ <;> dsimp only <;>
        rw [List.length_append] <;> omega

lemma path_spec {n : ℕ} {s : ℕ × Progress}
    (h : Fuel.Path (turn (H := H) reads reserve maxBytes) n (0, .start) s) :
    s.2.Sound maxBytes ∧ n ≤ s.2.out.length := by
  generalize hstart : ((0, .start) : ℕ × Progress) = s0 at h
  induction h with
  | refl =>
    subst hstart
    exact ⟨⟨rfl, rfl, Nat.zero_le _⟩, Nat.zero_le _⟩
  | tail _ hs ih =>
    obtain ⟨hsound, hn⟩ := ih hstart
    obtain ⟨hsound', hlt⟩ := (turn_spec hsound).of_next hs
    exact ⟨hsound', by omega⟩

lemma readVerifiedBlobLimited_spec [DecidableEq H] (blake3 : List UInt8 → H)
    (opened : Except ι ℕ) (expected : H) :
    ∃ r, readVerifiedBlobLimited reads reserve maxBytes blake3 opened expected = some r ∧
      ∀ bytes, r = .ok bytes → blake3 bytes = expected ∧ bytes.length ≤ maxBytes := by
  unfold readVerifiedBlobLimited
  cases opened with
  | error source => exact ⟨_, rfl, by simp⟩
  | ok len =>
    dsimp only
    split_ifs
    · exact ⟨_, rfl, by simp⟩
    · exact ⟨_, rfl, by simp⟩
    · cases hrun : Fuel.run (turn reads reserve maxBytes) (maxBytes + 1) (0, .start) with
      | none =>
        -- Each turn keeps at least a byte, so the limit is passed before the fuel is gone.
        obtain ⟨s, hpath⟩ := Fuel.exists_path_of_run_eq_none hrun
        obtain ⟨hsound, hn⟩ := path_spec hpath
        exact absurd (hn.trans hsound.le_max) (Nat.not_succ_le_self _)
      | some result =>
        refine ⟨_, rfl, fun bytes h => ?_⟩
        obtain ⟨p, rfl, hp⟩ := Except.bind_eq_ok.mp h
        obtain ⟨_, s, _, hpath, hs⟩ := Fuel.exists_path_of_run hrun
        have hsound := (path_spec hpath).1
        obtain rfl := (turn_spec hsound).of_done hs p rfl
        split_ifs at hp with hhash
        cases hp
        exact ⟨hsound.hashed_eq ▸ not_not.mp hhash, hsound.le_max⟩

variable (reads reserve maxBytes)

/-- Whatever the reads yield, an answer is reached; the bytes of a success have the hash that was
asked for and are within the limit, and the disk made of them is these bytes and zeros; and never
is there more in memory than the limit and one read. -/
theorem verified_bytes_exact [DecidableEq H] (blake3 : List UInt8 → H) (opened : Except ι ℕ)
    (expected : H) :
    (∃ r, readVerifiedBlobLimited reads reserve maxBytes blake3 opened expected = some r) ∧
    (∀ bytes, readVerifiedBlobLimited reads reserve maxBytes blake3 opened expected =
      some (.ok bytes) → blake3 bytes = expected ∧ bytes.length ≤ maxBytes ∧
        ∀ hlen, (PvBlk.new ⟨bytes, hlen⟩).content = (fun i => bytes[i]?.getD 0) ∧
          ∀ offset len, FileBase.readAt ⟨bytes, hlen⟩ (fun _ => true) offset len =
            some (Extent.read (fun i => bytes[i]?.getD 0) offset len)) ∧
    ∀ n s, Fuel.Path (turn (H := H) reads reserve maxBytes) n (0, .start) s →
      s.2.out.length ≤ maxBytes ∧
        ∀ buf, reads s.1 = .ok buf → s.2.out.length + buf.1.length ≤ maxBytes + bufLen := by
  obtain ⟨r, hr, hspec⟩ := readVerifiedBlobLimited_spec blake3 opened expected
  refine ⟨⟨r, hr⟩, fun bytes h => ?_, fun n s hpath => ?_⟩
  · obtain ⟨hhash, hle⟩ := hspec bytes (Option.some.inj (hr.symm.trans h))
    refine ⟨hhash, hle, fun hlen => ⟨PvBlk.content_new _, fun offset len => ?_⟩⟩
    cases hread : FileBase.readAt ⟨bytes, hlen⟩ (fun _ => true) offset len with
    | some data => rw [FileBase.readAt_eq_some hread]; rfl
    | none =>
      obtain ⟨_, hfail⟩ := FileBase.exists_of_readAt_eq_none hread
      cases hfail
  · have hle := (path_spec hpath).1.le_max
    exact ⟨hle, fun buf _ => Nat.add_le_add hle buf.2⟩

/-- Three bytes in two pieces, and then the end of the file. -/
def twoPieces : ℕ → ReadResult Unit
  | 0 => .ok ⟨[1, 2], by decide⟩
  | 1 => .ok ⟨[3], by decide⟩
  | _ => .ok ⟨[], by decide⟩

theorem verified_bytes_exact_twoPieces :
    readVerifiedBlobLimited twoPieces (fun _ => true) 4 id (.ok 3) [1, 2, 3] =
      some (.ok [1, 2, 3]) ∧
      (PvBlk.new ⟨[1, 2, 3], by decide⟩).content = fun i => [1, 2, 3][i]?.getD 0 := by
  have hread : readVerifiedBlobLimited twoPieces (fun _ => true) 4 id (.ok 3) [1, 2, 3] =
      some (.ok [1, 2, 3]) := rfl
  obtain ⟨-, hexact, -⟩ := verified_bytes_exact twoPieces (fun _ => true) 4 id (.ok 3) [1, 2, 3]
  obtain ⟨-, -, hdisk⟩ := hexact _ hread
  exact ⟨hread, (hdisk (by decide)).1⟩

end DetHypervisor.Images
