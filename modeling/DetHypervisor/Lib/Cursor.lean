import DetHypervisor.Lib.Checked

/-!
# Decoders with a position

A decoder walks a position through fixed bytes, and is specified by what must stand where it
reads: `Stands bytes l i j` says that `l` stands from `i` up to `j`.
-/

namespace Cursor

open Bytes Checked List Except

abbrev Decoder (ε α : Type) := StateT ℕ (Exec ε) α

variable {ε α β : Type} {bytes l m : List UInt8} {i j k : ℕ}

def Stands (bytes l : List UInt8) (i j : ℕ) : Prop := l <+: bytes.drop i ∧ j = i + l.length

lemma stands_nil : Stands bytes [] i j ↔ j = i := by
  simp [Stands]

lemma stands_append : Stands bytes (l ++ m) i k ↔ ∃ j, Stands bytes l i j ∧ Stands bytes m j k := by
  simp only [Stands, append_isPrefix_drop_iff, ← isPrefix_drop_iff, length_append]
  constructor
  · rintro ⟨⟨hl, hm⟩, rfl⟩
    exact ⟨_, ⟨hl, rfl⟩, hm, (Nat.add_assoc _ _ _).symm⟩
  · rintro ⟨j, ⟨hl, rfl⟩, hm, rfl⟩
    exact ⟨⟨hl, hm⟩, Nat.add_assoc _ _ _⟩

lemma Stands.le (h : Stands bytes l i j) (hl : 0 < l.length) : j ≤ bytes.length := by
  have hle := h.1.length_le
  rw [length_drop] at hle
  have hj := h.2
  omega

lemma stands_zero_length_iff : Stands bytes l 0 bytes.length ↔ bytes = l := by
  rw [Stands, drop_zero, Nat.zero_add]
  constructor
  · rintro ⟨hl, hlen⟩
    exact (hl.eq_of_length hlen.symm).symm
  · rintro rfl
    exact ⟨prefix_rfl, rfl⟩

lemma bind_eq_ok_iff {d : Decoder ε α} {f : α → Decoder ε β} {r : β × ℕ} :
    (d >>= f) i = .ok r ↔ ∃ a j, d i = .ok (a, j) ∧ f a j = .ok r := by
  change (d i >>= fun p => f p.1 p.2) = .ok r ↔ _
  rw [bind_eq_ok, Prod.exists]

lemma pure_eq_ok_iff {a b : α} : (pure a : Decoder ε α) i = .ok (b, j) ↔ a = b ∧ j = i := by
  change (.ok (a, i) : Exec ε (α × ℕ)) = .ok (b, j) ↔ _
  rw [Except.ok.injEq, Prod.mk.injEq, eq_comm (a := i)]

def still (x : Exec ε α) : Decoder ε α := fun i => x >>= fun a => .ok (a, i)

lemma still_eq_ok_iff {x : Exec ε α} {a : α} : still x i = .ok (a, j) ↔ x = .ok a ∧ j = i := by
  cases x with
  | ok b => exact pure_eq_ok_iff.trans (by rw [Except.ok.injEq])
  | error t => simp [still]

def refuseIf (p : Prop) [Decidable p] (e : ε) : Decoder ε Unit := still (rejectIf p e)

lemma refuseIf_eq_ok_iff {p : Prop} [Decidable p] {e : ε} {u : Unit} :
    refuseIf p e i = .ok (u, j) ↔ ¬p ∧ j = i := by
  rw [refuseIf, still_eq_ok_iff, rejectIf_eq_ok_iff]

def position : Decoder ε ℕ := fun i => .ok (i, i)

lemma position_eq_ok_iff {n : ℕ} : (position : Decoder ε ℕ) i = .ok (n, j) ↔ i = n ∧ j = i :=
  pure_eq_ok_iff

def takeBytes (bytes : List UInt8) (n : ℕ) : Decoder ε (List UInt8) := fun i => do
  let s ← slice bytes i (i + n)
  .ok (s, i + n)

/-- The next `n` bytes, with the error `e` where there are fewer. -/
def readExact (e : ε) (bytes : List UInt8) (n : ℕ) : Decoder ε (List UInt8) := fun i => do
  let stop ← addOr e i n
  rejectIf (bytes.length < stop) e
  .ok (Bytes.slice bytes i stop, stop)

/-- `bytes.get(at..at + n).ok_or(e)?`, where the sum is not checked. -/
def getBytes (e : ε) (bytes : List UInt8) (n : ℕ) : Decoder ε (List UInt8) := fun i => do
  let stop ← add i n
  rejectIf (bytes.length < stop) e
  .ok (Bytes.slice bytes i stop, stop)

def Fetches (bytes : List UInt8) (n : ℕ) (d : Decoder ε (List UInt8)) : Prop :=
  ∀ i s j, 0 < n ∨ i ≤ bytes.length → (d i = .ok (s, j) ↔ s.length = n ∧ Stands bytes s i j)

lemma stands_iff_slice {n : ℕ} {s : List UInt8} (hn : 0 < n ∨ i ≤ bytes.length) :
    s.length = n ∧ Stands bytes s i j ↔
      i + n ≤ bytes.length ∧ Bytes.slice bytes i (i + n) = s ∧ i + n = j := by
  constructor
  · rintro ⟨rfl, hs, rfl⟩
    refine ⟨?_, isPrefix_drop_iff.mp hs, rfl⟩
    rcases hn with hn | hn
    · exact Stands.le ⟨hs, rfl⟩ hn
    · have hle := hs.length_le
      rw [length_drop] at hle
      omega
  · rintro ⟨hle, rfl, rfl⟩
    have hlen : (Bytes.slice bytes i (i + n)).length = n := by
      rw [length_slice hle, Nat.add_sub_cancel_left]
    refine ⟨hlen, ?_, by rw [hlen]⟩
    rw [isPrefix_drop_iff, hlen]

lemma fetches_takeBytes (n : ℕ) : Fetches bytes n (takeBytes (ε := ε) bytes n) := by
  intro i s j hn
  rw [stands_iff_slice hn, takeBytes]
  simp only [bind_eq_ok, slice_eq_ok_iff, Except.ok.injEq, Prod.mk.injEq]
  constructor
  · rintro ⟨s, ⟨-, hle, rfl⟩, rfl, rfl⟩
    exact ⟨hle, rfl, rfl⟩
  · rintro ⟨hle, rfl, rfl⟩
    exact ⟨_, ⟨Nat.le_add_right i n, hle, rfl⟩, rfl, rfl⟩

lemma fetches_getBytes (hbytes : bytes.length < 2 ^ 64) (e : ε) (n : ℕ) :
    Fetches bytes n (getBytes e bytes n) := by
  intro i s j hn
  rw [stands_iff_slice hn, getBytes]
  simp only [bind_eq_ok, add_eq_ok_iff, rejectIf_eq_ok_iff, Except.ok.injEq, Prod.mk.injEq]
  constructor
  · rintro ⟨_, ⟨-, rfl⟩, -, hle, rfl, rfl⟩
    exact ⟨Nat.not_lt.mp hle, rfl, rfl⟩
  · rintro ⟨hle, rfl, rfl⟩
    exact ⟨_, ⟨hle.trans_lt hbytes, rfl⟩, (), Nat.not_lt.mpr hle, rfl, rfl⟩

lemma fetches_readExact (hbytes : bytes.length < 2 ^ 64) (e : ε) (n : ℕ) :
    Fetches bytes n (readExact e bytes n) := by
  intro i s j hn
  rw [stands_iff_slice hn, readExact]
  simp only [bind_eq_ok, addOr_eq_ok_iff, rejectIf_eq_ok_iff, Except.ok.injEq, Prod.mk.injEq]
  constructor
  · rintro ⟨_, ⟨-, rfl⟩, -, hle, rfl, rfl⟩
    exact ⟨Nat.not_lt.mp hle, rfl, rfl⟩
  · rintro ⟨hle, rfl, rfl⟩
    exact ⟨_, ⟨hle.trans_lt hbytes, rfl⟩, (), Nat.not_lt.mpr hle, rfl, rfl⟩

def toWord (α : Type) [Word α] (d : Decoder ε (List UInt8)) : Decoder ε α := do
  let s ← d
  still (word α s 0 (Word.size α))

def toArray (n : ℕ) (d : Decoder ε (List UInt8)) : Decoder ε (List.Vector UInt8 n) := do
  let s ← d
  still (array n s 0 n)

def toByte (d : Decoder ε (List UInt8)) : Decoder ε UInt8 := do
  let s ← d
  still (index s 0)

variable {d : Decoder ε (List UInt8)}

lemma toWord_eq_ok_iff [Word α] (hd : Fetches bytes (Word.size α) d) (hsize : 0 < Word.size α)
    {a : α} : toWord α d i = .ok (a, j) ↔ Stands bytes (toLe a) i j := by
  simp only [toWord, bind_eq_ok_iff, hd _ _ _ (.inl hsize), still_eq_ok_iff, word_eq_ok_iff]
  constructor
  · rintro ⟨s, _, ⟨hlen, hs⟩, ⟨-, -, hword⟩, rfl⟩
    rwa [← hword, slice_full hlen]
  · intro h
    exact ⟨_, j, ⟨length_toLe a, h⟩, ⟨Nat.zero_le _, (length_toLe a).ge,
      slice_full (length_toLe a)⟩, rfl⟩

lemma toArray_eq_ok_iff {n : ℕ} (hd : Fetches bytes n d) (hn : 0 < n) {v : List.Vector UInt8 n} :
    toArray n d i = .ok (v, j) ↔ Stands bytes v.toList i j := by
  simp only [toArray, bind_eq_ok_iff, hd _ _ _ (.inl hn), still_eq_ok_iff, array_eq_ok_iff]
  constructor
  · rintro ⟨s, _, ⟨hlen, hs⟩, ⟨-, -, hv⟩, rfl⟩
    rwa [← hv, slice_full hlen]
  · intro h
    have hlen := v.toList_length
    exact ⟨_, j, ⟨hlen, h⟩, ⟨Nat.zero_le _, hlen.ge, slice_full hlen⟩, rfl⟩

lemma toByte_eq_ok_iff (hd : Fetches bytes 1 d) {x : UInt8} :
    toByte d i = .ok (x, j) ↔ Stands bytes [x] i j := by
  simp only [toByte, bind_eq_ok_iff, hd _ _ _ (.inl Nat.one_pos), still_eq_ok_iff, index_eq_ok_iff]
  constructor
  · rintro ⟨s, _, ⟨hlen, hs⟩, hx, rfl⟩
    obtain ⟨y, rfl⟩ := length_eq_one_iff.mp hlen
    cases hx
    exact hs
  · intro h
    exact ⟨[x], j, ⟨rfl, h⟩, rfl, rfl⟩

def each (d : β → Decoder ε α) : List β → Decoder ε (List α)
  | [] => pure []
  | x :: xs => do
      let a ← d x
      let as ← each d xs
      pure (a :: as)

variable {as : List α} {xs : List β}

lemma each_eq_ok_iff {d : β → Decoder ε α} {R : β → α → Prop} {f : α → List UInt8}
    (hd : ∀ x i a j, d x i = .ok (a, j) ↔ R x a ∧ Stands bytes (f a) i j) :
    each d xs i = .ok (as, j) ↔ List.Forall₂ R xs as ∧ Stands bytes (as.flatMap f) i j := by
  induction xs generalizing i j as with
  | nil =>
    rw [each, pure_eq_ok_iff]
    constructor
    · rintro ⟨rfl, rfl⟩
      exact ⟨.nil, stands_nil.mpr rfl⟩
    · rintro ⟨⟨⟩, h⟩
      exact ⟨rfl, stands_nil.mp h⟩
  | cons x xs ih =>
    simp only [each, bind_eq_ok_iff, pure_eq_ok_iff, hd, ih]
    constructor
    · rintro ⟨a, k, ⟨ha, hk⟩, as, _, ⟨has, hj⟩, rfl, rfl⟩
      exact ⟨.cons ha has, stands_append.mpr ⟨k, hk, hj⟩⟩
    · rintro ⟨has, h⟩
      cases has with
      | cons ha has =>
        obtain ⟨k, hk, hj⟩ := stands_append.mp h
        exact ⟨_, k, ⟨ha, hk⟩, _, _, ⟨has, hj⟩, rfl, rfl⟩

lemma forall₂_const_left_iff {P : α → Prop} :
    List.Forall₂ (fun _ a => P a) xs as ↔ as.length = xs.length ∧ ∀ a ∈ as, P a := by
  induction xs generalizing as with
  | nil => cases as <;> simp
  | cons x xs ih => cases as <;> simp [ih, and_left_comm]

def counted (count : Decoder ε UInt32) (check : ℕ → Decoder ε Unit)
    (items : ℕ → Decoder ε (List α)) : Decoder ε (List α) := do
  let n ← count
  check n.toNat
  items n.toNat

lemma counted_eq_ok_iff {count : Decoder ε UInt32} {check : ℕ → Decoder ε Unit}
    {items : ℕ → Decoder ε (List α)} {P : ℕ → Prop} {Q : List α → Prop} {f : List α → List UInt8}
    (hcount : ∀ i n j, count i = .ok (n, j) ↔ Stands bytes (toLe n) i j)
    (hcheck : ∀ n i u j, check n i = .ok (u, j) ↔ P n ∧ j = i)
    (hitems : ∀ n i as j, P n → i ≤ bytes.length →
      (items n i = .ok (as, j) ↔ as.length = n ∧ Q as ∧ Stands bytes (f as) i j)) :
    counted count check items i = .ok (as, j) ↔ (as.length < 2 ^ 32 ∧ P as.length ∧ Q as) ∧
        Stands bytes (toLe (UInt32.ofNat as.length) ++ f as) i j := by
  simp only [counted, bind_eq_ok_iff, hcount, hcheck, stands_append]
  constructor
  · rintro ⟨n, _, hk, -, k, ⟨hP, rfl⟩, has⟩
    have hle : k ≤ bytes.length := hk.le (by rw [length_toLe]; decide)
    obtain ⟨hlen, hQ, hj⟩ := (hitems _ _ _ _ hP hle).mp has
    rw [hlen, UInt32.ofNat_toNat]
    exact ⟨⟨n.toNat_lt, hP, hQ⟩, k, hk, hj⟩
  · rintro ⟨⟨hlt, hP, hQ⟩, k, hk, hj⟩
    have hle : k ≤ bytes.length := hk.le (by rw [length_toLe]; decide)
    have hn : (UInt32.ofNat as.length).toNat = as.length := UInt32.toNat_ofNat_of_lt hlt
    refine ⟨_, k, hk, (), k, ⟨hn.symm ▸ hP, rfl⟩, ?_⟩
    rw [hn, hitems _ _ _ _ hP hle]
    exact ⟨rfl, hQ, hj⟩

end Cursor
