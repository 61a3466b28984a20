import DetHypervisor.Lib.Extent

/-!
# Guest memory

One region from address zero on. What a refused access has already moved is nothing for a vector
of bytes, and all that lies in the region for a mapping.
-/

namespace DetHypervisor.Devices

structure GuestRam where
  size : ℕ
  bytes : ℕ → UInt8
  size_lt : size < 2 ^ 64
  /-- How much a refused access at an address and of a length would move. -/
  copied : ℕ → ℕ → ℕ

namespace GuestRam

variable {data : List UInt8} {gpa len : ℕ} {m : GuestRam}

def ofVec (size : ℕ) (bytes : ℕ → UInt8) (h : size < 2 ^ 64) : GuestRam :=
  ⟨size, bytes, h, fun _ _ => 0⟩

/-- A mapped region, whose slices are filled as far as they go. -/
def ofMapping (size : ℕ) (bytes : ℕ → UInt8) (h : size < 2 ^ 64) : GuestRam :=
  ⟨size, bytes, h, fun _ len => len⟩

def moved (m : GuestRam) (gpa len : ℕ) : ℕ := min (m.copied gpa len) (min len (m.size - gpa))

def overwrite (m : GuestRam) (gpa : ℕ) (data : List UInt8) : GuestRam :=
  { m with bytes := Extent.overwrite m.bytes gpa data }

/-- The bytes read, or those that a refused read has left in the buffer. -/
def read (m : GuestRam) (gpa len : ℕ) : Except (List UInt8) (List UInt8) :=
  if gpa + len ≤ m.size then .ok (Extent.read m.bytes gpa len)
  else .error (Extent.read m.bytes gpa (m.moved gpa len))

def write (m : GuestRam) (gpa : ℕ) (data : List UInt8) : Bool × GuestRam :=
  if gpa + data.length ≤ m.size then (true, m.overwrite gpa data)
  else (false, m.overwrite gpa (data.take (m.moved gpa data.length)))

lemma read_of_le (h : gpa + len ≤ m.size) :
    m.read gpa len = .ok (Extent.read m.bytes gpa len) := if_pos h

lemma read_of_gt (h : m.size < gpa + len) :
    m.read gpa len = .error (Extent.read m.bytes gpa (m.moved gpa len)) := if_neg (not_le.mpr h)

lemma write_of_le (h : gpa + data.length ≤ m.size) :
    m.write gpa data = (true, m.overwrite gpa data) := if_pos h

lemma write_of_gt (h : m.size < gpa + data.length) :
    m.write gpa data = (false, m.overwrite gpa (data.take (m.moved gpa data.length))) :=
  if_neg (not_le.mpr h)

lemma moved_le (m : GuestRam) (gpa len : ℕ) : m.moved gpa len ≤ len :=
  (min_le_right _ _).trans (min_le_left _ _)

@[simp] lemma overwrite_nil (m : GuestRam) (gpa : ℕ) : m.overwrite gpa [] = m := by
  rw [overwrite, Extent.overwrite_nil]

lemma overwrite_append (m : GuestRam) (gpa : ℕ) (a b : List UInt8) :
    m.overwrite gpa (a ++ b) = (m.overwrite gpa a).overwrite (gpa + a.length) b := by
  rw [overwrite, Extent.overwrite_append]
  rfl

end GuestRam

end DetHypervisor.Devices
