import DetHypervisor.PvBlk
import DetHypervisor.PvDevices

/-!
# The MMIO bus

Devices in windows of 4 KiB, in the order of their addresses. The bus serves the
first two registers of each window, checks sizes and alignment, and dispatches the
rest.
-/

namespace DetHypervisor.Devices

open Bytes Dhilog List

variable {χ : Type}

/-- A device of the bus; `χ` is the state of the detchannel host, whose window is
inert. -/
inductive Device (χ : Type) where
  | clock (d : PvClock)
  | pad (d : PvPad)
  | entropy (d : PvEntropy)
  | blk (d : PvBlk)
  | serial (d : DebugSerial)
  | net (d : PvNet)
  | channel (c : χ)

namespace Device

def deviceId : Device χ → UInt16
  | clock _ => 0x0002
  | pad _ => 0x0003
  | entropy _ => 0x0004
  | blk _ => 0x0005
  | serial _ => 0x0006
  | net _ => 0x0007
  | channel _ => 0x0001

def sectionVersion : Device χ → UInt16
  | channel _ => 2
  | _ => 1

def mmioRead (d : Device χ) (icount : UInt64) (off len : ℕ) : List UInt8 :=
  match d with
  | clock d => d.mmioRead icount off len
  | pad d => d.mmioRead off len
  | entropy d => d.mmioRead off len
  | blk d => d.mmioRead off len
  | serial _ => DebugSerial.mmioRead off len
  | net d => d.mmioRead off len
  | channel _ => zeros len

def mmioWrite (P : Primitives) (d : Device χ) (off : ℕ) (data : List UInt8) (ctx : DevCtx) :
    Device χ × DevCtx :=
  match d with
  | clock d => (clock (d.mmioWrite off data), ctx)
  | pad d => (d.mmioWrite off data ctx).map pad id
  | entropy d => (d.mmioWrite P off data ctx).map entropy id
  | blk d => (d.mmioWrite ctx.host off data ctx.ram).map blk fun ram => { ctx with ram := ram }
  | serial d => (serial (d.mmioWrite off data), ctx)
  | net d => (d.mmioWrite P off data ctx).map net id
  | channel c => (channel c, ctx)

def clock? : Device χ → Option PvClock
  | clock d => some d
  | _ => none

def pad? : Device χ → Option PvPad
  | pad d => some d
  | _ => none

def net? : Device χ → Option PvNet
  | net d => some d
  | _ => none

end Device

def windowLen : ℕ := 4096
def regMagic : ℕ := 0x00
def regVersion : ℕ := 0x04
def regDeviceBase : ℕ := 0x08

inductive BusError where
  | unmapped
  | guestFault
  | readOnly
  | badWindow
  deriving DecidableEq

structure MmioBus (χ : Type) where
  devices : List (ℕ × Device χ)
  sorted : devices.Pairwise (·.1 < ·.1)
  windows : ∀ w ∈ devices, windowLen ∣ w.1 ∧ w.1 + windowLen < 2 ^ 64

namespace MmioBus

variable {b : MmioBus χ} {base : ℕ} {dev : Device χ}

/-- The device with the last base at or below the address, as the binary search over
the sorted bases finds it. -/
def lookup (b : MmioBus χ) (gpa : ℕ) : Except BusError (ℕ × Device χ) :=
  match (b.devices.filter (·.1 ≤ gpa)).getLast? with
  | none => .error .unmapped
  | some (base, dev) => if windowLen ≤ gpa - base then .error .unmapped else .ok (base, dev)

def checkAccess (off len : ℕ) : Except BusError Unit :=
  if ¬(len = 4 ∨ len = 8) ∨ off % len ≠ 0 then .error .guestFault
  else if windowLen < off + len then .error .guestFault
  else .ok ()

def replace (devices : List (ℕ × Device χ)) (base : ℕ) (dev : Device χ) : List (ℕ × Device χ) :=
  devices.map fun w => if w.1 = base then (base, dev) else w

variable (b) (base) (dev)

lemma sorted_replace : (replace b.devices base dev).Pairwise (·.1 < ·.1) := by
  rw [replace, pairwise_map]
  refine b.sorted.imp fun {w w'} h => ?_
  split_ifs <;> simp_all

lemma windows_replace :
    ∀ w ∈ replace b.devices base dev, windowLen ∣ w.1 ∧ w.1 + windowLen < 2 ^ 64 := by
  intro w hw
  obtain ⟨w', hw', rfl⟩ := mem_map.mp hw
  split_ifs with h
  · exact h ▸ b.windows w' hw'
  · exact b.windows w' hw'

def set : MmioBus χ :=
  ⟨replace b.devices base dev, b.sorted_replace base dev, b.windows_replace base dev⟩

variable {b} {base} {dev}

def read (b : MmioBus χ) (icount : UInt64) (gpa len : ℕ) : Except BusError (List UInt8) := do
  let (base, dev) ← b.lookup gpa
  let off := gpa - base
  checkAccess off len
  if off = regMagic then
    if len ≠ 4 then .error .guestFault else .ok (toLe dev.deviceId.toUInt32)
  else if off = regVersion then
    if len ≠ 4 then .error .guestFault else .ok (toLe dev.sectionVersion.toUInt32)
  else .ok (dev.mmioRead icount off len)

/-- The window and the device a write goes to. -/
def target (b : MmioBus χ) (gpa len : ℕ) : Except BusError (ℕ × Device χ) := do
  let (base, dev) ← b.lookup gpa
  let off := gpa - base
  checkAccess off len
  if off < regDeviceBase then .error .readOnly else .ok (base, dev)

/-- A write, with the bus and the context it leaves also when it is refused. -/
def write (P : Primitives) (b : MmioBus χ) (gpa : ℕ) (data : List UInt8) (ctx : DevCtx) :
    Except BusError Unit × MmioBus χ × DevCtx :=
  match b.target gpa data.length with
  | .error e => (.error e, b, ctx)
  | .ok (base, dev) =>
    let (dev', ctx') := dev.mmioWrite P (gpa - base) data ctx
    (.ok (), b.set base dev', ctx')

def first {δ : Type} (b : MmioBus χ) (sel : Device χ → Option δ) : Option (ℕ × δ) :=
  b.devices.findSome? fun w => (sel w.2).map (w.1, ·)

lemma mem_of_lookup {gpa : ℕ} (h : b.lookup gpa = .ok (base, dev)) :
    (base, dev) ∈ b.devices ∧ base ≤ gpa ∧ gpa - base < windowLen := by
  rw [lookup] at h
  cases hlast : (b.devices.filter (·.1 ≤ gpa)).getLast? with
  | none => simp [hlast] at h
  | some w =>
    have hw := mem_filter.mp (mem_of_getLast? hlast)
    simp only [hlast] at h
    split_ifs at h with hlen
    cases h
    exact ⟨hw.1, of_decide_eq_true hw.2, not_le.mp hlen⟩

lemma exists_split {w : ℕ × Device χ} (h : w ∈ b.devices) :
    ∃ l1 l2, b.devices = l1 ++ w :: l2 ∧ (∀ x ∈ l1, x.1 < w.1) ∧ ∀ x ∈ l2, w.1 < x.1 := by
  obtain ⟨l1, l2, hsplit⟩ := mem_iff_append.mp h
  have hsorted := b.sorted
  rw [hsplit, pairwise_append, pairwise_cons] at hsorted
  exact ⟨l1, l2, hsplit, fun x hx => hsorted.2.2 x hx w mem_cons_self, hsorted.2.1.1⟩

lemma devices_set {l1 l2 : List (ℕ × Device χ)} (h : b.devices = l1 ++ (base, dev) :: l2)
    (dev' : Device χ) : (b.set base dev').devices = l1 ++ (base, dev') :: l2 := by
  have hsorted := b.sorted
  rw [h, pairwise_append, pairwise_cons] at hsorted
  have hkept {l : List (ℕ × Device χ)} (hl : ∀ x ∈ l, x.1 ≠ base) :
      l.map (fun w => if w.1 = base then (base, dev') else w) = l :=
    (map_congr_left fun x hx => if_neg (hl x hx)).trans (map_id l)
  change replace b.devices base dev' = _
  rw [replace, h, map_append, map_cons, if_pos rfl, hkept, hkept]
  · exact fun x hx => (hsorted.2.1.1 x hx).ne'
  · exact fun x hx => (hsorted.2.2 x hx _ mem_cons_self).ne

lemma lookup_of_mem {off : ℕ} (h : (base, dev) ∈ b.devices) (hoff : off < windowLen) :
    b.lookup (base + off) = .ok (base, dev) := by
  obtain ⟨l1, l2, hsplit, hbelow, habove⟩ := exists_split h
  have hnone : l2.filter (·.1 ≤ base + off) = [] := by
    rw [filter_eq_nil_iff]
    intro x hx
    have hx' : x ∈ b.devices := hsplit ▸ mem_append_right l1 (mem_cons_of_mem _ hx)
    obtain ⟨k, hk⟩ := (b.windows _ h).1
    obtain ⟨m, hm⟩ := (b.windows _ hx').1
    have hlt : base < x.1 := habove x hx
    simp only [windowLen, decide_eq_true_eq] at hk hm hoff ⊢
    omega
  have hlast : (b.devices.filter (·.1 ≤ base + off)).getLast? = some (base, dev) := by
    rw [hsplit, filter_append, filter_cons_of_pos (by simp), hnone]
    simp
  rw [lookup, hlast]
  simp only [Nat.add_sub_cancel_left]
  exact if_neg (not_le.mpr hoff)

section Dispatch

/-- The bus with a device more, at the place the binary search gives its base. -/
def insert (b : MmioBus χ) (h : windowLen ∣ base ∧ base + windowLen < 2 ^ 64) (dev : Device χ) :
    MmioBus χ where
  devices := b.devices.filter (·.1 < base) ++ (base, dev) :: b.devices.filter (base < ·.1)
  sorted := by
    simp only [pairwise_append, pairwise_cons, mem_cons, mem_filter, decide_eq_true_eq]
    refine ⟨b.sorted.filter _, ⟨fun w hw => hw.2, b.sorted.filter _⟩, ?_⟩
    rintro w hw w' (rfl | hw')
    · exact hw.2
    · exact hw.2.trans hw'.2
  windows := by
    simp only [mem_append, mem_cons, mem_filter]
    rintro w (hw | rfl | hw)
    exacts [b.windows w hw.1, h, b.windows w hw.1]

def register (b : MmioBus χ) (base : ℕ) (dev : Device χ) : Except BusError (MmioBus χ) :=
  if h : windowLen ∣ base ∧ base + windowLen < 2 ^ 64 then
    if ∃ w ∈ b.devices, w.1 = base then .error .badWindow else .ok (b.insert h dev)
  else .error .badWindow

/-- A rejected call leaves the bus alone. -/
def registerAll (calls : List (ℕ × Device χ)) : MmioBus χ :=
  calls.foldl (fun b w => (b.register w.1 w.2).toOption.getD b) ⟨[], .nil, by simp⟩

/-- `w` is the one window with the whole access, which has a width and an alignment
the bus allows. -/
def Reaches (b : MmioBus χ) (gpa len : ℕ) (w : ℕ × Device χ) : Prop :=
  (∀ x, x ∈ b.devices ∧ x.1 ≤ gpa ∧ gpa + len ≤ x.1 + windowLen ↔ x = w) ∧
    (len = 4 ∨ len = 8) ∧ (gpa - w.1) % len = 0

variable {gpa len : ℕ} {w : ℕ × Device χ}

lemma reaches_iff : b.Reaches gpa len w ↔
    b.lookup gpa = .ok w ∧ checkAccess (gpa - w.1) len = .ok () := by
  have hcheck : checkAccess (gpa - w.1) len = .ok () ↔
      (len = 4 ∨ len = 8) ∧ (gpa - w.1) % len = 0 ∧ gpa - w.1 + len ≤ windowLen := by
    unfold checkAccess
    split_ifs <;> simp_all <;> omega
  have hlookup (x) (hx : x ∈ b.devices) (hle : x.1 ≤ gpa) (hoff : gpa - x.1 < windowLen) :
      b.lookup gpa = .ok x := by
    simpa only [Nat.add_sub_cancel' hle] using lookup_of_mem hx hoff
  rw [hcheck]
  constructor
  · rintro ⟨hunique, hlen, halign⟩
    obtain ⟨hmem, hle, hend⟩ := (hunique w).mpr rfl
    exact ⟨hlookup w hmem hle (by omega), hlen, halign, by omega⟩
  · rintro ⟨hfound, hlen, halign, hend⟩
    obtain ⟨hmem, hle, -⟩ := mem_of_lookup hfound
    refine ⟨fun x => ⟨fun ⟨hx, hxle, hxend⟩ => ?_, ?_⟩, hlen, halign⟩
    · exact Except.ok.inj ((hlookup x hx hxle (by omega)).symm.trans hfound)
    · rintro rfl
      exact ⟨hmem, hle, by omega⟩

lemma target_eq_ok_iff :
    b.target gpa len = .ok w ↔ b.Reaches gpa len w ∧ regDeviceBase ≤ gpa - w.1 := by
  simp only [reaches_iff, target, Except.bind_eq_ok]
  constructor
  · rintro ⟨w', hw, _, hcheck, h⟩
    split_ifs at h with hoff
    cases h
    exact ⟨⟨hw, hcheck⟩, not_lt.mp hoff⟩
  · rintro ⟨⟨hw, hcheck⟩, hoff⟩
    refine ⟨w, hw, (), hcheck, ?_⟩
    rw [if_neg hoff.not_gt]

lemma apart_iff {base' : ℕ} (h : windowLen ∣ base) (h' : windowLen ∣ base') :
    base + windowLen ≤ base' ∨ base' + windowLen ≤ base ↔ base' ≠ base := by
  obtain ⟨k, rfl⟩ := h
  obtain ⟨k', rfl⟩ := h'
  simp only [windowLen]
  omega

lemma mem_insert (h : windowLen ∣ base ∧ base + windowLen < 2 ^ 64)
    (hbase : ¬∃ w ∈ b.devices, w.1 = base) :
    w ∈ (b.insert h dev).devices ↔ w = (base, dev) ∨ w ∈ b.devices := by
  simp only [insert, mem_append, mem_cons, mem_filter, decide_eq_true_eq]
  grind

/-- Registrations give disjoint windows in the order of their bases; an access reaches a
device exactly when one window contains it and its width and alignment are allowed. A
refused write leaves the bus and the context as they were. -/
theorem dispatch_exact (calls : List (ℕ × Device χ)) :
    let b := registerAll calls
    (b.devices.Pairwise fun w w' => w.1 + windowLen ≤ w'.1) ∧
    (∀ base dev, let b' := registerAll (calls ++ [(base, dev)])
      if windowLen ∣ base ∧ base + windowLen < 2 ^ 64 ∧
          ∀ w ∈ b.devices, base + windowLen ≤ w.1 ∨ w.1 + windowLen ≤ base then
        b.register base dev = .ok b' ∧ ∀ w, w ∈ b'.devices ↔ w = (base, dev) ∨ w ∈ b.devices
      else b.register base dev = .error .badWindow ∧ b' = b) ∧
    (∀ icount gpa len data, b.read icount gpa len = .ok data ↔ ∃ w, b.Reaches gpa len w ∧
      (gpa - w.1 = regMagic ∧ len = 4 ∧ data = toLe w.2.deviceId.toUInt32 ∨
        gpa - w.1 = regVersion ∧ len = 4 ∧ data = toLe w.2.sectionVersion.toUInt32 ∨
        regDeviceBase ≤ gpa - w.1 ∧ data = w.2.mmioRead icount (gpa - w.1) len)) ∧
    ∀ P gpa data ctx b' ctx', (b.write P gpa data ctx = (.ok (), b', ctx') ↔ ∃ w dev',
      b.Reaches gpa data.length w ∧ regDeviceBase ≤ gpa - w.1 ∧ b' = b.set w.1 dev' ∧
        w.2.mmioWrite P (gpa - w.1) data ctx = (dev', ctx')) ∧
      ∀ e, b.write P gpa data ctx = (.error e, b', ctx') → b' = b ∧ ctx' = ctx := by
  intro b
  have hnext base dev : registerAll (calls ++ [(base, dev)]) =
      (b.register base dev).toOption.getD b := by
    simp [b, registerAll]
  refine ⟨?_, ?_, ?_, ?_⟩
  · refine b.sorted.imp_of_mem fun {w w'} hw hw' hlt => ?_
    have hapart := (apart_iff (b.windows w hw).1 (b.windows w' hw').1).mpr hlt.ne'
    omega
  · intro base dev b'
    simp only [b', hnext, register]
    by_cases h : windowLen ∣ base ∧ base + windowLen < 2 ^ 64
    · have hfree : (∀ w ∈ b.devices, base + windowLen ≤ w.1 ∨ w.1 + windowLen ≤ base) ↔
          ¬∃ w ∈ b.devices, w.1 = base := by
        push Not
        exact forall₂_congr fun w hw => apart_iff h.1 (b.windows w hw).1
      rw [dif_pos h]
      by_cases hbase : ∃ w ∈ b.devices, w.1 = base
      · rw [if_neg fun hall => hfree.mp hall.2.2 hbase, if_pos hbase]
        exact ⟨rfl, rfl⟩
      · rw [if_pos ⟨h.1, h.2, hfree.mpr hbase⟩, if_neg hbase]
        exact ⟨rfl, fun w => mem_insert h hbase⟩
    · rw [dif_neg h, if_neg fun hall => h ⟨hall.1, hall.2.1⟩]
      exact ⟨rfl, rfl⟩
  · intro icount gpa len data
    simp only [reaches_iff, read, Except.bind_eq_ok]
    constructor
    · rintro ⟨w, hw, _, hcheck, h⟩
      refine ⟨w, ⟨hw, hcheck⟩, ?_⟩
      obtain ⟨-, hlen, halign⟩ := reaches_iff.mpr ⟨hw, hcheck⟩
      split_ifs at h with hmagic h4 hversion h4 <;> cases h
      · exact .inl ⟨hmagic, not_not.mp h4, rfl⟩
      · exact .inr (.inl ⟨hversion, not_not.mp h4, rfl⟩)
      · refine .inr (.inr ⟨?_, rfl⟩)
        simp only [regMagic, regVersion, regDeviceBase] at *
        rcases hlen with rfl | rfl <;> omega
    · rintro ⟨w, ⟨hw, hcheck⟩, h⟩
      refine ⟨w, hw, (), hcheck, ?_⟩
      rcases h with ⟨hoff, rfl, rfl⟩ | ⟨hoff, rfl, rfl⟩ | ⟨hoff, rfl⟩
      · simp [hoff]
      · simp [hoff, regMagic, regVersion]
      · have hne {m} (hm : m < regDeviceBase) : gpa - w.1 ≠ m := (hm.trans_le hoff).ne'
        rw [if_neg (hne (by decide)), if_neg (hne (by decide))]
  · intro P gpa data ctx b' ctx'
    rw [write]
    cases htarget : b.target gpa data.length with
    | error e =>
      refine ⟨iff_of_false (fun h => by cases h) ?_, fun e' h => by cases h; exact ⟨rfl, rfl⟩⟩
      rintro ⟨w, dev', hreach, hoff, -⟩
      cases htarget.symm.trans (target_eq_ok_iff.mpr ⟨hreach, hoff⟩)
    | ok w =>
      obtain ⟨hreach, hoff⟩ := target_eq_ok_iff.mp htarget
      refine ⟨⟨fun h => ?_, ?_⟩, fun e h => by cases h⟩
      · cases h
        exact ⟨w, _, hreach, hoff, rfl, rfl⟩
      · rintro ⟨w', dev', hreach', hoff', rfl, h⟩
        cases htarget.symm.trans (target_eq_ok_iff.mpr ⟨hreach', hoff'⟩)
        dsimp only
        rw [h]

end Dispatch

section First

variable {δ : Type} {sel : Device χ → Option δ} {d : δ} {dev' : Device χ}

lemma mem_of_first (h : b.first sel = some (base, d)) :
    ∃ dev, (base, dev) ∈ b.devices ∧ sel dev = some d := by
  obtain ⟨w, hw, hsel⟩ := exists_of_findSome?_eq_some h
  obtain ⟨d', hd', heq⟩ := Option.map_eq_some_iff.mp hsel
  cases heq
  exact ⟨w.2, hw, hd'⟩

lemma first_set (h : (base, dev) ∈ b.devices) (hsel : sel dev' = sel dev) :
    (b.set base dev').first sel = b.first sel := by
  obtain ⟨l1, l2, hsplit, -, -⟩ := exists_split h
  rw [first, first, devices_set hsplit, hsplit, findSome?_append, findSome?_append,
    findSome?_cons, findSome?_cons, hsel]

lemma first_set_self {d' : δ} (h : b.first sel = some (base, d)) (hsel : sel dev' = some d') :
    (b.set base dev').first sel = some (base, d') := by
  obtain ⟨l1, w, l2, hsplit, hw, hl1⟩ := findSome?_eq_some_iff.mp h
  obtain ⟨d'', -, heq⟩ := Option.map_eq_some_iff.mp hw
  obtain rfl : w.1 = base := congrArg Prod.fst heq
  rw [first, devices_set hsplit, findSome?_append, findSome?_eq_none_iff.mpr hl1,
    findSome?_cons, hsel]
  rfl

lemma first_set_of_ne {base' : ℕ} (h : b.first sel = some (base, d))
    (hmem : (base', dev) ∈ b.devices) (hne : base' ≠ base)
    (hkind : sel dev = none → sel dev' = none) : (b.set base' dev').first sel = some (base, d) := by
  obtain ⟨l1, l2, hsplit, -, -⟩ := exists_split hmem
  rw [first, hsplit, findSome?_append, findSome?_cons] at h
  rw [first, devices_set hsplit, findSome?_append, findSome?_cons]
  cases hl1 : l1.findSome? fun w => (sel w.2).map (w.1, ·) with
  | some x => simpa [hl1] using h
  | none =>
    cases hdev : sel dev with
    | none => simpa [hl1, hdev, hkind hdev] using h
    | some x =>
      exact absurd (by simpa [hl1, hdev] using h) fun hx : base' = base ∧ x = d => hne hx.1

lemma first_map {ε : Type} (g : δ → ε) :
    b.first (fun dev => (sel dev).map g) = (b.first sel).map (Prod.map id g) := by
  simp only [first, map_findSome?, Function.comp_def, Option.map_map]
  rfl

end First

end MmioBus

end DetHypervisor.Devices
