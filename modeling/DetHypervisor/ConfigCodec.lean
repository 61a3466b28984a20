import DetHypervisor.Lib.Cursor
import DetHypervisor.Machine

/-!
# The canonical form of a machine configuration

A valid configuration has exactly one canonical form, over which its hash is taken, and the
landing knobs are no part of it.
-/

namespace DetHypervisor.ConfigCodec

open Bytes Checked Cursor

inductive ConfigError where
  | unsupportedVersion
  | memNotAligned
  | vcpusNotOne
  | zeroEpochLen
  | cmdlineTooLong
  | bzImageCmdlineNonAscii
  | bzImageCmdlineNul
  | bzImageCmdlineEmptyToken
  | bzImageCmdlineUnsupportedToken
  | bzImageCmdlineDuplicateToken
  | bzImageCmdlineBaselineOverride
  | bzImageCmdlineNotCanonical
  | cpuidTableTooLarge
  | deviceSetTooLarge
  | cpuidTableUnsorted
  | deviceSetUnsorted
  deriving DecidableEq

inductive ConfigDecodeError where
  | badMagic
  | truncated
  | trailingBytes (trailing : ℕ)
  | badBootTag (found : UInt8)
  | badHashEpochs (found : UInt8)
  | zeroClockTerm
  | lengthTooLarge (field : String) (len max : ℕ)
  | invalidConfig (e : ConfigError)

def configVersion : UInt32 := 1

def memAlign : ℕ := 2 * 1024 * 1024

def defaultSkidMargin : UInt32 := 8192

def defaultResyncSlack : UInt32 := 1024

def maxCmdline : ℕ := 4096

def maxCpuidLeaves : ℕ := 4096

def maxDevices : ℕ := 256

abbrev Hash := List.Vector UInt8 32

@[ext]
structure ClockTerms where
  num : UInt32
  den : UInt32
  num_ne : num ≠ 0
  den_ne : den ≠ 0

structure CpuidLeaf where
  function : UInt32
  index : UInt32
  flags : UInt32
  eax : UInt32
  ebx : UInt32
  ecx : UInt32
  edx : UInt32

inductive BootSpec where
  | elf (kernelHash : Hash) (cmdline : List UInt8)
  | bzImage (kernelHash initramfsHash : Hash) (cmdline : List UInt8)

def BootSpec.cmdline : BootSpec → List UInt8
  | .elf _ cmdline => cmdline
  | .bzImage _ _ cmdline => cmdline

@[ext]
structure MachineConfig where
  version : UInt32
  memBytes : UInt64
  vcpus : UInt32
  clock : ClockTerms
  baseImageHash : Hash
  boot : BootSpec
  epochLen : UInt64
  hashEpochs : HashEpochs
  skidMargin : UInt32
  resyncSlack : UInt32
  cpuidTable : List CpuidLeaf
  deviceSet : List UInt16

def bzimageForcedCmdline : List UInt8 :=
  ascii ("console=ttyS0 nokaslr norandmaps random.trust_cpu=off random.trust_bootloader=on " ++
    "page_alloc.shuffle=0 notsc tsc=unstable clocksource=jiffies vdso=0 lpj=4096 noapictimer " ++
    "default_hugepagesz=2M hugepagesz=2M hugepages=1 init=/init").toList

def forcedBaselineKeys : List (List UInt8) :=
  ["console", "nokaslr", "norandmaps", "random.trust_cpu", "random.trust_bootloader",
    "page_alloc.shuffle", "notsc", "tsc", "clocksource", "vdso", "lpj", "noapictimer",
    "default_hugepagesz", "hugepagesz", "hugepages", "init"].map fun key => ascii key.toList

structure BzImageCmdlineExtras where
  quiet : Bool
  loglevel : Option UInt8

def strip (head l : List UInt8) : Option (List UInt8) :=
  if head <+: l then some (l.drop head.length) else none

def isAsciiWhitespace (x : UInt8) : Bool :=
  x == 0x20 || x == 0x09 || x == 0x0A || x == 0x0C || x == 0x0D

def isForcedBzimageBaselineKey (token : List UInt8) : Bool :=
  token.takeWhile (· != '='.toUInt8) ∈ forcedBaselineKeys

def parseToken (parsed : BzImageCmdlineExtras) (token : List UInt8) :
    Except ConfigError BzImageCmdlineExtras :=
  if isForcedBzimageBaselineKey token then .error .bzImageCmdlineBaselineOverride
  else if token = ascii "quiet".toList then
    if parsed.quiet then .error .bzImageCmdlineDuplicateToken
    else .ok { parsed with quiet := true }
  else
    match strip (ascii "loglevel=".toList) token with
    | some raw =>
      if parsed.loglevel.isSome then .error .bzImageCmdlineDuplicateToken
      else
        match raw with
        | [digit] =>
          if '0'.toUInt8 ≤ digit ∧ digit ≤ '7'.toUInt8 then
            .ok { parsed with loglevel := some (digit - '0'.toUInt8) }
          else .error .bzImageCmdlineUnsupportedToken
        | _ => .error .bzImageCmdlineUnsupportedToken
    | none => .error .bzImageCmdlineUnsupportedToken

def parseBzimageCmdlineExtras (extras : List UInt8) : Except ConfigError BzImageCmdlineExtras :=
  if extras.isEmpty then .ok ⟨false, none⟩
  else if 0 ∈ extras then .error .bzImageCmdlineNul
  else if ∃ x ∈ extras, 128 ≤ x then .error .bzImageCmdlineNonAscii
  else if extras.head?.any isAsciiWhitespace ∨ extras.getLast?.any isAsciiWhitespace ∨
      ¬extras.IsChain (fun x y => ¬(isAsciiWhitespace x ∧ isAsciiWhitespace y)) then
    .error .bzImageCmdlineEmptyToken
  else (extras.splitOnP isAsciiWhitespace).foldlM parseToken ⟨false, none⟩

def composeBzimageCmdline (baseline : List UInt8) (extras : BzImageCmdlineExtras) :
    Except ConfigError (List UInt8) :=
  let out := baseline ++ (if extras.quiet then ascii " quiet".toList else []) ++
    extras.loglevel.elim [] fun level => ascii " loglevel=".toList ++ ['0'.toUInt8 + level]
  if maxCmdline < out.length then .error .cmdlineTooLong else .ok out

def canonicalizeBzimageCmdlineExtras (extras : List UInt8) : Except ConfigError (List UInt8) := do
  composeBzimageCmdline bzimageForcedCmdline (← parseBzimageCmdlineExtras extras)

def bzimageCmdlineExtrasFromCanonical (cmdline : List UInt8) : Except ConfigError (List UInt8) :=
  if cmdline = bzimageForcedCmdline then .ok []
  else
    match strip bzimageForcedCmdline cmdline with
    | none => .error .bzImageCmdlineNotCanonical
    | some rest =>
      match strip (ascii [' ']) rest with
      | none => .error .bzImageCmdlineNotCanonical
      | some extras => do
          let recanonicalized ← canonicalizeBzimageCmdlineExtras extras
          if recanonicalized ≠ cmdline then .error .bzImageCmdlineNotCanonical else .ok extras

def validateCanonicalBzimageCmdline (cmdline : List UInt8) : Except ConfigError Unit :=
  if maxCmdline < cmdline.length then .error .cmdlineTooLong
  else do
    let _ ← bzimageCmdlineExtrasFromCanonical cmdline
    .ok ()

def CpuidLeaf.Before (a b : CpuidLeaf) : Prop :=
  a.function < b.function ∨ a.function = b.function ∧ a.index < b.index

instance (a b : CpuidLeaf) : Decidable (a.Before b) := inferInstanceAs (Decidable (_ ∨ _))

def refuse (p : Prop) [Decidable p] (e : ConfigError) : Except ConfigError Unit :=
  if p then .error e else .ok ()

lemma refuse_eq_ok_iff {p : Prop} [Decidable p] {e : ConfigError} {u : Unit} :
    refuse p e = .ok u ↔ ¬p := by
  by_cases h : p <;> simp [refuse, h]

def CpuidLeaf.bytes (l : CpuidLeaf) : List UInt8 :=
  toLe l.function ++ (toLe l.index ++ (toLe l.flags ++ (toLe l.eax ++ (toLe l.ebx ++
    (toLe l.ecx ++ toLe l.edx)))))

def vecBytes (v : List UInt8) : List UInt8 := toLe (UInt32.ofNat v.length) ++ v

def BootSpec.bytes : BootSpec → List UInt8
  | .elf kernelHash cmdline => [1] ++ (kernelHash.toList ++ vecBytes cmdline)
  | .bzImage kernelHash initramfsHash cmdline =>
    [2] ++ (kernelHash.toList ++ (initramfsHash.toList ++ vecBytes cmdline))

def hashEpochsTag : HashEpochs → UInt8
  | .epochsOn => 1
  | .finalOnly => 2

def magic : List UInt8 := ascii ['D', 'H', 'M', 'C', 'F', 'G'] ++ zeros 2

/-- The check that only the command line of a compressed kernel gets. -/
def BootSpec.validate : BootSpec → Except ConfigError Unit
  | .elf _ _ => .ok ()
  | .bzImage _ _ cmdline => validateCanonicalBzimageCmdline cmdline

namespace MachineConfig

def validate (c : MachineConfig) : Except ConfigError Unit := do
  refuse (c.version ≠ configVersion) .unsupportedVersion
  refuse (c.memBytes = 0 ∨ c.memBytes.toNat % memAlign ≠ 0) .memNotAligned
  refuse (c.vcpus ≠ 1) .vcpusNotOne
  refuse (c.epochLen = 0) .zeroEpochLen
  refuse (maxCmdline < c.boot.cmdline.length) .cmdlineTooLong
  c.boot.validate
  refuse (maxCpuidLeaves < c.cpuidTable.length) .cpuidTableTooLarge
  refuse (maxDevices < c.deviceSet.length) .deviceSetTooLarge
  refuse (¬c.cpuidTable.IsChain CpuidLeaf.Before) .cpuidTableUnsorted
  refuse (¬c.deviceSet.IsChain (· < ·)) .deviceSetUnsorted

def bytes (c : MachineConfig) : List UInt8 :=
  magic ++ (toLe c.version ++ (toLe c.memBytes ++ (toLe c.vcpus ++ (toLe c.clock.num ++
    (toLe c.clock.den ++ (c.baseImageHash.toList ++ (c.boot.bytes ++ (toLe c.epochLen ++
    ([hashEpochsTag c.hashEpochs] ++
    ((toLe (UInt32.ofNat c.cpuidTable.length) ++ c.cpuidTable.flatMap CpuidLeaf.bytes) ++
    (toLe (UInt32.ofNat c.deviceSet.length) ++ c.deviceSet.flatMap toLe)))))))))))

def canonicalEncode (c : MachineConfig) : Except ConfigError (List UInt8) := do
  c.validate
  .ok c.bytes

def configHash (blake3 : List UInt8 → Hash) (c : MachineConfig) : Except ConfigError Hash := do
  let encoded ← c.canonicalEncode
  .ok (blake3 encoded)

/-- What run control, the input queue and the log header read of it. -/
def runConfig (c : MachineConfig) (configHash : Hash) : DetHypervisor.MachineConfig Hash where
  clock := ⟨c.clock.num.toNat, c.clock.den.toNat,
    Nat.pos_of_ne_zero fun h => c.clock.num_ne (UInt32.toNat_inj.mp h),
    Nat.pos_of_ne_zero fun h => c.clock.den_ne (UInt32.toNat_inj.mp h)⟩
  epochLen := c.epochLen.toNat
  hashEpochs := c.hashEpochs
  deviceSet := c.deviceSet.map UInt16.toNat
  configHash := configHash

end MachineConfig

section Reader

variable (bytes : List UInt8)

def readU8 : Decoder ConfigDecodeError UInt8 := toByte (readExact .truncated bytes 1)

def readU16 : Decoder ConfigDecodeError UInt16 := toWord UInt16 (readExact .truncated bytes 2)

def readU32 : Decoder ConfigDecodeError UInt32 := toWord UInt32 (readExact .truncated bytes 4)

def readU64 : Decoder ConfigDecodeError UInt64 := toWord UInt64 (readExact .truncated bytes 8)

def readHash : Decoder ConfigDecodeError Hash := toArray 32 (readExact .truncated bytes 32)

def readVecU32 (field : String) (max : ℕ) : Decoder ConfigDecodeError (List UInt8) :=
  counted (readU32 bytes) (fun len => refuseIf (max < len) (.lengthTooLarge field len max))
    (readExact .truncated bytes)

def readClock : Decoder ConfigDecodeError ClockTerms := do
  let num ← readU32 bytes
  let den ← readU32 bytes
  still (if h : num ≠ 0 ∧ den ≠ 0 then .ok ⟨num, den, h.1, h.2⟩ else reject .zeroClockTerm)

def readBoot : Decoder ConfigDecodeError BootSpec := do
  let tag ← readU8 bytes
  if tag = 1 then
    let kernelHash ← readHash bytes
    let cmdline ← readVecU32 bytes "cmdline" maxCmdline
    pure (.elf kernelHash cmdline)
  else if tag = 2 then
    let kernelHash ← readHash bytes
    let initramfsHash ← readHash bytes
    let cmdline ← readVecU32 bytes "cmdline" maxCmdline
    pure (.bzImage kernelHash initramfsHash cmdline)
  else still (reject (.badBootTag tag))

def readHashEpochs : Decoder ConfigDecodeError HashEpochs := do
  let tag ← readU8 bytes
  still (if tag = 1 then .ok .epochsOn
    else if tag = 2 then .ok .finalOnly
    else reject (.badHashEpochs tag))

def readLeaf : Decoder ConfigDecodeError CpuidLeaf := do
  let function ← readU32 bytes
  let index ← readU32 bytes
  let flags ← readU32 bytes
  let eax ← readU32 bytes
  let ebx ← readU32 bytes
  let ecx ← readU32 bytes
  let edx ← readU32 bytes
  pure ⟨function, index, flags, eax, ebx, ecx, edx⟩

def readCpuidTable : Decoder ConfigDecodeError (List CpuidLeaf) :=
  counted (readU32 bytes)
    (fun count => refuseIf (maxCpuidLeaves < count) (.invalidConfig .cpuidTableTooLarge))
    (fun count => each (fun _ => readLeaf bytes) (List.range count))

def readDeviceSet : Decoder ConfigDecodeError (List UInt16) :=
  counted (readU32 bytes)
    (fun count => refuseIf (maxDevices < count) (.invalidConfig .deviceSetTooLarge))
    (fun count => each (fun _ => readU16 bytes) (List.range count))

def readConfig : Decoder ConfigDecodeError MachineConfig := do
  let found ← readExact .truncated bytes 8
  refuseIf (found ≠ magic) .badMagic
  let version ← readU32 bytes
  let memBytes ← readU64 bytes
  let vcpus ← readU32 bytes
  let clock ← readClock bytes
  let baseImageHash ← readHash bytes
  let boot ← readBoot bytes
  let epochLen ← readU64 bytes
  let hashEpochs ← readHashEpochs bytes
  let cpuidTable ← readCpuidTable bytes
  let deviceSet ← readDeviceSet bytes
  let pos ← position
  refuseIf (pos ≠ bytes.length) (.trailingBytes (bytes.length - pos))
  pure {
    version := version
    memBytes := memBytes
    vcpus := vcpus
    clock := clock
    baseImageHash := baseImageHash
    boot := boot
    epochLen := epochLen
    hashEpochs := hashEpochs
    skidMargin := defaultSkidMargin
    resyncSlack := defaultResyncSlack
    cpuidTable := cpuidTable
    deviceSet := deviceSet }

def MachineConfig.validated (config : MachineConfig) : Exec ConfigDecodeError MachineConfig :=
  match config.validate with
  | .ok () => .ok config
  | .error e => reject (.invalidConfig e)

def MachineConfig.canonicalDecode : Exec ConfigDecodeError MachineConfig := do
  let (config, _) ← readConfig bytes 0
  config.validated

end Reader

end DetHypervisor.ConfigCodec
