import DetHypervisor.Dhilog
import DetHypervisor.GuestRam

/-!
# What a device sees

A device is dispatched with the counter, the log, guest memory, the entropy stream and the
interrupt requests. The first record that the log refuses is the fault of the dispatch.
-/

namespace DetHypervisor.Devices

open Bytes Dhilog

/-- The crates behind the devices: BLAKE3, and the words of a ChaCha20 stream. -/
structure Primitives where
  blake3 : List UInt8 → Hash
  chacha : Hash → UInt64 → ℕ → List.Vector UInt8 4

def Primitives.digest8 (P : Primitives) (bytes : List UInt8) : UInt64 :=
  ofLe UInt64 ((P.blake3 bytes).toList.take 8)

/-- The generator of a slot; its position counts words of a 64-bit block counter. -/
@[ext]
structure DetEntropy where
  seed : Hash
  stream : UInt64
  wordPos : ℕ
  wordPos_lt : wordPos < 2 ^ 68

namespace DetEntropy

def seek (e : DetEntropy) (wordPos : ℕ) : DetEntropy :=
  ⟨e.seed, e.stream, wordPos % 2 ^ 68, Nat.mod_lt wordPos (Nat.two_pow_pos 68)⟩

/-- A fill takes whole words and drops what is left of the last one. -/
def fill (P : Primitives) (e : DetEntropy) (n : ℕ) : List UInt8 × DetEntropy :=
  let words := (n + 3) / 4
  let bytes := (List.range words).flatMap fun i =>
    (P.chacha e.seed e.stream ((e.wordPos + i) % 2 ^ 68)).toList
  (bytes.take n, e.seek (e.wordPos + words))

end DetEntropy

structure DevCtx where
  icount : UInt64
  boundaryRip : UInt64
  log : Dhilog.LogWriter
  ram : GuestRam
  entropy : DetEntropy
  irqQueue : List UInt8
  logFault : Option WriteError
  host : ℕ → Bool

namespace DevCtx

def record (c : DevCtx) : Except WriteError Dhilog.LogWriter → DevCtx
  | .ok w => { c with log := w }
  | .error e => { c with logFault := c.logFault.or (some e) }

def logEntropy (c : DevCtx) (len : UInt32) (digest8 : UInt64) : DevCtx :=
  c.record (c.log.entropy c.icount c.boundaryRip len digest8)

def logNetTx (c : DevCtx) (len : UInt32) (digest8 : UInt64) : DevCtx :=
  c.record (c.log.netTx c.icount c.boundaryRip len digest8)

def logFrameMark (c : DevCtx) (frameIndex : UInt32) : DevCtx :=
  c.record (c.log.frameMark c.icount c.boundaryRip frameIndex)

end DevCtx

end DetHypervisor.Devices
