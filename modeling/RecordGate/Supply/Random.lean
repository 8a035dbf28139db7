import RecordGate.Crypto.Sha256
import RecordGate.Supply
import RecordGate.Text.Utf8

/-!
# Random identifiers

Identifiers that are digests of a random seed and a number, in the form of random identifiers.
-/

namespace RecordGate.Supply

/-- The number that bytes write, the highest one first. -/
def numberOf (bytes : List UInt8) : Nat := bytes.foldl (fun n b => 256 * n + b.toNat) 0

/-- A number of 128 bits with the marks of a random identifier: its version is 4, and the two bits
that tell the variant are 1 and 0. -/
def marked (n : Nat) : Uuid :=
  let high := n / 0x10000000000000000
  let low := n % 0x4000000000000000
  let high := high / 0x10000 * 0x10000 + 0x4000 + high % 0x1000
  .ofNat (high * 0x10000000000000000 + 0x8000000000000000 + low)

/-- The identifiers of a random seed. -/
def ofSeed (seed : List UInt8) : Supply :=
  ⟨fun n => marked (numberOf ((Sha256.digest (seed ++ Text.bytes (toString n))).take 16)), 0⟩

end RecordGate.Supply
