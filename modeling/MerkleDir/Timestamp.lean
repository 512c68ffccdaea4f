/-!
# Timestamps

A point in time is a whole number of seconds, rounded down, and nanoseconds above it. Its text counts
away from 1970 in both directions, with a minus sign before and always nine decimals.
-/
namespace MerkleDir

instance neZeroNanos : @NeZero Nat Zero.ofOfNat0 1000000000 := ⟨by decide⟩

structure Timestamp where
  seconds : Int
  nanos : Fin 1000000000
  deriving DecidableEq, Repr

namespace Timestamp

/-- Rounding down makes one second more of a time before 1970 that has nanoseconds. -/
def beforeEpoch (seconds : Nat) (nanos : Fin 1000000000) : Timestamp :=
  if nanos = 0 then ⟨-seconds, 0⟩
  else ⟨-seconds - 1, Fin.ofNat _ (1000000000 - nanos)⟩

def afterEpoch (seconds : Nat) (nanos : Fin 1000000000) : Timestamp :=
  ⟨seconds, nanos⟩

/-- The distance from 1970: seconds and nanoseconds. -/
def distance (t : Timestamp) : Nat × Nat :=
  if 0 ≤ t.seconds then (t.seconds.toNat, t.nanos)
  else if t.nanos = 0 then ((-t.seconds).toNat, 0)
  else ((-t.seconds - 1).toNat, 1000000000 - t.nanos)

def padLeft (width : Nat) (digits : List Char) : List Char :=
  List.replicate (width - digits.length) '0' ++ digits

def decimals (width n : Nat) : String :=
  String.ofList (padLeft width (Nat.toDigits 10 n))

def text (t : Timestamp) : String :=
  let (seconds, nanos) := t.distance
  (if t.seconds < 0 then "-" else "") ++ decimals 1 seconds ++ "." ++ decimals 9 nanos

end Timestamp
end MerkleDir
