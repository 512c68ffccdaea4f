import MerkleDir.Bytes

/-!
# UTF-8

`encode` turns text into bytes. `pieces` cuts any byte string into the characters it encodes and the
stretches that encode none; strict decoding, display decoding and quoting all read this one view.
-/
namespace MerkleDir.Utf8

def encode (s : String) : Bytes :=
  s.toList.flatMap String.utf8EncodeChar

/-- A maximal undecodable stretch is the longest prefix that some character could still extend. -/
inductive Piece where
  | char (c : Char)
  | invalid (bytes : Bytes)
  deriving DecidableEq, Repr

/-- How a multi-byte character starts: the payload of its first byte, the number of bytes that
follow, and the range of the first of those. -/
structure Lead where
  payload : Nat
  following : Nat
  low : UInt8
  high : UInt8

/-- The ranges exclude overlong forms, surrogates and values above U+10FFFF. -/
def lead? (b : UInt8) : Option Lead :=
  if 0xC2 ≤ b ∧ b ≤ 0xDF then some ⟨b.toNat - 0xC0, 1, 0x80, 0xBF⟩
  else if b = 0xE0 then some ⟨0, 2, 0xA0, 0xBF⟩
  else if b = 0xED then some ⟨0xD, 2, 0x80, 0x9F⟩
  else if 0xE1 ≤ b ∧ b ≤ 0xEF then some ⟨b.toNat - 0xE0, 2, 0x80, 0xBF⟩
  else if b = 0xF0 then some ⟨0, 3, 0x90, 0xBF⟩
  else if 0xF1 ≤ b ∧ b ≤ 0xF3 then some ⟨b.toNat - 0xF0, 3, 0x80, 0xBF⟩
  else if b = 0xF4 then some ⟨4, 3, 0x80, 0x8F⟩
  else none

/-- At most `n` continuation bytes, of which the first lies between `low` and `high`. -/
def continuation : Nat → UInt8 → UInt8 → Bytes → Bytes
  | n + 1, low, high, b :: rest =>
    if low ≤ b ∧ b ≤ high then b :: continuation n 0x80 0xBF rest else []
  | _, _, _, _ => []

def scalar (payload : Nat) (bytes : Bytes) : Char :=
  Char.ofNat (bytes.foldl (fun n b => n * 64 + (b.toNat - 0x80)) payload)

def pieces : Bytes → List Piece
  | [] => []
  | b :: rest =>
    if b < 0x80 then .char (Char.ofNat b.toNat) :: pieces rest
    else match lead? b with
      | none => .invalid [b] :: pieces rest
      | some l =>
        let tail := continuation l.following l.low l.high rest
        let piece := if tail.length = l.following then .char (scalar l.payload tail)
          else .invalid (b :: tail)
        piece :: pieces (rest.drop tail.length)
  termination_by bytes => bytes.length
  decreasing_by all_goals simp; try omega

def Piece.char? : Piece → Option Char
  | .char c => some c
  | .invalid _ => none

/-- The text that the bytes encode, if they encode any. -/
def decode? (bytes : Bytes) : Option String :=
  ((pieces bytes).mapM Piece.char?).map String.ofList

def Piece.display : Piece → Char
  | .char c => c
  | .invalid _ => '\uFFFD'

/-- Each undecodable stretch is displayed as one replacement character. -/
def display (bytes : Bytes) : String :=
  String.ofList ((pieces bytes).map Piece.display)

end MerkleDir.Utf8
