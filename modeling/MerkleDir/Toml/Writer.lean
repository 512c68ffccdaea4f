import MerkleDir.Text.Hex
import MerkleDir.Toml.Character

/-!
# Writing TOML

Strings and keys in the plainest form that holds them: basic without escapes, else literal, else over
several lines, and with escapes where nothing else will do.
-/
namespace MerkleDir.Toml

/-- What decides the form of a string. -/
structure Traits where
  longestSingle : Nat
  longestDouble : Nat
  hasBackslash : Bool
  hasControl : Bool
  hasNewline : Bool

/-- The length of the longest run of `mark`, where `current` have been seen just before. -/
def longestRun (mark : Char) : Nat → List Char → Nat
  | current, [] => current
  | current, c :: rest =>
    if c = mark then longestRun mark (current + 1) rest
    else max current (longestRun mark 0 rest)

def traits (text : List Char) : Traits :=
  { longestSingle := longestRun '\'' 0 text
    longestDouble := longestRun '"' 0 text
    hasBackslash := text.contains '\\'
    hasControl := text.any isControl
    hasNewline := text.contains '\n' }

def unicodeEscape (c : Char) : List Char :=
  ['\\', 'u', '0', '0'] ++ (Hex.encodeByte (UInt8.ofNat c.toNat)).map Char.toUpper

/-- A character of a basic string; quotes are the caller's business. -/
def escapeBasic (multiline : Bool) (c : Char) : List Char :=
  if c = '\x08' then ['\\', 'b']
  else if c = '\t' then ['\\', 't']
  else if c = '\n' then (if multiline then ['\n'] else ['\\', 'n'])
  else if c = '\x0c' then ['\\', 'f']
  else if c = '\r' then ['\\', 'r']
  else if c = '\\' then ['\\', '\\']
  else if c.toNat < 0x20 || c.toNat == 0x7F then unicodeEscape c
  else [c]

/-- The body of a basic string. Up to `allowed` quotes in a row stay as they are; the count starts
anew after every escape. -/
def basicBody (multiline : Bool) (allowed : Nat) : Nat → List Char → List Char
  | _, [] => []
  | run, c :: rest =>
    if c = '"' then
      if run < allowed then '"' :: basicBody multiline allowed (run + 1) rest
      else '\\' :: '"' :: basicBody multiline allowed 0 rest
    else escapeBasic multiline c ++ basicBody multiline allowed 0 rest

def oneLine (mark body : List Char) : List Char := mark ++ body ++ mark

/-- A line feed right after the opening mark is not part of the string. -/
def manyLines (hasNewline : Bool) (mark body : List Char) : List Char :=
  mark ++ (if hasNewline then ['\n'] else []) ++ body ++ mark

def basicMark : List Char := ['"']
def literalMark : List Char := ['\'']
def basicMarks : List Char := ['"', '"', '"']
def literalMarks : List Char := ['\'', '\'', '\'']

def string (text : String) : String :=
  let cs := text.toList
  let t := traits cs
  let plain := !t.hasControl && !t.hasBackslash
  String.ofList <|
    if plain && t.longestDouble == 0 && !t.hasNewline then oneLine basicMark (basicBody false 0 0 cs)
    else if !t.hasControl && t.longestSingle == 0 && !t.hasNewline then oneLine literalMark cs
    else if plain && t.longestDouble ≤ 2 then
      manyLines t.hasNewline basicMarks (basicBody true 2 0 cs)
    else if !t.hasControl && t.longestSingle ≤ 2 then manyLines t.hasNewline literalMarks cs
    else if t.hasNewline then manyLines true basicMarks (basicBody true 2 0 cs)
    else oneLine basicMark (basicBody false 0 0 cs)

/-- A key never spans lines. -/
def key (text : String) : String :=
  let cs := text.toList
  let t := traits cs
  let hasControl := t.hasControl || t.hasNewline
  String.ofList <|
    if !cs.isEmpty && cs.all isBareKeyChar then cs
    else if !hasControl && !t.hasBackslash && t.longestDouble == 0 then
      oneLine basicMark (basicBody false 0 0 cs)
    else if !hasControl && t.longestSingle == 0 then oneLine literalMark cs
    else oneLine basicMark (basicBody false 0 0 cs)

end MerkleDir.Toml
