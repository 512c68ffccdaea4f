import MerkleDir.Text.Nfc
import MerkleDir.Text.Quoted

/-!
# Paths

A path is raw bytes. Its components are read between slashes: repeated slashes and inner or trailing
`.` segments vanish, a leading `.` and every `..` are components. Text made from a path is in
normalization form C.
-/
namespace MerkleDir

structure Path where
  bytes : Bytes
  deriving DecidableEq, Repr

namespace Path

inductive Component where
  | root
  | current
  | parent
  | name (bytes : Bytes)
  deriving DecidableEq, Repr

def slash : UInt8 := 47
def dot : UInt8 := 46

def ofText (text : String) : Path := ⟨Utf8.encode text⟩

def isAbsolute (p : Path) : Bool := p.bytes.head? == some slash

/-- The stretches between slashes; there is one more of them than slashes. -/
def splitSlash : Bytes → List Bytes
  | [] => [[]]
  | b :: rest =>
    if b = slash then [] :: splitSlash rest
    else match splitSlash rest with
      | first :: others => (b :: first) :: others
      | [] => [[b]]

/-- A leading slash, or a leading `.` that is a segment of its own. -/
def head (p : Path) : Bytes :=
  match p.bytes with
  | b :: rest =>
    if b = slash then [slash]
    else if b = dot ∧ (rest = [] ∨ rest.head? = some slash) then [dot]
    else []
  | [] => []

/-- The segments after the head, empty ones included. -/
def segments (p : Path) : List Bytes :=
  splitSlash (p.bytes.drop p.head.length)

def isRedundant (segment : Bytes) : Bool :=
  segment == [] || segment == [dot]

def headComponents (head : Bytes) : List Component :=
  if head = [slash] then [.root] else if head = [dot] then [.current] else []

def segmentComponent? (segment : Bytes) : Option Component :=
  if isRedundant segment then none
  else if segment = [dot, dot] then some .parent
  else some (.name segment)

def components (p : Path) : List Component :=
  headComponents p.head ++ p.segments.filterMap segmentComponent?

def dropRedundantEnd (segments : List Bytes) : List Bytes :=
  (segments.reverse.dropWhile isRedundant).reverse

def joinSlash (segments : List Bytes) : Bytes :=
  [slash].intercalate segments

/-- The path without its last component; the root and the empty path have none. -/
def parent? (p : Path) : Option Path :=
  match (dropRedundantEnd p.segments).reverse with
  | [] => if p.head = [dot] then some ⟨[]⟩ else none
  | _ :: before => some ⟨p.head ++ joinSlash (dropRedundantEnd before.reverse)⟩

/-- The last component, if it is a name. -/
def fileName? (p : Path) : Option Bytes :=
  match p.components.getLast? with
  | some (.name n) => some n
  | _ => none

/-- An absolute `other` replaces the path; otherwise one slash parts the two. -/
def join (p : Path) (other : Bytes) : Path :=
  if other.head? = some slash ∨ p.bytes = [] then ⟨other⟩
  else if p.bytes.getLast? = some slash then ⟨p.bytes ++ other⟩
  else ⟨p.bytes ++ slash :: other⟩

/-- The components of `p` that follow those of `start`. -/
def stripPrefix? (p start : Path) : Option (List Component) :=
  strip p.components start.components
where
  strip : List Component → List Component → Option (List Component)
    | rest, [] => some rest
    | [], _ :: _ => none
    | a :: as, b :: bs => if a = b then strip as bs else none

def display (p : Path) : String := Utf8.display p.bytes

def quoted (p : Path) : String := Quoted.ofBytes p.bytes

/-- The text of a path that is valid UTF-8. -/
def text? (p : Path) : Option String := Utf8.decode? p.bytes

def isSeparator (c : Char) : Bool := c == '/' || c == '\\'

/-- Removes every separator that ends a text of more than one byte. -/
def trimSeparators (text : String) : String :=
  if text.utf8ByteSize > 1 then
    String.ofList ((text.toList.reverse.dropWhile isSeparator).reverse)
  else text

/-- Form C without separators at the end. -/
def normalizeText (text : String) : String :=
  trimSeparators (Nfc.normalize text)

end Path

/-- The display form of a file name. -/
def displayName (name : Bytes) : String :=
  Nfc.normalize (Utf8.display name)

namespace Path

def Component.displayName? : Component → Option String
  | .name n => some (displayName n)
  | _ => none

/-- The display names of the directories between `root` and `p`, each followed by a slash, after a
leading slash. A parent outside `root` is rendered whole. -/
def relativeParent (root p : Path) : String :=
  let parent := p.parent?.getD ⟨[]⟩
  let relative := (parent.stripPrefix? root).getD parent.components
  "/" ++ String.join ((relative.filterMap Component.displayName?).map (· ++ "/"))

end Path
end MerkleDir
