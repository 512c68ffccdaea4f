import MerkleDir.FileSystem.OsError
import MerkleDir.FileSystem.TimeRange
import MerkleDir.Path

/-!
# File systems

A file system is a tree of named nodes. A path is resolved segment by segment from the root, which is
also the working directory; links are followed on the way, and the place reached is named by the raw
names that lead to it from the root without any link.
-/
namespace MerkleDir

inductive Node where
  | file (modified : Timestamp) (content : Bytes)
  | link (modified : Timestamp) (target : Bytes)
  | special
  | directory (isOpen : Bool) (entries : List (Bytes × Node))

namespace Node

instance : Inhabited Node := ⟨.special⟩

def emptyDirectory : Node := .directory true []

def isDirectory : Node → Bool
  | .directory _ _ => true
  | _ => false

def isLink : Node → Bool
  | .link _ _ => true
  | _ => false

/-- The entries of a directory in the order in which they are listed. -/
def entries : Node → List (Bytes × Node)
  | .directory _ es => es
  | _ => []

def child? (node : Node) (name : Bytes) : Option Node :=
  List.lookup name node.entries

/-- The node that `names` lead to. -/
def descend? : Node → List Bytes → Option Node
  | node, [] => some node
  | node, name :: names =>
    match node.child? name with
    | some child => child.descend? names
    | none => none

theorem descend?_append (node : Node) (before after : List Bytes) :
    node.descend? (before ++ after) = (node.descend? before).bind (Node.descend? · after) := by
  induction before generalizing node with
  | nil => rfl
  | cons name before ih =>
    rw [List.cons_append, Node.descend?, Node.descend?]
    cases node.child? name with
    | none => rfl
    | some child => exact ih child

/-- An entry has a name without slashes that is neither empty nor `.` or `..`. -/
def isEntryName (name : Bytes) : Bool :=
  name ≠ [] && !name.contains Path.slash && name ≠ [Path.dot] && name ≠ [Path.dot, Path.dot]

theorem isEntryName_iff {name : Bytes} : isEntryName name = true ↔
    name ≠ [] ∧ Path.slash ∉ name ∧ name ≠ [Path.dot] ∧ name ≠ [Path.dot, Path.dot] := by
  simp [isEntryName, and_assoc]

mutual

/-- Whether all directories from a node on hold entries of different names, all times are recorded ones,
and no link leads to the empty path. -/
def isWellFormed (times : TimeRange) : Node → Bool
  | .file modified _ => times.holds modified
  | .link modified target => times.holds modified && target ≠ []
  | .special => true
  | .directory _ es => decide (es.map Prod.fst).Nodup && areWellFormed times es

def areWellFormed (times : TimeRange) : List (Bytes × Node) → Bool
  | [] => true
  | (name, node) :: rest =>
    isEntryName name && node.isWellFormed times && areWellFormed times rest

end

variable {times : TimeRange}

theorem areWellFormed_iff {es : List (Bytes × Node)} : areWellFormed times es = true ↔
    ∀ e ∈ es, isEntryName e.1 = true ∧ e.2.isWellFormed times = true := by
  induction es with
  | nil => simp [areWellFormed]
  | cons e es ih => simp [areWellFormed, ih, and_assoc]

theorem isWellFormed_directory {isOpen : Bool} {es : List (Bytes × Node)} :
    (Node.directory isOpen es).isWellFormed times = true ↔ (es.map Prod.fst).Nodup ∧
      ∀ e ∈ es, isEntryName e.1 = true ∧ e.2.isWellFormed times = true := by
  simp [isWellFormed, areWellFormed_iff]

theorem mem_entries_of_child? {node child : Node} {name : Bytes}
    (h : node.child? name = some child) : (name, child) ∈ node.entries := by
  rw [child?] at h
  generalize node.entries = entries at h ⊢
  induction entries with
  | nil => cases h
  | cons e es ih =>
    obtain ⟨n, c⟩ := e
    rw [List.lookup_cons] at h
    split at h
    · rename_i hn
      rw [eq_of_beq hn, Option.some.inj h]
      exact List.mem_cons_self
    · exact List.mem_cons_of_mem _ (ih h)

theorem isWellFormed_of_mem {node : Node} (h : node.isWellFormed times = true) {e : Bytes × Node}
    (he : e ∈ node.entries) : isEntryName e.1 = true ∧ e.2.isWellFormed times = true := by
  cases node with
  | directory isOpen es => exact (isWellFormed_directory.mp h).2 e he
  | file => cases he
  | link => cases he
  | special => cases he

theorem isWellFormed_of_descend? {node found : Node} (h : node.isWellFormed times = true)
    {names : List Bytes} (hfound : node.descend? names = some found) :
    found.isWellFormed times = true := by
  induction names generalizing node with
  | nil =>
    rw [descend?, Option.some_inj] at hfound
    exact hfound ▸ h
  | cons name names ih =>
    rw [descend?] at hfound
    split at hfound
    · rename_i child hchild
      exact ih (isWellFormed_of_mem h (mem_entries_of_child? hchild)).2 hfound
    · cases hfound

end Node

/-- The names that lead to a node from the root. -/
abbrev Location := List Bytes

structure FileSystem where
  times : TimeRange
  root : Node
  isWellFormed : root.isWellFormed times = true

namespace FileSystem

def empty : FileSystem := ⟨.bits34, .emptyDirectory, rfl⟩

instance : Inhabited FileSystem := ⟨empty⟩

def nodeAt? (fs : FileSystem) (location : Location) : Option Node :=
  fs.root.descend? location

theorem isWellFormed_of_nodeAt? {fs : FileSystem} {location : Location} {node : Node}
    (h : fs.nodeAt? location = some node) : node.isWellFormed fs.times = true :=
  Node.isWellFormed_of_descend? fs.isWellFormed h

def nameLimit : Nat := 255
def pathLimit : Nat := 4096
def linkLimit : Nat := 40

/-- A last segment that does not exist still has a directory to be created in. -/
inductive Resolution where
  | found (location : Location)
  | absent (directory : Location) (name : Bytes)
  deriving DecidableEq, Repr

/-- Whether a directory may be searched. -/
def search (fs : FileSystem) (location : Location) : Except OsError Node :=
  match fs.nodeAt? location with
  | some (.directory true es) => .ok (.directory true es)
  | some (.directory false _) => .error .permissionDenied
  | some _ => .error .notADirectory
  | none => .error .notFound

theorem search_eq_ok_iff {fs : FileSystem} {location : Location} {node : Node} :
    fs.search location = .ok node ↔
      ∃ es, fs.nodeAt? location = some (.directory true es) ∧ node = .directory true es := by
  cases h : fs.nodeAt? location with
  | none => simp [search, h]
  | some found =>
    cases found with
    | directory isOpen es => cases isOpen <;> simp [search, h, eq_comm]
    | file => simp [search, h]
    | link => simp [search, h]
    | special => simp [search, h]

/-- The segments of a path without the empty ones. -/
def pathSegments (bytes : Bytes) : List Bytes :=
  (Path.splitSlash bytes).filter (· ≠ [])

def endsInSlash (bytes : Bytes) : Bool := bytes.getLast? == some Path.slash

def startsAtRoot (bytes : Bytes) : Bool := bytes.head? == some Path.slash

/-- What is asked of the last segment: whether a link there is followed, and whether it has to be a
directory, which a slash after it demands. -/
structure LastSegment where
  follow : Bool
  directory : Bool

/-- Checks a last segment that has to be a directory, though not one that may be searched. -/
def arrive (fs : FileSystem) (last : LastSegment) (location : Location) :
    Except OsError Resolution :=
  if last.directory then
    match fs.nodeAt? location with
    | some (.directory _ _) => .ok (.found location)
    | some _ => .error .notADirectory
    | none => .error .notFound
  else .ok (.found location)

/-- Resolves `todo` from the directory at `here`, with `links` links left to follow. -/
def resolveFrom (fs : FileSystem) (links : Nat) (here : Location) (todo : List Bytes)
    (last : LastSegment) : Except OsError Resolution :=
  match todo with
  | [] => .ok (.found here)
  | name :: rest =>
    match fs.search here with
    | .error e => .error e
    | .ok directory =>
      if name = [Path.dot] then fs.resolveFrom links here rest last
      else if name = [Path.dot, Path.dot] then fs.resolveFrom links here.dropLast rest last
      else if nameLimit < name.length then .error .nameTooLong
      else
        match directory.child? name with
        | none => if rest = [] then .ok (.absent here name) else .error .notFound
        | some (.link _ target) =>
          if rest = [] ∧ ¬ last.follow ∧ ¬ last.directory then .ok (.found (here ++ [name]))
          else
            match links with
            | 0 => .error .tooManyLinks
            | links + 1 =>
              fs.resolveFrom links (if startsAtRoot target then [] else here)
                (pathSegments target ++ rest)
                (if rest = [] then ⟨true, last.directory || endsInSlash target⟩ else last)
        | some _ =>
          if rest = [] then fs.arrive last (here ++ [name])
          else fs.resolveFrom links (here ++ [name]) rest last
  termination_by (links, todo.length)

/-- Resolves a path as a whole, after the tests that its bytes have to pass. -/
def resolve (fs : FileSystem) (path : Path) (followLast : Bool) : Except OsError Resolution :=
  if path.bytes.contains 0 then .error .nulByte
  else if path.bytes = [] then .error .notFound
  else if pathLimit ≤ path.bytes.length then .error .nameTooLong
  else fs.resolveFrom linkLimit [] (pathSegments path.bytes) ⟨followLast, endsInSlash path.bytes⟩

def locate (fs : FileSystem) (path : Path) (followLast : Bool) : Except OsError Location :=
  match fs.resolve path followLast with
  | .ok (.found location) => .ok location
  | .ok (.absent _ _) => .error .notFound
  | .error e => .error e

def nodeOf (fs : FileSystem) (path : Path) (followLast : Bool) : Except OsError Node :=
  match fs.locate path followLast with
  | .ok location => (fs.nodeAt? location).elim (.error .notFound) .ok
  | .error e => .error e

theorem nodeOf_eq_ok_iff {fs : FileSystem} {path : Path} {followLast : Bool} {node : Node} :
    fs.nodeOf path followLast = .ok node ↔
      ∃ location, fs.locate path followLast = .ok location ∧ fs.nodeAt? location = some node := by
  rw [nodeOf]
  cases fs.locate path followLast with
  | error e => exact ⟨nofun, nofun⟩
  | ok location => cases h : fs.nodeAt? location <;> simp [h]

/-- The node a path leads to, links followed. -/
def stat (fs : FileSystem) (path : Path) : Except OsError Node := fs.nodeOf path true

theorem stat_of_locate {fs : FileSystem} {path : Path} {location : Location} {node : Node}
    (h : fs.locate path true = .ok location) (hnode : fs.nodeAt? location = some node) :
    fs.stat path = .ok node := by
  simp only [stat, nodeOf, h, hnode, Option.elim_some]

/-- The node a path names, a link at its end not followed. -/
def lstat (fs : FileSystem) (path : Path) : Except OsError Node := fs.nodeOf path false

def isDirectory (fs : FileSystem) (path : Path) : Bool :=
  match fs.stat path with
  | .ok node => node.isDirectory
  | .error _ => false

def readLink (fs : FileSystem) (path : Path) : Except OsError Bytes :=
  match fs.lstat path with
  | .ok (.link _ target) => .ok target
  | .ok _ => .error .notFound
  | .error e => .error e

/-- The entries of a directory, in the order of its listing. -/
def list (fs : FileSystem) (path : Path) : Except OsError (List (Bytes × Node)) :=
  match fs.locate path true with
  | .ok location => (fs.search location).map Node.entries
  | .error e => .error e

theorem list_eq_ok_iff {fs : FileSystem} {path : Path} {es : List (Bytes × Node)} :
    fs.list path = .ok es ↔ ∃ location, fs.locate path true = .ok location ∧
      fs.nodeAt? location = some (.directory true es) := by
  cases hlocate : fs.locate path true with
  | error e => simp [list, hlocate]
  | ok location =>
    cases hsearch : fs.search location with
    | error e =>
      have hnone : fs.nodeAt? location ≠ some (.directory true es) := by
        intro h
        rw [search_eq_ok_iff.mpr ⟨es, h, rfl⟩] at hsearch
        cases hsearch
      simp [list, hlocate, hsearch, hnone, Except.map]
    | ok node =>
      obtain ⟨es', hes', rfl⟩ := search_eq_ok_iff.mp hsearch
      simp [list, hlocate, hsearch, hes', Node.entries, Except.map]

/-- The absolute path of a location. -/
def absolutePath : Location → Path
  | [] => ⟨[Path.slash]⟩
  | names => ⟨names.flatMap (Path.slash :: ·)⟩

/-- The place that a path is made canonical for. Here a slash at the end asks for a directory that may
be searched. -/
def canonicalLocation (fs : FileSystem) (path : Path) : Except OsError Location :=
  match fs.locate path true with
  | .ok location =>
    if endsInSlash path.bytes then (fs.search location).map fun _ => location else .ok location
  | .error e => .error e

theorem canonicalLocation_of_locate {fs : FileSystem} {path : Path} {location : Location}
    {node : Node} (h : fs.locate path true = .ok location) (hsearch : fs.search location = .ok node) :
    fs.canonicalLocation path = .ok location := by
  simp only [canonicalLocation, h, hsearch, Except.map, ite_self]

theorem canonicalLocation_of_list {fs : FileSystem} {path : Path} {location : Location}
    {es : List (Bytes × Node)} (h : fs.locate path true = .ok location) (hlist : fs.list path = .ok es) :
    fs.canonicalLocation path = .ok location := by
  obtain ⟨listed, hlisted, hnode⟩ := list_eq_ok_iff.mp hlist
  obtain rfl := Except.ok.inj (h.symm.trans hlisted)
  exact canonicalLocation_of_locate h (search_eq_ok_iff.mpr ⟨es, hnode, rfl⟩)

theorem locate_of_canonicalLocation {fs : FileSystem} {path : Path} {location : Location}
    (h : fs.canonicalLocation path = .ok location) : fs.locate path true = .ok location := by
  rw [canonicalLocation] at h
  split at h
  · rename_i found hlocate
    rw [hlocate]
    split at h
    · cases hsearch : fs.search found with
      | error e =>
        rw [hsearch] at h
        cases h
      | ok node =>
        rw [hsearch] at h
        exact h
    · exact h
  · cases h

/-- The absolute path without links, `.` and `..` that leads to the same place. -/
def canonicalize (fs : FileSystem) (path : Path) : Except OsError Path :=
  (fs.canonicalLocation path).map absolutePath

end FileSystem
end MerkleDir
