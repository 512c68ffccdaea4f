import MerkleDir.FileSystem.Basic

namespace MerkleDir

namespace Node

def placeEntry (name : Bytes) (node : Node) : List (Bytes × Node) → List (Bytes × Node)
  | [] => [(name, node)]
  | entry :: rest =>
    if Bytes.compare name entry.1 = .gt then (name, node) :: entry :: rest
    else entry :: placeEntry name node rest

/-- Puts an entry at its place in the listing, over one of that name. -/
def insertEntry (name : Bytes) (node : Node) (entries : List (Bytes × Node)) :
    List (Bytes × Node) :=
  placeEntry name node (entries.filter (·.1 ≠ name))

def mapEntries (f : List (Bytes × Node) → List (Bytes × Node)) : Node → Node
  | .directory isOpen es => .directory isOpen (f es)
  | node => node

def modifyEntry (name : Bytes) (f : Node → Node) (entries : List (Bytes × Node)) :
    List (Bytes × Node) :=
  entries.map fun e => if e.1 = name then (e.1, f e.2) else e

/-- Changes the node that `names` lead to. -/
def modifyAt (f : Node → Node) : List Bytes → Node → Node
  | [], node => f node
  | name :: names, node => node.mapEntries (modifyEntry name (modifyAt f names))

def setModified (modified : Timestamp) : Node → Node
  | .file _ content => .file modified content
  | .link _ target => .link modified target
  | node => node

def setOpen (isOpen : Bool) : Node → Node
  | .directory _ es => .directory isOpen es
  | node => node

def addContent (content : Bytes) : Node → Node
  | .file modified old => .file modified (old ++ content)
  | node => node

/-- Changes that keep a node well-formed. -/
def Keeps (times : TimeRange) (f : Node → Node) : Prop :=
  ∀ node : Node, node.isWellFormed times = true → (f node).isWellFormed times = true

variable {times : TimeRange}

theorem keeps_mapEntries {f : List (Bytes × Node) → List (Bytes × Node)}
    (h : ∀ es, (es.map Prod.fst).Nodup →
      (∀ e ∈ es, isEntryName e.1 = true ∧ e.2.isWellFormed times = true) →
      ((f es).map Prod.fst).Nodup ∧
        ∀ e ∈ f es, isEntryName e.1 = true ∧ e.2.isWellFormed times = true) :
    Keeps times (mapEntries f) := by
  intro node hnode
  cases node with
  | directory isOpen es =>
    obtain ⟨hnames, hes⟩ := isWellFormed_directory.mp hnode
    exact isWellFormed_directory.mpr (h es hnames hes)
  | file => exact hnode
  | link => exact hnode
  | special => exact hnode

theorem placeEntry_perm (name : Bytes) (node : Node) (es : List (Bytes × Node)) :
    (placeEntry name node es).Perm ((name, node) :: es) := by
  induction es with
  | nil => exact .refl _
  | cons e es ih =>
    rw [placeEntry]
    split
    · exact .refl _
    · exact (ih.cons e).trans (.swap _ _ _)

theorem keeps_insertEntry {name : Bytes} {node : Node} (hname : isEntryName name = true)
    (hnode : node.isWellFormed times = true) :
    Keeps times (mapEntries (insertEntry name node)) := by
  apply keeps_mapEntries
  intro es hnames hes
  have hperm := placeEntry_perm name node (es.filter (·.1 ≠ name))
  refine ⟨((hperm.map Prod.fst).nodup_iff).mpr (List.nodup_cons.mpr ⟨?_, ?_⟩), fun e he => ?_⟩
  · simp
  · exact hnames.sublist (List.filter_sublist.map Prod.fst)
  · rcases List.mem_cons.mp (hperm.mem_iff.mp he) with rfl | he
    · exact ⟨hname, hnode⟩
    · exact hes e (List.mem_filter.mp he).1

theorem keeps_filter (p : Bytes × Node → Bool) : Keeps times (mapEntries (·.filter p)) := by
  apply keeps_mapEntries
  intro es hnames hes
  exact ⟨hnames.sublist (List.filter_sublist.map Prod.fst),
    fun e he => hes e (List.mem_filter.mp he).1⟩

theorem keeps_modifyEntry {f : Node → Node} (hf : Keeps times f) (name : Bytes) :
    Keeps times (mapEntries (modifyEntry name f)) := by
  apply keeps_mapEntries
  intro es hnames hes
  have hkept : (modifyEntry name f es).map Prod.fst = es.map Prod.fst := by
    rw [modifyEntry, List.map_map]
    apply List.map_congr_left
    intro e _
    simp only [Function.comp]
    split <;> rfl
  refine ⟨hkept ▸ hnames, fun e he => ?_⟩
  obtain ⟨e', he', rfl⟩ := List.mem_map.mp he
  split
  · exact ⟨(hes e' he').1, hf _ (hes e' he').2⟩
  · exact hes e' he'

theorem keeps_modifyAt {f : Node → Node} (hf : Keeps times f) (names : List Bytes) :
    Keeps times (modifyAt f names) := by
  induction names with
  | nil => exact hf
  | cons name names ih => exact keeps_modifyEntry ih name

theorem keeps_const {node : Node} (h : node.isWellFormed times = true) :
    Keeps times fun _ => node :=
  fun _ _ => h

theorem keeps_setModified {modified : Timestamp} (hmodified : times.holds modified = true) :
    Keeps times (setModified modified) := by
  intro node h
  cases node with
  | file => exact hmodified
  | link => exact Bool.and_eq_true_iff.mpr ⟨hmodified, (Bool.and_eq_true_iff.mp h).2⟩
  | special => exact h
  | directory => exact h

theorem keeps_setOpen (isOpen : Bool) : Keeps times (setOpen isOpen) := by
  intro node h
  cases node with
  | file => exact h
  | link => exact h
  | special => exact h
  | directory => exact h

theorem keeps_addContent (content : Bytes) : Keeps times (addContent content) := by
  intro node h
  cases node with
  | file => exact h
  | link => exact h
  | special => exact h
  | directory => exact h

end Node

namespace FileSystem

def modifyAt (fs : FileSystem) (location : Location) (f : Node → Node)
    (hf : Node.Keeps fs.times f) : FileSystem :=
  ⟨fs.times, fs.root.modifyAt f location, Node.keeps_modifyAt hf location _ fs.isWellFormed⟩

/-- Puts an entry into a directory. A name that no entry can have, or a node that is not well-formed,
changes nothing. -/
def insert (fs : FileSystem) (directory : Location) (name : Bytes) (node : Node) : FileSystem :=
  if h : Node.isEntryName name = true ∧ node.isWellFormed fs.times = true then
    fs.modifyAt directory (·.mapEntries (Node.insertEntry name node))
      (Node.keeps_insertEntry h.1 h.2)
  else fs

def erase (fs : FileSystem) (location : Location) : FileSystem :=
  match location.getLast? with
  | some name =>
    fs.modifyAt location.dropLast (·.mapEntries (·.filter (·.1 ≠ name))) (Node.keeps_filter _)
  | none => fs

/-- The path without the slashes that end it, as far as it has anything else. -/
def withoutEndSlashes (path : Path) : Path :=
  let trimmed := (path.bytes.reverse.dropWhile (· = Path.slash)).reverse
  if trimmed = [] then path else ⟨trimmed⟩

def makeDirectory (fs : FileSystem) (path : Path) : Except OsError FileSystem :=
  match fs.resolve (withoutEndSlashes path) false with
  | .ok (.found _) => .error .fileExists
  | .ok (.absent directory name) => .ok (fs.insert directory name .emptyDirectory)
  | .error e => .error e

/-- A directory that exists already is as good as one that was made. -/
def makeDirectoryOrKeep (fs : FileSystem) (path : Path) : Except OsError FileSystem :=
  match fs.makeDirectory path with
  | .ok made => .ok made
  | .error e => if fs.isDirectory path then .ok fs else .error e

/-- Makes a directory with those above it; `fuel` bounds their number. -/
def makeDirectoriesUpTo : Nat → FileSystem → Path → Except OsError FileSystem
  | 0, _, _ => .error .noAncestor
  | fuel + 1, fs, path =>
    if path.bytes = [] then .ok fs
    else match fs.makeDirectoryOrKeep path with
      | .error .notFound =>
        match path.parent? with
        | none => .error .noAncestor
        | some parent =>
          match makeDirectoriesUpTo fuel fs parent with
          | .ok fs => fs.makeDirectoryOrKeep path
          | .error e => .error e
      | result => result

/-- Every step up shortens the path. -/
def makeDirectories (fs : FileSystem) (path : Path) : Except OsError FileSystem :=
  makeDirectoriesUpTo (path.bytes.length + 1) fs path

/-- Where a file at `path` is, or would be created. -/
def resolveFile (fs : FileSystem) (path : Path) : Except OsError Resolution :=
  match fs.resolve path true with
  | .ok (.absent directory name) =>
    if endsInSlash path.bytes then .error .isADirectory else .ok (.absent directory name)
  | .ok (.found location) =>
    match fs.nodeAt? location with
    | some (.directory _ _) => .error .isADirectory
    | some .special => .error .noDevice
    | _ => .ok (.found location)
  | .error e => .error e

/-- Writes to a file, created with time `modified` if it does not exist. -/
def updateFile (fs : FileSystem) (path : Path) (modified : Timestamp) (f : Node → Node)
    (hf : Node.Keeps fs.times f) : Except OsError FileSystem :=
  match fs.resolveFile path with
  | .ok (.found location) => .ok (fs.modifyAt location f hf)
  | .ok (.absent directory name) =>
    .ok (fs.insert directory name (f (.file (fs.times.record modified) [])))
  | .error e => .error e

def storeFile (fs : FileSystem) (path : Path) (modified : Timestamp) (content : Bytes) :
    Except OsError FileSystem :=
  fs.updateFile path modified (fun _ => .file (fs.times.record modified) content)
    (Node.keeps_const (fs.times.holds_record modified))

/-- Adds to the end of a file. -/
def appendFile (fs : FileSystem) (path : Path) (modified : Timestamp) (content : Bytes) :
    Except OsError FileSystem :=
  fs.updateFile path modified (Node.addContent content) (Node.keeps_addContent content)

def fileContent (fs : FileSystem) (path : Path) : Except OsError Bytes :=
  match fs.stat path with
  | .ok (.file _ content) => .ok content
  | .ok .special => .error .noDevice
  | .ok _ => .error .isADirectory
  | .error e => .error e

/-- Puts a node at a path, over anything but a directory. -/
def place (fs : FileSystem) (path : Path) (node : Node) : Except OsError FileSystem :=
  match fs.resolve path false with
  | .ok (.absent directory name) => .ok (fs.insert directory name node)
  | .ok (.found _) => .error .fileExists
  | .error e => .error e

def storeLink (fs : FileSystem) (path : Path) (modified : Timestamp) (target : Bytes) :
    Except OsError FileSystem :=
  fs.place path (.link (fs.times.record modified) target)

def touch (fs : FileSystem) (path : Path) (modified : Timestamp) : Except OsError FileSystem :=
  (fs.locate path true).map fun location =>
    fs.modifyAt location (·.setModified (fs.times.record modified))
      (Node.keeps_setModified (fs.times.holds_record modified))

def setOpen (fs : FileSystem) (path : Path) (isOpen : Bool) : Except OsError FileSystem :=
  (fs.locate path true).map fun location =>
    fs.modifyAt location (·.setOpen isOpen) (Node.keeps_setOpen isOpen)

def remove (fs : FileSystem) (path : Path) : Except OsError FileSystem :=
  (fs.locate path false).map fs.erase

/-- Moves a node with all that is below it, over what stands at the new place. -/
def rename (fs : FileSystem) (source target : Path) : Except OsError FileSystem := do
  let location ← fs.locate source false
  match fs.nodeAt? location with
  | none => .error .notFound
  | some node =>
    match ← fs.resolve (withoutEndSlashes target) false with
    | .absent directory name => .ok ((fs.erase location).insert directory name node)
    | .found target =>
      match target.getLast? with
      | some name => .ok ((fs.erase location).insert target.dropLast name node)
      | none => .error .fileExists

end FileSystem
end MerkleDir
