import MerkleDir.Snapshot.Walk

namespace MerkleDir

structure SnapshotEntry where
  fileName : Bytes
  name : String
  path : Path
  kind : EntryKind
  modified : Timestamp
  digest : Digest

structure EntryStore where
  entries : List SnapshotEntry
  met : List Bytes

namespace EntryStore

def empty : EntryStore := ⟨[], []⟩

def lookup? (store : EntryStore) (fileName : Bytes) : Option SnapshotEntry :=
  store.entries.find? (·.fileName == fileName)

/-- Puts an entry at its place. An entry that has its name gives way to it. -/
def place (entry : SnapshotEntry) : List SnapshotEntry → List SnapshotEntry
  | [] => [entry]
  | other :: rest =>
    match Bytes.compare entry.fileName other.fileName with
    | .lt => entry :: other :: rest
    | .eq => entry :: rest
    | .gt => other :: place entry rest

/-- Only a name that is new is met. -/
def insert (store : EntryStore) (entry : SnapshotEntry) : EntryStore :=
  { entries := place entry store.entries
    met := if (store.lookup? entry.fileName).isNone then store.met ++ [entry.fileName]
      else store.met }

def ofEntries (walked : List SnapshotEntry) : EntryStore := walked.foldl insert empty

/-- The entries in the order of the leaves. -/
def leafEntries (store : EntryStore) : LeafOrder → List SnapshotEntry
  | .name => store.entries
  | .enumeration => store.met.filterMap store.lookup?

theorem ofEntries_append (walked : List SnapshotEntry) (entry : SnapshotEntry) :
    ofEntries (walked ++ [entry]) = (ofEntries walked).insert entry :=
  List.foldl_append

end EntryStore

/-- Leads from digests to names. A digest has one slot, and the newest name takes it. -/
structure DigestIndex where
  slots : List (Digest × Bytes)

namespace DigestIndex

def empty : DigestIndex := ⟨[]⟩

def insert (index : DigestIndex) (digest : Digest) (name : Bytes) : DigestIndex :=
  ⟨(digest, name) :: index.slots.filter (·.1 != digest)⟩

def lookup? (index : DigestIndex) (digest : Digest) : Option Bytes :=
  index.slots.lookup digest

theorem lookup?_empty (digest : Digest) : empty.lookup? digest = none := rfl

theorem lookup_filter_ne (slots : List (Digest × Bytes)) {digest d : Digest}
    (h : (d == digest) = false) : (slots.filter (·.1 != digest)).lookup d = slots.lookup d := by
  induction slots with
  | nil => rfl
  | cons slot slots ih =>
    rw [List.filter_cons, List.lookup_cons]
    cases hslot : slot.1 == digest with
    | true =>
      have hd : (d == slot.1) = false := by rw [← h]; exact BEq.congr_right hslot
      rw [bne, hslot, hd]
      exact ih
    | false =>
      rw [bne, hslot, Bool.not_false, if_pos rfl, List.lookup_cons, ih]

/-- A name that is entered takes the slot of its digest and no other. -/
theorem lookup?_insert (index : DigestIndex) (digest d : Digest) (name : Bytes) :
    (index.insert digest name).lookup? d = if d == digest then some name else index.lookup? d := by
  rw [lookup?, insert, List.lookup_cons]
  cases h : d == digest with
  | true => rfl
  | false => exact lookup_filter_ne index.slots h

end DigestIndex
end MerkleDir
