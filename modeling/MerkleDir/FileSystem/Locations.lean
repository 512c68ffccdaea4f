import MerkleDir.FileSystem.Basic

namespace MerkleDir

mutual

def Node.locations : Node → List Location
  | .directory _ entries => [] :: Node.entryLocations entries
  | _ => [[]]

def Node.entryLocations : List (Bytes × Node) → List Location
  | [] => []
  | (name, node) :: rest => node.locations.map (name :: ·) ++ Node.entryLocations rest

end

namespace Node

theorem nil_mem_locations (node : Node) : [] ∈ node.locations := by
  cases node <;> simp [locations]

theorem mem_entryLocations {entries : List (Bytes × Node)} {e : Bytes × Node} (he : e ∈ entries)
    {location : Location} (h : location ∈ e.2.locations) :
    e.1 :: location ∈ entryLocations entries := by
  induction entries with
  | nil => cases he
  | cons first rest ih =>
    rw [entryLocations]
    rcases List.mem_cons.mp he with rfl | he
    · exact List.mem_append_left _ (List.mem_map_of_mem h)
    · exact List.mem_append_right _ (ih he)

theorem mem_locations_of_descend? {node found : Node} {location : Location}
    (h : node.descend? location = some found) : location ∈ node.locations := by
  induction location generalizing node with
  | nil => exact nil_mem_locations node
  | cons name location ih =>
    rw [descend?] at h
    split at h
    · rename_i child hchild
      have hmem := mem_entries_of_child? hchild
      cases node with
      | directory isOpen entries => exact List.mem_cons_of_mem _ (mem_entryLocations hmem (ih h))
      | file => cases hmem
      | link => cases hmem
      | special => cases hmem
    · cases h

end Node

namespace FileSystem

def locations (fs : FileSystem) : List Location := fs.root.locations

theorem mem_locations {fs : FileSystem} {location : Location} {node : Node}
    (h : fs.nodeAt? location = some node) : location ∈ fs.locations :=
  Node.mem_locations_of_descend? h

end FileSystem
end MerkleDir
