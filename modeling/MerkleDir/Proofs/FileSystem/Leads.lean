import Mathlib
import MerkleDir.FileSystem.Basic

/-!
# Where segments lead

Segments lead from a directory to a place, over a number of links. The number tells how many links
have to be left to get there, and nothing else about the way matters to what comes after it.
-/
namespace MerkleDir

variable {times : TimeRange}

theorem Node.nodup_names {node : Node} (h : node.isWellFormed times = true) :
    (node.entries.map Prod.fst).Nodup := by
  cases node with
  | directory isOpen es => exact (isWellFormed_directory.mp h).1
  | file => exact List.nodup_nil
  | link => exact List.nodup_nil
  | special => exact List.nodup_nil

theorem Node.child?_of_mem {node child : Node} (h : node.isWellFormed times = true) {name : Bytes}
    (hmem : (name, child) ∈ node.entries) : node.child? name = some child := by
  have hnames := nodup_names h
  rw [child?]
  generalize node.entries = entries at hmem hnames ⊢
  induction entries with
  | nil => cases hmem
  | cons e es ih =>
    rw [List.map_cons, List.nodup_cons] at hnames
    rcases List.mem_cons.mp hmem with rfl | hmem
    · exact List.lookup_cons_self
    · have hne : (name == e.1) = false := by
        rw [beq_eq_false_iff_ne]
        rintro rfl
        exact hnames.1 (List.mem_map.mpr ⟨_, hmem, rfl⟩)
      rw [List.lookup_cons, hne]
      exact ih hmem hnames.2

namespace FileSystem

variable {fs : FileSystem}

def linkStart (here : Location) (target : Bytes) : Location :=
  if startsAtRoot target then [] else here

def IsLookedUp (name : Bytes) : Prop :=
  name ≠ [Path.dot] ∧ name ≠ [Path.dot, Path.dot] ∧ name.length ≤ nameLimit

/-- Segments lead from one location to another, all links followed; the number counts these. -/
inductive Leads (fs : FileSystem) : Location → List Bytes → Nat → Location → Prop
  | here (location : Location) : Leads fs location [] 0 location
  | current {here location : Location} {rest : List Bytes} {n : Nat} {directory : Node}
      (hsearch : fs.search here = .ok directory) (hrest : Leads fs here rest n location) :
      Leads fs here ([Path.dot] :: rest) n location
  | parent {here location : Location} {rest : List Bytes} {n : Nat} {directory : Node}
      (hsearch : fs.search here = .ok directory) (hrest : Leads fs here.dropLast rest n location) :
      Leads fs here ([Path.dot, Path.dot] :: rest) n location
  | entry {here location : Location} {name : Bytes} {rest : List Bytes} {n : Nat}
      {directory node : Node} (hname : IsLookedUp name) (hsearch : fs.search here = .ok directory)
      (hchild : directory.child? name = some node) (hnode : node.isLink = false)
      (hrest : Leads fs (here ++ [name]) rest n location) :
      Leads fs here (name :: rest) n location
  | link {here middle location : Location} {name : Bytes} {rest : List Bytes} {m n : Nat}
      {directory : Node} {modified : Timestamp} {target : Bytes} (hname : IsLookedUp name)
      (hsearch : fs.search here = .ok directory)
      (hchild : directory.child? name = some (.link modified target))
      (htarget : Leads fs (linkStart here target) (pathSegments target) m middle)
      (hrest : Leads fs middle rest n location) :
      Leads fs here (name :: rest) (m + n + 1) location

theorem Leads.exists_of_append {here location : Location} {before after : List Bytes} {k : Nat}
    (h : Leads fs here (before ++ after) k location) :
    ∃ m n middle, Leads fs here before m middle ∧ Leads fs middle after n location ∧ k = m + n := by
  induction before generalizing here k with
  | nil => exact ⟨0, k, here, .here here, h, (Nat.zero_add k).symm⟩
  | cons name before ih =>
    cases h with
    | current hsearch hrest =>
      obtain ⟨m, n, middle, hbefore, hafter, rfl⟩ := ih hrest
      exact ⟨m, n, middle, .current hsearch hbefore, hafter, rfl⟩
    | parent hsearch hrest =>
      obtain ⟨m, n, middle, hbefore, hafter, rfl⟩ := ih hrest
      exact ⟨m, n, middle, .parent hsearch hbefore, hafter, rfl⟩
    | entry hname hsearch hchild hnode hrest =>
      obtain ⟨m, n, middle, hbefore, hafter, rfl⟩ := ih hrest
      exact ⟨m, n, middle, .entry hname hsearch hchild hnode hbefore, hafter, rfl⟩
    | @link _ _ _ _ _ l _ _ _ _ hname hsearch hchild htarget hrest =>
      obtain ⟨m, n, middle, hbefore, hafter, rfl⟩ := ih hrest
      exact ⟨l + m + 1, n, middle, .link hname hsearch hchild htarget hbefore, hafter, by omega⟩

theorem Leads.eq_of_dots {here location : Location} {dots : List Bytes} {n : Nat}
    (hdots : ∀ s ∈ dots, s = [Path.dot]) (h : Leads fs here dots n location) :
    here = location ∧ n = 0 := by
  induction dots generalizing here n with
  | nil =>
    cases h
    exact ⟨rfl, rfl⟩
  | cons s dots ih =>
    obtain rfl := hdots s List.mem_cons_self
    have hrest := fun t ht => hdots t (List.mem_cons_of_mem _ ht)
    cases h with
    | current _ h => exact ih hrest h
    | entry hname => exact absurd rfl hname.1
    | link hname => exact absurd rfl hname.1

def IsPlace (fs : FileSystem) (location : Location) : Prop :=
  ∃ node, fs.nodeAt? location = some node ∧ node.isLink = false

theorem nodeAt?_append_singleton {here : Location} {directory : Node}
    (hsearch : fs.search here = .ok directory) (name : Bytes) :
    fs.nodeAt? (here ++ [name]) = directory.child? name := by
  obtain ⟨es, hnode, rfl⟩ := search_eq_ok_iff.mp hsearch
  rw [nodeAt?] at hnode
  rw [nodeAt?, Node.descend?_append, hnode, Option.bind_some, Node.descend?]
  cases Node.child? (.directory true es) name <;> rfl

theorem isWellFormed_of_search {location : Location} {directory : Node}
    (h : fs.search location = .ok directory) : directory.isWellFormed fs.times = true := by
  obtain ⟨es, hnode, rfl⟩ := search_eq_ok_iff.mp h
  exact isWellFormed_of_nodeAt? hnode

theorem isPlace_of_search {location : Location} {directory : Node}
    (h : fs.search location = .ok directory) : fs.IsPlace location := by
  obtain ⟨es, hnode, -⟩ := search_eq_ok_iff.mp h
  exact ⟨_, hnode, rfl⟩

theorem IsPlace.of_append_singleton {here : Location} {name : Bytes} {node : Node}
    (h : fs.nodeAt? (here ++ [name]) = some node) : fs.IsPlace here := by
  rw [nodeAt?, Node.descend?_append] at h
  obtain ⟨parent, hparent, h⟩ := Option.bind_eq_some_iff.mp h
  refine ⟨parent, hparent, ?_⟩
  cases parent with
  | link => cases h
  | file => rfl
  | special => rfl
  | directory => rfl

theorem IsPlace.dropLast {location : Location} (h : fs.IsPlace location) :
    fs.IsPlace location.dropLast := by
  rcases List.eq_nil_or_concat' location with rfl | ⟨before, name, rfl⟩
  · exact h
  · rw [List.dropLast_concat]
    obtain ⟨node, hnode, -⟩ := h
    exact .of_append_singleton hnode

theorem IsPlace.root {location : Location} (h : fs.IsPlace location) : fs.IsPlace [] := by
  induction location using List.reverseRecOn with
  | nil => exact h
  | append_singleton before name ih =>
    obtain ⟨node, hnode, -⟩ := h
    exact ih (.of_append_singleton hnode)

theorem Leads.isPlace {here location : Location} {segments : List Bytes} {n : Nat}
    (h : Leads fs here segments n location) (hhere : fs.IsPlace here) : fs.IsPlace location := by
  induction h with
  | here => exact hhere
  | current _ _ ih => exact ih hhere
  | parent _ _ ih => exact ih hhere.dropLast
  | entry _ hsearch hchild hnode _ ih =>
    exact ih ⟨_, (nodeAt?_append_singleton hsearch _).trans hchild, hnode⟩
  | link _ _ _ _ _ ihtarget ihrest =>
    refine ihrest (ihtarget ?_)
    rw [linkStart]
    split_ifs
    · exact hhere.root
    · exact hhere

theorem Leads.isEntryName {here location : Location} {segments : List Bytes} {n : Nat}
    (h : Leads fs here segments n location) (hhere : ∀ name ∈ here, Node.isEntryName name = true) :
    ∀ name ∈ location, Node.isEntryName name = true := by
  induction h with
  | here => exact hhere
  | current _ _ ih => exact ih hhere
  | parent _ _ ih => exact ih fun name hname => hhere name (List.dropLast_subset _ hname)
  | entry _ hsearch hchild _ _ ih =>
    obtain ⟨es, hnode, rfl⟩ := search_eq_ok_iff.mp hsearch
    have hwell := isWellFormed_of_nodeAt? hnode
    refine ih fun name hname => ?_
    rcases List.mem_append.mp hname with hname | hname
    · exact hhere name hname
    · obtain rfl := List.mem_singleton.mp hname
      exact (Node.isWellFormed_of_mem hwell (Node.mem_entries_of_child? hchild)).1
  | link _ _ _ _ _ ihtarget ihrest =>
    refine ihrest (ihtarget ?_)
    rw [linkStart]
    split_ifs
    · exact nofun
    · exact hhere

end FileSystem
end MerkleDir
