import MerkleDir.ChangeSet
import MerkleDir.Proofs.Snapshot.Taken
import MerkleDir.Proofs.Tree.Descent

namespace MerkleDir.ChangeSet

open Logged (result)

variable {algorithm : HashAlgorithm} {previous current : Snapshot}

theorem isMissing_iff {s : Snapshot} {e : SnapshotEntry} :
    isMissing s e = true ↔ ∀ f ∈ s.entries, f.fileName ≠ e.fileName := by
  simp [isMissing, Snapshot.entry?]

theorem isModified_iff {s : Snapshot} (hs : s.IsTaken algorithm) {e : SnapshotEntry} :
    isModified s e = true ↔
      ∃ f ∈ s.entries, f.fileName = e.fileName ∧ (f.digest != e.digest) = true := by
  simp only [isModified, Option.any_eq_true, hs.entry?_eq_some_iff, and_assoc]

/-- The entries of `s` at the leaves that a descent from a tree over `l` into one over `r` reaches.
-/
def foundEntries (algorithm : HashAlgorithm) (l r : List Digest) (s : Snapshot) :
    List SnapshotEntry :=
  ((MerkleTree.reachedLeaves algorithm l r).filterMap (r[·]?)).filterMap s.entryByDigest?

section Branches

variable {l r : List Digest} (hl : previous.tree = .ofLeaves algorithm l)
  (hr : current.tree = .ofLeaves algorithm r)

include hl hr

theorem result_changedEntries (hlen : l.length = r.length) :
    result (previous.changedEntries current) = .ok (foundEntries algorithm l r current) := by
  rw [Snapshot.changedEntries, Snapshot.changedDigests, hl, hr,
    MerkleTree.changedLeaves_ofLeaves hlen]
  simp only [Logged.result_bind]
  split <;> rfl

theorem result_changedEntries_of_length_ne (hlen : l.length ≠ r.length) :
    result (previous.changedEntries current) =
      .error (.shape ⟨previous.tree.levels, current.tree.levels⟩) := by
  rw [Snapshot.changedEntries, Snapshot.changedDigests, hl, hr,
    MerkleTree.changedLeaves_of_length_ne hlen]
  rfl

theorem value_between_of_length_eq (hd : previous.differsFrom current = true)
    (hlen : l.length = r.length) : (between previous current).value =
      ofCandidates previous current (foundEntries algorithm l r current)
        (foundEntries algorithm r l previous) := by
  have hboth : (changedBothWays previous current).run.value =
      .ok (foundEntries algorithm l r current, foundEntries algorithm r l previous) := by
    show result (changedBothWays previous current) = _
    rw [changedBothWays, Logged.result_bind, result_changedEntries hl hr hlen]
    show result _ = _
    rw [Logged.result_bind, result_changedEntries hr hl hlen.symm]
    rfl
  rw [between, if_pos hd, Logged.value_bind, hboth]
  rfl

/-- Trees of different shapes leave all entries to be compared by name. -/
theorem value_between_of_length_ne (hd : previous.differsFrom current = true)
    (hlen : l.length ≠ r.length) : (between previous current).value =
      ofCandidates previous current current.entries previous.entries := by
  have he := result_changedEntries_of_length_ne hl hr hlen
  have hboth : (changedBothWays previous current).run.value =
      .error (.shape ⟨previous.tree.levels, current.tree.levels⟩) := by
    show result (changedBothWays previous current) = _
    rw [changedBothWays, Logged.result_bind, he]
    rfl
  rw [between, if_pos hd, Logged.value_bind, hboth]
  rfl

end Branches

theorem value_between_of_same_digest (hd : previous.differsFrom current = false) :
    (between previous current).value = unchanged := by
  rw [between, hd]
  rfl

theorem foundEntries_subset {l r : List Digest} {s : Snapshot} :
    foundEntries algorithm l r s ⊆ s.entries := by
  intro e he
  obtain ⟨d, -, hd⟩ := List.mem_filterMap.mp he
  obtain ⟨name, -, hentry⟩ := Option.bind_eq_some_iff.mp hd
  exact List.mem_of_find?_eq_some hentry

/-- Every change set but the empty one is made of entries of the two snapshots. -/
theorem value_between_cases (hp : previous.IsTaken algorithm) (hc : current.IsTaken algorithm) :
    (between previous current).value = unchanged ∨ ∃ fresh ⊆ current.entries,
      ∃ stale ⊆ previous.entries,
        (between previous current).value = ofCandidates previous current fresh stale := by
  obtain ⟨order, -, -, hl⟩ := hp.tree
  obtain ⟨order', -, -, hr⟩ := hc.tree
  cases hd : previous.differsFrom current with
  | false => exact Or.inl (value_between_of_same_digest hd)
  | true =>
    rcases eq_or_ne (order.map (·.digest)).length (order'.map (·.digest)).length with hlen | hlen
    · exact Or.inr ⟨_, foundEntries_subset, _, foundEntries_subset,
        value_between_of_length_eq hl hr hd hlen⟩
    · exact Or.inr ⟨_, List.Subset.refl _, _, List.Subset.refl _,
        value_between_of_length_ne hl hr hd hlen⟩

end MerkleDir.ChangeSet
