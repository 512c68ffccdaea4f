import MerkleDir.Proofs.Snapshot.Records
import MerkleDir.Proofs.Table

/-!
# Histories of snapshots

A program makes snapshots, copies them, changes their policies and enumerates directories, now and
then in vain. Whatever it does, a snapshot is what its last successful enumeration took, but for the
policy.
-/
namespace MerkleDir.Snapshot

open Logged (result)

structure Enumeration where
  fs : FileSystem
  options : SnapshotOptions
  root : Path

/-- A snapshot and the last enumeration that has succeeded on it. -/
structure Held where
  snapshot : Snapshot
  last : Option Enumeration

/-- What a program may do with the snapshots it holds. The file system is the one that an
enumeration sees. -/
inductive Action where
  | create (options : SnapshotOptions)
  | clone (place : Nat)
  | setSymlinkPolicy (place : Nat) (policy : SymlinkPolicy)
  | enumerate (place : Nat) (fs : FileSystem) (root : Path)

namespace Held

def setSymlinkPolicy (held : Held) (policy : SymlinkPolicy) : Held :=
  ⟨held.snapshot.setSymlinkPolicy policy, held.last⟩

def enumerate (algorithm : HashAlgorithm) (held : Held) (fs : FileSystem) (root : Path) : Held :=
  match (Snapshot.enumerate algorithm fs held.snapshot root).value with
  | (next, .ok _) => ⟨next, some ⟨fs, held.snapshot.options, root⟩⟩
  | (next, .error _) => ⟨next, held.last⟩

end Held

def perform (algorithm : HashAlgorithm) (held : List Held) : Action → List Held
  | .create options => held ++ [⟨initial options, none⟩]
  | .clone place => held ++ held[place]?.toList
  | .setSymlinkPolicy place policy => held.modify place (·.setSymlinkPolicy policy)
  | .enumerate place fs root => held.modify place (·.enumerate algorithm fs root)

def history (algorithm : HashAlgorithm) (actions : List Action) : List Held :=
  actions.foldl (perform algorithm) []

variable {algorithm : HashAlgorithm}

theorem value_enumerate (fs : FileSystem) (s : Snapshot) (root : Path) :
    (enumerate algorithm fs s root).value =
      match result (take algorithm fs s.options root) with
      | .ok next => (next, .ok next.subdirectories)
      | .error e => (s, .error e) := by
  rw [enumerate, Logged.value_bind, result]
  cases (take algorithm fs s.options root).run.value <;> rfl

namespace Held

variable {held : Held} {fs : FileSystem} {root : Path}

theorem enumerate_of_take {next : Snapshot}
    (h : result (take algorithm fs held.snapshot.options root) = .ok next) :
    held.enumerate algorithm fs root = ⟨next, some ⟨fs, held.snapshot.options, root⟩⟩ := by
  rw [enumerate, value_enumerate, h]

theorem enumerate_of_error {e : SnapshotError}
    (h : result (take algorithm fs held.snapshot.options root) = .error e) :
    held.enumerate algorithm fs root = held := by
  rw [enumerate, value_enumerate, h]

/-- But for its policy, a snapshot is what its last enumeration took, or an initial one before any.
-/
def IsMade (algorithm : HashAlgorithm) (held : Held) : Prop :=
  ∃ made policy, held.snapshot = made.setSymlinkPolicy policy ∧
    match held.last with
    | none => ∃ options, made = initial options
    | some e => result (take algorithm e.fs e.options e.root) = .ok made

theorem isMade_initial (options : SnapshotOptions) : IsMade algorithm ⟨initial options, none⟩ :=
  ⟨initial options, options.symlinks, rfl, options, rfl⟩

theorem IsMade.setSymlinkPolicy (h : held.IsMade algorithm) (policy : SymlinkPolicy) :
    (held.setSymlinkPolicy policy).IsMade algorithm := by
  obtain ⟨made, _, hsnapshot, hlast⟩ := h
  refine ⟨made, policy, ?_, hlast⟩
  rw [Held.setSymlinkPolicy, hsnapshot]
  rfl

theorem IsMade.enumerate (h : held.IsMade algorithm) (fs : FileSystem) (root : Path) :
    (held.enumerate algorithm fs root).IsMade algorithm := by
  cases htake : result (take algorithm fs held.snapshot.options root) with
  | ok next =>
    rw [enumerate_of_take htake]
    exact ⟨next, next.options.symlinks, rfl, htake⟩
  | error e =>
    rw [enumerate_of_error htake]
    exact h

end Held

theorem isMade_perform {table : List Held} (h : ∀ held ∈ table, held.IsMade algorithm)
    (action : Action) : ∀ held ∈ perform algorithm table action, held.IsMade algorithm := by
  cases action with
  | create options => exact Table.forall_mem_append_singleton h (Held.isMade_initial options)
  | clone place => exact Table.forall_mem_append_copy h place
  | setSymlinkPolicy place policy =>
    exact Table.forall_mem_modify h (fun _ hmade => hmade.setSymlinkPolicy policy) place
  | enumerate place fs root =>
    exact Table.forall_mem_modify h (fun _ hmade => hmade.enumerate fs root) place

theorem isMade_history (actions : List Action) :
    ∀ held ∈ history algorithm actions, held.IsMade algorithm := by
  induction actions using List.reverseRecOn with
  | nil => exact List.forall_mem_nil _
  | append_singleton actions action ih =>
    rw [history, List.foldl_append]
    exact isMade_perform ih action

theorem Records.setSymlinkPolicy {s : Snapshot} {root : Path} {leaves : List Leaf}
    (h : s.Records algorithm root leaves) (policy : SymlinkPolicy) :
    (s.setSymlinkPolicy policy).Records algorithm root leaves :=
  ⟨h.path, h.onePerLeaf, h.ascending, h.keyed, h.entryPath, h.entryDigest, h.tree, h.entryCount,
    h.levels, h.leavesByName, h.leavesByWalk, h.unindexed, h.indexed, h.digest⟩

/-- A snapshot records the leaves that its last successful enumeration walked over, whatever else
was done to it. -/
theorem records_of_history (actions : List Action) {held : Held}
    (hheld : held ∈ history algorithm actions) {e : Enumeration} (hlast : held.last = some e) :
    ∃ items, result (walk e.fs e.options e.root) = .ok items ∧
      held.snapshot.Records algorithm e.root (items.filterMap WalkItem.leaf?) := by
  obtain ⟨made, policy, hsnapshot, htake⟩ := isMade_history actions held hheld
  rw [hlast] at htake
  obtain ⟨items, hitems, hrecords⟩ := records_of_take htake
  rw [hsnapshot]
  exact ⟨items, hitems, hrecords.setSymlinkPolicy policy⟩

def constantHash : HashAlgorithm := ⟨fun _ => Vector.replicate 32 7⟩

def withGAndF : FileSystem :=
  ⟨.bits34,
    .directory true [([100], .directory true [([103], .file ⟨0, 0⟩ []), ([102], .file ⟨0, 0⟩ [])])],
    by decide⟩

def listed : SnapshotOptions := ⟨.follow, .enumeration, 32⟩

def collided : Snapshot :=
  .assembled constantHash listed ⟨[100]⟩
    [.leaf ⟨[103], ⟨[100, 47, 103]⟩, ⟨0, 0⟩, .file⟩, .leaf ⟨[102], ⟨[100, 47, 102]⟩, ⟨0, 0⟩, .file⟩]
    "d"

/-- Enumerates what is there and what is not, and leaves a copy with another policy. -/
def copiedAfterFailure : List Action :=
  [.create listed, .enumerate 0 withGAndF ⟨[100]⟩, .enumerate 0 withGAndF ⟨[120]⟩, .clone 0,
    .setSymlinkPolicy 1 .copy]

theorem take_withGAndF : result (take constantHash withGAndF listed ⟨[100]⟩) = .ok collided :=
  take_eq_ok_iff.mpr ⟨_, _, by cbv, by cbv, rfl⟩

theorem take_missing : result (take constantHash withGAndF listed ⟨[120]⟩) =
    .error (.filesystem ⟨[120]⟩ (.os .notFound)) :=
  take_of_walk_error (by cbv)

theorem history_copiedAfterFailure : history constantHash copiedAfterFailure =
    [⟨collided, some ⟨withGAndF, listed, ⟨[100]⟩⟩⟩,
      ⟨collided.setSymlinkPolicy .copy, some ⟨withGAndF, listed, ⟨[100]⟩⟩⟩] := by
  have hfirst : Held.enumerate constantHash ⟨initial listed, none⟩ withGAndF ⟨[100]⟩ =
      ⟨collided, some ⟨withGAndF, listed, ⟨[100]⟩⟩⟩ := Held.enumerate_of_take take_withGAndF
  have hsecond : Held.enumerate constantHash ⟨collided, some ⟨withGAndF, listed, ⟨[100]⟩⟩⟩ withGAndF
      ⟨[120]⟩ = ⟨collided, some ⟨withGAndF, listed, ⟨[100]⟩⟩⟩ := Held.enumerate_of_error take_missing
  simp [history, copiedAfterFailure, perform, hfirst, hsecond, Held.setSymlinkPolicy]

theorem records_copiedAfterFailure :
    (⟨collided.setSymlinkPolicy .copy, some ⟨withGAndF, listed, ⟨[100]⟩⟩⟩ : Held) ∈
        history constantHash copiedAfterFailure ∧
      ∃ items, result (walk withGAndF listed ⟨[100]⟩) = .ok items ∧
        (collided.setSymlinkPolicy .copy).Records constantHash ⟨[100]⟩
          (items.filterMap WalkItem.leaf?) := by
  have hheld : (⟨collided.setSymlinkPolicy .copy, some ⟨withGAndF, listed, ⟨[100]⟩⟩⟩ : Held) ∈
      history constantHash copiedAfterFailure := by simp [history_copiedAfterFailure]
  have hrecords := records_of_history copiedAfterFailure hheld rfl
  exact ⟨hheld, hrecords⟩

end MerkleDir.Snapshot
