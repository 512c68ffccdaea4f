import MerkleDir.Proofs.FileSystem.Links
import MerkleDir.Proofs.Snapshot.Walked

/-!
# What links end in

A link leads on to its target, and a chain of links ends where a target is no link. The walk follows
chains by paths of its own making, but what it comes to depends on the directory of the first link
and on its target alone, and it is what the system finds there, unless that counts too many links.
-/
namespace MerkleDir

open Logged (result)

namespace FileSystem

variable {fs : FileSystem} {here : Location} {target : Bytes}

/-- Where a link to `target` in the directory at `here` leads, if no link is followed there. -/
def hop (fs : FileSystem) (here : Location) (target : Bytes) : Except OsError Resolution :=
  fs.resolveFrom linkLimit (linkStart here target) (pathSegments target)
    ⟨false, endsInSlash target⟩

/-- What a chain ends in that begins with this link and has no more than `steps` links. -/
def chainEnd? (fs : FileSystem) : Nat → Location → Bytes → Option (Except OsError Node)
  | 0, _, _ => none
  | steps + 1, here, target =>
    match fs.nodeFound (fs.hop here target), fs.hop here target with
    | .ok (.link _ next), .ok (.found location) => chainEnd? fs steps location.dropLast next
    | ending, _ => some ending

theorem chainEnd?_succ_of_link {location : Location}
    (hhop : fs.hop here target = .ok (.found location)) {modified : Timestamp} {next : Bytes}
    (hnode : fs.nodeAt? location = some (.link modified next)) (steps : Nat) :
    fs.chainEnd? (steps + 1) here target = fs.chainEnd? steps location.dropLast next := by
  rw [chainEnd?, hhop, nodeFound, hnode]
  rfl

theorem chainEnd?_succ_of_not_link
    (h : ∀ modified next, fs.nodeFound (fs.hop here target) ≠ .ok (.link modified next))
    (steps : Nat) :
    fs.chainEnd? (steps + 1) here target = some (fs.nodeFound (fs.hop here target)) := by
  rw [chainEnd?]
  split
  · rename_i hfound _
    exact absurd hfound (h _ _)
  · rfl

theorem chainEnd?_eq_nodeFound (hroot : fs.IsPlace []) (hhere : fs.IsPlace here) {steps links : Nat}
    (hlinks : links ≤ linkLimit) {ending : Except OsError Node}
    (h : fs.chainEnd? steps here target = some ending)
    (hfew : fs.resolveFrom links (linkStart here target) (pathSegments target)
      ⟨true, endsInSlash target⟩ ≠ .error .tooManyLinks) :
    ending = fs.nodeFound (fs.resolveFrom links (linkStart here target) (pathSegments target)
      ⟨true, endsInSlash target⟩) := by
  induction steps generalizing here target links with
  | zero => cases h
  | succ steps ih =>
    have hstart : fs.IsPlace (linkStart here target) := by
      rw [linkStart]
      split_ifs
      · exact hroot
      · exact hhere
    -- nothing is left to follow where the hop finds the same
    have hdone (heq : fs.hop here target = fs.resolveFrom links (linkStart here target)
        (pathSegments target) ⟨true, endsInSlash target⟩) :
        ending = fs.nodeFound (fs.resolveFrom links (linkStart here target) (pathSegments target)
          ⟨true, endsInSlash target⟩) := by
      rw [chainEnd?_succ_of_not_link fun modified next => heq ▸ nodeFound_of_follow hstart rfl,
        heq] at h
      exact (Option.some.inj h).symm
    cases hslash : endsInSlash target with
    | true =>
      rw [hslash] at hdone hfew
      refine hdone ?_
      rw [hop, hslash, resolveFrom_directory, resolveFrom_of_le hlinks hfew]
    | false =>
      rw [hslash] at hdone hfew
      rcases resolveFrom_follow_cases hfew with hsame | ⟨n, middle, name, next, hlast, hn, hrest⟩
      · refine hdone ?_
        rw [hop, hslash, hsame linkLimit hlinks]
      · have hhop : fs.hop here target = .ok (.found (middle ++ [name])) := by
          rw [hop, hslash, hlast.resolveFrom_unfollowed (by omega)]
        obtain ⟨modified, hnode⟩ := hlast.nodeAt?
        rw [chainEnd?_succ_of_link hhop hnode, List.dropLast_concat] at h
        obtain ⟨-, hbefore, -, -, -⟩ := hlast
        rw [hrest] at hfew ⊢
        exact ih (hbefore.isPlace hstart) (by omega) h hfew

end FileSystem

namespace Walk

variable {fs : FileSystem}

inductive IsFollowedTo (name : Bytes) (link : Path) : Except OsError Node → Option WalkItem → Prop
  | file (modified : Timestamp) (content : Bytes) (target : Path) :
      IsFollowedTo name link (.ok (.file modified content))
        (some (.leaf ⟨name, link, modified, .followedSymlink target⟩))
  | directory (isOpen : Bool) (es : List (Bytes × Node)) :
      IsFollowedTo name link (.ok (.directory isOpen es)) (some (.directory link))
  | special : IsFollowedTo name link (.ok .special) none
  | dangling : IsFollowedTo name link (.error .notFound) none

section Step

variable {limit steps : Nat} {name : Bytes} {link current next : Path} {target : Bytes}

theorem exists_readLink_of_follow {item : Option WalkItem}
    (h : result (follow fs limit name link steps current) = .ok item) :
    ∃ target, fs.readLink current = .ok target := by
  cases steps with
  | zero => simp [follow] at h
  | succ steps =>
    rw [result_follow_succ] at h
    cases hread : fs.readLink current with
    | error e =>
      rw [hread] at h
      cases h
    | ok target => exact ⟨target, rfl⟩

variable (htarget : fs.readLink current = .ok target) (hnext : linkTarget current target = next)

include htarget hnext

theorem result_follow_of_link {modified : Timestamp} {bytes : Bytes}
    (hlstat : fs.lstat next = .ok (.link modified bytes)) :
    result (follow fs limit name link (steps + 1) current) =
      result (follow fs limit name link steps next) := by
  rw [result_follow_succ, htarget]
  dsimp only
  rw [hnext, hlstat]

theorem isFollowedTo_of_not_link
    (hlink : ∀ modified bytes, fs.lstat next ≠ .ok (.link modified bytes)) {item : Option WalkItem}
    (h : result (follow fs limit name link (steps + 1) current) = .ok item) :
    IsFollowedTo name link (fs.lstat next) item := by
  rw [result_follow_succ, htarget] at h
  dsimp only at h
  rw [hnext] at h
  cases hlstat : fs.lstat next with
  | error e =>
    rw [hlstat] at h
    cases e <;> cases h
    exact .dangling
  | ok node =>
    rw [hlstat] at h
    cases node with
    | file modified content => exact Except.ok.inj h ▸ .file modified content next
    | link modified bytes => exact absurd hlstat (hlink modified bytes)
    | special => exact Except.ok.inj h ▸ .special
    | directory isOpen es => exact Except.ok.inj h ▸ .directory isOpen es

/-- What a step of following a link shows, if it does not fail. -/
theorem isSettled_of_follow {item : Option WalkItem}
    (h : result (follow fs limit name link (steps + 1) current) = .ok item) :
    FileSystem.IsSettled (fs.lstat next) := by
  intro e he
  have hnone := isFollowedTo_of_not_link htarget hnext
    (fun _ _ hlink => by rw [he] at hlink; cases hlink) h
  rw [he] at hnone
  cases hnone
  rfl

end Step

/-- A link that is followed without failure becomes what the end of its chain says. -/
theorem exists_chainEnd?_of_follow (hroot : fs.IsPlace []) {limit steps : Nat} {name : Bytes}
    {link current parent : Path} {here : Location} {target : Bytes} {item : Option WalkItem}
    (hparent : current.parent? = some parent) (hreaches : fs.Reaches parent here)
    (htarget : fs.readLink current = .ok target)
    (h : result (follow fs limit name link steps current) = .ok item) :
    ∃ ending, fs.chainEnd? steps here target = some ending ∧
      IsFollowedTo name link ending item := by
  induction steps generalizing current parent here target with
  | zero => simp [follow] at h
  | succ steps ih =>
    have hne := FileSystem.ne_nil_of_readLink htarget
    have hnext : linkTarget current target = parent.join target := by rw [linkTarget, hparent]
    have hsettled := isSettled_of_follow htarget hnext h
    have hhop : fs.resolve (parent.join target) false = fs.hop here target :=
      hreaches.resolve_join hne hsettled.locate.resolve
    have hlstat : fs.lstat (parent.join target) = fs.nodeFound (fs.hop here target) := by
      rw [FileSystem.lstat, FileSystem.nodeOf_eq, hhop]
    by_cases hlink : ∃ modified next, fs.lstat (parent.join target) = .ok (.link modified next)
    · obtain ⟨modified, next, hlink⟩ := hlink
      obtain ⟨location, hlocate, hnode⟩ := FileSystem.nodeOf_eq_ok_iff.mp hlink
      have hresolve := FileSystem.locate_eq_ok_iff.mp hlocate
      -- the next link is read from the directory in which it lies
      obtain ⟨parent', hparent', hreaches'⟩ :=
        FileSystem.exists_parent_of_link hroot hresolve hnode
      rw [result_follow_of_link htarget hnext hlink] at h
      rw [FileSystem.chainEnd?_succ_of_link (hhop.symm.trans hresolve) hnode]
      exact ih hparent' hreaches' (by rw [FileSystem.readLink, hlink]) h
    · have hnot : ∀ modified next, fs.lstat (parent.join target) ≠ .ok (.link modified next) :=
        fun modified next heq => hlink ⟨modified, next, heq⟩
      rw [FileSystem.chainEnd?_succ_of_not_link (hlstat ▸ hnot), ← hlstat]
      exact ⟨_, rfl, isFollowedTo_of_not_link htarget hnext hnot h⟩

end Walk
end MerkleDir
