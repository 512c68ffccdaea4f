import MerkleDir.Proofs.Changes.Between

/-!
# Change sets can be replayed

A change set applied to the digests by name of one snapshot gives those of the next, if it is the
whole difference. So a sequence of change sets, each made between one snapshot and the next, leads
from the digests of the first to those of the last.
-/
namespace MerkleDir

open Snapshot (HashesApart)

abbrev DigestMap := Bytes → Option Digest

def Snapshot.digests (s : Snapshot) : DigestMap := fun name => (s.entry? name).map (·.digest)

namespace DigestMap

/-- Gives a name the digest that `fresh` has for it, if that and the digest it has are allowed. -/
def set (allowed : Option Digest → Option Digest → Bool) (fresh map : DigestMap) (name : Bytes) :
    Option DigestMap :=
  if allowed (map name) (fresh name) then some (Function.update map name (fresh name)) else none

def delete : DigestMap → Bytes → Option DigestMap :=
  set (fun old _ => old.isSome) fun _ => none

def insert (fresh : DigestMap) : DigestMap → Bytes → Option DigestMap :=
  set (fun old new => old.isNone && new.isSome) fresh

def replace (fresh : DigestMap) : DigestMap → Bytes → Option DigestMap :=
  set (fun old new => old.any fun d => new.any (d != ·)) fresh

variable {allowed : Option Digest → Option Digest → Bool} {fresh map : DigestMap}
  {names : List Bytes}

theorem foldlM_set (hnodup : names.Nodup) (h : ∀ n ∈ names, allowed (map n) (fresh n) = true) :
    names.foldlM (set allowed fresh) map = some fun n => if n ∈ names then fresh n else map n := by
  induction names generalizing map with
  | nil => simp
  | cons name names ih =>
    obtain ⟨hname, hnodup⟩ := List.nodup_cons.mp hnodup
    have hset : set allowed fresh map name = some (Function.update map name (fresh name)) :=
      if_pos (h name List.mem_cons_self)
    have hrest : ∀ n ∈ names,
        allowed (Function.update map name (fresh name) n) (fresh n) = true := by
      intro n hn
      rw [Function.update_of_ne (ne_of_mem_of_not_mem hn hname)]
      exact h n (List.mem_cons_of_mem _ hn)
    rw [List.foldlM_cons, hset]
    refine (ih hnodup hrest).trans (congrArg some (funext fun n => ?_))
    rcases eq_or_ne n name with rfl | hne
    · simp [hname]
    · simp [hne]

end DigestMap

namespace ChangeSet

def names (paths : List Path) : List Bytes := paths.filterMap Path.fileName?

def apply (changes : ChangeSet) (fresh map : DigestMap) : Option DigestMap := do
  let map ← (names changes.removed).foldlM DigestMap.delete map
  let map ← (names changes.added).foldlM (DigestMap.insert fresh) map
  (names changes.modified).foldlM (DigestMap.replace fresh) map

/-- Whether a change set is the whole difference by name between two snapshots. -/
structure IsDifference (previous current : Snapshot) (changes : ChangeSet) : Prop where
  added : changes.added.Perm ((entriesMissingIn previous current).map (·.path))
  removed : changes.removed.Perm ((entriesMissingIn current previous).map (·.path))
  modified : changes.modified.Perm ((entriesChangedFrom previous current).map (·.path))

end ChangeSet

namespace Snapshot

variable {algorithm : HashAlgorithm} {s t : Snapshot} {n : Bytes}

theorem digests_eq_none_iff : s.digests n = none ↔ ∀ e ∈ s.entries, e.fileName ≠ n := by
  simp [digests, entry?]

namespace IsTaken

theorem digests_eq_some_iff (hs : s.IsTaken algorithm) {d : Digest} :
    s.digests n = some d ↔ ∃ e ∈ s.entries, e.fileName = n ∧ e.digest = d := by
  simp only [digests, Option.map_eq_some_iff, hs.entry?_eq_some_iff, and_assoc]

theorem digests_fileName (hs : s.IsTaken algorithm) {e : SnapshotEntry} (he : e ∈ s.entries) :
    s.digests e.fileName = some e.digest :=
  hs.digests_eq_some_iff.mpr ⟨e, he, rfl, rfl⟩

/-- Among the digests of entries, none of which is the empty one, those with one block are equal. -/
theorem digest_eq_of_beq (hs : s.IsTaken algorithm) (ht : t.IsTaken algorithm)
    {d d' : Digest} (hd : t.digests n = some d) (hd' : s.digests n = some d')
    (h : (d != d') = false) : d = d' := by
  obtain ⟨e, he, -, rfl⟩ := ht.digests_eq_some_iff.mp hd
  obtain ⟨f, hf, -, rfl⟩ := hs.digests_eq_some_iff.mp hd'
  rw [ht.entryDigest e he, hs.entryDigest f hf] at h ⊢
  rw [bne, Bool.not_eq_false', Digest.beq_iff_block] at h
  exact congrArg Digest.ofBlock h

theorem mem_missing_iff (hs : s.IsTaken algorithm) :
    n ∈ (ChangeSet.entriesMissingIn t s).map (·.fileName) ↔
      t.digests n = none ∧ ∃ d, s.digests n = some d := by
  simp only [ChangeSet.entriesMissingIn, List.mem_map, List.mem_filter, decide_eq_true_eq]
  constructor
  · rintro ⟨e, ⟨he, hmissing⟩, rfl⟩
    exact ⟨digests_eq_none_iff.mpr hmissing, e.digest, hs.digests_fileName he⟩
  · rintro ⟨hnone, d, hd⟩
    obtain ⟨e, he, rfl, -⟩ := hs.digests_eq_some_iff.mp hd
    exact ⟨e, ⟨he, digests_eq_none_iff.mp hnone⟩, rfl⟩

theorem mem_changed_iff (hs : s.IsTaken algorithm) (ht : t.IsTaken algorithm) :
    n ∈ (ChangeSet.entriesChangedFrom t s).map (·.fileName) ↔
      ∃ d d', t.digests n = some d ∧ s.digests n = some d' ∧ (d != d') = true := by
  simp only [ChangeSet.entriesChangedFrom, List.mem_map, List.mem_filter, decide_eq_true_eq]
  constructor
  · rintro ⟨e, ⟨he, f, hf, hname, hne⟩, rfl⟩
    exact ⟨f.digest, e.digest, hname ▸ ht.digests_fileName hf, hs.digests_fileName he, hne⟩
  · rintro ⟨d, d', hd, hd', hne⟩
    obtain ⟨f, hf, hname, rfl⟩ := ht.digests_eq_some_iff.mp hd
    obtain ⟨e, he, rfl, rfl⟩ := hs.digests_eq_some_iff.mp hd'
    exact ⟨e, ⟨he, f, hf, hname, hne⟩, rfl⟩

theorem names_perm (hs : s.IsTaken algorithm) {paths : List Path} {chosen : List SnapshotEntry}
    (hchosen : chosen.Sublist s.entries) (hpaths : paths.Perm (chosen.map (·.path))) :
    (ChangeSet.names paths).Nodup ∧
      ∀ n, n ∈ ChangeSet.names paths ↔ n ∈ chosen.map (·.fileName) := by
  have hnames : (chosen.map (·.path)).filterMap Path.fileName? = chosen.map (·.fileName) := by
    rw [List.filterMap_map, ← List.filterMap_eq_map]
    refine List.filterMap_congr fun e he => ?_
    have hentry := hchosen.subset he
    simp only [Function.comp_apply, hs.path e hentry]
    exact Path.fileName?_join s.path (hs.name e hentry)
  have hperm : (ChangeSet.names paths).Perm (chosen.map (·.fileName)) :=
    hnames ▸ hpaths.filterMap Path.fileName?
  exact ⟨hperm.nodup_iff.mpr (hs.nodup_fileName.sublist (hchosen.map _)), fun n => hperm.mem_iff⟩

theorem names_missing (hs : s.IsTaken algorithm) {paths : List Path}
    (h : paths.Perm ((ChangeSet.entriesMissingIn t s).map (·.path))) :
    (ChangeSet.names paths).Nodup ∧ ∀ n, n ∈ ChangeSet.names paths ↔
      t.digests n = none ∧ ∃ d, s.digests n = some d := by
  obtain ⟨hnodup, hmem⟩ := hs.names_perm List.filter_sublist h
  exact ⟨hnodup, fun n => (hmem n).trans hs.mem_missing_iff⟩

theorem names_changed (hs : s.IsTaken algorithm) (ht : t.IsTaken algorithm) {paths : List Path}
    (h : paths.Perm ((ChangeSet.entriesChangedFrom t s).map (·.path))) :
    (ChangeSet.names paths).Nodup ∧ ∀ n, n ∈ ChangeSet.names paths ↔
      ∃ d d', t.digests n = some d ∧ s.digests n = some d' ∧ (d != d') = true := by
  obtain ⟨hnodup, hmem⟩ := hs.names_perm List.filter_sublist h
  exact ⟨hnodup, fun n => (hmem n).trans (hs.mem_changed_iff ht)⟩

end IsTaken
end Snapshot

namespace ChangeSet

variable {algorithm : HashAlgorithm} {previous current : Snapshot} {changes : ChangeSet}

/-- The whole difference leads from the digests of one snapshot to those of the other. -/
theorem apply_of_isDifference (hp : previous.IsTaken algorithm) (hc : current.IsTaken algorithm)
    (h : changes.IsDifference previous current) :
    changes.apply current.digests previous.digests = some current.digests := by
  obtain ⟨hremoved, hr⟩ := hp.names_missing h.removed
  obtain ⟨hadded, ha⟩ := hc.names_missing h.added
  obtain ⟨hmodified, hm⟩ := hc.names_changed hp h.modified
  have hdelete : (names changes.removed).foldlM DigestMap.delete previous.digests =
      some fun n => if n ∈ names changes.removed then none else previous.digests n := by
    refine DigestMap.foldlM_set hremoved fun n hn => ?_
    obtain ⟨-, d, hd⟩ := (hr n).mp hn
    rw [hd]
    rfl
  have hinsert : (names changes.added).foldlM (DigestMap.insert current.digests)
        (fun n => if n ∈ names changes.removed then none else previous.digests n) =
      some fun n => if n ∈ names changes.added then current.digests n else
        if n ∈ names changes.removed then none else previous.digests n := by
    refine DigestMap.foldlM_set hadded fun n hn => ?_
    obtain ⟨hnone, d, hd⟩ := (ha n).mp hn
    rw [hnone, hd, ite_self]
    rfl
  have hreplace : (names changes.modified).foldlM (DigestMap.replace current.digests)
        (fun n => if n ∈ names changes.added then current.digests n else
          if n ∈ names changes.removed then none else previous.digests n) =
      some fun n => if n ∈ names changes.modified then current.digests n else
        if n ∈ names changes.added then current.digests n else
          if n ∈ names changes.removed then none else previous.digests n := by
    refine DigestMap.foldlM_set hmodified fun n hn => ?_
    obtain ⟨d, d', hd, hd', hne⟩ := (hm n).mp hn
    rw [if_neg (by simp [ha, hd]), if_neg (by simp [hr, hd']), hd, hd']
    exact hne
  simp only [apply, hdelete, hinsert, hreplace, Option.bind_eq_bind, Option.bind_some]
  refine congrArg some (funext fun n => ?_)
  split_ifs with hmod hadd hrem
  · rfl
  · rfl
  · exact ((hr n).mp hrem).1.symm
  -- what was not reported has not changed
  · cases hold : previous.digests n with
    | none =>
      cases hnew : current.digests n with
      | none => rfl
      | some d' => exact absurd ((ha n).mpr ⟨hold, d', hnew⟩) hadd
    | some d =>
      cases hnew : current.digests n with
      | none => exact absurd ((hr n).mpr ⟨hnew, d, hold⟩) hrem
      | some d' =>
        have hsame : (d != d') = false :=
          Bool.eq_false_iff.mpr fun hne => hmod ((hm n).mpr ⟨d, d', hold, hnew, hne⟩)
        rw [hc.digest_eq_of_beq hp hold hnew hsame]

/-- No two inputs of the snapshots have one digest, and no entry of one has the input of a node of a
tree. -/
structure AllApart (algorithm : HashAlgorithm) (snapshots : List Snapshot) : Prop where
  injective : Set.InjOn algorithm.hash {x | x ∈ snapshots.flatMap Snapshot.hashedInputs}
  disjoint : ∀ x ∈ snapshots.flatMap Snapshot.entryInputs, x ∉ snapshots.flatMap (·.tree.inputs)

namespace AllApart

theorem flatMap_subset {snapshots more : List Snapshot} (h : snapshots ⊆ more)
    (f : Snapshot → List Bytes) : snapshots.flatMap f ⊆ more.flatMap f := by
  intro x hx
  obtain ⟨s, hs, hxs⟩ := List.mem_flatMap.mp hx
  exact List.mem_flatMap.mpr ⟨s, h hs, hxs⟩

theorem of_hashesApart {s t : Snapshot} (h : HashesApart algorithm s t) :
    AllApart algorithm [s, t] where
  injective := by simpa using h.injective
  disjoint := by simpa using h.disjoint

theorem mono {snapshots more : List Snapshot} (h : AllApart algorithm more)
    (hsub : snapshots ⊆ more) : AllApart algorithm snapshots where
  injective := h.injective.mono fun _ hx => flatMap_subset hsub _ hx
  disjoint := fun x hx hx' => h.disjoint x (flatMap_subset hsub _ hx)
    (flatMap_subset hsub _ hx')

theorem hashesApart {snapshots : List Snapshot} (h : AllApart algorithm snapshots) {s t : Snapshot}
    (hs : s ∈ snapshots) (ht : t ∈ snapshots) : HashesApart algorithm s t := by
  have hpair {f : Snapshot → List Bytes} {x : Bytes} (hx : x ∈ f s ++ f t) :
      x ∈ snapshots.flatMap f := by
    rcases List.mem_append.mp hx with hx | hx
    · exact List.mem_flatMap.mpr ⟨s, hs, hx⟩
    · exact List.mem_flatMap.mpr ⟨t, ht, hx⟩
  exact ⟨h.injective.mono fun x hx => hpair hx,
    fun x hx hx' => h.disjoint x (hpair hx) (hpair hx')⟩

end AllApart

structure Update where
  changes : ChangeSet
  snapshot : Snapshot

def replay (updates : List Update) (map : DigestMap) : Option DigestMap :=
  updates.foldlM (fun map update => update.changes.apply update.snapshot.digests map) map

theorem apply_of_isEmpty {changes : ChangeSet} (h : changes.isEmpty = true)
    (fresh map : DigestMap) : changes.apply fresh map = some map := by
  simp only [isEmpty, Bool.and_eq_true, List.isEmpty_iff] at h
  obtain ⟨⟨hmodified, hadded⟩, hremoved⟩ := h
  rw [apply, hmodified, hadded, hremoved]
  rfl

theorem replay_filter (updates : List Update) (map : DigestMap) :
    replay (updates.filter (!·.changes.isEmpty)) map = replay updates map := by
  induction updates generalizing map with
  | nil => rfl
  | cons update updates ih =>
    rw [List.filter_cons]
    cases hempty : update.changes.isEmpty with
    | true =>
      rw [replay, replay, List.foldlM_cons, apply_of_isEmpty hempty]
      exact ih map
    | false =>
      rw [replay, replay, Bool.not_false, if_pos rfl, List.foldlM_cons, List.foldlM_cons]
      exact congrArg _ (funext ih)

def latest (first : Snapshot) (updates : List Update) : Snapshot :=
  updates.foldl (fun _ update => update.snapshot) first

/-- Each change set was made between the snapshot in place before it and its own. -/
def Follows (first : Snapshot) : List Update → Prop
  | [] => True
  | update :: updates =>
    update.changes = (between first update.snapshot).value ∧ Follows update.snapshot updates

theorem latest_append {first : Snapshot} {updates : List Update} {update : Update} :
    latest first (updates ++ [update]) = update.snapshot := by
  simp [latest]

theorem latest_mem (first : Snapshot) (updates : List Update) :
    latest first updates ∈ first :: updates.map Update.snapshot := by
  induction updates using List.reverseRecOn with
  | nil => exact List.mem_cons_self
  | append_singleton updates update _ =>
    rw [latest_append]
    simp

/-- Between snapshots of one directory the change set is the whole difference. -/
theorem isDifference_between (hp : previous.IsTaken algorithm) (hc : current.IsTaken algorithm)
    (hname : previous.name = current.name) (h : HashesApart algorithm previous current) :
    (between previous current).value.IsDifference previous current := by
  obtain ⟨hadded, hremoved, hmodified⟩ := between_complete h hp hc (Or.inl hname)
  exact ⟨hadded, hremoved, hmodified⟩

/-- Updates of snapshots of one name lead from the digests of the first to those of the latest. -/
theorem replay_eq {first : Snapshot} {updates : List Update} (hfollows : Follows first updates)
    (htaken : ∀ s ∈ first :: updates.map Update.snapshot,
      s.IsTaken algorithm ∧ s.name = first.name)
    (h : AllApart algorithm (first :: updates.map Update.snapshot)) :
    replay updates first.digests = some (latest first updates).digests := by
  induction updates generalizing first with
  | nil => rfl
  | cons update updates ih =>
    rw [List.map_cons] at htaken h
    obtain ⟨hchanges, hrest⟩ := hfollows
    obtain ⟨⟨hp, -⟩, ⟨hc, hname⟩, hlater⟩ := by
      simpa only [List.forall_mem_cons] using htaken
    have happly : update.changes.apply update.snapshot.digests first.digests =
        some update.snapshot.digests := by
      rw [hchanges]
      exact apply_of_isDifference hp hc (isDifference_between hp hc hname.symm
        (h.hashesApart List.mem_cons_self (List.mem_cons_of_mem _ List.mem_cons_self)))
    rw [replay, List.foldlM_cons, happly]
    refine ih hrest ?_ (h.mono (List.subset_cons_self _ _))
    refine List.forall_mem_cons.mpr ⟨⟨hc, rfl⟩, fun s hs => ?_⟩
    exact ⟨(hlater s hs).1, (hlater s hs).2.trans hname.symm⟩

end ChangeSet
end MerkleDir
