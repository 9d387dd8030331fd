import AetherKernel.Lib.Transition
import AetherKernel.Rootfs.Lookup
import Mathlib.Data.List.Nodup

/-!
# Link counts of the in-memory trees

The entries of all directories are one map from a directory and a name to a node.
Paths are resolved before, so a call is given the directories that it works in.
-/

namespace AetherKernel.Rootfs

open Lib Vfs Function List Prod

/-- A directory and a name in it. -/
abbrev EntryKey := Nat × Name

/-- Directories, and the nodes in them with their counts. -/
structure LinkTree where
  entries : List (EntryKey × Nat)
  kind : Nat → NodeKind
  nlink : Nat → Nat
  next : Nat

namespace LinkTree

/-- A directory without entries. -/
def new : LinkTree :=
  ⟨[], fun _ => .directory, fun _ => 2, 1⟩

variable (tree : LinkTree)

def lookup (key : EntryKey) : Option Nat :=
  (tree.entries.find? fun entry => entry.1 = key).map snd

def erase (key : EntryKey) : LinkTree :=
  { tree with entries := tree.entries.filter fun entry => entry.1 ≠ key }

def put (key : EntryKey) (node : Nat) : LinkTree :=
  { tree with entries := (key, node) :: tree.entries }

/-- `adjust_link_count` by one up or down; a count is a `u32` and saturates. -/
def adjustLinkCount (node : Nat) (up : Bool) : LinkTree :=
  { tree with
    nlink := if tree.kind node = .directory then tree.nlink else update tree.nlink node
      (if up then min (tree.nlink node + 1) (2 ^ 32 - 1) else tree.nlink node - 1) }

/-- `DirectoryNode::insert`. -/
def insert (key : EntryKey) (node : Nat) : Except SysErr LinkTree :=
  if (tree.lookup key).isSome then .error .exists else .ok (tree.put key node)

/-- `create_file`, `create_symlink` and `create_dir` of a directory. -/
def create (key : EntryKey) (kind : NodeKind) : Except SysErr LinkTree :=
  LinkTree.insert { tree with
      kind := update tree.kind tree.next kind
      nlink := update tree.nlink tree.next (if kind = .directory then 2 else 1)
      next := tree.next + 1 } key tree.next

/-- `link_in` and `link_existing`. -/
def link (key : EntryKey) (node : Nat) : Except SysErr LinkTree :=
  if tree.kind node = .directory then .error .perm
  else
    match tree.insert key node with
    | .error error => .error error
    | .ok tree => .ok (tree.adjustLinkCount node true)

/-- `unlink_in` and `DirectoryNode::remove`. -/
def unlink (key : EntryKey) (removeDirectory : Bool) : Except SysErr LinkTree :=
  match tree.lookup key with
  | none => .error .noEnt
  | some node =>
    if tree.kind node = .directory then
      if ¬removeDirectory then .error .isDir
      else if tree.entries.any fun entry => entry.1.1 = node then .error .notEmpty
      else .ok (tree.erase key)
    else if removeDirectory then .error .notDir
    else .ok ((tree.erase key).adjustLinkCount node false)

/-- `DirectoryNode::rename`; only between two directories is the count of the node that is
replaced adjusted. -/
def renameEntry (source target : EntryKey) (replace : Bool) : Except SysErr LinkTree :=
  if tree.kind target.1 ≠ .directory then .error .notDir
  else
    match tree.lookup source with
    | none => .error .noEnt
    | some node =>
      let rest := tree.erase source
      if ¬replace ∧ (rest.lookup target).isSome then .error .exists
      else
        let moved := (rest.erase target).put target node
        if source.1 = target.1 then .ok moved
        else
          match rest.lookup target with
          | some replaced =>
            if replaced ≠ node then .ok (moved.adjustLinkCount replaced false) else .ok moved
          | none => .ok moved

/-- `rename_in` from the two parents on. -/
def rename (source target : EntryKey) : Except SysErr LinkTree :=
  match tree.lookup source with
  | none => .error .noEnt
  | some node =>
    match tree.lookup target with
    | none => tree.renameEntry source target false
    | some existing =>
      if node = existing then .ok tree
      else if tree.kind node = .directory then
        if tree.kind existing = .directory ∧ tree.entries.any fun entry => entry.1.1 = existing
        then .error .notEmpty
        else .error .notDir
      else if tree.kind existing = .directory then .error .isDir
      else tree.renameEntry source target true

end LinkTree

inductive LinkCall where
  | create (key : EntryKey) (kind : NodeKind)
  | link (key : EntryKey) (node : Nat)
  | unlink (key : EntryKey) (removeDirectory : Bool)
  | rename (source target : EntryKey)

/-- One call; a node that is linked is in use. -/
def LinkCall.perform (tree : LinkTree) : LinkCall → Except SysErr LinkTree
  | .create key kind => tree.create key kind
  | .link key node => if node < tree.next then tree.link key node else .error .noEnt
  | .unlink key removeDirectory => tree.unlink key removeDirectory
  | .rename source target => tree.rename source target

/-- A call that fails changes nothing. -/
def LinkCall.Performs (tree : LinkTree) (call : LinkCall) (after : LinkTree) : Prop :=
  after = (call.perform tree).toOption.getD tree

namespace LinkTree

/-- How many entries refer to a node. -/
def count (tree : LinkTree) (node : Nat) : Nat :=
  tree.entries.countP fun entry => entry.2 = node

/-- The count of every node that is not a directory is right. -/
def Counted (tree : LinkTree) : Prop :=
  ∀ node < tree.next, tree.kind node ≠ .directory → tree.nlink node = tree.count node

/-- A rename inside one directory replaces a node. -/
def ReplacesInPlace (tree : LinkTree) (source target : EntryKey) : Prop :=
  source.1 = target.1 ∧ ∃ node existing, tree.lookup source = some node ∧
    tree.lookup target = some existing ∧ node ≠ existing ∧ tree.kind node ≠ .directory ∧
    tree.kind existing ≠ .directory

/-- No rename replaces a node of its own directory, and no count saturates. -/
def Careful (tree : LinkTree) : LinkCall → Prop
  | .link _ node => tree.nlink node < 2 ^ 32 - 1
  | .rename source target => ¬tree.ReplacesInPlace source target
  | _ => True

/-- Every key has one entry, and the counts are right. -/
structure Sound (tree : LinkTree) : Prop where
  unique : (tree.entries.map fst).Nodup
  bounded : ∀ entry ∈ tree.entries, entry.2 < tree.next
  counted : tree.Counted

variable {tree after : LinkTree} {key : EntryKey} {node : Nat}

theorem mem_of_lookup (found : tree.lookup key = some node) : (key, node) ∈ tree.entries := by
  obtain ⟨entry, held, rfl⟩ := Option.map_eq_some_iff.mp found
  have same : entry.1 = key := by simpa using List.find?_some held
  rw [← same]
  exact mem_of_find?_eq_some held

theorem not_mem_of_lookup (missing : tree.lookup key = none) : key ∉ tree.entries.map fst := by
  intro member
  obtain ⟨entry, held, rfl⟩ := mem_map.mp member
  have none := List.find?_eq_none.mp (Option.map_eq_none_iff.mp missing) entry held
  simp at none

theorem erase_of_lookup (missing : tree.lookup key = none) : tree.erase key = tree := by
  have all : tree.entries.filter (fun entry => entry.1 ≠ key) = tree.entries := by
    apply filter_eq_self.mpr
    intro entry member
    have other : entry.1 ≠ key := by
      rintro rfl
      exact not_mem_of_lookup missing (mem_map_of_mem member)
    simpa using other
  rw [erase, all]

/-- The entry of a key is counted once. -/
theorem count_erase (unique : (tree.entries.map fst).Nodup)
    (found : tree.lookup key = some node) (other : Nat) :
    tree.count other = (tree.erase key).count other + if node = other then 1 else 0 := by
  have member := mem_of_lookup found
  obtain ⟨older, newer, split⟩ := append_of_mem member
  have apart : ∀ entry ∈ older ++ newer, entry.1 ≠ key := by
    rw [split, map_append, map_cons, nodup_middle, nodup_cons] at unique
    rw [← map_append] at unique
    intro entry held same
    have listed := mem_map_of_mem held (f := fst)
    rw [same] at listed
    exact unique.1 listed
  have rest : (tree.erase key).entries = older ++ newer := by
    simp only [erase, split, filter_append]
    rw [filter_cons_of_neg (by simp), ← filter_append]
    exact filter_eq_self.mpr fun entry held => by simpa using apart entry held
  simp only [count, rest, split, countP_append, countP_cons]
  simp only [decide_eq_true_eq]
  omega

theorem count_put (other : Nat) :
    (tree.put key node).count other = tree.count other + if node = other then 1 else 0 := by
  simp only [count, put, countP_cons, decide_eq_true_eq]

theorem lookup_erase {other : EntryKey} (differs : other ≠ key) :
    (tree.erase key).lookup other = tree.lookup other := by
  rw [lookup, erase, List.find?_filter]
  congr 2
  funext entry
  rcases Decidable.em (entry.1 = other) with rfl | apart
  · simp [differs]
  · simp [apart]

theorem Sound.erase_unique (sound : tree.Sound) (key : EntryKey) :
    ((tree.erase key).entries.map fst).Nodup :=
  sound.unique.sublist (filter_sublist.map fst)

/-- An entry is put under a free key. -/
theorem put_unique (unique : (tree.entries.map fst).Nodup)
    (free : key ∉ tree.entries.map fst) : ((tree.put key node).entries.map fst).Nodup :=
  nodup_cons.mpr ⟨free, unique⟩

theorem not_mem_erase (tree : LinkTree) (key : EntryKey) :
    key ∉ (tree.erase key).entries.map fst := by
  intro member
  obtain ⟨entry, held, rfl⟩ := mem_map.mp member
  simpa using (mem_filter.mp held).2

/-- After the adjustment the counts are right when only the one of the node was off. -/
theorem counted_adjustLinkCount {up : Bool}
    (others : ∀ other < tree.next, tree.kind other ≠ .directory → other ≠ node →
      tree.nlink other = tree.count other)
    (own : tree.kind node ≠ .directory → (if up then min (tree.nlink node + 1) (2 ^ 32 - 1)
      else tree.nlink node - 1) = tree.count node) : (tree.adjustLinkCount node up).Counted := by
  intro other bound counted
  change tree.kind other ≠ .directory at counted
  change (if tree.kind node = .directory then tree.nlink else _) other = tree.count other
  rcases Decidable.em (other = node) with rfl | differs
  · rw [if_neg counted]
    exact (update_self ..).trans (own counted)
  · split
    · exact others other bound counted differs
    · exact (update_of_ne differs ..).trans (others other bound counted differs)

/-! ## Calls -/

theorem insert_eq_ok (inserted : tree.insert key node = .ok after) :
    tree.lookup key = none ∧ after = tree.put key node := by
  unfold insert at inserted
  split at inserted
  · nomatch inserted
  · rename_i missing
    cases inserted
    exact ⟨by simpa using missing, rfl⟩

variable (sound : tree.Sound) {source target : EntryKey}

include sound

theorem Sound.create {kind : NodeKind} (created : tree.create key kind = .ok after) :
    after.Sound := by
  obtain ⟨missing, rfl⟩ := insert_eq_ok created
  have unused : tree.count tree.next = 0 := by
    rw [count, countP_eq_zero]
    intro entry member
    simpa using (sound.bounded entry member).ne
  refine ⟨put_unique sound.unique (not_mem_of_lookup missing), ?_, ?_⟩
  · intro entry member
    rcases mem_cons.mp member with rfl | older
    · exact Nat.lt_succ_self _
    · exact Nat.lt_succ_of_lt (sound.bounded entry older)
  intro other bound counted
  rw [count_put]
  change update tree.nlink tree.next _ other = tree.count other + _
  rcases Decidable.em (other = tree.next) with rfl | differs
  · simp only [put, update_self] at counted
    simp [unused, counted]
  · have old : other < tree.next := Nat.lt_of_le_of_ne (Nat.le_of_lt_succ bound) differs
    simp only [put, update_of_ne differs] at counted ⊢
    rw [if_neg (Ne.symm differs)]
    exact sound.counted other old counted

theorem Sound.link (inUse : node < tree.next) (room : tree.nlink node < 2 ^ 32 - 1)
    (linked : tree.link key node = .ok after) : after.Sound := by
  unfold LinkTree.link at linked
  split at linked
  · nomatch linked
  cases inserted : tree.insert key node with
  | error error =>
    rw [inserted] at linked
    nomatch linked
  | ok middle =>
    rw [inserted] at linked
    cases linked
    obtain ⟨missing, rfl⟩ := insert_eq_ok inserted
    refine ⟨put_unique sound.unique (not_mem_of_lookup missing),
      forall_mem_cons.mpr ⟨inUse, sound.bounded⟩, counted_adjustLinkCount ?_ ?_⟩
    · intro other bound counted differs
      rw [count_put, if_neg (Ne.symm differs)]
      exact sound.counted other bound counted
    · intro counted
      rw [count_put, if_pos rfl, if_pos rfl, ← sound.counted node inUse counted]
      exact Nat.min_eq_left (Nat.succ_le_of_lt room)

/-- One entry less, and one off the count of its node. -/
theorem Sound.removed (found : tree.lookup key = some node) :
    ((tree.erase key).adjustLinkCount node false).Sound := by
  have counts := count_erase sound.unique found
  refine ⟨sound.erase_unique key, fun entry member => sound.bounded entry (mem_filter.mp member).1,
    counted_adjustLinkCount ?_ ?_⟩
  · intro other bound counted differs
    have same := counts other
    rw [if_neg (Ne.symm differs)] at same
    exact (sound.counted other bound counted).trans same
  intro counted
  have one := counts node
  have right := sound.counted node (sound.bounded _ (mem_of_lookup found)) counted
  rw [if_pos rfl] at one
  change tree.nlink node - 1 = _
  omega

theorem Sound.unlink {removeDirectory : Bool}
    (unlinked : tree.unlink key removeDirectory = .ok after) : after.Sound := by
  unfold LinkTree.unlink at unlinked
  split at unlinked
  · nomatch unlinked
  rename_i node found
  split at unlinked
  · rename_i directory
    split at unlinked
    · nomatch unlinked
    split at unlinked
    · nomatch unlinked
    · cases unlinked
      have removed := sound.removed found
      rwa [adjustLinkCount, if_pos (show (tree.erase key).kind node = _ from directory)] at removed
  · split at unlinked
    · nomatch unlinked
    · cases unlinked
      exact sound.removed found

/-- An entry moves to a free key. -/
theorem Sound.moved (found : tree.lookup source = some node)
    (free : target ∉ tree.entries.map fst) : ((tree.erase source).put target node).Sound := by
  have bounded := sound.bounded _ (mem_of_lookup found)
  refine ⟨put_unique (sound.erase_unique source) ?_, ?_, ?_⟩
  · intro member
    obtain ⟨entry, held, rfl⟩ := mem_map.mp member
    exact free (mem_map_of_mem (mem_filter.mp held).1)
  · exact forall_mem_cons.mpr
      ⟨bounded, fun entry member => sound.bounded entry (mem_filter.mp member).1⟩
  · intro other bound counted
    rw [count_put, ← count_erase sound.unique found other]
    exact sound.counted other bound counted

omit sound

theorem Sound.rename (sound : tree.Sound) (harmless : ¬tree.ReplacesInPlace source target)
    (renamed : tree.rename source target = .ok after) : after.Sound := by
  unfold LinkTree.rename at renamed
  split at renamed
  · nomatch renamed
  rename_i node found
  split at renamed
  · -- Nothing is replaced.
    rename_i missing
    have apart : target ≠ source := by
      rintro rfl
      nomatch found.symm.trans missing
    have still := (lookup_erase apart).trans missing
    simp only [renameEntry, found, still, erase_of_lookup still] at renamed
    have moved := sound.moved found (not_mem_of_lookup missing)
    split at renamed
    · nomatch renamed
    split at renamed
    · nomatch renamed
    split at renamed
    all_goals
      cases renamed
      exact moved
  rename_i existing present
  split at renamed
  · cases renamed
    exact sound
  rename_i differs
  split at renamed
  · split at renamed
    all_goals nomatch renamed
  rename_i file
  split at renamed
  · nomatch renamed
  rename_i other
  -- The entry that is replaced goes first, and then its key is free.
  have apart : target ≠ source := by
    rintro rfl
    exact differs (Option.some.inj (found.symm.trans present))
  have across : source.1 ≠ target.1 :=
    fun same => harmless ⟨same, node, existing, found, present, differs, file, other⟩
  have still := (lookup_erase apart).trans present
  simp only [renameEntry, found, still, if_pos (Ne.symm differs)] at renamed
  have removed := sound.removed present
  have kept := (lookup_erase apart.symm).trans found
  have moved := removed.moved kept (not_mem_erase tree target)
  split at renamed
  · nomatch renamed
  split at renamed
  · nomatch renamed
  · cases renamed
    have swapped : (tree.erase source).erase target = (tree.erase target).erase source := by
      simp only [erase, filter_filter, Bool.and_comm]
    rw [swapped]
    exact moved

theorem Sound.performs {call : LinkCall} (sound : tree.Sound) (careful : tree.Careful call)
    (performs : call.Performs tree after) : after.Sound := by
  subst performs
  cases done : call.perform tree with
  | error error => exact sound
  | ok result =>
    cases call with
    | create key kind => exact sound.create done
    | link key node =>
      simp only [LinkCall.perform] at done
      split at done
      · rename_i inUse
        exact sound.link inUse careful done
      · nomatch done
    | unlink key removeDirectory => exact sound.unlink done
    | rename source target => exact sound.rename careful done

end LinkTree

end AetherKernel.Rootfs
