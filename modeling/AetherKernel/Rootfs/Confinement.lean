import AetherKernel.Lib.Transition
import AetherKernel.Rootfs.Lookup

/-!
# Where path resolution ends

Locations are lists of components.  A path that passes a symlink is rewritten to
the target of the link followed by the rest of the path; a lookup succeeds where
this rewriting ends.  The lexical part of a lookup cannot leave the root of the
process, but links are expanded from the root of the namespace, so a process is
confined exactly when the rewriting ends below its root.
-/

namespace AetherKernel.Rootfs

open Lib Vfs Exec Option List Returns ProcessFs

/-! ## Locations -/

/-- The node at a location: the mount in force there, or the entry of the node
at the parent location. -/
inductive At (fs : FileSystem) : List Name → Nat → Prop
  | root : At fs [] fs.mounted.rootNode
  | mount {parent : List Name} {name : Name} {node : Nat} :
      fs.mounted.lookupMount (joinPath (parent ++ [name])) = some node →
      At fs (parent ++ [name]) node
  | entry {parent : List Name} {name : Name} {directory node : Nat} :
      fs.mounted.lookupMount (joinPath (parent ++ [name])) = none →
      At fs parent directory → fs.entry directory name = some node →
      At fs (parent ++ [name]) node

variable {fs : FileSystem} {node : Nat} {parent path rest root : List Name} {name : Name}
  {followFinal : Bool} {lookup : NamespaceLookup}

theorem at_nil (located : At fs [] node) : node = fs.mounted.rootNode := by
  generalize empty : ([] : List Name) = location at located
  cases located with
  | root => rfl
  | mount | entry => simp at empty

/-- What the last component of a location says about the node there. -/
theorem at_snoc (located : At fs (parent ++ [name]) node) :
    fs.mounted.lookupMount (joinPath (parent ++ [name])) = some node ∨
      (fs.mounted.lookupMount (joinPath (parent ++ [name])) = none ∧
        ∃ directory, At fs parent directory ∧ fs.entry directory name = some node) := by
  generalize same : parent ++ [name] = location at located
  cases located with
  | root => simp at same
  | mount mounted => exact .inl (same ▸ mounted)
  | entry unmounted below held =>
    obtain ⟨rfl, last⟩ := append_inj' same rfl
    cases last
    exact .inr ⟨unmounted, _, below, held⟩

theorem At.unique {location : List Name} {first second : Nat}
    (left : At fs location first) (right : At fs location second) : first = second := by
  induction left generalizing second with
  | root => exact (at_nil right).symm
  | mount mounted =>
    rcases at_snoc right with other | ⟨unmounted, -⟩
    · exact Option.some.inj (mounted.symm.trans other)
    · cases mounted.symm.trans unmounted
  | entry unmounted _ held ih =>
    rcases at_snoc right with mounted | ⟨-, directory, below, other⟩
    · cases unmounted.symm.trans mounted
    · rw [← ih below] at other
      exact Option.some.inj (held.symm.trans other)

/-- A symlink stands at the location. -/
def LinkAt (fs : FileSystem) (location : List Name) : Prop :=
  ∃ node, At fs location node ∧ fs.kind node = .symlink

/-- No location on the way to `parent`, and not `parent` itself, holds a link.
The root of the namespace is never looked at. -/
def Plain (fs : FileSystem) (parent : List Name) : Prop :=
  ∀ location, location ≠ [] → location <+: parent → ¬LinkAt fs location

/-- The first link that a path passes is replaced by its target.  A link at the
very end counts only when it is to be followed. -/
inductive Expands (fs : FileSystem) (followFinal : Bool) : List Name → List Name → Prop
  | intro {parent rest : List Name} {name : Name} {node : Nat} {target : PathString} :
      Plain fs parent → At fs (parent ++ [name]) node → fs.kind node = .symlink →
      (fs.nodes node).symlinkTarget = some target → (rest ≠ [] ∨ followFinal) →
      Expands fs followFinal (parent ++ name :: rest) (linkTarget parent target ++ rest)

theorem Plain.snoc (plain : Plain fs parent) (located : At fs (parent ++ [name]) node)
    (notLink : fs.kind node ≠ .symlink) : Plain fs (parent ++ [name]) := by
  intro location nonempty within
  rcases prefix_concat_iff.mp within with rfl | shorter
  · rintro ⟨other, there, isLink⟩
    rw [there.unique located] at isLink
    exact notLink isLink
  · exact plain location nonempty shorter

/-- Where a link is expanded, the way before it is free of links. -/
theorem Expands.location {target : List Name} (expands : Expands fs followFinal path target) :
    ∃ location rest, path = location ++ rest ∧ location ≠ [] ∧ LinkAt fs location ∧
      (rest ≠ [] ∨ followFinal) := by
  cases expands with
  | intro plain located isLink _ passed =>
    exact ⟨_, _, (append_cons _ _ _), by simp, ⟨_, located, isLink⟩, passed⟩

theorem Expands.deterministic
    (path first second : List Name) (left : Expands fs followFinal path first)
    (right : Expands fs followFinal path second) : first = second := by
  -- The parents are comparable, and a longer one would pass the other's link.
  have apart : ∀ {longer shorter rest : List Name} {name : Name} {node : Nat},
      Plain fs longer → At fs (shorter ++ [name]) node → fs.kind node = .symlink →
      longer <+: shorter ++ name :: rest → longer.length ≤ shorter.length := by
    intro longer shorter rest name node plain located isLink within
    by_contra exceeds
    rw [append_cons] at within
    have passes : shorter ++ [name] <+: longer :=
      prefix_of_prefix_length_le (prefix_append _ rest) within (by simp; omega)
    exact plain _ (by simp) passes ⟨node, located, isLink⟩
  generalize whole : path = other at right
  cases left with
  | intro plain located isLink points passed =>
    rename_i parent rest name node target
    cases right with
    | intro plain' located' isLink' points' passed' =>
      rename_i parent' rest' name' node' target'
      have within : parent <+: parent' ++ name' :: rest' := whole ▸ prefix_append _ _
      have within' : parent' <+: parent ++ name :: rest := whole.symm ▸ prefix_append _ _
      have length : parent.length = parent'.length :=
        Nat.le_antisymm (apart plain located' isLink' within) (apart plain' located isLink within')
      obtain ⟨rfl, tails⟩ := append_inj whole length
      cases tails
      cases located.unique located'
      cases points.symm.trans points'
      rfl

/-! ## Lookups follow the rewriting -/

theorem foldl_resolveNamespacePath {base : List Name} (baseNormal : Normal base)
    (restNormal : Normal rest) :
    rest.foldl resolveNamespacePath (joinPath base) = joinPath (base ++ rest) := by
  induction rest generalizing base with
  | nil => simp
  | cons name rest ih =>
    have isName := restNormal name mem_cons_self
    have tail := restNormal.subset (subset_cons_self name rest)
    have single : Normal [name] := fun _ member => mem_singleton.mp member ▸ isName
    rw [foldl_cons, resolveNamespacePath_name baseNormal isName,
      ih (baseNormal.append single) tail, append_assoc, singleton_append]

/-- What the end of a walk says about the path walked. -/
def Walk.Meets (fs : FileSystem) (followFinal : Bool) (path : List Name) : Walk → Prop
  | .found lookup =>
    lookup.path = joinPath path ∧ ∀ target, ¬Expands fs followFinal path target
  | .redirected next =>
    ∃ target, next = joinPath target ∧ Normal target ∧ Expands fs followFinal path target

theorem walk_meets
    {current : Nat} {result : Walk} (parentNormal : Normal parent) (restNormal : Normal rest)
    (located : At fs parent current) (plain : Plain fs parent)
    (run : walk fs followFinal current (joinPath parent) rest = .ok result) :
    result.Meets fs followFinal (parent ++ rest) := by
  induction rest generalizing parent current with
  | nil =>
    cases run
    rw [append_nil]
    refine ⟨rfl, fun target expands => ?_⟩
    obtain ⟨location, rest, whole, nonempty, link, -⟩ := expands.location
    exact plain location nonempty (whole ▸ prefix_append _ _) link
  | cons name rest ih =>
    have isName := restNormal name mem_cons_self
    have tail := restNormal.subset (subset_cons_self name rest)
    have childNormal : Normal (parent ++ [name]) :=
      parentNormal.append fun _ member => mem_singleton.mp member ▸ isName
    simp only [walk, resolveNamespacePath_name parentNormal isName] at run
    split at run
    · cases run
    rename_i next reached
    have child : At fs (parent ++ [name]) next := by
      rcases or_eq_some_iff.mp reached with mounted | ⟨unmounted, held⟩
      · exact .mount mounted
      · exact .entry unmounted located held
    split at run
    · rename_i link
      split at run
      · cases run
      rename_i target points
      cases run
      have targetNormal := linkTarget_normal parentNormal target
      rw [resolveSymlinkPath_joinPath parentNormal, foldl_resolveNamespacePath targetNormal tail]
      exact ⟨_, rfl, targetNormal.append tail, .intro plain child link.1 points link.2⟩
    · rename_i passes
      rcases Decidable.em (fs.kind next = .symlink) with isLink | notLink
      · -- Only a link at the end that is not followed gets here.
        rw [not_and, not_or, not_not] at passes
        obtain ⟨rfl, notFollowed⟩ := passes isLink
        cases run
        refine ⟨rfl, fun target expands => ?_⟩
        obtain ⟨location, after, whole, nonempty, link, passed⟩ := expands.location
        rcases prefix_concat_iff.mp ⟨after, whole.symm⟩ with rfl | within
        · have atEnd : after = [] := append_right_eq_self.mp whole.symm
          exact passed.elim (absurd atEnd) notFollowed
        · exact plain location nonempty within link
      · rw [append_cons]
        exact ih childNormal tail child (plain.snoc child notLink) run

/-- A successful lookup ends where the rewriting of its path ends. -/
theorem lookupWithin_ends {allowed : Nat} (normal : Normal path)
    (found : lookupWithin fs followFinal allowed (joinPath path) = .ok lookup) :
    ∃ target, Normal target ∧ lookup.path = joinPath target ∧
      Ends (Expands fs followFinal) path target := by
  induction allowed generalizing path with
  | zero => cases found
  | succ allowed ih =>
    simp only [lookupWithin, normalizeAbsolutePath_joinPath normal,
      splitComponents_joinPath normal] at found
    have emptyPlain : Plain fs [] :=
      fun location nonempty within => absurd (prefix_nil.mp within) nonempty
    split at found
    · rename_i top
      cases found
      have empty : path = [] :=
        joinPath_injective normal (fun _ member => absurd member not_mem_nil) top
      subst empty
      refine ⟨[], normal, rfl, .refl fun target expands => ?_⟩
      obtain ⟨location, rest, whole, nonempty, -⟩ := expands.location
      exact nonempty (append_eq_nil_iff.mp whole.symm).1
    have meets : ∀ result,
        walk fs followFinal fs.mounted.rootNode ['/'] path = .ok result →
        result.Meets fs followFinal path := fun result run =>
      walk_meets (fun _ member => absurd member not_mem_nil) normal .root emptyPlain run
    split at found
    · cases found
    · rename_i run
      cases found
      obtain ⟨located, stops⟩ := meets _ run
      exact ⟨path, normal, located, .refl stops⟩
    · rename_i run
      obtain ⟨next, rfl, nextNormal, expands⟩ := meets _ run
      obtain ⟨target, targetNormal, located, ends⟩ := ih nextNormal found
      exact ⟨target, targetNormal, located, ends.head expands⟩

/-- The links on the way from a path, expanded one after the other, end below
`root`. -/
def Confined (fs : FileSystem) (followFinal : Bool) (root path : List Name) : Prop :=
  ∀ target, Ends (Expands fs followFinal) path target → root <+: target

theorem lookup_within_iff (rootNormal : Normal root) (normal : Normal path)
    (found : lookupNamespaceEntry fs (joinPath path) followFinal = .ok lookup) :
    isWithin (joinPath root) lookup.path = true ↔ Confined fs followFinal root path := by
  obtain ⟨target, targetNormal, located, ends⟩ := lookupWithin_ends normal found
  rw [located, isWithin_joinPath rootNormal targetNormal]
  constructor
  · intro within other otherEnds
    rw [otherEnds.unique Expands.deterministic ends]
    exact within
  · intro confined
    exact confined target ends

/-! ## Creation adds no links -/

/-- `after` has every node and entry of `fs`; new entries lead to new nodes, and
no new node is a link. -/
structure Extends (fs after : FileSystem) : Prop where
  mounted : after.mounted = fs.mounted
  next_le : fs.next ≤ after.next
  old : ∀ node, node < fs.next → after.kind node = fs.kind node ∧
    (after.nodes node).symlinkTarget = (fs.nodes node).symlinkTarget
  kept : ∀ {node name child}, fs.entry node name = some child → after.entry node name = some child
  added : ∀ {node name child}, after.entry node name = some child →
    fs.entry node name = some child ∨ fs.next ≤ child
  plain : ∀ node, fs.next ≤ node → node < after.next → after.kind node ≠ .symlink

namespace Extends

theorem refl (fs : FileSystem) : Extends fs fs where
  mounted := rfl
  next_le := le_rfl
  old := fun _ _ => ⟨rfl, rfl⟩
  kept := id
  added := .inl
  plain := fun _ new old => absurd old (Nat.not_lt.mpr new)

theorem trans {middle after : FileSystem} (first : Extends fs middle)
    (second : Extends middle after) : Extends fs after where
  mounted := second.mounted.trans first.mounted
  next_le := first.next_le.trans second.next_le
  old := fun node inUse =>
    have later := second.old node (inUse.trans_le first.next_le)
    have earlier := first.old node inUse
    ⟨later.1.trans earlier.1, later.2.trans earlier.2⟩
  kept := fun held => second.kept (first.kept held)
  added := by
    intro node name child held
    rcases second.added held with before | new
    · exact first.added before
    · exact .inr (first.next_le.trans new)
  plain := by
    intro node new inUse
    rcases Nat.lt_or_ge node middle.next with before | later
    · rw [(second.old node before).1]
      exact first.plain node new before
    · exact second.plain node later inUse

end Extends

variable {location : List Name}

theorem At.lt_next (located : At fs location node) : node < fs.next := by
  cases located with
  | root => exact fs.root_lt
  | mount mounted => exact fs.lookupMount_lt mounted
  | entry _ _ held => exact (fs.entries_lt held).2

variable {after : FileSystem} (grown : Extends fs after) {kind : NodeKind}

include grown

theorem At.mono (located : At fs location node) :
    At after location node := by
  induction located with
  | root =>
    rw [← grown.mounted]
    exact .root
  | mount mounted => exact .mount (grown.mounted ▸ mounted)
  | entry unmounted _ held ih => exact .entry (grown.mounted ▸ unmounted) ih (grown.kept held)

/-- A node that was there before is found at no new location. -/
theorem At.of_extends (located : At after location node)
    (old : node < fs.next) : At fs location node := by
  induction located with
  | root =>
    rw [grown.mounted]
    exact .root
  | mount mounted => exact .mount (grown.mounted ▸ mounted)
  | entry unmounted _ held ih =>
    rcases grown.added held with before | new
    · exact .entry (grown.mounted ▸ unmounted) (ih (fs.entries_lt before).1) before
    · exact absurd old (Nat.not_lt.mpr new)

/-- The links before and after are the same nodes at the same locations. -/
theorem at_link_iff : (At after location node ∧ after.kind node = .symlink) ↔
      (At fs location node ∧ fs.kind node = .symlink) := by
  constructor
  · rintro ⟨located, isLink⟩
    have old : node < fs.next := by
      by_contra new
      exact grown.plain node (Nat.not_lt.mp new) located.lt_next isLink
    exact ⟨located.of_extends grown old, (grown.old node old).1 ▸ isLink⟩
  · rintro ⟨located, isLink⟩
    exact ⟨located.mono grown, (grown.old node located.lt_next).1.trans isLink⟩

theorem expands_iff (path target : List Name) :
    Expands after followFinal path target ↔ Expands fs followFinal path target := by
  have plain : ∀ parent, Plain after parent ↔ Plain fs parent := by
    intro parent
    simp only [Plain, LinkAt, at_link_iff grown]
  constructor
  · rintro ⟨clear, located, isLink, points, passed⟩
    obtain ⟨before, wasLink⟩ := (at_link_iff grown).mp ⟨located, isLink⟩
    rw [(grown.old _ before.lt_next).2] at points
    exact .intro ((plain _).mp clear) before wasLink points passed
  · rintro ⟨clear, located, isLink, points, passed⟩
    obtain ⟨later, stillLink⟩ := (at_link_iff grown).mpr ⟨located, isLink⟩
    rw [← (grown.old _ located.lt_next).2] at points
    exact .intro ((plain _).mpr clear) later stillLink points passed

theorem confined_iff_of_extends :
    Confined after followFinal root path ↔ Confined fs followFinal root path := by
  simp only [Confined, Ends.congr (expands_iff grown)]

omit grown

theorem insertNew_extends (fs : FileSystem) {parent : Nat}
    (inUse : parent < fs.next) (free : fs.entry parent name = none) (notLink : kind ≠ .symlink) :
    Extends fs (fs.insertNew parent name kind inUse) where
  mounted := rfl
  next_le := Nat.le_succ _
  old := by
    intro node old
    have distinct : node ≠ fs.next := old.ne
    simp only [FileSystem.kind, FileSystem.insertNew, insertNode, if_neg distinct]
    split
    · rename_i same
      exact ⟨congrArg (fun n => (fs.nodes n).kind) same.symm,
        congrArg (fun n => (fs.nodes n).symlinkTarget) same.symm⟩
    · exact ⟨rfl, rfl⟩
  kept := by
    intro node other child held
    have distinct : node ≠ fs.next := (fs.entries_lt held).1.ne
    simp only [FileSystem.entry, FileSystem.insertNew, insertNode, if_neg distinct]
    split
    · rename_i same
      subst same
      have differs : other ≠ name := by
        rintro rfl
        exact absurd (free.symm.trans held) (by simp)
      simp only [Inode.insert, Function.update_of_ne differs]
      exact held
    · exact held
  added := by
    intro node other child held
    rcases entries_insertNode held with before | ⟨-, rfl⟩
    · exact .inl before
    · exact .inr le_rfl
  plain := by
    intro node new inUseAfter
    have same : node = fs.next := Nat.le_antisymm (Nat.lt_succ_iff.mp inUseAfter) new
    simpa [FileSystem.kind, FileSystem.insertNew, insertNode, same, Inode.empty] using notLink

theorem create_extends (fs : FileSystem) (parent : Nat) (name : Name) (notLink : kind ≠ .symlink) :
    (create parent name kind).Returns fs (fun _ after => Extends fs after) := by
  apply Returns.get
  split
  · rename_i inUse
    split
    · exact throw (.refl fs)
    split
    · exact throw (.refl fs)
    · rename_i free
      rw [not_isSome_iff_eq_none] at free
      exact set (pure (insertNew_extends fs inUse free notLink))
  · exact throw (.refl fs)

theorem resolveExisting_returns (fs : FileSystem) (existing : Nat) (path : PathString) :
    (resolveExisting existing path).Returns fs (fun _ after => after = fs) := by
  apply Returns.get
  split
  · exact ofExcept rfl
  · exact pure rfl

theorem createLoop_extends (notLink : kind ≠ .symlink) (components : List Name)
    (fs : FileSystem) (current : Nat) (path : PathString) :
    (createLoop kind current path components).Returns fs (fun _ after => Extends fs after) := by
  induction components generalizing fs current path with
  | nil => exact pure (.refl fs)
  | cons component rest ih =>
    apply Returns.get
    dsimp only
    split
    · -- A mount covers the location.
      split
      · exact throw (.refl fs)
      split
      · exact throw (.refl fs)
      · exact ih fs _ _
    split
    · -- The entry exists.
      refine (resolveExisting_returns fs _ _).bind (fun _ _ same => same ▸ Extends.refl fs)
        fun next _ same => ?_
      subst same
      split
      · exact throw (.refl _)
      split
      · exact throw (.refl _)
      · exact ih _ _ _
    · -- The entry is missing and is created.
      have newKind : (if rest = [] then kind else .directory) ≠ NodeKind.symlink := by
        split
        · exact notLink
        · decide
      refine (create_extends fs current component newKind).bind
        (fun _ _ grown => grown) fun next middle grown => ?_
      exact (ih middle next _).mono fun _ after later => grown.trans later

theorem createNamespacePath_extends (notLink : kind ≠ .symlink)
    (fs : FileSystem) (path : PathString) :
    (createNamespacePath path kind).Returns fs (fun outcome after =>
      Extends fs after ∧ ∀ node, outcome = .ok node → normalizeAbsolutePath path ≠ ['/']) := by
  unfold createNamespacePath
  dsimp only
  split
  · exact throw ⟨.refl fs, nofun⟩
  · rename_i below
    exact (createLoop_extends notLink _ fs _ _).mono fun _ _ grown => ⟨grown, fun _ _ => below⟩

/-! ## Requests -/

variable (view : ProcessFs)

/-- The components of the path that a request starts from. -/
def ProcessFs.viewComponents (path : PathString) : List Name :=
  splitComponents (view.viewPath path)

/-- The condition under which a request stays below the root of the process. -/
def Request.Confined (request : Request) (view : ProcessFs) : Prop :=
  let root := splitComponents view.root.path
  match request with
  | .lookup path followFinal =>
    (lookupVirtual view.currentPid (view.viewPath path)).isSome ∨
      Rootfs.Confined view.fs followFinal root (view.viewComponents path)
  | .chdir path => Rootfs.Confined view.fs true root (view.viewComponents path)
  | .chroot _ => True
  | .mkdir path | .createFile path =>
    Rootfs.Confined view.fs true root (view.viewComponents path).dropLast

/-- The path to be confined: `chroot` may go anywhere below the old root, as it
only moves the root. -/
def Request.Stays (request : Request) (view : ProcessFs) (resolved : PathString)
    (after : ProcessFs) : Prop :=
  match request with
  | .chroot _ => isWithin after.root.path after.cwd.path = true
  | _ => isWithin view.root.path resolved = true ∧
      isWithin after.root.path after.cwd.path = true

variable (within : isWithin view.root.path view.cwd.path = true)
include within

/-- The root of a process and the path it names, as components. -/
theorem ProcessFs.components (path : PathString) :
    Normal (splitComponents view.root.path) ∧ Normal (view.viewComponents path) ∧
      joinPath (splitComponents view.root.path) = view.root.path ∧
      joinPath (view.viewComponents path) = view.viewPath path ∧
      splitComponents view.root.path <+: view.viewComponents path := by
  obtain ⟨root, rootNormal, rootPath⟩ := view.root.normal
  obtain ⟨cwd, cwdNormal, cwdPath⟩ := view.cwd.normal
  rw [rootPath, cwdPath, isWithin_joinPath rootNormal cwdNormal] at within
  obtain ⟨named, resolved, namedNormal, below⟩ :=
    resolveViewPath_within path rootNormal cwdNormal within
  simp only [viewComponents, viewPath, rootPath, cwdPath, resolved,
    splitComponents_joinPath rootNormal, splitComponents_joinPath namedNormal]
  exact ⟨rootNormal, namedNormal, trivial, trivial, below⟩

/-- A lookup from a view is confined exactly when its links are. -/
theorem ProcessFs.lookup_within_iff {path : PathString}
    (found : lookupNamespaceEntry view.fs (view.viewPath path) followFinal = .ok lookup) :
    isWithin view.root.path lookup.path = true ↔
      Rootfs.Confined view.fs followFinal (splitComponents view.root.path)
        (view.viewComponents path) := by
  obtain ⟨rootNormal, namedNormal, rootPath, namedPath, -⟩ := view.components within path
  rw [← namedPath] at found
  rw [← Rootfs.lookup_within_iff rootNormal namedNormal found, rootPath]

/-- A lookup leaves a path in normal form, so a location made from it keeps it. -/
theorem ProcessFs.new_path {path : PathString} (node : Nat)
    (found : lookupNamespaceEntry view.fs (view.viewPath path) followFinal = .ok lookup) :
    (FsLocation.new lookup.path node).path = lookup.path := by
  obtain ⟨-, namedNormal, -, namedPath, -⟩ := view.components within path
  rw [← namedPath] at found
  obtain ⟨target, targetNormal, located, -⟩ := lookupWithin_ends namedNormal found
  change normalizeAbsolutePath lookup.path = lookup.path
  rw [located, normalizeAbsolutePath_joinPath targetNormal]

omit within in
theorem ProcessFs.lookupDirectory_eq_ok {view : ProcessFs} {path : PathString}
    (found : view.lookupDirectory path = .ok lookup) :
    lookupNamespaceEntry view.fs (view.viewPath path) true = .ok lookup := by
  unfold lookupDirectory at found
  split at found
  · cases found
  · rename_i run
    split at found
    · cases found
    · cases found
      exact run

/-- The parent of a created entry is looked up among the links that were there
before the creation. -/
theorem ProcessFs.createIn_within_iff {after : ProcessFs}
    {path parent : PathString} (notLink : kind ≠ .symlink)
    (created : view.createIn path kind = some (.ok parent, after)) :
    after.root = view.root ∧ after.cwd = view.cwd ∧ (isWithin view.root.path parent = true ↔
        Rootfs.Confined view.fs true (splitComponents view.root.path)
          (view.viewComponents path).dropLast) := by
  obtain ⟨rootNormal, namedNormal, rootPath, namedPath, -⟩ := view.components within path
  unfold createIn at created
  split at created
  · cases created
  · cases created
  rename_i node fs run
  obtain ⟨grown, below⟩ :=
    (createNamespacePath_extends notLink view.fs (view.viewPath path)).of_run run
  have nonempty : view.viewComponents path ≠ [] := by
    intro empty
    apply below node rfl
    rw [← namedPath, empty]
    rfl
  simp only [Option.some.injEq, Prod.mk.injEq] at created
  obtain ⟨looked, rfl⟩ := created
  rw [← namedPath, parentPath_joinPath namedNormal nonempty] at looked
  obtain ⟨lookup, found, rfl⟩ := exists_of_map_eq_ok looked
  refine ⟨rfl, rfl, ?_⟩
  rw [← confined_iff_of_extends grown,
    ← Rootfs.lookup_within_iff rootNormal namedNormal.dropLast found, rootPath]

omit within

theorem created_eq_some {result : Option (Except SysErr PathString × ProcessFs)}
    {parent : PathString} {after : ProcessFs}
    (created : Request.perform.created result = some (parent, after)) :
    result = some (.ok parent, after) := by
  unfold Request.perform.created at created
  split at created
  · cases created
    rfl
  · cases created

/-- A successful request stays below the root of the process exactly when the
links it meets end there. -/
theorem perform_stays_iff_confined (request : Request) (view after : ProcessFs)
    (resolved : PathString) (within : isWithin view.root.path view.cwd.path = true)
    (done : request.perform view = some (resolved, after)) :
    request.Stays view resolved after ↔ request.Confined view := by
  cases request with
  | lookup path followFinal =>
    obtain ⟨rootNormal, namedNormal, rootPath, namedPath, below⟩ := view.components within path
    simp only [Request.perform, lookupIn] at done
    simp only [Request.Stays, Request.Confined]
    cases virtual : lookupVirtual view.currentPid (view.viewPath path) with
    | some answer =>
      rw [virtual] at done
      cases answer with
      | error error => cases done
      | ok node =>
        cases done
        refine iff_of_true ⟨?_, within⟩ (.inl rfl)
        rw [← rootPath, ← namedPath, isWithin_joinPath rootNormal namedNormal]
        exact below
    | none =>
      rw [virtual] at done
      obtain ⟨_, mapped, ⟨⟩⟩ := map_eq_some_iff.mp done
      obtain ⟨lookup, found, rfl⟩ := exists_of_map_eq_ok (eq_ok_of_toOption mapped)
      rw [view.lookup_within_iff within found]
      simp [within]
  | chdir path =>
    obtain ⟨lookup, directory, ⟨⟩⟩ := exists_of_map_eq_ok (eq_ok_of_toOption done)
    have found := lookupDirectory_eq_ok directory
    simp only [Request.Stays, view.new_path within _ found, and_self]
    exact view.lookup_within_iff within found
  | chroot path =>
    obtain ⟨lookup, directory, ⟨⟩⟩ := exists_of_map_eq_ok (eq_ok_of_toOption done)
    refine iff_of_true ?_ trivial
    simp only [Request.Stays]
    split
    · assumption
    · obtain ⟨root, rootNormal, rootPath⟩ := (FsLocation.new lookup.path lookup.node).normal
      rw [rootPath, isWithin_joinPath rootNormal rootNormal]
  | mkdir path | createFile path =>
    obtain ⟨sameRoot, sameCwd, confined⟩ :=
      view.createIn_within_iff within (by decide) (created_eq_some done)
    simp only [Request.Stays, sameRoot, sameCwd, within, and_true]
    exact confined

/-! ## A link out of the jail -/

/-- A directory with the given entries. -/
def directoryOf (entries : List (String × Nat)) : Inode :=
  ⟨.directory, fun name => (entries.find? fun entry => entry.1.toList = name).map Prod.snd, none⟩

theorem entries_directoryOf {entries : List (String × Nat)} {child : Nat}
    (held : (directoryOf entries).entries name = some child) : child ∈ entries.map Prod.snd := by
  obtain ⟨entry, found, rfl⟩ := map_eq_some_iff.mp held
  exact mem_map_of_mem (mem_of_find?_eq_some found)

variable (target : String)

/-- `/etc` and `/jail`, and in the jail a link with the given target. -/
def jailNodes : Nat → Inode
  | 0 => directoryOf [("jail", 1), ("etc", 2)]
  | 1 => directoryOf [("out", 3)]
  | 3 => ⟨.symlink, fun _ => none, some target.toList⟩
  | _ => Inode.empty .directory

def jailFileSystem : FileSystem where
  nodes := jailNodes target
  next := 4
  mounted := ⟨[0], fun _ => [], by simp⟩
  entries_lt := by
    intro node name child held
    unfold jailNodes at held
    split at held
    · exact ⟨by decide, (by decide : ∀ child ∈ [1, 2], child < 4) child (entries_directoryOf held)⟩
    · exact ⟨by decide, (by decide : ∀ child ∈ [3], child < 4) child (entries_directoryOf held)⟩
    · cases held
    · cases held
  root_lt := by decide
  mounts_lt := by
    intro path node member
    cases member

/-- A process with root and working directory `/jail`. -/
def jailed : ProcessFs where
  fs := jailFileSystem target
  root := FsLocation.new "/jail".toList 1
  cwd := FsLocation.new "/jail".toList 1
  currentPid := some 1

/-- Changing to an absolute link in the jail leaves it. -/
theorem chdir_leaves_jail : ∃ after, (Request.chdir "/out".toList).perform (jailed "/etc") =
        some ("/etc".toList, after) ∧
      isWithin (jailed "/etc").root.path (jailed "/etc").cwd.path = true ∧
      ¬(Request.chdir "/out".toList).Stays (jailed "/etc") "/etc".toList after := by
  refine ⟨_, rfl, by decide, ?_⟩
  rintro ⟨within, -⟩
  exact absurd within (by decide)

/-- A link that points back into the jail is followed within it. -/
theorem perform_stays_iff_confined_inside :
    ∃ after, (Request.chdir "/out".toList).perform (jailed "/jail") = some ("/jail".toList, after) ∧
      (Request.chdir "/out".toList).Confined (jailed "/jail") :=
  ⟨_, rfl, (perform_stays_iff_confined _ _ _ _ (by decide) rfl).mp ⟨by decide, by decide⟩⟩

end AetherKernel.Rootfs
