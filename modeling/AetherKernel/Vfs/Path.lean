import Mathlib.Data.List.Infix

/-!
# Path strings

Paths are strings of characters; a path in normal form is the list of its
components written with a slash before each.  Resolution is lexical: `..`
removes the component before it, down to an anchor that it cannot pass.
-/

namespace AetherKernel.Vfs

open List

abbrev PathString :=
  List Char

abbrev Name :=
  List Char

/-! ## Resolution -/

variable (path : PathString) {first second components root names parent : List Name}
  {component name : Name} {anchor : Nat}

/-- The components of a path, without empty ones and `.`. -/
def splitComponents : List Name :=
  (path.splitOn '/').filter fun component => component ≠ [] ∧ component ≠ ['.']

/-- The path string of a list of components. -/
def joinPath (components : List Name) : PathString :=
  if components = [] then ['/'] else '/' :: ['/'].intercalate components

/-- What one component of a path does to the components before it. -/
def pushComponent (anchor : Nat) (components : List Name) (component : Name) : List Name :=
  if component = [] ∨ component = ['.'] then components
  else if component = ['.', '.'] then
    if anchor < components.length then components.dropLast else components
  else components ++ [component]

/-- The components left after all those of a path have been pushed. -/
def resolvedComponents (components : List Name) (anchor : Nat) (path : PathString) : List Name :=
  (path.splitOn '/').foldl (pushComponent anchor) components

def resolveComponents (components : List Name) (anchor : Nat) (path : PathString) : PathString :=
  joinPath (resolvedComponents components anchor path)

def normalizeAbsolutePath : PathString :=
  resolveComponents [] 0 path

/-- Resolution as a process with that root and working directory sees it. -/
def resolveViewPath (root cwd path : PathString) : PathString :=
  if path.head? = some '/' then
    resolveComponents (splitComponents root) (splitComponents root).length path
  else
    resolveComponents (splitComponents cwd) (splitComponents root).length path

/-- Resolution from the root of the mount namespace. -/
def resolveNamespacePath (base path : PathString) : PathString :=
  if path.head? = some '/' then normalizeAbsolutePath path
  else resolveComponents (splitComponents base) 0 path

def resolveSymlinkPath (parent target : PathString) : PathString :=
  resolveNamespacePath parent target

/-- Everything before the last slash, with `/` for the empty string. -/
def parentPath : PathString :=
  let parent := ['/'].intercalate (path.splitOn '/').dropLast
  if parent = [] then ['/'] else parent

def isWithin (root path : PathString) : Bool :=
  if root = ['/'] then path.head? == some '/'
  else path == root || (root ++ ['/']).isPrefixOf path

/-- The path as a process with that root shows it. -/
def displayPathFromRoot (root path : PathString) : PathString :=
  if root = ['/'] then normalizeAbsolutePath path
  else if path = root then ['/']
  else ((path.dropPrefix? root).filter (· ≠ [])).getD ['/']

/-! ## Normal form -/

/-- A component that lexical resolution keeps. -/
def IsName (name : Name) : Prop :=
  name ≠ [] ∧ name ≠ ['.'] ∧ name ≠ ['.', '.'] ∧ '/' ∉ name

instance (name : Name) : Decidable (IsName name) :=
  inferInstanceAs (Decidable (_ ∧ _ ∧ _ ∧ _))

/-- The components of a path in normal form. -/
def Normal (components : List Name) : Prop :=
  ∀ name ∈ components, IsName name

instance (components : List Name) : Decidable (Normal components) :=
  inferInstanceAs (Decidable (∀ name ∈ components, IsName name))

/-- An absolute path without empty components, `.` and `..`. -/
def IsNormalPath : Prop :=
  path = ['/'] ∨ path.head? = some '/' ∧ Normal (path.tail.splitOn '/')

instance : Decidable (IsNormalPath path) :=
  inferInstanceAs (Decidable (_ ∨ _ ∧ _))

theorem Normal.nil : Normal [] :=
  nofun

theorem Normal.append (left : Normal first) (right : Normal second) : Normal (first ++ second) :=
  forall_mem_append.mpr ⟨left, right⟩

theorem Normal.subset (normal : Normal second) (sub : first ⊆ second) : Normal first :=
  fun name member => normal name (sub member)

theorem Normal.dropLast (normal : Normal components) : Normal components.dropLast :=
  normal.subset (dropLast_subset components)

/-! ## Splitting and joining -/

theorem not_mem_of_mem_splitOn {path : PathString}
    (member : component ∈ path.splitOn '/') : '/' ∉ component := by
  induction path generalizing component with
  | nil =>
    rw [splitOn_nil, mem_singleton] at member
    rw [member]
    exact not_mem_nil
  | cons c rest ih =>
    rw [splitOn_cons_eq_if_modifyHead] at member
    split at member
    · rcases mem_cons.mp member with rfl | later
      · exact not_mem_nil
      · exact ih later
    rename_i other
    obtain ⟨head, tail, parts⟩ := exists_cons_of_ne_nil (splitOn_ne_nil '/' rest)
    rw [parts] at ih
    rw [parts, modifyHead_cons, mem_cons] at member
    rcases member with rfl | later
    · rw [mem_cons]
      rintro (same | inHead)
      · exact other (beq_iff_eq.mpr same.symm)
      · exact ih mem_cons_self inHead
    · exact ih (mem_cons_of_mem _ later)

theorem splitOn_intercalate_of_normal (normal : Normal components) (nonempty : components ≠ []) :
    (['/'].intercalate components).splitOn '/' = components :=
  splitOn_intercalate _ (fun name member => (normal name member).2.2.2) nonempty

theorem splitOn_joinPath (normal : Normal components) (nonempty : components ≠ []) :
    (joinPath components).splitOn '/' = [] :: components := by
  have split := splitOn_append_cons_self (a := '/') [] (['/'].intercalate components)
  rw [splitOn_intercalate_of_normal normal nonempty] at split
  rw [joinPath, if_neg nonempty]
  exact split

theorem splitComponents_joinPath (normal : Normal components) :
    splitComponents (joinPath components) = components := by
  rcases Decidable.em (components = []) with rfl | nonempty
  · rfl
  · rw [splitComponents, splitOn_joinPath normal nonempty, filter_cons_of_neg (by simp),
      filter_eq_self]
    intro name member
    simpa using ⟨(normal name member).1, (normal name member).2.1⟩

theorem joinPath_injective (left : Normal first)
    (right : Normal second) (same : joinPath first = joinPath second) : first = second := by
  rw [← splitComponents_joinPath left, same, splitComponents_joinPath right]

theorem head_joinPath (components : List Name) : (joinPath components).head? = some '/' := by
  unfold joinPath
  split <;> rfl

theorem joinPath_ne_slash (normal : Normal components) (nonempty : components ≠ []) :
    joinPath components ≠ ['/'] := by
  intro same
  exact nonempty (joinPath_injective normal .nil same)

theorem isNormalPath_iff {path : PathString} :
    IsNormalPath path ↔ ∃ components, Normal components ∧ joinPath components = path := by
  constructor
  · rintro (rfl | ⟨absolute, normal⟩)
    · exact ⟨[], .nil, rfl⟩
    · refine ⟨_, normal, ?_⟩
      rw [joinPath, if_neg (splitOn_ne_nil _ _), intercalate_splitOn]
      exact cons_head?_tail absolute
  · rintro ⟨components, normal, rfl⟩
    rcases Decidable.em (components = []) with rfl | nonempty
    · exact .inl rfl
    · refine .inr ⟨head_joinPath components, ?_⟩
      rwa [joinPath, if_neg nonempty, tail_cons, splitOn_intercalate_of_normal normal nonempty]

/-! ## What resolution preserves -/

theorem pushComponent_of_isName
    (isName : IsName name) : pushComponent anchor components name = components ++ [name] := by
  obtain ⟨nonempty, notDot, notDotDot, -⟩ := isName
  simp [pushComponent, nonempty, notDot, notDotDot]

theorem pushComponent_normal (normal : Normal components) (apart : '/' ∉ component) :
    Normal (pushComponent anchor components component) := by
  unfold pushComponent
  split
  · exact normal
  rename_i kept
  split
  · split
    · exact normal.dropLast
    · exact normal
  rename_i notDotDot
  rw [not_or] at kept
  apply normal.append
  intro name member
  rw [mem_singleton.mp member]
  exact ⟨kept.1, kept.2, notDotDot, apart⟩

/-- No component removes anything at or below the anchor. -/
theorem pushComponent_within (component : Name) (within : root <+: components) :
    root <+: pushComponent root.length components component := by
  unfold pushComponent
  split
  · exact within
  split
  · split
    · rename_i longer
      obtain ⟨rest, rfl⟩ := within
      have nonempty : rest ≠ [] := by
        rintro rfl
        simp at longer
      rw [dropLast_append_of_ne_nil nonempty]
      exact prefix_append root rest.dropLast
    · exact within
  · exact within.trans (prefix_append components [component])

theorem resolvedComponents_normal (anchor : Nat) (path : PathString)
    (normal : Normal components) : Normal (resolvedComponents components anchor path) := by
  refine foldlRecOn _ _ normal fun before isNormal part member => ?_
  exact pushComponent_normal isNormal (not_mem_of_mem_splitOn member)

theorem resolvedComponents_within (within : root <+: components) :
    root <+: resolvedComponents components root.length path :=
  foldlRecOn _ _ within fun _ before part _ => pushComponent_within part before

theorem foldl_pushComponent_of_normal (normal : Normal names) :
    names.foldl (pushComponent anchor) components = components ++ names := by
  induction names generalizing components with
  | nil => simp
  | cons name rest ih =>
    rw [foldl_cons, pushComponent_of_isName (normal name mem_cons_self),
      ih (normal.subset (subset_cons_self name rest)), append_assoc,
      singleton_append]

/-- Resolving a path in normal form appends its components. -/
theorem resolvedComponents_joinPath (normal : Normal names) :
    resolvedComponents components anchor (joinPath names) = components ++ names := by
  rcases Decidable.em (names = []) with rfl | nonempty
  · rw [append_nil]
    rfl
  · rw [resolvedComponents, splitOn_joinPath normal nonempty]
    exact foldl_pushComponent_of_normal normal

theorem resolvedComponents_append (components : List Name) (anchor : Nat)
    (first second : PathString) :
    resolvedComponents components anchor (first ++ '/' :: second) =
      resolvedComponents (resolvedComponents components anchor first) anchor second := by
  rw [resolvedComponents, splitOn_append_cons_self, foldl_append]
  rfl

theorem resolvedComponents_name (isName : IsName name) :
    resolvedComponents components anchor name = components ++ [name] := by
  rw [resolvedComponents, splitOn_eq_singleton isName.2.2.2]
  exact pushComponent_of_isName isName

/-! ## Paths in normal form -/

@[simp]
theorem normalizeAbsolutePath_joinPath (normal : Normal components) :
    normalizeAbsolutePath (joinPath components) = joinPath components := by
  rw [normalizeAbsolutePath, resolveComponents, resolvedComponents_joinPath normal, nil_append]

/-- The location of a child. -/
theorem resolveNamespacePath_name (normal : Normal components) (isName : IsName name) :
    resolveNamespacePath (joinPath components) name = joinPath (components ++ [name]) := by
  have relative : name.head? ≠ some '/' := by
    intro absolute
    exact isName.2.2.2 (mem_of_mem_head? absolute)
  rw [resolveNamespacePath, if_neg relative, splitComponents_joinPath normal,
    resolveComponents, resolvedComponents_name isName]

/-- Where a symlink in the directory `parent` points. -/
def linkTarget (parent : List Name) (target : PathString) : List Name :=
  resolvedComponents (if target.head? = some '/' then [] else parent) 0 target

theorem linkTarget_normal (normal : Normal parent) (target : PathString) :
    Normal (linkTarget parent target) := by
  apply resolvedComponents_normal
  split
  · exact .nil
  · exact normal

theorem resolveSymlinkPath_joinPath (normal : Normal parent) (target : PathString) :
    resolveSymlinkPath (joinPath parent) target = joinPath (linkTarget parent target) := by
  rw [resolveSymlinkPath, resolveNamespacePath, linkTarget]
  split
  · rfl
  · rw [splitComponents_joinPath normal]
    rfl

/-- What a process can name lies below its root, before links are followed. -/
theorem resolveViewPath_within {cwd : List Name}
    (rootNormal : Normal root) (cwdNormal : Normal cwd) (within : root <+: cwd) :
    ∃ components, resolveViewPath (joinPath root) (joinPath cwd) path = joinPath components ∧
      Normal components ∧ root <+: components := by
  rw [resolveViewPath, splitComponents_joinPath rootNormal, splitComponents_joinPath cwdNormal]
  split
  · exact ⟨_, rfl, resolvedComponents_normal _ path rootNormal,
      resolvedComponents_within path prefix_rfl⟩
  · exact ⟨_, rfl, resolvedComponents_normal _ path cwdNormal,
      resolvedComponents_within path within⟩

theorem joinPath_append (left : first ≠ []) (right : second ≠ []) :
    joinPath (first ++ second) = joinPath first ++ joinPath second := by
  have flat : ∀ {names : List Name}, names ≠ [] → joinPath names = names.flatMap ('/' :: ·) := by
    intro names nonempty
    rw [joinPath, if_neg nonempty]
    induction names with
    | nil => exact absurd rfl nonempty
    | cons name rest ih =>
      rcases Decidable.em (rest = []) with rfl | more
      · simp
      · rw [intercalate_cons_of_ne_nil more, flatMap_cons, ← ih more]
        simp
  rw [flat left, flat right, flat (by simp [left]), flatMap_append]

/-- On normal forms `is_within` compares components. -/
theorem isWithin_joinPath {path : List Name} (rootNormal : Normal root) (pathNormal : Normal path) :
    isWithin (joinPath root) (joinPath path) = true ↔ root <+: path := by
  rcases Decidable.em (root = []) with rfl | below
  · have everywhere : isWithin (joinPath []) (joinPath path) = true := by
      rw [isWithin, head_joinPath]
      rfl
    exact iff_of_true everywhere nil_prefix
  rw [isWithin, if_neg (joinPath_ne_slash rootNormal below), Bool.or_eq_true, beq_iff_eq,
    isPrefixOf_iff_prefix]
  constructor
  · rintro (same | ⟨rest, longer⟩)
    · rw [joinPath_injective pathNormal rootNormal same]
    rw [append_assoc, singleton_append] at longer
    have nonempty : path ≠ [] := by
      rintro rfl
      have length := congrArg List.length longer
      simp [joinPath, below] at length
    have split := congrArg (List.splitOn '/') longer
    rw [splitOn_append_cons_self, splitOn_joinPath rootNormal below,
      splitOn_joinPath pathNormal nonempty, cons_append, cons_inj_right] at split
    exact ⟨_, split⟩
  · rintro ⟨rest, rfl⟩
    rcases Decidable.em (rest = []) with rfl | more
    · left
      rw [append_nil]
    · right
      rw [joinPath_append below more, joinPath, joinPath, if_neg more]
      exact ⟨_, by rw [append_assoc, singleton_append]⟩

theorem parentPath_joinPath (normal : Normal components) (nonempty : components ≠ []) :
    parentPath (joinPath components) = joinPath components.dropLast := by
  rw [parentPath, splitOn_joinPath normal nonempty, dropLast_cons_of_ne_nil nonempty]
  rcases Decidable.em (components.dropLast = []) with top | below
  · rw [top]
    rfl
  have parent : ['/'].intercalate ([] :: components.dropLast) = joinPath components.dropLast := by
    rw [intercalate_cons_of_ne_nil below, joinPath, if_neg below]
    rfl
  rw [parent]
  exact if_neg (by simp [joinPath, below])

/-! ## Laws of resolution -/

theorem displayPathFromRoot_joinPath {rest : List Name} (rootNormal : Normal root)
    (restNormal : Normal rest) :
    displayPathFromRoot (joinPath root) (joinPath (root ++ rest)) = joinPath rest := by
  unfold displayPathFromRoot
  rcases Decidable.em (root = []) with rfl | below
  · rw [nil_append, normalizeAbsolutePath_joinPath restNormal]
    rfl
  rw [if_neg (joinPath_ne_slash rootNormal below)]
  rcases Decidable.em (rest = []) with rfl | more
  · rw [append_nil, if_pos rfl]
    rfl
  have longer : joinPath (root ++ rest) ≠ joinPath root := by
    intro same
    have equal := joinPath_injective (rootNormal.append restNormal) rootNormal same
    exact more (append_right_eq_self.mp equal)
  rw [if_neg longer, joinPath_append below more, dropPrefix?_append_of_beq _ (beq_self_eq_true _),
    Option.filter_some_pos (by simp [joinPath, more])]
  rfl

/-- What a process resolves is in normal form and below its root; it may resolve a
path in two parts; and what it is shown leads back to where it came from. -/
theorem resolveViewPath_laws {root cwd : PathString} (rootForm : IsNormalPath root)
    (cwdForm : IsNormalPath cwd) (within : isWithin root cwd = true) :
    (∀ path, IsNormalPath (resolveViewPath root cwd path) ∧
      isWithin root (resolveViewPath root cwd path) = true) ∧
    (∀ first second : PathString, first ≠ [] → second.head? ≠ some '/' →
      resolveViewPath root (resolveViewPath root cwd first) second =
        resolveViewPath root cwd (first ++ '/' :: second)) ∧
    ∀ path, IsNormalPath path → isWithin root path = true →
      resolveViewPath root cwd (displayPathFromRoot root path) = path := by
  obtain ⟨root, rootNormal, rfl⟩ := isNormalPath_iff.mp rootForm
  obtain ⟨cwd, cwdNormal, rfl⟩ := isNormalPath_iff.mp cwdForm
  rw [isWithin_joinPath rootNormal cwdNormal] at within
  refine ⟨fun path => ?_, fun first second nonempty relative => ?_, fun path form below => ?_⟩
  · obtain ⟨components, resolved, normal, below⟩ :=
      resolveViewPath_within path rootNormal cwdNormal within
    rw [resolved, isWithin_joinPath rootNormal normal]
    exact ⟨isNormalPath_iff.mpr ⟨components, normal, rfl⟩, below⟩
  · -- The path in two parts starts where its first part does.
    have starts : (first ++ '/' :: second).head? = first.head? := head?_append_of_ne_nil _ nonempty
    simp only [resolveViewPath, if_neg relative, starts, splitComponents_joinPath rootNormal,
      splitComponents_joinPath cwdNormal, resolveComponents]
    split
    · rw [splitComponents_joinPath (resolvedComponents_normal _ _ rootNormal),
        resolvedComponents_append]
    · rw [splitComponents_joinPath (resolvedComponents_normal _ _ cwdNormal),
        resolvedComponents_append]
  · obtain ⟨components, normal, rfl⟩ := isNormalPath_iff.mp form
    obtain ⟨rest, rfl⟩ := (isWithin_joinPath rootNormal normal).mp below
    have restNormal : Normal rest := normal.subset (subset_append_right root rest)
    rw [displayPathFromRoot_joinPath rootNormal restNormal, resolveViewPath,
      if_pos (head_joinPath rest), splitComponents_joinPath rootNormal, resolveComponents,
      resolvedComponents_joinPath restNormal]

/-- A process confined to `/a` that works in `/a/b` asks for `../../c`. -/
theorem resolveViewPath_laws_confined :
    isWithin ['/', 'a'] (resolveViewPath ['/', 'a'] ['/', 'a', '/', 'b']
      ['.', '.', '/', '.', '.', '/', 'c']) = true :=
  ((resolveViewPath_laws (by decide) (by decide) (by decide)).1 _).2

end AetherKernel.Vfs
