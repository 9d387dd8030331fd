import AetherKernel.Errno
import AetherKernel.Lib.Exec
import AetherKernel.Vfs.Path
import Mathlib.Algebra.Group.Nat.Defs

/-!
# The root file system

Directory trees with symlinks, the mount namespace over them, and the path
lookups and creations that processes make.  A node is named by a number; the
metadata of a node (modes, owners, times) plays no part in a lookup and is left
out.
-/

namespace AetherKernel.Rootfs

open Lib Vfs Function Exec

/-! ## Trees and namespaces -/

inductive NodeKind where
  | directory
  | file
  | socket
  | symlink
  | blockDevice
  | charDevice
  | fifo
  deriving DecidableEq

structure Inode where
  kind : NodeKind
  entries : Name → Option Nat
  symlinkTarget : Option PathString

namespace Inode

/-- A directory, file or other node without entries. -/
def empty (kind : NodeKind) : Inode :=
  ⟨kind, fun _ => none, none⟩

def insert (inode : Inode) (name : Name) (child : Nat) : Inode :=
  ⟨inode.kind, update inode.entries name (some child), inode.symlinkTarget⟩

end Inode

/-- The nodes after a new one has been entered in a directory. -/
def insertNode (nodes : Nat → Inode) (parent : Nat) (name : Name) (child : Nat)
    (kind : NodeKind) (node : Nat) : Inode :=
  if node = child then Inode.empty kind
  else if node = parent then (nodes parent).insert name child
  else nodes node

/-- Every entry but the new one stands where it stood. -/
theorem entries_insertNode {nodes : Nat → Inode} {parent child node target : Nat}
    {name other : Name} {kind : NodeKind}
    (held : (insertNode nodes parent name child kind node).entries other = some target) :
    (nodes node).entries other = some target ∨ (node = parent ∧ target = child) := by
  unfold insertNode at held
  split at held
  · cases held
  split at held
  · rename_i same
    rw [same]
    rcases Decidable.em (other = name) with rfl | differs
    · simp only [Inode.insert, update_self, Option.some.injEq] at held
      exact .inr ⟨rfl, held.symm⟩
    · simp only [Inode.insert, update_of_ne differs] at held
      exact .inl held
  · exact .inl held

/-- Each stack has the mount in force at its end. -/
structure MountNamespace where
  rootStack : List Nat
  mounts : PathString → List Nat
  rootStack_ne_nil : rootStack ≠ []

namespace MountNamespace

def rootNode (ns : MountNamespace) : Nat :=
  ns.rootStack.getLast ns.rootStack_ne_nil

def lookupMount (ns : MountNamespace) (path : PathString) : Option Nat :=
  if path = ['/'] then some ns.rootNode else (ns.mounts path).getLast?

end MountNamespace

/-- The nodes in use have numbers below `next`, so a new node is met nowhere. -/
structure FileSystem where
  nodes : Nat → Inode
  next : Nat
  mounted : MountNamespace
  entries_lt : ∀ {node name child}, (nodes node).entries name = some child →
    node < next ∧ child < next
  root_lt : mounted.rootNode < next
  mounts_lt : ∀ {path node}, node ∈ mounted.mounts path → node < next

namespace FileSystem

def kind (fs : FileSystem) (node : Nat) : NodeKind :=
  (fs.nodes node).kind

variable (fs : FileSystem)

def entry (node : Nat) (name : Name) : Option Nat :=
  (fs.nodes node).entries name

theorem lookupMount_lt {path : PathString} {node : Nat}
    (found : fs.mounted.lookupMount path = some node) : node < fs.next := by
  unfold MountNamespace.lookupMount at found
  split at found
  · cases found
    exact fs.root_lt
  · exact fs.mounts_lt (List.mem_of_getLast? found)

/-- Insert a new node of the given kind into a directory. -/
def insertNew (parent : Nat) (name : Name) (kind : NodeKind)
    (inUse : parent < fs.next) : FileSystem where
  nodes := insertNode fs.nodes parent name fs.next kind
  next := fs.next + 1
  mounted := fs.mounted
  entries_lt := by
    intro node other child held
    rcases entries_insertNode held with old | ⟨rfl, rfl⟩
    · exact ⟨Nat.lt_succ_of_lt (fs.entries_lt old).1, Nat.lt_succ_of_lt (fs.entries_lt old).2⟩
    · exact ⟨Nat.lt_succ_of_lt inUse, Nat.lt_succ_self _⟩
  root_lt := Nat.lt_succ_of_lt fs.root_lt
  mounts_lt := fun member => Nat.lt_succ_of_lt (fs.mounts_lt member)

end FileSystem

/-- `create_dir` and `create_file` of a directory node.  A node in use is the
only one a lookup can have returned. -/
def create (parent : Nat) (name : Name) (kind : NodeKind) : Exec FileSystem SysErr Nat := do
  let fs ← Exec.get
  if inUse : parent < fs.next then
    if fs.kind parent ≠ .directory then throw .notDir
    else if (fs.entry parent name).isSome then throw .exists
    else do
      Exec.set (fs.insertNew parent name kind inUse)
      pure fs.next
  else
    throw .notDir

/-! ## Lookup -/

structure NamespaceLookup where
  node : Nat
  path : PathString
  deriving DecidableEq

/-- How the loop over the components of a path ends: at a node, or at a link
whose expansion is to be looked up instead. -/
inductive Walk where
  | found (lookup : NamespaceLookup)
  | redirected (path : PathString)

/-- The loop of `lookup_namespace_entry` from a node and its location. -/
def walk (fs : FileSystem) (followFinal : Bool) : Nat → PathString → List Name → Except SysErr Walk
  | current, currentPath, [] => .ok (.found ⟨current, currentPath⟩)
  | current, currentPath, component :: rest =>
    let nextPath := resolveNamespacePath currentPath component
    match (fs.mounted.lookupMount nextPath).or (fs.entry current component) with
    | none => .error .noEnt
    | some next =>
      if fs.kind next = .symlink ∧ (rest ≠ [] ∨ followFinal) then
        match (fs.nodes next).symlinkTarget with
        | none => .error .inval
        | some target =>
          .ok (.redirected
            (rest.foldl resolveNamespacePath (resolveSymlinkPath currentPath target)))
      else
        walk fs followFinal next nextPath rest

/-- `lookup_namespace_entry`, with the number of expansions still allowed. -/
def lookupWithin (fs : FileSystem) (followFinal : Bool) :
    Nat → PathString → Except SysErr NamespaceLookup
  | 0, _ => .error .loop
  | allowed + 1, path =>
    let normalized := normalizeAbsolutePath path
    if normalized = ['/'] then .ok ⟨fs.mounted.rootNode, ['/']⟩
    else
      match walk fs followFinal fs.mounted.rootNode ['/'] (splitComponents normalized) with
      | .error error => .error error
      | .ok (.found lookup) => .ok lookup
      | .ok (.redirected target) => lookupWithin fs followFinal allowed target

/-- A lookup at depth `0`; depth `9` is refused. -/
def lookupNamespaceEntry (fs : FileSystem) (path : PathString) (followFinal : Bool) :
    Except SysErr NamespaceLookup :=
  lookupWithin fs followFinal 9 path

/-! ## Creation -/

/-- An entry met on the way of a creation; a link is looked up on its own. -/
def resolveExisting (existing : Nat) (path : PathString) : Exec FileSystem SysErr Nat := do
  let fs ← Exec.get
  if fs.kind existing = .symlink then
    ofExcept ((lookupNamespaceEntry fs path true).map NamespaceLookup.node)
  else
    pure existing

/-- The loop of `create_namespace_path_locked`: missing directories on the way
are created, and the entry at the end must not exist. -/
def createLoop (kind : NodeKind) : Nat → PathString → List Name → Exec FileSystem SysErr Nat
  | current, _, [] => pure current
  | current, currentPath, component :: rest => do
      let fs ← Exec.get
      let nextPath := resolveNamespacePath currentPath component
      match fs.mounted.lookupMount nextPath with
      | some mount =>
        if rest = [] then throw .exists
        else if fs.kind mount ≠ .directory then throw .notDir
        else createLoop kind mount nextPath rest
      | none =>
        match fs.entry current component with
        | some existing => do
            let next ← resolveExisting existing nextPath
            if rest = [] then throw .exists
            else if fs.kind next ≠ .directory then throw .notDir
            else createLoop kind next nextPath rest
        | none => do
            let next ← create current component (if rest = [] then kind else .directory)
            createLoop kind next nextPath rest

def createNamespacePath (path : PathString) (kind : NodeKind) : Exec FileSystem SysErr Nat := do
  let normalized := normalizeAbsolutePath path
  if normalized = ['/'] then throw .exists
  else
    let fs ← Exec.get
    createLoop kind fs.mounted.rootNode ['/'] (splitComponents normalized)

/-! ## Nodes that exist only under `/proc` -/

/-- `str::parse::<u32>`. -/
def parseU32 (text : List Char) : Option Nat :=
  let digits := if text.head? = some '+' then text.tail else text
  if digits ≠ [] ∧ digits.all Char.isDigit then
    let value := digits.foldl (fun total digit => total * 10 + (digit.toNat - 48)) 0
    if value < 2 ^ 32 then some value else none
  else
    none

/-- What `procfs::lookup_virtual` returns a node for. -/
inductive VirtualNode where
  | directory (pid : Nat)
  | status (pid : Nat)
  | comm (pid : Nat)
  deriving DecidableEq

def lookupVirtual (currentPid : Option Nat) (path : PathString) :
    Option (Except SysErr VirtualNode) :=
  let current (node : Nat → VirtualNode) : Except SysErr VirtualNode := match currentPid with
    | some pid => .ok (node pid)
    | none => .error .noEnt
  if path = "/proc/self".toList then some (current .directory)
  else if path = "/proc/self/status".toList then some (current .status)
  else if path = "/proc/self/comm".toList then some (current .comm)
  else if "/proc/".toList.isPrefixOf path then
    match (path.drop 6).splitOn '/' with
    | [] => none
    | first :: rest =>
      (parseU32 first).map fun pid =>
        match rest with
        | [] => .ok (.directory pid)
        | [name] =>
          if name = "status".toList then .ok (.status pid)
          else if name = "comm".toList then .ok (.comm pid)
          else .error .noEnt
        | _ => .error .noEnt
  else
    none

/-! ## Requests of a process -/

/-- A location held by a process; its path is in normal form. -/
structure FsLocation where
  path : PathString
  node : Nat
  normal : ∃ components, Normal components ∧ path = joinPath components

def FsLocation.new (path : PathString) (node : Nat) : FsLocation where
  path := normalizeAbsolutePath path
  node := node
  normal := ⟨_, resolvedComponents_normal 0 path (fun _ member => absurd member
    List.not_mem_nil), rfl⟩

/-- The file system as one process sees it. -/
structure ProcessFs where
  fs : FileSystem
  root : FsLocation
  cwd : FsLocation
  currentPid : Option Nat

inductive NodeRef where
  | inode (node : Nat)
  | proc (node : VirtualNode)

namespace ProcessFs

variable (view : ProcessFs)

def viewPath (path : PathString) : PathString :=
  resolveViewPath view.root.path view.cwd.path path

/-- `lookup_in_with_identity`, with the path that was finally resolved. -/
def lookupIn (path : PathString) (followFinal : Bool) : Except SysErr (NodeRef × PathString) :=
  match lookupVirtual view.currentPid (view.viewPath path) with
  | some found => found.map fun node => (.proc node, view.viewPath path)
  | none =>
    (lookupNamespaceEntry view.fs (view.viewPath path) followFinal).map fun lookup =>
      (.inode lookup.node, lookup.path)

/-- The directory a request names. -/
def lookupDirectory (path : PathString) : Except SysErr NamespaceLookup :=
  match lookupNamespaceEntry view.fs (view.viewPath path) true with
  | .error error => .error error
  | .ok lookup => if view.fs.kind lookup.node ≠ .directory then .error .notDir else .ok lookup

def chdirIn (path : PathString) : Except SysErr (PathString × ProcessFs) :=
  (view.lookupDirectory path).map fun lookup =>
    (lookup.path, { view with cwd := FsLocation.new lookup.path lookup.node })

/-- A working directory outside the new root is replaced by it. -/
def chrootIn (path : PathString) : Except SysErr (PathString × ProcessFs) :=
  (view.lookupDirectory path).map fun lookup =>
    let root := FsLocation.new lookup.path lookup.node
    (lookup.path, { view with
        root := root
        cwd := if isWithin root.path view.cwd.path then view.cwd else root })

/-- `mkdir_in` and `create_file_in`: create the entry, then look its parent up to
notify it; the path is that of the parent. -/
def createIn (path : PathString) (kind : NodeKind) :
    Option (Except SysErr PathString × ProcessFs) :=
  match createNamespacePath (view.viewPath path) kind view.fs with
  | none => none
  | some (.error error, fs) => some (.error error, { view with fs := fs })
  | some (.ok _, fs) =>
    some ((lookupNamespaceEntry fs (parentPath (view.viewPath path)) true).map
      NamespaceLookup.path, { view with fs := fs })

end ProcessFs

/-- The calls that resolve a path for a process. -/
inductive Request where
  | lookup (path : PathString) (followFinal : Bool)
  | chdir (path : PathString)
  | chroot (path : PathString)
  | mkdir (path : PathString)
  | createFile (path : PathString)

/-- The path that a successful request has resolved, and the view it leaves. -/
def Request.perform (request : Request) (view : ProcessFs) : Option (PathString × ProcessFs) :=
  match request with
  | .lookup path followFinal =>
    (view.lookupIn path followFinal).toOption.map fun found => (found.2, view)
  | .chdir path => (view.chdirIn path).toOption
  | .chroot path => (view.chrootIn path).toOption
  | .mkdir path => created (view.createIn path .directory)
  | .createFile path => created (view.createIn path .file)
where
  created : Option (Except SysErr PathString × ProcessFs) → Option (PathString × ProcessFs)
    | some (.ok parent, after) => some (parent, after)
    | _ => none

end AetherKernel.Rootfs
