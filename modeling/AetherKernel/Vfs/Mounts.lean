import AetherKernel.Vfs.Coherence

/-!
# Files under several mounts

Every mount has a device id of its own, also one that shows a part of another mount
again.  A path leads to a device id and an inode number, and by these two the cache
knows the file; the file itself is an inode of the file system behind the mount.
Links and renames only change which paths lead where.
-/

namespace AetherKernel.Vfs

open Lib Mm PageCacheState

/-! ## Pages of other files -/

section Others

variable {other id : CachedFileId} {file contents : FileContents} {state after : PageCacheState}

namespace PageCacheState

theorem Coherent.copyCached (coherent : state.Coherent other contents ∅) {key : PageCacheKey}
    {pageOffset len : Nat} {found : Option (List Byte × Bool)}
    (run : state.copyCached key pageOffset len = (found, after)) :
    after.Coherent other contents ∅ := by
  cases run
  exact coherent.nextAccess.touch _ _

theorem Coherent.readLoop (different : id ≠ other) {offset len turns : Nat} {copied : List Byte}
    {result : Except FsError (List Byte)} (coherent : state.Coherent other contents ∅)
    (run : readLoop file id offset len turns copied state = some (result, after)) :
    after.Coherent other contents ∅ := by
  induction turns generalizing copied state with
  | zero => cases run
  | succ turns ih =>
    unfold Vfs.readLoop at run
    split at run
    swap
    · cases run
      exact coherent
    dsimp only at run
    split at run
    · cases run
      exact coherent
    split at run
    · rename_i looked
      have kept := coherent.copyCached looked
      split at run
      · cases run
        exact kept
      split at run
      · cases run
        exact kept
      · exact ih kept run
    · rename_i looked
      have right : id = other → file = contents := fun same => absurd same different
      have loaded := loadPage_coherent ⟨id, (offset + copied.length) / pageSize⟩
        (coherent.copyCached looked) right
      split at run
      · rename_i load
        rw [load] at loaded
        cases run
        exact loaded
      · rename_i load
        rw [load] at loaded
        exact ih loaded run

theorem Coherent.pageCacheRead (different : id ≠ other) {offset len : Nat}
    {result : Except FsError (List Byte)} (coherent : state.Coherent other contents ∅)
    (run : pageCacheRead file id offset len state = some (result, after)) :
    after.Coherent other contents ∅ := by
  unfold Vfs.pageCacheRead at run
  split at run
  · cases run
    exact coherent
  · exact coherent.readLoop different run

end PageCacheState

/-- The operations that change the file. -/
def FileOperation.Changes : FileOperation → Prop
  | .write _ _ | .truncate _ _ | .fallocate _ => True
  | _ => False

/-- An operation on one file leaves the pages of all others as they are, and only some
operations change the file. -/
theorem coherent_of_other_step {state after : CachedFile} {operation : FileOperation}
    (own : ∀ key frame len, operation ≠ .loadOther key frame len) (different : state.id ≠ other)
    (coherent : state.cache.Coherent other contents ∅) (step : fileStep state operation after) :
    after.cache.Coherent other contents ∅ ∧ (operation.Changes ∨ after.file = state.file) := by
  unfold fileStep FileOperation.perform at step
  cases operation with
  | read handle len =>
    obtain ⟨result, run, rfl⟩ := Option.map_eq_some_iff.mp step
    unfold CachedFile.read at run
    split at run
    · split at run
      · cases run
      · rename_i done
        cases run
        exact ⟨coherent.pageCacheRead different done, .inr rfl⟩
      · rename_i done
        cases run
        exact ⟨coherent.pageCacheRead different done, .inr rfl⟩
    · cases run
      exact ⟨coherent, .inr rfl⟩
  | write handle data =>
    cases step
    refine ⟨?_, .inl trivial⟩
    unfold CachedFile.write
    split
    · dsimp only
      split
      · exact coherent
      · exact coherent.invalidateFileRange _ _ _
    · exact coherent
  | truncate | fallocate =>
    cases step
    exact ⟨coherent.filter _, .inl trivial⟩
  | advise offset len advice =>
    dsimp only at step
    split at step
    · cases step
      exact ⟨coherent.invalidateFileRange _ _ _, .inr rfl⟩
    · cases step
      exact ⟨prefetchRange_coherent coherent (fun same => absurd same different) _ _, .inr rfl⟩
    · cases step
      exact ⟨coherent, .inr rfl⟩
  | evict =>
    cases step
    exact ⟨coherent.evictOne, .inr rfl⟩
  | reclaim =>
    cases step
    exact ⟨nofun, .inr rfl⟩
  | loadOther key frame len => exact absurd rfl (own key frame len)

end Others

/-! ## Mounts -/

/-- The files of every file system by inode number, and the cache over all of them. -/
structure MountedFiles where
  files : Nat → Nat → Option FileContents
  cache : PageCacheState

/-- What is done to an inode through the mount with a device id. -/
inductive MountStep where
  | create (device inode : Nat)
  | remove (device inode : Nat)
  | use (device inode : Nat) (operation : FileOperation)

namespace MountedFiles

/-- A file as a mount shows it. -/
def seen (state : MountedFiles) (device inode : Nat) (file : FileContents) : CachedFile :=
  ⟨⟨device, inode⟩, file, state.cache⟩

def setFile (state : MountedFiles) (filesystem inode : Nat) (file : Option FileContents) :
    MountedFiles :=
  { state with
    files := fun otherSystem other =>
      if otherSystem = filesystem ∧ other = inode then file else state.files otherSystem other }

/-- `shown` is the file system behind a device id.  Creation gives out an inode number
that is free; neither it nor removal looks at the cache. -/
inductive Performs (shown : Nat → Nat) (state : MountedFiles) : MountStep → MountedFiles → Prop
  | create {device inode : Nat} (unused : state.files (shown device) inode = none) :
      Performs shown state (.create device inode)
        (state.setFile (shown device) inode (some ⟨[], by decide⟩))
  | remove {device inode : Nat} :
      Performs shown state (.remove device inode) (state.setFile (shown device) inode none)
  | use {device inode : Nat} {operation : FileOperation} {file changed : FileContents}
      {cache : PageCacheState} (found : state.files (shown device) inode = some file)
      (own : ∀ key frame len, operation ≠ .loadOther key frame len)
      (step : fileStep (state.seen device inode file) operation ⟨⟨device, inode⟩, changed, cache⟩) :
      Performs shown state (.use device inode operation)
        { state.setFile (shown device) inode (some changed) with cache := cache }

/-- No page of the inode is cached under the device id. -/
def Uncached (state : MountedFiles) (device inode : Nat) : Prop :=
  ∀ entry ∈ state.cache.entries, entry.1.file ≠ ⟨device, inode⟩

/-- A file is changed only while no other mount of it has cached pages, by writes that
leave no stale page; an inode number is given out only when no pages of it are left. -/
def Careful (shown : Nat → Nat) (state : MountedFiles) : MountStep → Prop
  | .create device inode =>
    ∀ other, shown other = shown device → state.Uncached other inode
  | .remove _ _ => True
  | .use device inode operation =>
    (operation.Changes →
      ∀ other, shown other = shown device → other ≠ device → state.Uncached other inode) ∧
    ∀ file, state.files (shown device) inode = some file →
      operation.Harmless (state.seen device inode file)

/-- Whatever mount shows a file, the pages cached under its device id are right. -/
def Coherent (shown : Nat → Nat) (state : MountedFiles) : Prop :=
  ∀ device inode file, state.files (shown device) inode = some file →
    state.cache.Coherent ⟨device, inode⟩ file ∅

variable {shown : Nat → Nat}

theorem Coherent.performs {state after : MountedFiles} {step : MountStep}
    (coherent : state.Coherent shown)
    (moves : Guarded (Careful shown) (Performs shown) state step after) :
    after.Coherent shown := by
  obtain ⟨careful, moves⟩ := moves
  intro otherDevice otherInode content there
  cases moves with
  | create unused =>
    change (if _ then _ else _) = _ at there
    split at there
    · rename_i same
      obtain ⟨sameSystem, rfl⟩ := same
      exact coherent_of_uncached (careful otherDevice sameSystem)
    · exact coherent _ _ _ there
  | remove =>
    change (if _ then _ else _) = _ at there
    split at there
    · cases there
    · exact coherent _ _ _ there
  | @use device inode operation file changed cache found own step =>
    have before : (state.seen device inode file).Coherent := coherent device inode file found
    change (if _ then _ else _) = _ at there
    rcases Decidable.em (otherDevice = device ∧ otherInode = inode) with ⟨rfl, rfl⟩ | elsewhere
    · rw [if_pos ⟨rfl, rfl⟩] at there
      cases there
      exact coherent_of_step before (careful.2 file found) step
    have different : (state.seen device inode file).id ≠ ⟨otherDevice, otherInode⟩ := by
      intro same
      cases same
      exact elsewhere ⟨rfl, rfl⟩
    split at there
    · -- Another mount of the same file: it has no pages, or the file stays as it is.
      rename_i same
      obtain ⟨sameSystem, rfl⟩ := same
      cases there
      have shows := coherent _ _ _ (sameSystem ▸ found)
      obtain ⟨kept, changes | stays⟩ := coherent_of_other_step own different shows step
      · have uncached := careful.1 changes otherDevice sameSystem fun same => elsewhere ⟨same, rfl⟩
        exact (coherent_of_other_step own different
          (coherent_of_uncached uncached) step).1
      · rw [show content = file from stays]
        exact kept
    · exact (coherent_of_other_step own different (coherent _ _ _ there) step).1

/-- One file system with one file, of one byte. -/
def oneFile : MountedFiles :=
  ⟨fun _ inode => if inode = 5 then some ⟨[7], one_byte_fits⟩ else none, new⟩

end MountedFiles

end AetherKernel.Vfs
