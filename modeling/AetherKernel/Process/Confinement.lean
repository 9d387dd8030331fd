import AetherKernel.Lib.Transition
import AetherKernel.Process.Build
import AetherKernel.Process.Syscalls

/-!
# System calls and the upper half

No call checks the addresses that it is given; all other addresses come from areas
and mappings that are there already.  As long as every range that a call names ends
in the lower half, and so do the segments of the program, a process never reaches
the upper half.
-/

namespace AetherKernel.Process

open Lib Mm Word Option

/-! ## Ranges -/

section Ranges

variable {addr len flags physicalAddress : Nat}

/-- A device that starts inside a page needs one page more at most. -/
theorem alignUp_device_le (len : Nat) (word : physicalAddress < Word.size) :
    alignUp (saturatingAdd len (physicalAddress - alignDown physicalAddress pageSize)) pageSize ≤
    alignUp len pageSize + pageSize := by
  rw [alignDown_pageSize word, alignUp_pageSize, alignUp_pageSize, saturatingAdd]
  simp only [pageSize_eq, pageShift, Word.size, Word.max]
  omega

theorem EndsLow.mono {shorter : Nat} (low : EndsLow addr len flags)
    (le : shorter ≤ len) : EndsLow addr shorter flags :=
  fun fixed => (Nat.add_le_add_left le addr).trans (low fixed)

end Ranges

/-! ## Calls -/

section Calls

variable {A α : Type} {kernel : Nat → Nat → Entry} {flags address len : Nat}

def MemoryConfined (kernel : Nat → Nat → Entry) (memory : ProcessMemory A) : Prop :=
  Confined kernel memory.space.inner

/-- The call leaves the memory of a process confined. -/
abbrev Stays (A : Type) (kernel : Nat → Nat → Entry) (call : MemoryM A α) : Prop :=
  call.Preserves (MemoryConfined kernel)

section Requests

variable {request : SpaceM A α}

theorem confined_onSpace (preserves : ∀ state, Confined kernel state.inner →
      request.Ensures state fun _ after => Confined kernel after.inner) :
    Stays A kernel (onSpace request) := by
  intro memory confined outcome after run
  unfold onSpace at run
  split at run
  · cases run
  · rename_i result space called
    cases run
    exact preserves _ confined _ _ called

theorem confined_of_pages (keeps : ∀ space, request.Preserves (Paged kernel True space)) :
    Stays A kernel (onSpace request) :=
  confined_onSpace fun state confined => (keeps _ state ⟨rfl, fun _ => confined⟩).mono
    fun _ _ paged => paged.confined trivial

theorem confined_of_edited {edit : Space A → UserAddressSpaceInner → Prop}
    (runs : ∀ state, Paged kernel True (areas state) state →
      request.Ensures state fun _ => Edited kernel True (edit state)) :
    Stays A kernel (onSpace request) := by
  refine confined_onSpace fun state confined => (runs state ⟨rfl, fun _ => confined⟩).mono ?_
  rintro _ after ⟨space, -, paged⟩
  exact paged.confined trivial

theorem confined_mprotect (addr len : Nat) (flags : MapFlags) :
    Stays A kernel (onSpace (mprotect addr len flags)) :=
  confined_of_edited fun _ paged => mprotect_paged paged _ _ _

theorem confined_munmap [FrameAllocator A] (addr len : Nat) :
    Stays A kernel (onSpace (munmap addr len)) :=
  confined_onSpace fun _ confined => (munmap_paged ⟨rfl, fun _ => confined⟩ _ _).mono
    fun _ _ paged => paged.confined trivial

end Requests

theorem confined_modifyRegions (update : List MmapRegion → List MmapRegion) :
    Stays A kernel (modifyRegions update) :=
  .modify fun _ confined => confined

theorem confined_recordMmapRegion (start len : Nat) (pageFlags : MapFlags) (mmapFlags : Nat)
    (backing : MmapRegionBacking) :
    Stays A kernel (recordMmapRegion start len pageFlags mmapFlags backing) :=
  confined_modifyRegions _

/-- A range that the caller names ends in the lower half, with a page to spare for
a device that starts inside a page. -/
def CallEndsLow (address len flags : Nat) : Prop :=
  EndsLow address (alignUp len pageSize + pageSize) flags

theorem CallEndsLow.exact (low : CallEndsLow address len flags) :
    EndsLow address (alignUp len pageSize) flags :=
  low.mono (Nat.le_add_right _ _)

theorem confined_sysMprotect (address len prot : Nat) :
    Stays A kernel (sysMprotect address len prot) := by
  refine .bind (confined_mprotect _ _ _) fun _ => ?_
  split
  · exact .bind (confined_modifyRegions _) fun _ => .pure _
  · exact .pure _

variable [FrameAllocator A] (low : CallEndsLow address len flags) (files : Files)
  {newAddress oldAddress oldSize newSize : Nat}

include low

theorem confined_mapAnonymousRegion (prot : Nat) (recordRegion : Bool) :
    Stays A kernel (mapAnonymousRegion address len prot flags recordRegion) := by
  refine .bind (confined_of_edited fun _ paged =>
    mmapAnonymous_paged paged (fun _ => low.exact) _) fun mapped => ?_
  split
  · exact .bind (confined_recordMmapRegion _ _ _ _ _) fun _ => .pure _
  · exact .pure _

theorem confined_mapFileAs (file : Nat) (pageFlags : MapFlags) (offset : Nat) (kind : MmapKind) :
    Stays A kernel (mapFileAs files file address len flags pageFlags offset kind) := by
  cases kind with
  | buffered =>
    refine .bind ?_ fun _ => .pure _
    unfold mapBufferedFile
    split
    · exact .throw _
    · exact confined_of_edited fun _ paged =>
        mmapLazyImage_paged paged (fun _ => low.exact) _ _ _ _
  | directPhysical physicalAddress cachePolicy =>
    have ends := low.mono (alignUp_device_le len physicalAddress.isLt)
    exact .bind (confined_of_edited fun _ paged =>
      mmapPhysical_paged paged (fun _ => ends) _) fun _ => .pure _
  | sharedPhysical physicalPages cachePolicy =>
    exact .bind (confined_of_edited fun _ paged =>
      mmapSharedPhysical_paged paged (fun _ => low.exact) _ _) fun _ => .pure _

theorem confined_mapFileRegion (file prot offset : Nat) (recordRegion : Bool) :
    Stays A kernel (mapFileRegion files file address len prot flags offset recordRegion) := by
  unfold mapFileRegion
  split
  · exact .throw _
  have answers : (Exec.ofExcept (σ := ProcessMemory A)
      (files.mmap file ⟨offset, len, prot, flags⟩)).Preserves (MemoryConfined kernel) := by
    cases files.mmap file ⟨offset, len, prot, flags⟩ with
    | ok kind => exact .pure _
    | error error => exact .throw _
  refine .bind answers fun kind => .bind (confined_mapFileAs low _ _ _ _ kind) fun result => ?_
  dsimp only
  split
  · exact .bind (confined_recordMmapRegion _ _ _ _ _) fun _ => .pure _
  · exact .pure _

theorem confined_sysMmap (prot fd offset : Nat) :
    Stays A kernel (sysMmap files address len prot flags fd offset) := by
  unfold sysMmap
  split
  · exact confined_mapAnonymousRegion low _ _
  · split
    · exact .throw _
    · exact confined_mapFileRegion low _ _ _ _ _

omit low

theorem confined_sysMunmap (address len : Nat) : Stays A kernel (sysMunmap address len) := by
  refine .bind (confined_munmap _ _) fun _ => ?_
  split
  · exact .bind (confined_modifyRegions _) fun _ => .pure _
  · exact .pure _

/-! ## Moving and resizing -/

theorem confined_mapRegionBacking
    (low : address + alignUp len pageSize + pageSize ≤ lowerHalfEnd) (files : Files)
    (region : MmapRegion) (offsetDelta : Nat) (fixed : Bool) :
    Stays A kernel (mapRegionBacking files region address len offsetDelta fixed) := by
  have ends : ∀ flags, CallEndsLow address len flags := by
    intro flags _
    omega
  unfold mapRegionBacking
  dsimp only
  split
  · exact confined_mapAnonymousRegion (ends _) _ _
  · exact confined_mapFileRegion (ends _) _ _ _ _ _
  · exact confined_mapFileRegion (ends _) _ _ _ _ _
  · exact confined_mapFileRegion (ends _) _ _ _ _ _

theorem confined_copyUserRange (src dst len turns copied : Nat) :
    Stays A kernel (copyUserRange src dst len turns copied) := by
  induction turns generalizing copied with
  | zero => exact .pure _
  | succ turns ih =>
    unfold copyUserRange
    split
    · exact .pure _
    refine .bind (confined_of_pages fun _ => paged_readLoop _ _ _ _) fun bytes => ?_
    split
    · exact .throw _
    · refine .bind (confined_of_pages fun _ => paged_writeLoop _ _ _ _) fun written => ?_
      split
      · exact .throw _
      · exact ih _

theorem confined_cleanupMremapTarget (address len : Nat) :
    Stays A kernel (cleanupMremapTarget address len) :=
  .bind (confined_munmap _ _).attempt fun _ => confined_modifyRegions _

theorem confined_copyMapping (region : MmapRegion) (oldAddress target copyLen : Nat) :
    Stays A kernel (copyMapping region oldAddress target copyLen) := by
  unfold copyMapping
  split
  · exact confined_copyUserRange _ _ _ _ _
  · exact .bind (confined_mprotect _ _ _) fun _ =>
      .bind (confined_copyUserRange _ _ _ _ _) fun _ =>
      confined_mprotect _ _ _

theorem confined_transferMapping (region : MmapRegion)
    (oldAddress oldSize newSize oldLen flags target : Nat) :
    Stays A kernel (transferMapping region oldAddress oldSize newSize oldLen flags target) := by
  have unmaps : (if hasFlag flags mremapDontunmap then (pure () : MemoryM A Unit)
      else onSpace (munmap oldAddress oldLen)).Preserves (MemoryConfined kernel) := by
    split
    · exact .pure _
    · exact confined_munmap _ _
  unfold transferMapping
  split
  · exact .bind (confined_copyMapping _ _ _ _) fun _ => unmaps
  · exact unmaps

theorem confined_moveMapping {newLen : Nat}
    (low : newAddress + alignUp newLen pageSize + pageSize ≤ lowerHalfEnd) (files : Files)
    (region : MmapRegion) (oldAddress oldSize newSize oldLen flags : Nat) :
    Stays A kernel (moveMapping files region oldAddress oldSize newSize oldLen newLen flags
      newAddress) := by
  have target : (if hasFlag flags mremapFixed then newAddress else 0) +
      alignUp newLen pageSize + pageSize ≤ lowerHalfEnd := by
    split <;> omega
  refine .bind (confined_mapRegionBacking target _ _ _ _) fun target => ?_
  refine .bind (confined_transferMapping _ _ _ _ _ _ _).attempt fun result => ?_
  cases result with
  | error error => exact .bind (confined_cleanupMremapTarget _ _) fun _ => .throw _
  | ok value => exact .bind (confined_modifyRegions _) fun _ => .pure _

theorem roundToPages_spec (len : Nat) :
    pageSize ∣ roundToPages len ∧ roundToPages len < Word.size :=
  ⟨(Nat.dvd_mod_iff (by decide)).mpr (Nat.dvd_mul_left _ _), Nat.mod_lt _ (by decide)⟩

/-- The old place, also when it grows, and the new place end in the lower half. -/
structure RemapEndsLow (oldAddress oldSize newSize newAddress : Nat) : Prop where
  here : oldAddress + max (roundToPages oldSize) (roundToPages newSize) + pageSize ≤ lowerHalfEnd
  there : newAddress + roundToPages newSize + pageSize ≤ lowerHalfEnd

theorem confined_mremapRegion
    (low : RemapEndsLow oldAddress oldSize newSize newAddress) (files : Files)
    (region : MmapRegion) (flags : Nat) :
    Stays A kernel (mremapRegion files region oldAddress oldSize newSize flags newAddress) := by
  obtain ⟨oldAligned, oldWord⟩ := roundToPages_spec oldSize
  obtain ⟨newAligned, newWord⟩ := roundToPages_spec newSize
  have grown : alignUp (roundToPages newSize - roundToPages oldSize) pageSize =
      roundToPages newSize - roundToPages oldSize :=
    Vmas.alignUp_of_dvd (by omega) (Nat.dvd_sub newAligned oldAligned)
  have here : saturatingAdd oldAddress (roundToPages oldSize) +
      alignUp (roundToPages newSize - roundToPages oldSize) pageSize + pageSize ≤ lowerHalfEnd := by
    have bound := low.here
    have sum : saturatingAdd oldAddress (roundToPages oldSize) ≤
        oldAddress + roundToPages oldSize := Nat.min_le_left _ _
    omega
  have there : newAddress + alignUp (roundToPages newSize) pageSize + pageSize ≤ lowerHalfEnd := by
    rw [Vmas.alignUp_of_dvd newWord newAligned]
    exact low.there
  refine .get fun memory _ => ?_
  split
  · exact .throw _
  split
  · exact .pure _
  split
  · exact .throw _
  split
  · exact .bind (confined_munmap _ _) fun _ =>
      .bind (confined_modifyRegions _) fun _ => .pure _
  split
  · exact .bind (confined_mapRegionBacking here _ _ _ _) fun _ =>
      .bind (confined_modifyRegions _) fun _ => .pure _
  · split
    · exact .throw _
    · exact confined_moveMapping there _ _ _ _ _ _ _

theorem confined_sysMremap
    (low : RemapEndsLow oldAddress oldSize newSize newAddress) (files : Files) (flags : Nat) :
    Stays A kernel (sysMremap files oldAddress oldSize newSize flags newAddress) := by
  unfold sysMremap
  split
  · refine .get fun memory _ => ?_
    cases MmapRegions.slice memory.mmapRegions oldAddress
        (saturatingAdd oldAddress (roundToPages oldSize)) with
    | none => exact .stuck
    | some found =>
      cases found with
      | none => exact .throw _
      | some region => exact confined_mremapRegion low _ _ _
  · exact .throw _

end Calls

/-! ## Runs -/

/-- The ranges that a call names end in the lower half. -/
def Syscall.StaysLow : Syscall → Prop
  | .mmap _ address len _ flags _ _ => CallEndsLow address.toNat len.toNat flags.toNat
  | .mremap _ oldAddress oldSize newSize _ newAddress =>
    RemapEndsLow oldAddress.toNat oldSize.toNat newSize.toNat newAddress.toNat
  | _ => True

variable {builder : ElfProgramBuilder}

section Runs

variable {A : Type} [FrameAllocator A]

theorem Confined.perform {kernel : Nat → Nat → Entry} {memory after : ProcessMemory A}
    {call : Syscall} (confined : Confined kernel memory.space.inner) (low : call.StaysLow)
    (run : call.perform memory = some after) : Confined kernel after.space.inner := by
  have done : ∀ {α : Type} {routine : MemoryM A α}, Stays A kernel routine →
      (routine memory).map Prod.snd = some after → Confined kernel after.space.inner := by
    intro α routine preserves run
    obtain ⟨⟨outcome, last⟩, called, rfl⟩ := map_eq_some_iff.mp run
    exact preserves memory confined outcome _ called
  cases call with
  | mmap files address len prot flags fd offset => exact done (confined_sysMmap low _ _ _ _) run
  | mremap files oldAddress oldSize newSize flags newAddress =>
    exact done (confined_sysMremap low _ _) run
  | mprotect address len prot => exact done (confined_sysMprotect _ _ _) run
  | munmap address len => exact done (confined_sysMunmap _ _) run
  | brk address => exact done (confined_of_edited fun _ paged => brk_paged paged _) run
  | pageFault address errorCode =>
    exact done (confined_of_pages fun _ => paged_handlePageFault _ _) run
  | read address len => exact done (confined_of_pages fun _ => paged_readLoop _ _ _ _) run
  | write address bytes => exact done (confined_of_pages fun _ => paged_writeLoop _ _ _ _) run

/-- A call that returns. -/
def Performs (memory : ProcessMemory A) (call : Syscall) (after : ProcessMemory A) : Prop :=
  call.perform memory = some after

/-- The segments of the program and the stack lie in the lower half. -/
def ElfProgramBuilder.Low (builder : ElfProgramBuilder) : Prop :=
  ∀ images ∈ builder.images.toOption, Vmas.Low (builder.recorded images)

theorem Vmas.Low.recordAll {vmas : List UserVma} (low : Vmas.Low vmas) (added : List UserVma)
    (new : Vmas.Low added) : Vmas.Low (added.foldl Vmas.record vmas) := by
  induction added generalizing vmas with
  | nil => exact low
  | cons vma rest ih =>
    obtain ⟨first, others⟩ := List.forall_mem_cons.mp new
    exact ih (low.record first.1 first.2) others

theorem confined_built {machine : Machine A} {space : Space A}
    (built : builder.addressSpace machine = .ok space) (low : builder.Low) :
    Confined machine.kernel space.inner := by
  obtain ⟨images, frames, parses, laidOut, root⟩ := ElfProgramBuilder.addressSpace_eq_ok built
  constructor
  · rw [laidOut.vmas]
    exact Vmas.Low.nil.recordAll _ (low images (by rw [parses]; rfl))
  · rw [laidOut.mappings]
    exact List.forall_mem_nil _
  · intro level path upper
    unfold newUserRoot at root
    split at root
    · cases root
    · obtain ⟨same, -⟩ := Prod.mk.inj root
      rw [← Except.ok.inj same]
      exact if_pos upper
  · rw [laidOut.brkLimit]
    decide
  · rw [laidOut.mmapTop]
    decide

/-- As long as all calls name ranges that end in the lower half, the process stays
there, and the upper half of its page table is the kernel's. -/
theorem confined_while_calls_stay_low {builder : ElfProgramBuilder} {machine : Machine A}
    {space : Space A} {calls : List Syscall} {last : ProcessMemory A}
    (built : builder.addressSpace machine = .ok space) (low : builder.Low)
    (run : Run (Guarded (fun _ call => call.StaysLow) Performs) ⟨space, []⟩ calls last) :
    Confined machine.kernel last.space.inner := by
  have preserved : ∀ (memory : ProcessMemory A) call after,
      MemoryConfined machine.kernel memory →
      Guarded (fun _ call => call.StaysLow) Performs memory call after →
      MemoryConfined machine.kernel after :=
    fun _ _ _ confined guarded => Confined.perform confined guarded.1 guarded.2
  have kept := run.invariant preserved (confined_built built low)
  exact kept

end Runs

/-! ## A mapping in the upper half -/

/-- The process after some calls of a new program. -/
def processAfterCalls (builder : ElfProgramBuilder) (calls : List Syscall) :
    Option (ProcessMemory FramePool) :=
  (builder.addressSpace bareMachine).toOption.bind fun space =>
    calls.foldlM (fun memory call => call.perform memory) ⟨space, []⟩

variable {last : ProcessMemory FramePool} {calls : List Syscall}

theorem exists_of_processAfterCalls (reached : processAfterCalls builder calls = some last) :
    ∃ space, builder.addressSpace bareMachine = .ok space ∧
      Run Performs ⟨space, []⟩ calls last := by
  obtain ⟨space, built, performed⟩ := bind_eq_some_iff.mp reached
  exact ⟨space, eq_ok_of_toOption built, run_of_foldlM performed⟩

def noFiles : Files :=
  ⟨fun _ => none, fun _ _ => .error .inval, fun _ => 0, fun _ => none⟩

/-- Map a page at a fixed address and write to it. -/
def touchAt (address : BitVec 64) : List Syscall :=
  [.mmap noFiles address 0x1000 0x3 0x32 0 0, .pageFault address 0x6]

/-- An area and a mapping are not in the lower half, and entry 256 of the root is in
use. -/
def ReachesUpperHalf (memory : ProcessMemory FramePool) : Prop :=
  (∃ vma ∈ memory.space.vmas, lowerHalfEnd < vma.stop) ∧
    (∃ mapping ∈ memory.space.mappings, lowerHalfEnd ≤ mapping.virt) ∧
    memory.space.table.entry 0 256 ≠ .absent

instance (memory : ProcessMemory FramePool) : Decidable (ReachesUpperHalf memory) :=
  inferInstanceAs (Decidable (_ ∧ _ ∧ _))

/-- A fixed mapping at the start of the upper half: entry 256 of the root, which the
kernel left empty, is in use. -/
theorem fixed_mapping_in_upper_half :
    ∃ space last, (programOf 0x400000 0x1000).addressSpace bareMachine = .ok space ∧
      Run Performs ⟨space, []⟩ (touchAt 0xffff800000000000) last ∧ ReachesUpperHalf last ∧
      inUpperHalf 0 256 ∧ bareMachine.kernel 0 256 = .absent := by
  have reached : (processAfterCalls (programOf 0x400000 0x1000)
      (touchAt 0xffff800000000000)).map (fun memory => decide (ReachesUpperHalf memory)) =
      some true := by
    decide +kernel
  obtain ⟨last, processed, found⟩ := map_eq_some_iff.mp reached
  obtain ⟨space, built, run⟩ := exists_of_processAfterCalls processed
  exact ⟨space, last, built, run, of_decide_eq_true found, by decide, rfl⟩

instance (builder : ElfProgramBuilder) : Decidable builder.Low :=
  inferInstanceAs (Decidable (∀ images ∈ builder.images.toOption, ∀ vma ∈ _, _ ≤ _ ∧ _ ≤ _))

/-- A fixed mapping in the lower half, which is then used. -/
theorem confined_while_calls_stay_low_touching :
    ∃ space last, (programOf 0x400000 0x1000).addressSpace bareMachine = .ok space ∧
      Run (Guarded (fun _ call => call.StaysLow) Performs) ⟨space, []⟩ (touchAt 0x10000000) last ∧
      last.space.mappings.length = 1 ∧ Confined bareMachine.kernel last.space.inner := by
  have reached : (processAfterCalls (programOf 0x400000 0x1000) (touchAt 0x10000000)).map
      (fun memory => memory.space.mappings.length) = some 1 := by
    decide +kernel
  obtain ⟨last, processed, found⟩ := map_eq_some_iff.mp reached
  obtain ⟨space, built, run⟩ := exists_of_processAfterCalls processed
  have low : ∀ call ∈ touchAt 0x10000000, call.StaysLow := by
    refine List.forall_mem_cons.mpr ⟨?_, List.forall_mem_singleton.mpr trivial⟩
    intro _
    decide +kernel
  exact ⟨space, last, built, run.guarded low, found,
    confined_while_calls_stay_low built (by decide +kernel) (run.guarded low)⟩

end AetherKernel.Process
