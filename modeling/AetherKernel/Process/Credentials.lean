import AetherKernel.Fd.UserMemory

/-!
# User and group ids

The calls that change the ids of a process.  Those for users and for groups are
the same but for the ids they change; the effective user id decides about the
privilege in both.
-/

namespace AetherKernel.Process

open Lib List

abbrev IdNumber :=
  BitVec 32

/-- `uid`, `euid`, `suid` and `fsuid`, or `gid`, `egid`, `sgid` and `fsgid`. -/
structure IdSet where
  real : IdNumber
  effective : IdNumber
  saved : IdNumber
  fs : IdNumber

inductive IdKind where
  | user
  | group
  deriving DecidableEq

structure Credentials where
  ids : IdKind → IdSet
  supplementaryGroups : List IdNumber

/-- `u32::try_from`. -/
def narrow (raw : BitVec 64) : Option IdNumber :=
  if raw.toNat < 2 ^ 32 then some (raw.setWidth 32) else none

/-- `read_optional_uid` and `read_optional_gid`: `-1` stands for no change. -/
def readOptionalId (raw : BitVec 64) : Option (Option IdNumber) :=
  (narrow raw).map fun id => if id = -1 then none else some id

namespace IdSet

variable (ids : IdSet) (superuser : Bool)

def has (id : IdNumber) : Bool :=
  id = ids.real || id = ids.effective || id = ids.saved

def setId (raw : BitVec 64) : Except SysErr Unit × IdSet :=
  match narrow raw with
  | none => (.error .inval, ids)
  | some id =>
    if id = -1 then (.error .inval, ids)
    else if superuser then (.ok (), ⟨id, id, id, id⟩)
    else if ids.has id then (.ok (), { ids with effective := id, fs := id })
    else (.error .perm, ids)

def setResId (real effective saved : BitVec 64) : Except SysErr Unit × IdSet :=
  match readOptionalId real, readOptionalId effective, readOptionalId saved with
  | some real, some effective, some saved =>
    if superuser || (real.all ids.has && effective.all ids.has && saved.all ids.has) then
      (.ok (), ⟨real.getD ids.real, effective.getD ids.effective, saved.getD ids.saved,
        effective.getD ids.fs⟩)
    else (.error .perm, ids)
  | _, _, _ => (.error .inval, ids)

end IdSet

namespace Credentials

variable (credentials : Credentials)

def isSuperuser : Bool :=
  (credentials.ids .user).effective = 0

def setIds (kind : IdKind) (ids : IdSet) : Credentials :=
  { credentials with ids := Function.update credentials.ids kind ids }

def setuid (uid : BitVec 64) : Except SysErr Unit × Credentials :=
  ((credentials.ids .user).setId credentials.isSuperuser uid).map id (credentials.setIds .user)

def setgid (gid : BitVec 64) : Except SysErr Unit × Credentials :=
  ((credentials.ids .group).setId credentials.isSuperuser gid).map id (credentials.setIds .group)

def setresuid (ruid euid suid : BitVec 64) : Except SysErr Unit × Credentials :=
  ((credentials.ids .user).setResId credentials.isSuperuser ruid euid suid).map id
    (credentials.setIds .user)

def setresgid (rgid egid sgid : BitVec 64) : Except SysErr Unit × Credentials :=
  ((credentials.ids .group).setResId credentials.isSuperuser rgid egid sgid).map id
    (credentials.setIds .group)

/-- `NGROUPS_MAX`. -/
def groupsMax : Nat := 65536

variable {M : Type} [Fd.UserMemory M]

def setgroups (memory : M) (size list : Nat) : Except SysErr Unit × Credentials :=
  if groupsMax < size then (.error .inval, credentials)
  else if !credentials.isSuperuser then (.error .perm, credentials)
  else if size = 0 then (.ok (), { credentials with supplementaryGroups := [] })
  else if list = 0 then (.error .fault, credentials)
  else
    match Fd.readUserExactBuffer memory list (size * 4) with
    | .error error => (.error error, credentials)
    | .ok bytes =>
      let groups := (List.range size).map fun i => Bytes.wordAt 32 bytes (4 * i)
      (.ok (), { credentials with supplementaryGroups := groups })

end Credentials

inductive IdCall (M : Type) where
  | setuid (uid : BitVec 64)
  | setgid (gid : BitVec 64)
  | setresuid (ruid euid suid : BitVec 64)
  | setresgid (rgid egid sgid : BitVec 64)
  | setgroups (memory : M) (size list : Nat)
  | execve

variable {M : Type} [Fd.UserMemory M]

/-- A new program image keeps the credentials of the old one. -/
def Credentials.call (credentials : Credentials) : IdCall M → Except SysErr Unit × Credentials
  | .setuid uid => credentials.setuid uid
  | .setgid gid => credentials.setgid gid
  | .setresuid ruid euid suid => credentials.setresuid ruid euid suid
  | .setresgid rgid egid sgid => credentials.setresgid rgid egid sgid
  | .setgroups memory size list => credentials.setgroups memory size list
  | .execve => (.ok (), credentials)

/-- A process makes a call, or starts another one with its own credentials. -/
def performIdCall (processes : List Credentials) : Nat × Option (IdCall M) → List Credentials
  | (caller, some made) => processes.modify caller fun credentials => (credentials.call made).2
  | (caller, none) => processes ++ processes[caller]?.toList

/-! ## What a call can do -/

namespace IdSet

/-- Ids taken from others; the file system id may also be left as it was. -/
def Draws (start ids : IdSet) : Prop :=
  (∀ id, ids.has id → start.has id) ∧ (start.has ids.fs ∨ ids.fs = start.fs)

/-- Without privilege a call only draws on the ids there are.  The file system
id follows the effective id, and an error leaves everything. -/
structure Answers (ids : IdSet) (superuser : Bool) (answer : Except SysErr Unit × IdSet) :
    Prop where
  draws : superuser = false → ids.Draws answer.2
  together : ids.fs = ids.effective → answer.2.fs = answer.2.effective
  unchanged : answer.1 ≠ .ok () → answer.2 = ids

variable (ids : IdSet) (superuser : Bool)

theorem answers_error (error : SysErr) : ids.Answers superuser (.error error, ids) :=
  ⟨fun _ => ⟨fun _ held => held, .inr rfl⟩, id, fun _ => rfl⟩

theorem answers_setId (raw : BitVec 64) : ids.Answers superuser (ids.setId superuser raw) := by
  unfold setId
  split
  · exact ids.answers_error superuser _
  split
  · exact ids.answers_error superuser _
  split
  · exact ⟨fun plain => by simp_all, fun _ => rfl, fun failed => absurd rfl failed⟩
  split
  · rename_i held
    refine ⟨fun _ => ⟨fun id => ?_, .inl held⟩, fun _ => rfl, fun failed => absurd rfl failed⟩
    simp only [has, Bool.or_eq_true, decide_eq_true_eq] at held ⊢
    rintro ((rfl | rfl) | rfl) <;> simp [held]
  · exact ids.answers_error superuser _

theorem answers_setResId (real effective saved : BitVec 64) :
    ids.Answers superuser (ids.setResId superuser real effective saved) := by
  unfold setResId
  split
  · rename_i real effective saved _ _ _
    split
    · rename_i permitted
      refine ⟨fun plain => ?_, fun same => by rw [same], fun failed => absurd rfl failed⟩
      rw [plain, Bool.false_or, Bool.and_eq_true, Bool.and_eq_true] at permitted
      have own : ∀ {wanted : Option IdNumber} {id : IdNumber}, wanted.all ids.has → ids.has id →
          ids.has (wanted.getD id) := by
        rintro (_ | other) id all held
        · exact held
        · exact all
      constructor
      · intro id held
        simp only [has, Bool.or_eq_true, decide_eq_true_eq] at held
        rcases held with (rfl | rfl) | rfl
        · exact own permitted.1.1 (by simp [has])
        · exact own permitted.1.2 (by simp [has])
        · exact own permitted.2 (by simp [has])
      · cases effective with
        | none => exact .inr rfl
        | some other => exact .inl permitted.1.2
    · exact ids.answers_error superuser _
  · exact ids.answers_error superuser _

end IdSet

namespace Credentials

def Draws (start credentials : Credentials) : Prop :=
  (∀ kind, (start.ids kind).Draws (credentials.ids kind)) ∧
    credentials.supplementaryGroups = start.supplementaryGroups

structure Answers (credentials : Credentials) (answer : Except SysErr Unit × Credentials) :
    Prop where
  draws : credentials.isSuperuser = false → credentials.Draws answer.2
  together : ∀ kind, (credentials.ids kind).fs = (credentials.ids kind).effective →
    (answer.2.ids kind).fs = (answer.2.ids kind).effective
  unchanged : answer.1 ≠ .ok () → answer.2 = credentials

variable {start credentials : Credentials}

theorem Draws.refl (credentials : Credentials) : credentials.Draws credentials :=
  ⟨fun _ => ⟨fun _ held => held, .inr rfl⟩, rfl⟩

theorem Draws.trans {last : Credentials} (first : start.Draws credentials)
    (second : credentials.Draws last) : start.Draws last := by
  refine ⟨fun kind => ⟨fun id held => (first.1 kind).1 id ((second.1 kind).1 id held), ?_⟩,
    second.2.trans first.2⟩
  rcases (second.1 kind).2 with held | same
  · exact .inl ((first.1 kind).1 _ held)
  · exact same ▸ (first.1 kind).2

theorem Answers.setIds {kind : IdKind} {answer : Except SysErr Unit × IdSet}
    (told : (credentials.ids kind).Answers credentials.isSuperuser answer) :
    credentials.Answers (answer.map id (credentials.setIds kind)) := by
  refine ⟨fun plain => ⟨fun other => ?_, rfl⟩, fun other same => ?_, fun failed => ?_⟩
  · by_cases equal : other = kind
    · subst equal
      simpa [Credentials.setIds] using told.draws plain
    · simpa [Credentials.setIds, equal] using (Draws.refl credentials).1 other
  · by_cases equal : other = kind
    · subst equal
      simpa [Credentials.setIds] using told.together same
    · simpa [Credentials.setIds, equal] using same
  · simp [Credentials.setIds, told.unchanged failed]

theorem answers_call (credentials : Credentials) (made : IdCall M) :
    credentials.Answers (credentials.call made) := by
  have error (error : SysErr) : credentials.Answers (.error error, credentials) :=
    ⟨fun _ => .refl credentials, fun _ => id, fun _ => rfl⟩
  cases made with
  | setuid id | setgid id => exact .setIds (IdSet.answers_setId _ _ id)
  | setresuid real effective saved | setresgid real effective saved =>
    exact .setIds (IdSet.answers_setResId _ _ real effective saved)
  | setgroups memory size list =>
    simp only [call, setgroups]
    split
    · exact error _
    cases root : credentials.isSuperuser with
    | false => exact error _
    | true =>
      have granted (groups : List IdNumber) : credentials.Answers
          (.ok (), { credentials with supplementaryGroups := groups }) :=
        ⟨fun plain => by simp_all, fun _ => id, fun failed => absurd rfl failed⟩
      simp only [Bool.not_true, Bool.false_eq_true, if_false]
      split
      · exact granted _
      · split
        · exact error _
        · split
          · exact error _
          · exact granted _
  | execve => exact ⟨fun _ => .refl credentials, fun _ => id, fun _ => rfl⟩

/-- A process whose ids are all from ones without privilege has none. -/
theorem Draws.plain (drawn : start.Draws credentials) (plain : (start.ids .user).has 0 = false) :
    credentials.isSuperuser = false := by
  apply decide_eq_false
  intro zero
  have held := (drawn.1 .user).1 0 (by simp [IdSet.has, zero])
  exact Bool.false_ne_true (plain.symm.trans held)

theorem draws_of_run (plain : (start.ids .user).has 0 = false)
    (calls : List (Nat × Option (IdCall M))) {processes : List Credentials}
    (drawn : ∀ credentials ∈ processes, start.Draws credentials) :
    ∀ credentials ∈ calls.foldl performIdCall processes, start.Draws credentials := by
  induction calls generalizing processes with
  | nil => exact drawn
  | cons made calls ih =>
    apply ih
    intro credentials member
    unfold performIdCall at member
    split at member
    · obtain ⟨index, found⟩ := mem_iff_getElem?.mp member
      rw [List.getElem?_modify] at found
      obtain ⟨before, found, same⟩ := Option.map_eq_some_iff.mp found
      have former := drawn before (mem_of_getElem? found)
      split at same
      · exact same ▸ former.trans ((answers_call before _).draws (former.plain plain))
      · exact same ▸ former
    · rcases mem_append.mp member with old | new
      · exact drawn _ old
      · exact drawn _ (mem_of_getElem? (Option.mem_toList.mp new))

/-- A superuser that sets a valid id has that one alone. -/
theorem setuid_of_isSuperuser (root : start.isSuperuser) {uid : BitVec 64}
    (valid : uid.toNat < 2 ^ 32 - 1) : ∃ id : IdNumber, id.toNat = uid.toNat ∧
      start.setuid uid = (.ok (), start.setIds .user ⟨id, id, id, id⟩) := by
  have value : (uid.setWidth 32).toNat = uid.toNat := by
    rw [BitVec.toNat_setWidth, Nat.mod_eq_of_lt (by omega)]
  have narrowed : narrow uid = some (uid.setWidth 32) := if_pos (by omega)
  have proper : uid.setWidth 32 ≠ -1 := by
    intro same
    rw [same, show (-1 : IdNumber).toNat = 2 ^ 32 - 1 from rfl] at value
    omega
  refine ⟨_, value, ?_⟩
  rw [setuid, IdSet.setId, narrowed]
  dsimp only
  rw [if_neg proper, if_pos root]
  rfl

/-- Processes without privilege stay without it: their ids come from those at
the start, and their groups stay.  A superuser that sets a valid user id other
than zero has that id alone, and no privilege later. -/
theorem privilege_is_contained (start : Credentials) :
    ((start.ids .user).has 0 = false → ∀ calls : List (Nat × Option (IdCall M)),
      ∀ credentials ∈ calls.foldl performIdCall [start],
        (credentials.ids .user).effective ≠ 0 ∧ start.Draws credentials ∧
          ∀ made : IdCall M, credentials.Answers (credentials.call made)) ∧
      (start.isSuperuser → ∀ uid : BitVec 64, uid ≠ 0 → uid.toNat < 2 ^ 32 - 1 →
        ∃ (id : IdNumber) (after : Credentials), id.toNat = uid.toNat ∧
          start.setuid uid = (.ok (), after) ∧ after.ids .user = ⟨id, id, id, id⟩ ∧
          ∀ calls : List (Nat × Option (IdCall M)),
            ∀ credentials ∈ calls.foldl performIdCall [after],
              (credentials.ids .user).effective ≠ 0) := by
  have contained {start : Credentials} (plain : (start.ids .user).has 0 = false)
      (calls : List (Nat × Option (IdCall M))) (credentials : Credentials)
      (member : credentials ∈ calls.foldl performIdCall [start]) :
      (credentials.ids .user).effective ≠ 0 ∧ start.Draws credentials := by
    have drawn := draws_of_run plain calls
      (fun _ only => mem_singleton.mp only ▸ .refl start) credentials member
    exact ⟨of_decide_eq_false (drawn.plain plain), drawn⟩
  constructor
  · intro plain calls credentials member
    obtain ⟨unprivileged, drawn⟩ := contained plain calls credentials member
    exact ⟨unprivileged, drawn, answers_call credentials⟩
  intro root uid nonzero valid
  obtain ⟨id, value, done⟩ := setuid_of_isSuperuser root valid
  refine ⟨id, _, value, done, rfl, fun calls credentials member => ?_⟩
  have other : id ≠ 0 := by
    rintro rfl
    exact nonzero (BitVec.eq_of_toNat_eq value.symm)
  exact (contained (by simpa [setIds, IdSet.has] using Ne.symm other) calls credentials member).1

/-- A user takes its saved id; a superuser gives up its privilege and asks for it back. -/
theorem privilege_is_contained_of_user : ∃ start root after : Credentials,
    (start.ids .user).has 0 = false ∧ start.Draws (start.setuid 7).2 ∧
      root.isSuperuser ∧ root.setuid 7 = (.ok (), after) ∧
      ((after.setuid 0).2.ids .user).effective ≠ 0 := by
  obtain ⟨_, after, -, done, -, kept⟩ :=
    (privilege_is_contained (M := Fd.FlatMemory) ⟨fun _ => ⟨0, 0, 0, 0⟩, []⟩).2 rfl 7 (by decide)
      (by decide)
  refine ⟨⟨fun _ => ⟨5, 5, 7, 5⟩, [5]⟩, _, after, rfl, ?_, rfl, done, ?_⟩
  · exact ((privilege_is_contained _).1 rfl [(0, some (.setuid 7 : IdCall Fd.FlatMemory))] _
      mem_cons_self).2.1
  · exact kept [(0, some (.setuid 0 : IdCall Fd.FlatMemory))] _ mem_cons_self

/-- A file system id need not be one of the other ids, and a superuser that
sets the id which stands for no change keeps its privilege. -/
theorem file_system_id_of_its_own : ∃ start root : Credentials,
    (start.ids .user).has 0 = false ∧ (start.ids .user).has (start.ids .user).fs = false ∧
      root.isSuperuser ∧ (root.setuid 0xffffffff).2.isSuperuser :=
  ⟨⟨fun _ => ⟨5, 5, 5, 7⟩, []⟩, ⟨fun _ => ⟨0, 0, 0, 0⟩, []⟩, by decide⟩

end Credentials

end AetherKernel.Process
