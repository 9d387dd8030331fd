import AetherKernel.Errno
import AetherKernel.Lib.Bytes
import AetherKernel.Lib.Word

/-!
# Ancillary data of `sendmsg`

The control buffer of a message is a row of headers, each of which states its
own length.  `parse_socket_send_control` walks it with wrapping arithmetic and
collects the descriptors and the credentials that are passed along; a slice
out of range panics.
-/

namespace AetherKernel.Net

open Lib Word Bytes

/-- `SOL_SOCKET`. -/
def solSocket : BitVec 32 := 1

def scmRights : BitVec 32 := 1
def scmCredentials : BitVec 32 := 2
def scmMaxFd : Nat := 253

structure SocketCredentials where
  pid : BitVec 32
  uid : BitVec 32
  gid : BitVec 32
  deriving DecidableEq

/-- The process that sends: its identity, its effective user, and its open
descriptors. -/
structure Sender (D : Type) where
  pid : BitVec 32
  uid : BitVec 32
  gid : BitVec 32
  euid : BitVec 32
  files : Nat → Option D

/-- The control buffer as it was copied from user space.  No allocation is
larger than half the address space. -/
structure ControlBuffer where
  bytes : List Byte
  bounded : bytes.length < 2 ^ 63

/-- One message of a control buffer. -/
structure ControlMessage where
  level : BitVec 32
  kind : BitVec 32
  payload : List Byte
  deriving DecidableEq

/-! ## The parser -/

def cmsgHeaderLen : Nat :=
  8 + 4 * 2

def cmsgAlign (len : Nat) : Nat :=
  alignUp len 8

/-- The little-endian words of `chunks_exact(4)`. -/
def fdWords : List Byte → List (BitVec 32)
  | a :: b :: c :: d :: rest => BitVec.ofNat 32 (toNat [a, b, c, d]) :: fdWords rest
  | _ => []

variable {D : Type}

namespace Sender

variable (sender : Sender D)

def isSuperuser : Bool :=
  sender.euid == 0

/-- The credentials the kernel would attach by itself. -/
def current : SocketCredentials :=
  ⟨sender.pid, sender.uid, sender.gid⟩

/-- The open descriptor behind a number read as an `i32`. -/
def descriptor (fd : BitVec 32) : Option D :=
  if fd.msb then none else sender.files fd.toNat

/-- The loop that opens the passed descriptors. -/
def openRights (sender : Sender D) : List (BitVec 32) → List D → Except SysErr (List D)
  | [], rights => .ok rights
  | fd :: rest, rights =>
    match sender.descriptor fd with
    | none => .error .badFd
    | some descriptor => sender.openRights rest (rights ++ [descriptor])

end Sender

/-- The credentials in a payload of twelve bytes. -/
def readCredentials (payload : List Byte) : SocketCredentials :=
  ⟨wordAt 32 payload 0, wordAt 32 payload 4, wordAt 32 payload 8⟩

/-- What has been collected so far. -/
structure Collected (D : Type) where
  rights : List D
  credentials : Option SocketCredentials

variable (sender : Sender D)

/-- The `SCM_RIGHTS` branch. -/
def acceptRights (collected : Collected D) (payload : List Byte) : Except SysErr (Collected D) :=
  if collected.rights.isEmpty = false ∨ payload.isEmpty ∨ payload.length % 4 ≠ 0 then
    .error .inval
  else if scmMaxFd < payload.length / 4 then .error .tooManyRefs
  else
    match sender.openRights (fdWords payload) collected.rights with
    | .error error => .error error
    | .ok rights => .ok { collected with rights }

/-- The `SCM_CREDENTIALS` branch. -/
def acceptCredentials (collected : Collected D) (payload : List Byte) :
    Except SysErr (Collected D) :=
  if collected.credentials.isSome ∨ payload.length ≠ 12 then .error .inval
  else if (wordAt 32 payload 0).toInt ≤ 0 then .error .inval
  else if sender.isSuperuser = false ∧ readCredentials payload ≠ sender.current then .error .perm
  else .ok { collected with credentials := some (readCredentials payload) }

def acceptMessage (collected : Collected D) (message : ControlMessage) :
    Except SysErr (Collected D) :=
  if message.level = solSocket then
    if message.kind = scmRights then acceptRights sender collected message.payload
    else if message.kind = scmCredentials then acceptCredentials sender collected message.payload
    else .ok collected
  else .ok collected

/-- The header at an offset, with the length it states.  There is no result
when a slice is out of range. -/
def readMessage (control : List Byte) (offset : Nat) :
    Option (Except SysErr (ControlMessage × Nat)) := do
  let lenBytes ← slice control offset (wrappingAdd offset 8)
  let len := toNat lenBytes
  if len < cmsgHeaderLen ∨ control.length < wrappingAdd offset len then
    return .error .inval
  let levelOffset := wrappingAdd offset 8
  let level ← slice control levelOffset (wrappingAdd levelOffset 4)
  let kind ← slice control (wrappingAdd levelOffset 4) (wrappingAdd levelOffset 8)
  let payload ← slice control (wrappingAdd offset cmsgHeaderLen) (wrappingAdd offset len)
  return .ok (⟨BitVec.ofNat 32 (toNat level), BitVec.ofNat 32 (toNat kind), payload⟩, len)

/-- The loop of `parse_socket_send_control`, with fuel for its iterations. -/
def parseFrom (sender : Sender D) (control : List Byte) :
    Nat → Nat → Collected D → Option (Except SysErr (Collected D))
  | 0, _, _ => none
  | fuel + 1, offset, collected =>
    if wrappingAdd offset cmsgHeaderLen ≤ control.length then
      match readMessage control offset with
      | none => none
      | some (.error error) => some (.error error)
      | some (.ok (message, len)) =>
        match acceptMessage sender collected message with
        | .error error => some (.error error)
        | .ok collected =>
          let next := saturatingAdd offset (cmsgAlign len)
          if next ≤ offset ∨ control.length < next then some (.ok collected)
          else parseFrom sender control fuel next collected
    else some (.ok collected)

def parseSocketSendControl (control : ControlBuffer) : Option (Except SysErr (Collected D)) :=
  parseFrom sender control.bytes (control.bytes.length + 1) 0 ⟨[], none⟩

end AetherKernel.Net
