/-!
# System call errors

The error numbers that the modelled calls return.
-/

namespace AetherKernel

inductive SysErr where
  | perm
  | noEnt
  | srch
  | intr
  | io
  | badFd
  | child
  | again
  | noMem
  | fault
  | exists
  | notDir
  | isDir
  | inval
  | sPipe
  | pipe
  | noSys
  | notEmpty
  | loop
  | notSock
  | destAddrReq
  | protoType
  | noProtoOpt
  | notSup
  | afNoSupport
  | addrInUse
  | isConn
  | notConn
  | timedOut
  | tooManyRefs
  | connRefused
  deriving DecidableEq, Repr

namespace SysErr

/-- The Linux error number. -/
def code : SysErr → Nat
  | .perm => 1
  | .noEnt => 2
  | .srch => 3
  | .intr => 4
  | .io => 5
  | .badFd => 9
  | .child => 10
  | .again => 11
  | .noMem => 12
  | .fault => 14
  | .exists => 17
  | .notDir => 20
  | .isDir => 21
  | .inval => 22
  | .sPipe => 29
  | .pipe => 32
  | .noSys => 38
  | .notEmpty => 39
  | .loop => 40
  | .notSock => 88
  | .destAddrReq => 89
  | .protoType => 91
  | .noProtoOpt => 92
  | .notSup => 95
  | .afNoSupport => 97
  | .addrInUse => 98
  | .isConn => 106
  | .notConn => 107
  | .tooManyRefs => 109
  | .timedOut => 110
  | .connRefused => 111

/-- What a failed call leaves in the return register. -/
def errno (error : SysErr) : BitVec 64 :=
  -BitVec.ofNat 64 error.code

end SysErr

end AetherKernel
