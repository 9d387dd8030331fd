import AetherKernel.Mm.Buddy.Validate
import AetherKernel.Process.Confinement
import AetherKernel.Net.ControlWalk
import AetherKernel.Fd.Conservation
import AetherKernel.Net.UnixIntegrity
import AetherKernel.Net.UnixEof
import AetherKernel.Sched.ChildExit
import AetherKernel.Sched.Vfork
import AetherKernel.Sched.ReapingRuns
import AetherKernel.Sched.GroupExit
import AetherKernel.Mm.RecoveryRuns
import AetherKernel.Sched.Census
import AetherKernel.Vfs.EpollOrder
import AetherKernel.Fd.Pipe
import AetherKernel.Mm.Buddy.Canonical
import AetherKernel.Rootfs.Confinement
import AetherKernel.Rootfs.Links
import AetherKernel.Vfs.Mounts
import AetherKernel.Process.Credentials
import AetherKernel.Fd.Table
import AetherKernel.Sched.ExitStatus
import AetherKernel.Sched.FutexIdentity
import AetherKernel.Sched.PidReuse
import AetherKernel.Process.GapSearch
import AetherKernel.Vfs.Inotify
import AetherKernel.Vfs.MemoryPressure
import AetherKernel.Process.UnmapCost
import AetherKernel.Sched.IgnoredSignals
import AetherKernel.Sched.AltstackBounds
