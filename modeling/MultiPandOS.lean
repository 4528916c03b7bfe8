import MultiPandOS.Phase2.Initial
import MultiPandOS.Phase1.AslProofs
import MultiPandOS.Phase3.SysSupport
import MultiPandOS.Library.Runs
import MultiPandOS.Library.Semaphore
import MultiPandOS.Library.Forest
import MultiPandOS.Library.Paging
import MultiPandOS.Nucleus.View
import MultiPandOS.Nucleus.Kill
import MultiPandOS.Nucleus.Steps
import MultiPandOS.Nucleus.Runs
import MultiPandOS.Nucleus.Terminate
import MultiPandOS.Nucleus.Semaphores
import MultiPandOS.Nucleus.Waiting
import MultiPandOS.Nucleus.SoftBlock
import MultiPandOS.Nucleus.Modes
import MultiPandOS.Support.Paging
import MultiPandOS.Support.Pager
import MultiPandOS.Support.Privilege
import MultiPandOS.Support.System
import MultiPandOS.Support.Owners
import MultiPandOS.Support.Invariant
import MultiPandOS.Support.Termination
import MultiPandOS.Support.Tlb
import MultiPandOS.Nucleus.SemMap
import MultiPandOS.Nucleus.Subtree
import MultiPandOS.Nucleus.Tree
import MultiPandOS.Nucleus.Table
import MultiPandOS.Nucleus.Scheduling
import MultiPandOS.Nucleus.Switches
import MultiPandOS.Nucleus.Accounting
import MultiPandOS.Nucleus.Completion
import MultiPandOS.Nucleus.Times
import MultiPandOS.Nucleus.GetTime
import MultiPandOS.Support.Flow
import MultiPandOS.Support.Handshake
import MultiPandOS.Library.Mutex
import MultiPandOS.Support.Mutexes
import MultiPandOS.Support.Devices
import MultiPandOS.Support.Ownership
import MultiPandOS.Support.Returns
import MultiPandOS.Support.Causes
import MultiPandOS.Support.Replacement
import MultiPandOS.Support.PageIndex
import MultiPandOS.Support.Transfers
import MultiPandOS.Support.Reach
import MultiPandOS.Support.Terminal
import MultiPandOS.Support.Calls
import MultiPandOS.Support.Buffers
import MultiPandOS.Library.CircularList
import MultiPandOS.Headers.Listx
import MultiPandOS.Phase1.PcbLinks
import MultiPandOS.Phase1.QueueLinks
import MultiPandOS.Library.Supply
import MultiPandOS.Phase1.Allocation
import MultiPandOS.Nucleus.ClockTick
import MultiPandOS.Nucleus.Descriptors
import MultiPandOS.Nucleus.Represents
import MultiPandOS.Nucleus.Refinement
import MultiPandOS.Support.Memories
import MultiPandOS.Support.Progress
import MultiPandOS.Kernel.Live
import MultiPandOS.Kernel.Fair
