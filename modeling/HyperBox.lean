import HyperBox.Library.Run
import HyperBox.Library.SearchTree
import HyperBox.Library.Countdown
import HyperBox.Start.Threads
import HyperBox.Start.Progress
import HyperBox.Library.Lines
import HyperBox.Helper.LogThread
import HyperBox.Library.Paged
import HyperBox.PageTable.Entry
import HyperBox.PageTable.Architecture
import HyperBox.PageTable.Duplicate
import HyperBox.PageTable.Sync
import HyperBox.PageTable.Mapping
import HyperBox.PageTable.Isolation
import HyperBox.PageTable.Translation
import HyperBox.PageTable.Outcome
import HyperBox.Library.Fill
import HyperBox.Ept.Table
import HyperBox.Ept.Permission
import HyperBox.Ept.Violation
import HyperBox.Ept.Range
import HyperBox.Ept.RamSize
import HyperBox.Start.Protect
import HyperBox.Start.Idt
import HyperBox.Library.Extends
import HyperBox.Start.Resources
import HyperBox.Nested.Vmcs
import HyperBox.Nested.Exit
import HyperBox.Nested.Invariant
import HyperBox.Nested.OwnVmcs
import HyperBox.Nested.HostState
import HyperBox.Library.Slots
import HyperBox.Nested.Control
import HyperBox.Nested.Resume
import HyperBox.Nested.Exhaustion
import HyperBox.Nested.LaunchState
import HyperBox.Nested.Result
import HyperBox.Nested.Shadowing
import HyperBox.Monitor.Task
import HyperBox.Monitor.TaskManager
import HyperBox.Monitor.CredGuard
import HyperBox.Monitor.AddTask
import HyperBox.Monitor.Condemned
import HyperBox.Monitor.Spawning
import HyperBox.Monitor.CheckTasks
import HyperBox.Monitor.Initialize
import HyperBox.Library.Bytes
import HyperBox.Exit.Operand
import HyperBox.Exit.Store
import HyperBox.Exit.Denied
import HyperBox.Exit.Address
import HyperBox.Exit.Halves
import HyperBox.Exit.Rejected
import HyperBox.Exit.Selector
import HyperBox.Probe.Vmx
import HyperBox.Probe.Restore
import HyperBox.Probe.Descriptor
import HyperBox.Nested.Operand
import HyperBox.Nested.ControlRegister
import HyperBox.Nested.Pinned
import HyperBox.Nested.StorePointer
import HyperBox.Nested.OperandExit
import HyperBox.Nested.ReadBack
import HyperBox.Nested.OnlyOperand
import HyperBox.Library.Reuse
import HyperBox.ReadOnly.Table
import HyperBox.ReadOnly.Lookup
import HyperBox.ReadOnly.Capacity
import HyperBox.ReadOnly.Module
import HyperBox.ReadOnly.Protection
import HyperBox.Library.Locked
import HyperBox.Pool.Setup
import HyperBox.Pool.Handout
import HyperBox.Ept.Allocation
import HyperBox.Library.Path
import HyperBox.Monitor.ExePath
import HyperBox.Library.Memory
import HyperBox.Library.Assembly
import HyperBox.Asm.ExitStub
import HyperBox.Asm.Launch
import HyperBox.Asm.Interrupt
import HyperBox.Asm.Procedure
import HyperBox.Library.LockOrder
import HyperBox.Host.Locks
import HyperBox.Host.RootMode
import HyperBox.Host.Hide
import HyperBox.Monitor.Breakpoint
import HyperBox.Launch.Controls
import HyperBox.Launch.InPlace
import HyperBox.Helper.LogPipeline
import HyperBox.Monitor.FunctionPointer
import HyperBox.Monitor.PeriodicCheck
