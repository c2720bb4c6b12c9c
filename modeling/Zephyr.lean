import Zephyr.Sync.Ledger
import Zephyr.Proc.Population
import Zephyr.Proc.Conservation
import Zephyr.Proc.AddressSpace
import Zephyr.Proc.ActiveTable
import Zephyr.Proc.HandOff
import Zephyr.Mem.FrameAllocator
import Zephyr.Mem.Completeness
import Zephyr.Mem.PageTable
import Zephyr.Radix.Traversal
import Zephyr.Mem.Copy
import Zephyr.Mem.Edits
import Zephyr.Mem.Mapper
import Zephyr.Mem.OffsetPageTable
import Zephyr.Mem.Pages
import Zephyr.Mem.Release
import Zephyr.Mem.Ownership
import Zephyr.Mem.Stacks
import Zephyr.Mem.Calls
import Zephyr.Mem.LifeCycle
import Zephyr.Mem.Hardware
import Zephyr.Mem.OnDemand
import Zephyr.Mem.Custody
import Zephyr.Proc.ReadyQueue
import Zephyr.Sync.Pairing
import Zephyr.Proc.Holdings
import Zephyr.Proc.InterruptStack
import Zephyr.Proc.Idle
import Zephyr.Locks.Preemption
import Zephyr.Proc.LockUse
import Zephyr.Proc.Containment
import Zephyr.Asm.Machine
import Zephyr.Asm.Stack
import Zephyr.Proc.Entry
import Zephyr.Proc.SystemCall
import Zephyr.Space.Calls
import Zephyr.Space.Release
import Zephyr.Space.Isolation
import Zephyr.Space.Access
import Zephyr.Space.Loader
import Zephyr.Space.System
import Zephyr.Space.Tenancy
import Zephyr.Space.Steps
import Zephyr.Space.Teardown
import Zephyr.Space.Runs
import Zephyr.Space.Departure
import Zephyr.Mem.Supply
import Zephyr.Space.Launch
import Zephyr.Space.Privilege
import Zephyr.Mem.SlotSearch
import Zephyr.Mem.LiveStacks
import Zephyr.Mem.SlotReuse
import Zephyr.Space.Fork
import Zephyr.Space.Image
import Zephyr.Space.Malformed
import Zephyr.Space.MemoryImage
import Zephyr.Space.Spawn
import Zephyr.Heap.FixedSizeBlock
import Zephyr.Heap.Partition
import Zephyr.Sync.Progress
import Zephyr.Api.Syscall
import Zephyr.Heap.Align
import Zephyr.Heap.Bump
import Zephyr.Heap.LinkedList
import Zephyr.Heap.FreeRegions
import Zephyr.Mem.TableBound
import Zephyr.Mem.MemoryLogger
import Zephyr.Text.Pattern
import Zephyr.Mem.MemStats
import Zephyr.Dev.VgaBuffer
import Zephyr.Text.Layout
import Zephyr.Dev.Screen
import Zephyr.Dev.Keyboard
import Zephyr.Mem.Statistics
import Zephyr.Proc.Exchange
import Zephyr.Proc.Ipc
import Zephyr.Api.Program
import Zephyr.Proc.Execution
import Zephyr.Proc.Retry
import Zephyr.Bin.Main
import Zephyr.Proc.Team
import Zephyr.Bin.ThreadIds
import Zephyr.Bin.Completion
import Zephyr.Mem.Mappings
import Zephyr.Space.Handover
import Zephyr.Space.Protection
import Zephyr.Dev.ScancodeStream
import Zephyr.Heap.HighWater
import Zephyr.Proc.Confinement
import Zephyr.Proc.Interruption
import Zephyr.Space.SysWrite
import Zephyr.Proc.RoundRobin
