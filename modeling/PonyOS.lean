import PonyOS.Lib.Transition
import PonyOS.Lib.Loop
import PonyOS.Lib.Word
import PonyOS.Lib.Count
import PonyOS.Lib.Stride
import PonyOS.Lib.Segment
import PonyOS.FileSystem.Image
import PonyOS.FileSystem.Lookup
import PonyOS.FileSystem.Names
import PonyOS.FileSystem.ReadData
import PonyOS.FileSystem.Exact
import PonyOS.Paging.Tables
import PonyOS.Terminal.Console
import PonyOS.Terminal.Screen
import PonyOS.Terminal.Drawing
import PonyOS.Terminal.Keyboard
import PonyOS.Terminal.Reference
import PonyOS.Terminal.Switching
import PonyOS.Paging.Confinement
import PonyOS.Paging.AddressMap
import PonyOS.Terminal.Delivery
import PonyOS.Terminal.Frame
import PonyOS.Terminal.Editor
import PonyOS.Terminal.Typing
import PonyOS.Terminal.Presses
import PonyOS.Terminal.Writing
import PonyOS.Terminal.Printf
import PonyOS.Terminal.Numbers
import PonyOS.Terminal.Sheet
import PonyOS.Terminal.Scrolling
import PonyOS.Process.Execute
import PonyOS.Process.Schedule
import PonyOS.Process.Similar
import PonyOS.Process.Atomic
import PonyOS.Process.Table
import PonyOS.Process.Invariant
import PonyOS.Process.Executables
import PonyOS.Process.Context
import PonyOS.Syscall.Calls
import PonyOS.Clock.Rate
import PonyOS.Clock.Ticks
import PonyOS.Interrupt.Machine
import PonyOS.Interrupt.Vectors
import PonyOS.Memory.Machine
import PonyOS.Memory.Routines
import PonyOS.Memory.Moves
import PonyOS.Memory.Screens
import PonyOS.Syscall.Effects
import PonyOS.Syscall.Buffers
import PonyOS.Syscall.Slots
import PonyOS.Syscall.Descriptors
import PonyOS.Syscall.Files
import PonyOS.Process.Loading
import PonyOS.Syscall.Directory
import PonyOS.Syscall.Listing
import PonyOS.Lib.RoundRobin
import PonyOS.Process.Fairness
import PonyOS.Process.Provenance
import PonyOS.Process.ExitStatus
import PonyOS.Process.Shells
import PonyOS.Syscall.RootHalt
import PonyOS.Syscall.Arguments
import PonyOS.Syscall.CommandLine
import PonyOS.Syscall.ReadLength
import PonyOS.Syscall.TypedText
import PonyOS.Terminal.Cells
import PonyOS.Lib.Ranking
import PonyOS.Process.Delay
import PonyOS.Syscall.Starvation
import PonyOS.Lib.Environment
import PonyOS.User.Thread
import PonyOS.User.Cat
import PonyOS.Interrupt.Controller
import PonyOS.Interrupt.Service
import PonyOS.Interrupt.Drivers
import PonyOS.Lib.Bitfield
import PonyOS.Lib.Cache
import PonyOS.Paging.Entries
import PonyOS.Paging.Processor
