import Bootloader.Std.Program
import Bootloader.Std.Memory
import Bootloader.Std.BlockList
import Bootloader.Libc.MemOperations
import Bootloader.Libc.Alloc
import Bootloader.Libc.AllocBlocks
import Bootloader.Libc.AllocRuns
import Bootloader.Libc.AllocTiling
import Bootloader.Libc.AllocMap
import Bootloader.Arch.Disk
import Bootloader.Common.HdDrv
import Bootloader.Common.HdDrvDelivery
import Bootloader.Common.HdDrvRange
import Bootloader.Arch.Vga
import Bootloader.Arch.Tty
import Bootloader.Arch.TtyPage
import Bootloader.Arch.E820
import Bootloader.Common.Multiboot
import Bootloader.Arch.Timer
import Bootloader.Arch.TimerRuns
import Bootloader.Libc.StrOperations
import Bootloader.Libc.Format
import Bootloader.Libc.Printf
import Bootloader.Libc.Sprintf
import Bootloader.Arch.DiskAddress
import Bootloader.Arch.Input
import Bootloader.Arch.Clock
import Bootloader.Arch.Keyboard
import Bootloader.Arch.KeyboardRuns
import Bootloader.Arch.Idt
import Bootloader.Common.HdOpen
import Bootloader.Libc.PrintfAppend
import Bootloader.Common.HdDrvFaults
import Bootloader.Libc.AllocClients
import Bootloader.Common.HdOpenHeap
import Bootloader.Common.Mbr
import Bootloader.Common.MbrRuns
import Bootloader.Libc.AllocContents
import Bootloader.Arch.E820Buffer
import Bootloader.Std.Reach
import Bootloader.Std.Sweep
import Bootloader.Common.HdDrvCarry
import Bootloader.Common.HdDrvTracks
import Bootloader.Libc.Ctype
import Bootloader.Std.Numeral
import Bootloader.Libc.NbToStrBuffer
import Bootloader.Libc.NumberRoundTrip
import Bootloader.Libc.PrintfNumbers
import Bootloader.Libc.PrintfWidth
import Bootloader.Libc.PrintfWalk
import Bootloader.Libc.SprintfTerminator
import Bootloader.Common.MultibootMap
import Bootloader.Arch.ClockTicks
import Bootloader.Arch.TimerTicks
import Bootloader.Arch.TtyBackspace
import Bootloader.Arch.Sleep
import Bootloader.Libc.BasicIn
import Bootloader.Libc.StrCompare
import Bootloader.Shell.Int
import Bootloader.Libc.CtypeLookups
import Bootloader.Shell.IntLookups
import Bootloader.Std.Words
import Bootloader.Shell.Split
import Bootloader.Shell.Execute
import Bootloader.Arch.TtyColour
import Bootloader.Arch.VgaScroll
import Bootloader.Arch.E801
import Bootloader.Arch.Pit
import Bootloader.Arch.Bootstrap
import Bootloader.Arch.Graphics
import Bootloader.Arch.GraphicsLines
import Bootloader.Libc.StrOrder
import Bootloader.Libc.MemOverlap
import Bootloader.Libc.StrCopies
import Bootloader.Libc.StrReads
import Bootloader.Std.Cpu
import Bootloader.Arch.Int32
import Bootloader.Std.CpuRules
import Bootloader.Arch.Gdt
import Bootloader.Arch.Int32Bios
import Bootloader.Arch.Isr
import Bootloader.Common.HdOpenInt32
import Bootloader.Arch.Hal
import Bootloader.Shell.Session
import Bootloader.Arch.Boot0
import Bootloader.Arch.Boot0Disk
import Bootloader.Common.Itoa
import Bootloader.Common.KernelPrintf
