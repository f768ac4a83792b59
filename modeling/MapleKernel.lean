import MapleKernel.Lib.Run
import MapleKernel.Lib.LastWrite
import MapleKernel.Lib.Program
import MapleKernel.Lib.Loop
import MapleKernel.Lib.WordField
import MapleKernel.Lib.PackedBits
import MapleKernel.Lib.Blocks
import MapleKernel.Lib.BitPlace
import MapleKernel.Lib.Iterate
import MapleKernel.Lib.FirstFound
import MapleKernel.Lib.FirstGreatest
import MapleKernel.Lib.GridLine
import MapleKernel.Lib.OwnEntries
import MapleKernel.Lib.Digits
import MapleKernel.Lib.Grouped
import MapleKernel.Lib.RowScan
import MapleKernel.Lib.Retry
import MapleKernel.Lib.Buffer
import MapleKernel.Lib.CString
import MapleKernel.Lib.Ownership
import MapleKernel.Lib.BitStruct
import MapleKernel.Lib.StructLayout
import MapleKernel.Lib.X86.Memory
import MapleKernel.Lib.X86.Machine
import MapleKernel.Cpu.SegmentDescriptor
import MapleKernel.Cpu.ReentrantLock
import MapleKernel.Cpu.LockCalls
import MapleKernel.Cpu.IpiLock
import MapleKernel.Cpu.MulticoreGdt
import MapleKernel.Cpu.IpiMailbox
import MapleKernel.Cpu.WakeCore
import MapleKernel.Cpu.Cpuid
import MapleKernel.Cpu.ApicBase
import MapleKernel.Cpu.ApicIo
import MapleKernel.Cpu.BitRange
import MapleKernel.Cpu.PackedDescriptor
import MapleKernel.RuntimeCodeAnalysis.GdtHelper
import MapleKernel.Drivers.KeyboardHandler
import MapleKernel.Drivers.KeyCodes
import MapleKernel.Drivers.KeyEvents
import MapleKernel.Drivers.KeyTyping
import MapleKernel.Drivers.KeyboardAccess
import MapleKernel.Drivers.MouseHandler
import MapleKernel.Drivers.Ps2Controller
import MapleKernel.Drivers.Ps2ControllerSpec
import MapleKernel.Drivers.Ps2Commands
import MapleKernel.Drivers.Ps2Protocol
import MapleKernel.Drivers.Ps2
import MapleKernel.Drivers.Ps2Keyboard
import MapleKernel.Drivers.MouseDecoding
import MapleKernel.Drivers.MouseCursor
import MapleKernel.Timers.Pit
import MapleKernel.Firmware.Memory
import MapleKernel.Firmware.Madt
import MapleKernel.Firmware.MadtLayout
import MapleKernel.Firmware.Acpi
import MapleKernel.Firmware.Multiboot
import MapleKernel.Firmware.ModuleLocation
import MapleKernel.Kernel.MulticoreSetup
import MapleKernel.Kernel.IrqToGsi
import MapleKernel.Kernel.Symbols
import MapleKernel.Real16.CallRealMode
import MapleKernel.Bins.LoadSym
import MapleKernel.Stdlib.StringCompare
import MapleKernel.Stdlib.FindString
import MapleKernel.Stdlib.SpinLock
import MapleKernel.Memory.PageBitmap
import MapleKernel.Memory.Kmalloc
import MapleKernel.Memory.PageWalk
import MapleKernel.Framebuffer.DrawLine
import MapleKernel.Framebuffer.Shapes
import MapleKernel.Framebuffer.ScreenBounds
import MapleKernel.Framebuffer.LineAgreement
import MapleKernel.Stdio.StringHelper
import MapleKernel.Stdio.BitHexString
import MapleKernel.Stdio.NumberText
import MapleKernel.Stdio.Format
import MapleKernel.Stdio.FormatSpec
import MapleKernel.Stdio.FormatScan
import MapleKernel.Stdio.FormatTable
import MapleKernel.Stdio.FormatOptions
import MapleKernel.Stdio.OptionNumbers
import MapleKernel.Stdio.Formatter
import MapleKernel.Stdio.StringToUint
import MapleKernel.Stdio.KprintfArgc
import MapleKernel.Stdio.FormatArgs
import MapleKernel.Stdio.KprintfAtomic
import MapleKernel.Stdio.TextBuffer
import MapleKernel.Stdio.PrintBuffers
import MapleKernel.Stdio.VgaTerminal
import MapleKernel.Stdio.TerminalBounds
import MapleKernel.Stdio.TerminalWindow
import MapleKernel.Stdio.TerminalLayout
import MapleKernel.Stdio.TerminalScroll
import MapleKernel.Drivers.KeyboardRetry
import MapleKernel.Drivers.KeyboardMask
import MapleKernel.Drivers.KeyboardScanning
import MapleKernel.Lib.X86.Stack
import MapleKernel.Lib.X86.Interrupt
import MapleKernel.Drivers.InterruptHandlers
import MapleKernel.Drivers.KeyboardSystem
import MapleKernel.Lib.X86.Rules
import MapleKernel.Lib.X86.Real
import MapleKernel.Real16.ModeSwitch
import MapleKernel.Timers.PitEntry
import MapleKernel.Cpu.ExceptionHandlers
import MapleKernel.Cpu.Pic
import MapleKernel.Cpu.Idt
import MapleKernel.Kernel.BootTables
import MapleKernel.Kernel.InterruptRoutes
