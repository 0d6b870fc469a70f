import Bootloader.Arch.Disk
import Bootloader.Arch.Int32Call
import Bootloader.Std.Follow

/-!
# The boot sector

`boot0.S` of the protected-mode build, instruction by instruction. It asks the BIOS to reset the
drive, to read the two parts of stage 1 and to open the A20 gate; if all goes well it enters
stage 1 in flat protected mode, otherwise it prints a message and halts.
-/

namespace Bootloader.Arch

open Bootloader.Std Bootloader.Common

/-- Where the BIOS puts the boot sector. -/
def bootSector : Nat := 0x7c00

/-- `BOOT0_STACK_BASE_OFFSET`. -/
def boot0StackBaseOffset : UInt32 := 0x8000

/-- `BOOT0_EXTRA_DATA_SEGMENT`. -/
def boot0ExtraDataSegment : UInt16 := 0x1000

/-- `BOOT1_START_ADDR_PM`. -/
def boot1StartAddrPm : UInt32 := 0x10000

/-- `STACK_BASE_OFFSET`. -/
def stackBaseOffset : UInt32 := 0x9F000

/-- A part of stage 1 on the disk: the head, the number of sectors, the offset it goes to and the
first sector. -/
structure BootPart where
  head : UInt8
  nbSectors : UInt8
  startAddrRm : UInt16
  startSector : UInt16
deriving DecidableEq, Repr

/-- `BOOT1P1`. -/
def boot1p1 : BootPart := ⟨0, 62, 0, 2⟩

/-- `BOOT1P2`. -/
def boot1p2 : BootPart := ⟨1, 58, 62 * 512, 1⟩

/-- The text at `msg_please_reboot`, without its terminator. -/
def pleaseReboot : List UInt8 :=
  [65, 110, 32, 101, 114, 114, 111, 114, 32, 119, 97, 115, 32, 101, 110, 99, 111, 117, 110, 116,
    101, 114, 101, 100, 44, 32, 112, 108, 101, 97, 115, 101, 32, 114, 101, 98, 111, 111, 116]

/-- The table at `gdt`. -/
def boot0Gdt : List UInt8 :=
  [0, 0, 0, 0, 0, 0, 0, 0] ++
    [0xff, 0xff, 0x00, 0x00, 0x00, 0x9b, 0xdf, 0x00] ++
    [0xff, 0xff, 0x00, 0x00, 0x00, 0x93, 0xdf, 0x00]

/-- What the assembler and the linker make of `boot0.S`: the bytes of the instructions, the
addresses of the labels and of what stands behind a conditional jump or a call, and the addresses
of the data. -/
structure Boot0Image where
  text : List UInt8
  prints : UInt32
  nextCharacter : UInt32
  character : UInt32
  printed : UInt32
  initRegisters : UInt32
  nextLine : UInt32
  driveReadBoot : UInt32
  secondRead : UInt32
  a20gateEnable : UInt32
  disableInterrupts : UInt32
  switched : UInt32
  fatalError : UInt32
  stop : UInt32
  halted : UInt32
  msgPleaseReboot : UInt32
  bootDrv : UInt32
  gdt : UInt32
  labels : [halted, nextLine, driveReadBoot, secondRead, a20gateEnable, disableInterrupts, switched,
    fatalError, prints, nextCharacter, character, printed, stop].Nodup
  labels_lt : ∀ label ∈ [nextLine, driveReadBoot, secondRead, a20gateEnable, disableInterrupts,
    switched, fatalError, prints, nextCharacter, character, printed, stop],
    label.toNat < bootSector + text.length
  rodata : bootSector + text.length ≤ msgPleaseReboot.toNat
  bss : msgPleaseReboot.toNat + 40 ≤ bootDrv.toNat
  data : bootDrv.toNat + 1 ≤ gdt.toNat
  fits : gdt.toNat + 30 ≤ bootSector + 510

namespace Boot0Image

variable (image : Boot0Image)

/-- `gdtptr`. -/
def gdtptr : UInt32 := image.gdt + 24

/-- Whether the instructions are still in place. -/
def inPlace (memory : Memory) : Bool :=
  decide (memory.loadBytes bootSector image.text.length = image.text)

/-- `init_registers`, as a jump relative to `_start` finds it from wherever the BIOS has entered. -/
def initRegistersFrom (entry : UInt32) : UInt32 :=
  entry + (image.initRegisters - UInt32.ofNat bootSector)

/-- `_start`, for the offset the BIOS enters it with. -/
def startBlock (entry : UInt32) : CodeBlock where
  start := entry
  assembled := .word
  intact := image.inPlace
  instructions := [.jump (image.initRegistersFrom entry)]

/-- `init_registers`. -/
def initRegistersBlock (entry : UInt32) : CodeBlock where
  start := image.initRegistersFrom entry
  assembled := .word
  intact := image.inPlace
  instructions := [.cli, .jumpFar .long 0x0000 image.nextLine]

/-- What stands behind the registers of a request. -/
def requestInstructions (number : UInt8) (next : UInt32) : List Instruction :=
  [.intImmediate number, .jumpIf .carry image.fatalError next]

/-- `next_line`, and `drive_reset`. -/
def nextLineBlock : CodeBlock where
  start := image.nextLine
  assembled := .word
  intact := image.inPlace
  instructions :=
    [.moveImmediate .word .eax 0x0000,
      .loadSegment .ds .eax,
      .moveImmediate .word .eax boot0ExtraDataSegment.toUInt32,
      .loadSegment .es .eax,
      .storeByte ⟨.ds, none, image.bootDrv, .word⟩ .dl,
      .moveImmediate .word .eax 0x0000,
      .loadSegment .ss .eax,
      .moveImmediate .word .esp boot0StackBaseOffset,
      .sti,
      .moveByteImmediate .ah 0x00] ++
    image.requestInstructions 0x13 image.driveReadBoot

/-- `drive_read_boot`, for one of the two parts. -/
def readBlock (start next : UInt32) (part : BootPart) : CodeBlock where
  start := start
  assembled := .word
  intact := image.inPlace
  instructions :=
    [.moveByteImmediate .dh part.head,
      .moveByteImmediate .al part.nbSectors,
      .moveImmediate .word .ebx part.startAddrRm.toUInt32,
      .moveImmediate .word .ecx part.startSector.toUInt32,
      .moveByteImmediate .ah 0x02] ++
    image.requestInstructions 0x13 next

/-- `a20gate_enable`. -/
def a20gateEnableBlock : CodeBlock where
  start := image.a20gateEnable
  assembled := .word
  intact := image.inPlace
  instructions :=
    [.moveByteImmediate .al 0x01,
      .moveByteImmediate .ah 0x24] ++
    image.requestInstructions 0x15 image.disableInterrupts

/-- `disable_interrupts`, `gdt_init` and the first half of `switch_to_protected_mode`. -/
def disableInterruptsBlock : CodeBlock where
  start := image.disableInterrupts
  assembled := .word
  intact := image.inPlace
  instructions :=
    [.cli,
      .storeImmediate .word ⟨.ds, none, image.gdtptr, .word⟩ 24,
      .xor .long .eax .eax,
      .xor .long .ebx .ebx,
      .storeSegment .eax .ds,
      .shlImmediate .long .eax 4,
      .moveImmediate .word .ebx image.gdt,
      .add .long .eax .ebx,
      .moveImmediate .word .ebx image.gdtptr,
      .store .long ⟨.ds, some .ebx, 2, .long⟩ .eax,
      .lgdt .long ⟨.ds, none, image.gdtptr, .word⟩,
      .loadControl .eax,
      .orImmediate .word .eax 0x0001,
      .storeControl .eax,
      .jump image.switched]

/-- The second half of `switch_to_protected_mode`. -/
def switchedBlock : CodeBlock where
  start := image.switched
  assembled := .word
  intact := image.inPlace
  instructions :=
    [.moveImmediate .word .eax 16,
      .loadSegment .ds .eax,
      .loadSegment .es .eax,
      .loadSegment .fs .eax,
      .loadSegment .gs .eax,
      .loadSegment .ss .eax,
      .moveImmediate .long .esp stackBaseOffset,
      .jumpFar .long 8 boot1StartAddrPm]

/-- `fatal_error`, up to the call. -/
def fatalErrorBlock : CodeBlock where
  start := image.fatalError
  assembled := .word
  intact := image.inPlace
  instructions :=
    [.moveImmediate .word .esi image.msgPleaseReboot,
      .call .long image.prints image.stop]

/-- The end of `fatal_error`. -/
def stopBlock : CodeBlock where
  start := image.stop
  assembled := .word
  intact := image.inPlace
  instructions := [.cli, .hlt image.halted]

/-- Look at the next character in `prints`. -/
def nextCharacterBlock : CodeBlock where
  start := image.nextCharacter
  assembled := .word
  intact := image.inPlace
  instructions :=
    [.lodsb,
      .compareByte .al 0x00,
      .jumpIf .zero image.printed image.character]

/-- `prints`, up to the end of its first look. -/
def printsBlock : CodeBlock where
  start := image.prints
  assembled := .word
  intact := image.inPlace
  instructions :=
    [.push .word .eax,
      .push .word .ebx] ++
    image.nextCharacterBlock.instructions

/-- Print a character in `prints`. -/
def characterBlock : CodeBlock where
  start := image.character
  assembled := .word
  intact := image.inPlace
  instructions :=
    [.moveByteImmediate .bl 0xff,
      .moveByteImmediate .bh 0x00,
      .moveByteImmediate .ah 0x0e,
      .intImmediate 0x10,
      .jump image.nextCharacter]

/-- The end of `prints`. -/
def printedBlock : CodeBlock where
  start := image.printed
  assembled := .word
  intact := image.inPlace
  instructions :=
    [.pop .word .ebx,
      .pop .word .eax,
      .ret .long]

/-- All that is run in the code segment 0. -/
def program : List CodeBlock :=
  [image.nextLineBlock,
    image.readBlock image.driveReadBoot image.secondRead boot1p1,
    image.readBlock image.secondRead image.a20gateEnable boot1p2,
    image.a20gateEnableBlock,
    image.disableInterruptsBlock,
    image.switchedBlock,
    image.fatalErrorBlock,
    image.printsBlock,
    image.nextCharacterBlock,
    image.characterBlock,
    image.printedBlock,
    image.stopBlock]

end Boot0Image

/-- `boot0.S`, entered with some offset, for as many blocks as `turns`. -/
def boot0 (firmware : Firmware) (image : Boot0Image) (entry : UInt32) (turns : Nat) (cpu : Cpu) :
    Option Cpu :=
  CodeBlock.runs firmware [image.startBlock entry, image.initRegistersBlock entry] cpu >>=
    CodeBlock.follow firmware image.program turns

/-- What the boot sector asks the BIOS for. -/
inductive Boot0Request where
  | reset
  | read (part : BootPart)
  | enableA20
  | print (character : UInt8)
deriving DecidableEq, Repr

/-- A real-mode segment. -/
def realSegment (selector : UInt16) : Segment where
  selector
  base := 16 * selector.toNat
  limit := 0xffff
  width := .word

namespace Boot0Request

/-- The interrupt. -/
def number : Boot0Request → UInt8
  | reset | read _ => 0x13
  | enableA20 => 0x15
  | print _ => 0x10

/-- The registers that a request is made with, for a boot drive. -/
def Made (drive : UInt8) (cpu : Cpu) : Boot0Request → Prop
  | reset => cpu.byte .ah = 0x00 ∧ cpu.byte .dl = drive
  | read part => cpu.byte .ah = 0x02 ∧ cpu.byte .al = part.nbSectors ∧
      (cpu.register .ecx).toUInt16 = part.startSector ∧ cpu.byte .dh = part.head ∧
      cpu.byte .dl = drive ∧ (cpu.segment .es).selector = boot0ExtraDataSegment ∧
      (cpu.register .ebx).toUInt16 = part.startAddrRm
  | enableA20 => cpu.byte .ah = 0x24 ∧ cpu.byte .al = 0x01
  | print character => cpu.byte .ah = 0x0e ∧ cpu.byte .al = character ∧
      cpu.byte .bh = 0x00 ∧ cpu.byte .bl = 0xff

/-- Where the BIOS may put what it reads. -/
def buffer (address : Nat) : Boot0Request → Prop
  | read part => 0x10000 + part.startAddrRm.toNat ≤ address ∧
      address < 0x10000 + part.startAddrRm.toNat + 512 * part.nbSectors.toNat
  | _ => False

end Boot0Request

/-- The requests on the way to stage 1. -/
def boot0Requests : List Boot0Request := [.reset, .read boot1p1, .read boot1p2, .enableA20]

/-- What the boot sector needs in memory to be in place. -/
structure Boot0Image.Loaded (image : Boot0Image) (memory : Memory) : Prop where
  text : memory.Holds bootSector image.text
  message : memory.Holds image.msgPleaseReboot.toNat (pleaseReboot ++ [0])
  gdt : memory.Holds image.gdt.toNat boot0Gdt

/-- The processor while the boot sector is in its segments, with its stack at some offset. -/
structure InBoot0 (image : Boot0Image) (drive : UInt8) (stack : UInt32) (cpu : Cpu) : Prop where
  mode : cpu.protectedMode = false
  code : cpu.segment .cs = realSegment 0
  data : cpu.segment .ds = realSegment 0
  extra : cpu.segment .es = realSegment boot0ExtraDataSegment
  stackSegment : cpu.segment .ss = realSegment 0
  pointer : cpu.stackPointer = stack
  dl : cpu.byte .dl = drive
  up : cpu.flags &&& Flag.direction.mask = 0
  loaded : image.Loaded cpu.memory

/-- What the BIOS keeps while it answers a request. -/
structure Boot0Answered (request : Boot0Request) (before after : Cpu) : Prop where
  cr0 : after.cr0 = before.cr0
  segment : ∀ register ∈ [SegmentRegister.cs, .ds, .es, .ss],
    after.segment register = before.segment register
  esp : after.register .esp = before.register .esp
  esi : after.register .esi = before.register .esi
  dl : after.byte .dl = before.byte .dl
  direction : after.flags &&& Flag.direction.mask = before.flags &&& Flag.direction.mask
  memory : ∀ address,
    bootSector ≤ address ∧ address < bootSector + 512 ∨
      before.stackPointer.toNat ≤ address ∧ address < boot0StackBaseOffset.toNat ∨
      0x10000 ≤ address ∧ address < 0x1f000 ∧ ¬ request.buffer address →
    after.memory address = before.memory address

/-- A BIOS that answers the requests of the boot sector. -/
def Boot0Bios (firmware : Firmware) (image : Boot0Image) : Prop :=
  ∀ (request : Boot0Request) (drive : UInt8) (stack : UInt32) (cpu : Cpu),
    stack = boot0StackBaseOffset ∨ stack = boot0StackBaseOffset - 8 →
    InBoot0 image drive stack cpu → request.Made drive cpu →
    Boot0Answered request cpu (firmware request.number cpu)

/-- Whether the BIOS has refused. -/
def Refused (cpu : Cpu) : Prop := cpu.flags &&& Flag.carry.mask ≠ 0

/-- Requests are made one after the other with nothing written between them, and each answer is
of a kind and keeps what it must. -/
inductive Asked (firmware : Firmware) (drive : UInt8) (kind : Cpu → Prop) :
    List Boot0Request → Memory → Memory → Prop where
  | nil {memory} : Asked firmware drive kind [] memory memory
  | cons {request requests cpu last} (made : request.Made drive cpu)
      (kept : Boot0Answered request cpu (firmware request.number cpu))
      (answer : kind (firmware request.number cpu))
      (more : Asked firmware drive kind requests (firmware request.number cpu).memory last) :
      Asked firmware drive kind (request :: requests) cpu.memory last

/-- The BIOS has put the boot sector where it belongs and entered it in real mode, with whatever
split into segment and offset, and with the drive in DL. -/
structure Boot0Entered (image : Boot0Image) (entry : UInt32) (drive : UInt8) (cpu : Cpu) :
    Prop where
  mode : cpu.protectedMode = false
  segments : ∀ register, (cpu.segment register).limit = 0xffff ∧ (cpu.segment register).width = .word
  offset : cpu.ip = entry
  place : (cpu.segment .cs).base + entry.toNat = bootSector
  dl : cpu.byte .dl = drive
  up : cpu.flags &&& Flag.direction.mask = 0
  loaded : image.Loaded cpu.memory

/-- Memory with the boot drive written down. -/
def Boot0Image.saveDrive (image : Boot0Image) (drive : UInt8) (memory : Memory) : Memory :=
  memory.storeLE image.bootDrv.toNat 1 drive.toNat

/-- The table register that `gdtptr` is filled with. -/
def Boot0Image.table (image : Boot0Image) : TableRegister where
  limit := 24
  base := image.gdt

/-- Memory with `gdtptr` filled in. -/
def Boot0Image.fillPointer (image : Boot0Image) (memory : Memory) : Memory :=
  (memory.storeLE image.gdtptr.toNat 2 24).storeLE (image.gdtptr.toNat + 2) 4 image.gdt.toNat

/-- The processor when stage 1 is entered, with the memory the last request has left. -/
structure Boot1Entered (image : Boot0Image) (drive : UInt8) (memory : Memory) (after : Cpu) :
    Prop where
  ip : after.ip = boot1StartAddrPm
  mode : after.protectedMode = true
  segment : after.segment = flatSegments
  gdtr : after.gdtr = image.table
  table : ∀ register, Segment.select after.memory after.gdtr register
    (flatSegments register).selector = some (after.segment register)
  esp : after.register .esp = stackBaseOffset
  interrupts : after.flags &&& Flag.interrupt.mask = 0
  dl : after.byte .dl = drive
  memory : after.memory = image.fillPointer memory

/-- The processor when the boot sector has given up. -/
structure Boot0Halted (image : Boot0Image) (after : Cpu) : Prop where
  ip : after.ip = image.halted
  mode : after.protectedMode = false
  interrupts : after.flags &&& Flag.interrupt.mask = 0

/-- Memory as `prints` finds it: the return address, AX and BX are on the stack. -/
def Boot0Image.printing (image : Boot0Image) (ax bx : UInt32) (memory : Memory) : Memory :=
  (memory.pushWords boot0StackBaseOffset.toNat 4 [image.stop]).pushWords
    (boot0StackBaseOffset.toNat - 4) 2 [ax, bx]

/-- How the boot sector ends: either all requests have been accepted and stage 1 is entered, or
those before one were, this one was refused, the message has been printed and the processor is
halted. -/
def Boot0Ends (firmware : Firmware) (image : Boot0Image) (drive : UInt8) (memory : Memory)
    (after : Cpu) : Prop :=
  (∃ last, Asked firmware drive (¬ Refused ·) boot0Requests memory last ∧
    Boot1Entered image drive last after) ∨
  (∃ accepted refused rest middle last ax bx,
    boot0Requests = accepted ++ refused :: rest ∧
    Asked firmware drive (¬ Refused ·) accepted memory middle ∧
    Asked firmware drive Refused [refused] middle last ∧
    Asked firmware drive (fun _ => True) (pleaseReboot.map .print)
      (image.printing ax bx last) after.memory ∧
    Boot0Halted image after)

end Bootloader.Arch
