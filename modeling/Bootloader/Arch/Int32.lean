import Bootloader.Std.Bytes
import Bootloader.Std.Cpu

/-!
# Interrupts of the BIOS from protected mode

`int32` copies itself below 64 KB, goes down to real mode through a 16-bit code segment,
loads the registers of a `regs16_t`, runs the interrupt whose number it has written into its
own code, stores the registers and comes back up.
-/

namespace Bootloader.Arch

open Bootloader.Std

/-- `INT32_BASE`. -/
def int32Base : Nat := 0x7C00

/-- `regs16_t_size`. -/
def regs16Size : Nat := 26

/-- `STACK16`. -/
def stack16 : Nat := int32Base - regs16Size

/-- `GDTENTRY`. -/
def gdtEntry (index : UInt16) : UInt16 := index <<< 3

/-- `CODE32`. -/
def code32 : UInt16 := gdtEntry 1

/-- `DATA32`. -/
def data32 : UInt16 := gdtEntry 2

/-- `CODE16`. -/
def code16 : UInt16 := gdtEntry 3

/-- `DATA16`. -/
def data16 : UInt16 := gdtEntry 4

/-- The fields of a `regs16_t`. -/
@[ext]
structure Regs16T where
  di : UInt16
  si : UInt16
  bp : UInt16
  sp : UInt16
  bx : UInt16
  dx : UInt16
  cx : UInt16
  ax : UInt16
  gs : UInt16
  fs : UInt16
  es : UInt16
  ds : UInt16
  ef : UInt16
deriving DecidableEq, Repr

namespace Regs16T

/-- The `regs16_t` at an address. -/
def load (memory : Memory) (address : Nat) : Regs16T where
  di := memory.load16 address
  si := memory.load16 (address + 2)
  bp := memory.load16 (address + 4)
  sp := memory.load16 (address + 6)
  bx := memory.load16 (address + 8)
  dx := memory.load16 (address + 10)
  cx := memory.load16 (address + 12)
  ax := memory.load16 (address + 14)
  gs := memory.load16 (address + 16)
  fs := memory.load16 (address + 18)
  es := memory.load16 (address + 20)
  ds := memory.load16 (address + 22)
  ef := memory.load16 (address + 24)

/-- The registers of the processor that a `regs16_t` has fields for. -/
def ofCpu (cpu : Cpu) : Regs16T where
  di := (cpu.register .edi).toUInt16
  si := (cpu.register .esi).toUInt16
  bp := (cpu.register .ebp).toUInt16
  sp := (cpu.register .esp).toUInt16
  bx := (cpu.register .ebx).toUInt16
  dx := (cpu.register .edx).toUInt16
  cx := (cpu.register .ecx).toUInt16
  ax := (cpu.register .eax).toUInt16
  gs := (cpu.segment .gs).selector
  fs := (cpu.segment .fs).selector
  es := (cpu.segment .es).selector
  ds := (cpu.segment .ds).selector
  ef := cpu.flags.toUInt16

/-- Blocks of the same bytes hold the same registers. -/
theorem load_congr {memory other : Memory} {address target : Nat}
    (same : ∀ place < regs16Size, memory (address + place) = other (target + place)) :
    load memory address = load other target := by
  have word : ∀ place, place + 1 < regs16Size →
      memory.load16 (address + place) = other.load16 (target + place) :=
    fun place within => Memory.load16_congr (same place (by omega)) (same (place + 1) (by omega))
  simp only [load, word 2 (by decide), word 4 (by decide), word 6 (by decide), word 8 (by decide),
    word 10 (by decide), word 12 (by decide), word 14 (by decide), word 16 (by decide),
    word 18 (by decide), word 20 (by decide), word 22 (by decide), word 24 (by decide)]
  rw [show memory.load16 address = other.load16 target from word 0 (by decide)]

end Regs16T

/-- The table at `gdt16_base`. -/
def gdt16 : List UInt8 :=
  [0x00, 0x00, 0x00, 0x00, 0x00, 0x00, 0x00, 0x00] ++
    [0xff, 0xff, 0x00, 0x00, 0x00, 0x9a, 0xcf, 0x00] ++
    [0xff, 0xff, 0x00, 0x00, 0x00, 0x92, 0xcf, 0x00] ++
    [0xff, 0xff, 0x00, 0x00, 0x00, 0x9a, 0x0f, 0x00] ++
    [0xff, 0xff, 0x00, 0x00, 0x00, 0x92, 0x0f, 0x00]

/-- What the assembler and the linker make of `int32`: where it and the part behind `reloc`
are, the bytes from `reloc` to `stack32_ptr`, and where in them the labels and the
instructions behind the two calls of `resetpic` are. -/
structure Int32Image where
  entry : UInt32
  reloc : UInt32
  code : List UInt8
  pMode16 : Nat
  rMode16 : Nat
  vectorsSet : Nat
  ib : Nat
  vectorsRestored : Nat
  pMode32 : Nat
  resetpic : Nat
  ib_lt : ib < code.length
  labels_lt : pMode16 < code.length ∧ rMode16 < code.length ∧ vectorsSet < code.length ∧
    vectorsRestored < code.length ∧ pMode32 < code.length ∧ resetpic < code.length
  fits : int32Base + (code.length + 68) ≤ 0x10000
  linked : reloc.toNat + (code.length + 68) ≤ 2 ^ 32

namespace Int32Image

variable (image : Int32Image)

/-- The offset of `stack32_ptr` from `reloc`. -/
def stack32Ptr : Nat := image.code.length

/-- The offset of `idt32_ptr`. -/
def idt32Ptr : Nat := image.code.length + 4

/-- The offset of `gdt32_ptr`. -/
def gdt32Ptr : Nat := image.code.length + 10

/-- The offset of `idt16_ptr`. -/
def idt16Ptr : Nat := image.code.length + 16

/-- The offset of `gdt16_base`. -/
def gdt16Base : Nat := image.code.length + 22

/-- The offset of `gdt16_ptr`. -/
def gdt16Ptr : Nat := image.code.length + 62

/-- `int32_end - reloc`. -/
def size : Nat := image.code.length + 68

/-- The bytes from `reloc` to `int32_end`. -/
def bytes : List UInt8 :=
  image.code ++ doubleWord 0 ++ ([0x00, 0x00] ++ doubleWord 0) ++ ([0x00, 0x00] ++ doubleWord 0) ++
    ([0xff, 0x03] ++ doubleWord 0) ++ gdt16 ++
    ([39, 0] ++ doubleWord (image.reloc + UInt32.ofNat image.gdt16Base))

/-- `REBASE`. -/
def rebase (place : Nat) : UInt32 := UInt32.ofNat (int32Base + place)

/-- An operand in the copy below 64 KB. -/
def variable' (width : Width) (place : Nat) : Place where
  segment := .ds
  base := none
  displacement := rebase place
  width := width

/-- Whether the instructions are still in the copy; the immediate byte at `ib` may be any. -/
def inPlace (memory : Memory) : Bool :=
  (List.range image.code.length).all fun place =>
    place == image.ib || image.code[place]? == some (memory (int32Base + place))

end Int32Image

section Code

variable (image : Int32Image)

open Int32Image

/-- `int32`: save the registers and copy the rest to `INT32_BASE`. -/
def int32Block : CodeBlock where
  start := image.entry
  assembled := .long
  intact := fun _ => true
  instructions :=
    [.cli,
      .pusha .long,
      .moveImmediate .long .esi image.reloc,
      .moveImmediate .long .edi (UInt32.ofNat int32Base),
      .moveImmediate .long .ecx (UInt32.ofNat image.size),
      .cld,
      .repMovsb,
      .jump (UInt32.ofNat int32Base)]

/-- `reloc`: save what protected mode needs, and take the arguments along. -/
def relocBlock : CodeBlock where
  start := UInt32.ofNat int32Base
  assembled := .long
  intact := image.inPlace
  instructions :=
    [.store .long (variable' .long image.stack32Ptr) .esp,
      .sidt (variable' .long image.idt32Ptr),
      .sgdt (variable' .long image.gdt32Ptr),
      .lgdt .long (variable' .long image.gdt16Ptr),
      .lea .long .esi ⟨.ss, some .esp, 0x24, .long⟩,
      .lodsd,
      .storeByte (variable' .long image.ib) .al,
      .load .long .esi ⟨.ds, some .esi, 0, .long⟩,
      .moveImmediate .long .edi (UInt32.ofNat stack16),
      .moveImmediate .long .ecx (UInt32.ofNat regs16Size),
      .move .long .esp .edi,
      .repMovsb,
      .jumpFar .word code16 (rebase image.pMode16)]

/-- `p_mode16`: load segments that real mode can live with, and leave protected mode. -/
def pMode16Block : CodeBlock where
  start := rebase image.pMode16
  assembled := .word
  intact := image.inPlace
  instructions :=
    [.moveImmediate .word .eax data16.toUInt32,
      .loadSegment .ds .eax,
      .loadSegment .es .eax,
      .loadSegment .fs .eax,
      .loadSegment .gs .eax,
      .loadSegment .ss .eax,
      .loadControl .eax,
      .andByte .al (~~~0x01),
      .storeControl .eax,
      .jumpFar .word 0x0000 (rebase image.rMode16)]

/-- `r_mode16` up to the call of `resetpic`. -/
def rMode16Block : CodeBlock where
  start := rebase image.rMode16
  assembled := .word
  intact := image.inPlace
  instructions :=
    [.xor .word .eax .eax,
      .loadSegment .ds .eax,
      .loadSegment .ss .eax,
      .lidt .word (variable' .word image.idt16Ptr),
      .moveImmediate .word .ebx 0x0870,
      .call .word (rebase image.resetpic) (rebase image.vectorsSet)]

/-- `resetpic`. It stands behind `p_mode32` and is assembled for 32-bit code. -/
def resetpicBlock : CodeBlock where
  start := rebase image.resetpic
  assembled := .long
  intact := image.inPlace
  instructions :=
    [.push .word .eax,
      .moveByteImmediate .al 0x11,
      .out 0x20,
      .out 0xA0,
      .moveByte .al .bh,
      .out 0x21,
      .moveByte .al .bl,
      .out 0xA1,
      .moveByteImmediate .al 0x04,
      .out 0x21,
      .shrByte .al,
      .out 0xA1,
      .shrByte .al,
      .out 0x21,
      .out 0xA1,
      .pop .word .eax,
      .ret .long]

/-- `r_mode16` from the first call of `resetpic` to the second one, with the interrupt in
between. -/
def interruptBlock : CodeBlock where
  start := rebase image.vectorsSet
  assembled := .word
  intact := image.inPlace
  instructions :=
    [.popa .word,
      .popSegment .word .gs,
      .popSegment .word .fs,
      .popSegment .word .es,
      .popSegment .word .ds,
      .sti,
      .int ⟨.cs, none, rebase image.ib, .word⟩,
      .cli,
      .xor .word .esp .esp,
      .loadSegment .ss .esp,
      .moveImmediate .word .esp (UInt32.ofNat int32Base),
      .pushf .word,
      .pushSegment .word .ds,
      .pushSegment .word .es,
      .pushSegment .word .fs,
      .pushSegment .word .gs,
      .pusha .word,
      .moveImmediate .word .ebx 0x2028,
      .call .word (rebase image.resetpic) (rebase image.vectorsRestored)]

/-- `r_mode16` behind the second call: back to protected mode. -/
def returnBlock : CodeBlock where
  start := rebase image.vectorsRestored
  assembled := .word
  intact := image.inPlace
  instructions :=
    [.loadControl .eax,
      .inc .long .eax,
      .storeControl .eax,
      .jumpFar .long code32 (rebase image.pMode32)]

/-- `p_mode32`: restore what protected mode needs, and hand the registers over. -/
def pMode32Block : CodeBlock where
  start := rebase image.pMode32
  assembled := .long
  intact := image.inPlace
  instructions :=
    [.moveImmediate .word .eax data32.toUInt32,
      .loadSegment .ds .eax,
      .loadSegment .es .eax,
      .loadSegment .fs .eax,
      .loadSegment .gs .eax,
      .loadSegment .ss .eax,
      .lgdt .long (variable' .long image.gdt32Ptr),
      .lidt .long (variable' .long image.idt32Ptr),
      .load .long .esp (variable' .long image.stack32Ptr),
      .moveImmediate .long .esi (UInt32.ofNat stack16),
      .lea .long .edi ⟨.ss, some .esp, 0x28, .long⟩,
      .load .long .edi ⟨.ds, some .edi, 0, .long⟩,
      .moveImmediate .long .ecx (UInt32.ofNat regs16Size),
      .cld,
      .repMovsb,
      .popa .long,
      .sti,
      .ret .long]

/-- The blocks in the order in which they run. -/
def int32Blocks : List CodeBlock :=
  [int32Block image, relocBlock image, pMode16Block image, rMode16Block image,
    resetpicBlock image, interruptBlock image, resetpicBlock image, returnBlock image,
    pMode32Block image]

/-- `int32`, from its call to its return. -/
def int32 (firmware : Firmware) (cpu : Cpu) : Option Cpu :=
  CodeBlock.runs firmware (int32Blocks image) cpu

end Code

end Bootloader.Arch
