import Bootloader.Arch.Int32Call

/-!
# The global descriptor tables

`i86_gdt_init` fills two tables of segment descriptors and loads the 32-bit one. A base and a
limit are scattered over a descriptor; the processor puts them together again, and finds the
flat segments that `int32` and the interrupt handlers rely on.
-/

namespace Bootloader.Arch

open Bootloader.Std CodeBlock

/-- The fields of a `gdt_descriptor_t`. Those that share their bits have the name that code
segments use. -/
structure GdtDescriptor where
  limit15_0 : UInt16
  base15_0 : UInt16
  base23_16 : UInt8
  accessed : UInt8
  readable : UInt8
  conforming : UInt8
  executable : UInt8
  descriptorType : UInt8
  privilegeLevel : UInt8
  present : UInt8
  limit19_16 : UInt8
  avl : UInt8
  l : UInt8
  defaultOpSize : UInt8
  granularity : UInt8
  base31_24 : UInt8
deriving DecidableEq, Repr

namespace GdtDescriptor

/-- A field of some bits, at its place in a byte. -/
def field (value : UInt8) (bits place : Nat) : UInt8 :=
  UInt8.ofNat (value.toNat % 2 ^ bits * 2 ^ place)

/-- The byte with the access rights. -/
def access (desc : GdtDescriptor) : UInt8 :=
  field desc.accessed 1 0 ||| field desc.readable 1 1 ||| field desc.conforming 1 2 |||
    field desc.executable 1 3 ||| field desc.descriptorType 1 4 |||
    field desc.privilegeLevel 2 5 ||| field desc.present 1 7

/-- The byte with the top of the limit and what it counts. -/
def flags (desc : GdtDescriptor) : UInt8 :=
  field desc.limit19_16 4 0 ||| field desc.avl 1 4 ||| field desc.l 1 5 |||
    field desc.defaultOpSize 1 6 ||| field desc.granularity 1 7

/-- The bytes of a descriptor. -/
def bytes (desc : GdtDescriptor) : List UInt8 :=
  [desc.limit15_0.toUInt8, (desc.limit15_0 >>> 8).toUInt8, desc.base15_0.toUInt8,
    (desc.base15_0 >>> 8).toUInt8, desc.base23_16, desc.access, desc.flags, desc.base31_24]

/-- A descriptor after `memset`. -/
def zero : GdtDescriptor := ⟨0, 0, 0, 0, 0, 0, 0, 0, 0, 0, 0, 0, 0, 0, 0, 0⟩

/-- `gdt_descriptor_set_base`. -/
def setBase (base : UInt32) (desc : GdtDescriptor) : GdtDescriptor :=
  { desc with
    base15_0 := (base &&& 0x0000FFFF).toUInt16
    base23_16 := ((base >>> 16) &&& 0x00FF).toUInt8
    base31_24 := (base >>> 24).toUInt8 }

/-- `gdt_descriptor_set_limit`. -/
def setLimit (limit : UInt32) (desc : GdtDescriptor) : GdtDescriptor :=
  { desc with
    limit15_0 := (limit &&& 0x0000FFFF).toUInt16
    limit19_16 := ((limit >>> 16) &&& 0x000F).toUInt8 }

end GdtDescriptor

/-- What the four descriptors of the two tables have in common; they differ in whether they are
for code, in the size of their operands, and in what their limit counts. -/
def segmentDescriptor (executable defaultOpSize granularity : UInt8) : GdtDescriptor :=
  (({ GdtDescriptor.zero with
      accessed := 0
      readable := 1
      conforming := 0
      executable
      descriptorType := 1
      privilegeLevel := 0
      present := 1
      avl := 0
      l := 0
      defaultOpSize
      granularity } : GdtDescriptor).setBase 0x00000000).setLimit 0xFFFFF

/-- `GDT32_INDEX_CODE_SEG` and `GDT16_INDEX_CODE_SEG`. -/
def gdtIndexCodeSeg : Nat := 1

/-- `GDT32_INDEX_DATA_SEG` and `GDT16_INDEX_DATA_SEG`. -/
def gdtIndexDataSeg : Nat := 2

/-- A table of three descriptors: `memset`, and then the two that are filled. -/
def gdtTable (code data : GdtDescriptor) : List GdtDescriptor :=
  ((List.replicate 3 GdtDescriptor.zero).set gdtIndexCodeSeg code).set gdtIndexDataSeg data

/-- `GDT32`, as `i86_gdt32_init` fills it. -/
def gdt32 : List GdtDescriptor := gdtTable (segmentDescriptor 1 1 1) (segmentDescriptor 0 1 1)

/-- `GDT16`, as `i86_gdt16_init` fills it. -/
def gdt16Init : List GdtDescriptor := gdtTable (segmentDescriptor 1 0 0) (segmentDescriptor 0 0 0)

/-- The selector of an entry is its offset in the table. -/
def gdtSelector (index : Nat) : UInt16 := UInt16.ofNat (index * 8)

/-- The places the linker gives the tables, `cntxt_p_mode_16bit` and `cntxt_p_mode_32bit`. -/
structure GdtPlaces where
  gdt16 : UInt32
  gdt32 : UInt32
  cntxtPMode16bit : UInt32
  cntxtPMode32bit : UInt32

/-- The segment registers of a context, which follow its pointers to the two tables: CS, and
five for data. -/
def cntxtSegments : List UInt8 :=
  (gdtIndexCodeSeg :: List.replicate 5 gdtIndexDataSeg).flatMap fun index =>
    [(gdtSelector index).toUInt8, (gdtSelector index >>> 8).toUInt8]

/-- What is stored of a context: the pointer to the table, the segment registers, and the stack
pointer. The limit is the size of the table, not the offset of its last byte. -/
def cntxtStore (cntxt table : UInt32) (sp : List UInt8) (memory : Memory) : Memory :=
  ((memory.storeBytes cntxt.toNat ([24, 0] ++ doubleWord table)).storeBytes (cntxt.toNat + 12)
    cntxtSegments).storeBytes (cntxt.toNat + 28) sp

/-- `i86_gdt16_init`; of the stack pointer it stores the lower half. -/
def i86Gdt16Init (places : GdtPlaces) (memory : Memory) : Memory :=
  cntxtStore places.cntxtPMode16bit places.gdt16 [0xff, 0xff]
    (memory.storeBytes places.gdt16.toNat (gdt16Init.flatMap GdtDescriptor.bytes))

/-- `i86_gdt32_init`, with the `STACK_BASE_OFFSET` of the protected-mode build. -/
def i86Gdt32Init (places : GdtPlaces) (memory : Memory) : Memory :=
  cntxtStore places.cntxtPMode32bit places.gdt32 (doubleWord 0x9F000)
    (memory.storeBytes places.gdt32.toNat (gdt32.flatMap GdtDescriptor.bytes))

/-- What `i86_gdt_init` stores. -/
def i86GdtStore (places : GdtPlaces) (memory : Memory) : Memory :=
  i86Gdt32Init places (i86Gdt16Init places memory)

/-- The instructions at the end of `i86_gdt_init`, in code at `start`; `next` is
`_gdt_init_next`. -/
def gdtLoadBlock (places : GdtPlaces) (start next : UInt32) : CodeBlock where
  start := start
  assembled := .long
  intact := fun _ => true
  instructions :=
    [.lgdt .long ⟨.ds, none, places.cntxtPMode32bit, .long⟩,
      .moveImmediate .word .eax (gdtSelector gdtIndexDataSeg).toUInt32,
      .loadSegment .ds .eax,
      .loadSegment .es .eax,
      .loadSegment .fs .eax,
      .loadSegment .gs .eax,
      .loadSegment .ss .eax,
      .jumpFar .long (gdtSelector gdtIndexCodeSeg) next]

/-- `i86_gdt_init`: what it stores, and its instructions. The compiled code in front of them may
use other registers and the stack for itself, and a processor notes in a descriptor that its
segment has been loaded; neither is part of the model. -/
def i86GdtInit (firmware : Firmware) (places : GdtPlaces) (start next : UInt32) (cpu : Cpu) :
    Option Cpu :=
  (gdtLoadBlock places start next).run firmware
    ((cpu.setMemory (i86GdtStore places cpu.memory)).setIp start)

section Descriptor

variable {desc : GdtDescriptor} {base limit : UInt32} {memory : Memory} {address : Nat}
  {selector : UInt16}

/-- The segment that a descriptor stands for. -/
def GdtDescriptor.segment (desc : GdtDescriptor) (selector : UInt16) : Segment :=
  let raw := desc.limit15_0.toNat + 0x10000 * (desc.limit19_16.toNat % 16)
  { selector
    base := desc.base15_0.toNat + 0x10000 * desc.base23_16.toNat +
      0x1000000 * desc.base31_24.toNat
    limit := if desc.granularity.toNat % 2 = 0 then raw else raw * 0x1000 + 0xfff
    width := if desc.defaultOpSize.toNat % 2 = 0 then .word else .long }

/-- The byte of the flags as a number. -/
theorem GdtDescriptor.toNat_flags (desc : GdtDescriptor) :
    desc.flags.toNat = desc.limit19_16.toNat % 16 + 16 * (desc.avl.toNat % 2) +
      32 * (desc.l.toNat % 2) + 64 * (desc.defaultOpSize.toNat % 2) +
      128 * (desc.granularity.toNat % 2) := by
  have all : ∀ limit < 16, ∀ avl < 2, ∀ l < 2, ∀ size < 2, ∀ granularity < 2,
      (UInt8.ofNat (limit * 2 ^ 0) ||| UInt8.ofNat (avl * 2 ^ 4) ||| UInt8.ofNat (l * 2 ^ 5) |||
        UInt8.ofNat (size * 2 ^ 6) ||| UInt8.ofNat (granularity * 2 ^ 7)).toNat =
          limit + 16 * avl + 32 * l + 64 * size + 128 * granularity := by decide +kernel
  exact all _ (Nat.mod_lt _ (by decide)) _ (Nat.mod_lt _ (by decide)) _ (Nat.mod_lt _ (by decide))
    _ (Nat.mod_lt _ (by decide)) _ (Nat.mod_lt _ (by decide))

/-- The parts of a byte of flags that the processor looks at. -/
theorem flags_parts (byte : UInt8) :
    (byte &&& 0x0f).toNat = byte.toNat % 16 ∧ (byte &&& 0x80 = 0 ↔ byte.toNat / 128 = 0) ∧
      (byte &&& 0x40 = 0 ↔ byte.toNat / 64 % 2 = 0) := by
  have all : ∀ number < 256, (UInt8.ofNat number &&& 0x0f).toNat = number % 16 ∧
      (UInt8.ofNat number &&& 0x80 = 0 ↔ number / 128 = 0) ∧
      (UInt8.ofNat number &&& 0x40 = 0 ↔ number / 64 % 2 = 0) := by decide +kernel
  have here := all byte.toNat byte.toNat_lt
  rwa [UInt8.ofNat_toNat] at here

/-- The processor finds the fields of a descriptor in its bytes. -/
theorem decode_bytes (holds : memory.Holds address desc.bytes) :
    Segment.decode memory address selector = desc.segment selector := by
  have flags : memory (address + 6) = desc.flags := holds.byte (by decide : 6 < 8)
  have top : memory (address + 7) = desc.base31_24 := holds.byte (by decide : 7 < 8)
  have middle : memory (address + 4) = desc.base23_16 := holds.byte (by decide : 4 < 8)
  have limit : memory.loadLE address 2 = desc.limit15_0.toNat :=
    Memory.loadLE_word (holds.byte (by decide : 0 < 8)) (holds.byte (by decide : 1 < 8))
  have base : memory.loadLE (address + 2) 2 = desc.base15_0.toNat :=
    Memory.loadLE_word (holds.byte (by decide : 2 < 8)) (holds.byte (by decide : 3 < 8))
  have three : memory.loadLE (address + 2) 3 =
      memory.loadLE (address + 2) 2 + 0x10000 * (memory (address + 4)).toNat := by
    rw [Memory.loadLE_three, Memory.loadLE_two, Nat.add_assoc address 2 2]
    omega
  obtain ⟨part, unit, size⟩ := flags_parts desc.flags
  have whole := desc.toNat_flags
  have unit' : desc.flags.toNat / 128 = desc.granularity.toNat % 2 := by omega
  have size' : desc.flags.toNat / 64 % 2 = desc.defaultOpSize.toNat % 2 := by omega
  have part' : desc.flags.toNat % 16 = desc.limit19_16.toNat % 16 := by omega
  simp only [Segment.decode, GdtDescriptor.segment, flags, top, limit, three, base, middle, part,
    part', unit, unit', size, size']

/-- The base and the limit that are set are those the processor puts together. -/
theorem segment_setBase_setLimit :
    ((desc.setBase base).setLimit limit).segment selector =
      { selector
        base := base.toNat
        limit := if desc.granularity.toNat % 2 = 0 then limit.toNat % 2 ^ 20
          else limit.toNat % 2 ^ 20 * 0x1000 + 0xfff
        width := if desc.defaultOpSize.toNat % 2 = 0 then .word else .long } := by
  have bound := base.toNat_lt
  have low : (base &&& 0x0000FFFF).toUInt16.toNat = base.toNat % 65536 := by
    have mask : base.toNat &&& 0xFFFF = base.toNat % 65536 := Nat.and_two_pow_sub_one_eq_mod _ 16
    have number : (0x0000FFFF : UInt32).toNat = 0xFFFF := rfl
    rw [UInt32.toNat_toUInt16, UInt32.toNat_and, number, mask]
    omega
  have middle : ((base >>> 16) &&& 0x00FF).toUInt8.toNat = base.toNat / 65536 % 256 := by
    have mask : base.toNat / 65536 &&& 0xFF = base.toNat / 65536 % 256 :=
      Nat.and_two_pow_sub_one_eq_mod _ 8
    have number : (0x00FF : UInt32).toNat = 0xFF := rfl
    have sixteen : (16 : UInt32).toNat % 32 = 16 := rfl
    rw [UInt32.toNat_toUInt8, UInt32.toNat_and, UInt32.toNat_shiftRight, sixteen,
      Nat.shiftRight_eq_div_pow, number, mask]
    omega
  have high : (base >>> 24).toUInt8.toNat = base.toNat / 16777216 := by
    have twentyFour : (24 : UInt32).toNat % 32 = 24 := rfl
    rw [UInt32.toNat_toUInt8, UInt32.toNat_shiftRight, twentyFour, Nat.shiftRight_eq_div_pow]
    omega
  have lowLimit : (limit &&& 0x0000FFFF).toUInt16.toNat = limit.toNat % 65536 := by
    have mask : limit.toNat &&& 0xFFFF = limit.toNat % 65536 := Nat.and_two_pow_sub_one_eq_mod _ 16
    have number : (0x0000FFFF : UInt32).toNat = 0xFFFF := rfl
    rw [UInt32.toNat_toUInt16, UInt32.toNat_and, number, mask]
    omega
  have highLimit : ((limit >>> 16) &&& 0x000F).toUInt8.toNat = limit.toNat / 65536 % 16 := by
    have mask : limit.toNat / 65536 &&& 0xF = limit.toNat / 65536 % 16 :=
      Nat.and_two_pow_sub_one_eq_mod _ 4
    have number : (0x000F : UInt32).toNat = 0xF := rfl
    have sixteen : (16 : UInt32).toNat % 32 = 16 := rfl
    rw [UInt32.toNat_toUInt8, UInt32.toNat_and, UInt32.toNat_shiftRight, sixteen,
      Nat.shiftRight_eq_div_pow, number, mask]
    omega
  have raw : limit.toNat % 65536 + 0x10000 * (limit.toNat / 65536 % 16 % 16) =
      limit.toNat % 2 ^ 20 := by omega
  have whole : base.toNat % 65536 + 0x10000 * (base.toNat / 65536 % 256) +
      0x1000000 * (base.toNat / 16777216) = base.toNat := by omega
  simp only [GdtDescriptor.segment, GdtDescriptor.setBase, GdtDescriptor.setLimit, low, middle, high,
    lowLimit, highLimit, raw, whole]
  rfl

/-- A selector finds the segment of its descriptor. -/
theorem select_descriptor {table : TableRegister} {register : SegmentRegister} {place : Nat}
    (holds : memory.Holds (table.base.toNat + place) desc.bytes)
    (here : (selector &&& 0xfff8).toNat = place) (nonzero : place ≠ 0)
    (global : selector &&& 4 = 0) (inside : place + 7 ≤ table.limit.toNat)
    (allowed : Segment.loadable desc.access register = true) :
    Segment.select memory table register selector = some (desc.segment selector) := by
  have rights : memory (table.base.toNat + place + 5) = desc.access :=
    holds.byte (by decide : 5 < 8)
  simp only [Segment.select, here, rights]
  rw [if_pos ⟨nonzero, global, inside, allowed⟩, decode_bytes holds]

end Descriptor

section Load

variable {firmware : Firmware} {places : GdtPlaces} {start next : UInt32} {cpu : Cpu}

/-- Where the table and the context may be, and what `i86_gdt_init` finds: a protected mode whose
data segment reaches the pointer to the table. -/
structure GdtCall (places : GdtPlaces) (cpu : Cpu) : Prop where
  mode : cpu.protectedMode = true
  wide : cpu.codeWidth = .long
  reach : (cpu.segment .ds).linear places.cntxtPMode32bit 6 = some places.cntxtPMode32bit.toNat
  room : places.gdt32.toNat + 24 ≤ 2 ^ 32
  apart : Apart places.gdt32.toNat (places.gdt32.toNat + 24) places.cntxtPMode32bit.toNat
    (places.cntxtPMode32bit.toNat + 32)

/-- The register that is loaded. -/
def gdt32Table (places : GdtPlaces) : TableRegister where
  limit := 24
  base := places.gdt32

/-- A context keeps what lies apart from its 32 bytes. -/
theorem Holds.cntxtStore {cntxt table : UInt32} {sp bytes : List UInt8} {memory : Memory}
    {address : Nat} (few : sp.length ≤ 4) (holds : memory.Holds address bytes)
    (apart : Apart address (address + bytes.length) cntxt.toNat (cntxt.toNat + 32)) :
    (cntxtStore cntxt table sp memory).Holds address bytes := by
  have pointer : ([24, 0] ++ doubleWord table).length = 6 := rfl
  have segments : cntxtSegments.length = 12 := by decide
  simp only [Apart] at apart
  exact ((holds.storeBytes (by omega)).storeBytes (by omega)).storeBytes (by omega)

/-- The pointer of a context is not overwritten by its registers. -/
theorem holds_cntxtStore {cntxt table : UInt32} {sp : List UInt8} {memory : Memory} :
    (cntxtStore cntxt table sp memory).Holds cntxt.toNat ([24, 0] ++ doubleWord table) := by
  have pointer : ([24, 0] ++ doubleWord table).length = 6 := rfl
  exact (Memory.holds_storeBytes.storeBytes (by omega)).storeBytes (by omega)

/-- The 32-bit table is in memory. -/
theorem holds_gdt32 (call : GdtCall places cpu) (memory : Memory) :
    (i86GdtStore places memory).Holds places.gdt32.toNat (gdt32.flatMap GdtDescriptor.bytes) :=
  Holds.cntxtStore (by decide) Memory.holds_storeBytes call.apart

/-- The pointer is read back. -/
theorem tableRegister_gdt32 (call : GdtCall places cpu) {memory : Memory} :
    Instruction.tableRegister .long ⟨.ds, none, places.cntxtPMode32bit, .long⟩
      (cpu.setMemory (i86GdtStore places memory)) = some (gdt32Table places) := by
  have stored : (i86GdtStore places memory).Holds places.cntxtPMode32bit.toNat
      ([24, 0] ++ doubleWord places.gdt32) := holds_cntxtStore
  obtain ⟨limit, base⟩ := Memory.holds_append.mp stored
  have found : (cpu.setMemory (i86GdtStore places memory)).address
      ⟨.ds, none, places.cntxtPMode32bit, .long⟩ 6 = some places.cntxtPMode32bit.toNat := by
    change (cpu.segment .ds).linear (0 + places.cntxtPMode32bit) 6 = _
    rw [UInt32.zero_add, call.reach]
  have two : (i86GdtStore places memory).loadLE places.cntxtPMode32bit.toNat 2 = 24 :=
    @Memory.loadLE_word _ _ 24 (limit.byte (by decide : 0 < 2)) (limit.byte (by decide : 1 < 2))
  have four : (i86GdtStore places memory).loadLE (places.cntxtPMode32bit.toNat + 2) 4 =
    places.gdt32.toNat := base.doubleWord
  rw [Instruction.tableRegister_eq found]
  change some (TableRegister.mk (UInt16.ofNat ((i86GdtStore places memory).loadLE _ 2))
    (UInt32.ofNat ((i86GdtStore places memory).loadLE _ 4))) = _
  rw [two, four, UInt32.ofNat_toNat]
  rfl

/-- The descriptors of the table are those of the flat segments. -/
theorem select_gdt32 (call : GdtCall places cpu) (memory : Memory) (register : SegmentRegister) :
    Segment.select (i86GdtStore places memory) (gdt32Table places) register
      (if register = .cs then code32 else data32) = some (flatSegments register) := by
  obtain ⟨_, rest⟩ := Memory.holds_append.mp
    (show (i86GdtStore places memory).Holds places.gdt32.toNat
      (GdtDescriptor.zero.bytes ++ ((segmentDescriptor 1 1 1).bytes ++
        (segmentDescriptor 0 1 1).bytes)) from holds_gdt32 call memory)
  obtain ⟨code, data⟩ := Memory.holds_append.mp rest
  by_cases here : register = .cs
  · subst here
    have inside : 8 + 7 ≤ (gdt32Table places).limit.toNat := (by decide : 8 + 7 ≤ 24)
    exact (@select_descriptor _ _ code32 (gdt32Table places) _ 8 code rfl (by decide) rfl inside
      rfl).trans rfl
  · have other : ∀ register, register ≠ .cs →
        Segment.loadable (segmentDescriptor 0 1 1).access register = true := by
      intro register apart
      cases register <;> first | rfl | exact absurd rfl apart
    rw [if_neg here, flatSegments, if_neg here]
    have inside : 16 + 7 ≤ (gdt32Table places).limit.toNat := (by decide : 16 + 7 ≤ 24)
    exact (@select_descriptor _ _ data32 (gdt32Table places) _ 16 data rfl (by decide) rfl inside
      (other register here)).trans rfl

/-- What `i86_gdt_init` leaves: the registers that a C function may not use for itself, and
memory up to the access bytes of the two loaded descriptors. -/
structure GdtLoaded (places : GdtPlaces) (next : UInt32) (cpu after : Cpu) : Prop where
  ip : after.ip = next
  segment : after.segment = flatSegments
  cr0 : after.cr0 = cpu.cr0
  gdtr : after.gdtr = gdt32Table places
  idtr : after.idtr = cpu.idtr
  ports : after.ports = cpu.ports
  register : ∀ register, register ≠ .eax → register ≠ .ecx → register ≠ .edx →
    after.register register = cpu.register register
  memory : ∀ address, address ≠ places.gdt32.toNat + 8 * gdtIndexCodeSeg + 5 →
    address ≠ places.gdt32.toNat + 8 * gdtIndexDataSeg + 5 →
    after.memory address = i86GdtStore places cpu.memory address

/-- The instructions load the flat segments, and store nothing themselves. -/
theorem gdtLoadBlock_leads (call : GdtCall places cpu) :
    Leads firmware .long (gdtLoadBlock places start next).instructions
      ((cpu.setMemory (i86GdtStore places cpu.memory)).setIp start) fun after =>
        GdtLoaded places next cpu after ∧ after.memory = i86GdtStore places cpu.memory := by
  have found : ∀ register, register ≠ .cs →
      Segment.select (i86GdtStore places cpu.memory) (gdt32Table places) register
        (Width.word.merge (cpu.register .eax) 16).toUInt16 = some (flatSegments register) := by
    intro register data
    have flat := select_gdt32 call cpu.memory register
    rw [if_neg data] at flat
    rw [toUInt16_merge_word]
    exact flat
  have mode := call.mode
  refine Leads.cons call.wide (Instruction.execute_lgdt (tableRegister_gdt32 call)) ?_
  refine Leads.cons call.wide rfl ?_
  refine Leads.cons call.wide (Cpu.setSegment_protected mode (found .ds (by decide))) ?_
  refine Leads.cons call.wide (Cpu.setSegment_protected mode (found .es (by decide))) ?_
  refine Leads.cons call.wide (Cpu.setSegment_protected mode (found .fs (by decide))) ?_
  refine Leads.cons call.wide (Cpu.setSegment_protected mode (found .gs (by decide))) ?_
  refine Leads.cons call.wide (Cpu.setSegment_protected mode (found .ss (by decide))) ?_
  refine Leads.cons call.wide (Instruction.execute_jumpFar
    (Cpu.setSegment_protected mode (select_gdt32 call cpu.memory .cs))) (Leads.nil ⟨?_, rfl⟩)
  constructor
  case ip => rfl
  case segment =>
    funext register
    cases register with
    | cs => rfl
    | es => rfl
    | ss => rfl
    | ds => rfl
    | fs => rfl
    | gs => rfl
  case cr0 => rfl
  case gdtr => rfl
  case idtr => rfl
  case ports => rfl
  case register => exact fun register apart _ _ => Function.update_of_ne apart _ _
  case memory => exact fun _ _ _ => rfl

/-- `i86_gdt_init` leaves the flat segments, and a table that finds them again. Whatever base and
limit a descriptor is given, the processor finds this base, and the limit cut to twenty bits. -/
theorem i86GdtInit_flat (call : GdtCall places cpu) :
    (∃ after, i86GdtInit firmware places start next cpu = some after ∧
      GdtLoaded places next cpu after ∧
      ∀ register, Segment.select after.memory after.gdtr register
        (flatSegments register).selector = some (after.segment register)) ∧
    ∀ (desc : GdtDescriptor) (base limit : UInt32) (memory : Memory) (address : Nat)
      (selector : UInt16),
      memory.Holds address ((desc.setBase base).setLimit limit).bytes →
      Segment.decode memory address selector =
        { selector
          base := base.toNat
          limit := if desc.granularity.toNat % 2 = 0 then limit.toNat % 2 ^ 20
            else limit.toNat % 2 ^ 20 * 0x1000 + 0xfff
          width := if desc.defaultOpSize.toNat % 2 = 0 then .word else .long } := by
  obtain ⟨after, ran, loaded, memory⟩ := @gdtLoadBlock_leads firmware places start next cpu call
  refine ⟨⟨after, ?_, loaded, fun register => ?_⟩, ?_⟩
  · rw [i86GdtInit, CodeBlock.run, if_pos ⟨rfl, rfl⟩]
    exact ran
  · have flat := select_gdt32 call cpu.memory register
    rw [memory, loaded.gdtr, loaded.segment]
    exact flat
  · intro desc base limit memory address selector holds
    rw [decode_bytes holds, segment_setBase_setLimit]

end Load

/-- The places of a linked bootloader. -/
def exampleGdtPlaces : GdtPlaces where
  gdt16 := 0x24000
  gdt32 := 0x24018
  cntxtPMode16bit := 0x24100
  cntxtPMode32bit := 0x24120

/-- The processor as the boot sector leaves it, in segments that are all flat. -/
def exampleFlat : Cpu where
  register := fun register => if register = .esp then 0x9f000 else 0
  segment := flatSegments
  flags := 0x2
  cr0 := 0x11
  gdtr := ⟨0x18, 0x7e00⟩
  idtr := ⟨0x3ff, 0⟩
  ip := 0x10000
  memory := fun _ => 0
  ports := []

/-- A BIOS that does nothing. -/
def silentFirmware : Firmware := fun _ cpu => cpu

theorem i86GdtInit_flat_booted :
    (∃ after, i86GdtInit silentFirmware exampleGdtPlaces 0x11000 0x11020 exampleFlat = some after ∧
      GdtLoaded exampleGdtPlaces 0x11020 exampleFlat after ∧
      ∀ register, Segment.select after.memory after.gdtr register
        (flatSegments register).selector = some (after.segment register)) ∧
    ∀ (desc : GdtDescriptor) (base limit : UInt32) (memory : Memory) (address : Nat)
      (selector : UInt16),
      memory.Holds address ((desc.setBase base).setLimit limit).bytes →
      Segment.decode memory address selector =
        { selector
          base := base.toNat
          limit := if desc.granularity.toNat % 2 = 0 then limit.toNat % 2 ^ 20
            else limit.toNat % 2 ^ 20 * 0x1000 + 0xfff
          width := if desc.defaultOpSize.toNat % 2 = 0 then .word else .long } :=
  i86GdtInit_flat
    { mode := by decide
      wide := rfl
      reach := Segment.linear_flat (by decide)
      room := by decide
      apart := Or.inl (by decide) }

end Bootloader.Arch
