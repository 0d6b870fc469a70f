import Bootloader.Arch.Boot0

/-!
# Runs of the boot sector

Each block between two requests keeps `InBoot0`, and each request leads on or to `fatal_error`.
-/

namespace Bootloader.Arch

open Bootloader.Std CodeBlock

variable {firmware : Firmware} {image : Boot0Image} {drive : UInt8} {stack : UInt32}
  {cpu before after : Cpu} {memory other : Memory} {request : Boot0Request}

section Memory

/-- The boot sector survives what keeps its bytes. -/
theorem Boot0Image.Loaded.keep (loaded : image.Loaded memory)
    (same : ∀ address, bootSector ≤ address → address < bootSector + 512 →
      address ≠ image.bootDrv.toNat → address < image.gdtptr.toNat ∨ image.gdtptr.toNat + 6 ≤ address →
      other address = memory address) :
    image.Loaded other := by
  have rodata := image.rodata
  have bss := image.bss
  have data := image.data
  have fits := image.fits
  have pointer : image.gdtptr.toNat = image.gdt.toNat + 24 := @toNat_offset _ 24 (by
    have sector : bootSector = 31744 := rfl
    omega)
  have message : (pleaseReboot ++ [0]).length = 40 := rfl
  have table : boot0Gdt.length = 24 := rfl
  constructor
  case text => exact loaded.text.congr fun place within => same _ (by omega) (by omega) (by omega) (by omega)
  case message =>
    exact loaded.message.congr fun place within => same _ (by omega) (by omega) (by omega) (by omega)
  case gdt => exact loaded.gdt.congr fun place within => same _ (by omega) (by omega) (by omega) (by omega)

theorem Boot0Image.Loaded.inPlace (loaded : image.Loaded memory) : image.inPlace memory = true :=
  decide_eq_true loaded.text

end Memory

section Request

/-- An address in a real-mode segment. -/
theorem linear_realSegment {selector : UInt16} {offset : UInt32} {count : Nat}
    (inside : offset.toNat + count ≤ 0x10000) :
    (realSegment selector).linear offset count = some (16 * selector.toNat + offset.toNat) := by
  have bound := selector.toNat_lt
  exact Segment.linear_of_le inside (by
    have base : (realSegment selector).base = 16 * selector.toNat := rfl
    omega)

/-- The code is the code it was assembled as. -/
theorem InBoot0.narrow (here : InBoot0 image drive stack cpu) : cpu.codeWidth = .word := by
  rw [Cpu.codeWidth, here.code]
  rfl

/-- What a request answered leaves the boot sector in. -/
theorem InBoot0.answered (here : InBoot0 image drive stack before)
    (answered : Boot0Answered request before after) : InBoot0 image drive stack after := by
  have segment := answered.segment
  have stackSame : after.segment .ss = before.segment .ss := segment .ss (by decide)
  have fits := image.fits
  constructor
  case mode => rw [Cpu.protectedMode, answered.cr0]; exact here.mode
  case code => rw [segment .cs (by decide), here.code]
  case data => rw [segment .ds (by decide), here.data]
  case extra => rw [segment .es (by decide), here.extra]
  case stackSegment => rw [stackSame, here.stackSegment]
  case pointer => rw [Cpu.stackPointer, Cpu.stackWidth, stackSame, answered.esp]; exact here.pointer
  case dl => rw [answered.dl, here.dl]
  case up => rw [answered.direction, here.up]
  case loaded =>
    exact here.loaded.keep fun address above below _ _ => answered.memory address (.inl ⟨above, below⟩)

/-- What keeps the registers that the boot sector relies on, and memory, stays in it. -/
theorem InBoot0.congr (here : InBoot0 image drive stack before) (cr0 : after.cr0 = before.cr0)
    (segment : after.segment = before.segment) (esp : after.register .esp = before.register .esp)
    (dl : after.byte .dl = before.byte .dl)
    (up : after.flags &&& Flag.direction.mask = before.flags &&& Flag.direction.mask)
    (memory : after.memory = before.memory) : InBoot0 image drive stack after := by
  constructor
  case mode => rw [Cpu.protectedMode, cr0]; exact here.mode
  case code => rw [segment, here.code]
  case data => rw [segment, here.data]
  case extra => rw [segment, here.extra]
  case stackSegment => rw [segment, here.stackSegment]
  case pointer => rw [Cpu.stackPointer, Cpu.stackWidth, segment, esp]; exact here.pointer
  case dl => rw [dl, here.dl]
  case up => rw [up, here.up]
  case loaded => rw [memory]; exact here.loaded

/-- A jump stays in the boot sector. -/
theorem InBoot0.setIp {ip : UInt32} (here : InBoot0 image drive stack cpu) :
    InBoot0 image drive stack (cpu.setIp ip) :=
  here.congr rfl rfl rfl rfl rfl rfl

/-- What a request leads to: the BIOS has accepted it, or it has refused it. -/
structure Requested (firmware : Firmware) (image : Boot0Image) (drive : UInt8)
    (request : Boot0Request) (next : UInt32) (memory : Memory) (after : Cpu) : Prop
    extends InBoot0 image drive boot0StackBaseOffset after where
  outcome : (after.ip = next ∧ Asked firmware drive (¬ Refused ·) [request] memory after.memory) ∨
    (after.ip = image.fatalError ∧ Asked firmware drive Refused [request] memory after.memory)

theorem requestInstructions_lead {next : UInt32} (bios : Boot0Bios firmware image)
    (here : InBoot0 image drive boot0StackBaseOffset cpu) (made : request.Made drive cpu) :
    Leads firmware .word (image.requestInstructions request.number next) cpu
      (Requested firmware image drive request next cpu.memory) := by
  have narrow := here.narrow
  have answered := bios request drive _ cpu (.inl rfl) here made
  have answer := here.answered answered
  have narrow' := answer.narrow
  refine Leads.cons narrow (Instruction.execute_intImmediate here.mode) ?_
  by_cases refused : Refused (firmware request.number cpu)
  · refine Leads.cons narrow' (Instruction.execute_jumpIf_set refused) (Leads.nil ?_)
    exact ⟨answer.setIp, .inr ⟨rfl, .cons made answered refused .nil⟩⟩
  · refine Leads.cons narrow' (Instruction.execute_jumpIf_clear (Decidable.not_not.mp refused))
      (Leads.nil ?_)
    exact ⟨answer.setIp, .inl ⟨rfl, .cons made answered refused .nil⟩⟩

/-- What comes before a request leads to it. -/
theorem asked_leads {instructions : List Instruction} {next : UInt32}
    (bios : Boot0Bios firmware image)
    (leads : Leads firmware .word instructions cpu fun asked =>
      InBoot0 image drive boot0StackBaseOffset asked ∧ request.Made drive asked ∧
        asked.memory = memory) :
    Leads firmware .word (instructions ++ image.requestInstructions request.number next) cpu
      (Requested firmware image drive request next memory) := by
  refine leads.trans ?_
  rintro asked ⟨here, made, rfl⟩
  exact requestInstructions_lead bios here made

/-- `drive_read_boot`. -/
theorem readBlock_leads {start next : UInt32} {part : BootPart} (bios : Boot0Bios firmware image)
    (here : InBoot0 image drive boot0StackBaseOffset cpu) :
    Leads firmware .word (image.readBlock start next part).instructions cpu
      (Requested firmware image drive (.read part) next cpu.memory) := by
  have narrow := here.narrow
  refine @asked_leads _ _ _ _ _ (.read part) _ _ bios ?_
  refine Leads.cons narrow rfl (Leads.cons narrow rfl (Leads.cons narrow rfl
    (Leads.cons narrow rfl (Leads.cons narrow rfl (Leads.nil ⟨?_, ?_, rfl⟩)))))
  · exact here.congr rfl rfl rfl part_merge_other rfl rfl
  · refine ⟨@part_merge .ah _ _, part_merge_other.trans (@part_merge .al _ _),
      toUInt16_merge_word.trans (UInt16.toUInt16_toUInt32 _), @part_merge .dh _ _,
      part_merge_other.trans here.dl, ?_, toUInt16_merge_word.trans (UInt16.toUInt16_toUInt32 _)⟩
    change (cpu.segment .es).selector = _
    rw [here.extra]
    rfl

/-- `a20gate_enable`. -/
theorem a20gateEnableBlock_leads (bios : Boot0Bios firmware image)
    (here : InBoot0 image drive boot0StackBaseOffset cpu) :
    Leads firmware .word image.a20gateEnableBlock.instructions cpu
      (Requested firmware image drive .enableA20 image.disableInterrupts cpu.memory) := by
  have narrow := here.narrow
  refine @asked_leads _ _ _ _ _ .enableA20 _ _ bios ?_
  refine Leads.cons narrow rfl (Leads.cons narrow rfl (Leads.nil ⟨?_, ?_, rfl⟩))
  · exact here.congr rfl rfl rfl rfl rfl rfl
  · exact ⟨@part_merge .ah _ _, part_merge_other.trans (@part_merge .al _ _)⟩

end Request

section Start

/-- A segment register of a processor that has not been in protected mode. -/
theorem real_eq {segment : Segment} {selector : UInt16}
    (plain : segment.limit = 0xffff ∧ segment.width = .word) :
    segment.real selector = realSegment selector := by
  rw [Segment.real, plain.1, plain.2]
  rfl

theorem execute_loadSegment {target : SegmentRegister} {source : Register} {selector : UInt16}
    (mode : cpu.protectedMode = false)
    (plain : (cpu.segment target).limit = 0xffff ∧ (cpu.segment target).width = .word)
    (value : (cpu.register source).toUInt16 = selector) :
    (Instruction.loadSegment target source).execute firmware cpu =
      some (cpu.holdSegment target (realSegment selector)) := by
  change cpu.setSegment target (cpu.register source).toUInt16 = _
  rw [Cpu.setSegment_real mode, value, real_eq plain]

/-- An offset of sixteen bits in an instruction. -/
theorem take_displacement {displacement : UInt32} (small : displacement.toNat < 0x10000) :
    Width.word.take (0 + displacement) = displacement := by
  rw [UInt32.zero_add]
  exact Cpu.take_of_le_mask (Nat.le_of_lt_succ small)

/-- What `init_registers` leaves. -/
structure LineStarted (image : Boot0Image) (drive : UInt8) (memory : Memory) (cpu : Cpu) :
    Prop where
  ip : cpu.ip = image.nextLine
  mode : cpu.protectedMode = false
  code : cpu.segment .cs = realSegment 0
  segments : ∀ register, (cpu.segment register).limit = 0xffff ∧ (cpu.segment register).width = .word
  dl : cpu.byte .dl = drive
  up : cpu.flags &&& Flag.direction.mask = 0
  memory : cpu.memory = memory

/-- `_start` and `init_registers`. -/
theorem start_runs {entry : UInt32} (entered : Boot0Entered image entry drive cpu) :
    RunsTo firmware [image.startBlock entry, image.initRegistersBlock entry] cpu
      (LineStarted image drive cpu.memory) := by
  have narrow : cpu.codeWidth = .word := (entered.segments .cs).2
  have mode := entered.mode
  have segments := entered.segments
  refine RunsTo.cons entered.offset entered.loaded.inPlace
    (Leads.cons narrow rfl (Leads.nil (@rfl _ (cpu.setIp (image.initRegistersFrom entry))))) ?_
  rintro started rfl
  refine @RunsTo.cons _ (image.initRegistersBlock entry) _ _ _
    (LineStarted image drive cpu.memory) rfl entered.loaded.inPlace ?_ fun _ => RunsTo.nil
  refine Leads.cons narrow rfl ?_
  refine Leads.cons narrow (Instruction.execute_jumpFar (Cpu.setSegment_real mode)) (Leads.nil ?_)
  constructor
  case ip => rfl
  case mode => exact mode
  case code => exact real_eq (segments .cs)
  case segments =>
    intro register
    cases register with
    | cs => exact segments .cs
    | es => exact segments .es
    | ss => exact segments .ss
    | ds => exact segments .ds
    | fs => exact segments .fs
    | gs => exact segments .gs
  case dl => exact entered.dl
  case up => exact (withFlag_apart (by decide)).trans entered.up
  case memory => rfl

/-- `next_line` and `drive_reset`. -/
theorem nextLineBlock_leads (bios : Boot0Bios firmware image) (loaded : image.Loaded memory)
    (started : LineStarted image drive memory cpu) :
    Leads firmware .word image.nextLineBlock.instructions cpu
      (Requested firmware image drive .reset image.driveReadBoot
        (image.saveDrive drive memory)) := by
  have sector : bootSector = 31744 := rfl
  have fits := image.fits
  have data := image.data
  have mode := started.mode
  have segments := started.segments
  have narrow : cpu.codeWidth = .word := (segments .cs).2
  have place : ∀ held : Cpu, held.segment .ds = realSegment 0 →
      held.address ⟨.ds, none, image.bootDrv, .word⟩ 1 = some image.bootDrv.toNat := by
    intro held data
    change (held.segment .ds).linear (Width.word.take (0 + image.bootDrv)) 1 = _
    rw [data, take_displacement (by omega), linear_realSegment (by omega)]
    exact congrArg some (Nat.zero_add _)
  refine @asked_leads _ _ _ _ _ .reset _ _ bios ?_
  refine Leads.cons narrow rfl ?_
  refine Leads.cons narrow (execute_loadSegment mode (segments .ds) toUInt16_merge_word) ?_
  refine Leads.cons narrow rfl ?_
  refine Leads.cons narrow (execute_loadSegment mode (segments .es) toUInt16_merge_word) ?_
  refine Leads.cons narrow (Instruction.execute_storeByte (place _ rfl)) ?_
  refine Leads.cons narrow rfl ?_
  refine Leads.cons narrow (execute_loadSegment mode (segments .ss) toUInt16_merge_word) ?_
  refine Leads.cons narrow rfl (Leads.cons narrow rfl (Leads.cons narrow rfl (Leads.nil ⟨?_, ?_, ?_⟩)))
  · constructor
    case mode => exact mode
    case code => exact started.code
    case data => rfl
    case extra => rfl
    case stackSegment => rfl
    case pointer =>
      change Width.word.take (Width.word.merge (cpu.register .esp) boot0StackBaseOffset) = _
      rw [Width.take_merge]
      rfl
    case dl => exact started.dl
    case up => exact (withFlag_apart (by decide)).trans started.up
    case loaded =>
      refine loaded.keep fun address _ _ apart _ => ?_
      change cpu.memory.storeLE image.bootDrv.toNat 1 _ address = _
      rw [started.memory]
      exact Memory.storeLE_outside (by omega)
  · exact ⟨@part_merge .ah _ _, started.dl⟩
  · change cpu.memory.storeLE image.bootDrv.toNat 1 (cpu.byte .dl).toNat = _
    rw [started.memory, started.dl, Boot0Image.saveDrive]

end Start

section Switch

theorem toNat_gdtptr : image.gdtptr.toNat = image.gdt.toNat + 24 :=
  @toNat_offset _ 24 (by
    have fits := image.fits
    have sector : bootSector = 31744 := rfl
    omega)

/-- A word that is moved to a register that was empty. -/
theorem merge_xor_self {old value : UInt32} (small : value.toNat < 0x10000) :
    Width.word.merge (old ^^^ old) value = value := by
  rw [UInt32.xor_self, Width.merge, UInt32.zero_and, UInt32.zero_or]
  exact @Cpu.take_of_le_mask .word _ (Nat.le_of_lt_succ small)

/-- What `disable_interrupts` leaves, behind the last request. -/
structure Switching (image : Boot0Image) (drive : UInt8) (memory : Memory) (cpu : Cpu) : Prop where
  ip : cpu.ip = image.switched
  mode : cpu.protectedMode = true
  code : cpu.segment .cs = realSegment 0
  gdtr : cpu.gdtr = image.table
  interrupts : cpu.flags &&& Flag.interrupt.mask = 0
  dl : cpu.byte .dl = drive
  memory : cpu.memory = image.fillPointer memory
  loaded : image.Loaded cpu.memory

/-- The pointer is filled in and read back. -/
theorem tableRegister_gdtptr (data : cpu.segment .ds = realSegment 0)
    (filled : cpu.memory = image.fillPointer memory) :
    Instruction.tableRegister .long ⟨.ds, none, image.gdtptr, .word⟩ cpu = some image.table := by
  have fits := image.fits
  have sector : bootSector = 31744 := rfl
  have pointer := @toNat_gdtptr image
  have found : cpu.address ⟨.ds, none, image.gdtptr, .word⟩ 6 = some image.gdtptr.toNat := by
    change (cpu.segment .ds).linear (Width.word.take (0 + image.gdtptr)) 6 = _
    rw [data, take_displacement (by omega), linear_realSegment (by omega)]
    exact congrArg some (Nat.zero_add _)
  have limit : cpu.memory.loadLE image.gdtptr.toNat 2 = 24 := by
    rw [filled, Boot0Image.fillPointer, Memory.loadLE_storeLE_disjoint (by omega),
      Memory.loadLE_storeLE]
    rfl
  have base : cpu.memory.loadLE (image.gdtptr.toNat + 2) 4 = image.gdt.toNat := by
    rw [filled, Boot0Image.fillPointer, Memory.loadLE_storeLE]
    exact Nat.mod_eq_of_lt image.gdt.toNat_lt
  rw [Instruction.tableRegister_eq found, limit]
  change some (TableRegister.mk _ (UInt32.ofNat (cpu.memory.loadLE (image.gdtptr.toNat + 2) 4))) = _
  rw [base, UInt32.ofNat_toNat]
  rfl

/-- `disable_interrupts`, `gdt_init` and the first half of `switch_to_protected_mode`. -/
theorem disableInterruptsBlock_leads (here : InBoot0 image drive stack cpu) :
    Leads firmware .word image.disableInterruptsBlock.instructions cpu
      (Switching image drive cpu.memory) := by
  have fits := image.fits
  have sector : bootSector = 31744 := rfl
  have pointer := @toNat_gdtptr image
  have narrow := here.narrow
  have limitPlace : (cpu.setFlags (withFlag .interrupt false cpu.flags)).address
      ⟨.ds, none, image.gdtptr, .word⟩ 2 = some image.gdtptr.toNat := by
    change (cpu.segment .ds).linear (Width.word.take (0 + image.gdtptr)) 2 = _
    rw [here.data, take_displacement (by omega), linear_realSegment (by omega)]
    exact congrArg some (Nat.zero_add _)
  have ebx : Width.word.merge (Width.word.merge (cpu.register .ebx ^^^ cpu.register .ebx) image.gdt)
      image.gdtptr = image.gdtptr := by
    rw [Width.merge_merge]
    exact merge_xor_self (by omega)
  have basePlace : ∀ held : Cpu, held.segment .ds = realSegment 0 →
      held.register .ebx = image.gdtptr →
      held.address ⟨.ds, some .ebx, 2, .long⟩ 4 = some (image.gdtptr.toNat + 2) := by
    intro held data base
    change (held.segment .ds).linear (held.register .ebx + 2) 4 = _
    have number : (2 : UInt32).toNat = 2 := rfl
    have up : (image.gdtptr + 2).toNat = image.gdtptr.toNat + 2 :=
      toNat_add_of_lt (by rw [number]; omega)
    rw [data, base, linear_realSegment (by omega), up]
    exact congrArg some (Nat.zero_add _)
  have eax : Width.word.merge (cpu.register .eax ^^^ cpu.register .eax)
      (cpu.segment .ds).selector.toUInt32 <<< UInt32.ofNat 4 +
        Width.word.merge (cpu.register .ebx ^^^ cpu.register .ebx) image.gdt = image.gdt := by
    have selector : (cpu.segment .ds).selector.toUInt32 = 0 := by
      rw [here.data]
      rfl
    have zero : (0 : UInt32) <<< UInt32.ofNat 4 = 0 := rfl
    rw [selector, merge_xor_self (by decide), merge_xor_self (by omega), zero, UInt32.zero_add]
  refine Leads.cons narrow rfl ?_
  refine Leads.cons narrow (Instruction.execute_storeImmediate limitPlace) ?_
  refine Leads.cons narrow rfl (Leads.cons narrow rfl (Leads.cons narrow rfl (Leads.cons narrow rfl
    (Leads.cons narrow rfl (Leads.cons narrow rfl (Leads.cons narrow rfl ?_))))))
  refine Leads.cons narrow (Instruction.execute_store (basePlace _ here.data ebx)) ?_
  have filled : (cpu.memory.storeLE image.gdtptr.toNat 2 24).storeLE (image.gdtptr.toNat + 2) 4
      (Width.word.merge (cpu.register .eax ^^^ cpu.register .eax)
        (cpu.segment .ds).selector.toUInt32 <<< UInt32.ofNat 4 +
          Width.word.merge (cpu.register .ebx ^^^ cpu.register .ebx) image.gdt).toNat =
      image.fillPointer cpu.memory := by
    rw [eax, Boot0Image.fillPointer]
  refine Leads.cons narrow (Instruction.execute_lgdt (tableRegister_gdtptr here.data filled)) ?_
  refine Leads.cons narrow rfl (Leads.cons narrow rfl (Leads.cons narrow rfl
    (Leads.cons narrow rfl (Leads.nil ?_))))
  constructor
  case ip => rfl
  case mode =>
    have set : (cpu.cr0 ||| 1) &&& 1 = 1 := @withFlag_set .carry cpu.cr0
    change (Width.word.merge cpu.cr0 (Width.word.take (cpu.cr0 ||| 0x0001)) &&& 1 != 0) = true
    rw [merge_word_or, set]
    rfl
  case code => exact here.code
  case gdtr => rfl
  case interrupts =>
    refine (logicFlags_control rfl).trans ((addFlags_control rfl).trans ((shiftFlags_control rfl).trans
      ((logicFlags_control rfl).trans ((logicFlags_control rfl).trans withFlag_clear))))
  case dl => exact here.dl
  case memory => exact filled
  case loaded =>
    refine here.loaded.keep fun address _ _ _ away => ?_
    change (cpu.memory.storeLE image.gdtptr.toNat 2 24).storeLE (image.gdtptr.toNat + 2) 4 _ address = _
    rw [Memory.storeLE_outside (by omega), Memory.storeLE_outside (by omega)]

/-- A selector finds a descriptor without a base and with the full limit. -/
theorem select_flatEntry {table : TableRegister} {register : SegmentRegister} {selector : UInt16}
    {access : UInt8} {place : Nat}
    (holds : memory.Holds (table.base.toNat + place)
      [0xff, 0xff, 0x00, 0x00, 0x00, access, 0xdf, 0x00])
    (here : (selector &&& 0xfff8).toNat = place) (nonzero : place ≠ 0)
    (global : selector &&& 4 = 0) (inside : place + 7 ≤ table.limit.toNat)
    (allowed : Segment.loadable access register = true) :
    Segment.select memory table register selector = some (Segment.flat selector) := by
  have rights : memory (table.base.toNat + place + 5) = access := holds.byte (by decide : 5 < 8)
  simp only [Segment.select, here, rights]
  rw [if_pos ⟨nonzero, global, inside, allowed⟩, decode_full holds]
  rfl

/-- The table of the boot sector has the flat segments. -/
theorem select_boot0Gdt (holds : memory.Holds image.gdt.toNat boot0Gdt)
    (register : SegmentRegister) :
    Segment.select memory image.table register (flatSegments register).selector =
      some (flatSegments register) := by
  obtain ⟨front, data⟩ := Memory.holds_append.mp holds
  obtain ⟨_, code⟩ := Memory.holds_append.mp front
  have limit : image.table.limit.toNat = 24 := rfl
  by_cases here : register = .cs
  · subst here
    exact @select_flatEntry _ image.table _ code32 0x9b 8 code rfl (by decide) rfl (by omega) rfl
  · rw [flatSegments, if_neg here]
    exact @select_flatEntry _ image.table _ data32 0x93 16 data rfl (by decide) rfl (by omega)
      (by cases register <;> first | rfl | exact absurd rfl here)

/-- The second half of `switch_to_protected_mode`. -/
theorem switchedBlock_leads (switching : Switching image drive memory cpu) :
    Leads firmware .word image.switchedBlock.instructions cpu
      (Boot1Entered image drive memory) := by
  have narrow : cpu.codeWidth = .word := by
    rw [Cpu.codeWidth, switching.code]
    rfl
  have mode := switching.mode
  have table : ∀ register, Segment.select cpu.memory cpu.gdtr register
      (flatSegments register).selector = some (flatSegments register) := by
    rw [switching.gdtr]
    exact select_boot0Gdt switching.loaded.gdt
  have found : ∀ register, register ≠ .cs →
      Segment.select cpu.memory cpu.gdtr register
        (Width.word.merge (cpu.register .eax) 16).toUInt16 = some (flatSegments register) := by
    intro register data
    have flat := table register
    rw [toUInt16_merge_word]
    rw [flatSegments, if_neg data] at flat ⊢
    exact flat
  refine Leads.cons narrow rfl ?_
  refine Leads.cons narrow (Cpu.setSegment_protected mode (found .ds (by decide))) ?_
  refine Leads.cons narrow (Cpu.setSegment_protected mode (found .es (by decide))) ?_
  refine Leads.cons narrow (Cpu.setSegment_protected mode (found .fs (by decide))) ?_
  refine Leads.cons narrow (Cpu.setSegment_protected mode (found .gs (by decide))) ?_
  refine Leads.cons narrow (Cpu.setSegment_protected mode (found .ss (by decide))) ?_
  refine Leads.cons narrow rfl ?_
  refine Leads.cons narrow (Instruction.execute_jumpFar
    (Cpu.setSegment_protected mode (table .cs))) (Leads.nil ?_)
  constructor
  case ip => rfl
  case mode => exact mode
  case segment =>
    funext register
    cases register with
    | cs => rfl
    | es => rfl
    | ss => rfl
    | ds => rfl
    | fs => rfl
    | gs => rfl
  case gdtr => exact switching.gdtr
  case table =>
    intro register
    refine (table register).trans ?_
    cases register with
    | cs => rfl
    | es => rfl
    | ss => rfl
    | ds => rfl
    | fs => rfl
    | gs => rfl
  case esp => rfl
  case interrupts => exact switching.interrupts
  case dl => exact switching.dl
  case memory => exact switching.memory

end Switch

section Prints

theorem InBoot0.stackTop (here : InBoot0 image drive stack cpu) : cpu.stackTop = stack.toNat := by
  rw [Cpu.stackTop, here.stackSegment, here.pointer]
  exact Nat.zero_add _

theorem InBoot0.room {count : Nat} (here : InBoot0 image drive stack cpu)
    (low : count ≤ stack.toNat) (high : stack.toNat ≤ 0x10000) : cpu.Room count := by
  constructor
  · rw [here.pointer]
    exact low
  · rw [here.pointer, here.stackSegment]
    exact high
  · rw [here.pointer, here.stackSegment]
    exact (by omega : 0 + stack.toNat ≤ 2 ^ 32)

theorem InBoot0.filled {count : Nat} (here : InBoot0 image drive stack cpu)
    (high : stack.toNat + count ≤ 0xffff) : cpu.Filled count := by
  constructor
  · rw [here.pointer, Cpu.stackWidth, here.stackSegment]
    exact high
  · rw [here.pointer, here.stackSegment]
    exact (by omega : stack.toNat + count ≤ 0xffff + 1)
  · rw [here.pointer, here.stackSegment]
    exact (by omega : 0 + stack.toNat + count ≤ 2 ^ 32)

/-- The stack is above the boot sector. -/
theorem InBoot0.pushed {width : Width} {values : List UInt32} (here : InBoot0 image drive stack cpu)
    (low : 0x7e00 + width.bytes * values.length ≤ stack.toNat) :
    InBoot0 image drive (stack - UInt32.ofNat (width.bytes * values.length))
      (cpu.pushed width values) := by
  have sector : bootSector = 31744 := rfl
  constructor
  case mode => exact here.mode
  case code => exact here.code
  case data => exact here.data
  case extra => exact here.extra
  case stackSegment => exact here.stackSegment
  case pointer =>
    rw [Cpu.stackPointer_pushed (by rw [here.pointer]; omega), here.pointer]
  case dl => exact here.dl
  case up => exact here.up
  case loaded =>
    refine here.loaded.keep fun address _ _ _ _ => ?_
    change cpu.memory.pushWords cpu.stackTop width.bytes values address = _
    rw [here.stackTop]
    exact Memory.pushWords_outside (by omega) (by omega)

/-- `prints` with some of its text behind it: SI is where the rest is, and the return address is
on the stack. -/
structure Printing (image : Boot0Image) (drive : UInt8) (done : Nat) (cpu : Cpu) : Prop
    extends InBoot0 image drive (boot0StackBaseOffset - 8) cpu where
  si : (Width.word.take (cpu.register .esi)).toNat = image.msgPleaseReboot.toNat + done
  back : cpu.memory.loadLE (boot0StackBaseOffset.toNat - 4) 4 = image.stop.toNat

/-- `prints` behind the look at a character, which is in AL. -/
structure Looked (image : Boot0Image) (drive : UInt8) (rest : List UInt8) (done : Nat) (cpu : Cpu) :
    Prop extends Printing image drive (done + 1) cpu where
  outcome : match rest with
    | [] => cpu.ip = image.printed
    | character :: _ => cpu.ip = image.character ∧ cpu.byte .al = character

/-- What `lodsb` finds where the text goes on. -/
theorem Printing.byte {printed rest : List UInt8} (split : pleaseReboot = printed ++ rest)
    (printing : Printing image drive printed.length cpu) :
    cpu.memory (image.msgPleaseReboot.toNat + printed.length) = rest.headD 0 := by
  have within : printed.length < (pleaseReboot ++ [0]).length := by
    rw [split, List.append_assoc, List.length_append, List.length_append]
    exact Nat.lt_add_of_pos_right (Nat.lt_of_lt_of_le Nat.zero_lt_one (Nat.le_add_left _ _))
  rw [printing.loaded.message.byte within]
  simp only [split, List.append_assoc]
  rw [List.getElem_append_right (Nat.le_refl _)]
  cases rest <;> simp

theorem pleaseReboot_ne_zero {printed rest : List UInt8} {character : UInt8}
    (split : pleaseReboot = printed ++ character :: rest) : character ≠ 0 := by
  have all : pleaseReboot.all (fun character => character != 0) = true := rfl
  have member : character ∈ pleaseReboot := split ▸ List.mem_append_right _ List.mem_cons_self
  exact bne_iff_ne.mp (List.all_eq_true.mp all character member)

theorem nextCharacterBlock_leads {printed rest : List UInt8} (split : pleaseReboot = printed ++ rest)
    (printing : Printing image drive printed.length cpu) :
    Leads firmware .word image.nextCharacterBlock.instructions cpu fun after =>
      Looked image drive rest printed.length after ∧ after.memory = cpu.memory := by
  have sector : bootSector = 31744 := rfl
  have rodata := image.rodata
  have bss := image.bss
  have data := image.data
  have fits := image.fits
  have length : pleaseReboot.length = 39 := rfl
  have short : printed.length ≤ 39 := by
    rw [← length, split, List.length_append]
    exact Nat.le_add_right _ _
  have si := printing.si
  have narrow := printing.narrow
  have from' : (cpu.segment .ds).linear (cpu.codeWidth.take (cpu.register .esi)) 1 =
      some (image.msgPleaseReboot.toNat + printed.length) := by
    rw [printing.data, narrow, linear_realSegment (by omega), si]
    exact congrArg some (Nat.zero_add _)
  have ran : Instruction.loadByte cpu = some ((cpu.setByte .al (rest.headD 0)).set .word .esi
      (Width.word.take (cpu.register .esi) + 1)) := by
    rw [Instruction.loadByte_eq printing.up from', printing.byte split, narrow]
  have al : ((cpu.setByte .al (rest.headD 0)).set .word .esi
      (Width.word.take (cpu.register .esi) + 1)).byte .al = rest.headD 0 := @part_merge .al _ _
  obtain ⟨flags, compared⟩ : ∃ flags, compareFlags (rest.headD 0) 0 cpu.flags = flags := ⟨_, rfl⟩
  have zero := @compareFlags_zero cpu.flags (rest.headD 0)
  have up : flags &&& Flag.direction.mask = cpu.flags &&& Flag.direction.mask := by
    rw [← compared, compareFlags_control rfl]
  rw [compared] at zero
  have one : (1 : UInt32).toNat = 1 := rfl
  have next : (Width.word.take (Width.word.merge (cpu.register .esi)
      (Width.word.take (cpu.register .esi) + 1))).toNat =
        image.msgPleaseReboot.toNat + (printed.length + 1) := by
    rw [Width.take_merge, Width.toNat_take_word, toNat_add_of_lt (by rw [one]; omega), si, one]
    omega
  refine Leads.cons narrow ran ?_
  refine @Leads.cons _ _ _ _ _ (((cpu.setByte .al (rest.headD 0)).set .word .esi
    (Width.word.take (cpu.register .esi) + 1)).setFlags flags) _ narrow ?_ ?_
  · rw [← compared]
    change some (Cpu.setFlags (compareFlags _ 0 _) _) = _
    rw [al]
    rfl
  · obtain ⟨looking, named⟩ : ∃ looking, ((cpu.setByte .al (rest.headD 0)).set .word .esi
      (Width.word.take (cpu.register .esi) + 1)).setFlags flags = looking := ⟨_, rfl⟩
    have kept : Printing image drive (printed.length + 1) looking := by
      subst named
      exact ⟨printing.toInBoot0.congr rfl rfl rfl rfl up rfl, next, printing.back⟩
    have byte : looking.byte .al = rest.headD 0 := by rw [← named]; exact al
    have memory : looking.memory = cpu.memory := by rw [← named]; rfl
    have compared' : looking.flags = flags := by rw [← named]; rfl
    have narrow' := kept.narrow
    rw [named]
    cases rest with
    | nil =>
        refine Leads.cons narrow' (Instruction.execute_jumpIf_set ?_) (Leads.nil ?_)
        · rw [compared', zero]
          decide
        · exact ⟨⟨⟨kept.setIp, kept.si, kept.back⟩, rfl⟩, memory⟩
    | cons character rest =>
        refine Leads.cons narrow' (Instruction.execute_jumpIf_clear ?_) (Leads.nil ?_)
        · rw [compared', zero]
          exact if_neg (pleaseReboot_ne_zero split)
        · exact ⟨⟨⟨kept.setIp, kept.si, kept.back⟩, ⟨rfl, byte⟩⟩, memory⟩

/-- A character is printed. -/
theorem characterBlock_leads {rest : List UInt8} {character : UInt8} {done : Nat}
    (bios : Boot0Bios firmware image) (looked : Looked image drive (character :: rest) done cpu) :
    Leads firmware .word image.characterBlock.instructions cpu fun after =>
      after.ip = image.nextCharacter ∧ Printing image drive (done + 1) after ∧
        Asked firmware drive (fun _ => True) [.print character] cpu.memory after.memory := by
  have narrow := looked.narrow
  have al : cpu.byte .al = character := looked.outcome.2
  refine Leads.cons narrow rfl (Leads.cons narrow rfl (Leads.cons narrow rfl ?_))
  obtain ⟨asking, named⟩ : ∃ asking, ((cpu.setByte .bl 0xff).setByte .bh 0x00).setByte .ah 0x0e =
    asking := ⟨_, rfl⟩
  have here : InBoot0 image drive (boot0StackBaseOffset - 8) asking := by
    subst named
    exact looked.toInBoot0.congr rfl rfl rfl rfl rfl rfl
  have made : (Boot0Request.print character).Made drive asking := by
    subst named
    exact ⟨@part_merge .ah _ _, part_merge_other.trans al, @part_merge .bh _ _,
      part_merge_other.trans (@part_merge .bl _ _)⟩
  have memory : asking.memory = cpu.memory := by rw [← named]; rfl
  have esi : asking.register .esi = cpu.register .esi := by rw [← named]; rfl
  have narrow' := here.narrow
  have answered := bios (.print character) drive _ asking (.inr rfl) here made
  rw [named]
  obtain ⟨after, answer⟩ : ∃ after, firmware 0x10 asking = after := ⟨_, rfl⟩
  have answered : Boot0Answered (.print character) asking after := answer ▸ answered
  have still := here.answered answered
  have narrow'' := still.narrow
  have back : after.memory.loadLE (boot0StackBaseOffset.toNat - 4) 4 = image.stop.toNat := by
    rw [← looked.back, ← memory]
    apply Memory.loadLE_congr
    intro place within
    apply answered.memory
    rw [here.pointer]
    have stack : boot0StackBaseOffset.toNat = 32768 := rfl
    have below : (boot0StackBaseOffset - 8).toNat = 32760 := rfl
    omega
  have asked : Asked firmware drive (fun _ => True) [.print character] cpu.memory after.memory := by
    rw [← memory, ← answer]
    exact .cons made (answer ▸ answered) trivial .nil
  refine Leads.cons narrow' (Instruction.execute_intImmediate here.mode) ?_
  rw [answer]
  refine Leads.cons narrow'' rfl (Leads.nil ⟨rfl, ⟨still.setIp, ?_, back⟩, asked⟩)
  change (Width.word.take (after.register .esi)).toNat = _
  rw [answered.esi, esi, looked.si]

theorem Asked.append {kind : Cpu → Prop} {first second : List Boot0Request}
    {start middle last : Memory} (asked : Asked firmware drive kind first start middle)
    (more : Asked firmware drive kind second middle last) :
    Asked firmware drive kind (first ++ second) start last := by
  induction asked with
  | nil => exact more
  | cons made kept answer _ inductionHypothesis =>
      exact .cons made kept answer (inductionHypothesis more)

variable {Post : Cpu → Prop}

/-- One block of the program, and what comes behind it. -/
theorem block_leaves {block : CodeBlock} {Middle : Cpu → Prop} (index : Nat)
    (at' : image.program[index]? = some block) (intact : block.intact = image.inPlace)
    (led : cpu.ip = block.start) (loaded : image.Loaded cpu.memory)
    (leads : Leads firmware block.assembled block.instructions cpu Middle)
    (more : ∀ middle, Middle middle → Leaves firmware image.program middle Post) :
    Leaves firmware image.program cpu Post :=
  Leaves.cons (List.nodup_cons.mp image.labels).2 (List.mem_of_getElem? at') led
    (intact ▸ loaded.inPlace) leads more

/-- The loop of `prints`, from behind a look: the induction is over the rest of the text. -/
theorem looked_leaves {printed rest : List UInt8} (bios : Boot0Bios firmware image)
    (split : pleaseReboot = printed ++ rest)
    (looked : Looked image drive rest printed.length cpu)
    (more : ∀ after, after.ip = image.printed → InBoot0 image drive (boot0StackBaseOffset - 8) after →
      after.memory.loadLE (boot0StackBaseOffset.toNat - 4) 4 = image.stop.toNat →
      Asked firmware drive (fun _ => True) (rest.map .print) cpu.memory after.memory →
      Leaves firmware image.program after Post) :
    Leaves firmware image.program cpu Post := by
  induction rest generalizing printed cpu with
  | nil => exact more cpu looked.outcome looked.toInBoot0 looked.back .nil
  | cons character rest inductionHypothesis =>
      have split' : pleaseReboot = (printed ++ [character]) ++ rest := by
        rw [split, List.append_assoc]
        rfl
      have length : (printed ++ [character]).length = printed.length + 1 := by
        rw [List.length_append]
        rfl
      refine block_leaves 9 rfl rfl looked.outcome.1 looked.loaded (characterBlock_leads bios looked) ?_
      rintro next ⟨led, printing, asked⟩
      rw [← length] at printing
      refine block_leaves 8 rfl rfl led printing.loaded (nextCharacterBlock_leads split' printing) ?_
      rintro now ⟨looked, memory⟩
      refine inductionHypothesis split' looked fun after led here back printed => ?_
      rw [memory] at printed
      exact more after led here back (asked.append printed)

end Prints

section Fatal

variable {Post : Cpu → Prop}

/-- The call of `prints`. -/
structure PrintsCalled (image : Boot0Image) (drive : UInt8) (memory : Memory) (cpu : Cpu) : Prop
    extends InBoot0 image drive (boot0StackBaseOffset - 4) cpu where
  ip : cpu.ip = image.prints
  si : (Width.word.take (cpu.register .esi)).toNat = image.msgPleaseReboot.toNat
  memory : cpu.memory = memory.pushWords boot0StackBaseOffset.toNat 4 [image.stop]

theorem fatalErrorBlock_leads (here : InBoot0 image drive boot0StackBaseOffset cpu) :
    Leads firmware .word image.fatalErrorBlock.instructions cpu
      (PrintsCalled image drive cpu.memory) := by
  have sector : bootSector = 31744 := rfl
  have bss := image.bss
  have data := image.data
  have fits := image.fits
  have narrow := here.narrow
  obtain ⟨moved, named⟩ : ∃ moved, cpu.set .word .esi image.msgPleaseReboot = moved := ⟨_, rfl⟩
  have here' : InBoot0 image drive boot0StackBaseOffset moved := by
    subst named
    exact here.congr rfl rfl rfl rfl rfl rfl
  have si : Width.word.take (moved.register .esi) = image.msgPleaseReboot := by
    rw [← named]
    change Width.word.take (Width.word.merge (cpu.register .esi) image.msgPleaseReboot) = _
    rw [Width.take_merge]
    exact @Cpu.take_of_le_mask .word _
      (by omega : image.msgPleaseReboot.toNat ≤ 0xffff)
  have memory : moved.memory = cpu.memory := by rw [← named]; rfl
  have narrow' := here'.narrow
  have room : moved.Room Width.long.bytes := here'.room (by decide) (by decide)
  have called := @InBoot0.pushed _ _ _ _ .long [image.stop] here'
    (by decide : 0x7e00 + 4 * 1 ≤ boot0StackBaseOffset.toNat)
  refine Leads.cons narrow rfl ?_
  rw [named]
  refine Leads.cons narrow' (Instruction.execute_call room) (Leads.nil ?_)
  constructor
  case toInBoot0 => exact called.setIp
  case ip => rfl
  case si => exact congrArg UInt32.toNat si
  case memory =>
    change moved.memory.pushWords moved.stackTop 4 [image.stop] = _
    rw [memory, here'.stackTop]

theorem printsBlock_leads (called : PrintsCalled image drive memory cpu) :
    Leads firmware .word image.printsBlock.instructions cpu fun after =>
      Looked image drive pleaseReboot 0 after ∧ ∃ ax bx, after.memory = image.printing ax bx memory := by
  have here := called.toInBoot0
  have narrow := here.narrow
  obtain ⟨first, named⟩ : ∃ first, cpu.pushed .word [cpu.register .eax] = first := ⟨_, rfl⟩
  have one : InBoot0 image drive (boot0StackBaseOffset - 6) first := by
    have lowered : boot0StackBaseOffset - 4 - UInt32.ofNat (2 * 1) = boot0StackBaseOffset - 6 := rfl
    rw [← named, ← lowered]
    exact @InBoot0.pushed _ _ _ _ .word [_] here
      (by decide : 0x7e00 + 2 * 1 ≤ (boot0StackBaseOffset - 4).toNat)
  obtain ⟨second, named'⟩ : ∃ second, first.pushed .word [first.register .ebx] = second := ⟨_, rfl⟩
  have two : InBoot0 image drive (boot0StackBaseOffset - 8) second := by
    have lowered : boot0StackBaseOffset - 6 - UInt32.ofNat (2 * 1) = boot0StackBaseOffset - 8 := rfl
    rw [← named', ← lowered]
    exact @InBoot0.pushed _ _ _ _ .word [_] one
      (by decide : 0x7e00 + 2 * 1 ≤ (boot0StackBaseOffset - 6).toNat)
  have esi : second.register .esi = cpu.register .esi := by
    rw [← named', ← named]
    rfl
  have written : second.memory = image.printing (cpu.register .eax) (first.register .ebx) memory := by
    rw [← named']
    change first.memory.pushWords first.stackTop 2 _ = _
    rw [one.stackTop, ← named]
    change (cpu.memory.pushWords cpu.stackTop 2 _).pushWords _ 2 _ = _
    rw [here.stackTop, called.memory]
    rfl
  have back : second.memory.loadLE (boot0StackBaseOffset.toNat - 4) 4 = image.stop.toNat := by
    have pushed : memory.pushWords boot0StackBaseOffset.toNat 4 [image.stop] =
        memory.storeLE (boot0StackBaseOffset.toNat - 4) 4 image.stop.toNat := rfl
    have stored : (memory.storeLE (boot0StackBaseOffset.toNat - 4) 4 image.stop.toNat).loadLE
        (boot0StackBaseOffset.toNat - 4) 4 = image.stop.toNat :=
      (Memory.loadLE_storeLE _ _ _ _).trans (Nat.mod_eq_of_lt image.stop.toNat_lt)
    rw [written, Boot0Image.printing, pushed]
    refine Eq.trans (Memory.loadLE_congr fun place within => ?_) stored
    exact Memory.pushWords_outside (by decide : 2 * 2 ≤ boot0StackBaseOffset.toNat - 4)
      (.inr (Nat.le_add_right _ _))
  have printing : Printing image drive ([] : List UInt8).length second :=
    ⟨two, by rw [esi, called.si]; rfl, back⟩
  have narrow' := one.narrow
  refine Leads.cons narrow (Cpu.push_eq (here.room (by decide) (by decide))) ?_
  rw [named]
  refine Leads.cons narrow' (Cpu.push_eq (one.room (by decide) (by decide))) ?_
  rw [named']
  obtain ⟨after, ran, looked, same⟩ := @nextCharacterBlock_leads firmware _ _ _ [] _ rfl printing
  exact ⟨after, ran, looked, _, _, same.trans written⟩

/-- The stack gets lower again. -/
theorem InBoot0.raised {count : Nat} (here : InBoot0 image drive stack cpu)
    (high : stack.toNat + count ≤ 0xffff) :
    InBoot0 image drive (stack + UInt32.ofNat count)
      (cpu.setStackPointer (cpu.stackPointer + UInt32.ofNat count)) := by
  constructor
  case mode => exact here.mode
  case code => exact here.code
  case data => exact here.data
  case extra => exact here.extra
  case stackSegment => exact here.stackSegment
  case pointer =>
    rw [Cpu.stackPointer_setStackPointer, here.pointer, Cpu.stackWidth, here.stackSegment]
    apply @Cpu.take_of_le_mask .word
    rw [toNat_offset (by omega)]
    exact high
  case dl => exact here.dl
  case up => exact here.up
  case loaded => exact here.loaded

/-- AX or BX is taken from the stack again. -/
theorem InBoot0.pop {target : Register} (here : InBoot0 image drive stack cpu)
    (high : stack.toNat + 2 ≤ 0xffff) (data : target = .eax ∨ target = .ebx) :
    ∃ after, (Instruction.pop .word target).execute firmware cpu = some after ∧
      InBoot0 image drive (stack + 2) after ∧ after.memory = cpu.memory := by
  refine ⟨_, Instruction.execute_pop (here.filled high), ?_, rfl⟩
  have raised := here.raised high
  rcases data with rfl | rfl
  · exact raised.congr rfl rfl rfl rfl rfl rfl
  · exact raised.congr rfl rfl rfl rfl rfl rfl

/-- The return from `prints`. -/
theorem printedBlock_leads (here : InBoot0 image drive (boot0StackBaseOffset - 8) cpu)
    (back : cpu.memory.loadLE (boot0StackBaseOffset.toNat - 4) 4 = image.stop.toNat) :
    Leads firmware .word image.printedBlock.instructions cpu fun after =>
      after.ip = image.stop ∧ InBoot0 image drive boot0StackBaseOffset after ∧
        after.memory = cpu.memory := by
  obtain ⟨first, ran, one, memory⟩ := @InBoot0.pop firmware _ _ _ _ .ebx here (by decide) (.inr rfl)
  obtain ⟨second, ran', two, memory'⟩ := @InBoot0.pop firmware _ _ _ _ .eax one (by decide) (.inl rfl)
  have three := two.raised (by decide : (boot0StackBaseOffset - 8 + 2 + 2).toNat + 4 ≤ 0xffff)
  refine Leads.cons here.narrow ran (Leads.cons one.narrow ran' ?_)
  refine Leads.cons two.narrow (Instruction.execute_ret (two.filled (by decide))) (Leads.nil ?_)
  refine ⟨?_, three.setIp, memory'.trans memory⟩
  change UInt32.ofNat (second.memory.loadLE second.stackTop 4) = _
  rw [two.stackTop, memory', memory, ← UInt32.toNat_inj, UInt32.toNat_ofNat']
  exact (congrArg (· % 2 ^ 32) back).trans (Nat.mod_eq_of_lt image.stop.toNat_lt)

/-- The end of `fatal_error`. -/
theorem stopBlock_leads (here : InBoot0 image drive stack cpu) :
    Leads firmware .word image.stopBlock.instructions cpu fun after =>
      Boot0Halted image after ∧ after.memory = cpu.memory := by
  refine Leads.cons here.narrow rfl ?_
  refine Leads.cons here.narrow (Instruction.execute_hlt withFlag_clear) (Leads.nil ⟨?_, rfl⟩)
  exact ⟨rfl, here.mode, withFlag_clear⟩

/-- `fatal_error` prints its message and halts. -/
theorem fatal_leaves (bios : Boot0Bios firmware image)
    (here : InBoot0 image drive boot0StackBaseOffset cpu) (led : cpu.ip = image.fatalError)
    (post : ∀ after ax bx, Asked firmware drive (fun _ => True) (pleaseReboot.map .print)
      (image.printing ax bx cpu.memory) after.memory → Boot0Halted image after → Post after) :
    Leaves firmware image.program cpu Post := by
  refine block_leaves 6 rfl rfl led here.loaded (fatalErrorBlock_leads here) ?_
  intro called prints
  refine block_leaves 7 rfl rfl prints.ip prints.loaded (printsBlock_leads prints) ?_
  rintro first ⟨looked, ax, bx, memory⟩
  refine @looked_leaves _ _ _ _ _ [] _ bios rfl looked ?_
  intro walked led inside back asked
  refine block_leaves 10 rfl rfl led inside.loaded (printedBlock_leads inside back) ?_
  rintro returned ⟨led, inside, same⟩
  refine block_leaves 11 rfl rfl led inside.loaded (stopBlock_leads inside) ?_
  rintro after ⟨halted, same'⟩
  refine Leaves.nil ?_ (post after ax bx ?_ halted)
  · have outside := (List.nodup_cons.mp image.labels).1
    intro block member same
    rw [halted.ip] at same
    exact outside (same ▸ List.mem_map_of_mem member : image.halted ∈ image.program.map start)
  · rw [same', same, ← memory]
    exact asked

end Fatal

section Boot

/-- Stage 1 is not in the boot sector. -/
theorem boot1_outside (block : CodeBlock) (member : block ∈ image.program) :
    block.start ≠ boot1StartAddrPm := by
  have fits := image.fits
  have rodata := image.rodata
  have bss := image.bss
  have data := image.data
  have sector : bootSector = 31744 := rfl
  have label := image.labels_lt block.start (List.mem_map_of_mem member : _ ∈ image.program.map start)
  intro same
  rw [same] at label
  have stage : boot1StartAddrPm.toNat = 65536 := rfl
  omega

/-- Behind a request the boot sector goes on or gives up. -/
theorem requested_leaves {accepted rest : List Boot0Request} {next : UInt32}
    {start memory : Memory} (bios : Boot0Bios firmware image)
    (split : boot0Requests = accepted ++ request :: rest)
    (asked : Asked firmware drive (¬ Refused ·) accepted start memory)
    (requested : Requested firmware image drive request next memory cpu)
    (more : cpu.ip = next → InBoot0 image drive boot0StackBaseOffset cpu →
      Asked firmware drive (¬ Refused ·) (accepted ++ [request]) start cpu.memory →
      Leaves firmware image.program cpu (Boot0Ends firmware image drive start)) :
    Leaves firmware image.program cpu (Boot0Ends firmware image drive start) := by
  rcases requested.outcome with ⟨led, answer⟩ | ⟨led, answer⟩
  · exact more led requested.toInBoot0 (asked.append answer)
  · exact fatal_leaves bios requested.toInBoot0 led fun after ax bx printed halted =>
      .inr ⟨accepted, request, rest, memory, cpu.memory, ax, bx, split, asked, answer, printed, halted⟩

/-- From `next_line` to one of the two ends. -/
theorem nextLine_leaves (bios : Boot0Bios firmware image) (loaded : image.Loaded memory)
    (started : LineStarted image drive memory cpu) :
    Leaves firmware image.program cpu
      (Boot0Ends firmware image drive (image.saveDrive drive memory)) := by
  have loaded' : image.Loaded cpu.memory := started.memory ▸ loaded
  refine block_leaves 0 rfl rfl started.ip loaded' (nextLineBlock_leads bios loaded started) ?_
  intro first requested
  refine @requested_leaves _ _ _ _ _ [] _ _ _ _ bios rfl .nil requested ?_
  intro led here asked
  refine block_leaves 1 rfl rfl led here.loaded (readBlock_leads bios here) ?_
  intro second requested
  refine requested_leaves bios rfl asked requested ?_
  intro led here asked
  refine block_leaves 2 rfl rfl led here.loaded (readBlock_leads bios here) ?_
  intro third requested
  refine requested_leaves bios rfl asked requested ?_
  intro led here asked
  refine block_leaves 3 rfl rfl led here.loaded (a20gateEnableBlock_leads bios here) ?_
  intro fourth requested
  refine requested_leaves bios rfl asked requested ?_
  intro led here asked
  refine block_leaves 4 rfl rfl led here.loaded (disableInterruptsBlock_leads here) ?_
  intro fifth switching
  refine block_leaves 5 rfl rfl switching.ip switching.loaded (switchedBlock_leads switching) ?_
  intro after entered
  refine Leaves.nil ?_ (.inl ⟨fourth.memory, asked, entered⟩)
  rw [entered.ip]
  exact boot1_outside

/-- The boot sector ends, in one of its two ways. -/
theorem boot0_leaves {entry : UInt32} (bios : Boot0Bios firmware image)
    (entered : Boot0Entered image entry drive cpu) :
    ∃ turns after, boot0 firmware image entry turns cpu = some after ∧
      Boot0Ends firmware image drive (image.saveDrive drive cpu.memory) after := by
  obtain ⟨line, ran, started⟩ := @start_runs firmware _ _ _ _ entered
  obtain ⟨turns, after, followed, ends⟩ := nextLine_leaves bios entered.loaded started
  refine ⟨turns, after, ?_, ends⟩
  rw [boot0, ran]
  exact followed

/-- However the BIOS answers, the boot sector ends: it enters stage 1 in flat protected mode, with
interrupts off and the boot drive in DL, after exactly the four requests in their order and all
of them accepted; or it halts after the first one that is refused, with the message printed. -/
theorem boot0_ends {entry : UInt32} (bios : Boot0Bios firmware image)
    (entered : Boot0Entered image entry drive cpu) :
    ∃ turns after, boot0 firmware image entry turns cpu = some after ∧
      Boot0Ends firmware image drive (image.saveDrive drive cpu.memory) after :=
  boot0_leaves bios entered

end Boot

/-- The instructions of the boot sector as they are assembled. -/
def exampleText : List UInt8 :=
  [0xeb, 0x15, 0x50, 0x53, 0xac, 0x3c, 0x00, 0x74, 0x0a, 0xb3, 0xff, 0xb7, 0x00, 0xb4, 0x0e,
      0xcd, 0x10, 0xeb, 0xf1, 0x5b, 0x58, 0x66, 0xc3] ++
    [0xfa, 0x66, 0xea, 0x20, 0x7c, 0x00, 0x00, 0x00, 0x00, 0xb8, 0x00, 0x00, 0x8e, 0xd8, 0xb8,
      0x00, 0x10, 0x8e, 0xc0, 0x88, 0x16, 0xe5, 0x7c, 0xb8, 0x00, 0x00, 0x8e, 0xd0, 0xbc, 0x00,
      0x80, 0xfb, 0xb4, 0x00, 0xcd, 0x13, 0x72, 0x75] ++
    [0xb6, 0x00, 0xb0, 0x3e, 0xbb, 0x00, 0x00, 0xb9, 0x02, 0x00, 0xb4, 0x02, 0xcd, 0x13, 0x72,
      0x65, 0xb6, 0x01, 0xb0, 0x3a, 0xbb, 0x00, 0x7c, 0xb9, 0x01, 0x00, 0xb4, 0x02, 0xcd, 0x13,
      0x72, 0x55, 0xb0, 0x01, 0xb4, 0x24, 0xcd, 0x15, 0x72, 0x4d] ++
    [0xfa, 0xc7, 0x06, 0xfe, 0x7c, 0x18, 0x00, 0x66, 0x31, 0xc0, 0x66, 0x31, 0xdb, 0x8c, 0xd8,
      0x66, 0xc1, 0xe0, 0x04, 0xbb, 0xe6, 0x7c, 0x66, 0x01, 0xd8, 0xbb, 0xfe, 0x7c, 0x67, 0x66,
      0x89, 0x43, 0x02, 0x66, 0x0f, 0x01, 0x16, 0xfe, 0x7c, 0x0f, 0x20, 0xc0, 0x83, 0xc8, 0x01,
      0x0f, 0x22, 0xc0, 0xeb, 0x00] ++
    [0xb8, 0x10, 0x00, 0x8e, 0xd8, 0x8e, 0xc0, 0x8e, 0xe0, 0x8e, 0xe8, 0x8e, 0xd0, 0x66, 0xbc,
      0x00, 0xf0, 0x09, 0x00, 0x66, 0xea, 0x00, 0x00, 0x01, 0x00, 0x08, 0x00, 0xbe, 0xbd, 0x7c,
      0x66, 0xe8, 0x47, 0xff, 0xff, 0xff, 0xfa, 0xf4]

theorem length_exampleText : exampleText.length = 189 := by
  simp only [exampleText, List.length_append]
  rfl

/-- The boot sector as it is linked. -/
def exampleBoot0 : Boot0Image where
  text := exampleText
  prints := 0x7c02
  nextCharacter := 0x7c04
  character := 0x7c09
  printed := 0x7c13
  initRegisters := 0x7c17
  nextLine := 0x7c20
  driveReadBoot := 0x7c3d
  secondRead := 0x7c4d
  a20gateEnable := 0x7c5d
  disableInterrupts := 0x7c65
  switched := 0x7c97
  fatalError := 0x7cb2
  stop := 0x7cbb
  halted := 0x7cbc
  msgPleaseReboot := 0x7cbd
  bootDrv := 0x7ce5
  gdt := 0x7ce6
  labels := by decide
  labels_lt := by
    rw [length_exampleText]
    simp only [List.forall_mem_cons, List.not_mem_nil, false_implies, implies_true, and_true]
    decide
  rodata := by
    rw [length_exampleText]
    decide
  bss := by decide
  data := by decide
  fits := by decide

/-- Memory with the boot sector in it. -/
def exampleBootMemory : Memory :=
  Memory.storeBytes (fun _ => 0) bootSector
    (exampleText ++ (pleaseReboot ++ [0]) ++ [0x01] ++ boot0Gdt)

theorem exampleBootMemory_loaded : exampleBoot0.Loaded exampleBootMemory := by
  have whole : exampleBootMemory.Holds bootSector
      (exampleText ++ (pleaseReboot ++ [0]) ++ [0x01] ++ boot0Gdt) := Memory.holds_storeBytes
  have length : pleaseReboot.length = 39 := rfl
  obtain ⟨front, gdt⟩ := Memory.holds_append.mp whole
  obtain ⟨both, _⟩ := Memory.holds_append.mp front
  obtain ⟨text, message⟩ := Memory.holds_append.mp both
  rw [length_exampleText] at message
  rw [List.length_append, List.length_append, List.length_append, length_exampleText, length] at gdt
  exact ⟨text, message, gdt⟩

/-- The processor as the BIOS hands over, with the first hard disk as the boot drive. -/
def exampleBooting (memory : Memory) : Cpu where
  register := fun register => if register = .edx then 0x80 else 0
  segment := fun _ => realSegment 0
  flags := 0x202
  cr0 := 0x10
  gdtr := ⟨0, 0⟩
  idtr := ⟨0x3ff, 0⟩
  ip := 0x7c00
  memory
  ports := []

theorem exampleBooting_entered (loaded : exampleBoot0.Loaded memory) :
    Boot0Entered exampleBoot0 0x7c00 0x80 (exampleBooting memory) := by
  have flags : (0x202 : UInt32) &&& Flag.direction.mask = 0 := by decide
  have mode : ((0x10 : UInt32) &&& 1 != 0) = false := by decide
  have place : 16 * (0 : UInt16).toNat + (0x7c00 : UInt32).toNat = bootSector := by decide
  have dl : ByteRegister.dl.part 0x80 = 0x80 := by decide
  exact ⟨mode, fun _ => ⟨rfl, rfl⟩, rfl, place, dl, flags, loaded⟩

/-- A BIOS that accepts everything and does nothing else. -/
def acceptingFirmware : Firmware := fun _ cpu => cpu.setFlags (withFlag .carry false cpu.flags)

theorem acceptingFirmware_bios : Boot0Bios acceptingFirmware exampleBoot0 := by
  intro request drive stack cpu _ _ _
  exact ⟨rfl, fun _ _ => rfl, rfl, rfl, rfl, withFlag_apart (by decide), fun _ _ => rfl⟩

theorem boot0_ends_accepting :
    ∃ turns after, boot0 acceptingFirmware exampleBoot0 0x7c00 turns
        (exampleBooting exampleBootMemory) = some after ∧
      Boot0Ends acceptingFirmware exampleBoot0 0x80
        (exampleBoot0.saveDrive 0x80 (exampleBooting exampleBootMemory).memory) after :=
  boot0_ends acceptingFirmware_bios (exampleBooting_entered exampleBootMemory_loaded)

end Bootloader.Arch
