import Bootloader.Arch.Pic
import Mathlib.Data.List.Induction
import Mathlib.Logic.Function.Basic

/-!
# The interrupt descriptor table

`i86_idt_init` fills the table with default handlers, and `i86_idt_install_ir` puts
other ones in their place. `hardware_interrupt_reaches_iff` says which hardware
interrupts find the handler that is meant for them.
-/

namespace Bootloader.Arch

/-- The fields of `idt_descriptor_flags_t`. -/
structure IdtDescriptorFlags where
  gateType : UInt8
  privilegeLevel : UInt8
  present : UInt8
deriving DecidableEq, Repr

/-- `idt_descriptor_t`: the address of a handler is kept in two halves. -/
structure IdtDescriptor where
  offset0_15 : UInt16
  segmentSelector : UInt16
  flags : IdtDescriptorFlags
  offset16_31 : UInt16
deriving DecidableEq, Repr

/-- The address the processor takes from a descriptor. -/
def IdtDescriptor.handler (desc : IdtDescriptor) : UInt32 :=
  (desc.offset16_31.toUInt32 <<< 16) ||| desc.offset0_15.toUInt32

/-- The handlers the table is filled with. -/
inductive DefaultStub where
  | default
  | defaultPic1
  | defaultPic2
deriving DecidableEq, Repr

/-- What a default handler writes to the ports before it returns. -/
def DefaultStub.writes : DefaultStub → List Outb
  | .default => []
  | .defaultPic1 => [⟨0x20, 0x20⟩]
  | .defaultPic2 => [⟨0xA0, 0x20⟩]

/-- The addresses the linker gives `_asm_default_int`, `_asm_default_pic1_int` and
`_asm_default_pic2_int`. -/
structure StubAddresses where
  address : DefaultStub → UInt32
  distinct : Function.Injective address

/-- `IDT32`: 256 descriptors. -/
abbrev Idt := UInt8 → IdtDescriptor

/-- `IDT32_PIC1_INT_VECT_OFFSET`. -/
def idt32Pic1IntVectOffset : Nat := 0x20

/-- `IDT32_PIC2_INT_VECT_OFFSET`. -/
def idt32Pic2IntVectOffset : Nat := 0x70

/-- `PIC1INTNBR`. -/
def pic1Intnbr : Nat := 8

/-- `ISR32_SEG`. -/
def isr32Seg : UInt16 := 8

/-- The flags of an interrupt gate for ring 0 that is present. -/
def interruptGate : IdtDescriptorFlags where
  gateType := 0xE
  privilegeLevel := 0
  present := 1

/-- `idt_desc_init`. -/
def idtDescInit (select : UInt16) (handler : UInt32) (flags : IdtDescriptorFlags) :
    IdtDescriptor where
  offset0_15 := (handler &&& 0x0000ffff).toUInt16
  segmentSelector := select
  flags := flags
  offset16_31 := ((handler &&& 0xffff0000) >>> 16).toUInt16

/-- The handler `i86_idt_init` chooses for a vector. Both of its range tests are for
the first controller. -/
def defaultStub (i : Nat) : DefaultStub :=
  if idt32Pic1IntVectOffset ≤ i ∧ i < idt32Pic1IntVectOffset + pic1Intnbr then .defaultPic1
  else if idt32Pic1IntVectOffset ≤ i ∧ i < idt32Pic1IntVectOffset + pic1Intnbr then .defaultPic2
  else .default

/-- `i86_idt_init`, the first `count` turns of its loop. -/
def idtInitLoop (stubs : StubAddresses) (idt : Idt) : Nat → Idt
  | 0 => idt
  | i + 1 =>
      Function.update (idtInitLoop stubs idt i) (UInt8.ofNat i)
        (idtDescInit isr32Seg (stubs.address (defaultStub i)) interruptGate)

/-- `i86_idt_init`. -/
def i86IdtInit (stubs : StubAddresses) : Idt :=
  idtInitLoop stubs (fun _ => ⟨0, 0, ⟨0, 0, 0⟩, 0⟩) 256

/-- `i86_idt_install_ir`. -/
def i86IdtInstallIr (intN : UInt8) (handler : UInt32) (flags : IdtDescriptorFlags) (idt : Idt) :
    Idt :=
  Function.update idt intN (idtDescInit isr32Seg handler flags)

/-- `IDT32_HARDWARE_INT_OFFSET`. -/
def idt32HardwareIntOffset (intno : Nat) : Nat :=
  if intno ≥ pic1Intnbr then idt32Pic2IntVectOffset + intno else idt32Pic1IntVectOffset + intno

/-- A call of `i86_idt_install_ir` for a hardware interrupt. -/
structure HardwareInstall where
  irq : Irq
  handler : UInt32
  flags : IdtDescriptorFlags

/-- The table after handlers have been installed for hardware interrupts. -/
def installed (stubs : StubAddresses) (installs : List HardwareInstall) : Idt :=
  installs.foldl
    (fun idt install =>
      i86IdtInstallIr (UInt8.ofNat (idt32HardwareIntOffset install.irq.val)) install.handler
        install.flags idt)
    (i86IdtInit stubs)

/-- The handler installed last for an interrupt. -/
def lastInstalled (irq : Irq) (installs : List HardwareInstall) : Option UInt32 :=
  (installs.reverse.find? fun install => install.irq = irq).map HardwareInstall.handler

/-- The controllers once `hal_init` has remapped them. -/
def remapped (mask : UInt16) (pics : Pics) : Pics :=
  pics.outbs (i86PicRemap (UInt8.ofNat idt32Pic1IntVectOffset)
    (UInt8.ofNat idt32Pic2IntVectOffset) mask)

/-- The default handler of the controller an interrupt comes from. -/
def ownStub (irq : Irq) : DefaultStub :=
  if irq.val < 8 then .defaultPic1 else .defaultPic2

/-- An interrupt finds the handler installed last for it, or otherwise the default
handler of its own controller, which acknowledges the interrupt there. -/
def Reaches (stubs : StubAddresses) (mask : UInt16) (pics : Pics)
    (installs : List HardwareInstall) (irq : Irq) : Prop :=
  let found := (installed stubs installs ((remapped mask pics).vector irq)).handler
  match lastInstalled irq installs with
  | some handler => found = handler
  | none => found = stubs.address (ownStub irq) ∧
      (ownStub irq).writes = [⟨Pics.controllerCommand irq, picEoi⟩]

section Table

variable {stubs : StubAddresses} {idt : Idt} {handler : UInt32} {flags : IdtDescriptorFlags}
  {mask : UInt16} {pics : Pics} {installs : List HardwareInstall} {irq : Irq}

/-- The two halves of an address make the address again. -/
theorem handler_idtDescInit (select : UInt16) :
    (idtDescInit select handler flags).handler = handler := by
  have bound := handler.toNat_lt
  have low : (handler &&& 0x0000ffff).toUInt16.toNat = handler.toNat % 65536 := by
    rw [UInt32.toNat_toUInt16, UInt32.toNat_and]
    have mask : handler.toNat &&& 0xffff = handler.toNat % 65536 :=
      Nat.and_two_pow_sub_one_eq_mod _ 16
    simp only [UInt32.reduceToNat, mask]
    omega
  have high : ((handler &&& 0xffff0000) >>> 16).toUInt16.toNat = handler.toNat / 65536 := by
    rw [UInt32.toNat_toUInt16, UInt32.toNat_shiftRight, UInt32.toNat_and]
    simp only [UInt32.reduceToNat, Nat.reduceMod, Nat.shiftRight_and_distrib]
    have mask : handler.toNat >>> 16 &&& 0xffff = (handler.toNat >>> 16) % 65536 :=
      Nat.and_two_pow_sub_one_eq_mod _ 16
    rw [show 4294901760 >>> 16 = 0xffff from rfl, mask, Nat.shiftRight_eq_div_pow]
    omega
  have whole := Nat.shiftLeft_add_eq_or_of_lt (i := 16)
    (Nat.mod_lt handler.toNat (show 0 < 2 ^ 16 by decide)) (handler.toNat / 65536)
  apply UInt32.toNat_inj.mp
  simp only [IdtDescriptor.handler, idtDescInit]
  rw [UInt32.toNat_or, UInt32.toNat_shiftLeft, UInt16.toNat_toUInt32, UInt16.toNat_toUInt32,
    low, high]
  simp only [UInt32.reduceToNat, Nat.reduceMod, Nat.shiftLeft_eq] at whole ⊢
  rw [Nat.mod_eq_of_lt (by omega), ← whole]
  omega

/-- The loop has filled the descriptors it has come by. -/
theorem idtInitLoop_apply {count : Nat} {vector : UInt8} (small : count ≤ 256) :
    idtInitLoop stubs idt count vector =
      if vector.toNat < count then
        idtDescInit isr32Seg (stubs.address (defaultStub vector.toNat)) interruptGate
      else idt vector := by
  induction count with
  | zero => rfl
  | succ i inductionHypothesis =>
      have place : vector = UInt8.ofNat i ↔ vector.toNat = i := by
        rw [← UInt8.toNat_inj, UInt8.toNat_ofNat', Nat.mod_eq_of_lt (by omega)]
      rw [idtInitLoop, Function.update_apply, inductionHypothesis (by omega)]
      by_cases here : vector.toNat = i
      · rw [if_pos (place.mpr here), if_pos (by omega), here]
      · rw [if_neg (mt place.mp here)]
        by_cases below : vector.toNat < i
        · rw [if_pos below, if_pos (by omega)]
        · rw [if_neg below, if_neg (by omega)]

/-- Every vector starts out with the default handler chosen for it. -/
theorem handler_i86IdtInit (vector : UInt8) :
    (i86IdtInit stubs vector).handler = stubs.address (defaultStub vector.toNat) := by
  rw [i86IdtInit, idtInitLoop_apply (Nat.le_refl _), if_pos vector.toNat_lt, handler_idtDescInit]

theorem installed_concat (before : List HardwareInstall) (install : HardwareInstall) :
    installed stubs (before ++ [install]) =
      i86IdtInstallIr (UInt8.ofNat (idt32HardwareIntOffset install.irq.val)) install.handler
        install.flags (installed stubs before) := by
  rw [installed, List.foldl_append]
  rfl

/-- A vector that is the place of one interrupt holds the handler installed last for
it. -/
theorem handler_installed {vector : UInt8}
    (place : ∀ other : Irq, UInt8.ofNat (idt32HardwareIntOffset other.val) = vector ↔ other = irq) :
    (installed stubs installs vector).handler =
      (lastInstalled irq installs).getD (stubs.address (defaultStub vector.toNat)) := by
  induction installs using List.reverseRecOn with
  | nil => exact handler_i86IdtInit vector
  | append_singleton before install inductionHypothesis =>
      rw [installed_concat, i86IdtInstallIr, lastInstalled, List.reverse_append,
        List.reverse_singleton, List.singleton_append, List.find?_cons, Function.update_apply]
      by_cases here : install.irq = irq
      · rw [if_pos ((place _).mpr here).symm, handler_idtDescInit]
        simp [here]
      · rw [if_neg fun same => here ((place _).mp same.symm)]
        simp only [here, decide_false]
        exact inductionHypothesis

/-- A vector that is the place of no interrupt keeps its default handler. -/
theorem handler_untouched {vector : UInt8}
    (place : ∀ other : Irq, UInt8.ofNat (idt32HardwareIntOffset other.val) ≠ vector) :
    (installed stubs installs vector).handler = stubs.address (defaultStub vector.toNat) := by
  induction installs using List.reverseRecOn with
  | nil => exact handler_i86IdtInit vector
  | append_singleton before install inductionHypothesis =>
      rw [installed_concat, i86IdtInstallIr, Function.update_of_ne (place _).symm]
      exact inductionHypothesis

/-- The vector of an interrupt behind `i86_pic_remap`. -/
def irqVector (irq : Irq) : UInt8 :=
  if irq.val < 8 then 0x20 + UInt8.ofNat irq.val else 0x70 + UInt8.ofNat (irq.val - 8)

theorem vector_remapped (irq : Irq) : (remapped mask pics).vector irq = irqVector irq :=
  Pics.remap_vector ..

/-- The handlers for the first controller are installed where it delivers. -/
theorem master_place (master : irq.val < 8) (other : Irq) :
    UInt8.ofNat (idt32HardwareIntOffset other.val) = irqVector irq ↔ other = irq := by
  have all : ∀ irq : Irq, irq.val < 8 → ∀ other : Irq,
      UInt8.ofNat (idt32HardwareIntOffset other.val) = irqVector irq ↔ other = irq := by
    decide +kernel
  exact all irq master other

/-- No handler is installed where the second controller delivers. -/
theorem slave_place (slave : ¬ irq.val < 8) (other : Irq) :
    UInt8.ofNat (idt32HardwareIntOffset other.val) ≠ irqVector irq := by
  have all : ∀ irq : Irq, ¬ irq.val < 8 → ∀ other : Irq,
      UInt8.ofNat (idt32HardwareIntOffset other.val) ≠ irqVector irq := by
    decide +kernel
  exact all irq slave other

/-- The default handler at the vector of an interrupt: the second controller has
none of its own. -/
theorem defaultStub_irqVector (irq : Irq) :
    defaultStub (irqVector irq).toNat = if irq.val < 8 then .defaultPic1 else .default := by
  revert irq
  decide +kernel

theorem ownStub_writes (irq : Irq) :
    (ownStub irq).writes = [⟨Pics.controllerCommand irq, picEoi⟩] := by
  revert irq
  decide +kernel

/-- The second controller always finds the handler that acknowledges nothing. -/
theorem handler_slave (slave : ¬ irq.val < 8) :
    (installed stubs installs ((remapped mask pics).vector irq)).handler =
      stubs.address .default := by
  rw [vector_remapped, handler_untouched (slave_place slave), defaultStub_irqVector,
    if_neg slave]

end Table

/-- Addresses sixteen bytes apart, in the code segment of the bootloader. -/
def exampleStubs : StubAddresses where
  address
    | .default => 0x10000
    | .defaultPic1 => 0x10010
    | .defaultPic2 => 0x10020
  distinct := by
    rintro (_ | _) (_ | _) same <;> first | rfl | exact absurd same (by decide)

/-- The real-time clock, with no handler installed at all. -/
theorem clock_interrupt_unacknowledged :
    ¬ ∀ stubs mask pics installs irq, Reaches stubs mask pics installs irq := by
  intro reaches
  have pics : Pics := ⟨⟨0, 0, .mask, false, false⟩, ⟨0, 0, .mask, false, false⟩⟩
  have found := (reaches exampleStubs 0xffff pics [] 8).1
  rw [handler_slave (by decide)] at found
  exact absurd found (by decide)

/-- A hardware interrupt finds its handler exactly when it comes from the first
controller, or the handler installed last for it is the one for vectors that are no
hardware interrupts. -/
theorem hardware_interrupt_reaches_iff (stubs : StubAddresses) (mask : UInt16) (pics : Pics)
    (installs : List HardwareInstall) (irq : Irq) :
    Reaches stubs mask pics installs irq ↔
      irq.val < 8 ∨ lastInstalled irq installs = some (stubs.address .default) := by
  unfold Reaches
  by_cases master : irq.val < 8
  · simp only [master, true_or, iff_true]
    have found : (installed stubs installs ((remapped mask pics).vector irq)).handler =
        (lastInstalled irq installs).getD (stubs.address (ownStub irq)) := by
      rw [vector_remapped, handler_installed (master_place master), defaultStub_irqVector,
        ownStub, if_pos master, if_pos master]
    cases last : lastInstalled irq installs with
    | none => exact ⟨by rw [found, last]; rfl, ownStub_writes irq⟩
    | some handler =>
        simp only
        rw [found, last]
        rfl
  · simp only [handler_slave master, master, false_or]
    cases last : lastInstalled irq installs with
    | none =>
        have apart : stubs.address .default ≠ stubs.address (ownStub irq) := by
          rw [ownStub, if_neg master]
          exact fun same => by cases stubs.distinct same
        simp [apart]
    | some handler => simp [eq_comm]

end Bootloader.Arch
