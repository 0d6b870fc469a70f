import Bootloader.Arch.Int32Run
import Bootloader.Arch.Isr
import Bootloader.Arch.Pit
import Bootloader.Std.Trace

/-!
# Hardware interrupts while the system runs

`hal_init` installs the handlers and programs the controllers. From then on the controllers
change with every call of `int32`, which leaves the second one at other vectors and nothing
masked. `hal_interrupts` follows both through every run.
-/

namespace Bootloader.Arch

open Bootloader.Std CodeBlock

/-- The exceptions that `i86_setup_exception_handlers` installs a handler for. -/
inductive ExceptionInt where
  | div0
  | singlestep
  | nmi
  | breakpoint
  | overflow
  | boundscheck
  | invalidopcode
  | devavailibility
  | doublefault
  | invalidtss
  | nosegment
  | stack
  | genprotect
  | page
  | fpu
  | aligncheck
  | machinecheck
  | simdfpu
deriving DecidableEq, Repr

namespace ExceptionInt

/-- The vector of an exception. -/
def intno : ExceptionInt → UInt8
  | .div0 => 0x00
  | .singlestep => 0x01
  | .nmi => 0x02
  | .breakpoint => 0x03
  | .overflow => 0x04
  | .boundscheck => 0x05
  | .invalidopcode => 0x06
  | .devavailibility => 0x07
  | .doublefault => 0x08
  | .invalidtss => 0x0a
  | .nosegment => 0x0b
  | .stack => 0x0c
  | .genprotect => 0x0d
  | .page => 0x0e
  | .fpu => 0x10
  | .aligncheck => 0x11
  | .machinecheck => 0x12
  | .simdfpu => 0x13

/-- The exceptions in the order their handlers are installed in. -/
def all : List ExceptionInt :=
  [.div0, .singlestep, .nmi, .breakpoint, .overflow, .boundscheck, .invalidopcode,
    .devavailibility, .doublefault, .invalidtss, .nosegment, .stack, .genprotect, .page, .fpu,
    .aligncheck, .machinecheck, .simdfpu]

theorem intno_lt (exception : ExceptionInt) : exception.intno < 0x20 := by
  cases exception <;> decide

end ExceptionInt

/-- The addresses the linker gives the wrappers that `hal_init` installs. -/
structure HalHandlers where
  stubs : StubAddresses
  exception : ExceptionInt → UInt32
  clock : UInt32
  keyboard : UInt32
  timer : UInt32
  kbdGetinput : UInt32

/-- `CLOCKINT`. -/
def clockint : Irq := 0

/-- `KEYBOARDINT`. -/
def keyboardint : Irq := 1

/-- `IDT32_SOFTWARE_INT_OFFSET`, for the two software interrupts there are. -/
def idt32SoftwareIntOffset (intno : Nat) : Nat := 0x80 + intno

namespace HalHandlers

variable (handlers : HalHandlers)

/-- `i86_setup_exception_handlers`. -/
def i86SetupExceptionHandlers (idt : Idt) : Idt :=
  ExceptionInt.all.foldl
    (fun idt exception =>
      i86IdtInstallIr exception.intno (handlers.exception exception) interruptGate idt)
    idt

/-- The table behind `hal_init`. -/
def halIdt : Idt :=
  let idt := handlers.i86SetupExceptionHandlers (i86IdtInit handlers.stubs)
  let idt := i86IdtInstallIr (UInt8.ofNat (idt32HardwareIntOffset clockint.val)) handlers.clock
    interruptGate idt
  let idt := i86IdtInstallIr (UInt8.ofNat (idt32SoftwareIntOffset 0)) handlers.timer
    interruptGate idt
  let idt := i86IdtInstallIr (UInt8.ofNat (idt32HardwareIntOffset keyboardint.val))
    handlers.keyboard interruptGate idt
  i86IdtInstallIr (UInt8.ofNat (idt32SoftwareIntOffset 1)) handlers.kbdGetinput interruptGate idt

/-- The handler that `hal_init` means for an interrupt of the first controller. -/
def ofMaster (irq : Irq) : UInt32 :=
  if irq = clockint then handlers.clock
  else if irq = keyboardint then handlers.keyboard
  else handlers.stubs.address .defaultPic1

end HalHandlers

/-- `mask_enableinterrupt`. -/
def maskEnableinterrupt (currentMask : UInt16) (intno : Irq) : UInt16 :=
  currentMask &&& ~~~((1 : UInt16) <<< UInt16.ofNat intno.val)

/-- `i86_pic_getintmask`: the data ports are read for the masks. -/
def i86PicGetintmask (pics : Pics) : UInt16 :=
  pics.pic1.intmask.toUInt16 ||| (pics.pic2.intmask.toUInt16 <<< 8)

/-- `i86_pic_endofinterrupt`, which asserts that there is such an interrupt. -/
def i86PicEndofinterrupt (intno : UInt8) : Option (List Outb) :=
  if intno < 16 then some [⟨if intno ≤ 8 then pic1Command else pic2Command, picEoi⟩] else none

/-- How `i86_clock_init` and `keyboard_init` unmask their interrupts. -/
def unmask (intno : Irq) (pics : Pics) : List Outb :=
  i86PicSetintmask (maskEnableinterrupt (i86PicGetintmask pics) intno)

/-- The bytes `i86_clock_init` programs the timer with. -/
def clockPit : List Outb :=
  (i86PitStartCounter 100 .frequency ⟨.squareWaveGenerator, .counter0⟩ []).state

/-- The bytes `hal_init` writes to ports; those for the keyboard depend on the keyboard. -/
def halInit (keyboard : List Outb) (pics : Pics) : List Outb :=
  let remap := i86PicRemap (UInt8.ofNat idt32Pic1IntVectOffset)
    (UInt8.ofNat idt32Pic2IntVectOffset) 0xffff
  let clock := remap ++ clockPit ++ unmask clockint (pics.outbs (remap ++ clockPit))
  clock ++ keyboard ++ unmask keyboardint (pics.outbs (clock ++ keyboard))

/-- A port that belongs to no controller. -/
def OtherPort (port : UInt16) : Prop :=
  port ≠ pic1Command ∧ port ≠ pic1Data ∧ port ≠ pic2Command ∧ port ≠ pic2Data

instance (port : UInt16) : Decidable (OtherPort port) := inferInstanceAs (Decidable (_ ∧ _))

/-- The processor, and the controllers it is connected to. -/
structure HalState where
  cpu : Cpu
  pics : Pics

/-- What the system does that can matter to the controllers. -/
inductive HalEvent where
  | int32
  | setintmask (mask : UInt16)
  | endofinterrupt (intno : UInt8)
  | other
deriving DecidableEq, Repr

/-- A byte written to a port, as the controllers see it. -/
def toOutb (write : UInt8 × UInt8) : Outb := ⟨write.1.toUInt16, write.2⟩

/-- One event. A call of `int32` writes what `int32` and the BIOS write, whatever that is; code
written in C is free to change the processor in between. -/
inductive HalStep (image : Int32Image) : HalState → HalEvent → HalState → Prop
  | int32 {firmware : Firmware} {number : UInt8} {regs : UInt32} {before after : Cpu} {pics : Pics}
      {writes : List (UInt8 × UInt8)}
      (call : Int32Call image before number regs)
      (returns : Returns firmware image before number regs)
      (appends : ∀ given, Given image before number regs given →
        ∃ more, (firmware number given).ports = given.ports ++ more)
      (ran : Arch.int32 image firmware before = some after)
      (wrote : after.ports = before.ports ++ writes) :
      HalStep image ⟨before, pics⟩ .int32 ⟨after, pics.outbs (writes.map toOutb)⟩
  | setintmask {before after : Cpu} {pics : Pics} {mask : UInt16} :
      HalStep image ⟨before, pics⟩ (.setintmask mask) ⟨after, pics.outbs (i86PicSetintmask mask)⟩
  | endofinterrupt {before after : Cpu} {pics : Pics} {intno : UInt8} {writes : List Outb}
      (accepted : i86PicEndofinterrupt intno = some writes) :
      HalStep image ⟨before, pics⟩ (.endofinterrupt intno) ⟨after, pics.outbs writes⟩
  | other {before after : Cpu} {pics : Pics} {writes : List Outb}
      (elsewhere : ∀ write ∈ writes, OtherPort write.port) :
      HalStep image ⟨before, pics⟩ .other ⟨after, pics.outbs writes⟩

/-- Where the second controller delivers its interrupts, and what is masked. -/
structure Delivery where
  slave : UInt8
  intmask : UInt16
deriving DecidableEq, Repr

namespace Delivery

/-- Behind `hal_init`. -/
def booted : Delivery := ⟨0x70, 0xfffc⟩

/-- How an event changes it. -/
def after (delivery : Delivery) : HalEvent → Delivery
  | .int32 => ⟨0x28, 0⟩
  | .setintmask mask => { delivery with intmask := mask }
  | .endofinterrupt _ => delivery
  | .other => delivery

/-- The vector of an interrupt. -/
def vector (delivery : Delivery) (irq : Irq) : UInt8 :=
  if irq.val < 8 then 0x20 + UInt8.ofNat irq.val
  else delivery.slave + UInt8.ofNat (irq.val - 8)

end Delivery

/-- Controllers that are out of their initialization and deliver so. -/
structure Pics.Delivers (delivery : Delivery) (pics : Pics) : Prop where
  ready : pics.pic1.phase = .mask ∧ pics.pic2.phase = .mask
  master : pics.pic1.vecoffset = 0x20
  slave : pics.pic2.vecoffset = delivery.slave
  masked1 : pics.pic1.intmask = delivery.intmask.toUInt8
  masked2 : pics.pic2.intmask = (delivery.intmask >>> 8).toUInt8

/-- A byte at the data port of a controller that is out of its initialization. -/
theorem Pic.data_mask {pic : Pic} {value : UInt8} (ready : pic.phase = .mask) :
    pic.data value = { pic with intmask := value } := by
  obtain ⟨_, _, phase, _, _⟩ := pic
  cases phase with
  | mask => rfl
  | icw2 => cases ready
  | icw3 => cases ready
  | icw4 => cases ready

namespace Pics

variable {pics : Pics} {delivery : Delivery} {writes : List Outb}

theorem outbs_append (first second : List Outb) :
    pics.outbs (first ++ second) = (pics.outbs first).outbs second :=
  List.foldl_append

/-- Writes to other ports leave the controllers alone. -/
theorem outbs_elsewhere (elsewhere : ∀ write ∈ writes, OtherPort write.port) :
    pics.outbs writes = pics := by
  induction writes generalizing pics with
  | nil => rfl
  | cons write rest inductionHypothesis =>
      obtain ⟨command1, data1, command2, data2⟩ := elsewhere write List.mem_cons_self
      have same : pics.outb write = pics := by
        rw [outb, if_neg command1, if_neg data1, if_neg command2, if_neg data2]
      change (pics.outb write).outbs rest = pics
      rw [same]
      exact inductionHypothesis fun other member => elsewhere other (List.mem_cons_of_mem _ member)

/-- A mask that has been split over two registers. -/
theorem intmask_halves (mask : UInt16) :
    mask.toUInt8.toUInt16 ||| ((mask >>> 8).toUInt8.toUInt16 <<< 8) = mask := by
  have bound := mask.toNat_lt
  have whole := Nat.shiftLeft_add_eq_or_of_lt (i := 8)
    (Nat.mod_lt mask.toNat (show 0 < 2 ^ 8 by decide)) (mask.toNat / 256)
  apply UInt16.toNat_inj.mp
  rw [UInt16.toNat_or, UInt16.toNat_shiftLeft, UInt8.toNat_toUInt16, UInt8.toNat_toUInt16,
    UInt16.toNat_toUInt8, UInt16.toNat_toUInt8, UInt16.toNat_shiftRight]
  simp only [UInt16.reduceToNat, Nat.reduceMod, Nat.shiftRight_eq_div_pow, Nat.shiftLeft_eq]
    at whole ⊢
  rw [Nat.or_comm, Nat.mod_eq_of_lt (show mask.toNat / 2 ^ 8 % 2 ^ 8 * 2 ^ 8 < 2 ^ 16 by omega),
    Nat.mod_eq_of_lt (show mask.toNat / 2 ^ 8 < 2 ^ 8 by omega)]
  change mask.toNat / 256 * 2 ^ 8 ||| _ = _
  rw [← whole]
  omega

theorem Delivers.intmask (delivers : pics.Delivers delivery) :
    i86PicGetintmask pics = delivery.intmask := by
  rw [i86PicGetintmask, delivers.masked1, delivers.masked2, intmask_halves]

theorem Delivers.vector (delivers : pics.Delivers delivery) (irq : Irq) :
    pics.vector irq = delivery.vector irq := by
  rw [Pics.vector, Delivery.vector, delivers.master, delivers.slave]

/-- `resetpic` brings the controllers out of any state to the same one. -/
theorem delivers_resetpic :
    (pics.outbs ((resetpicWrites 0x20 0x28).map toOutb)).Delivers ⟨0x28, 0⟩ :=
  ⟨⟨rfl, rfl⟩, rfl, rfl, rfl, rfl⟩

theorem Delivers.setintmask (delivers : pics.Delivers delivery) (mask : UInt16) :
    (pics.outbs (i86PicSetintmask mask)).Delivers { delivery with intmask := mask } := by
  have low : (mask &&& 0xff).toUInt8 = mask.toUInt8 := by
    apply UInt8.toNat_inj.mp
    rw [UInt16.toNat_toUInt8, UInt16.toNat_toUInt8, UInt16.toNat_and]
    have mod : mask.toNat &&& 0xff = mask.toNat % 256 := Nat.and_two_pow_sub_one_eq_mod _ 8
    simp only [UInt16.reduceToNat, mod]
    omega
  have whole : pics.outbs (i86PicSetintmask mask) =
      ⟨pics.pic1.data (mask &&& 0xff).toUInt8, pics.pic2.data (mask >>> 8).toUInt8⟩ := rfl
  rw [whole, Pic.data_mask delivers.ready.1, Pic.data_mask delivers.ready.2, low]
  exact ⟨delivers.ready, delivers.master, delivers.slave, rfl, rfl⟩

/-- An acknowledgement changes nothing that matters here. -/
theorem outbs_endofinterrupt {intno : UInt8} (accepted : i86PicEndofinterrupt intno = some writes) :
    pics.outbs writes = pics := by
  rw [i86PicEndofinterrupt] at accepted
  split at accepted
  · rw [← Option.some.inj accepted]
    split <;> rfl
  · cases accepted

end Pics

section Boot

variable {keyboard : List Outb} {pics : Pics} {delivery : Delivery}

/-- `hal_init` leaves the clock and the keyboard unmasked and nothing else. -/
theorem delivers_halInit (others : ∀ write ∈ keyboard, OtherPort write.port) :
    (pics.outbs (halInit keyboard pics)).Delivers .booted := by
  have timer : ∀ write ∈ clockPit, OtherPort write.port := by decide
  obtain ⟨remap, named⟩ : ∃ remap, i86PicRemap (UInt8.ofNat idt32Pic1IntVectOffset)
      (UInt8.ofNat idt32Pic2IntVectOffset) 0xffff = remap := ⟨_, rfl⟩
  have first : (pics.outbs (remap ++ clockPit)).Delivers ⟨0x70, 0xffff⟩ := by
    rw [Pics.outbs_append, Pics.outbs_elsewhere timer, ← named]
    exact ⟨⟨rfl, rfl⟩, rfl, rfl, rfl, rfl⟩
  have second : (pics.outbs (remap ++ clockPit ++
      unmask clockint (pics.outbs (remap ++ clockPit)))).Delivers ⟨0x70, 0xfffe⟩ := by
    rw [Pics.outbs_append, unmask, first.intmask]
    exact first.setintmask _
  obtain ⟨clock, named'⟩ : ∃ clock, remap ++ clockPit ++
      unmask clockint (pics.outbs (remap ++ clockPit)) = clock := ⟨_, rfl⟩
  have third : (pics.outbs (clock ++ keyboard)).Delivers ⟨0x70, 0xfffe⟩ := by
    rw [Pics.outbs_append, Pics.outbs_elsewhere others, ← named']
    exact second
  have whole : halInit keyboard pics =
      clock ++ keyboard ++ unmask keyboardint (pics.outbs (clock ++ keyboard)) := by
    rw [← named', ← named]
    rfl
  rw [whole, Pics.outbs_append, unmask, third.intmask]
  exact third.setintmask _

end Boot

section Table

variable {handlers : HalHandlers} {idt : Idt} {vector : UInt8} {irq : Irq}

/-- Handlers of exceptions stand in front of the vectors of the controllers. -/
theorem exceptions_apart (above : 0x20 ≤ vector) :
    handlers.i86SetupExceptionHandlers idt vector = idt vector := by
  have rest : ∀ exceptions : List ExceptionInt, ∀ idt : Idt,
      exceptions.foldl (fun idt exception =>
        i86IdtInstallIr exception.intno (handlers.exception exception) interruptGate idt) idt
          vector = idt vector := by
    intro exceptions
    induction exceptions with
    | nil => exact fun _ => rfl
    | cons exception others inductionHypothesis =>
        intro idt
        have apart : vector ≠ exception.intno := by
          intro same
          have below := exception.intno_lt
          rw [← same] at below
          exact absurd below (UInt8.not_lt.mpr above)
        rw [List.foldl_cons, inductionHypothesis, i86IdtInstallIr, Function.update_of_ne apart]
  exact rest _ _

/-- The table behind `hal_init`, with the vectors written out. -/
theorem halIdt_eq : handlers.halIdt =
    Function.update (Function.update (Function.update (Function.update
      (handlers.i86SetupExceptionHandlers (i86IdtInit handlers.stubs))
      0x20 (idtDescInit isr32Seg handlers.clock interruptGate))
      0x80 (idtDescInit isr32Seg handlers.timer interruptGate))
      0x21 (idtDescInit isr32Seg handlers.keyboard interruptGate))
      0x81 (idtDescInit isr32Seg handlers.kbdGetinput interruptGate) := rfl

/-- Between the keyboard and the software interrupts there are default handlers only. -/
theorem halIdt_between (above : 0x22 ≤ vector) (below : vector < 0x80) :
    (handlers.halIdt vector).handler = handlers.stubs.address (defaultStub vector.toNat) := by
  rw [UInt8.le_iff_toNat_le] at above
  rw [UInt8.lt_iff_toNat_lt] at below
  have apart : ∀ other : UInt8, vector.toNat ≠ other.toNat → vector ≠ other :=
    fun _ differs same => differs (congrArg UInt8.toNat same)
  have low : (0x22 : UInt8).toNat = 34 := rfl
  have high : (0x80 : UInt8).toNat = 128 := rfl
  have clock : (0x20 : UInt8).toNat = 32 := rfl
  have keyboard : (0x21 : UInt8).toNat = 33 := rfl
  have input : (0x81 : UInt8).toNat = 129 := rfl
  rw [halIdt_eq, Function.update_of_ne (apart _ (by omega)),
    Function.update_of_ne (apart _ (by omega)), Function.update_of_ne (apart _ (by omega)),
    Function.update_of_ne (apart _ (by omega)),
    exceptions_apart (UInt8.le_iff_toNat_le.mpr (by omega)), handler_i86IdtInit]

/-- Every interrupt of the first controller has the handler that is meant for it. -/
theorem halIdt_master (master : irq.val < 8) :
    (handlers.halIdt (0x20 + UInt8.ofNat irq.val)).handler = handlers.ofMaster irq := by
  by_cases clock : irq = clockint
  · subst clock
    have place : (0x20 : UInt8) + UInt8.ofNat clockint.val = 0x20 := rfl
    rw [place, halIdt_eq, Function.update_of_ne (by decide), Function.update_of_ne (by decide),
      Function.update_of_ne (by decide), Function.update_self, handler_idtDescInit,
      HalHandlers.ofMaster, if_pos rfl]
  · by_cases keyboard : irq = keyboardint
    · subst keyboard
      have place : (0x20 : UInt8) + UInt8.ofNat keyboardint.val = 0x21 := rfl
      rw [place, halIdt_eq, Function.update_of_ne (by decide), Function.update_self,
        handler_idtDescInit, HalHandlers.ofMaster, if_neg clock, if_pos rfl]
    · have first : irq.val ≠ 0 := fun same => clock (Fin.ext same)
      have second : irq.val ≠ 1 := fun same => keyboard (Fin.ext same)
      have place : ((0x20 : UInt8) + UInt8.ofNat irq.val).toNat = 0x20 + irq.val := by
        rw [UInt8.toNat_add, UInt8.toNat_ofNat', show (0x20 : UInt8).toNat = 0x20 from rfl]
        omega
      have low : (0x22 : UInt8).toNat = 34 := rfl
      have high : (0x80 : UInt8).toNat = 128 := rfl
      rw [halIdt_between (UInt8.le_iff_toNat_le.mpr (by rw [place, low]; omega))
        (UInt8.lt_iff_toNat_lt.mpr (by rw [place, high]; omega)), place,
        HalHandlers.ofMaster, if_neg clock, if_neg keyboard, defaultStub,
        if_pos ⟨Nat.le_add_right _ _, Nat.add_lt_add_left master _⟩]

/-- No interrupt of the second controller has one, wherever that controller delivers. -/
theorem halIdt_slave {delivery : Delivery} (places : delivery.slave = 0x70 ∨ delivery.slave = 0x28)
    (slave : ¬ irq.val < 8) :
    (handlers.halIdt (delivery.vector irq)).handler = handlers.stubs.address .default := by
  have bound := irq.isLt
  have place : (delivery.slave + UInt8.ofNat (irq.val - 8)).toNat =
      delivery.slave.toNat + (irq.val - 8) := by
    have room : delivery.slave.toNat = 0x70 ∨ delivery.slave.toNat = 0x28 :=
      places.imp (congrArg UInt8.toNat) (congrArg UInt8.toNat)
    rw [UInt8.toNat_add, UInt8.toNat_ofNat']
    omega
  have low : (0x22 : UInt8).toNat = 34 := rfl
  have high : (0x80 : UInt8).toNat = 128 := rfl
  have slave1 : (0x70 : UInt8).toNat = 112 := rfl
  have slave2 : (0x28 : UInt8).toNat = 40 := rfl
  have range : 40 ≤ delivery.slave.toNat ∧ delivery.slave.toNat ≤ 112 := by
    rcases places with same | same <;> rw [same] <;> decide
  have first : idt32Pic1IntVectOffset + pic1Intnbr = 40 := rfl
  rw [Delivery.vector, if_neg slave, halIdt_between
    (UInt8.le_iff_toNat_le.mpr (by rw [place, low]; omega))
    (UInt8.lt_iff_toNat_lt.mpr (by rw [place, high]; omega)), place, defaultStub,
    if_neg (by omega), if_neg (by omega)]

end Table

section Run

variable {image : Int32Image} {state next : HalState} {event : HalEvent} {delivery : Delivery}

/-- A call of `int32` ends with its own initialization of the controllers. -/
theorem int32_delivers {firmware : Firmware} {number : UInt8} {regs : UInt32} {before after : Cpu}
    {pics : Pics} {writes : List (UInt8 × UInt8)} (call : Int32Call image before number regs)
    (returns : Returns firmware image before number regs)
    (appends : ∀ given, Given image before number regs given →
      ∃ more, (firmware number given).ports = given.ports ++ more)
    (ran : int32 image firmware before = some after)
    (wrote : after.ports = before.ports ++ writes) :
    (pics.outbs (writes.map toOutb)).Delivers ⟨0x28, 0⟩ := by
  obtain ⟨after', ran', given, handed, done⟩ := int32_leads call returns
  obtain rfl : after' = after := Option.some.inj (ran'.symm.trans ran)
  obtain ⟨more, appended⟩ := appends given handed
  rw [done.ports, appended, handed.ports, List.append_assoc, List.append_assoc] at wrote
  obtain rfl := List.append_cancel_left wrote
  rw [List.map_append, List.map_append, Pics.outbs_append, Pics.outbs_append]
  exact Pics.delivers_resetpic

/-- An event moves the controllers as it moves their description. -/
theorem HalStep.delivers (delivers : state.pics.Delivers delivery)
    (step : HalStep image state event next) : next.pics.Delivers (delivery.after event) := by
  cases step with
  | int32 call returns appends ran wrote => exact int32_delivers call returns appends ran wrote
  | setintmask => exact delivers.setintmask _
  | endofinterrupt accepted =>
      rw [Delivery.after, Pics.outbs_endofinterrupt accepted]
      exact delivers
  | other others =>
      rw [Delivery.after, Pics.outbs_elsewhere others]
      exact delivers

/-- The second controller never delivers anywhere else. -/
theorem slave_follows (events : List HalEvent)
    (places : delivery.slave = 0x70 ∨ delivery.slave = 0x28) :
    (events.foldl Delivery.after delivery).slave = 0x70 ∨
      (events.foldl Delivery.after delivery).slave = 0x28 := by
  induction events generalizing delivery with
  | nil => exact places
  | cons event rest inductionHypothesis =>
      apply inductionHypothesis
      cases event with
      | int32 => exact Or.inr rfl
      | setintmask mask => exact places
      | endofinterrupt intno => exact places
      | other => exact places

end Run

/-- The system behind `hal_init`. -/
def halBooted (cpu : Cpu) (keyboard : List Outb) (pics : Pics) : HalState :=
  ⟨cpu, pics.outbs (halInit keyboard pics)⟩

/-- From `hal_init` on, whatever the system does and whatever any BIOS writes, the controllers
deliver and mask as the events say: the first one at 0x20, where each interrupt has its own
handler, the second one at 0x70 and from the first call of `int32` on at 0x28, where every
interrupt finds the handler that acknowledges nothing. Such a call leaves nothing masked. -/
theorem hal_interrupts (handlers : HalHandlers) (image : Int32Image) (cpu : Cpu) (pics : Pics)
    (keyboard : List Outb) (others : ∀ write ∈ keyboard, OtherPort write.port)
    {log : List (HalState × HalEvent)} {state : HalState}
    (run : Trace (HalStep image) (halBooted cpu keyboard pics) log state) :
    let delivery := (log.map Prod.snd).foldl Delivery.after .booted
    (∀ irq, state.pics.vector irq = delivery.vector irq) ∧
      i86PicGetintmask state.pics = delivery.intmask ∧
      (∀ irq, irq.val < 8 →
        (handlers.halIdt (state.pics.vector irq)).handler = handlers.ofMaster irq) ∧
      ∀ irq, ¬ irq.val < 8 →
        (handlers.halIdt (state.pics.vector irq)).handler = handlers.stubs.address .default := by
  obtain ⟨start, named⟩ : ∃ start, halBooted cpu keyboard pics = start := ⟨_, rfl⟩
  rw [named] at run
  have initial : start.pics.Delivers .booted := by
    rw [← named]
    change (pics.outbs (halInit keyboard pics)).Delivers .booted
    exact delivers_halInit others
  have delivers := @Trace.follows _ _ _ _ _ _ _ Delivery.after
    (fun delivery state => state.pics.Delivers delivery) _ initial HalStep.delivers run
  refine ⟨delivers.vector, delivers.intmask, ?_, ?_⟩
  · intro irq master
    rw [delivers.vector, Delivery.vector, if_pos master]
    exact halIdt_master master
  · intro irq slave
    rw [delivers.vector]
    exact halIdt_slave (slave_follows _ (Or.inl rfl)) slave

/-- Wrappers sixteen bytes apart. -/
def exampleHandlers : HalHandlers where
  stubs := exampleStubs
  exception := fun exception => 0x10100 + 16 * exception.intno.toUInt32
  clock := 0x10030
  keyboard := 0x10040
  timer := 0x10050
  kbdGetinput := 0x10060

theorem sizeFirmware_appends (number : UInt8) (cpu : Cpu) :
    ∃ more, (sizeFirmware number cpu).ports = cpu.ports ++ more := by
  refine ⟨[], ?_⟩
  rw [List.append_nil, sizeFirmware]
  split <;> rfl

/-- Controllers as a BIOS leaves them. -/
def biosPics : Pics := ⟨⟨8, 0, .mask, false, true⟩, ⟨0x70, 0, .mask, false, true⟩⟩

/-- The real-time clock, once the BIOS has been asked for the memory size. -/
theorem hal_interrupts_real_time_clock :
    ∃ log state,
      Trace (HalStep int32Assembled) (halBooted (int32Caller 0x12 []) [] biosPics) log state ∧
      state.pics.vector 8 = 0x28 ∧ i86PicGetintmask state.pics = 0 ∧
      (exampleHandlers.halIdt (state.pics.vector 8)).handler =
        exampleHandlers.stubs.address .default := by
  obtain ⟨after, ran, given, handed, done⟩ :=
    int32_leads (int32Caller_call 0x12 []) fun given _ => sizeFirmware_returned 0x12 given
  obtain ⟨more, appended⟩ := sizeFirmware_appends 0x12 given
  have wrote : after.ports = (int32Caller 0x12 []).ports ++
      (resetpicWrites 8 0x70 ++ (more ++ resetpicWrites 0x20 0x28)) := by
    rw [done.ports, appended, handed.ports, List.append_assoc, List.append_assoc]
  obtain ⟨start, named⟩ : ∃ start, halBooted (int32Caller 0x12 []) [] biosPics = start := ⟨_, rfl⟩
  obtain ⟨cpu, pics⟩ := start
  obtain rfl : int32Caller 0x12 [] = cpu := congrArg HalState.cpu named
  have step := @HalStep.int32 _ _ _ _ _ _ pics _ (int32Caller_call 0x12 [])
    (fun given _ => sizeFirmware_returned 0x12 given) (fun given _ => sizeFirmware_appends 0x12 given)
    ran wrote
  have run := Trace.extend Trace.start step
  rw [← named] at run
  obtain ⟨vectors, masks, _, slaves⟩ :=
    hal_interrupts exampleHandlers int32Assembled _ _ [] (by simp) run
  exact ⟨_, _, run, vectors 8, masks, slaves 8 (by decide)⟩

end Bootloader.Arch
