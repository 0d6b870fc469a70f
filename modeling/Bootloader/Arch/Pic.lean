/-!
# The interrupt controllers

Two 8259A controllers take the sixteen hardware interrupts. `i86_pic_remap` is the
sequence of bytes it writes to their ports; `Pic` is as much of a controller as these
bytes can change, and `remap_vector` says where they make it deliver an interrupt.
-/

namespace Bootloader.Arch

/-- The number of a hardware interrupt. -/
abbrev Irq := Fin 16

/-- A byte written to a port. -/
structure Outb where
  port : UInt16
  value : UInt8
deriving DecidableEq, Repr

/-- `PIC1_COMMAND`. -/
def pic1Command : UInt16 := 0x20

/-- `PIC1_DATA`. -/
def pic1Data : UInt16 := 0x21

/-- `PIC2_COMMAND`. -/
def pic2Command : UInt16 := 0xA0

/-- `PIC2_DATA`. -/
def pic2Data : UInt16 := 0xA1

/-- `PIC_EOI`: the command that acknowledges an interrupt. -/
def picEoi : UInt8 := 0x20

/-- The first initialization word: cascaded, edge triggered, with a fourth word. -/
def picIcw1 : UInt8 := ((0x12 : UInt8) &&& ~~~0x02 &&& ~~~0x08) ||| 0x01

/-- `i86_pic_setintmask`. -/
def i86PicSetintmask (mask : UInt16) : List Outb :=
  [⟨pic1Data, (mask &&& 0xff).toUInt8⟩, ⟨pic2Data, (mask >>> 8).toUInt8⟩]

/-- `i86_pic_remap`. -/
def i86PicRemap (pic1Vecoffset pic2Vecoffset : UInt8) (mask : UInt16) : List Outb :=
  [⟨pic1Command, picIcw1⟩, ⟨pic2Command, picIcw1⟩,
    ⟨pic1Data, pic1Vecoffset⟩, ⟨pic2Data, pic2Vecoffset⟩,
    ⟨pic1Data, 0x04⟩, ⟨pic2Data, 0x02⟩,
    ⟨pic1Data, 0x01⟩, ⟨pic2Data, 0x01⟩] ++ i86PicSetintmask mask

/-- The word a controller takes a data byte for. -/
inductive PicPhase where
  | icw2
  | icw3
  | icw4
  | mask
deriving DecidableEq, Repr

/-- A controller: the vector of its first interrupt, its mask, and where it is in its
initialization. -/
structure Pic where
  vecoffset : UInt8
  intmask : UInt8
  phase : PicPhase
  single : Bool
  withIcw4 : Bool
deriving DecidableEq, Repr

namespace Pic

/-- A byte at the command port: the start of an initialization, if its bit 4 is set. -/
def command (value : UInt8) (pic : Pic) : Pic :=
  if value &&& 0x10 = 0 then pic
  else
    { pic with
      intmask := 0
      phase := .icw2
      single := value &&& 0x02 != 0
      withIcw4 := value &&& 0x01 != 0 }

/-- A byte at the data port. The three low bits of a vector are those of the
interrupt, and a controller without another above or below it has no third word. -/
def data (value : UInt8) (pic : Pic) : Pic :=
  let beforeIcw4 : PicPhase := if pic.withIcw4 then .icw4 else .mask
  match pic.phase with
  | .icw2 =>
      { pic with
        vecoffset := value &&& 0xf8
        phase := if pic.single then beforeIcw4 else .icw3 }
  | .icw3 => { pic with phase := beforeIcw4 }
  | .icw4 => { pic with phase := .mask }
  | .mask => { pic with intmask := value }

end Pic

/-- The controllers: `pic1` takes the interrupts 0 to 7, `pic2` the others. -/
structure Pics where
  pic1 : Pic
  pic2 : Pic
deriving DecidableEq, Repr

namespace Pics

/-- A byte at a port. -/
def outb (write : Outb) (pics : Pics) : Pics :=
  if write.port = pic1Command then { pics with pic1 := pics.pic1.command write.value }
  else if write.port = pic1Data then { pics with pic1 := pics.pic1.data write.value }
  else if write.port = pic2Command then { pics with pic2 := pics.pic2.command write.value }
  else if write.port = pic2Data then { pics with pic2 := pics.pic2.data write.value }
  else pics

/-- Bytes one after the other. -/
def outbs (writes : List Outb) (pics : Pics) : Pics :=
  writes.foldl (fun pics write => pics.outb write) pics

/-- The vector at which an interrupt is delivered. -/
def vector (irq : Irq) (pics : Pics) : UInt8 :=
  if irq.val < 8 then pics.pic1.vecoffset + UInt8.ofNat irq.val
  else pics.pic2.vecoffset + UInt8.ofNat (irq.val - 8)

/-- The command port of the controller an interrupt comes from. -/
def controllerCommand (irq : Irq) : UInt16 := if irq.val < 8 then pic1Command else pic2Command

/-- From any state, the controllers deliver at the offsets they are remapped to. -/
theorem remap_vector (pic1Vecoffset pic2Vecoffset : UInt8) (mask : UInt16) (pics : Pics)
    (irq : Irq) :
    (pics.outbs (i86PicRemap pic1Vecoffset pic2Vecoffset mask)).vector irq =
      if irq.val < 8 then (pic1Vecoffset &&& 0xf8) + UInt8.ofNat irq.val
      else (pic2Vecoffset &&& 0xf8) + UInt8.ofNat (irq.val - 8) := by
  rfl

end Pics

end Bootloader.Arch
