import Bootloader.Std.Word

/-!
# The size of upper memory

`e801_detect_upper_mem` asks the BIOS for the memory below and above 16 MB, and converts the
second number from blocks of 64 KB to kilobytes where it stands, in sixteen bits.
`upper_memory_exact_iff` says how much memory these have room for.
-/

namespace Bootloader.Arch

/-- What `int 0x15` leaves of the registers and of the flags. -/
structure E801Reply where
  ax : UInt16
  bx : UInt16
  cx : UInt16
  dx : UInt16
  cf : Bool
deriving DecidableEq, Repr

/-- A BIOS by what it is given in AX. -/
abbrev E801Bios : Type := UInt16 → E801Reply

/-- `e801_upper_mem_t`. -/
structure E801UpperMem where
  _1MBTo16MB : UInt16
  _16MBTo4GB : UInt16
deriving DecidableEq, Repr

/-- The messages of `e801_detect_upper_mem`, by the code in AH. -/
def e801Message (reply : E801Reply) : List String :=
  if reply.ax >>> 8 = 0x86 then ["int 0x15, ax=0xE801: unsupported function\r\n"]
  else if reply.ax >>> 8 = 0x80 then ["int 0x15, ax=0xE801: invalid command\r\n"]
  else []

/-- `e801_detect_upper_mem`: whether it succeeded, what it leaves at `mem_properties`, and what
it prints. -/
def e801DetectUpperMem (bios : E801Bios) (memProperties : E801UpperMem) :
    Bool × E801UpperMem × List String :=
  let regs := bios 0xE801
  if regs.cf then (false, memProperties, e801Message regs)
  else
    let memProperties : E801UpperMem :=
      if regs.ax ≠ 0 ∨ regs.bx ≠ 0 then { _1MBTo16MB := regs.ax, _16MBTo4GB := regs.bx }
      else { _1MBTo16MB := regs.cx, _16MBTo4GB := regs.dx }
    let succeeded := decide (memProperties._1MBTo16MB ≤ 0x3C00)
    (succeeded, { memProperties with _16MBTo4GB := memProperties._16MBTo4GB * 64 }, [])

/-- The registers that a reply uses: the first two, unless both are zero. -/
def E801Reply.reported (reply : E801Reply) : UInt16 × UInt16 :=
  if reply.ax ≠ 0 ∨ reply.bx ≠ 0 then (reply.ax, reply.bx) else (reply.cx, reply.dx)

/-- The kilobytes between 1 MB and 16 MB that a reply reports. -/
def E801Reply.kilobytes (reply : E801Reply) : UInt16 := reply.reported.1

/-- The blocks of 64 KB between 16 MB and 4 GB that it reports. -/
def E801Reply.blocks (reply : E801Reply) : UInt16 := reply.reported.2

/-- The memory above 16 MB is stored in kilobytes, and the call succeeds when there is no more
below than there can be. -/
def UpperMemoryExact (bios : E801Bios) (memProperties : E801UpperMem) : Prop :=
  let (succeeded, stored, _) := e801DetectUpperMem bios memProperties
  stored._16MBTo4GB.toNat = 64 * (bios 0xE801).blocks.toNat ∧
    (succeeded = true ↔ (bios 0xE801).kilobytes ≤ 0x3C00)

section Replies

variable {bios : E801Bios} {memProperties : E801UpperMem}

/-- What is stored of a reply without the carry flag. -/
theorem e801DetectUpperMem_clear (clear : (bios 0xE801).cf = false) :
    e801DetectUpperMem bios memProperties =
      (decide ((bios 0xE801).kilobytes ≤ 0x3C00),
        { _1MBTo16MB := (bios 0xE801).kilobytes, _16MBTo4GB := (bios 0xE801).blocks * 64 },
        []) := by
  simp only [e801DetectUpperMem, clear, Bool.false_eq_true, if_false, E801Reply.kilobytes,
    E801Reply.blocks, E801Reply.reported]
  split <;> rfl

/-- Sixteen bits of kilobytes are enough for less than 64 MB. -/
theorem upper_memory_exact_iff (clear : (bios 0xE801).cf = false)
    (memProperties : E801UpperMem) :
    UpperMemoryExact bios memProperties ↔ (bios 0xE801).blocks.toNat < 1024 := by
  have unit : (64 : UInt16).toNat = 64 := rfl
  rw [UpperMemoryExact, e801DetectUpperMem_clear clear]
  simp only [UInt16.toNat_mul, unit, decide_eq_true_eq, and_true]
  omega

/-- A BIOS that reports 15 MB below 16 MB and these blocks above, as configured memory. -/
def configuredBios (blocks : UInt16) : E801Bios := fun _ =>
  { ax := 0, bx := 0, cx := 0x3C00, dx := blocks, cf := false }

theorem upper_memory_exact_iff_configured :
    UpperMemoryExact (configuredBios 0x300) ⟨0, 0⟩ ↔
      (configuredBios 0x300 0xE801).blocks.toNat < 1024 :=
  upper_memory_exact_iff rfl ⟨0, 0⟩

/-- With 64 MB above 16 MB, no memory at all is stored. -/
theorem upper_memory_wraps : ¬ UpperMemoryExact (configuredBios 0x400) ⟨0, 0⟩ := by
  rintro ⟨stored, _⟩
  exact absurd stored (by decide)

end Replies

end Bootloader.Arch
