import Bootloader.Std.CpuRules

/-!
# Programs of several blocks

A program goes from block to block as its jumps lead, until one leads out of it. `Leaves.cons`
goes through one block; the blocks of a loop are gone through by induction.
-/

namespace Bootloader.Std

namespace CodeBlock

/-- Run a program from where the last jump went, until one goes somewhere else. -/
def follow (firmware : Firmware) (program : List CodeBlock) : Nat → Cpu → Option Cpu
  | 0, _ => none
  | turns + 1, cpu =>
      match program.find? fun block => block.start = cpu.ip with
      | none => some cpu
      | some block => block.run firmware cpu >>= follow firmware program turns

variable {firmware : Firmware} {program : List CodeBlock} {block : CodeBlock} {cpu : Cpu}
  {Post Middle : Cpu → Prop}

/-- A program runs until it is left, and what it leaves has a property. -/
def Leaves (firmware : Firmware) (program : List CodeBlock) (cpu : Cpu) (Post : Cpu → Prop) :
    Prop :=
  ∃ turns after, follow firmware program turns cpu = some after ∧ Post after

theorem Leaves.nil (outside : ∀ block ∈ program, block.start ≠ cpu.ip) (holds : Post cpu) :
    Leaves firmware program cpu Post := by
  have nothing : program.find? (fun block => block.start = cpu.ip) = none := by
    rw [List.find?_eq_none]
    exact fun block member => by simpa using outside block member
  refine ⟨1, cpu, ?_, holds⟩
  rw [follow, nothing]

/-- The block at a label is found, where no label stands twice. -/
theorem find?_start (labels : (program.map start).Nodup) (member : block ∈ program) :
    program.find? (fun other => other.start = block.start) = some block := by
  induction program with
  | nil => cases member
  | cons first rest inductionHypothesis =>
      rw [List.map_cons, List.nodup_cons] at labels
      rw [List.find?_cons]
      rcases List.mem_cons.mp member with rfl | behind
      · rw [decide_eq_true rfl]
      · have differs : first.start ≠ block.start := by
          intro same
          exact labels.1 (same ▸ List.mem_map_of_mem behind)
        rw [decide_eq_false differs]
        exact inductionHypothesis labels.2 behind

/-- A block that is led to and still in place, and what comes behind it. -/
theorem Leaves.cons (labels : (program.map start).Nodup) (member : block ∈ program)
    (led : cpu.ip = block.start) (intact : block.intact cpu.memory = true)
    (leads : Leads firmware block.assembled block.instructions cpu Middle)
    (more : ∀ middle, Middle middle → Leaves firmware program middle Post) :
    Leaves firmware program cpu Post := by
  obtain ⟨middle, ran, holds⟩ := leads
  obtain ⟨turns, after, more, post⟩ := more middle holds
  refine ⟨turns + 1, after, ?_, post⟩
  have found := find?_start labels member
  rw [← led] at found
  have one : block.run firmware cpu = some middle := by rw [run, if_pos ⟨led, intact⟩, ran]
  rw [follow, found]
  change block.run firmware cpu >>= _ = _
  rw [one, Option.bind_eq_bind, Option.bind_some, more]

end CodeBlock

namespace Instruction

variable {firmware : Firmware} {cpu : Cpu} {width : Width} {place : Place} {address : Nat}

/-- An interrupt in real mode. -/
theorem execute_intImmediate {number : UInt8} (mode : cpu.protectedMode = false) :
    (intImmediate number).execute firmware cpu = some (firmware number cpu) := by
  change (if cpu.protectedMode then _ else some (firmware number cpu)) = _
  rw [if_neg (by rw [mode]; decide)]

theorem execute_storeImmediate {value : UInt32} (found : cpu.address place width.bytes = some address) :
    (storeImmediate width place value).execute firmware cpu =
      some (cpu.setMemory (cpu.memory.storeLE address width.bytes value.toNat)) := by
  change cpu.write place width.bytes _ = _
  rw [Cpu.write, found, Option.map_some]

/-- A halt for good. -/
theorem execute_hlt {here : UInt32} (off : cpu.flags &&& Flag.interrupt.mask = 0) :
    (hlt here).execute firmware cpu = some (cpu.setIp here) :=
  if_pos off

theorem execute_jumpIf_clear {flag : Flag} {target next : UInt32}
    (clear : cpu.flags &&& flag.mask = 0) :
    (jumpIf flag target next).execute firmware cpu = some (cpu.setIp next) := by
  change some (cpu.setIp (if _ then _ else _)) = _
  rw [if_pos clear]

theorem execute_jumpIf_set {flag : Flag} {target next : UInt32}
    (set : cpu.flags &&& flag.mask ≠ 0) :
    (jumpIf flag target next).execute firmware cpu = some (cpu.setIp target) := by
  change some (cpu.setIp (if _ then _ else _)) = _
  rw [if_neg set]

/-- A byte of a string, read upwards. -/
theorem loadByte_eq (up : cpu.flags &&& Flag.direction.mask = 0)
    (from' : (cpu.segment .ds).linear (cpu.codeWidth.take (cpu.register .esi)) 1 = some address) :
    loadByte cpu = some ((cpu.setByte .al (cpu.memory address)).set cpu.codeWidth .esi
      (cpu.codeWidth.take (cpu.register .esi) + 1)) := by
  simp only [loadByte, if_pos up, from', Option.map_some]

end Instruction

end Bootloader.Std
