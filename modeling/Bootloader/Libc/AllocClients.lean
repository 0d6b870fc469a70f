import Bootloader.Libc.AllocMap

/-!
# The heap as its clients see it

A client holds pointers with a number of bytes behind each, and writes nowhere else in
the heap. `Lives.malloc`, `Lives.free` and `Lives.store` are all it has to know: which
pointers are live after a call, and that the bytes behind the others are what they were.
-/

namespace Bootloader.Libc

open Bootloader.Std Bootloader.Std.BlockList

/-- A heap in its area, with the map of its live pointers. -/
structure Lives (area : HeapArea) (heap : Heap) (live : UInt32 → Option UInt32) : Prop where
  represents : ∃ blocks, Represents area heap blocks
  abstracts : Abstracts heap live

/-- The bytes behind live pointers are the same in two memories. -/
def Preserves (live : UInt32 → Option UInt32) (memory other : Memory) : Prop :=
  ∀ ptr capacity, live ptr = some capacity →
    Memory.AgreeOn ptr.toNat (ptr.toNat + capacity.toNat) memory other

section Pointers

variable {live : UInt32 → Option UInt32} {ptr other capacity amount : UInt32}

/-- A live pointer is none that is not. -/
theorem live_ne (fresh : live ptr = none) (holds : live other = some amount) : other ≠ ptr := by
  rintro rfl
  rw [fresh] at holds
  cases holds

/-- A live pointer stays live when another one becomes so. -/
theorem live_update (fresh : live ptr = none) (holds : live other = some amount) :
    Function.update live ptr (some capacity) other = some amount := by
  rwa [Function.update_of_ne (live_ne fresh holds)]

/-- What is live once a pointer is not was live before. -/
theorem live_of_erased (holds : Function.update live ptr none other = some amount) :
    other ≠ ptr ∧ live other = some amount := by
  by_cases same : other = ptr
  · rw [same, Function.update_self] at holds
    cases holds
  · rw [Function.update_of_ne same] at holds
    exact ⟨same, holds⟩

end Pointers

namespace Preserves

variable {live : UInt32 → Option UInt32} {first second third : Memory}

theorem trans (preserves : Preserves live first second) (further : Preserves live second third) :
    Preserves live first third := fun ptr capacity granted =>
  (preserves ptr capacity granted).trans (further ptr capacity granted)

/-- What is preserved with one more live pointer is preserved without it. -/
theorem of_update {ptr capacity : UInt32} (fresh : live ptr = none)
    (preserves : Preserves (Function.update live ptr (some capacity)) first second) :
    Preserves live first second := fun other amount granted =>
  preserves other amount (live_update fresh granted)

/-- What is preserved is preserved once a pointer is not live any more. -/
theorem of_erased {ptr : UInt32} (preserves : Preserves live first second) :
    Preserves (Function.update live ptr none) first second := fun other amount granted =>
  preserves other amount (live_of_erased granted).2

end Preserves

section Blocks

variable {area : HeapArea} {heap : Heap} {blocks : List Block} {block other : Block}
  {address : Nat}

/-- Two blocks of a heap do not overlap. -/
theorem Represents.separate (represents : Represents area heap blocks) (member : block ∈ blocks)
    (otherMember : other ∈ blocks) (different : other ≠ block) :
    other.finish headerWidth ≤ block.start ∨ block.finish headerWidth ≤ other.start := by
  obtain ⟨before, after, rfl⟩ := List.append_of_mem member
  obtain ⟨_, below, above, _, _⟩ := represents.bounds
  rcases List.mem_append.mp otherMember with earlier | here
  · exact Or.inl (below other earlier)
  · rcases List.mem_cons.mp here with same | later
    · exact absurd same different
    · exact Or.inr (above other later)

/-- No header lies in the payload of a block. -/
theorem Represents.payload_headers (represents : Represents area heap blocks)
    (member : block ∈ blocks) (low : block.start + 12 ≤ address)
    (high : address < block.start + 12 + block.size) (otherMember : other ∈ blocks) :
    address < other.start ∨ other.start + 12 ≤ address := by
  by_cases same : other = block
  · rw [same]
    exact Or.inr low
  · have apart := represents.separate member otherMember same
    simp only [finish_headerWidth] at apart
    omega

end Blocks

namespace Lives

variable {area : HeapArea} {heap : Heap} {live : UInt32 → Option UInt32}
  {ptr other capacity amount : UInt32}

/-- The blocks of a heap, those in use being the live ones. -/
theorem granted (lives : Lives area heap live) :
    ∃ blocks, Represents area heap blocks ∧ Grants (inUse blocks) live := by
  obtain ⟨blocks, represents⟩ := lives.represents
  exact ⟨blocks, represents, (abstracts_iff represents).mp lives.abstracts⟩

/-- What is behind a live pointer lies in the heap. -/
theorem inside (lives : Lives area heap live) (holds : live ptr = some capacity) :
    area.start.toNat + 12 ≤ ptr.toNat ∧
      ptr.toNat + capacity.toNat ≤ area.start.toNat + 4096 := by
  obtain ⟨blocks, represents, grants⟩ := lives.granted
  obtain ⟨block, member, payload, size⟩ := (grants ptr capacity).mp holds
  have within := represents.layout.within (List.mem_of_mem_filter member)
  simp only [finish_headerWidth] at within
  omega

theorem ne_zero (lives : Lives area heap live) (holds : live ptr = some capacity) : ptr ≠ 0 := by
  have inside := (lives.inside holds).1
  exact toNat_pos_iff.mp (by omega)

/-- What is behind one live pointer is apart from what is behind another. -/
theorem apart (lives : Lives area heap live) (holds : live ptr = some capacity)
    (otherHolds : live other = some amount) (different : other ≠ ptr) :
    other.toNat + amount.toNat ≤ ptr.toNat ∨ ptr.toNat + capacity.toNat ≤ other.toNat := by
  obtain ⟨blocks, represents, grants⟩ := lives.granted
  obtain ⟨block, member, payload, size⟩ := (grants ptr capacity).mp holds
  obtain ⟨block', member', payload', size'⟩ := (grants other amount).mp otherHolds
  have distinct : block' ≠ block := by
    rintro rfl
    exact different (UInt32.toNat_inj.mp (payload'.trans payload.symm))
  have separate := represents.separate (List.mem_of_mem_filter member)
    (List.mem_of_mem_filter member') distinct
  simp only [finish_headerWidth] at separate
  omega

/-- `heap_init` leaves no pointer live. -/
theorem init (area : HeapArea) (memory : Memory) :
    Lives area (heapInit area.start memory) fun _ => none where
  represents := ⟨_, heapInit_represents area memory⟩
  abstracts := (abstracts_iff (heapInit_represents area memory)).mpr fun ptr capacity => by
    simp [inUse]

/-- Stores behind live pointers, or outside the heap, change no pointer. -/
theorem store {after : Heap} (lives : Lives area heap live)
    (sameList : after.heapList = heap.heapList)
    (frame : ∀ address, area.start.toNat ≤ address → address < area.start.toNat + 4096 →
      (∀ ptr capacity, live ptr = some capacity →
        address < ptr.toNat ∨ ptr.toNat + capacity.toNat ≤ address) →
      after.memory address = heap.memory address) :
    Lives area after live := by
  obtain ⟨blocks, represents, grants⟩ := lives.granted
  have represents' : Represents area after blocks := by
    refine represents.congr sameList fun block member address first last => ?_
    have within := represents.layout.within member
    simp only [finish_headerWidth] at within
    refine frame address (by omega) (by omega) fun ptr capacity holds => ?_
    obtain ⟨other, otherMember, payload, size⟩ := (grants ptr capacity).mp holds
    by_cases same : other = block
    · subst same
      omega
    · have apart := represents.separate member (List.mem_of_mem_filter otherMember) same
      simp only [finish_headerWidth] at apart
      omega
  exact ⟨⟨blocks, represents'⟩, (abstracts_iff represents').mpr grants⟩

/-- `malloc` finds no room, or makes one more pointer live. -/
theorem malloc (lives : Lives area heap live) (size : UInt32) :
    Libc.malloc size heap = .returned 0 heap ∨
      ∃ ptr capacity after, Libc.malloc size heap = .returned ptr after ∧ live ptr = none ∧
        size ≤ capacity ∧ Lives area after (Function.update live ptr (some capacity)) ∧
        Preserves live heap.memory after.memory := by
  obtain ⟨blocks, represents, grants⟩ := lives.granted
  obtain ⟨nodes, linked, _⟩ := represents.linked
  cases search : blocks.find? (fits size.toNat) with
  | none =>
      have unfit := List.find?_eq_none.mp search
      exact Or.inl (malloc_none represents fun block member =>
        Bool.eq_false_iff.mpr (unfit block member))
  | some block =>
      obtain ⟨fit, before, after, rfl, unfit⟩ := List.find?_eq_some_iff_append.mp search
      have passed : ∀ earlier ∈ before, fits size.toNat earlier = false :=
        fun earlier member => by simpa using unfit earlier member
      obtain ⟨unused, room⟩ := fits_iff.mp fit
      obtain ⟨node, start, returned⟩ := malloc_allocates represents passed fit
      have represents' := allocateNode_represents represents start room
      rcases malloc_refines linked represents lives.abstracts size with ⟨failed, _⟩ |
        ⟨ptr, capacity, final, succeeded, _, _, fresh, enough, abstracts⟩
      · rw [returned] at failed
        have payload := toNat_payload represents (List.mem_append_right _ List.mem_cons_self) start
        rw [(Outcome.returned.inj failed).1, UInt32.toNat_zero] at payload
        omega
      · rw [returned] at succeeded
        cases succeeded
        refine Or.inr ⟨_, capacity, _, returned, fresh, enough, ⟨⟨_, represents'⟩, abstracts⟩,
          fun other amount holds address low high => ?_⟩
        obtain ⟨held, member, payload, amountIs⟩ := (grants other amount).mp holds
        obtain ⟨inList, used⟩ := List.mem_filter.mp member
        have different : held ≠ block := by
          rintro rfl
          rw [unused] at used
          cases used
        have apart := represents.separate (List.mem_append_right _ List.mem_cons_self) inList
          different
        simp only [finish_headerWidth] at apart
        exact (allocateNode_outside represents start room
          (by simp only [finish_headerWidth]; omega)).symm

/-- `free` of a live pointer takes it away. -/
theorem free (lives : Lives area heap live) (holds : live ptr = some capacity) :
    ∃ after, Libc.free ptr heap = .returned () after ∧
      Lives area after (Function.update live ptr none) ∧
      Preserves live heap.memory after.memory := by
  obtain ⟨blocks, represents, grants⟩ := lives.granted
  obtain ⟨block, member, payload, _⟩ := (grants ptr capacity).mp holds
  obtain ⟨inList, used⟩ := List.mem_filter.mp member
  obtain ⟨before, after, rfl⟩ := List.append_of_mem inList
  obtain ⟨node, lastNode, start, previous, returned⟩ := free_releases represents payload used
  have represents' := releaseNode_represents represents start previous
  obtain ⟨final, frees, abstracts⟩ := free_refines represents lives.abstracts holds
  rw [returned] at frees
  cases frees
  refine ⟨_, returned, ⟨⟨_, represents'⟩, abstracts⟩, fun other amount holds address low high => ?_⟩
  obtain ⟨held, heldMember, heldPayload, amountIs⟩ := (grants other amount).mp holds
  exact (releaseNode_outside start previous fun header headerMember =>
    represents.payload_headers (List.mem_of_mem_filter heldMember) (by omega) (by omega)
      headerMember).symm

end Lives

end Bootloader.Libc
