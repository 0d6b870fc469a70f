import Bootloader.Libc.Alloc
import Bootloader.Std.BlockList

/-!
# The heap as a block list

`Represents` relates the bytes of a heap to the block list they stand for: the
nodes linked from `heap_list` are the headers of the blocks, in address order and
inside the heap area. `malloc_found`, `malloc_none`, `free_found`, `free_absent`
and `free_twice` say what the allocator does to that list and to the other bytes
of the memory; nothing above this module looks at a header again.
-/

namespace Bootloader.Libc

open Bootloader.Std Bootloader.Std.BlockList

/-- Where the linker put the heap: an address that is not NULL with
`HEAP_MAX_SIZE` bytes behind it, so that also the address just after the heap is
one of the address space. -/
structure HeapArea where
  start : UInt32
  nonNull : start ≠ 0
  fits : start.toNat + 4096 < 2 ^ 32

/-- The width of a node's header. -/
abbrev headerWidth : Nat := 12

@[simp] theorem finish_headerWidth (block : Block) :
    block.finish headerWidth = block.start + 12 + block.size := rfl

/-- The node at `node` and the ones linked behind it, up to `stop`, are the
headers of these blocks. -/
def Segment (heap : Heap) : UInt32 → List Block → UInt32 → Prop
  | node, [], stop => node = stop
  | node, block :: rest, stop =>
      node ≠ 0 ∧ node.toNat = block.start ∧ (heap.node node).size.toNat = block.size ∧
        (heap.node node).used = block.used ∧ Segment heap (heap.node node).next rest stop

/-- The heap's bytes stand for this block list. -/
structure Represents (area : HeapArea) (heap : Heap) (blocks : List Block) : Prop where
  list : heap.heapList = area.start
  segment : Segment heap area.start blocks 0
  layout : Layout headerWidth area.start.toNat (area.start.toNat + 4096) blocks

section Segments

variable {heap other : Heap} {node stop : UInt32} {blocks : List Block}

theorem segment_append {before after : List Block} :
    Segment heap node (before ++ after) stop ↔
      ∃ middle, Segment heap node before middle ∧ Segment heap middle after stop := by
  induction before generalizing node with
  | nil =>
      constructor
      · exact fun segment => ⟨node, rfl, segment⟩
      · rintro ⟨_, rfl, segment⟩
        exact segment
  | cons block rest inductionHypothesis =>
      simp only [List.cons_append, Segment, inductionHypothesis]
      constructor
      · rintro ⟨valid, start, size, used, middle, first, second⟩
        exact ⟨middle, ⟨valid, start, size, used, first⟩, second⟩
      · rintro ⟨middle, ⟨valid, start, size, used, first⟩, second⟩
        exact ⟨valid, start, size, used, middle, first, second⟩

/-- A segment is determined by the headers of its blocks. -/
theorem Segment.congr (segment : Segment heap node blocks stop)
    (agree : ∀ block ∈ blocks,
      Memory.AgreeOn block.start (block.start + 12) heap.memory other.memory) :
    Segment other node blocks stop := by
  induction blocks generalizing node with
  | nil => exact segment
  | cons block rest inductionHypothesis =>
      obtain ⟨valid, start, size, used, later⟩ := segment
      have same : heap.node node = other.node node := by
        apply Heap.node_congr
        rw [start]
        exact agree block List.mem_cons_self
      have tail := inductionHypothesis later fun next member =>
        agree next (List.mem_cons_of_mem _ member)
      rw [same] at size used tail
      exact ⟨valid, start, size, used, tail⟩

end Segments

namespace Represents

variable {area : HeapArea} {heap other : Heap} {before after blocks : List Block} {block : Block}

/-- A walk of the list reaches every block at the node its header is at. -/
theorem reach (represents : Represents area heap (before ++ block :: after)) :
    ∃ node, Segment heap area.start before node ∧ node ≠ 0 ∧ node.toNat = block.start ∧
      (heap.node node).size.toNat = block.size ∧ (heap.node node).used = block.used ∧
      Segment heap (heap.node node).next after 0 := by
  obtain ⟨node, first, valid, start, size, used, second⟩ :=
    segment_append.mp represents.segment
  exact ⟨node, first, valid, start, size, used, second⟩

/-- The fields of the node at a block's start are those of the block. -/
theorem node_of {node : UInt32} (represents : Represents area heap blocks)
    (member : block ∈ blocks) (start : node.toNat = block.start) :
    (heap.node node).size.toNat = block.size ∧ (heap.node node).used = block.used := by
  obtain ⟨before, after, rfl⟩ := List.append_of_mem member
  obtain ⟨found, _, _, foundStart, size, used, _⟩ := represents.reach
  obtain rfl : found = node := UInt32.toNat_inj.mp (foundStart.trans start.symm)
  exact ⟨size, used⟩

/-- Where a block lies among the others and in the heap area. -/
theorem bounds (represents : Represents area heap (before ++ block :: after)) :
    area.start.toNat ≤ block.start ∧
      (∀ earlier ∈ before, earlier.finish headerWidth ≤ block.start) ∧
      (∀ later ∈ after, block.finish headerWidth ≤ later.start) ∧
      block.finish headerWidth ≤ ceiling (area.start.toNat + 4096) after ∧
      ceiling (area.start.toNat + 4096) after ≤ area.start.toNat + 4096 := by
  have ordered := List.pairwise_append.mp represents.layout.pairwise
  have parts := arranged_append.mp represents.layout
  refine ⟨(represents.layout.within (by simp)).1, fun earlier member =>
    ordered.2.2 earlier member block List.mem_cons_self, fun later member =>
    (List.pairwise_cons.mp ordered.2.1).1 later member, arranged_ceiling parts.2, ?_⟩
  cases after with
  | nil => exact Nat.le_refl _
  | cons next rest =>
      have inside := represents.layout.within (show next ∈ before ++ block :: next :: rest by simp)
      simp only [finish_headerWidth] at inside
      simp only [ceiling]
      omega

/-- Change the blocks between two parts of the list. Memory may change only
between the end of the first part and the start of the last one. -/
theorem window {replaced window : List Block} {entry exit : UInt32} {low high : Nat}
    (represents : Represents area heap (before ++ window ++ after))
    (sameList : other.heapList = heap.heapList)
    (below : ∀ earlier ∈ before, earlier.finish headerWidth ≤ low)
    (above : ∀ later ∈ after, high ≤ later.start)
    (frame : ∀ address, address < low ∨ high ≤ address →
      other.memory address = heap.memory address)
    (first : Segment heap area.start before entry) (last : Segment heap exit after 0)
    (middle : Segment other entry replaced exit)
    (layout : Layout headerWidth area.start.toNat (area.start.toNat + 4096)
      (before ++ replaced ++ after)) :
    Represents area other (before ++ replaced ++ after) where
  list := sameList.trans represents.list
  layout := layout
  segment := by
    refine segment_append.mpr ⟨exit, segment_append.mpr ⟨entry, ?_, middle⟩, ?_⟩
    · refine first.congr fun earlier member address _ inside => (frame address ?_).symm
      have ends := below earlier member
      simp only [finish_headerWidth] at ends
      omega
    · refine last.congr fun later member address inside _ => (frame address ?_).symm
      have starts := above later member
      omega

/-- Storing a node's `used` flag marks its block. -/
theorem mark {node : UInt32} (represents : Represents area heap (before ++ block :: after))
    (start : node.toNat = block.start) (used : Bool) :
    Represents area (heap.setUsed node used)
      (before ++ { block with used := used } :: after) := by
  obtain ⟨found, first, valid, foundStart, size, _, last⟩ := represents.reach
  obtain rfl : found = node := UInt32.toNat_inj.mp (foundStart.trans start.symm)
  obtain ⟨_, below, above, _, _⟩ := represents.bounds
  have here : Represents area heap (before ++ [block] ++ after) := by simpa using represents
  have target : before ++ { block with used := used } :: after =
      before ++ [{ block with used := used }] ++ after := by simp
  rw [target]
  refine here.window rfl below (fun later member => ?_)
    (fun address outside => Heap.setUsed_outside (by rw [start]; exact outside)) first last ?_ ?_
  · have apart := above later member
    simp only [finish_headerWidth] at apart
    omega
  · exact ⟨valid, start, by simpa using size, by simp, by simp [Segment]⟩
  · exact target ▸ arranged_mark used represents.layout

/-- Absorbing a free node into the free node in front of it merges their blocks. -/
theorem absorb {node nextNode : UInt32} {next : Block}
    (represents : Represents area heap (before ++ block :: next :: after))
    (start : node.toNat = block.start) (nextStart : nextNode.toNat = next.start)
    (free : block.used = false) (nextFree : next.used = false) :
    Represents area (absorbNext node nextNode heap)
      (before ++ fuse headerWidth block (next :: after)) := by
  obtain ⟨found, first, valid, foundStart, size, used, linked⟩ := represents.reach
  obtain rfl : found = node := UInt32.toNat_inj.mp (foundStart.trans start.symm)
  obtain ⟨_, nextNodeStart, nextSize, _, last⟩ := linked
  obtain ⟨_, below, above, _, top⟩ := represents.bounds
  have nextIs : (heap.node found).next = nextNode :=
    UInt32.toNat_inj.mp (nextNodeStart.trans nextStart.symm)
  rw [nextIs] at nextSize last
  have nextFinish := (represents.layout.within (show next ∈ before ++ block :: next :: after by
    simp)).2
  have order := above next List.mem_cons_self
  have fits := area.fits
  simp only [finish_headerWidth] at order nextFinish
  have apart : Heap.Apart found nextNode := Or.inl (by omega)
  have here : Represents area heap (before ++ [block, next] ++ after) := by
    simpa using represents
  have target : before ++ fuse headerWidth block (next :: after) =
      before ++ [⟨block.start, block.size + headerWidth + next.size, false⟩] ++ after := by
    simp [fuse, free, nextFree]
  have frame : ∀ address, address < block.start ∨ block.start + 12 ≤ address →
      (absorbNext found nextNode heap).memory address = heap.memory address :=
    fun address outside => absorbNext_outside (by rw [start]; exact outside)
  rw [target]
  refine here.window rfl below (fun later member => ?_) frame first last ?_ ?_
  · have apart := above later (List.mem_cons_of_mem _ member)
    simp only [finish_headerWidth] at apart
    omega
  · simp only [Segment, absorbNext, Heap.node_setSize_same, Heap.node_setNext_same,
      Heap.node_setNext_apart apart]
    refine ⟨valid, start, ?_, used.trans free, trivial⟩
    rw [UInt32.toNat_add, UInt32.toNat_add, size, nextSize]
    simp only [toNat_sizeofHeapNode, headerWidth]
    omega
  · have merged := arranged_fuse (fun finish start width stop first second => by omega)
      represents.layout
    rwa [target] at merged

end Represents

/-- The size `malloc` gives the free rest of a split block: up to the end of the
heap behind the last block, and otherwise whole nodes up to the next one. -/
def remainder (high : Nat) (block : Block) (size : Nat) : List Block → Nat
  | [] => high - (block.start + 12 + size + 12)
  | next :: _ => ((next.start - (block.start + 12 + size)) / 12 - 1) * 12

/-- The free rest of a split block ends at or before the next one. -/
theorem remainder_le {high size : Nat} {block : Block} {after : List Block}
    (room : size + 12 < block.size) (top : block.finish headerWidth ≤ ceiling high after) :
    block.start + 12 + size + 12 + remainder high block size after ≤ ceiling high after := by
  cases after with
  | nil =>
      simp only [finish_headerWidth, ceiling, remainder] at top ⊢
      omega
  | cons next rest =>
      simp only [finish_headerWidth, ceiling, remainder] at top ⊢
      omega

/-- The blocks after `malloc` has chosen `block`. -/
def allocated (area : HeapArea) (before : List Block) (block : Block) (after : List Block)
    (size : Nat) : List Block :=
  before ++ carve headerWidth size (remainder (area.start.toNat + 4096) block size after) block ++
    after

section Allocate

variable {area : HeapArea} {heap : Heap} {before after : List Block} {block : Block}
  {node size : UInt32}

/-- Where a block that has room for a split ends up: the addresses of both
headers, and the size of the free one. -/
theorem split_numbers (represents : Represents area heap (before ++ block :: after))
    (start : node.toNat = block.start) (room : size.toNat + 12 < block.size) :
    (node + sizeofHeapNode + size).toNat = block.start + 12 + size.toNat ∧
      (splitSize node (node + sizeofHeapNode + size) heap).toNat =
        remainder (area.start.toNat + 4096) block size.toNat after := by
  obtain ⟨found, _, _, foundStart, _, _, last⟩ := represents.reach
  obtain rfl : found = node := UInt32.toNat_inj.mp (foundStart.trans start.symm)
  obtain ⟨_, _, _, reach, top⟩ := represents.bounds
  have fits := area.fits
  simp only [finish_headerWidth] at reach
  have cut : (found + sizeofHeapNode + size).toNat = block.start + 12 + size.toNat := by
    rw [UInt32.toNat_add, UInt32.toNat_add, toNat_sizeofHeapNode]
    omega
  refine ⟨cut, ?_⟩
  cases after with
  | nil =>
      have noNext : (heap.node found).next = 0 := last
      simp only [ceiling] at reach
      have behind : (found + sizeofHeapNode + size + sizeofHeapNode).toNat =
          block.start + 12 + size.toNat + 12 := by
        rw [UInt32.toNat_add, cut, toNat_sizeofHeapNode]
        omega
      rw [splitSize, if_pos noNext, represents.list, UInt32.toNat_sub, behind,
        UInt32.toNat_add, toNat_heapMaxSize, remainder]
      omega
  | cons next rest =>
      obtain ⟨hasNext, nextStart, _⟩ := last
      simp only [ceiling] at reach top
      have apart : (found + sizeofHeapNode + size).toNat ≤ (heap.node found).next.toNat := by
        omega
      rw [splitSize, if_neg hasNext, nodeDifference_eq apart, UInt32.toNat_mul, cut, nextStart,
        toNat_sizeofHeapNode, remainder, UInt32.ofInt, UInt32.toNat_ofNat']
      omega

/-- Taking a free block changes the block list as `carve` does. -/
theorem allocateNode_represents
    (represents : Represents area heap (before ++ block :: after))
    (start : node.toNat = block.start) (fit : size.toNat ≤ block.size) :
    Represents area (allocateNode node size heap)
      (allocated area before block after size.toNat) := by
  obtain ⟨found, first, valid, foundStart, nodeSize, used, last⟩ := represents.reach
  obtain rfl : found = node := UInt32.toNat_inj.mp (foundStart.trans start.symm)
  obtain ⟨_, below, above, reach, top⟩ := represents.bounds
  have fits := area.fits
  have finish := (represents.layout.within (show block ∈ before ++ block :: after by simp)).2
  simp only [finish_headerWidth] at finish
  have sum : (size + sizeofHeapNode).toNat = size.toNat + 12 := by
    rw [UInt32.toNat_add, toNat_sizeofHeapNode]
    omega
  by_cases room : size.toNat + 12 < block.size
  · have large : (heap.node found).size > size + sizeofHeapNode := by
      rw [gt_iff_lt, UInt32.lt_iff_toNat_lt, sum, nodeSize]
      exact room
    obtain ⟨cut, restSize⟩ := split_numbers represents start room
    have apart : Heap.Apart (found + sizeofHeapNode + size) found := Or.inr (by omega)
    have frame : ∀ address, address < block.start ∨ block.finish headerWidth ≤ address →
        (splitNode found size heap).memory address = heap.memory address := by
      intro address outside
      simp only [finish_headerWidth] at outside
      exact splitNode_outside (by omega) (by omega)
    have layout : Layout headerWidth area.start.toNat (area.start.toNat + 4096)
        (allocated area before block after size.toNat) :=
      arranged_carve (fun _ => Nat.le_refl _) represents.layout
        fun enough => remainder_le enough reach
    rw [allocated, carve, if_pos room] at layout
    have here : Represents area heap (before ++ [block] ++ after) := by simpa using represents
    have split : Represents area (splitNode found size heap)
        (before ++ [⟨block.start, size.toNat, block.used⟩,
          ⟨block.start + headerWidth + size.toNat,
            remainder (area.start.toNat + 4096) block size.toNat after, false⟩] ++ after) := by
      refine here.window rfl below above frame first last ?_ ?_
      · simp only [Segment, node_splitNode apart, node_splitNode_next apart, cut, restSize]
        refine ⟨valid, start, trivial, used, ?_, trivial, trivial, trivial, trivial⟩
        intro null
        rw [null, UInt32.toNat_zero] at cut
        omega
      · simpa using arranged_mark block.used (by simpa using layout)
    rw [List.append_assoc, List.cons_append] at split
    rw [allocateNode, if_pos large, allocated, carve, if_pos room, List.append_assoc,
      List.cons_append]
    exact split.mark start true
  · have small : ¬ (heap.node found).size > size + sizeofHeapNode := by
      rw [gt_iff_lt, UInt32.lt_iff_toNat_lt, sum, nodeSize]
      exact room
    rw [allocateNode, if_neg small, allocated, carve, if_neg room]
    simpa using represents.mark start true

/-- Taking a free block changes no byte outside of it. -/
theorem allocateNode_outside {address : Nat}
    (represents : Represents area heap (before ++ block :: after))
    (start : node.toNat = block.start) (fit : size.toNat ≤ block.size)
    (outside : address < block.start ∨ block.finish headerWidth ≤ address) :
    (allocateNode node size heap).memory address = heap.memory address := by
  have nodeSize := (represents.node_of (List.mem_append_right _ List.mem_cons_self) start).1
  have finish := (represents.layout.within (show block ∈ before ++ block :: after by simp)).2
  have fits := area.fits
  simp only [finish_headerWidth] at outside finish
  have header : address < node.toNat ∨ node.toNat + 12 ≤ address := by omega
  rw [allocateNode, Heap.setUsed_outside header]
  split
  · rename_i large
    rw [gt_iff_lt, UInt32.lt_iff_toNat_lt, UInt32.toNat_add, nodeSize, toNat_sizeofHeapNode]
      at large
    have room : size.toNat + 12 < block.size := by omega
    have cut := (split_numbers represents start room).1
    exact splitNode_outside header (by omega)
  · rfl

end Allocate

section Walks

variable {area : HeapArea} {heap : Heap} {before after blocks : List Block} {block : Block}
  {node stop ptr size : UInt32}

/-- A search of the list passes over every node it does not stop at. -/
theorem loop_walk {Value : Type} {turn : UInt32 → Heap → Outcome Heap (Turn UInt32 Value)}
    {turns : Nat} (segment : Segment heap node blocks stop)
    (passes : ∀ block ∈ blocks, ∀ node : UInt32, node ≠ 0 → node.toNat = block.start →
      (heap.node node).size.toNat = block.size → (heap.node node).used = block.used →
      turn node heap = .returned (.again (heap.node node).next) heap) :
    loop turn (turns + blocks.length) node heap = loop turn turns stop heap := by
  induction blocks generalizing node with
  | nil =>
      obtain rfl : node = stop := segment
      rfl
  | cons first rest inductionHypothesis =>
      obtain ⟨valid, start, size, used, later⟩ := segment
      have here := passes first List.mem_cons_self node valid start size used
      rw [List.length_cons, ← Nat.add_assoc, loop_again here]
      exact inductionHypothesis later fun next member =>
        passes next (List.mem_cons_of_mem _ member)

/-- A list that fits into the heap area is walked in far fewer turns than there
are. -/
theorem Represents.turns (represents : Represents area heap blocks) :
    ∃ rest, walkTurns = rest + 1 + blocks.length := by
  have count := represents.layout.length_le
  simp only [headerWidth] at count
  exact ⟨walkTurns - 1 - blocks.length, by unfold walkTurns; omega⟩

theorem Represents.heapList_ne_zero (represents : Represents area heap blocks) :
    heap.heapList ≠ 0 := by
  rw [represents.list]
  exact area.nonNull

/-- Whether a request for `size` bytes can be served from a block. -/
def fits (size : Nat) (block : Block) : Bool := !block.used && size ≤ block.size

theorem fits_iff {size : Nat} :
    fits size block = true ↔ block.used = false ∧ size ≤ block.size := by
  rw [fits, Bool.and_eq_true, Bool.not_eq_true', decide_eq_true_iff]

/-- The test `malloc` makes at a node is whether its block fits the request. -/
theorem malloc_test (nodeSize : (heap.node node).size.toNat = block.size)
    (used : (heap.node node).used = block.used) :
    (!(heap.node node).used && (heap.node node).size ≥ size) = fits size.toNat block := by
  simp only [fits, used, ge_iff_le, UInt32.le_iff_toNat_le, nodeSize]

theorem mallocTurn_passes (valid : node ≠ 0) (nodeSize : (heap.node node).size.toNat = block.size)
    (used : (heap.node node).used = block.used) (unfit : fits size.toNat block = false) :
    mallocTurn size node heap = .returned (.again (heap.node node).next) heap := by
  rw [mallocTurn, if_neg valid, malloc_test nodeSize used, unfit]
  rfl

theorem mallocTurn_takes (valid : node ≠ 0) (nodeSize : (heap.node node).size.toNat = block.size)
    (used : (heap.node node).used = block.used) (fit : fits size.toNat block = true) :
    mallocTurn size node heap =
      .returned (.leave (node + sizeofHeapNode)) (allocateNode node size heap) := by
  rw [mallocTurn, if_neg valid, malloc_test nodeSize used, if_pos fit]

/-- `malloc` without a free block that is large enough. -/
theorem malloc_none (represents : Represents area heap blocks)
    (unfit : ∀ block ∈ blocks, fits size.toNat block = false) :
    malloc size heap = .returned 0 heap := by
  obtain ⟨rest, turns⟩ := represents.turns
  have passed : loop (mallocTurn size) walkTurns area.start heap =
      loop (mallocTurn size) (rest + 1) 0 heap := by
    rw [turns]
    exact loop_walk represents.segment fun block member node valid _ nodeSize used =>
      mallocTurn_passes valid nodeSize used (unfit block member)
  rw [malloc, if_neg represents.heapList_ne_zero, represents.list, passed]
  exact loop_leave (by rw [mallocTurn, if_pos rfl])

/-- `malloc` takes the first free block that is large enough. -/
theorem malloc_allocates (represents : Represents area heap (before ++ block :: after))
    (unfit : ∀ earlier ∈ before, fits size.toNat earlier = false)
    (fit : fits size.toNat block = true) :
    ∃ node, node.toNat = block.start ∧
      malloc size heap = .returned (node + sizeofHeapNode) (allocateNode node size heap) := by
  obtain ⟨node, first, valid, start, nodeSize, used, _⟩ := represents.reach
  obtain ⟨rest, turns⟩ := represents.turns
  rw [List.length_append, List.length_cons] at turns
  have passed : loop (mallocTurn size) walkTurns area.start heap =
      loop (mallocTurn size) (rest + 1 + after.length + 1) node heap := by
    rw [turns, show rest + 1 + (before.length + (after.length + 1)) =
      rest + 1 + after.length + 1 + before.length by omega]
    exact loop_walk first fun earlier member node valid _ nodeSize used =>
      mallocTurn_passes valid nodeSize used (unfit earlier member)
  refine ⟨node, start, ?_⟩
  rw [malloc, if_neg represents.heapList_ne_zero, represents.list, passed]
  exact loop_leave (mallocTurn_takes valid nodeSize used fit)

/-- What the block `malloc` takes does to the block list. -/
theorem malloc_found (represents : Represents area heap (before ++ block :: after))
    (unfit : ∀ earlier ∈ before, fits size.toNat earlier = false)
    (fit : fits size.toNat block = true) :
    ∃ node final, node.toNat = block.start + 12 ∧ malloc size heap = .returned node final ∧
      Represents area final (allocated area before block after size.toNat) := by
  obtain ⟨node, start, returned⟩ := malloc_allocates represents unfit fit
  have inside := represents.layout.within (show block ∈ before ++ block :: after by simp)
  have fitsArea := area.fits
  simp only [finish_headerWidth] at inside
  refine ⟨node + sizeofHeapNode, allocateNode node size heap, ?_, returned,
    allocateNode_represents represents start (fits_iff.mp fit).2⟩
  rw [UInt32.toNat_add, toNat_sizeofHeapNode]
  omega

end Walks

section Free

variable {area : HeapArea} {heap : Heap} {before after blocks : List Block} {block : Block}
  {node stop ptr : UInt32}

/-- The merge test of `free` on the node behind a free node. -/
theorem merge_next (represents : Represents area heap (before ++ block :: after))
    (start : node.toNat = block.start) (free : block.used = false) :
    Represents area (mergeNext node heap) (before ++ fuse headerWidth block after) := by
  obtain ⟨found, _, _, foundStart, _, _, linked⟩ := represents.reach
  obtain rfl : found = node := UInt32.toNat_inj.mp (foundStart.trans start.symm)
  rw [mergeNext]
  cases after with
  | nil =>
      have last : (heap.node found).next = 0 := linked
      simpa [last, fuse] using represents
  | cons next rest =>
      obtain ⟨valid, nextStart, _, nextUsed, _⟩ := linked
      rw [nextUsed]
      cases nextFree : next.used with
      | true => simpa [fuse, nextFree] using represents
      | false =>
          simp only [ne_eq, valid, not_false_eq_true, decide_true, Bool.not_false,
            Bool.and_self, if_true]
          exact represents.absorb start nextStart free nextFree

/-- The node before the end of a walk, NULL at the head of the list. -/
def IsPrevious (previousNode : UInt32) (blocks : List Block) : Prop :=
  match blocks.getLast? with
  | none => previousNode = 0
  | some previous => previousNode ≠ 0 ∧ previousNode.toNat = previous.start

theorem releaseNode_represents {previousNode : UInt32}
    (represents : Represents area heap (before ++ block :: after))
    (start : node.toNat = block.start) (previous : IsPrevious previousNode before) :
    Represents area (releaseNode ⟨node, previousNode⟩ heap)
      (release headerWidth before block after) := by
  have freed := represents.mark start false
  have merged := merge_next freed start rfl
  rw [releaseNode]
  rcases List.eq_nil_or_concat' before with rfl | ⟨earlier, last, rfl⟩
  · have head : previousNode = 0 := previous
    simpa [head, release_nil] using merged
  · obtain ⟨valid, lastStart⟩ : previousNode ≠ 0 ∧ previousNode.toNat = last.start := by
      simpa [IsPrevious] using previous
    rw [release_snoc]
    rw [List.append_assoc, List.singleton_append] at merged
    generalize mergeNext node (heap.setUsed node false) = middle at merged ⊢
    obtain ⟨found, _, _, foundStart, _, foundUsed, _⟩ := merged.reach
    obtain rfl : found = previousNode := UInt32.toNat_inj.mp (foundStart.trans lastStart.symm)
    obtain ⟨size, rest, shape⟩ : ∃ size rest,
        fuse headerWidth { block with used := false } after =
          ⟨block.start, size, false⟩ :: rest := head_fuse
    rw [shape] at merged ⊢
    simp only [foundUsed]
    cases lastUsed : last.used with
    | true => simpa [fuse, lastUsed] using merged
    | false =>
        simp only [ne_eq, valid, not_false_eq_true, decide_true, Bool.not_false,
          Bool.and_self, if_true]
        exact merged.absorb lastStart start lastUsed rfl

/-- The search of `free` passes over the nodes whose payload is not the pointer,
and keeps the last of them. -/
theorem free_walk (segment : Segment heap node blocks stop)
    (misses : ∀ block ∈ blocks, ∀ node : UInt32, node.toNat = block.start →
      node + sizeofHeapNode ≠ ptr) (turns : Nat) (previousNode : UInt32) :
    ∃ lastNode, loop (freeTurn ptr) (turns + blocks.length) ⟨node, previousNode⟩ heap =
        loop (freeTurn ptr) turns ⟨stop, lastNode⟩ heap ∧
      (blocks = [] → lastNode = previousNode) ∧
      (blocks ≠ [] → IsPrevious lastNode blocks) := by
  induction blocks generalizing node previousNode with
  | nil =>
      obtain rfl : node = stop := segment
      exact ⟨previousNode, rfl, fun _ => rfl, fun absurd => (absurd rfl).elim⟩
  | cons first rest inductionHypothesis =>
      obtain ⟨valid, start, size, used, later⟩ := segment
      have here : freeTurn ptr ⟨node, previousNode⟩ heap =
          .returned (.again ⟨(heap.node node).next, node⟩) heap := by
        rw [freeTurn, if_neg valid, if_neg (misses first List.mem_cons_self node start)]
      obtain ⟨lastNode, walked, empty, previous⟩ := inductionHypothesis later
        (fun next member => misses next (List.mem_cons_of_mem _ member)) node
      refine ⟨lastNode, ?_, fun absurd => (by cases absurd), fun _ => ?_⟩
      · rw [List.length_cons, ← Nat.add_assoc, loop_again here]
        exact walked
      · rcases rest with _ | ⟨second, rest⟩
        · rw [empty rfl]
          exact ⟨valid, start⟩
        · have tail := previous (by simp)
          simpa [IsPrevious, List.getLast?_cons_cons] using tail

/-- The payload of a node in the heap area does not wrap around. -/
theorem toNat_payload (represents : Represents area heap blocks) (member : block ∈ blocks)
    (start : node.toNat = block.start) :
    (node + sizeofHeapNode).toNat = block.start + 12 := by
  have inside := (represents.layout.within member).2
  have fits := area.fits
  simp only [finish_headerWidth] at inside
  rw [UInt32.toNat_add, toNat_sizeofHeapNode]
  omega

/-- The search of `free` for a pointer that is the payload of a block ends at
that block's node, with the node before it at hand. -/
theorem free_reaches (represents : Represents area heap (before ++ block :: after))
    (payload : ptr.toNat = block.start + 12) :
    ∃ node lastNode turns, node ≠ 0 ∧ node.toNat = block.start ∧ node + sizeofHeapNode = ptr ∧
      (heap.node node).used = block.used ∧ IsPrevious lastNode before ∧
      free ptr heap = loop (freeTurn ptr) (turns + 1) ⟨node, lastNode⟩ heap := by
  obtain ⟨node, first, valid, start, _, used, _⟩ := represents.reach
  obtain ⟨_, below, _, _, _⟩ := represents.bounds
  obtain ⟨rest, turns⟩ := represents.turns
  rw [List.length_append, List.length_cons] at turns
  have misses : ∀ earlier ∈ before, ∀ node : UInt32, node.toNat = earlier.start →
      node + sizeofHeapNode ≠ ptr := by
    intro earlier member other otherStart same
    have there := toNat_payload represents (List.mem_append_left _ member) otherStart
    have apart := below earlier member
    rw [same, payload] at there
    simp only [finish_headerWidth] at apart
    omega
  obtain ⟨lastNode, walked, empty, inhabited⟩ :=
    free_walk first misses (rest + 1 + after.length + 1) 0
  refine ⟨node, lastNode, rest + 1 + after.length, valid, start, ?_, used, ?_, ?_⟩
  · have here := toNat_payload represents (List.mem_append_right _ List.mem_cons_self) start
    exact UInt32.toNat_inj.mp (here.trans payload.symm)
  · rcases before with _ | ⟨head, tail⟩
    · exact empty rfl
    · exact inhabited (List.cons_ne_nil _ _)
  · rw [free, if_neg represents.heapList_ne_zero, represents.list, turns, ← walked]
    congr 1
    omega

/-- `free` of a block in use releases its node. -/
theorem free_releases (represents : Represents area heap (before ++ block :: after))
    (payload : ptr.toNat = block.start + 12) (used : block.used = true) :
    ∃ node lastNode, node.toNat = block.start ∧ IsPrevious lastNode before ∧
      free ptr heap = .returned () (releaseNode ⟨node, lastNode⟩ heap) := by
  obtain ⟨node, lastNode, turns, valid, start, here, nodeUsed, previous, run⟩ :=
    free_reaches represents payload
  refine ⟨node, lastNode, start, previous, ?_⟩
  rw [run]
  apply loop_leave
  rw [freeTurn, if_neg valid, if_pos here, if_pos (nodeUsed.trans used)]

/-- What that does to the block list. -/
theorem free_found (represents : Represents area heap (before ++ block :: after))
    (payload : ptr.toNat = block.start + 12) (used : block.used = true) :
    ∃ final, free ptr heap = .returned () final ∧
      Represents area final (release headerWidth before block after) := by
  obtain ⟨node, lastNode, start, previous, returned⟩ := free_releases represents payload used
  exact ⟨_, returned, releaseNode_represents represents start previous⟩

/-- Releasing a node changes no byte outside the headers of the list. -/
theorem releaseNode_outside {lastNode : UInt32} {address : Nat} (start : node.toNat = block.start)
    (previous : IsPrevious lastNode before)
    (outside : ∀ other ∈ before ++ block :: after,
      address < other.start ∨ other.start + 12 ≤ address) :
    (releaseNode ⟨node, lastNode⟩ heap).memory address = heap.memory address := by
  have here := outside block (by simp)
  rw [← start] at here
  have merged : (mergeNext node (heap.setUsed node false)).memory address =
      heap.memory address := by
    rw [mergeNext]
    split
    · rw [absorbNext_outside here, Heap.setUsed_outside here]
    · exact Heap.setUsed_outside here
  rw [releaseNode]
  split
  · rename_i free
    rcases List.eq_nil_or_concat' before with rfl | ⟨earlier, last, rfl⟩
    · obtain rfl : lastNode = 0 := previous
      simp at free
    · obtain ⟨_, lastStart⟩ : lastNode ≠ 0 ∧ lastNode.toNat = last.start := by
        simpa [IsPrevious] using previous
      have there := outside last (by simp)
      rw [← lastStart] at there
      rw [absorbNext_outside there, merged]
  · exact merged

/-- `free` of a block that is already free panics and changes nothing. -/
theorem free_twice (represents : Represents area heap (before ++ block :: after))
    (payload : ptr.toNat = block.start + 12) (unused : block.used = false) :
    free ptr heap = .panicked "ptr = 0x%x --> double free() pointer" heap := by
  obtain ⟨node, lastNode, turns, valid, _, here, nodeUsed, _, run⟩ :=
    free_reaches represents payload
  rw [run]
  apply loop_panicked
  rw [freeTurn, if_neg valid, if_pos here, if_neg (by simp [nodeUsed, unused])]

/-- `free` of a pointer that is the payload of no block changes nothing. -/
theorem free_absent (represents : Represents area heap blocks)
    (absent : ∀ block ∈ blocks, ptr.toNat ≠ block.start + 12) :
    free ptr heap = .returned () heap := by
  obtain ⟨rest, turns⟩ := represents.turns
  have misses : ∀ block ∈ blocks, ∀ node : UInt32, node.toNat = block.start →
      node + sizeofHeapNode ≠ ptr := by
    rintro block member other start rfl
    exact absent block member (toNat_payload represents member start)
  obtain ⟨lastNode, walked, _, _⟩ :=
    free_walk represents.segment misses (rest + 1) 0
  rw [free, if_neg represents.heapList_ne_zero, represents.list, turns, walked]
  apply loop_leave
  rw [freeTurn, if_pos rfl]

end Free

section Clients

variable {area : HeapArea} {heap : Heap} {blocks : List Block} {block : Block}

/-- `heap_init` makes one free block of the whole area, whatever the memory held. -/
theorem heapInit_represents (area : HeapArea) (memory : Memory) :
    Represents area (heapInit area.start memory) [⟨area.start.toNat, 4084, false⟩] where
  list := rfl
  segment := by
    refine ⟨area.nonNull, rfl, ?_, ?_, ?_⟩ <;> simp [heapInit, Segment]
    rfl
  layout := by
    refine ⟨Nat.le_refl _, ?_⟩
    simp [Arranged, headerWidth, Block.finish]

/-- Stores outside all headers leave the block list as it is. -/
theorem Represents.congr {other : Heap} (represents : Represents area heap blocks)
    (sameList : other.heapList = heap.heapList)
    (agree : ∀ block ∈ blocks, ∀ address, block.start ≤ address → address < block.start + 12 →
      other.memory address = heap.memory address) :
    Represents area other blocks where
  list := sameList.trans represents.list
  segment := represents.segment.congr fun block member address above below =>
    (agree block member address above below).symm
  layout := represents.layout

/-- Stores inside one payload leave the block list as it is. -/
theorem Represents.inside_payload {other : Heap} (represents : Represents area heap blocks)
    (member : block ∈ blocks) (sameList : other.heapList = heap.heapList)
    (frame : ∀ address, address < block.start + 12 ∨ block.finish headerWidth ≤ address →
      other.memory address = heap.memory address) :
    Represents area other blocks := by
  refine represents.congr sameList fun header headerMember address first last =>
    frame address ?_
  obtain ⟨before, after, rfl⟩ := List.append_of_mem member
  obtain ⟨_, below, above, _, _⟩ := represents.bounds
  rcases List.mem_append.mp headerMember with earlier | here
  · have apart := below header earlier
    simp only [finish_headerWidth] at apart
    omega
  · rcases List.mem_cons.mp here with rfl | later
    · exact Or.inl last
    · have apart := above header later
      omega

end Clients

end Bootloader.Libc
