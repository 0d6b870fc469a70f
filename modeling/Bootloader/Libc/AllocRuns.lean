import Bootloader.Libc.AllocBlocks
import Mathlib.Data.Set.Lattice
import Mathlib.Order.CompletePartialOrder
import Mathlib.Order.Interval.Set.Basic

/-!
# The heap over whole runs

A run is any sequence of allocator calls from `heap_init`, with clients writing
into the blocks they hold in between. The results are about the nodes as they lie
in memory: they never overlap, the split of a node that is not the last loses up
to eleven bytes, and the nodes in use are a map from pointers to capacities that
`malloc` and `free` update at one pointer.
-/

namespace Bootloader.Libc

open Bootloader.Std Bootloader.Std.BlockList

/-- The nodes linked from `node`, down to the one whose `next` is NULL. -/
def Links (heap : Heap) : UInt32 → List UInt32 → Prop
  | node, [] => node = 0
  | node, first :: rest => node = first ∧ node ≠ 0 ∧ Links heap (heap.node node).next rest

instance decidableLinks (heap : Heap) :
    ∀ node nodes, Decidable (Links heap node nodes)
  | node, [] => inferInstanceAs (Decidable (node = 0))
  | node, first :: rest =>
      have := decidableLinks heap (heap.node node).next rest
      inferInstanceAs (Decidable (node = first ∧ node ≠ 0 ∧ Links heap (heap.node node).next rest))

namespace Heap

/-- The list from `heap_list` ends, and these are its nodes. -/
def Nodes (heap : Heap) (nodes : List UInt32) : Prop := Links heap heap.heapList nodes

instance (heap : Heap) (nodes : List UInt32) : Decidable (heap.Nodes nodes) :=
  decidableLinks heap heap.heapList nodes

/-- The block a node is the header of. -/
def block (heap : Heap) (node : UInt32) : Block where
  start := node.toNat
  size := (heap.node node).size.toNat
  used := (heap.node node).used

/-- Where the space of a node ends: at the next node, or with the heap. -/
def limit (heap : Heap) (node : UInt32) : Nat :=
  if (heap.node node).next = 0 then heap.heapList.toNat + 4096 else (heap.node node).next.toNat

/-- The addresses of a node's payload. -/
def payload (heap : Heap) (node : UInt32) : Set Nat :=
  Set.Ico (node.toNat + 12) (node.toNat + 12 + (heap.node node).size.toNat)

/-- Whether a node is free and has room for a request. -/
def serves (heap : Heap) (size node : UInt32) : Bool :=
  !(heap.node node).used && (heap.node node).size ≥ size

/-- An address that belongs to a client: one in the payload of a node in use, or
one outside the heap. -/
def MayWrite (heap : Heap) (address : Nat) : Prop :=
  (∃ nodes, heap.Nodes nodes ∧
    ∃ node ∈ nodes, (heap.node node).used = true ∧ address ∈ heap.payload node) ∨
  address < heap.heapList.toNat ∨ heap.heapList.toNat + 4096 ≤ address

end Heap

/-- The addresses of a node's header. -/
def header (node : UInt32) : Set Nat := Set.Ico node.toNat (node.toNat + 12)

/-- A call of the allocator. -/
inductive Call where
  | malloc (size : UInt32)
  | calloc (nmemb size : UInt32)
  | realloc (ptr size : UInt32)
  | free (ptr : UInt32)

/-- What a call does to the heap, whatever pointer it gives back. -/
def Call.run : Call → Heap → Outcome Heap Unit
  | .malloc size, heap => (Libc.malloc size heap).andThen fun _ heap => .returned () heap
  | .calloc nmemb size, heap =>
      (Libc.calloc nmemb size heap).andThen fun _ heap => .returned () heap
  | .realloc ptr size, heap =>
      (Libc.realloc ptr size heap).andThen fun _ heap => .returned () heap
  | .free ptr, heap => Libc.free ptr heap

/-- The heaps reached from `heap_init` through calls that came back, with the
calls made on the way and the heap each of them was made in. -/
inductive Run (area : HeapArea) : List (Heap × Call) → Heap → Prop
  | init (memory : Memory) : Run area [] (heapInit area.start memory)
  | call {log : List (Heap × Call)} {heap after : Heap} (call : Call) (run : Run area log heap)
      (returned : call.run heap = .returned () after) : Run area (log ++ [(heap, call)]) after
  | write {log : List (Heap × Call)} {heap : Heap} {address : Nat} (byte : UInt8)
      (run : Run area log heap) (mayWrite : heap.MayWrite address) :
      Run area log (heap.write address byte)

section Nodes

variable {area : HeapArea} {heap : Heap} {entry node : UInt32} {nodes others : List UInt32}
  {blocks : List Block} {gap : Nat → Nat → Prop} {low : Nat}

theorem Links.unique (links : Links heap entry nodes) (others_linked : Links heap entry others) :
    nodes = others := by
  induction nodes generalizing entry others with
  | nil =>
      obtain rfl : entry = 0 := links
      cases others with
      | nil => rfl
      | cons other rest => exact absurd rfl others_linked.2.1
  | cons first rest inductionHypothesis =>
      obtain ⟨rfl, valid, later⟩ := links
      cases others with
      | nil => exact absurd others_linked valid
      | cons other tail =>
          obtain ⟨rfl, _, later'⟩ := others_linked
          rw [inductionHypothesis later later']

theorem Links.suffix {before after : List UInt32}
    (links : Links heap entry (before ++ node :: after)) :
    ∃ middle, Links heap middle (node :: after) := by
  induction before generalizing entry with
  | nil => exact ⟨entry, links⟩
  | cons first rest inductionHypothesis => exact inductionHypothesis links.2.2

/-- The blocks of a segment are those of the nodes it links. -/
theorem Segment.links (segment : Segment heap entry blocks 0) :
    ∃ nodes, Links heap entry nodes ∧ blocks = nodes.map heap.block := by
  induction blocks generalizing entry with
  | nil => exact ⟨[], segment, rfl⟩
  | cons block rest inductionHypothesis =>
      obtain ⟨valid, start, size, used, later⟩ := segment
      obtain ⟨nodes, links, same⟩ := inductionHypothesis later
      refine ⟨entry :: nodes, ⟨rfl, valid, links⟩, ?_⟩
      rw [List.map_cons, ← same, Heap.block, start, size, used]

/-- The nodes of a heap that stands for a block list. -/
theorem Represents.linked (represents : Represents area heap blocks) :
    ∃ nodes, heap.Nodes nodes ∧ blocks = nodes.map heap.block := by
  have segment := represents.segment
  rw [← represents.list] at segment
  exact segment.links

/-- The limit of a node is where the nodes behind it start. -/
theorem limit_eq (links : Links heap entry (node :: nodes)) :
    heap.limit node = ceiling (heap.heapList.toNat + 4096) (nodes.map heap.block) := by
  obtain ⟨rfl, _, later⟩ := links
  cases nodes with
  | nil => exact if_pos later
  | cons next rest =>
      obtain ⟨same, valid, _⟩ := later
      rw [Heap.limit, if_neg valid, same]
      rfl

/-- An arrangement of the blocks, seen from the nodes. -/
theorem arranged_nodes (links : Links heap entry nodes) :
    Arranged headerWidth gap low (heap.heapList.toNat + 4096) (nodes.map heap.block) ↔
      gap low (ceiling (heap.heapList.toNat + 4096) (nodes.map heap.block)) ∧
        ∀ node ∈ nodes, gap (node.toNat + 12 + (heap.node node).size.toNat) (heap.limit node) := by
  induction nodes generalizing entry low with
  | nil => simp [Arranged, ceiling]
  | cons first rest inductionHypothesis =>
      have later := links.2.2
      rw [List.forall_mem_cons, limit_eq links, List.map_cons, Arranged, inductionHypothesis later]
      rfl

end Nodes

/-- The nodes of a heap lie apart from one another inside the heap. -/
structure SafeLayout (heap : Heap) (nodes : List UInt32) : Prop where
  increasing : nodes.Pairwise (· < ·)
  follows : ∀ node ∈ nodes, node.toNat + 12 + (heap.node node).size.toNat ≤ heap.limit node
  inside : ∀ node ∈ nodes, (heap.node node).used = true →
    heap.payload node ⊆ Set.Ico heap.heapList.toNat (heap.heapList.toNat + 4096)
  apart : ∀ left ∈ nodes, ∀ right ∈ nodes, left ≠ right → (heap.node left).used = true →
    (heap.node right).used = true → Disjoint (heap.payload left) (heap.payload right)
  headers : ∀ node ∈ nodes, (heap.node node).used = true →
    ∀ other ∈ nodes, Disjoint (heap.payload node) (header other)

section Layouts

variable {area : HeapArea} {heap : Heap} {nodes : List UInt32} {blocks : List Block}

/-- One of two nodes, with its payload, lies wholly before the other. -/
def Separate (heap : Heap) (left right : UInt32) : Prop :=
  left.toNat + 12 + (heap.node left).size.toNat ≤ right.toNat ∨
    right.toNat + 12 + (heap.node right).size.toNat ≤ left.toNat

instance (heap : Heap) : Std.Symm (Separate heap) where
  symm _ _ := Or.symm

/-- Distinct nodes of a heap that stands for a block list do not overlap. -/
theorem nodes_separate {low high : Nat}
    (layout : Layout headerWidth low high (nodes.map heap.block)) {left right : UInt32}
    (leftMember : left ∈ nodes) (rightMember : right ∈ nodes) (distinct : left ≠ right) :
    Separate heap left right := by
  have pairs := layout.pairwise
  rw [List.pairwise_map] at pairs
  have either : nodes.Pairwise (Separate heap) := pairs.imp Or.inl
  exact either.forall leftMember rightMember distinct

theorem Represents.safeLayout (represents : Represents area heap blocks) :
    ∃ nodes, heap.Nodes nodes ∧ SafeLayout heap nodes := by
  obtain ⟨nodes, linked, rfl⟩ := represents.linked
  have layout := represents.layout
  have increase := layout.starts_increase (by decide)
  rw [List.map_map, List.pairwise_map] at increase
  refine ⟨nodes, linked, ⟨increase, ?_, ?_, ?_, ?_⟩⟩
  · rw [← represents.list] at layout
    exact ((arranged_nodes linked).mp layout).2
  · intro node member _ address inPayload
    have bounds := layout.within (List.mem_map_of_mem member)
    simp only [Heap.payload, Set.mem_Ico, represents.list, Heap.block, finish_headerWidth]
      at inPayload bounds ⊢
    omega
  · intro left leftMember right rightMember distinct _ _
    have apart := nodes_separate layout leftMember rightMember distinct
    rw [Separate] at apart
    rw [Set.disjoint_left]
    intro address inLeft inRight
    simp only [Heap.payload, Set.mem_Ico] at inLeft inRight
    omega
  · intro node member _ other otherMember
    rw [Set.disjoint_left]
    intro address inPayload inHeader
    simp only [Heap.payload, header, Set.mem_Ico] at inPayload inHeader
    by_cases same : node = other
    · subst same
      omega
    · have apart := nodes_separate layout member otherMember same
      rw [Separate] at apart
      omega

end Layouts

section Searches

variable {area : HeapArea} {heap : Heap} {blocks : List Block} {ptr size : UInt32}

theorem fits_block (heap : Heap) (size node : UInt32) :
    fits size.toNat (heap.block node) = heap.serves size node :=
  (malloc_test rfl rfl).symm

/-- What `malloc` does, in terms of the nodes it searches. -/
theorem malloc_cases (represents : Represents area heap blocks) (size : UInt32) :
    ∃ nodes, heap.Nodes nodes ∧ blocks = nodes.map heap.block ∧
      (nodes.find? (heap.serves size) = none ∧ malloc size heap = .returned 0 heap ∨
        ∃ before node after ptr final, nodes = before ++ node :: after ∧
          nodes.find? (heap.serves size) = some node ∧
          ptr.toNat = node.toNat + 12 ∧ malloc size heap = .returned ptr final ∧
          Represents area final (allocated area (before.map heap.block) (heap.block node)
            (after.map heap.block) size.toNat)) := by
  obtain ⟨nodes, linked, rfl⟩ := represents.linked
  refine ⟨nodes, linked, rfl, ?_⟩
  cases search : nodes.find? (heap.serves size) with
  | none =>
      have unfit := List.find?_eq_none.mp search
      refine Or.inl ⟨rfl, malloc_none represents (List.forall_mem_map.mpr fun node member => ?_)⟩
      rw [fits_block]
      exact Bool.eq_false_iff.mpr (unfit node member)
  | some node =>
      obtain ⟨fit, before, after, rfl, unfit⟩ := List.find?_eq_some_iff_append.mp search
      rw [List.map_append, List.map_cons] at represents
      have passed : ∀ block ∈ before.map heap.block, fits size.toNat block = false := by
        refine List.forall_mem_map.mpr fun earlier member => ?_
        rw [fits_block]
        simpa using unfit earlier member
      obtain ⟨ptr, final, payload, returned, represents'⟩ :=
        malloc_found represents passed ((fits_block heap size node).trans fit)
      exact Or.inr ⟨before, node, after, ptr, final, rfl, rfl, payload, returned, represents'⟩

/-- What `free` does, in terms of the nodes it searches. -/
theorem free_cases (represents : Represents area heap blocks) (ptr : UInt32) :
    ∃ nodes, heap.Nodes nodes ∧ blocks = nodes.map heap.block ∧
      ((∀ node ∈ nodes, node + sizeofHeapNode ≠ ptr) ∧ free ptr heap = .returned () heap ∨
        ∃ before node after, nodes = before ++ node :: after ∧ node + sizeofHeapNode = ptr ∧
          ((heap.node node).used = false ∧
              free ptr heap = .panicked "ptr = 0x%x --> double free() pointer" heap ∨
            (heap.node node).used = true ∧ ∃ final, free ptr heap = .returned () final ∧
              Represents area final (release headerWidth (before.map heap.block)
                (heap.block node) (after.map heap.block)))) := by
  obtain ⟨nodes, linked, rfl⟩ := represents.linked
  have payload : ∀ node ∈ nodes, (node + sizeofHeapNode).toNat = node.toNat + 12 :=
    fun node member => toNat_payload represents (List.mem_map_of_mem member) rfl
  refine ⟨nodes, linked, rfl, ?_⟩
  by_cases listed : ∃ node ∈ nodes, node + sizeofHeapNode = ptr
  · obtain ⟨node, member, rfl⟩ := listed
    have here := payload node member
    obtain ⟨before, after, rfl⟩ := List.append_of_mem member
    rw [List.map_append, List.map_cons] at represents
    refine Or.inr ⟨before, node, after, rfl, rfl, ?_⟩
    cases used : (heap.node node).used with
    | false => exact Or.inl ⟨rfl, free_twice represents here used⟩
    | true => exact Or.inr ⟨rfl, free_found represents here used⟩
  · refine Or.inl ⟨fun node member same => listed ⟨node, member, same⟩, ?_⟩
    refine free_absent represents (List.forall_mem_map.mpr fun node member same => ?_)
    exact listed ⟨node, member, UInt32.toNat_inj.mp ((payload node member).trans same.symm)⟩

end Searches

/-- What every call keeps: the heap stands for a block list without two free
blocks side by side. -/
def HeapInvariant (area : HeapArea) (heap : Heap) : Prop :=
  ∃ blocks, Represents area heap blocks ∧ Coalesced blocks

/-- A call that ends, by a return or a panic, with the invariant kept. -/
def Keeps {Value : Type} (area : HeapArea) : Outcome Heap Value → Prop
  | .returned _ heap => HeapInvariant area heap
  | .panicked _ heap => HeapInvariant area heap
  | .diverged _ => False

theorem Keeps.state {Value : Type} {area : HeapArea} {outcome : Outcome Heap Value}
    (keeps : Keeps area outcome) : HeapInvariant area outcome.state := by
  cases outcome with
  | returned value heap => exact keeps
  | panicked reason heap => exact keeps
  | diverged heap => exact keeps.elim

/-- Dropping the pointer a call returns does not touch the heap. -/
theorem Keeps.discard {Value : Type} {area : HeapArea} {outcome : Outcome Heap Value}
    (keeps : Keeps area outcome) :
    Keeps area (outcome.andThen fun _ heap => .returned () heap) := by
  cases outcome with
  | returned value heap => exact keeps
  | panicked reason heap => exact keeps
  | diverged heap => exact keeps

section Calls

variable {area : HeapArea} {heap : Heap} {blocks : List Block}

/-- `malloc` either finds nothing, or ends with the pointer to a block in use
that is large enough and with all blocks it passed over still in place. -/
theorem malloc_keeps (represents : Represents area heap blocks) (coalesced : Coalesced blocks)
    (size : UInt32) :
    malloc size heap = .returned 0 heap ∨
      ∃ ptr final found block, malloc size heap = .returned ptr final ∧
        Represents area final found ∧ Coalesced found ∧ block ∈ found ∧
        ptr.toNat = block.start + 12 ∧ size.toNat ≤ block.size ∧
        ∀ passed ∈ blocks, passed.size < size.toNat → passed ∈ found := by
  obtain ⟨nodes, _, rfl, ⟨_, returned⟩ | ⟨before, node, after, ptr, final, rfl, search, payload,
    returned, represents'⟩⟩ := malloc_cases represents size
  · exact Or.inl returned
  · rw [List.map_append, List.map_cons] at coalesced
    obtain ⟨unused, enough⟩ := fits_iff.mp
      ((fits_block heap size node).trans (List.find?_some search))
    refine Or.inr ⟨ptr, final, _, ⟨node.toNat, if size.toNat + headerWidth < (heap.block node).size
      then size.toNat else (heap.block node).size, true⟩, returned, represents',
      coalesced_carve unused coalesced, ?_, payload, ?_, ?_⟩
    · apply List.mem_of_mem_filter
      change _ ∈ inUse _
      rw [allocated, inUse_carve]
      exact List.mem_append_right _ List.mem_cons_self
    · simp only
      split <;> omega
    · intro passed member small
      rw [List.map_append, List.map_cons, List.mem_append, List.mem_cons] at member
      rcases member with earlier | rfl | later
      · simp [allocated, earlier]
      · omega
      · simp [allocated, later]

theorem HeapInvariant.malloc (invariant : HeapInvariant area heap) (size : UInt32) :
    Keeps area (Libc.malloc size heap) := by
  obtain ⟨blocks, represents, coalesced⟩ := invariant
  rcases malloc_keeps represents coalesced size with
    returned | ⟨ptr, final, found, _, returned, represents', coalesced', _⟩
  · rw [returned]
    exact ⟨blocks, represents, coalesced⟩
  · rw [returned]
    exact ⟨found, represents', coalesced'⟩

theorem HeapInvariant.free (invariant : HeapInvariant area heap) (ptr : UInt32) :
    Keeps area (Libc.free ptr heap) := by
  obtain ⟨blocks, represents, coalesced⟩ := invariant
  have same : HeapInvariant area heap := ⟨blocks, represents, coalesced⟩
  obtain ⟨nodes, _, rfl, ⟨_, returned⟩ | ⟨before, node, after, rfl, _, ⟨_, panicked⟩ |
    ⟨_, final, returned, represents'⟩⟩⟩ := free_cases represents ptr
  · rw [returned]
    exact same
  · rw [panicked]
    exact same
  · rw [List.map_append, List.map_cons] at coalesced
    rw [returned]
    exact ⟨_, represents', coalesced_release coalesced⟩

theorem HeapInvariant.calloc (invariant : HeapInvariant area heap) (nmemb size : UInt32) :
    Keeps area (Libc.calloc nmemb size heap) := by
  obtain ⟨blocks, represents, coalesced⟩ := invariant
  rw [Libc.calloc]
  rcases malloc_keeps represents coalesced (nmemb * size) with
    returned | ⟨ptr, final, found, block, returned, represents', coalesced', member, payload,
      room, _⟩
  · rw [returned]
    exact ⟨blocks, represents, coalesced⟩
  · have valid : ptr ≠ 0 := toNat_pos_iff.mp (by omega)
    rw [returned, Outcome.returned_andThen, if_pos valid, memset_eq valid]
    refine ⟨found, represents'.inside_payload member rfl fun address outside => ?_, coalesced'⟩
    simp only [finish_headerWidth] at outside
    exact Memory.fill_outside (by omega)

/-- The search of `realloc` for the payload of a block ends at that block's node. -/
theorem realloc_reaches {before after : List Block} {block : Block} {ptr : UInt32}
    (represents : Represents area heap (before ++ block :: after)) (valid : ptr ≠ 0)
    (payload : ptr.toNat = block.start + 12) (size : UInt32) :
    ∃ node turns, node ≠ 0 ∧ node.toNat = block.start ∧ node + sizeofHeapNode = ptr ∧
      (heap.node node).size.toNat = block.size ∧
      realloc ptr size heap = loop (reallocTurn ptr size) (turns + 1) node heap := by
  obtain ⟨node, first, nodeValid, start, nodeSize, _, _⟩ := represents.reach
  obtain ⟨_, below, _, _, _⟩ := represents.bounds
  obtain ⟨rest, turns⟩ := represents.turns
  rw [List.length_append, List.length_cons] at turns
  have here := toNat_payload represents (List.mem_append_right _ List.mem_cons_self) start
  refine ⟨node, rest + 1 + after.length, nodeValid, start,
    UInt32.toNat_inj.mp (here.trans payload.symm), nodeSize, ?_⟩
  rw [realloc, if_neg represents.heapList_ne_zero, if_neg valid, represents.list, turns,
    show rest + 1 + (before.length + (after.length + 1)) =
      rest + 1 + after.length + 1 + before.length by omega]
  refine loop_walk first fun earlier member other otherValid otherStart _ _ => ?_
  have there := toNat_payload represents (List.mem_append_left _ member) otherStart
  have apart := below earlier member
  have misses : other + sizeofHeapNode ≠ ptr := by
    intro same
    rw [same, payload] at there
    simp only [finish_headerWidth] at apart
    omega
  rw [reallocTurn, if_neg otherValid]
  exact if_neg misses

/-- `realloc` of a pointer that is the payload of no block gives NULL. -/
theorem realloc_absent {ptr size : UInt32} (represents : Represents area heap blocks)
    (valid : ptr ≠ 0) (absent : ∀ block ∈ blocks, ptr.toNat ≠ block.start + 12) :
    realloc ptr size heap = .returned 0 heap := by
  obtain ⟨rest, turns⟩ := represents.turns
  have passed : loop (reallocTurn ptr size) walkTurns area.start heap =
      loop (reallocTurn ptr size) (rest + 1) 0 heap := by
    rw [turns]
    refine loop_walk represents.segment fun block member node nodeValid start _ _ => ?_
    have misses : node + sizeofHeapNode ≠ ptr := by
      rintro rfl
      exact absent block member (toNat_payload represents member start)
    rw [reallocTurn, if_neg nodeValid]
    exact if_neg misses
  rw [realloc, if_neg represents.heapList_ne_zero, if_neg valid, represents.list, passed]
  exact loop_leave (by rw [reallocTurn, if_pos rfl])

/-- `realloc` of a block that is too small: what its turn does ends with the
invariant kept, and leaves the loop if it returns. -/
theorem reallocTurn_grows {block : Block} {node size : UInt32}
    (represents : Represents area heap blocks) (coalesced : Coalesced blocks)
    (member : block ∈ blocks) (valid : node ≠ 0) (start : node.toNat = block.start)
    (grows : size > (heap.node node).size) (turns : Nat) :
    Keeps area (loop (reallocTurn (node + sizeofHeapNode) size) (turns + 1) node heap) := by
  have nodeSize := (represents.node_of member start).1
  have smaller : block.size < size.toNat := by
    rw [← nodeSize]
    exact UInt32.lt_iff_toNat_lt.mp grows
  have turn : reallocTurn (node + sizeofHeapNode) size node heap =
      (malloc size heap).andThen fun ptr heap =>
        ((memcpy ptr (node + sizeofHeapNode) (heap.node node).size heap.memory).within
          ({ heap with memory := · })).andThen fun _ heap =>
            (Libc.free (node + sizeofHeapNode) heap).andThen fun _ heap =>
              .returned (.leave ptr) heap := by
    simp only [reallocTurn, if_neg valid, if_true, if_pos grows]
  rcases malloc_keeps represents coalesced size with
    returned | ⟨ptr, middle, found, fresh, returned, represents', coalesced', freshMember,
      payload, room, kept⟩
  · rw [returned] at turn
    rw [loop_panicked turn]
    exact ⟨blocks, represents, coalesced⟩
  · have oldPayload := toNat_payload represents member start
    have ptrValid : ptr ≠ 0 := toNat_pos_iff.mp (by omega)
    have oldValid : node + sizeofHeapNode ≠ 0 := toNat_pos_iff.mp (by omega)
    have oldSize := (represents'.node_of (kept block member smaller) start).1
    have copied : HeapInvariant area ⟨middle.memory.copyUp ptr.toNat
        (node + sizeofHeapNode).toNat (middle.node node).size.toNat, middle.heapList⟩ := by
      refine ⟨found, represents'.inside_payload freshMember rfl fun address outside => ?_,
        coalesced'⟩
      simp only [finish_headerWidth] at outside
      exact Memory.copyUp_outside (by omega)
    simp only [returned, Outcome.returned_andThen, memcpy_eq ptrValid oldValid,
      Outcome.returned_within] at turn
    generalize (⟨middle.memory.copyUp ptr.toNat (node + sizeofHeapNode).toNat
      (middle.node node).size.toNat, middle.heapList⟩ : Heap) = copy at turn copied
    have freed := copied.free (node + sizeofHeapNode)
    cases outcome : Libc.free (node + sizeofHeapNode) copy with
    | returned value final =>
        rw [outcome] at turn freed
        rw [loop_leave turn]
        exact freed
    | panicked reason final =>
        rw [outcome] at turn freed
        rw [loop_panicked turn]
        exact freed
    | diverged final =>
        rw [outcome] at freed
        exact freed.elim

theorem HeapInvariant.realloc (invariant : HeapInvariant area heap) (ptr size : UInt32) :
    Keeps area (Libc.realloc ptr size heap) := by
  have same := invariant
  obtain ⟨blocks, represents, coalesced⟩ := invariant
  by_cases null : ptr = 0
  · rw [Libc.realloc, if_neg represents.heapList_ne_zero, if_pos null]
    exact same.malloc size
  by_cases listed : ∃ block ∈ blocks, ptr.toNat = block.start + 12
  · obtain ⟨block, member, payload⟩ := listed
    obtain ⟨before, after, rfl⟩ := List.append_of_mem member
    obtain ⟨node, turns, valid, start, rfl, nodeSize, run⟩ :=
      realloc_reaches represents null payload size
    rw [run]
    by_cases grows : size > (heap.node node).size
    · exact reallocTurn_grows represents coalesced member valid start grows turns
    · rw [loop_leave (by rw [reallocTurn, if_neg valid]; simp only [if_pos, if_neg grows]; rfl)]
      exact same
  · rw [realloc_absent represents null fun block member payload =>
      listed ⟨block, member, payload⟩]
    exact same

/-- A client's store changes no header. -/
theorem Represents.write {address : Nat} (represents : Represents area heap blocks)
    (mayWrite : heap.MayWrite address) (byte : UInt8) :
    Represents area (heap.write address byte) blocks := by
  obtain ⟨nodes, linked, rfl⟩ := represents.linked
  rcases mayWrite with ⟨others, othersLinked, node, member, _, inside⟩ | outside
  · obtain rfl : nodes = others := Links.unique linked othersLinked
    rw [Heap.payload, Set.mem_Ico] at inside
    refine represents.inside_payload (List.mem_map_of_mem member) rfl fun other apart => ?_
    simp only [finish_headerWidth, Heap.block] at apart
    exact Memory.store8_of_ne (by omega)
  · refine represents.congr rfl fun block member other above below => ?_
    have bounds := represents.layout.within member
    simp only [finish_headerWidth] at bounds
    rw [represents.list] at outside
    exact Memory.store8_of_ne (by omega)

theorem HeapInvariant.write {address : Nat} (invariant : HeapInvariant area heap)
    (mayWrite : heap.MayWrite address) (byte : UInt8) :
    HeapInvariant area (heap.write address byte) := by
  obtain ⟨blocks, represents, coalesced⟩ := invariant
  exact ⟨blocks, represents.write mayWrite byte, coalesced⟩

/-- Every call of the allocator ends, and keeps the invariant. -/
theorem HeapInvariant.call (invariant : HeapInvariant area heap) (call : Call) :
    Keeps area (call.run heap) := by
  cases call with
  | malloc size => exact (invariant.malloc size).discard
  | calloc nmemb size => exact (invariant.calloc nmemb size).discard
  | realloc ptr size => exact (invariant.realloc ptr size).discard
  | free ptr => exact invariant.free ptr

end Calls

/-- The invariant holds in every heap a run reaches. -/
theorem Run.invariant {area : HeapArea} {log : List (Heap × Call)} {heap : Heap}
    (run : Run area log heap) : HeapInvariant area heap := by
  induction run with
  | init memory =>
      exact ⟨_, heapInit_represents area memory, List.isChain_singleton _⟩
  | call call _ returned inductionHypothesis =>
      have kept := inductionHypothesis.call call
      rwa [returned] at kept
  | write byte _ mayWrite inductionHypothesis => exact inductionHypothesis.write mayWrite byte

theorem HeapInvariant.safeLayout {area : HeapArea} {heap : Heap}
    (invariant : HeapInvariant area heap) : ∃ nodes, heap.Nodes nodes ∧ SafeLayout heap nodes := by
  obtain ⟨blocks, represents, _⟩ := invariant
  exact represents.safeLayout

/-- Whatever is called, the nodes stay apart from one another inside the heap:
between the calls of a run, and also where a call ends it with a panic. -/
theorem heap_layout_safe {area : HeapArea} {log : List (Heap × Call)} {heap : Heap}
    (run : Run area log heap) :
    (∃ nodes, heap.Nodes nodes ∧ SafeLayout heap nodes) ∧
      ∀ call : Call, ∃ nodes, (call.run heap).state.Nodes nodes ∧
        SafeLayout (call.run heap).state nodes :=
  ⟨run.invariant.safeLayout, fun call => (run.invariant.call call).state.safeLayout⟩

/-- A heap at 128 kB, in zeroed memory. -/
def lowHeap : HeapArea := ⟨0x20000, by decide, by decide⟩

/-- The heap after some calls, the latest one first, in zeroed memory. -/
def lowHeapAfter : List Call → Heap
  | [] => heapInit lowHeap.start fun _ => 0
  | call :: earlier => (call.run (lowHeapAfter earlier)).state

/-- These calls with the heaps they are made in. -/
def lowHeapLog : List Call → List (Heap × Call)
  | [] => []
  | call :: earlier => lowHeapLog earlier ++ [(lowHeapAfter earlier, call)]

/-- Whether all of these calls come back. -/
def lowHeapReturns : List Call → Bool
  | [] => true
  | call :: earlier => (call.run (lowHeapAfter earlier)).returns && lowHeapReturns earlier

theorem lowHeapAfter_run {calls : List Call} (returns : lowHeapReturns calls = true) :
    Run lowHeap (lowHeapLog calls) (lowHeapAfter calls) := by
  induction calls with
  | nil => exact .init fun _ => 0
  | cons call earlier inductionHypothesis =>
      obtain ⟨comesBack, before⟩ := Bool.and_eq_true_iff.mp returns
      exact .call call (inductionHypothesis before) (Outcome.eq_returned comesBack)

/-- Three blocks in a row are freed in front of one in use: the second, the first, which merges
with what is behind it, and the third, which merges with what is in front of it. Then the first
of these bytes are handed out again. -/
def workedCalls : List Call :=
  [.malloc 10, .free 0x20092, .free 0x2000c, .free 0x2007c, .malloc 8, .malloc 20, .malloc 10,
    .malloc 100]

/-- The heap behind these calls: a block of 10 bytes, free memory, a block of 8 bytes, and the
rest. -/
def workedHeap : Heap := lowHeapAfter workedCalls

theorem workedHeap_run : Run lowHeap (lowHeapLog workedCalls) workedHeap :=
  lowHeapAfter_run (by decide +kernel)

theorem workedHeap_nodes : workedHeap.Nodes [0x20000, 0x20016, 0x200a6, 0x200ba] := by
  decide +kernel

theorem heap_layout_safe_worked :
    SafeLayout workedHeap [0x20000, 0x20016, 0x200a6, 0x200ba] ∧
      ∀ call : Call, ∃ nodes, (call.run workedHeap).state.Nodes nodes ∧
        SafeLayout (call.run workedHeap).state nodes := by
  obtain ⟨⟨nodes, linked, safe⟩, calls⟩ := heap_layout_safe workedHeap_run
  obtain rfl := Links.unique workedHeap_nodes linked
  exact ⟨safe, calls⟩

/-- No free node of a list is followed by another one. -/
def FreeApart (heap : Heap) (nodes : List UInt32) : Prop :=
  nodes.IsChain fun left right => (heap.node left).used = true ∨ (heap.node right).used = true

theorem HeapInvariant.freeApart {area : HeapArea} {heap : Heap}
    (invariant : HeapInvariant area heap) : ∃ nodes, heap.Nodes nodes ∧ FreeApart heap nodes := by
  obtain ⟨blocks, represents, coalesced⟩ := invariant
  obtain ⟨nodes, linked, rfl⟩ := represents.linked
  exact ⟨nodes, linked, (List.isChain_map heap.block).mp coalesced⟩

/-- Whatever is called, free memory is in one piece between blocks in use. -/
theorem free_memory_coalesced {area : HeapArea} {log : List (Heap × Call)} {heap : Heap}
    (run : Run area log heap) :
    (∃ nodes, heap.Nodes nodes ∧ FreeApart heap nodes) ∧
      ∀ call : Call, ∃ nodes, (call.run heap).state.Nodes nodes ∧
        FreeApart (call.run heap).state nodes :=
  ⟨run.invariant.freeApart, fun call => (run.invariant.call call).state.freeApart⟩

theorem free_memory_coalesced_worked :
    FreeApart workedHeap [0x20000, 0x20016, 0x200a6, 0x200ba] ∧
      ∀ call : Call, ∃ nodes, (call.run workedHeap).state.Nodes nodes ∧
        FreeApart (call.run workedHeap).state nodes := by
  obtain ⟨⟨nodes, linked, apart⟩, calls⟩ := free_memory_coalesced workedHeap_run
  obtain rfl := Links.unique workedHeap_nodes linked
  exact ⟨apart, calls⟩

end Bootloader.Libc
