import Bootloader.Libc.MemOperations

/-!
# The heap allocator

The heap is one area of memory cut into nodes, each a 12-byte header `{next,
size, used}` in front of its payload, linked from `heap_list` in address order.
All of it lives in the byte memory of the machine, so that a node is nothing but
the bytes at its address and a client that writes into a payload writes into the
same memory the headers are in.
-/

namespace Bootloader.Libc

open Bootloader.Std

/-- `HEAP_MAX_SIZE`: 4 kB. -/
def heapMaxSize : UInt32 := 4096

/-- `sizeof(heap_node_t)` on the 32-bit target. -/
def sizeofHeapNode : UInt32 := 12

@[simp] theorem toNat_heapMaxSize : heapMaxSize.toNat = 4096 := rfl

@[simp] theorem toNat_sizeofHeapNode : sizeofHeapNode.toNat = 12 := rfl

/-- The fields of a `heap_node_t`. -/
structure HeapNode where
  next : UInt32
  size : UInt32
  used : Bool

/-- The memory of the machine and the global `heap_list`. -/
structure Heap where
  memory : Memory
  heapList : UInt32

namespace Heap

/-- The node at an address, read from memory; `used` is a `bool` kept in an
`unsigned char`. -/
def node (heap : Heap) (address : UInt32) : HeapNode where
  next := heap.memory.load32 address.toNat
  size := heap.memory.load32 (address.toNat + 4)
  used := heap.memory (address.toNat + 8) != 0

/-- `node->next = next`. -/
def setNext (heap : Heap) (node next : UInt32) : Heap :=
  { heap with memory := heap.memory.store32 node.toNat next }

/-- `node->size = size`. -/
def setSize (heap : Heap) (node size : UInt32) : Heap :=
  { heap with memory := heap.memory.store32 (node.toNat + 4) size }

/-- `node->used = used`. -/
def setUsed (heap : Heap) (node : UInt32) (used : Bool) : Heap :=
  { heap with memory := heap.memory.store8 (node.toNat + 8) (if used then 1 else 0) }

/-- A store of one byte by a client of the heap. -/
def write (heap : Heap) (address : Nat) (byte : UInt8) : Heap :=
  { heap with memory := heap.memory.store8 address byte }

/-- A node is determined by the bytes of its header. -/
theorem node_congr {heap other : Heap} {address : UInt32}
    (agree : Memory.AgreeOn address.toNat (address.toNat + 12) heap.memory other.memory) :
    heap.node address = other.node address := by
  have next : heap.memory.load32 address.toNat = other.memory.load32 address.toNat :=
    agree.load32 (by omega) (by omega)
  have size : heap.memory.load32 (address.toNat + 4) = other.memory.load32 (address.toNat + 4) :=
    agree.load32 (by omega) (by omega)
  have used := agree (address.toNat + 8) (by omega) (by omega)
  rw [node, node, next, size, used]

/-- Two headers do not overlap. -/
def Apart (left right : UInt32) : Prop :=
  left.toNat + 12 ≤ right.toNat ∨ right.toNat + 12 ≤ left.toNat

section Fields

variable {heap : Heap} {target other : UInt32}

@[simp] theorem heapList_setNext (next : UInt32) :
    (heap.setNext target next).heapList = heap.heapList := rfl

@[simp] theorem heapList_setSize (size : UInt32) :
    (heap.setSize target size).heapList = heap.heapList := rfl

@[simp] theorem heapList_setUsed (used : Bool) :
    (heap.setUsed target used).heapList = heap.heapList := rfl

/-- The stores to the fields of a node change no byte outside its header. -/
theorem setNext_outside {next : UInt32} {address : Nat}
    (outside : address < target.toNat ∨ target.toNat + 12 ≤ address) :
    (heap.setNext target next).memory address = heap.memory address :=
  Memory.store32_outside (by omega)

theorem setSize_outside {size : UInt32} {address : Nat}
    (outside : address < target.toNat ∨ target.toNat + 12 ≤ address) :
    (heap.setSize target size).memory address = heap.memory address :=
  Memory.store32_outside (by omega)

theorem setUsed_outside {used : Bool} {address : Nat}
    (outside : address < target.toNat ∨ target.toNat + 12 ≤ address) :
    (heap.setUsed target used).memory address = heap.memory address :=
  Memory.store8_of_ne (by omega)

theorem node_setNext_apart {next : UInt32} (apart : Apart target other) :
    (heap.setNext target next).node other = heap.node other := by
  unfold Apart at apart
  exact node_congr fun address above below => setNext_outside (by omega)

theorem node_setSize_apart {size : UInt32} (apart : Apart target other) :
    (heap.setSize target size).node other = heap.node other := by
  unfold Apart at apart
  exact node_congr fun address above below => setSize_outside (by omega)

theorem node_setUsed_apart {used : Bool} (apart : Apart target other) :
    (heap.setUsed target used).node other = heap.node other := by
  unfold Apart at apart
  exact node_congr fun address above below => setUsed_outside (by omega)

@[simp] theorem node_setNext_same (next : UInt32) :
    (heap.setNext target next).node target = { heap.node target with next := next } := by
  have size : (heap.setNext target next).memory.load32 (target.toNat + 4) =
      heap.memory.load32 (target.toNat + 4) := Memory.load32_store32_disjoint (by omega)
  have used : (heap.setNext target next).memory (target.toNat + 8) =
      heap.memory (target.toNat + 8) := Memory.store32_outside (by omega)
  rw [node, size, used, setNext, Memory.load32_store32, node]

@[simp] theorem node_setSize_same (size : UInt32) :
    (heap.setSize target size).node target = { heap.node target with size := size } := by
  have next : (heap.setSize target size).memory.load32 target.toNat =
      heap.memory.load32 target.toNat := Memory.load32_store32_disjoint (by omega)
  have used : (heap.setSize target size).memory (target.toNat + 8) =
      heap.memory (target.toNat + 8) := Memory.store32_outside (by omega)
  rw [node, next, used, setSize, Memory.load32_store32, node]

@[simp] theorem node_setUsed_same (used : Bool) :
    (heap.setUsed target used).node target = { heap.node target with used := used } := by
  have next : (heap.setUsed target used).memory.load32 target.toNat =
      heap.memory.load32 target.toNat := Memory.load32_store8_outside (by omega)
  have size : (heap.setUsed target used).memory.load32 (target.toNat + 4) =
      heap.memory.load32 (target.toNat + 4) := Memory.load32_store8_outside (by omega)
  have flag : (heap.setUsed target used).memory (target.toNat + 8) = if used then 1 else 0 :=
    Memory.store8_same _ _ _
  rw [node, next, size, flag, node]
  cases used <;> rfl

end Fields

end Heap

/-- More turns than a walk along a list that ends can take: a 32-bit pointer has
this many values, and a walk that meets one of them twice never ends. -/
def walkTurns : Nat := 2 ^ 32

/-- `heap_init`: one free node over the whole heap. -/
def heapInit (heapBeginning : UInt32) (memory : Memory) : Heap :=
  let heap : Heap := ⟨memory, heapBeginning⟩
  let heap := heap.setNext heapBeginning 0
  let heap := heap.setUsed heapBeginning false
  heap.setSize heapBeginning (heapMaxSize - sizeofHeapNode)

/-- The difference of two `heap_node_t` pointers, in nodes. The bytes between
them are divided by the node size toward zero, also where they are no multiple
of it. -/
def nodeDifference (left right : UInt32) : Int :=
  ((left.toNat : Int) - right.toNat).tdiv 12

/-- Between nodes in address order the difference is a quotient of naturals. -/
theorem nodeDifference_eq {left right : UInt32} (order : right.toNat ≤ left.toNat) :
    nodeDifference left right = ((left.toNat - right.toNat) / 12 : Nat) := by
  rw [nodeDifference, ← Int.ofNat_sub order]
  exact Int.ofNat_tdiv _ 12

/-- The size `malloc` gives the node at `nextNode` that it cuts off a free node:
up to the end of the heap when the free node is the last one, and otherwise as
many whole nodes as lie before the next one. -/
def splitSize (currentNode nextNode : UInt32) (heap : Heap) : UInt32 :=
  if (heap.node currentNode).next = 0 then
    heap.heapList + heapMaxSize - (nextNode + sizeofHeapNode)
  else
    UInt32.ofInt (nodeDifference (heap.node currentNode).next nextNode - 1) * sizeofHeapNode

/-- Cut a new free node off the end of a free one. -/
def splitNode (currentNode size : UInt32) (heap : Heap) : Heap :=
  let nextNode := currentNode + sizeofHeapNode + size
  let heap := heap.setUsed nextNode false
  let heap := heap.setSize nextNode (splitSize currentNode nextNode heap)
  let heap := heap.setNext nextNode (heap.node currentNode).next
  let heap := heap.setNext currentNode nextNode
  heap.setSize currentNode size

/-- What `malloc` does to the node it has chosen: split it when it has room for
the request, another header and at least one byte, and mark it used. -/
def allocateNode (currentNode size : UInt32) (heap : Heap) : Heap :=
  let heap :=
    if (heap.node currentNode).size > size + sizeofHeapNode then splitNode currentNode size heap
    else heap
  heap.setUsed currentNode true

section Split

variable {heap : Heap} {currentNode size : UInt32}

/-- The node that stays in front of the cut. -/
theorem node_splitNode (apart : Heap.Apart (currentNode + sizeofHeapNode + size) currentNode) :
    (splitNode currentNode size heap).node currentNode =
      ⟨currentNode + sizeofHeapNode + size, size, (heap.node currentNode).used⟩ := by
  simp [splitNode, Heap.node_setNext_apart apart, Heap.node_setSize_apart apart,
    Heap.node_setUsed_apart apart]

/-- The free node behind the cut. -/
theorem node_splitNode_next
    (apart : Heap.Apart (currentNode + sizeofHeapNode + size) currentNode) :
    (splitNode currentNode size heap).node (currentNode + sizeofHeapNode + size) =
      ⟨(heap.node currentNode).next,
        splitSize currentNode (currentNode + sizeofHeapNode + size) heap, false⟩ := by
  have apart' : Heap.Apart currentNode (currentNode + sizeofHeapNode + size) := apart.symm
  simp [splitNode, splitSize, Heap.node_setNext_apart, Heap.node_setSize_apart,
    Heap.node_setUsed_apart, apart, apart']

/-- A split writes the two headers only. -/
theorem splitNode_outside {address : Nat}
    (first : address < currentNode.toNat ∨ currentNode.toNat + 12 ≤ address)
    (second : address < (currentNode + sizeofHeapNode + size).toNat ∨
      (currentNode + sizeofHeapNode + size).toNat + 12 ≤ address) :
    (splitNode currentNode size heap).memory address = heap.memory address := by
  rw [splitNode, Heap.setSize_outside first, Heap.setNext_outside first,
    Heap.setNext_outside second, Heap.setSize_outside second, Heap.setUsed_outside second]

end Split

/-- One turn of the search in `malloc`. -/
def mallocTurn (size currentNode : UInt32) (heap : Heap) : Outcome Heap (Turn UInt32 UInt32) :=
  if currentNode = 0 then .returned (.leave 0) heap
  else if !(heap.node currentNode).used && (heap.node currentNode).size ≥ size then
    .returned (.leave (currentNode + sizeofHeapNode)) (allocateNode currentNode size heap)
  else .returned (.again (heap.node currentNode).next) heap

/-- `malloc`: the payload of the first free node that is large enough, or NULL. -/
def malloc (size : UInt32) (heap : Heap) : Outcome Heap UInt32 :=
  if heap.heapList = 0 then .panicked "heap_list != NULL" heap
  else loop (mallocTurn size) walkTurns heap.heapList heap

/-- `calloc`: the product of the arguments is a 32-bit number. -/
def calloc (nmemb size : UInt32) (heap : Heap) : Outcome Heap UInt32 :=
  (malloc (nmemb * size) heap).andThen fun mem heap =>
    if mem ≠ 0 then
      ((memset mem 0 (nmemb * size) heap.memory).within ({ heap with memory := · })).andThen
        fun _ heap => .returned mem heap
    else .returned mem heap

/-- The node under inspection in `free`, and the one before it. -/
structure FreeCursor where
  currentNode : UInt32
  previousNode : UInt32

/-- `node->size += sizeof(heap_node_t) + next_node->size`, after unlinking the
next node: the one step both merges of `free` make. -/
def absorbNext (node nextNode : UInt32) (heap : Heap) : Heap :=
  let heap := heap.setNext node (heap.node nextNode).next
  heap.setSize node ((heap.node node).size + sizeofHeapNode + (heap.node nextNode).size)

/-- A merge stores to the header of the node it enlarges only. -/
theorem absorbNext_outside {heap : Heap} {node nextNode : UInt32} {address : Nat}
    (outside : address < node.toNat ∨ node.toNat + 12 ≤ address) :
    (absorbNext node nextNode heap).memory address = heap.memory address := by
  rw [absorbNext, Heap.setSize_outside outside, Heap.setNext_outside outside]

/-- The first merge of `free`: with the next node, when there is one and it is
free. -/
def mergeNext (currentNode : UInt32) (heap : Heap) : Heap :=
  let nextNode := (heap.node currentNode).next
  if nextNode ≠ 0 && !(heap.node nextNode).used then absorbNext currentNode nextNode heap else heap

/-- What `free` does to the node it has found in use: merge it with the next
node and then into the previous one, as far as they are free. -/
def releaseNode (cursor : FreeCursor) (heap : Heap) : Heap :=
  let heap := mergeNext cursor.currentNode (heap.setUsed cursor.currentNode false)
  if cursor.previousNode ≠ 0 && !(heap.node cursor.previousNode).used then
    absorbNext cursor.previousNode cursor.currentNode heap
  else heap

/-- One turn of the search in `free`. -/
def freeTurn (ptr : UInt32) (cursor : FreeCursor) (heap : Heap) :
    Outcome Heap (Turn FreeCursor Unit) :=
  if cursor.currentNode = 0 then .returned (.leave ()) heap
  else if cursor.currentNode + sizeofHeapNode = ptr then
    if (heap.node cursor.currentNode).used then .returned (.leave ()) (releaseNode cursor heap)
    else .panicked "ptr = 0x%x --> double free() pointer" heap
  else .returned (.again ⟨(heap.node cursor.currentNode).next, cursor.currentNode⟩) heap

/-- `free`: a pointer that is no payload of the list is ignored. -/
def free (ptr : UInt32) (heap : Heap) : Outcome Heap Unit :=
  if heap.heapList = 0 then .panicked "heap_list != NULL" heap
  else loop (freeTurn ptr) walkTurns ⟨heap.heapList, 0⟩ heap

/-- One turn of the search in `realloc`. A block that is large enough stays; a
larger one is allocated, filled from the old one, and the old one freed. -/
def reallocTurn (ptr size currentNode : UInt32) (heap : Heap) :
    Outcome Heap (Turn UInt32 UInt32) :=
  if currentNode = 0 then .returned (.leave 0) heap
  else
    let ptrMem := currentNode + sizeofHeapNode
    if ptrMem = ptr then
      if size > (heap.node currentNode).size then
        (malloc size heap).andThen fun ptr heap =>
          ((memcpy ptr ptrMem (heap.node currentNode).size heap.memory).within
            ({ heap with memory := · })).andThen fun _ heap =>
              (free ptrMem heap).andThen fun _ heap => .returned (.leave ptr) heap
      else .returned (.leave ptr) heap
    else .returned (.again (heap.node currentNode).next) heap

/-- `realloc`: NULL is allocated afresh, and an unknown pointer gives NULL. -/
def realloc (ptr size : UInt32) (heap : Heap) : Outcome Heap UInt32 :=
  if heap.heapList = 0 then .panicked "heap_list != NULL" heap
  else if ptr = 0 then malloc size heap
  else loop (reallocTurn ptr size) walkTurns heap.heapList heap

end Bootloader.Libc
