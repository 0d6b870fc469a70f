import Bootloader.Libc.AllocTiling

/-!
# The heap as a map from pointers to capacities

What a client of the allocator may rely on: the pointers it holds, each with the
number of bytes behind it. `malloc` adds one pointer to that map and `free` takes
one away; the splits and merges below are invisible in it.
-/

namespace Bootloader.Libc

open Bootloader.Std Bootloader.Std.BlockList

/-- The capacity of the block in use at a pointer, searched among the nodes. -/
def Heap.capacity (heap : Heap) (nodes : List UInt32) (ptr : UInt32) : Option UInt32 :=
  (nodes.find? fun node => (heap.node node).used && node + sizeofHeapNode == ptr).map
    fun node => (heap.node node).size

/-- The map from live pointers to capacities that a heap stands for. -/
def Abstracts (heap : Heap) (live : UInt32 → Option UInt32) : Prop :=
  ∃ nodes, heap.Nodes nodes ∧ live = heap.capacity nodes

/-- A map that grants exactly the payloads of these blocks. -/
def Grants (blocks : List Block) (live : UInt32 → Option UInt32) : Prop :=
  ∀ ptr capacity, live ptr = some capacity ↔
    ∃ block ∈ blocks, ptr.toNat = block.start + 12 ∧ block.size = capacity.toNat

section Maps

variable {area : HeapArea} {heap : Heap} {before after blocks : List Block} {block : Block}
  {live smaller : UInt32 → Option UInt32} {ptr capacity : UInt32}

/-- A map is determined by the blocks it grants. -/
theorem Grants.unique (grants : Grants blocks live) (others : Grants blocks smaller) :
    live = smaller := by
  funext ptr
  ext capacity
  exact (grants ptr capacity).trans (others ptr capacity).symm

/-- A heap stands for the map that grants its blocks in use. -/
theorem abstracts_iff (represents : Represents area heap blocks) :
    Abstracts heap live ↔ Grants (inUse blocks) live := by
  obtain ⟨nodes, linked, rfl⟩ := represents.linked
  have grants : Grants (inUse (nodes.map heap.block)) (heap.capacity nodes) := by
    intro ptr capacity
    have payload : ∀ node ∈ nodes, (node + sizeofHeapNode).toNat = node.toNat + 12 :=
      fun node member => toNat_payload represents (List.mem_map_of_mem member) rfl
    simp only [Heap.capacity, Option.map_eq_some_iff, inUse, List.mem_filter, List.mem_map]
    constructor
    · rintro ⟨node, found, rfl⟩
      have member := List.mem_of_find?_eq_some found
      have test := List.find?_some found
      obtain ⟨used, here⟩ := Bool.and_eq_true_iff.mp test
      obtain rfl : node + sizeofHeapNode = ptr := by simpa using here
      exact ⟨heap.block node, ⟨⟨node, member, rfl⟩, used⟩, payload node member, rfl⟩
    · rintro ⟨_, ⟨⟨node, member, rfl⟩, used⟩, here, size⟩
      obtain rfl : node + sizeofHeapNode = ptr :=
        UInt32.toNat_inj.mp ((payload node member).trans here.symm)
      cases found : nodes.find? fun other =>
          (heap.node other).used && other + sizeofHeapNode == node + sizeofHeapNode with
      | none =>
          have absent := List.find?_eq_none.mp found node member
          have inUse : (heap.node node).used = true := used
          simp [inUse] at absent
      | some other =>
          have test := List.find?_some found
          obtain rfl : other = node := by simpa using (Bool.and_eq_true_iff.mp test).2
          exact ⟨other, rfl, UInt32.toNat_inj.mp size⟩
  constructor
  · rintro ⟨others, othersLinked, rfl⟩
    obtain rfl : nodes = others := Links.unique linked othersLinked
    exact grants
  · exact fun granted => ⟨nodes, linked, granted.unique grants⟩

/-- One more block adds its payload to the map, and nothing else. -/
theorem Grants.insert (grants : Grants (before ++ block :: after) live)
    (without : Grants (before ++ after) smaller) (payload : ptr.toNat = block.start + 12)
    (size : block.size = capacity.toNat)
    (apart : ∀ other ∈ before ++ after, other.start ≠ block.start) :
    smaller ptr = none ∧ live = Function.update smaller ptr (some capacity) ∧
      smaller = Function.update live ptr none := by
  have fresh : smaller ptr = none := by
    refine Option.eq_none_iff_forall_ne_some.mpr fun other granted => ?_
    obtain ⟨found, member, here, _⟩ := (without ptr other).mp granted
    exact apart found member (by omega)
  have added : live ptr = some capacity :=
    (grants ptr capacity).mpr ⟨block, by simp, payload, size⟩
  have elsewhere : ∀ other, other ≠ ptr → live other = smaller other := by
    intro other different
    have middle (found : Block) :
        found ∈ before ++ block :: after ↔ found = block ∨ found ∈ before ++ after := by
      rw [List.perm_middle.mem_iff, List.mem_cons]
    ext amount
    rw [grants, without]
    constructor
    · rintro ⟨found, member, here, amountIs⟩
      rcases (middle found).mp member with rfl | elsewhere
      · exact absurd (UInt32.toNat_inj.mp (here.trans payload.symm)) different
      · exact ⟨found, elsewhere, here, amountIs⟩
    · rintro ⟨found, member, here⟩
      exact ⟨found, (middle found).mpr (Or.inr member), here⟩
  refine ⟨fresh, ?_, ?_⟩
  · funext other
    by_cases same : other = ptr
    · rw [same, Function.update_self, added]
    · rw [Function.update_of_ne same, elsewhere other same]
  · funext other
    by_cases same : other = ptr
    · rw [same, Function.update_self, fresh]
    · rw [Function.update_of_ne same, elsewhere other same]

/-- No other block of a heap shares the start of one of them. -/
theorem Represents.starts_apart (represents : Represents area heap (before ++ block :: after)) :
    ∀ other ∈ inUse before ++ inUse after, other.start ≠ block.start := by
  obtain ⟨_, below, above, _, _⟩ := represents.bounds
  intro other member
  rcases List.mem_append.mp member with earlier | later
  · have apart := below other (List.mem_of_mem_filter earlier)
    simp only [finish_headerWidth] at apart
    omega
  · have apart := above other (List.mem_of_mem_filter later)
    simp only [finish_headerWidth] at apart
    omega

/-- Every heap that stands for a block list stands for a map. -/
theorem Represents.abstracts (represents : Represents area heap blocks) :
    ∃ live, Abstracts heap live := by
  obtain ⟨nodes, linked, _⟩ := represents.linked
  exact ⟨heap.capacity nodes, nodes, linked, rfl⟩

/-- `malloc` on the map: a block is added, unless no free node is large enough. -/
theorem malloc_refines {nodes : List UInt32} (linked : heap.Nodes nodes)
    (represents : Represents area heap blocks) (abstracts : Abstracts heap live) (size : UInt32) :
    (malloc size heap = .returned 0 heap ∧ ∀ node ∈ nodes, heap.serves size node = false) ∨
      ∃ ptr capacity after, malloc size heap = .returned ptr after ∧ ptr ≠ 0 ∧
        (∃ node ∈ nodes, heap.serves size node = true) ∧ live ptr = none ∧ size ≤ capacity ∧
        Abstracts after (Function.update live ptr (some capacity)) := by
  obtain ⟨others, othersLinked, rfl, ⟨search, fails⟩ | ⟨before, node, after, ptr, final, rfl,
    search, payload, succeeds, represents'⟩⟩ := malloc_cases represents size
  · obtain rfl := Links.unique linked othersLinked
    refine Or.inl ⟨fails, fun node member => ?_⟩
    exact Bool.eq_false_iff.mpr (List.find?_eq_none.mp search node member)
  · obtain rfl := Links.unique linked othersLinked
    have serves := List.find?_some search
    obtain ⟨unused, enough⟩ := fits_iff.mp ((fits_block heap size node).trans serves)
    obtain ⟨larger, abstracts'⟩ := represents'.abstracts
    rw [abstracts_iff represents, List.map_append, List.map_cons, inUse_append, inUse_cons,
      if_neg (by simp [unused])] at abstracts
    rw [List.map_append, List.map_cons] at represents
    have granted := (abstracts_iff represents').mp abstracts'
    rw [allocated, inUse_carve] at granted
    have size_is : (if size.toNat + headerWidth < (heap.block node).size then size.toNat
        else (heap.block node).size) =
          (if size.toNat + 12 < (heap.node node).size.toNat then size
            else (heap.node node).size).toNat :=
      (apply_ite UInt32.toNat _ _ _).symm
    obtain ⟨fresh, updated, _⟩ := granted.insert abstracts payload size_is
      represents.starts_apart
    have valid : ptr ≠ 0 := toNat_pos_iff.mp (by omega)
    refine Or.inr ⟨ptr, _, final, succeeds, valid, ⟨node, by simp, serves⟩, fresh, ?_,
      updated ▸ abstracts'⟩
    rw [UInt32.le_iff_toNat_le]
    split
    · exact Nat.le_refl _
    · exact enough

/-- `free` on the map: a live pointer is taken away. -/
theorem free_refines (represents : Represents area heap blocks)
    (abstracts : Abstracts heap live) (granted : live ptr = some capacity) :
    ∃ final, free ptr heap = .returned () final ∧
      Abstracts final (Function.update live ptr none) := by
  have grants := (abstracts_iff represents).mp abstracts
  obtain ⟨block, member, payload, size⟩ := (grants ptr capacity).mp granted
  obtain ⟨inList, used⟩ := List.mem_filter.mp member
  obtain ⟨before, after, rfl⟩ := List.append_of_mem inList
  obtain ⟨final, frees, represents'⟩ := free_found represents payload used
  obtain ⟨smaller, abstracts'⟩ := represents'.abstracts
  have without := (abstracts_iff represents').mp abstracts'
  rw [inUse_release] at without
  rw [inUse_append, inUse_cons, if_pos used] at grants
  obtain ⟨_, _, removed⟩ := grants.insert without payload size represents.starts_apart
  exact ⟨final, frees, removed ▸ abstracts'⟩

end Maps

/-- In every heap a run reaches, `malloc` and `free` act on the map of live
pointers as an allocator must. -/
theorem allocator_refines_map {area : HeapArea} {log : List (Heap × Call)} {heap : Heap}
    (run : Run area log heap) :
    ∃ nodes live, heap.Nodes nodes ∧ Abstracts heap live ∧
      (∀ size, (malloc size heap = .returned 0 heap ∧
          ∀ node ∈ nodes, heap.serves size node = false) ∨
        ∃ ptr capacity after, malloc size heap = .returned ptr after ∧ ptr ≠ 0 ∧
          (∃ node ∈ nodes, heap.serves size node = true) ∧ live ptr = none ∧ size ≤ capacity ∧
          Abstracts after (Function.update live ptr (some capacity))) ∧
      (∀ ptr capacity, live ptr = some capacity → ∃ after, free ptr heap = .returned () after ∧
        Abstracts after (Function.update live ptr none)) ∧
      (∀ ptr, (∀ node ∈ nodes, node + sizeofHeapNode ≠ ptr) →
        free ptr heap = .returned () heap) ∧
      ∀ node ∈ nodes, (heap.node node).used = false →
        free (node + sizeofHeapNode) heap =
          .panicked "ptr = 0x%x --> double free() pointer" heap := by
  obtain ⟨blocks, represents, _⟩ := run.invariant
  obtain ⟨nodes, linked, shape⟩ := represents.linked
  obtain ⟨live, abstracts⟩ := represents.abstracts
  refine ⟨nodes, live, linked, abstracts, malloc_refines linked represents abstracts,
    fun ptr capacity => free_refines represents abstracts, fun ptr absent => ?_,
    fun node member unused => ?_⟩
  · subst shape
    refine free_absent represents (List.forall_mem_map.mpr fun node member same => ?_)
    have payload : (node + sizeofHeapNode).toNat = (heap.block node).start + 12 :=
      toNat_payload represents (List.mem_map_of_mem member) rfl
    exact absent node member (UInt32.toNat_inj.mp (payload.trans same.symm))
  · subst shape
    have payload : (node + sizeofHeapNode).toNat = (heap.block node).start + 12 :=
      toNat_payload represents (List.mem_map_of_mem member) rfl
    obtain ⟨before, after, rfl⟩ := List.append_of_mem member
    rw [List.map_append, List.map_cons] at represents
    exact free_twice represents payload unused

theorem allocator_refines_map_worked :
    ∃ live, Abstracts workedHeap live ∧
      (live 0x2000c = some 10 ∧ live 0x20022 = none ∧ live 0x200b2 = some 8) ∧
      (∀ size, (malloc size workedHeap = .returned 0 workedHeap ∧
          ∀ node ∈ [0x20000, 0x20016, 0x200a6, 0x200ba], workedHeap.serves size node = false) ∨
        ∃ ptr capacity after, malloc size workedHeap = .returned ptr after ∧ ptr ≠ 0 ∧
          (∃ node ∈ [0x20000, 0x20016, 0x200a6, 0x200ba], workedHeap.serves size node = true) ∧
          live ptr = none ∧ size ≤ capacity ∧
          Abstracts after (Function.update live ptr (some capacity))) ∧
      (∀ ptr capacity, live ptr = some capacity →
        ∃ after, free ptr workedHeap = .returned () after ∧
          Abstracts after (Function.update live ptr none)) ∧
      (∀ ptr, (∀ node ∈ [0x20000, 0x20016, 0x200a6, 0x200ba], node + sizeofHeapNode ≠ ptr) →
        free ptr workedHeap = .returned () workedHeap) ∧
      ∀ node ∈ [0x20000, 0x20016, 0x200a6, 0x200ba], (workedHeap.node node).used = false →
        free (node + sizeofHeapNode) workedHeap =
          .panicked "ptr = 0x%x --> double free() pointer" workedHeap := by
  obtain ⟨nodes, live, linked, abstracts, refined⟩ := allocator_refines_map workedHeap_run
  obtain rfl := Links.unique workedHeap_nodes linked
  refine ⟨live, abstracts, ?_, refined⟩
  obtain ⟨others, othersLinked, rfl⟩ := abstracts
  obtain rfl := Links.unique workedHeap_nodes othersLinked
  decide +kernel

end Bootloader.Libc
