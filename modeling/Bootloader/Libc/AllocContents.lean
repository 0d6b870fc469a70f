import Bootloader.Libc.AllocClients

/-!
# What `realloc` and `calloc` leave in a block

`Lives.realloc` says what becomes of a live pointer: it stays, or its contents move to
a larger block, or there is no room for that. In the last case `realloc` hands the NULL
of `malloc` to `memcpy`. `Lives.calloc` says that a block is zeroed as far as the 32-bit
product of the arguments goes.
-/

namespace Bootloader.Libc

open Bootloader.Std Bootloader.Std.BlockList

/-- A heap that a run reaches, with the map it stands for. -/
theorem Run.lives {area : HeapArea} {log : List (Heap × Call)} {heap : Heap}
    {live : UInt32 → Option UInt32} (run : Run area log heap) (abstracts : Abstracts heap live) :
    Lives area heap live := by
  obtain ⟨blocks, represents, _⟩ := run.invariant
  exact ⟨⟨blocks, represents⟩, abstracts⟩

namespace Lives

variable {area : HeapArea} {heap after : Heap} {live : UInt32 → Option UInt32}
  {ptr capacity size : UInt32}

/-- The node of a live pointer has its capacity in its header. -/
theorem nodeSize {node : UInt32} (lives : Lives area heap live)
    (holds : live (node + sizeofHeapNode) = some capacity) : (heap.node node).size = capacity := by
  obtain ⟨blocks, represents, grants⟩ := lives.granted
  obtain ⟨block, member, payload, amount⟩ := (grants _ capacity).mp holds
  have inList := List.mem_of_mem_filter member
  have within := represents.layout.within inList
  have fits := area.fits
  simp only [finish_headerWidth] at within
  have start : node.toNat = block.start := by
    rw [UInt32.toNat_add, toNat_sizeofHeapNode] at payload
    have bound := node.toNat_lt
    omega
  exact UInt32.toNat_inj.mp ((represents.node_of inList start).1.trans amount)

/-- The search of `realloc` ends at the node of a live pointer. -/
theorem realloc_reaches (lives : Lives area heap live) (holds : live ptr = some capacity)
    (size : UInt32) :
    ∃ node turns, node ≠ 0 ∧ node + sizeofHeapNode = ptr ∧ (heap.node node).size = capacity ∧
      Libc.realloc ptr size heap = loop (reallocTurn ptr size) (turns + 1) node heap := by
  obtain ⟨blocks, represents, grants⟩ := lives.granted
  obtain ⟨block, member, payload, _⟩ := (grants ptr capacity).mp holds
  obtain ⟨before, after, rfl⟩ := List.append_of_mem (List.mem_of_mem_filter member)
  obtain ⟨node, turns, valid, _, here, _, run⟩ :=
    Libc.realloc_reaches represents (lives.ne_zero holds) payload size
  subst here
  exact ⟨node, turns, valid, rfl, lives.nodeSize holds, run⟩

/-- A block that is large enough stays. -/
theorem realloc_stays (lives : Lives area heap live) (holds : live ptr = some capacity)
    (enough : size ≤ capacity) : Libc.realloc ptr size heap = .returned ptr heap := by
  obtain ⟨node, turns, valid, here, nodeSize, run⟩ := lives.realloc_reaches holds size
  have small : ¬ size > (heap.node node).size := by
    rw [nodeSize]
    exact UInt32.not_lt.mpr enough
  have turn : reallocTurn ptr size node heap = .returned (.leave ptr) heap := by
    simp only [reallocTurn, if_neg valid, if_pos here, if_neg small]
  rw [run, loop_leave turn]

/-- The turn of `realloc` that finds a block too small. -/
theorem reallocTurn_larger {node : UInt32} (valid : node ≠ 0) (here : node + sizeofHeapNode = ptr)
    (larger : (heap.node node).size < size) :
    reallocTurn ptr size node heap =
      (Libc.malloc size heap).andThen fun target heap =>
        ((memcpy target ptr (heap.node node).size heap.memory).within
          ({ heap with memory := · })).andThen fun _ heap =>
            (Libc.free ptr heap).andThen fun _ heap => .returned (.leave target) heap := by
  subst here
  simp only [reallocTurn, if_neg valid, if_true, gt_iff_lt, if_pos larger]

/-- Without room for a larger block, `memcpy` is given NULL. -/
theorem realloc_fails (lives : Lives area heap live) (holds : live ptr = some capacity)
    (larger : capacity < size) (fails : Libc.malloc size heap = .returned 0 after) :
    after = heap ∧ Libc.realloc ptr size heap = .panicked "dest != NULL" heap := by
  have same : after = heap := by
    rcases lives.malloc size with failed | ⟨target, _, _, allocated, _, _, lives', _⟩
    · rw [failed] at fails
      cases fails
      rfl
    · rw [allocated] at fails
      cases fails
      exact absurd rfl (lives'.ne_zero (Function.update_self ..))
  subst same
  obtain ⟨node, turns, valid, here, nodeSize, run⟩ := lives.realloc_reaches holds size
  refine ⟨rfl, ?_⟩
  rw [run]
  apply loop_panicked
  rw [reallocTurn_larger valid here (nodeSize ▸ larger), fails]
  rfl

/-- The heap after a copy from the start of one block to the start of another. -/
def copied (target ptr count : UInt32) (heap : Heap) : Heap :=
  { heap with memory := heap.memory.copyUp target.toNat ptr.toNat count.toNat }

section Copies

variable {target amount other bytes : UInt32}

/-- A copy into a block changes nothing of the others. -/
theorem copied_apart (lives : Lives area heap live) (targetHolds : live target = some amount)
    (fits : capacity ≤ amount) (otherHolds : live other = some bytes)
    (different : other ≠ target) {address : Nat} (low : other.toNat ≤ address)
    (high : address < other.toNat + bytes.toNat) :
    (copied target ptr capacity heap).memory address = heap.memory address := by
  have apart := lives.apart targetHolds otherHolds different
  have smaller := UInt32.le_iff_toNat_le.mp fits
  exact Memory.copyUp_outside (by omega)

theorem copied_lives (lives : Lives area heap live) (targetHolds : live target = some amount)
    (fits : capacity ≤ amount) : Lives area (copied target ptr capacity heap) live := by
  have smaller := UInt32.le_iff_toNat_le.mp fits
  refine lives.store rfl fun address _ _ outside => ?_
  have out := outside target amount targetHolds
  exact Memory.copyUp_outside (by omega)

/-- The target of a copy holds what the source held. -/
theorem copied_data (lives : Lives area heap live) (holds : live ptr = some capacity)
    (targetHolds : live target = some amount) (different : ptr ≠ target) {offset : Nat}
    (below : offset < capacity.toNat) :
    (copied target ptr capacity heap).memory (target.toNat + offset) =
      heap.memory (ptr.toNat + offset) := by
  have apart := lives.apart targetHolds holds different
  exact Memory.copyUp_inside (by omega) below

end Copies

/-- With room for it, the contents move to a larger block, and the old one is freed. -/
theorem realloc_moves {target : UInt32} {middle : Heap} (lives : Lives area heap live)
    (holds : live ptr = some capacity) (larger : capacity < size)
    (allocated : Libc.malloc size heap = .returned target middle) (valid : target ≠ 0) :
    ∃ amount after, Libc.realloc ptr size heap = .returned target after ∧ live target = none ∧
      size ≤ amount ∧
      Lives area after (Function.update (Function.update live target (some amount)) ptr none) ∧
      (∀ offset < capacity.toNat,
        after.memory (target.toNat + offset) = heap.memory (ptr.toNat + offset)) ∧
      Preserves (Function.update live ptr none) heap.memory after.memory := by
  rcases lives.malloc size with failed | ⟨_, amount, _, again, fresh, room, lives₁, kept₁⟩
  · rw [failed] at allocated
    exact absurd (Outcome.returned.inj allocated).1.symm valid
  rw [again] at allocated
  cases allocated
  have different := live_ne fresh holds
  have holds₁ : Function.update live target (some amount) ptr = some capacity :=
    live_update fresh holds
  have targetHolds : Function.update live target (some amount) target = some amount :=
    Function.update_self ..
  have fits : capacity ≤ amount := UInt32.le_trans (UInt32.le_of_lt larger) room
  have lives₂ : Lives area (copied target ptr capacity middle) _ :=
    lives₁.copied_lives targetHolds fits
  obtain ⟨final, freed, lives₃, kept₃⟩ := lives₂.free holds₁
  refine ⟨amount, final, ?_, fresh, room, lives₃, fun offset below => ?_,
    fun other bytes otherHolds address low high => ?_⟩
  · obtain ⟨node, turns, nodeValid, here, nodeSize, run⟩ := lives.realloc_reaches holds size
    have nodeSize₁ : (middle.node node).size = capacity := by
      subst here
      exact lives₁.nodeSize holds₁
    rw [run]
    apply loop_leave
    rw [reallocTurn_larger nodeValid here (nodeSize ▸ larger), again, Outcome.returned_andThen,
      nodeSize₁, memcpy_eq valid (lives.ne_zero holds), Outcome.returned_within,
      Outcome.returned_andThen]
    have freed' : Libc.free ptr { middle with
        memory := middle.memory.copyUp target.toNat ptr.toNat capacity.toNat } =
          .returned () final := freed
    rw [freed']
    rfl
  · have bound := UInt32.le_iff_toNat_le.mp fits
    calc final.memory (target.toNat + offset)
        = (copied target ptr capacity middle).memory (target.toNat + offset) :=
          (kept₃ target amount targetHolds _ (by omega) (by omega)).symm
      _ = middle.memory (ptr.toNat + offset) :=
          lives₁.copied_data holds₁ targetHolds different below
      _ = heap.memory (ptr.toNat + offset) :=
          (kept₁ ptr capacity holds _ (by omega) (by omega)).symm
  · obtain ⟨_, earlier⟩ := live_of_erased otherHolds
    have otherHolds₁ : Function.update live target (some amount) other = some bytes :=
      live_update fresh earlier
    calc heap.memory address
        = middle.memory address := kept₁ other bytes earlier address low high
      _ = (copied target ptr capacity middle).memory address :=
          (lives₁.copied_apart targetHolds fits otherHolds₁ (live_ne fresh earlier) low high).symm
      _ = final.memory address := kept₃ other bytes otherHolds₁ address low high

/-- `malloc` gives NULL where no node serves the request, and a live pointer otherwise. -/
theorem malloc_serves (lives : Lives area heap live) {nodes : List UInt32}
    (linked : heap.Nodes nodes) (size : UInt32) :
    (Libc.malloc size heap = .returned 0 heap ∧ ∀ node ∈ nodes, heap.serves size node = false) ∨
      ∃ target capacity after, Libc.malloc size heap = .returned target after ∧ target ≠ 0 ∧
        (∃ node ∈ nodes, heap.serves size node = true) ∧ size ≤ capacity ∧
        Lives area after (Function.update live target (some capacity)) := by
  obtain ⟨blocks, represents⟩ := lives.represents
  rcases malloc_refines linked represents lives.abstracts size with
    failed | ⟨target, _, _, allocated, valid, served, _⟩
  · exact Or.inl failed
  rcases lives.malloc size with failed | ⟨_, capacity, after, again, _, room, lives', _⟩
  · rw [allocated] at failed
    exact absurd (Outcome.returned.inj failed).1 valid
  rw [again] at allocated
  cases allocated
  exact Or.inr ⟨target, capacity, _, again, valid, served, room, lives'⟩

/-- `calloc` gives NULL where no node serves the product as the 32-bit number it is, and
otherwise a block that is zeroed that far. -/
theorem calloc (lives : Lives area heap live) {nodes : List UInt32} (linked : heap.Nodes nodes)
    (nmemb size : UInt32) :
    (Libc.calloc nmemb size heap = .returned 0 heap ∧
        ∀ node ∈ nodes, heap.serves (nmemb * size) node = false) ∨
      ∃ target capacity after, Libc.calloc nmemb size heap = .returned target after ∧
        target ≠ 0 ∧ (∃ node ∈ nodes, heap.serves (nmemb * size) node = true) ∧
        nmemb * size ≤ capacity ∧
        Lives area after (Function.update live target (some capacity)) ∧
        ∀ offset < (nmemb * size).toNat, after.memory (target.toNat + offset) = 0 := by
  rw [Libc.calloc]
  rcases lives.malloc_serves linked (nmemb * size) with
    ⟨failed, absent⟩ | ⟨target, capacity, middle, allocated, valid, served, room, lives'⟩
  · rw [failed]
    exact Or.inl ⟨rfl, absent⟩
  have holds : Function.update live target (some capacity) target = some capacity :=
    Function.update_self ..
  have enough := UInt32.le_iff_toNat_le.mp room
  rw [allocated, Outcome.returned_andThen, if_pos valid, memset_eq valid]
  refine Or.inr ⟨target, capacity, _, rfl, valid, served, room,
    lives'.store rfl fun address _ _ outside => ?_, fun offset below => Memory.fill_inside below⟩
  have out := outside target capacity holds
  exact Memory.fill_outside (by omega)

end Lives

/-- The fresh heap with one block of 100 bytes. -/
def blockHeap : Heap := lowHeapAfter [.malloc 100]

theorem blockHeap_run : Run lowHeap [(lowHeapAfter [], .malloc 100)] blockHeap :=
  @lowHeapAfter_run [.malloc 100] (by decide +kernel)

theorem blockHeap_live : ∃ live, Abstracts blockHeap live ∧ live 0x2000c = some 100 :=
  ⟨_, ⟨[0x20000, 0x20070], by decide +kernel, rfl⟩, by decide +kernel⟩

section Runs

variable {area : HeapArea} {log : List (Heap × Call)} {heap after : Heap}
  {live : UInt32 → Option UInt32} {ptr capacity size : UInt32}

/-- What a caller may expect of a `realloc` for which there is no room: NULL, and a heap
in which nothing has changed. -/
def ReallocHarmless (live : UInt32 → Option UInt32) (ptr size : UInt32) (heap : Heap) : Prop :=
  ∃ after, realloc ptr size heap = .returned 0 after ∧
    (∀ nodes, heap.Nodes nodes → after.Nodes nodes ∧
      ∀ node ∈ nodes, after.node node = heap.node node) ∧
    Abstracts after live ∧ Preserves live heap.memory after.memory

/-- In no heap is a `realloc` harmless that finds no room: it always stops at the
assertion of `memcpy`. -/
theorem failed_realloc_never_harmless (run : Run area log heap) (abstracts : Abstracts heap live)
    (holds : live ptr = some capacity) (larger : capacity < size)
    (fails : malloc size heap = .returned 0 after) :
    realloc ptr size heap = .panicked "dest != NULL" heap ∧
      ¬ ReallocHarmless live ptr size heap := by
  have panics := ((run.lives abstracts).realloc_fails holds larger fails).2
  refine ⟨panics, fun ⟨_, returned, _⟩ => ?_⟩
  rw [panics] at returned
  cases returned

/-- Behind the block of 100 bytes there is no room for 5000. -/
theorem blockHeap_full : ∃ after, malloc 5000 blockHeap = .returned 0 after := by
  have fails : (malloc 5000 blockHeap).passes (fun target _ => target == 0) = true := by
    decide +kernel
  obtain ⟨target, after, ran, null⟩ := Outcome.exists_of_passes fails
  obtain rfl : target = 0 := by simpa using null
  exact ⟨after, ran⟩

theorem failed_realloc_never_harmless_block :
    realloc 0x2000c 5000 blockHeap = .panicked "dest != NULL" blockHeap := by
  obtain ⟨live, abstracts, holds⟩ := blockHeap_live
  obtain ⟨after, ran⟩ := blockHeap_full
  exact (failed_realloc_never_harmless blockHeap_run abstracts holds (by decide) ran).1

/-- A block of 100 bytes cannot grow to 5000: there is no room, and the call panics. -/
theorem failed_realloc_panics :
    ∃ live, Abstracts blockHeap live ∧ live 0x2000c = some 100 ∧
      (∃ after, malloc 5000 blockHeap = .returned 0 after) ∧
      ¬ ReallocHarmless live 0x2000c 5000 blockHeap := by
  obtain ⟨live, abstracts, holds⟩ := blockHeap_live
  obtain ⟨after, ran⟩ := blockHeap_full
  refine ⟨live, abstracts, holds, ⟨after, ran⟩, fun ⟨_, returned, _⟩ => ?_⟩
  have stops := ((blockHeap_run.lives abstracts).realloc_fails holds (by decide) ran).2
  rw [stops] at returned
  cases returned

/-- A `realloc` that gives a pointer keeps the contents, and everything else. -/
theorem realloc_preserves {target : UInt32} (run : Run area log heap)
    (abstracts : Abstracts heap live) (holds : live ptr = some capacity)
    (returned : realloc ptr size heap = .returned target after) (valid : target ≠ 0) :
    ∃ live' amount, Abstracts after live' ∧ live' target = some amount ∧ size ≤ amount ∧
      (∀ offset < min capacity.toNat size.toNat,
        after.memory (target.toNat + offset) = heap.memory (ptr.toNat + offset)) ∧
      (target ≠ ptr → live' ptr = none) ∧
      ∀ other bytes, other ≠ ptr → live other = some bytes →
        other ≠ target ∧ live' other = some bytes ∧
          Memory.AgreeOn other.toNat (other.toNat + bytes.toNat) heap.memory after.memory := by
  have lives := run.lives abstracts
  by_cases enough : size ≤ capacity
  · rw [lives.realloc_stays holds enough] at returned
    cases returned
    exact ⟨live, capacity, abstracts, holds, enough, fun _ _ => rfl,
      fun different => absurd rfl different,
      fun other bytes different otherHolds => ⟨different, otherHolds, fun _ _ _ => rfl⟩⟩
  have larger := UInt32.not_le.mp enough
  rcases lives.malloc size with failed | ⟨fresh, amount, middle, allocated, _, _, lives', _⟩
  · rw [(lives.realloc_fails holds larger failed).2] at returned
    cases returned
  have freshValid : fresh ≠ 0 := lives'.ne_zero (Function.update_self ..)
  obtain ⟨amount', final, ran, unused, room, moved, data, kept⟩ :=
    lives.realloc_moves holds larger allocated freshValid
  rw [ran] at returned
  cases returned
  have different := live_ne unused holds
  refine ⟨_, amount', moved.abstracts, ?_, room, fun offset below => data offset (by omega),
    fun _ => Function.update_self .., fun other bytes apart otherHolds => ?_⟩
  · rw [Function.update_of_ne different.symm, Function.update_self]
  · have still : Function.update live ptr none other = some bytes := by
      rwa [Function.update_of_ne apart]
    refine ⟨live_ne unused otherHolds, ?_, kept other bytes still⟩
    rw [Function.update_of_ne apart]
    exact live_update unused otherHolds

theorem realloc_preserves_block :
    ∃ target after, realloc 0x2000c 200 blockHeap = .returned target after ∧ target ≠ 0 ∧
      ∀ offset < 100, after.memory (target.toNat + offset) =
        blockHeap.memory ((0x2000c : UInt32).toNat + offset) := by
  obtain ⟨live, abstracts, holds⟩ := blockHeap_live
  have moves : (realloc 0x2000c 200 blockHeap).passes (fun target _ => target != 0) = true := by
    decide +kernel
  obtain ⟨target, after, ran, found⟩ := Outcome.exists_of_passes moves
  have valid : target ≠ 0 := by simpa using found
  obtain ⟨_, _, _, _, _, data, _⟩ := realloc_preserves blockHeap_run abstracts holds ran valid
  exact ⟨target, after, ran, valid, data⟩

/-- What a caller may expect of `calloc`: NULL and the same heap, or a zeroed block for
as many elements as it asked for. -/
def CallocGives (nmemb size : UInt32) (heap : Heap) : Prop :=
  ∃ target after, calloc nmemb size heap = .returned target after ∧
    (target = 0 → after = heap) ∧
    (target ≠ 0 → ∃ live capacity, Abstracts after live ∧ live target = some capacity ∧
      nmemb.toNat * size.toNat ≤ capacity.toNat ∧
      ∀ offset < nmemb.toNat * size.toNat, after.memory (target.toNat + offset) = 0)

/-- `calloc` gives what it is asked for exactly where the product is a 32-bit number, or
no free node serves what is left of it. -/
theorem calloc_gives_iff (run : Run area log heap) (nmemb : UInt32) :
    CallocGives nmemb size heap ↔ nmemb.toNat * size.toNat < 2 ^ 32 ∨
      ∀ nodes, heap.Nodes nodes → ∀ node ∈ nodes, heap.serves (nmemb * size) node = false := by
  obtain ⟨blocks, represents, _⟩ := run.invariant
  obtain ⟨nodes, linked, _⟩ := represents.linked
  obtain ⟨live, abstracts⟩ := represents.abstracts
  have lives := run.lives abstracts
  have product := UInt32.toNat_mul nmemb size
  rcases lives.calloc linked nmemb size with ⟨null, absent⟩ |
    ⟨target, capacity, after, ran, valid, ⟨node, member, serves⟩, room, lives', zeroed⟩
  · refine iff_of_true ⟨0, heap, null, fun _ => rfl, fun nonNull => absurd rfl nonNull⟩
      (Or.inr fun others othersLinked => ?_)
    rwa [← Links.unique linked othersLinked]
  · have holds : Function.update live target (some capacity) target = some capacity :=
      Function.update_self ..
    constructor
    · rintro ⟨_, _, again, _, gives⟩
      rw [ran] at again
      cases again
      obtain ⟨live', capacity', abstracts', holds', enough, _⟩ := gives valid
      have inside := Lives.inside ⟨lives'.represents, abstracts'⟩ holds'
      have fits := area.fits
      exact Or.inl (by omega)
    · rintro (small | absent)
      · rw [Nat.mod_eq_of_lt small] at product
        rw [UInt32.le_iff_toNat_le, product] at room
        rw [product] at zeroed
        exact ⟨target, after, ran, fun null => absurd null valid,
          fun _ => ⟨_, capacity, lives'.abstracts, holds, room, zeroed⟩⟩
      · rw [absent nodes linked node member] at serves
        cases serves

end Runs

theorem calloc_gives_iff_few :
    CallocGives 10 12 blockHeap ↔ (10 : UInt32).toNat * (12 : UInt32).toNat < 2 ^ 32 ∨
      ∀ nodes, blockHeap.Nodes nodes → ∀ node ∈ nodes,
        blockHeap.serves (10 * 12) node = false :=
  calloc_gives_iff blockHeap_run 10

/-- For 65536 elements of 65536 bytes, `calloc` gives a block of no bytes at all. -/
theorem calloc_product_wraps : ¬ CallocGives 0x10000 0x10000 blockHeap := by
  rintro ⟨target, after, ran, _, gives⟩
  have nonNull : (calloc 0x10000 0x10000 blockHeap).passes (fun target _ => target != 0) =
      true := by decide +kernel
  rw [ran] at nonNull
  have valid : target ≠ 0 := by simpa [Outcome.passes] using nonNull
  obtain ⟨live, capacity, abstracts, _, enough, _⟩ := gives valid
  have bound := capacity.toNat_lt
  exact absurd (Nat.lt_of_le_of_lt enough bound) (by decide)

end Bootloader.Libc
