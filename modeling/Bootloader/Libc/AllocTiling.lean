import Bootloader.Libc.AllocRuns

/-!
# Where the heap loses bytes

The heap is tiled when every node ends exactly where the next one starts. `free`
keeps a tiling, and so does a split of the last node. A split of any other node
counts its rest in whole nodes, so that it keeps the tiling exactly when the rest
is a multiple of the node size.
-/

namespace Bootloader.Libc

open Bootloader.Std Bootloader.Std.BlockList

/-- Every node ends where the next one starts, and the last one with the heap. -/
def Tiles (heap : Heap) : Prop :=
  ∃ nodes, heap.Nodes nodes ∧
    ∀ node ∈ nodes, node.toNat + 12 + (heap.node node).size.toNat = heap.limit node

/-- No node of the list is in use. -/
def AllFree (heap : Heap) : Prop :=
  ∀ nodes, heap.Nodes nodes → ∀ node ∈ nodes, (heap.node node).used = false

/-- The list is the one free node that `heap_init` builds. -/
def Pristine (heap : Heap) : Prop :=
  heap.Nodes [heap.heapList] ∧ (heap.node heap.heapList).used = false ∧
    (heap.node heap.heapList).size = heapMaxSize - sizeofHeapNode

/-- The nodes tile the heap, and once all are free they are a single node again. -/
def LosesNothing (heap : Heap) : Prop := Tiles heap ∧ (AllFree heap → Pristine heap)

/-- The node `malloc` takes for this request is the last one, or is not split, or
leaves a rest of whole nodes behind the request. -/
def SplitsEvenly (heap : Heap) (size : UInt32) : Prop :=
  ∀ nodes node, heap.Nodes nodes → nodes.find? (heap.serves size) = some node →
    (heap.node node).next ≠ 0 → size.toNat + 12 < (heap.node node).size.toNat →
      12 ∣ (heap.node node).size.toNat - size.toNat

/-- The condition on a call made in a given heap. -/
def KeepsTiling : Heap × Call → Prop
  | (heap, .malloc size) => SplitsEvenly heap size
  | _ => True

/-- The calls that are neither `calloc` nor `realloc`. -/
def Call.Basic : Call → Prop
  | .malloc _ | .free _ => True
  | .calloc _ _ | .realloc _ _ => False

section Tilings

variable {area : HeapArea} {heap after : Heap} {blocks : List Block}

/-- A heap is tiled when the blocks it stands for are. -/
theorem tiles_iff (represents : Represents area heap blocks) :
    Tiles heap ↔ Tiling headerWidth area.start.toNat (area.start.toNat + 4096) blocks := by
  obtain ⟨nodes, linked, rfl⟩ := represents.linked
  have first : heap.heapList.toNat =
      ceiling (heap.heapList.toNat + 4096) (nodes.map heap.block) := by
    cases nodes with
    | nil => exact absurd linked represents.heapList_ne_zero
    | cons first rest =>
        rw [linked.1]
        rfl
  rw [← represents.list, Tiling, arranged_nodes linked]
  constructor
  · rintro ⟨others, othersLinked, ends⟩
    obtain rfl : nodes = others := Links.unique linked othersLinked
    exact ⟨first, ends⟩
  · rintro ⟨_, ends⟩
    exact ⟨nodes, linked, ends⟩

/-- Taking a block of a tiling leaves a tiling exactly when the block is the last
one, or is not split, or its rest is a whole number of headers. -/
theorem tiling_allocated {before rest : List Block} {block : Block} {size : Nat}
    (tiling : Tiling headerWidth area.start.toNat (area.start.toNat + 4096)
      (before ++ block :: rest)) :
    Tiling headerWidth area.start.toNat (area.start.toNat + 4096)
        (allocated area before block rest size) ↔
      (rest ≠ [] → size + 12 < block.size → 12 ∣ block.size - size) := by
  have taken := arranged_mark true tiling
  obtain ⟨front, back⟩ := arranged_append.mp tiling
  by_cases room : size + headerWidth < block.size
  · simp only [allocated, carve, if_pos room, List.append_assoc, List.cons_append,
      List.nil_append]
    rw [Tiling, arranged_append]
    cases rest with
    | nil =>
        simp only [Arranged, remainder, finish_headerWidth, headerWidth] at back room ⊢
        constructor
        · exact fun _ absurd => (absurd rfl).elim
        · exact fun _ => ⟨front, trivial, by omega⟩
    | cons next later =>
        obtain ⟨start, further⟩ := back
        simp only [Arranged, remainder, finish_headerWidth, headerWidth] at start room ⊢
        constructor
        · rintro ⟨_, _, exact, _⟩ _ _
          omega
        · intro even
          have whole := even (by simp) room
          exact ⟨front, trivial, by omega, further⟩
  · rw [allocated, carve, if_neg room]
    simp only [List.append_assoc, List.cons_append, List.nil_append]
    exact ⟨fun _ _ split => absurd split room, fun _ => taken⟩

/-- What one `malloc` does to a tiling. -/
theorem malloc_tiles {size ptr : UInt32} (represents : Represents area heap blocks)
    (tiles : Tiles heap) (returned : malloc size heap = .returned ptr after) :
    Tiles after ↔ SplitsEvenly heap size := by
  have tiling := (tiles_iff represents).mp tiles
  obtain ⟨nodes, linked, rfl, ⟨search, fails⟩ | ⟨before, node, behind, ptr, final, rfl, search, _,
    succeeds, represents'⟩⟩ := malloc_cases represents size
  · rw [fails] at returned
    cases returned
    refine ⟨fun _ others node othersLinked found => ?_, fun _ => tiles⟩
    obtain rfl : nodes = others := Links.unique linked othersLinked
    rw [search] at found
    cases found
  · rw [succeeds] at returned
    cases returned
    rw [List.map_append, List.map_cons] at tiling
    have last : behind.map heap.block ≠ [] ↔ (heap.node node).next ≠ 0 := by
      obtain ⟨middle, rfl, _, later⟩ := linked.suffix
      cases behind with
      | nil => simpa [Links] using later
      | cons next rest => simpa using later.2.1
    rw [tiles_iff represents', tiling_allocated tiling, last]
    constructor
    · intro even others other othersLinked found
      obtain rfl : before ++ node :: behind = others := Links.unique linked othersLinked
      rw [search] at found
      cases found
      exact even
    · exact fun even => even _ node linked search

/-- `free` keeps a tiling. -/
theorem free_tiles {ptr : UInt32} (represents : Represents area heap blocks)
    (tiles : Tiles heap) (returned : free ptr heap = .returned () after) : Tiles after := by
  have tiling := (tiles_iff represents).mp tiles
  obtain ⟨nodes, _, rfl, ⟨_, absent⟩ | ⟨before, node, behind, rfl, _, ⟨_, panics⟩ |
    ⟨_, final, frees, represents'⟩⟩⟩ := free_cases represents ptr
  · rw [absent] at returned
    cases returned
    exact tiles
  · rw [panics] at returned
    cases returned
  · rw [frees] at returned
    cases returned
    rw [List.map_append, List.map_cons] at tiling
    exact (tiles_iff represents').mpr
      (arranged_release (fun finish start width stop first second => by omega) tiling)

/-- A tiled heap without a node in use is the one `heap_init` builds. -/
theorem HeapInvariant.pristine (invariant : HeapInvariant area heap) (tiles : Tiles heap)
    (free : AllFree heap) : Pristine heap := by
  obtain ⟨blocks, represents, coalesced⟩ := invariant
  have tiling := (tiles_iff represents).mp tiles
  obtain ⟨nodes, linked, rfl⟩ := represents.linked
  have inhabited : nodes.map heap.block ≠ [] := by
    rintro nothing
    rw [List.map_eq_nil_iff.mp nothing] at linked
    exact represents.heapList_ne_zero linked
  have single := Tiling.single_of_free tiling coalesced inhabited
    (List.forall_mem_map.mpr (free nodes linked))
  obtain ⟨node, rfl, block⟩ := List.map_eq_singleton_iff.mp single
  obtain rfl : heap.heapList = node := linked.1
  simp only [Heap.block, Block.mk.injEq, headerWidth] at block
  refine ⟨linked, block.2.2, ?_⟩
  apply UInt32.toNat_inj.mp
  rw [block.2.1]
  simp [heapMaxSize, sizeofHeapNode]

theorem HeapInvariant.losesNothing_iff (invariant : HeapInvariant area heap) :
    LosesNothing heap ↔ Tiles heap :=
  ⟨And.left, fun tiles => ⟨tiles, invariant.pristine tiles⟩⟩

/-- A basic call keeps a tiling exactly under its condition. -/
theorem HeapInvariant.call_tiles {call : Call} (invariant : HeapInvariant area heap)
    (basic : call.Basic) (tiles : Tiles heap) (returned : call.run heap = .returned () after) :
    Tiles after ↔ KeepsTiling (heap, call) := by
  obtain ⟨blocks, represents, _⟩ := invariant
  cases call with
  | malloc size =>
      obtain ⟨ptr, middle, returned, same⟩ := Outcome.andThen_eq_returned returned
      cases same
      exact malloc_tiles represents tiles returned
  | free ptr => exact iff_of_true (free_tiles represents tiles returned) trivial
  | calloc nmemb size => exact basic.elim
  | realloc ptr size => exact basic.elim

end Tilings

/-- Along a run of `malloc` and `free` calls, the heap loses no byte in any heap
reached exactly when every split of a node that is not the last one is even. -/
theorem heap_loses_nothing_iff {area : HeapArea} {log : List (Heap × Call)} {heap : Heap}
    (run : Run area log heap) (basic : ∀ event ∈ log, event.2.Basic) :
    (∀ event ∈ log, LosesNothing event.1) ∧ LosesNothing heap ↔
      ∀ event ∈ log, KeepsTiling event := by
  induction run with
  | init memory =>
      have represents := heapInit_represents area memory
      have invariant : HeapInvariant area (heapInit area.start memory) :=
        ⟨_, represents, List.isChain_singleton _⟩
      have tiles : Tiles (heapInit area.start memory) :=
        (tiles_iff represents).mpr ⟨rfl, by simp [Arranged]⟩
      simpa using invariant.losesNothing_iff.mpr tiles
  | @call log heap after call run returned inductionHypothesis =>
      rw [List.forall_mem_append] at basic
      have earlier := inductionHypothesis basic.1
      have step : LosesNothing heap → (LosesNothing after ↔ KeepsTiling (heap, call)) := by
        intro sound
        have last := run.call call returned
        rw [last.invariant.losesNothing_iff]
        exact run.invariant.call_tiles (basic.2 _ (List.mem_singleton.mpr rfl)) sound.1 returned
      simp only [List.forall_mem_append, List.forall_mem_singleton, ← earlier]
      constructor
      · rintro ⟨sound, final⟩
        exact ⟨sound, (step sound.2).mp final⟩
      · rintro ⟨sound, even⟩
        exact ⟨sound, (step sound.2).mpr even⟩
  | @write log heap address byte run mayWrite inductionHypothesis =>
      have invariant := run.invariant
      have unchanged : LosesNothing (heap.write address byte) ↔ LosesNothing heap := by
        rw [(invariant.write mayWrite byte).losesNothing_iff, invariant.losesNothing_iff]
        obtain ⟨blocks, represents, _⟩ := invariant
        rw [tiles_iff represents, tiles_iff (represents.write mayWrite byte)]
      rw [unchanged]
      exact inductionHypothesis basic

theorem heap_loses_nothing_iff_worked :
    (∀ event ∈ lowHeapLog workedCalls, LosesNothing event.1) ∧ LosesNothing workedHeap ↔
      ∀ event ∈ lowHeapLog workedCalls, KeepsTiling event :=
  heap_loses_nothing_iff workedHeap_run (by
    simp only [workedCalls, lowHeapLog, List.forall_mem_append, List.forall_mem_singleton,
      Call.Basic, List.not_mem_nil, false_implies, implies_true, and_true])

/-- A block of 100 bytes is freed in front of one in use, and 10 of its bytes are
handed out again: the rest of 90 is counted as seven nodes, and six bytes are lost. -/
theorem uneven_split_leaks :
    ∃ log, log.map Prod.snd = [.malloc 100, .malloc 10, .free 0x2000c, .malloc 10] ∧
      Run lowHeap log (lowHeapAfter [.malloc 10, .free 0x2000c, .malloc 10, .malloc 100]) ∧
      ¬ LosesNothing (lowHeapAfter [.malloc 10, .free 0x2000c, .malloc 10, .malloc 100]) := by
  refine ⟨_, rfl, lowHeapAfter_run (by decide +kernel), ?_⟩
  rintro ⟨⟨nodes, linked, ends⟩, _⟩
  have known : (lowHeapAfter [.malloc 10, .free 0x2000c, .malloc 10, .malloc 100]).Nodes
      [0x20000, 0x20016, 0x20070, 0x20086] := by
    decide +kernel
  obtain rfl := Links.unique known linked
  have cut := ends 0x20016 (by simp)
  revert cut
  decide +kernel

end Bootloader.Libc
