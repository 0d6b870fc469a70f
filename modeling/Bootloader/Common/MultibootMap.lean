import Bootloader.Common.Multiboot
import Bootloader.Libc.AllocContents

/-!
# The memory map that the header advertises

`multiboot_fill_header` fills the array only when there is one, and puts the number of its
entries into the header in either case. `mmap_advertised_iff` says for which heaps the
header keeps its word.
-/

namespace Bootloader.Common

open Bootloader.Std Bootloader.Libc Bootloader.Arch

/-- What an entry of the BIOS becomes in the array. -/
def filledEntry (entry : SmapEntry) : MmapEntry where
  size := 20
  addr := entry.baseL.toUInt64
  len := entry.lengthL.toUInt64
  type := entry.type

/-- The array a header points at is behind a live pointer, and has the entries of the BIOS in
the number that the header says. -/
def HoldsMap (mbi : MultibootInfo) (heap : Heap) (entries : List SmapEntry) : Prop :=
  ∃ live capacity, Abstracts heap live ∧ live mbi.mmapAddr = some capacity ∧
    entries.length = mbi.mmapLength.toNat ∧ 24 * entries.length ≤ capacity.toNat ∧
    ∀ index (inside : index < entries.length),
      loadEntry heap.memory (mbi.mmapAddr.toNat + 24 * index) = filledEntry entries[index]

/-- A header that was filled in this heap and left in that one has the map it advertises, and
advertises none when `malloc` has failed. -/
structure AdvertisesItsMap (smap : Option (List SmapEntry)) (before after : Heap)
    (mbi : MultibootInfo) : Prop where
  advertised : mbi.mmapLength ≠ 0 → ∃ entries, smap = some entries ∧ HoldsMap mbi after entries
  refused : ∀ entries left, smap = some entries →
    malloc (UInt32.ofNat entries.length * sizeofMemoryMap) before = .returned 0 left →
    mbi.mmapLength = 0 ∧ mbi.mmapAddr = 0

section Entries

variable {memory : Memory} {address : UInt32} {entries : List SmapEntry}

/-- Every entry of the array. -/
theorem loadEntry_storeEntries_get (fits : address.toNat + 24 * entries.length < 2 ^ 32)
    (index : Nat) (inside : index < entries.length) :
    loadEntry (storeEntries address entries memory) (address.toNat + 24 * index) =
      filledEntry entries[index] := by
  induction entries generalizing address memory index with
  | nil => cases inside
  | cons entry rest inductionHypothesis =>
      cases index with
      | zero => exact loadEntry_storeEntries fits
      | succ index =>
          have width : sizeofMemoryMap.toNat = 24 := rfl
          rw [List.length_cons] at fits inside
          have next : (address + sizeofMemoryMap).toNat = address.toNat + 24 :=
            toNat_add_of_lt (by omega)
          have later := @inductionHypothesis (storeEntry address entry memory)
            (address + sizeofMemoryMap) (by omega) index (by omega)
          rwa [next, Nat.add_assoc, Nat.add_comm 24, ← Nat.mul_succ] at later

end Entries

section Advertised

variable {area : HeapArea} {log : List (Heap × Call)} {heap : Heap} {probes : Probes}
  {header : MultibootInfo} {smap : Option (List SmapEntry)} {bios : E820Bios}
  {turns calls : Nat} {entries : List SmapEntry} {live : UInt32 → Option UInt32}

/-- Filling the array of a live pointer changes nothing else that is live. -/
theorem lives_storeEntries {target capacity : UInt32} (lives : Lives area heap live)
    (holds : live target = some capacity) (room : 24 * entries.length ≤ capacity.toNat) :
    Lives area { heap with memory := storeEntries target entries heap.memory } live := by
  have inside := lives.inside holds
  have fits := area.fits
  refine lives.store rfl fun address _ _ outside => ?_
  have out := outside target capacity holds
  exact storeEntries_outside (by omega) (by omega)

theorem toNat_entryCount (few : entries.length ≤ 20) :
    (UInt32.ofNat entries.length).toNat = entries.length := by
  rw [UInt32.toNat_ofNat']
  omega

/-- Without room for the array, the header keeps its word for an empty map only. -/
theorem advertisesItsMap_refused (few : entries.length ≤ 20)
    (failed : malloc (UInt32.ofNat entries.length * sizeofMemoryMap) heap = .returned 0 heap)
    (probes : Probes) (header : MultibootInfo) :
    ∃ mbi, multibootFillHeader probes (some entries) header heap = .returned mbi heap ∧
      (AdvertisesItsMap (some entries) heap heap mbi ↔ entries = []) := by
  refine ⟨_, by rw [multibootFillHeader, fillMmap, failed]; rfl, ?_⟩
  constructor
  · intro honest
    have nothing := congrArg UInt32.toNat (honest.refused entries heap rfl failed).1
    rw [toNat_entryCount few] at nothing
    exact List.length_eq_zero_iff.mp nothing
  · rintro rfl
    exact ⟨fun advertised => absurd rfl advertised, fun _ _ _ _ => ⟨rfl, rfl⟩⟩

/-- With the array granted, the header has the map it advertises. -/
theorem advertisesItsMap_granted {target capacity : UInt32} {middle : Heap}
    (few : entries.length ≤ 20)
    (allocated : malloc (UInt32.ofNat entries.length * sizeofMemoryMap) heap =
      .returned target middle) (valid : target ≠ 0) (lives : Lives area middle live)
    (holds : live target = some capacity)
    (room : UInt32.ofNat entries.length * sizeofMemoryMap ≤ capacity) (probes : Probes)
    (header : MultibootInfo) :
    ∃ mbi final, multibootFillHeader probes (some entries) header heap = .returned mbi final ∧
      AdvertisesItsMap (some entries) heap final mbi := by
  have enough := UInt32.le_iff_toNat_le.mp room
  rw [toNat_mapSize few] at enough
  have inside := (lives.inside holds).2
  have fits := area.fits
  have filled := lives_storeEntries lives holds enough
  have ran : multibootFillHeader probes (some entries) header heap = .returned
      { fillMemUpper probes (fillMemLower probes (fillBootDevice probes header)) with
        mmapLength := UInt32.ofNat entries.length, mmapAddr := target }
      { middle with memory := storeEntries target entries middle.memory } := by
    rw [multibootFillHeader, fillMmap, allocated, Outcome.returned_andThen, if_pos valid]
  refine ⟨_, _, ran, fun _ => ⟨entries, rfl, live, capacity, filled.abstracts, holds,
    (toNat_entryCount few).symm, enough, loadEntry_storeEntries_get (by omega)⟩, ?_⟩
  rintro found left ⟨⟩ failed
  rw [allocated] at failed
  exact absurd (Outcome.returned.inj failed).1 valid

/-- The header has the map it advertises exactly when there is none to advertise or the heap
has a free node for it. -/
theorem mmap_advertised_iff (detected : e820DetectMem turns bios 20 = .returned smap calls)
    (run : Run area log heap) (probes : Probes) (header : MultibootInfo) :
    ∃ mbi final, multibootFillHeader probes smap header heap = .returned mbi final ∧
      (AdvertisesItsMap smap heap final mbi ↔
        ∀ entries, smap = some entries → entries ≠ [] → ∃ nodes, heap.Nodes nodes ∧
          ∃ node ∈ nodes,
            heap.serves (UInt32.ofNat entries.length * sizeofMemoryMap) node = true) := by
  cases smap with
  | none =>
      refine ⟨_, _, rfl, iff_of_true ⟨fun advertised => absurd rfl advertised, ?_⟩ ?_⟩
      · exact fun _ _ impossible => nomatch impossible
      · exact fun _ impossible => nomatch impossible
  | some entries =>
      have few : entries.length ≤ 20 := e820DetectMem_fits (by decide) detected
      obtain ⟨blocks, represents, _⟩ := run.invariant
      obtain ⟨nodes, linked, _⟩ := represents.linked
      obtain ⟨live, abstracts⟩ := represents.abstracts
      rcases (run.lives abstracts).malloc_serves linked
          (UInt32.ofNat entries.length * sizeofMemoryMap) with
        ⟨failed, absent⟩ | ⟨target, capacity, middle, allocated, valid, served, room, lives⟩
      · obtain ⟨mbi, filled, honest⟩ := advertisesItsMap_refused few failed probes header
        refine ⟨mbi, heap, filled, honest.trans ?_⟩
        constructor
        · rintro rfl found ⟨⟩ nonempty
          exact absurd rfl nonempty
        · intro served
          by_contra nonempty
          obtain ⟨others, othersLinked, node, member, serves⟩ := served entries rfl nonempty
          obtain rfl := Links.unique linked othersLinked
          rw [absent node member] at serves
          cases serves
      · obtain ⟨mbi, final, filled, honest⟩ := advertisesItsMap_granted few allocated valid lives
          (Function.update_self ..) room probes header
        refine ⟨mbi, final, filled, iff_of_true honest ?_⟩
        rintro found ⟨⟩ _
        exact ⟨nodes, linked, served⟩

end Advertised

/-- A heap that has just been initialised has room for the map of a single range. -/
theorem mmap_advertised_iff_singleRange :
    ∃ mbi final, multibootFillHeader bareProbes (some [singleRange]) clearHeader
        (heapInit lowHeap.start fun _ => 0) = .returned mbi final ∧
      AdvertisesItsMap (some [singleRange]) (heapInit lowHeap.start fun _ => 0) final mbi := by
  obtain ⟨mbi, final, filled, honest⟩ := mmap_advertised_iff singleRange_detected
    (@Run.init lowHeap fun _ => 0) bareProbes clearHeader
  refine ⟨mbi, final, filled, honest.mpr ?_⟩
  rintro entries ⟨⟩ _
  exact ⟨[0x20000], by decide +kernel, 0x20000, List.mem_cons_self, by decide +kernel⟩

/-- The fresh heap with one block that takes all of it. -/
def exhaustedHeap : Heap := lowHeapAfter [.malloc 4084]

theorem exhaustedHeap_run : Run lowHeap [(lowHeapAfter [], .malloc 4084)] exhaustedHeap :=
  @lowHeapAfter_run [.malloc 4084] (by decide +kernel)

/-- In a heap without room, a header says that there is one entry at address 0. -/
theorem header_advertises_nothing :
    ∃ mbi, e820DetectMem 1 singleRangeBios 20 = .returned (some [singleRange]) 1 ∧
      multibootFillHeader bareProbes (some [singleRange]) clearHeader exhaustedHeap =
        .returned mbi exhaustedHeap ∧
      ¬ AdvertisesItsMap (some [singleRange]) exhaustedHeap exhaustedHeap mbi := by
  obtain ⟨blocks, represents, _⟩ := exhaustedHeap_run.invariant
  obtain ⟨live, abstracts⟩ := represents.abstracts
  have linked : exhaustedHeap.Nodes [0x20000] := by decide +kernel
  have full : exhaustedHeap.serves 24 0x20000 = false := by decide +kernel
  rcases (exhaustedHeap_run.lives abstracts).malloc_serves linked 24 with
    ⟨failed, _⟩ | ⟨_, _, _, _, _, ⟨node, member, serves⟩, _⟩
  · obtain ⟨mbi, filled, honest⟩ := @advertisesItsMap_refused exhaustedHeap [singleRange]
      (by decide) failed bareProbes clearHeader
    refine ⟨mbi, singleRange_detected, filled, fun advertises => ?_⟩
    exact absurd (honest.mp advertises) (List.cons_ne_nil _ _)
  · rw [List.mem_singleton.mp member, full] at serves
    cases serves

end Bootloader.Common
