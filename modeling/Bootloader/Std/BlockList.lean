import Mathlib.Data.List.Chain
import Mathlib.Data.List.Nodup

/-!
# Address-ordered block lists

The blocks of an allocator that keeps one header in front of every payload, in
address order. `Arranged` lays such a list out between two addresses, with a
parameter for what the space between one block's end and the next block's start
may be: `Layout` allows gaps, `Tiling` allows none. `carve` and `fuse` are the
two ways an allocator changes a list, splitting a free block and merging a free
block into the free block before it, and both keep either arrangement.
-/

namespace Bootloader.Std

/-- A block: the address of its header, the size of its payload, and whether the
payload has been handed out. -/
structure Block where
  start : Nat
  size : Nat
  used : Bool
deriving DecidableEq, Repr

namespace Block

/-- The first address of the payload. -/
def payload (header : Nat) (block : Block) : Nat := block.start + header

/-- The address just after the payload. -/
def finish (header : Nat) (block : Block) : Nat := block.start + header + block.size

end Block

namespace BlockList

variable {header : Nat} {gap : Nat → Nat → Prop} {low high : Nat}

/-- Blocks follow one another from `low` to `high`, with `gap` between the end
of each and the start of the next. -/
def Arranged (header : Nat) (gap : Nat → Nat → Prop) : Nat → Nat → List Block → Prop
  | low, high, [] => gap low high
  | low, high, block :: rest =>
      gap low block.start ∧ Arranged header gap (block.finish header) high rest

/-- No block overlaps the next one. -/
abbrev Layout (header : Nat) : Nat → Nat → List Block → Prop := Arranged header (· ≤ ·)

/-- Every block ends where the next one starts. -/
abbrev Tiling (header : Nat) : Nat → Nat → List Block → Prop := Arranged header (· = ·)

/-- The address a list of blocks must not be entered before. -/
def ceiling (high : Nat) : List Block → Nat
  | [] => high
  | block :: _ => block.start

theorem arranged_append {before after : List Block} {block : Block} :
    Arranged header gap low high (before ++ block :: after) ↔
      Arranged header gap low block.start before ∧
        Arranged header gap (block.finish header) high after := by
  induction before generalizing low with
  | nil => rfl
  | cons first rest inductionHypothesis =>
      simp only [List.cons_append, Arranged, inductionHypothesis, and_assoc]

/-- The arrangement does not depend on which blocks are in use. -/
theorem arranged_mark {before after : List Block} {block : Block} (used : Bool)
    (arranged : Arranged header gap low high (before ++ block :: after)) :
    Arranged header gap low high (before ++ { block with used := used } :: after) := by
  have parts := arranged_append.mp arranged
  exact arranged_append.mpr ⟨parts.1, parts.2⟩

/-- Only the space before its first block ties a list to where it starts. -/
theorem arranged_rebase {other : Nat} {blocks : List Block}
    (arranged : Arranged header gap low high blocks) (reach : gap other (ceiling high blocks)) :
    Arranged header gap other high blocks := by
  cases blocks with
  | nil => exact reach
  | cons block rest => exact ⟨reach, arranged.2⟩

theorem arranged_ceiling {blocks : List Block}
    (arranged : Arranged header gap low high blocks) : gap low (ceiling high blocks) := by
  cases blocks with
  | nil => exact arranged
  | cons block rest => exact arranged.1

/-- A tiling is in particular a layout. -/
theorem Tiling.layout {blocks : List Block} (tiling : Tiling header low high blocks) :
    Layout header low high blocks := by
  induction blocks generalizing low with
  | nil => exact Nat.le_of_eq tiling
  | cons block rest inductionHypothesis =>
      exact ⟨Nat.le_of_eq tiling.1, inductionHypothesis tiling.2⟩

namespace Layout

variable {blocks : List Block}

/-- A list that fits between two addresses has no more blocks than headers fit. -/
theorem length_le (layout : Layout header low high blocks) :
    low + header * blocks.length ≤ high := by
  induction blocks generalizing low with
  | nil => exact layout
  | cons block rest inductionHypothesis =>
      have later := inductionHypothesis layout.2
      have first : low ≤ block.start := layout.1
      simp only [Block.finish] at later
      rw [List.length_cons, Nat.mul_add, Nat.mul_one]
      omega

theorem low_le_high (layout : Layout header low high blocks) : low ≤ high :=
  Nat.le_trans (Nat.le_add_right _ _) layout.length_le

/-- Every block lies between the two ends. -/
theorem within (layout : Layout header low high blocks) {block : Block} (member : block ∈ blocks) :
    low ≤ block.start ∧ block.finish header ≤ high := by
  induction blocks generalizing low with
  | nil => cases member
  | cons first rest inductionHypothesis =>
      have start : low ≤ first.start := layout.1
      rcases List.mem_cons.mp member with rfl | later
      · exact ⟨start, low_le_high layout.2⟩
      · have inside := inductionHypothesis layout.2 later
        simp only [Block.finish] at inside ⊢
        omega

/-- Each block ends at or before the start of every later one. -/
theorem pairwise (layout : Layout header low high blocks) :
    blocks.Pairwise fun left right => left.finish header ≤ right.start := by
  induction blocks generalizing low with
  | nil => exact List.Pairwise.nil
  | cons first rest inductionHypothesis =>
      exact List.Pairwise.cons (fun later member => (within layout.2 member).1)
        (inductionHypothesis layout.2)

/-- Headers have a width, so addresses increase strictly along the list. -/
theorem starts_increase (layout : Layout header low high blocks) (wide : 0 < header) :
    (blocks.map Block.start).Pairwise (· < ·) := by
  rw [List.pairwise_map]
  apply layout.pairwise.imp
  intro left right apart
  simp only [Block.finish] at apart
  omega

end Layout

/-- The blocks in use, in address order. -/
def inUse (blocks : List Block) : List Block := blocks.filter Block.used

theorem inUse_append (before after : List Block) :
    inUse (before ++ after) = inUse before ++ inUse after :=
  List.filter_append before after

theorem inUse_cons (block : Block) (rest : List Block) :
    inUse (block :: rest) = if block.used then block :: inUse rest else inUse rest :=
  List.filter_cons

/-- No two neighbouring blocks are both free. -/
def Coalesced (blocks : List Block) : Prop :=
  blocks.IsChain fun left right => left.used = true ∨ right.used = true

/-- Replacing the end of a coalesced list keeps it coalesced when the new end is
coalesced and does not bring a free block next to the kept part. -/
theorem Coalesced.replace {before after other : List Block}
    (coalesced : Coalesced (before ++ after)) (end_coalesced : Coalesced other)
    (seam : ∀ block ∈ other.head?, block.used = true ∨
      ∃ previous ∈ after.head?, previous.used = block.used) :
    Coalesced (before ++ other) := by
  unfold Coalesced at coalesced end_coalesced ⊢
  rw [List.isChain_append] at coalesced ⊢
  refine ⟨coalesced.1, end_coalesced, fun last isLast block isHead => ?_⟩
  rcases seam block isHead with inUse | ⟨previous, wasHead, same⟩
  · exact Or.inr inUse
  · rw [← same]
    exact coalesced.2.2 last isLast previous wasHead

/-- Hand out `size` bytes at the front of a block. The rest becomes a free block
of size `remainder` when it has room for a header and at least one byte. -/
def carve (header size remainder : Nat) (block : Block) : List Block :=
  if size + header < block.size then
    [⟨block.start, size, true⟩, ⟨block.start + header + size, remainder, false⟩]
  else
    [{ block with used := true }]

section Carve

variable {size remainder : Nat} {block : Block} {before after : List Block}

theorem arranged_carve (reflexive : ∀ address, gap address address)
    (arranged : Arranged header gap low high (before ++ block :: after))
    (reach : size + header < block.size →
      gap (block.start + header + size + header + remainder) (ceiling high after)) :
    Arranged header gap low high (before ++ carve header size remainder block ++ after) := by
  have parts := arranged_append.mp arranged
  rw [carve]
  split
  · rename_i room
    simp only [List.append_assoc, List.cons_append, List.nil_append]
    exact arranged_append.mpr
      ⟨parts.1, reflexive _, arranged_rebase parts.2 (reach room)⟩
  · simp only [List.append_assoc, List.cons_append, List.nil_append]
    exact arranged_mark true arranged

/-- Carving a free block adds exactly the block handed out to those in use. -/
theorem inUse_carve :
    inUse (before ++ carve header size remainder block ++ after) =
      inUse before ++ ⟨block.start, if size + header < block.size then size else block.size,
        true⟩ :: inUse after := by
  rw [carve]
  split <;> simp [inUse]

theorem coalesced_carve (free : block.used = false)
    (coalesced : Coalesced (before ++ block :: after)) :
    Coalesced (before ++ carve header size remainder block ++ after) := by
  have tail : Coalesced (block :: after) := List.IsChain.right_of_append coalesced
  have rest : Coalesced after := List.IsChain.tail tail
  rw [List.append_assoc]
  refine coalesced.replace ?_ ?_
  · rw [carve]
    split
    · refine List.isChain_cons_cons.mpr ⟨Or.inl rfl, ?_⟩
      refine List.IsChain.cons rest fun next isHead => Or.inr ?_
      have beside := List.IsChain.rel_head? tail isHead
      simpa [free] using beside
    · exact List.IsChain.cons rest fun _ _ => Or.inl rfl
  · intro head isHead
    refine Or.inl ?_
    rw [carve] at isHead
    split at isHead <;> (cases isHead; rfl)

end Carve

/-- Put a block in front of a list, merging it with the first block of the list
when both are free. -/
def fuse (header : Nat) (block : Block) : List Block → List Block
  | [] => [block]
  | next :: rest =>
      if block.used || next.used then block :: next :: rest
      else ⟨block.start, block.size + header + next.size, false⟩ :: rest

section Fuse

variable {block : Block} {blocks : List Block}

theorem arranged_fuse {before : List Block}
    (shift : ∀ finish start width stop, gap finish start → gap (start + width) stop →
      gap (finish + width) stop)
    (arranged : Arranged header gap low high (before ++ block :: blocks)) :
    Arranged header gap low high (before ++ fuse header block blocks) := by
  cases blocks with
  | nil => exact arranged
  | cons next rest =>
      rw [fuse]
      split
      · exact arranged
      · obtain ⟨first, second, later⟩ := arranged_append.mp arranged
        refine arranged_append.mpr ⟨first, arranged_rebase later ?_⟩
        have reach := arranged_ceiling later
        simp only [Block.finish] at reach second ⊢
        have widened := shift _ _ (header + next.size) _ second (by rwa [← Nat.add_assoc])
        rwa [show block.start + header + block.size + (header + next.size) =
          block.start + header + (block.size + header + next.size) by omega] at widened

/-- Merging concerns free blocks only. -/
theorem inUse_fuse : inUse (fuse header block blocks) = inUse (block :: blocks) := by
  cases blocks with
  | nil => rfl
  | cons next rest =>
      rw [fuse]
      split
      · rfl
      · rename_i free
        rw [Bool.or_eq_true, not_or, Bool.not_eq_true, Bool.not_eq_true] at free
        simp [inUse, free.1, free.2]

/-- A merged block starts where the block put in front started, and is free
exactly when that one was. -/
theorem head_fuse : ∃ size rest,
    fuse header block blocks = ⟨block.start, size, block.used⟩ :: rest := by
  cases blocks with
  | nil => exact ⟨block.size, [], rfl⟩
  | cons next rest =>
      rw [fuse]
      split
      · exact ⟨block.size, next :: rest, rfl⟩
      · rename_i free
        rw [Bool.or_eq_true, not_or, Bool.not_eq_true] at free
        exact ⟨block.size + header + next.size, rest, by rw [free.1]⟩

theorem coalesced_fuse (coalesced : Coalesced blocks) : Coalesced (fuse header block blocks) := by
  cases blocks with
  | nil => exact List.isChain_singleton block
  | cons next rest =>
      rw [fuse]
      split
      · rename_i beside
        exact List.IsChain.cons_cons (by simpa using beside) coalesced
      · rename_i free
        rw [Bool.or_eq_true, not_or, Bool.not_eq_true, Bool.not_eq_true] at free
        refine List.IsChain.cons (List.IsChain.tail coalesced) fun later isHead => Or.inr ?_
        simpa [free.2] using List.IsChain.rel_head? coalesced isHead

end Fuse

/-- Free a block and merge it with the free blocks next to it. -/
def release (header : Nat) (before : List Block) (block : Block) (after : List Block) :
    List Block :=
  let merged := fuse header { block with used := false } after
  match before.getLast? with
  | none => merged
  | some previous => before.dropLast ++ fuse header previous merged

theorem release_nil (block : Block) (after : List Block) :
    release header [] block after = fuse header { block with used := false } after := rfl

theorem release_snoc (before : List Block) (previous block : Block) (after : List Block) :
    release header (before ++ [previous]) block after =
      before ++ fuse header previous (fuse header { block with used := false } after) := by
  simp [release]

section Release

variable {before after : List Block} {block : Block}

theorem arranged_release
    (shift : ∀ finish start width stop, gap finish start → gap (start + width) stop →
      gap (finish + width) stop)
    (arranged : Arranged header gap low high (before ++ block :: after)) :
    Arranged header gap low high (release header before block after) := by
  have merged := arranged_fuse shift (arranged_mark false arranged)
  rcases List.eq_nil_or_concat' before with rfl | ⟨earlier, previous, rfl⟩
  · exact merged
  · rw [release_snoc]
    rw [List.append_assoc] at merged
    exact arranged_fuse shift merged

/-- Releasing a block takes exactly that block from those in use. -/
theorem inUse_release :
    inUse (release header before block after) = inUse before ++ inUse after := by
  rcases List.eq_nil_or_concat' before with rfl | ⟨earlier, previous, rfl⟩
  · rw [release_nil, inUse_fuse]
    rfl
  · rw [release_snoc, inUse_append, inUse_fuse, inUse_cons, inUse_fuse, inUse_append]
    cases flag : previous.used <;> simp [inUse, flag]

theorem coalesced_release (coalesced : Coalesced (before ++ block :: after)) :
    Coalesced (release header before block after) := by
  have tail : Coalesced after := List.IsChain.tail (List.IsChain.right_of_append coalesced)
  have merged : Coalesced (fuse header { block with used := false } after) := coalesced_fuse tail
  rcases List.eq_nil_or_concat' before with rfl | ⟨earlier, previous, rfl⟩
  · exact merged
  · rw [release_snoc]
    rw [List.append_assoc] at coalesced
    refine coalesced.replace (coalesced_fuse merged) fun head isHead => Or.inr ?_
    obtain ⟨size, rest, shape⟩ : ∃ size rest,
        fuse header previous (fuse header { block with used := false } after) =
          ⟨previous.start, size, previous.used⟩ :: rest := head_fuse
    rw [shape] at isHead
    cases isHead
    exact ⟨previous, rfl, rfl⟩

end Release

/-- A coalesced tiling without a block in use is one free block over the whole
area. -/
theorem Tiling.single_of_free {blocks : List Block} (tiling : Tiling header low high blocks)
    (coalesced : Coalesced blocks) (inhabited : blocks ≠ [])
    (free : ∀ block ∈ blocks, block.used = false) :
    blocks = [⟨low, high - low - header, false⟩] := by
  match blocks, tiling, coalesced, inhabited, free with
  | [block], tiling, _, _, free =>
      obtain ⟨start, size, used⟩ := block
      obtain ⟨first, last⟩ := tiling
      have isFree : used = false := free _ (List.mem_singleton.mpr rfl)
      simp only [Block.finish] at first last
      simp only [List.cons.injEq, Block.mk.injEq, isFree, and_true]
      change start + header + size = high at last
      omega
  | first :: second :: rest, _, coalesced, _, free =>
      have beside := (List.isChain_cons_cons.mp coalesced).1
      rw [free first (by simp), free second (by simp)] at beside
      simp at beside

end BlockList

end Bootloader.Std
