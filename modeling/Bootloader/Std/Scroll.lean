/-!
# Scrolling

A window shows the first items of a sequence. Scrolling it by some places moves all items and
fills up behind them. `up_eq_one_iff` is what scrolling by one place too few or too many comes
to: it only goes unnoticed where there is nothing but filling to scroll.
-/

namespace Bootloader.Std.Scroll

variable {Item : Type} {height n count place : Nat} {fill : Item} {items : Nat → Item}

/-- Every item goes `n` places to the front. -/
def up (height n : Nat) (fill : Item) (items : Nat → Item) (place : Nat) : Item :=
  if place + n < height then items (place + n) else fill

/-- Every item goes `n` places to the back. -/
def down (n : Nat) (fill : Item) (items : Nat → Item) (place : Nat) : Item :=
  if n ≤ place then items (place - n) else fill

/-- The items of the window from the last one to the first. -/
def reversed (height : Nat) (items : Nat → Item) (place : Nat) : Item :=
  items (height - 1 - place)

/-- Scrolling twice is scrolling once, by both. -/
theorem up_up : up height n fill (up height count fill items) place =
    up height (count + n) fill items place := by
  simp only [up]
  by_cases near : place + n < height
  · rw [if_pos near, Nat.add_assoc, Nat.add_comm n count]
  · rw [if_neg near, if_neg (by omega)]

/-- Scrolling the other way is scrolling upside down. -/
theorem down_eq_up (inside : place < height) :
    down n fill items place = up height n fill (reversed height items) (height - 1 - place) := by
  simp only [down, up, reversed]
  by_cases near : n ≤ place
  · rw [if_pos near, if_pos (by omega)]
    congr 1
    omega
  · rw [if_neg near, if_neg (by omega)]

theorem down_down : down n fill (down count fill items) place =
    down (count + n) fill items place := by
  simp only [down]
  by_cases near : n ≤ place
  · rw [if_pos near, Nat.sub_sub, Nat.add_comm n count]
    by_cases far : count ≤ place - n
    · rw [if_pos far, if_pos (by omega)]
    · rw [if_neg far, if_neg (by omega)]
  · rw [if_neg near, if_neg (by omega)]

/-- What scrolling does, whichever way it goes: it looks at the window alone, and by no places
it does nothing. -/
structure Moves (height : Nat) (move : Nat → Item → (Nat → Item) → Nat → Item) : Prop where
  congr : ∀ {n fill items items' place}, (∀ other < height, items other = items' other) →
    place < height → move n fill items place = move n fill items' place
  zero : ∀ {fill items place}, place < height → move 0 fill items place = items place
  add : ∀ {n count fill items place},
    move n fill (move count fill items) place = move (count + n) fill items place

theorem moves_up : Moves height (up height : Nat → Item → (Nat → Item) → Nat → Item) where
  congr := by
    intro n fill items items' place same inside
    simp only [up]
    split
    · next near => exact same _ near
    · rfl
  zero inside := if_pos inside
  add := up_up

theorem moves_down : Moves height (down : Nat → Item → (Nat → Item) → Nat → Item) where
  congr := by
    intro n fill items items' place same inside
    simp only [down]
    split
    · exact same _ (by omega)
    · rfl
  zero _ := if_pos (Nat.zero_le _)
  add := down_down

/-- Scrolling by one place is scrolling by more of them when nothing but filling comes into
the window, and only then. -/
theorem up_eq_one_iff (more : 1 < n) :
    (∀ place < height, up height 1 fill items place = up height n fill items place) ↔
      ∀ place < height, 0 < place → items place = fill := by
  constructor
  · intro same place inside later
    -- From the last place of the window on to the front.
    induction left : height - place using Nat.strongRecOn generalizing place with
    | ind left inductionHypothesis =>
        have here := same (place - 1) (by omega)
        simp only [up] at here
        rw [if_pos (by omega), show place - 1 + 1 = place by omega] at here
        rw [here]
        split
        · exact inductionHypothesis (height - (place - 1 + n)) (by omega) (place - 1 + n)
            (by omega) (by omega) rfl
        · rfl
  · intro filled place inside
    simp only [up]
    have fills (by' : Nat) (positive : 0 < by') :
        (if place + by' < height then items (place + by') else fill) = fill := by
      split
      · next near => exact filled _ near (by omega)
      · rfl
    rw [fills 1 Nat.one_pos, fills n (by omega)]

theorem down_eq_one_iff (more : 1 < n) :
    (∀ place < height, down 1 fill items place = down n fill items place) ↔
      ∀ place, place + 1 < height → items place = fill := by
  have turned : (∀ place < height, down 1 fill items place = down n fill items place) ↔
      ∀ place < height, up height 1 fill (reversed height items) place =
        up height n fill (reversed height items) place := by
    constructor
    · intro same place inside
      have inner : height - 1 - place < height := by omega
      have here := same (height - 1 - place) inner
      rw [down_eq_up inner, down_eq_up inner,
        show height - 1 - (height - 1 - place) = place by omega] at here
      exact here
    · intro same place inside
      rw [down_eq_up inside, down_eq_up inside]
      exact same _ (by omega)
  rw [turned, up_eq_one_iff more]
  constructor
  · intro filled place inside
    have here := filled (height - 1 - place) (by omega) (by omega)
    rw [reversed, show height - 1 - (height - 1 - place) = place by omega] at here
    exact here
  · intro filled place inside later
    exact filled _ (by omega)

end Bootloader.Std.Scroll
