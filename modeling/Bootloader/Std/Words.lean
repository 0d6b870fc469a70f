import Mathlib.Data.List.Basic

/-!
# Words of a text

The words of a text are its longest runs without a separator. A text is taken apart from its
start: the letters up to the first separator, and the separators up to the next word.
-/

namespace Bootloader.Std

section Words

variable {Letter : Type} [DecidableEq Letter] {separator : Letter} {word text rest : List Letter}

/-- The words of a text. -/
def words (separator : Letter) (text : List Letter) : List (List Letter) :=
  (text.splitOn separator).filter (! ·.isEmpty)

/-- A text begins with a separator, or is empty. -/
def AtSeparator (separator : Letter) (text : List Letter) : Prop := ∀ letter ∈ text.head?,
  letter = separator

/-- A text begins with a word, or is empty. -/
def AtWord (separator : Letter) (text : List Letter) : Prop := ∀ letter ∈ text.head?,
  letter ≠ separator

@[simp] theorem words_nil : words separator ([] : List Letter) = [] := by
  rw [words, List.splitOn_nil]
  rfl

/-- A separator takes a text apart. -/
theorem words_append_separator (text rest : List Letter) :
    words separator (text ++ separator :: rest) = words separator text ++ words separator rest := by
  rw [words, List.splitOn_append_cons_self, List.filter_append]
  rfl

@[simp] theorem words_separator (rest : List Letter) :
    words separator (separator :: rest) = words separator rest := by
  have apart := @words_append_separator _ _ separator [] rest
  rwa [words_nil, List.nil_append, List.nil_append] at apart

@[simp] theorem words_replicate (count : Nat) (rest : List Letter) :
    words separator (List.replicate count separator ++ rest) = words separator rest := by
  induction count with
  | zero => rfl
  | succ count inductionHypothesis =>
      rw [List.replicate_succ, List.cons_append, words_separator, inductionHypothesis]

/-- A text without separators is a word. -/
theorem words_word (nonempty : word ≠ []) (absent : separator ∉ word) :
    words separator word = [word] := by
  rw [words, List.splitOn_eq_singleton absent]
  simp [nonempty]

/-- The first word, and the words behind it. -/
theorem words_append (nonempty : word ≠ []) (absent : separator ∉ word)
    (behind : AtSeparator separator rest) :
    words separator (word ++ rest) = word :: words separator rest := by
  cases rest with
  | nil => rw [List.append_nil, words_word nonempty absent, words_nil]
  | cons letter rest =>
      obtain rfl : letter = separator := behind letter rfl
      rw [words_append_separator, words_word nonempty absent, words_separator]
      rfl

/-- The letters up to the first separator. -/
theorem exists_word (separator : Letter) (text : List Letter) :
    ∃ word rest, text = word ++ rest ∧ separator ∉ word ∧ AtSeparator separator rest := by
  induction text with
  | nil => exact ⟨[], [], rfl, by simp, by simp [AtSeparator]⟩
  | cons letter text inductionHypothesis =>
      by_cases here : letter = separator
      · exact ⟨[], letter :: text, rfl, by simp, by simpa [AtSeparator] using here⟩
      · obtain ⟨word, rest, rfl, absent, behind⟩ := inductionHypothesis
        refine ⟨letter :: word, rest, rfl, ?_, behind⟩
        rw [List.mem_cons]
        exact not_or.mpr ⟨Ne.symm here, absent⟩

/-- The separators up to the next word. -/
theorem exists_gap (separator : Letter) (text : List Letter) :
    ∃ count rest, text = List.replicate count separator ++ rest ∧ AtWord separator rest := by
  induction text with
  | nil => exact ⟨0, [], rfl, by simp [AtWord]⟩
  | cons letter text inductionHypothesis =>
      by_cases here : letter = separator
      · obtain ⟨count, rest, rfl, behind⟩ := inductionHypothesis
        exact ⟨count + 1, rest, by rw [here]; rfl, behind⟩
      · exact ⟨0, letter :: text, rfl, by simpa [AtWord] using here⟩

/-- What stands at the first separator and behind it. -/
def behindWord (separator : Letter) (text : List Letter) : List Letter :=
  text.dropWhile (· ≠ separator)

/-- The letters in front of the first separator. -/
def firstWord (separator : Letter) (text : List Letter) : List Letter :=
  text.takeWhile (· ≠ separator)

theorem takeApart (absent : separator ∉ word) (behind : AtSeparator separator rest) :
    firstWord separator (word ++ rest) = word ∧ behindWord separator (word ++ rest) = rest := by
  induction word with
  | nil =>
      cases rest with
      | nil => exact ⟨rfl, rfl⟩
      | cons letter rest =>
          obtain rfl : letter = separator := behind letter rfl
          simp [firstWord, behindWord]
  | cons letter word inductionHypothesis =>
      rw [List.mem_cons, not_or] at absent
      have other : letter ≠ separator := Ne.symm absent.1
      obtain ⟨first, later⟩ := inductionHypothesis absent.2
      rw [firstWord] at first
      rw [behindWord] at later
      rw [firstWord, behindWord, List.cons_append, List.takeWhile_cons, List.dropWhile_cons,
        if_pos (decide_eq_true other), if_pos (decide_eq_true other), first, later]
      exact ⟨rfl, rfl⟩

end Words

end Bootloader.Std
