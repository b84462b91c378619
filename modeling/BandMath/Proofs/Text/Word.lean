/-
# Words of one class of characters

A reader of words takes as many characters of a class as there are.  So a word is told by what it
consists of and by what comes after it: a rest that does not go on with the class (`Ends`).

Names are such words, and so are the digits of a numeral.  With `takeWhile_word` and
`dropWhile_word` a text that is written as a word and a rest is taken apart into the same two
pieces, and by `exists_word` every text can be written so, in one way only: the word takes all that
it can get.

The class is any predicate on the items of a list, so nothing here is about characters.
-/

namespace BandMath

variable {α : Type} {p : α → Bool} {word rest : List α}

/-- The rest of a text does not begin with a character of the class. -/
abbrev Ends (p : α → Bool) (rest : List α) : Prop := ∀ c ∈ rest.head?, p c = false

theorem takeWhile_word (hword : ∀ c ∈ word, p c = true) (hrest : Ends p rest) :
    (word ++ rest).takeWhile p = word := by
  rw [List.takeWhile_append_of_pos hword]
  cases rest with
  | nil => rw [List.takeWhile_nil, List.append_nil]
  | cons c rest => rw [List.takeWhile_cons_of_neg (by simp [hrest c rfl]), List.append_nil]

theorem dropWhile_word (hword : ∀ c ∈ word, p c = true) (hrest : Ends p rest) :
    (word ++ rest).dropWhile p = rest := by
  rw [List.dropWhile_append_of_pos hword]
  cases rest with
  | nil => rfl
  | cons c rest => rw [List.dropWhile_cons_of_neg (by simp [hrest c rfl])]

/-- Every text is a word of the class and a rest that does not go on with it. -/
theorem exists_word (p : α → Bool) (cs : List α) :
    ∃ word rest, cs = word ++ rest ∧ (∀ c ∈ word, p c = true) ∧ Ends p rest := by
  refine ⟨cs.takeWhile p, cs.dropWhile p, List.takeWhile_append_dropWhile.symm,
    fun c hc => List.all_eq_true.mp List.all_takeWhile c hc, fun c hc => ?_⟩
  have hhead := List.head?_dropWhile_not p cs
  rw [Option.mem_def.mp hc] at hhead
  exact hhead

end BandMath
