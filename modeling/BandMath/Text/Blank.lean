/-
# Blank characters

The characters that separate the words of a formula and carry no meaning of their own: those with
the Unicode property White_Space.  `stripped_iff` says that nothing blank is left after stripping;
`trim` removes blanks at the two ends only.

`strip` is used where the text of a formula is kept (`Formula.normalize`), `trim` where a symbol and
its numbers are read from a command line (`CommandLine.parameter?`).  JSON has spaces of its own,
which are four of these characters (`Json.isSpace`).

The property is given by its code points, ten ranges in all.  It takes in the controls from tab to
carriage return and the next-line control, the plain and the no-break space, and the separators of
Unicode.  A character of width zero is not blank; it is a character that no formula can hold.

Stripping is a filter, so it goes along with putting texts together (`strip_append`), and doing it
twice is doing it once (`strip_strip`).
-/

namespace BandMath.Text

/-! ## 1. The class -/

/-- Code points with the property White_Space, as closed ranges in increasing order. -/
def blankRanges : List (Nat × Nat) :=
  [(0x09, 0x0D), (0x20, 0x20), (0x85, 0x85), (0xA0, 0xA0), (0x1680, 0x1680), (0x2000, 0x200A),
   (0x2028, 0x2029), (0x202F, 0x202F), (0x205F, 0x205F), (0x3000, 0x3000)]

/-- A character is blank when it lies in one of the ranges. -/
def isBlank (c : Char) : Bool :=
  blankRanges.any fun (low, high) => low ≤ c.toNat && c.toNat ≤ high

/-! ## 2. Removing blanks -/

/-- The characters that are not blank, in order. -/
def strip (cs : List Char) : List Char :=
  cs.filter fun c => !isBlank c

/-- The text without the blanks at its two ends. -/
def trim (cs : List Char) : List Char :=
  ((cs.dropWhile isBlank).reverse.dropWhile isBlank).reverse

theorem isBlank_of_mem_strip {c : Char} {cs : List Char} (h : c ∈ strip cs) :
    isBlank c = false := by
  simpa [strip] using (List.mem_filter.mp h).2

@[simp] theorem strip_append (xs ys : List Char) : strip (xs ++ ys) = strip xs ++ strip ys := by
  simp [strip]

/-- A text is its own stripping exactly when it holds no blank. -/
theorem stripped_iff {cs : List Char} : strip cs = cs ↔ ∀ c ∈ cs, isBlank c = false := by
  simp [strip, List.filter_eq_self]

@[simp] theorem strip_strip (cs : List Char) : strip (strip cs) = strip cs :=
  stripped_iff.mpr fun _ h => isBlank_of_mem_strip h

end BandMath.Text
