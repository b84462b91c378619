/-
# Blanks mean nothing

A text without its blanks could be cut in other places: `1 2` would run together to one numeral,
`RE 1` to one name, `1 e5` to a numeral with an exponent and `* *` to a power.  In a formula this
never happens.  The lexemes that could run together are lexemes that may not be neighbours
(`Spells.ends_absorbs`), so a text whose tokens follow each other as in a sentence keeps its tokens
(`Tokenizes.strip`), and what depends on the tokens only is the same.

Leaving out blanks does not keep places, so the lexemes of the two texts are not the same; their
tokens and characters are.  What the grammar derives depends on tokens only, and the limits of depth
are about the tree and about tokens, so the text without blanks is accepted with the same expression
(`parse_text_self`).

The converse does not hold: a text whose tokens run together without their blanks may be refused
while the text without blanks is a formula.  Such a text is never kept as the text of a formula,
because it is none.
-/
import BandMath.Proofs.Formula.Tokens

namespace BandMath.Formula

theorem normalize_normalize (text : String) : normalize (normalize text) = normalize text := by
  rw [normalize, normalize, String.toList_ofList, Text.strip_strip]

section Text

variable {text : String} {f : Formula}

theorem isBlank_of_mem_text (h : parse text = .ok f) :
    ∀ c ∈ f.text.toList, Text.isBlank c = false := by
  obtain ⟨ls, -, -, htext⟩ := expr_of_parse h
  intro c hc
  rw [htext, normalize, String.toList_ofList] at hc
  exact Text.isBlank_of_mem_strip hc

/-- Without its blanks, the text of a formula has the same tokens. -/
theorem exists_tokenizes_text (h : parse text = .ok f) : ∃ ts, Tokenizes text.toList ts ∧
    Tokenizes f.text.toList ts ∧ Formed maxDepth .sum ts f.expr := by
  obtain ⟨ts, hts, hformed, htext⟩ := parse_eq_ok_iff.mp h
  refine ⟨ts, hts, ?_, hformed⟩
  rw [htext, normalize, String.toList_ofList]
  exact hts.strip hformed.follow

theorem exists_lexemes_text (h : parse text = .ok f) :
    ∃ ls ls', lexemes text.toList = .ok ls ∧ lexemes f.text.toList = .ok ls' ∧
      ls'.map (·.token) = ls.map (·.token) := by
  obtain ⟨ts, hts, hts', -⟩ := exists_tokenizes_text h
  obtain ⟨ls, hls, rfl⟩ := tokenizes_iff.mp hts
  obtain ⟨ls', hls', htokens⟩ := tokenizes_iff.mp hts'
  exact ⟨ls, ls', hls, hls', htokens⟩

/-- The text of a formula is read as the formula: what the tokens derive does not depend on where
they stand. -/
theorem parse_text_self (h : parse text = .ok f) : parse f.text = .ok f := by
  obtain ⟨ts, -, hts, hformed⟩ := exists_tokenizes_text h
  obtain ⟨-, -, -, htext⟩ := parse_eq_ok_iff.mp h
  exact parse_eq_ok_iff.mpr ⟨ts, hts, hformed, by rw [htext, normalize_normalize]⟩

end Text

/-- **The text of a formula is read as the formula.**  It holds no blanks, and has the tokens of the
text that the formula was read from.  So no text is a formula whose tokens run together without the
blanks between them, and texts that differ in blanks only are the same formula, if they are formulas
at all. -/
theorem parse_text {text : String} {f : Formula} (h : parse text = .ok f) :
    (∀ c ∈ f.text.toList, Text.isBlank c = false) ∧ parse f.text = .ok f ∧
      (∀ other g, parse other = .ok g → g.text = f.text → g = f) ∧
      ∃ ls ls', lexemes text.toList = .ok ls ∧ lexemes f.text.toList = .ok ls' ∧
        ls'.map (·.token) = ls.map (·.token) := by
  have hself := parse_text_self h
  obtain ⟨ls, ls', hls, hls', htokens⟩ := exists_lexemes_text h
  refine ⟨isBlank_of_mem_text h, hself, fun other g hg htext => ?_, ls, ls', hls, hls', htokens⟩
  have hg' := parse_text_self hg
  rw [htext, hself] at hg'
  exact (Except.ok.inj hg').symm

/-- Blanks of several kinds, and none where tokens touch each other. -/
theorem parse_text_spaced :
    let f : Formula := ⟨"-x**2*(a+1.5e1)", .binary .multiply
      (.negate (.binary .power (.symbol "x") (.number 2)))
      (.binary .add (.symbol "a") (.number 15))⟩
    parse " - x ** 2\t* ( a + 1.5e1 ) " = .ok f ∧
      (∀ c ∈ f.text.toList, Text.isBlank c = false) ∧ parse f.text = .ok f ∧
      (∀ other g, parse other = .ok g → g.text = f.text → g = f) ∧
      ∃ ls ls', lexemes " - x ** 2\t* ( a + 1.5e1 ) ".toList = .ok ls ∧
        lexemes f.text.toList = .ok ls' ∧ ls'.map (·.token) = ls.map (·.token) := by
  intro f
  have h : parse " - x ** 2\t* ( a + 1.5e1 ) " = .ok f := by decide +kernel
  exact ⟨h, parse_text h⟩

/-- Texts whose tokens run together without their blanks are refused. -/
example : ∀ text ∈ ["1 2", "RE 1", "a * * b", "1 e5"], (parse text).toOption = none := by
  decide +kernel

end BandMath.Formula
