/-
# Two spellings of a power

A power is written `^` or `**`.  Writing `**` for every `^` does not always keep the tokens: `a*^b`
becomes `a***b`, a power before a product, and `*^` and `^*` become the same text.  All such texts
have two operators next to each other, before the change and after it, so neither side is a formula.
Where tokens follow each other as in a sentence, they are the same in both spellings
(`tokenizes_spelledOut_iff`), and so are the formulas (`parse_respell`).

The longer spelling is made character by character (`spelledOut`), without looking at tokens, so its
tokens have to be found again.  In one direction a text is given by its tokens, and the longer
spelling has the same tokens (`tokenizes_spelledOut`).  In the other one, the tokens of the longer
spelling are traced back to the text.  There a star may come from a star or from a caret, and the
doubt is settled by the neighbours: if it came from half a caret, an operator would stand next to
another one (`exists_of_spelledOut_eq_star`).

Carets and stars occur in operators only (`Spells.star_caret`), so all other tokens stay as they
are.  The text that is kept for a formula is not the same in both spellings; its expression is, and
so are the symbols.
-/
import BandMath.Proofs.Formula.Normalization

namespace BandMath.Formula

/-! ## 1. The longer spelling -/

/-- The characters with `**` for every `^`. -/
def spelledOut (cs : List Char) : List Char :=
  cs.flatMap fun c => if c = '^' then ['*', '*'] else [c]

/-- The text with `**` for every `^`. -/
def respell (text : String) : String :=
  String.ofList (spelledOut text.toList)

section Characters

variable {cs cs' source rest : List Char} {c : Char}

theorem spelledOut_caret (cs : List Char) : spelledOut ('^' :: cs) = '*' :: '*' :: spelledOut cs :=
  rfl

theorem spelledOut_cons (h : c ≠ '^') : spelledOut (c :: cs) = c :: spelledOut cs := by
  rw [spelledOut, List.flatMap_cons, if_neg h]
  rfl

theorem spelledOut_append (h : '^' ∉ source) :
    spelledOut (source ++ rest) = source ++ spelledOut rest := by
  induction source with
  | nil => rfl
  | cons c source ih =>
    obtain ⟨hc, hsource⟩ := List.ne_and_not_mem_of_not_mem_cons h
    rw [List.cons_append, spelledOut_cons (Ne.symm hc), ih hsource, List.cons_append]

theorem eq_nil_of_spelledOut (h : spelledOut cs = []) : cs = [] := by
  cases cs with
  | nil => rfl
  | cons c cs =>
    by_cases hc : c = '^'
    · subst hc
      exact nomatch h
    · rw [spelledOut_cons hc] at h
      exact nomatch h

/-- What a character of the longer spelling stands for. -/
theorem exists_of_spelledOut_eq_cons (h : spelledOut cs = c :: rest) :
    (∃ cs', cs = c :: cs' ∧ spelledOut cs' = rest) ∨
      c = '*' ∧ ∃ cs', cs = '^' :: cs' ∧ rest = '*' :: spelledOut cs' := by
  cases cs with
  | nil => exact nomatch h
  | cons d cs =>
    by_cases hd : d = '^'
    · subst hd
      obtain ⟨rfl, rfl⟩ := List.cons.inj h
      exact .inr ⟨rfl, cs, rfl, rfl⟩
    · rw [spelledOut_cons hd] at h
      obtain ⟨rfl, rfl⟩ := List.cons.inj h
      exact .inl ⟨cs, rfl, rfl⟩

theorem exists_of_spelledOut_eq_append (hstar : '*' ∉ source)
    (h : spelledOut cs = source ++ rest) : ∃ cs', cs = source ++ cs' ∧ spelledOut cs' = rest := by
  induction source generalizing cs with
  | nil => exact ⟨cs, rfl, h⟩
  | cons c source ih =>
    obtain ⟨hc, hsource⟩ := List.ne_and_not_mem_of_not_mem_cons hstar
    rcases exists_of_spelledOut_eq_cons h with ⟨tail, rfl, htail⟩ | ⟨rfl, -⟩
    · obtain ⟨cs', rfl, h'⟩ := ih hsource htail
      exact ⟨cs', rfl, h'⟩
    · exact absurd rfl hc

theorem strip_spelledOut (cs : List Char) :
    Text.strip (spelledOut cs) = spelledOut (Text.strip cs) := by
  induction cs with
  | nil => rfl
  | cons c cs ih =>
    by_cases hc : c = '^'
    · subst hc
      rw [spelledOut_caret]
      exact congrArg (fun rest => '*' :: '*' :: rest) ih
    · rw [spelledOut_cons hc, Text.strip, Text.strip, List.filter_cons, List.filter_cons]
      split
      · rw [spelledOut_cons hc]
        exact congrArg (List.cons c) ih
      · exact ih

end Characters

/-! ## 2. The tokens of both spellings -/

section Tokens

variable {cs source rest : List Char} {t : Token} {ts : List Token}

/-- Stars and carets stand in operators only. -/
theorem Spells.star_caret (h : Spells t source rest) :
    (t = .times ∧ source = ['*']) ∨ (t = .power ∧ (source = ['^'] ∨ source = ['*', '*'])) ∨
      ('*' ∉ source ∧ '^' ∉ source) := by
  cases h with
  | times _ => exact .inl ⟨rfl, rfl⟩
  | power _ => exact .inr (.inl ⟨rfl, .inl rfl⟩)
  | powerStars _ => exact .inr (.inl ⟨rfl, .inr rfl⟩)
  | number hc hsource hv =>
    have hmem := (isNumeral_of_numeralSource_eq hsource).mem
    refine .inr (.inr ⟨fun h => ?_, fun h => ?_⟩)
    · exact absurd (hmem _ h) (by decide)
    · exact absurd (hmem _ h) (by decide)
  | @name c cs _ hc hcs _ =>
    have hmem : ∀ d ∈ c :: cs, continuesName d = true :=
      List.forall_mem_cons.mpr ⟨continuesName_iff.mpr (.inl hc), hcs⟩
    refine .inr (.inr ⟨fun h => ?_, fun h => ?_⟩)
    · exact absurd (hmem _ h) (by decide)
    · exact absurd (hmem _ h) (by decide)
  | _ => exact .inr (.inr (by decide))

/-- What begins with a star begins with an operator, so it may not come next to one. -/
theorem Tokenizes.not_follow_of_star (h : Tokenizes ('*' :: cs) ts) (ht : t.endsOperand = false) :
    ¬ Follow (t :: ts) := by
  intro hfollow
  generalize hcs : '*' :: cs = cs' at h
  cases h with
  | nil => exact absurd hcs (List.cons_ne_nil _ _)
  | blank hc _ =>
    obtain ⟨rfl, -⟩ := List.cons.inj hcs
    exact absurd hc (by decide)
  | @token u source rest ts hu _ =>
    have hnext : t.mayPrecede u = true := (List.isChain_cons.mp hfollow).1 u rfl
    rw [Token.mayPrecede, ht, if_neg Bool.false_ne_true] at hnext
    rcases hu.star_caret with ⟨rfl, -⟩ | ⟨rfl, -⟩ | ⟨hstar, -⟩
    · exact Bool.false_ne_true hnext
    · exact Bool.false_ne_true hnext
    · cases source with
      | nil => exact hu.source_ne_nil rfl
      | cons c source =>
        obtain ⟨rfl, -⟩ := List.cons.inj hcs
        exact hstar List.mem_cons_self

/-- The longer spelling has the same tokens. -/
theorem tokenizes_spelledOut (h : Tokenizes cs ts) (hfollow : Follow ts) :
    Tokenizes (spelledOut cs) ts := by
  induction h with
  | nil => exact .nil
  | @blank c cs ts hc _ ih =>
    have hcaret : c ≠ '^' := by
      rintro rfl
      exact absurd hc (by decide)
    rw [spelledOut_cons hcaret]
    exact .blank hc (ih hfollow)
  | @token t source rest ts ht _ ih =>
    have hrest := ih (List.isChain_cons.mp hfollow).2
    have hkept : '^' ∉ source → Tokenizes (spelledOut (source ++ rest)) (t :: ts) := by
      intro hcaret
      rw [spelledOut_append hcaret]
      exact .token_of_follow ht hfollow hrest
    rcases ht.star_caret with ⟨-, rfl⟩ | ⟨rfl, rfl | rfl⟩ | ⟨-, hcaret⟩
    · exact hkept (by decide)
    · exact .token (.powerStars _) hrest
    · exact hkept (by decide)
    · exact hkept hcaret

/-- A star of the longer spelling that an operator ends with stands for itself.  If it were the
first half of what stands for `^`, the second half would begin another operator. -/
theorem exists_of_spelledOut_eq_star (h : spelledOut cs = '*' :: rest) (hrest : Tokenizes rest ts)
    (hfollow : Follow (t :: ts)) (ht : t.endsOperand = false) :
    ∃ cs', cs = '*' :: cs' ∧ spelledOut cs' = rest := by
  rcases exists_of_spelledOut_eq_cons h with hkept | ⟨-, cs', -, rfl⟩
  · exact hkept
  · exact absurd hfollow (hrest.not_follow_of_star ht)

/-- The tokens of the longer spelling are those of the text. -/
theorem tokenizes_of_spelledOut (h : Tokenizes (spelledOut cs) ts) (hfollow : Follow ts) :
    Tokenizes cs ts := by
  generalize hcs : spelledOut cs = cs' at h
  induction h generalizing cs with
  | nil =>
    rw [eq_nil_of_spelledOut hcs]
    exact .nil
  | blank hc _ ih =>
    rcases exists_of_spelledOut_eq_cons hcs with ⟨cs, rfl, rfl⟩ | ⟨rfl, -⟩
    · exact .blank hc (ih hfollow rfl)
    · exact absurd hc (by decide)
  | @token t source rest ts ht hrest ih =>
    have htail := (List.isChain_cons.mp hfollow).2
    have hkept : '*' ∉ source → Tokenizes cs (t :: ts) := by
      intro hstar
      obtain ⟨cs, rfl, rfl⟩ := exists_of_spelledOut_eq_append hstar hcs
      exact .token_of_follow ht hfollow (ih htail rfl)
    rcases ht.star_caret with ⟨rfl, rfl⟩ | ⟨rfl, rfl | rfl⟩ | ⟨hstar, -⟩
    · obtain ⟨cs', rfl, rfl⟩ := exists_of_spelledOut_eq_star hcs hrest hfollow rfl
      exact .token_of_follow ht hfollow (ih htail rfl)
    · exact hkept (by decide)
    -- Two stars stand for themselves or together for a caret; one of each kind would make three.
    · rcases exists_of_spelledOut_eq_cons hcs with ⟨cs₁, rfl, hcs₁⟩ | ⟨-, cs₁, rfl, hcs₁⟩
      · obtain ⟨cs₂, rfl, rfl⟩ := exists_of_spelledOut_eq_star hcs₁ hrest hfollow rfl
        exact .token_of_follow ht hfollow (ih htail rfl)
      · obtain rfl := (List.cons.inj hcs₁).2
        exact .token (.power _) (ih htail rfl)
    · exact hkept hstar

/-- **Tokens that follow each other are the same in both spellings.** -/
theorem tokenizes_spelledOut_iff (hfollow : Follow ts) :
    Tokenizes (spelledOut cs) ts ↔ Tokenizes cs ts :=
  ⟨fun h => tokenizes_of_spelledOut h hfollow, fun h => tokenizes_spelledOut h hfollow⟩

end Tokens

/-! ## 3. Formulas -/

theorem normalize_respell (text : String) :
    normalize (respell text) = respell (normalize text) := by
  rw [normalize, normalize, respell, respell, String.toList_ofList, String.toList_ofList,
    strip_spelledOut]

/-- A text is a formula in both spellings or in none, with the same expression. -/
theorem parse_respell_eq_ok_iff {text : String} {g : Formula} : parse (respell text) = .ok g ↔
    ∃ f, parse text = .ok f ∧ g = ⟨respell f.text, f.expr⟩ := by
  rw [parse_eq_ok_iff, normalize_respell, respell, String.toList_ofList]
  constructor
  · rintro ⟨ts, hts, hformed, htext⟩
    refine ⟨⟨normalize text, g.expr⟩, parse_eq_ok_iff.mpr ⟨ts, ?_, hformed, rfl⟩, ?_⟩
    · exact (tokenizes_spelledOut_iff hformed.follow).mp hts
    · rw [← htext]
  · rintro ⟨f, h, rfl⟩
    obtain ⟨ts, hts, hformed, htext⟩ := parse_eq_ok_iff.mp h
    exact ⟨ts, (tokenizes_spelledOut_iff hformed.follow).mpr hts, hformed, congrArg respell htext⟩

/-- **The two spellings of a power are interchangeable.**  With `**` for every `^` a text is a
formula exactly when it was one, of the same expression and the same symbols; nothing but its text
is different. -/
theorem parse_respell (text : String) :
    ((∃ f, parse text = .ok f) ↔ ∃ g, parse (respell text) = .ok g) ∧
      ∀ f g, parse text = .ok f → parse (respell text) = .ok g →
        g.expr = f.expr ∧ g.symbols = f.symbols ∧ g.text = respell f.text := by
  refine ⟨⟨?_, ?_⟩, ?_⟩
  · rintro ⟨f, hf⟩
    exact ⟨_, parse_respell_eq_ok_iff.mpr ⟨f, hf, rfl⟩⟩
  · rintro ⟨g, hg⟩
    obtain ⟨f, hf, -⟩ := parse_respell_eq_ok_iff.mp hg
    exact ⟨f, hf⟩
  · intro f g hf hg
    obtain ⟨f', hf', rfl⟩ := parse_respell_eq_ok_iff.mp hg
    obtain rfl := Except.ok.inj (hf'.symm.trans hf)
    exact ⟨rfl, rfl, rfl⟩

/-- Both spellings in one text; the sign begins an exponent that is itself a power. -/
theorem parse_respell_mixed :
    let e : Expr := .binary .multiply
      (.binary .power (.symbol "a") (.negate (.binary .power (.symbol "b") (.number 2))))
      (.symbol "c")
    respell "a ^ -b ** 2*c" = "a ** -b ** 2*c" ∧
      parse "a ^ -b ** 2*c" = .ok ⟨"a^-b**2*c", e⟩ ∧
      ∃ g, parse (respell "a ^ -b ** 2*c") = .ok g ∧ g.expr = e ∧ g.symbols = ["a", "b", "c"] ∧
        g.text = "a**-b**2*c" := by
  intro e
  have hf : parse "a ^ -b ** 2*c" = .ok ⟨"a^-b**2*c", e⟩ := by decide +kernel
  obtain ⟨hiff, hsame⟩ := parse_respell "a ^ -b ** 2*c"
  obtain ⟨g, hg⟩ := hiff.mp ⟨_, hf⟩
  obtain ⟨hexpr, hsymbols, htext⟩ := hsame _ g hf hg
  refine ⟨by decide +kernel, hf, g, hg, hexpr, hsymbols.trans ?_, htext.trans ?_⟩
  · decide +kernel
  · decide +kernel

/-- Texts that become the same are refused before and after. -/
example : ∀ text ∈ ["a*^b", "a^*b", "a***b", "a*^*b", "a* *b"],
    (parse text).toOption = none ∧ (parse (respell text)).toOption = none := by
  decide +kernel

end BandMath.Formula
