/-
# Inlining a formula

Instead of binding a symbol to the value of a formula, one may write the formula between
parentheses wherever the symbol is used: both give the same value, or the same error
(`evaluateIn_inlined`).  The argument goes through the three stages that a text goes through.

* **Characters.**  What is put in begins and ends with a parenthesis, which runs together with
  nothing.  So the new text is cut into the new tokens (`Tokenizes.inlined`).
* **Tokens.**  A sum between parentheses is a primary, as a name is, so a derivation stays one when
  it stands for a symbol (`derives_inlined`).  The name of a function is not a symbol; it is known
  by the parenthesis behind it, and none is put behind a name.
* **Values.**  The tree has the tree of the formula for the symbol, which has the value that is
  bound otherwise (`Expr.eval_inlined`).

The new text may exceed a limit that the two formulas keep; this is the only reason for which it may
be refused.
-/
import BandMath.Proofs.Bindings
import BandMath.Proofs.Formula.Normalization
import BandMath.Proofs.Formula.References

namespace BandMath.Formula

/-! ## 1. Trees -/

/-- The tree with `inner` for every use of the symbol. -/
def Expr.inlined (e : Expr) (x : String) (inner : Expr) : Expr :=
  match e with
  | number v => number v
  | symbol y => if y = x then inner else symbol y
  | binary op left right => binary op (left.inlined x inner) (right.inlined x inner)
  | negate e => negate (e.inlined x inner)
  | call f argument => call f (argument.inlined x inner)

/-- **A symbol may be bound to a value or stand for an expression that has this value.** -/
theorem Expr.eval_inlined {α : Type} [Operand α] {b : Bindings α} {functions : List Function}
    {x : String} {inner : Expr} {v : α} (hv : inner.eval ⟨b, functions⟩ = .ok v) (e : Expr) :
    (e.inlined x inner).eval ⟨b, functions⟩ = e.eval ⟨b.insert x v, functions⟩ := by
  induction e with
  | number w => rfl
  | symbol y =>
    rw [inlined, eval, Bindings.getElem?_insert]
    by_cases hy : y = x
    · rw [if_pos hy, if_pos hy, hv]
    · rw [if_neg hy, if_neg hy, eval]
  | binary op l r ihl ihr => simp only [inlined, eval, ihl, ihr]
  | negate e ih => simp only [inlined, eval, ih]
  | call f e ih => simp only [inlined, eval, ih, Scope.function?]

/-! ## 2. Tokens -/

/-- The tokens with `us` between parentheses for every use of the symbol. -/
def inlinedTokens (x : String) (us : List Token) : List Token → List Token
  | [] => []
  | t :: ts =>
    (if t = .name x ∧ ts.head? ≠ some .openParen then .openParen :: (us ++ [.closeParen])
      else [t]) ++ inlinedTokens x us ts

section Tokens

variable {x : String} {t : Token} {ts us ws : List Token}

theorem inlinedTokens_of_use (h : ts.head? ≠ some .openParen) :
    inlinedTokens x us (.name x :: ts) =
      .openParen :: (us ++ [.closeParen]) ++ inlinedTokens x us ts := by
  rw [inlinedTokens, if_pos ⟨rfl, h⟩]

theorem inlinedTokens_of_not_use (h : ¬ (t = .name x ∧ ts.head? ≠ some .openParen)) :
    inlinedTokens x us (t :: ts) = t :: inlinedTokens x us ts := by
  rw [inlinedTokens, if_neg h, List.singleton_append]

theorem inlinedTokens_of_ne (h : t ≠ .name x) :
    inlinedTokens x us (t :: ts) = t :: inlinedTokens x us ts :=
  inlinedTokens_of_not_use fun huse => h huse.1

/-- Tokens that are put behind others do not change the uses before them, unless they turn a last
name into a call. -/
theorem inlinedTokens_append (h : ws.head? ≠ some .openParen) :
    inlinedTokens x us (ts ++ ws) = inlinedTokens x us ts ++ inlinedTokens x us ws := by
  induction ts with
  | nil => rfl
  | cons t ts ih =>
    have hhead : (ts ++ ws).head? ≠ some .openParen ↔ ts.head? ≠ some .openParen := by
      cases ts with
      | nil => simpa using h
      | cons u ts => exact Iff.rfl
    rw [List.cons_append, inlinedTokens, inlinedTokens, ih, List.append_assoc]
    simp only [hhead]

/-- What comes after an operand is kept. -/
theorem inlinedTokens_append_cons (ht : t.followsOperand = true) :
    inlinedTokens x us (ts ++ t :: ws) = inlinedTokens x us ts ++ t :: inlinedTokens x us ws := by
  have hparen : (t :: ws).head? ≠ some .openParen := by
    intro hhead
    rw [Option.some.inj hhead] at ht
    exact nomatch ht
  have hname : t ≠ .name x := by
    rintro rfl
    exact nomatch ht
  rw [inlinedTokens_append hparen, inlinedTokens_of_ne hname]

/-- An operator between two derivations. -/
theorem exists_derives_join {nt₁ nt₂ nt : Nonterminal} {op : BinaryOp} {l r : Expr}
    (join : ∀ {n m ts us}, Derives nt₁ n ts l → Derives nt₂ m us r →
      Derives nt (max n m) (ts ++ t :: us) (.binary op l r)) (ht : t.followsOperand = true)
    (hl : ∃ n, Derives nt₁ n (inlinedTokens x us ts) l)
    (hr : ∃ m, Derives nt₂ m (inlinedTokens x us ws) r) :
    ∃ k, Derives nt k (inlinedTokens x us (ts ++ t :: ws)) (.binary op l r) := by
  obtain ⟨n, hl⟩ := hl
  obtain ⟨m, hr⟩ := hr
  rw [inlinedTokens_append_cons ht]
  exact ⟨max n m, join hl hr⟩

/-- **A derivation may stand for a symbol.**  By induction on the derivation of the tokens around
it; between parentheses it is a primary, as the symbol is. -/
theorem derives_inlined {k : Nat} {inner : Expr} (hinner : Derives .sum k us inner)
    {nt : Nonterminal} {n : Nat} {e : Expr} (h : Derives nt n ts e) :
    ∃ m, Derives nt m (inlinedTokens x us ts) (e.inlined x inner) := by
  induction h with
  | sum _ ih => exact ih.imp fun _ => .sum
  | product _ ih => exact ih.imp fun _ => .product
  | unsigned _ ih =>
    obtain ⟨m, ih⟩ := ih
    exact ⟨m + 1, .unsigned ih⟩
  | base _ ih => exact ih.imp fun _ => .base
  | add _ _ ihl ihr => exact exists_derives_join .add rfl ihl ihr
  | subtract _ _ ihl ihr => exact exists_derives_join .subtract rfl ihl ihr
  | multiply _ _ ihl ihr => exact exists_derives_join .multiply rfl ihl ihr
  | divide _ _ ihl ihr => exact exists_derives_join .divide rfl ihl ihr
  | raise _ _ ihb ihx => exact exists_derives_join .raise rfl ihb ihx
  | negate _ ih =>
    obtain ⟨m, ih⟩ := ih
    rw [inlinedTokens_of_ne (by simp)]
    exact ⟨m + 1, .negate ih⟩
  | posit _ ih =>
    obtain ⟨m, ih⟩ := ih
    rw [inlinedTokens_of_ne (by simp)]
    exact ⟨m + 1, .posit ih⟩
  | number v => exact ⟨0, .number v⟩
  | name y =>
    by_cases hy : y = x
    · subst hy
      rw [inlinedTokens_of_use (by simp), Expr.inlined, if_pos rfl, inlinedTokens, List.append_nil]
      exact ⟨k, .parens hinner⟩
    · rw [inlinedTokens_of_ne fun h => hy (Token.name.inj h), Expr.inlined, if_neg hy]
      exact ⟨0, .name y⟩
  | call f _ ih =>
    -- Also where the function has the name of the symbol: a parenthesis follows it.
    obtain ⟨m, ih⟩ := ih
    rw [inlinedTokens_of_not_use fun huse => huse.2 rfl, inlinedTokens_of_ne (by simp),
      inlinedTokens_append_cons rfl]
    exact ⟨m, .call f ih⟩
  | parens _ ih =>
    obtain ⟨m, ih⟩ := ih
    rw [inlinedTokens_of_ne (by simp), inlinedTokens_append_cons rfl]
    exact ⟨m, .parens ih⟩

end Tokens

/-! ## 3. Characters -/

/-- The characters, which are cut into the lexemes, with `inner` between parentheses for every use
of the symbol.  What stands between lexemes is kept. -/
def inlinedChars (x : String) (inner : List Char) : List Lexeme → List Char → List Char
  | [], cs => cs
  | l :: ls, cs =>
    cs.takeWhile Text.isBlank ++
      (if l.token = .name x ∧ (ls.map (·.token)).head? ≠ some .openParen then
        '(' :: (inner ++ [')']) else l.source) ++
      inlinedChars x inner ls ((cs.dropWhile Text.isBlank).drop l.source.length)

/-- The text with `inner` between parentheses for every use of the symbol, that is for every token
that is this name and that no opening parenthesis follows.  A text that is not cut into tokens is
left alone. -/
def inlined (x inner text : String) : String :=
  match lexemes text.toList with
  | .ok ls => String.ofList (inlinedChars x inner.toList ls text.toList)
  | .error _ => text

section Characters

variable {x : String} {inner cs source rest : List Char} {ls : List Lexeme}

theorem inlinedChars_blank {c : Char} (hc : Text.isBlank c = true) :
    inlinedChars x inner ls (c :: cs) = c :: inlinedChars x inner ls cs := by
  cases ls with
  | nil => rfl
  | cons l ls =>
    simp only [inlinedChars, List.takeWhile_cons_of_pos hc, List.dropWhile_cons_of_pos hc,
      List.cons_append]

/-- What is put in for a lexeme, before the others. -/
theorem inlinedChars_lexeme {t : Token} {start : Nat} (ht : Spells t source rest) :
    inlinedChars x inner (⟨t, start, source⟩ :: ls) (source ++ rest) =
      (if t = .name x ∧ (ls.map (·.token)).head? ≠ some .openParen then '(' :: (inner ++ [')'])
        else source) ++ inlinedChars x inner ls rest := by
  have hblank := ht.isBlank_eq_false
  have hdrop : (source ++ rest).drop source.length = rest := List.drop_left
  cases source with
  | nil => exact absurd rfl ht.source_ne_nil
  | cons c source =>
    have hc : ¬ Text.isBlank c = true := by simp [hblank c List.mem_cons_self]
    rw [inlinedChars, List.cons_append, List.takeWhile_cons_of_neg hc,
      List.dropWhile_cons_of_neg hc, List.nil_append]
    exact congrArg (_ ++ inlinedChars x inner ls ·) hdrop

/-- A phrase between parentheses. -/
theorem Tokenizes.enclose {us : List Token} (h : Tokenizes cs us) (hus : IsPhrase us) :
    Tokenizes ('(' :: (cs ++ [')'])) (.openParen :: (us ++ [.closeParen])) := by
  have hclose : Tokenizes [')'] [.closeParen] := .token (.closeParen []) .nil
  exact .token (.openParen _) (h.append hclose (List.isChain_cons.mp hus.enclose.chain).2)

/-- **The new text is cut into the new tokens,** if these follow each other as in a sentence.  By
induction on how the text is cut. -/
theorem Tokenizes.inlined {us : List Token} (hinner : Tokenizes inner us) (hus : IsPhrase us)
    {start : Nat} (h : Cut start cs ls) (hfollow : Follow (inlinedTokens x us (ls.map (·.token)))) :
    Tokenizes (inlinedChars x inner ls cs) (inlinedTokens x us (ls.map (·.token))) := by
  induction h with
  | nil start => exact .nil
  | blank hc _ ih =>
    rw [inlinedChars_blank hc]
    exact .blank hc (ih hfollow)
  | @lexeme start t source rest ls ht _ ih =>
    rw [inlinedChars_lexeme ht, List.map_cons]
    rw [List.map_cons] at hfollow
    by_cases huse : t = .name x ∧ (ls.map (·.token)).head? ≠ some .openParen
    · obtain ⟨rfl, hhead⟩ := huse
      rw [inlinedTokens_of_use hhead] at hfollow ⊢
      rw [if_pos ⟨rfl, hhead⟩]
      exact (hinner.enclose hus).append (ih (List.isChain_append.mp hfollow).2.1) hfollow
    · rw [inlinedTokens_of_not_use huse] at hfollow ⊢
      rw [if_neg huse]
      exact .token_of_follow ht hfollow (ih (List.isChain_cons.mp hfollow).2)

end Characters

/-! ## 4. Formulas -/

section Formulas

variable {text other : String} {f g : Formula}

/-- The tokens of the text with one formula in the other, and the tree that they derive. -/
theorem exists_lexemes_inlined (hf : parse text = .ok f) (hg : parse other = .ok g) (x : String) :
    ∃ ls n, lexemes (inlined x g.text text).toList = .ok ls ∧
      Derives .sum n (ls.map (·.token)) (f.expr.inlined x g.expr) := by
  obtain ⟨ls, hls, hread, -⟩ := expr_of_parse hf
  obtain ⟨⟨n, -, hderives⟩, -⟩ := formed_of_ofLexemes hread
  obtain ⟨us, -, hus, ⟨k, -, hinner⟩, -⟩ := exists_tokenizes_text hg
  obtain ⟨m, hinlined⟩ := derives_inlined (x := x) hinner hderives
  have htokenizes := Tokenizes.inlined hus (isPhrase_of_derives hinner)
    (lexemes_eq_ok_iff.mp hls) (isPhrase_of_derives hinlined).chain
  obtain ⟨ls', hls', htokens⟩ := tokenizes_iff.mp htokenizes
  refine ⟨ls', m, ?_, htokens ▸ hinlined⟩
  rw [inlined, hls, String.toList_ofList, hls']

/-- One formula in the other is read as the tree in the tree, or refused as too deep. -/
theorem parse_inlined (hf : parse text = .ok f) (hg : parse other = .ok g) (x : String) :
    parse (inlined x g.text text) =
        .ok ⟨normalize (inlined x g.text text), f.expr.inlined x g.expr⟩ ∨
      ∃ place, parse (inlined x g.text text) =
        .error (.malformedFormula (inlined x g.text text) ⟨place, .tooDeep⟩) := by
  obtain ⟨ls, n, hls, hderives⟩ := exists_lexemes_inlined hf hg x
  have hreaches : Reaches True (Expr.ofLexemes (inlined x g.text text).toList.length ls)
      (.ok (f.expr.inlined x g.expr)) := ofLexemes_reaches hderives (.inr trivial) (.inr trivial)
  rw [parse_of_lexemes hls]
  rcases hreaches with hread | ⟨-, place, hread⟩
  · exact .inl (by rw [hread]; rfl)
  · exact .inr ⟨place, by rw [hread]; rfl⟩

end Formulas

/-- **Formulas compose by substitution.**  A text of `f` with `g` between parentheses for every use
of the symbol `x` is refused only as too deep; otherwise it evaluates as `f` does when `x` is bound
to the value of `g`, to the same value or with the same error, over all operands and with the same
functions.  The text may be any that is read as `f`, its own among them. -/
theorem evaluateIn_inlined {text other : String} {f g : Formula} (hf : parse text = .ok f)
    (hg : parse other = .ok g) (x : String) :
    (∀ h, parse (inlined x g.text text) = .ok h → ∀ (α : Type) [Operand α] (b : Bindings α)
        (functions : List Function) (v : α), g.evaluateIn ⟨b, functions⟩ = .ok v →
          h.evaluateIn ⟨b, functions⟩ = f.evaluateIn ⟨b.insert x v, functions⟩) ∧
      ((∃ h, parse (inlined x g.text text) = .ok h) ∨
        ∃ place, parse (inlined x g.text text) =
          .error (.malformedFormula (inlined x g.text text) ⟨place, .tooDeep⟩)) := by
  have hparse := parse_inlined hf hg x
  refine ⟨?_, hparse.imp_left fun hok => ⟨_, hok⟩⟩
  intro h hh α _ b functions v hv
  rcases hparse with hok | ⟨place, herror⟩
  · obtain rfl := Except.ok.inj (hok.symm.trans hh)
    exact Expr.eval_inlined hv f.expr
  · exact nomatch herror.symm.trans hh

/-- The symbol is also the name of a function; where it is used, it has a sign before it and a power
behind it. -/
theorem evaluateIn_inlined_called :
    let b : Bindings Float := .ofPairs [("a", 2), ("c", 5)]
    let f : Formula := ⟨"-exp^2*exp(2)", .binary .multiply
      (.negate (.binary .power (.symbol "exp") (.number 2))) (.call "exp" (.number 2))⟩
    let g : Formula := ⟨"c-a", .binary .subtract (.symbol "c") (.symbol "a")⟩
    parse "-exp ^ 2*exp( 2 )" = .ok f ∧ parse "c - a" = .ok g ∧
      g.evaluateIn ⟨b, [.exp]⟩ = .ok 3 ∧
      inlined "exp" g.text "-exp ^ 2*exp( 2 )" = "-(c-a) ^ 2*exp( 2 )" ∧
      ∃ h, parse "-(c-a) ^ 2*exp( 2 )" = .ok h ∧
        h.evaluateIn ⟨b, [.exp]⟩ = f.evaluateIn ⟨b.insert "exp" 3, [.exp]⟩ := by
  intro b f g
  have hf : parse "-exp ^ 2*exp( 2 )" = .ok f := by decide +kernel
  have hg : parse "c - a" = .ok g := by decide +kernel
  have hv : g.evaluateIn ⟨b, [.exp]⟩ = .ok 3 := by decide +kernel
  have htext : inlined "exp" g.text "-exp ^ 2*exp( 2 )" = "-(c-a) ^ 2*exp( 2 )" := by
    decide +kernel
  have hh : parse "-(c-a) ^ 2*exp( 2 )" =
      .ok ⟨"-(c-a)^2*exp(2)", f.expr.inlined "exp" g.expr⟩ := by decide +kernel
  obtain ⟨hsame, -⟩ := evaluateIn_inlined hf hg "exp"
  rw [htext] at hsame
  exact ⟨hf, hg, hv, htext, _, hh, hsame _ hh Float b [.exp] 3 hv⟩

end BandMath.Formula
