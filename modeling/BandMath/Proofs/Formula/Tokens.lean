/-
# The tokens of a text

What a text means depends on its tokens, not on where they stand.  `Tokenizes cs ts` says that the
characters are cut into the tokens with nothing but blanks between them; it is `Cut` without the
places, so that texts can be put together and changed without counting characters.  A text is a
formula exactly when it is cut into tokens that are derived within the limits (`parse_eq_ok_iff`).

A change of the text could make two tokens run together.  In a sentence it does not: a token that
may come next begins with nothing that the one before it would absorb (`Tokenizes.ends_absorbs`).
So the tokens of a sentence stay what they are whatever way the characters behind them are changed,
as long as these are still cut into tokens that may come next.

Texts without their blanks (`Tokenizes.strip`), texts that are put together (`Tokenizes.append`) and
texts with another spelling of an operator are all dealt with in this way.
-/
import BandMath.Proofs.Formula.Acceptance
import BandMath.Proofs.Formula.LongestMatch
import BandMath.Proofs.Formula.Neighbours

namespace BandMath.Formula

variable {cs cs' source rest : List Char} {t u : Token} {ts us : List Token}

/-! ## 1. Cutting a text into tokens -/

/-- The characters are cut into the tokens: these and blanks, and nothing else. -/
inductive Tokenizes : List Char → List Token → Prop
  | nil : Tokenizes [] []
  | blank {c : Char} {cs : List Char} {ts : List Token} (hc : Text.isBlank c = true)
      (h : Tokenizes cs ts) : Tokenizes (c :: cs) ts
  | token {t : Token} {source rest : List Char} {ts : List Token} (ht : Spells t source rest)
      (h : Tokenizes rest ts) : Tokenizes (source ++ rest) (t :: ts)

theorem Cut.tokenizes {start : Nat} {ls : List Lexeme} (h : Cut start cs ls) :
    Tokenizes cs (ls.map (·.token)) := by
  induction h with
  | nil start => exact .nil
  | blank hc _ ih => exact .blank hc ih
  | lexeme ht _ ih => exact .token ht ih

theorem Tokenizes.exists_cut (h : Tokenizes cs ts) :
    ∀ start, ∃ ls, Cut start cs ls ∧ ls.map (·.token) = ts := by
  induction h with
  | nil => exact fun start => ⟨[], .nil _, rfl⟩
  | blank hc _ ih =>
    intro start
    obtain ⟨ls, hcut, htokens⟩ := ih (start + 1)
    exact ⟨ls, .blank hc hcut, htokens⟩
  | @token t source rest ts ht _ ih =>
    intro start
    obtain ⟨ls, hcut, htokens⟩ := ih (start + source.length)
    exact ⟨_, .lexeme ht hcut, congrArg (List.cons t) htokens⟩

theorem tokenizes_iff : Tokenizes cs ts ↔ ∃ ls, lexemes cs = .ok ls ∧ ls.map (·.token) = ts := by
  constructor
  · intro h
    obtain ⟨ls, hcut, htokens⟩ := h.exists_cut 0
    exact ⟨ls, lexemes_eq_ok_iff.mpr hcut, htokens⟩
  · rintro ⟨ls, hls, rfl⟩
    exact (lexemes_eq_ok_iff.mp hls).tokenizes

/-- **What makes a text a formula:** its tokens derive the expression within the limits. -/
theorem parse_eq_ok_iff {text : String} {f : Formula} : parse text = .ok f ↔
    ∃ ts, Tokenizes text.toList ts ∧ Formed maxDepth .sum ts f.expr ∧ f.text = normalize text := by
  constructor
  · intro h
    obtain ⟨ls, hls, he, htext⟩ := expr_of_parse h
    exact ⟨_, tokenizes_iff.mpr ⟨ls, hls, rfl⟩, formed_of_ofLexemes he, htext⟩
  · rintro ⟨ts, hts, hformed, htext⟩
    obtain ⟨ls, hls, rfl⟩ := tokenizes_iff.mp hts
    rw [parse_of_lexemes hls, ofLexemes_of_formed hformed, map_ok, ← htext]
    rfl

/-! ## 2. Tokens that may follow each other -/

/-- Of two tokens next to each other, the second may come right after the first. -/
abbrev Follow (ts : List Token) : Prop :=
  ts.IsChain fun t u => t.mayPrecede u = true

theorem Formed.follow {room : Nat} {nt : Nonterminal} {e : Expr} (h : Formed room nt ts e) :
    Follow ts := by
  obtain ⟨⟨n, -, hd⟩, -⟩ := h
  exact (isPhrase_of_derives hd).chain

/-- **A token that may come next begins with nothing that would be absorbed.** -/
theorem Spells.ends_absorbs (h : Spells u source rest) (htu : t.mayPrecede u = true) :
    Ends t.absorbs source := by
  intro c hc
  cases t with
  | number v =>
    cases h with
    | number _ _ _ => exact nomatch htu
    | name _ _ _ => exact nomatch htu
    | openParen rest => exact nomatch htu
    | _ =>
      obtain rfl := Option.some.inj hc
      rfl
  | name x =>
    cases h with
    | number _ _ _ => exact nomatch htu
    | name _ _ _ => exact nomatch htu
    | _ =>
      obtain rfl := Option.some.inj hc
      rfl
  | times =>
    cases h with
    | number hd _ _ =>
      obtain rfl := Option.some.inj hc
      refine decide_eq_false fun heq => ?_
      rw [heq] at hd
      exact absurd hd (by decide)
    | name hd _ _ =>
      obtain rfl := Option.some.inj hc
      refine decide_eq_false fun heq => ?_
      rw [heq] at hd
      exact absurd hd (by decide)
    | plus rest | minus rest | openParen rest =>
      obtain rfl := Option.some.inj hc
      rfl
    | _ => exact nomatch htu
  | _ => rfl

/-- Blanks are never absorbed. -/
theorem Token.absorbs_of_isBlank {c : Char} (hc : Text.isBlank c = true) :
    t.absorbs c = false := by
  by_contra h
  rw [Bool.not_eq_false] at h
  suffices hvisible : isVisible c = true by simp [isBlank_of_isVisible hvisible] at hc
  cases t with
  | number v => exact isVisible_of_extendsNumeral h
  | name x => exact isVisible_of_continuesName h
  | times =>
    obtain rfl : c = '*' := of_decide_eq_true h
    rfl
  | _ => exact nomatch h

theorem Tokenizes.ends_absorbs (h : Tokenizes cs us)
    (hnext : ∀ u ∈ us.head?, t.mayPrecede u = true) : Ends t.absorbs cs := by
  cases h with
  | nil => exact fun c hc => nomatch hc
  | blank hc _ =>
    intro d hd
    rw [← Option.some.inj hd]
    exact Token.absorbs_of_isBlank hc
  | token hu _ =>
    intro c hc
    rw [List.head?_append_of_ne_nil _ hu.source_ne_nil] at hc
    exact hu.ends_absorbs (hnext _ rfl) c hc

/-- The first of some tokens that follow each other, before the others as they are now cut. -/
theorem Tokenizes.token_of_follow (ht : Spells t source rest) (hfollow : Follow (t :: ts))
    (h : Tokenizes cs ts) : Tokenizes (source ++ cs) (t :: ts) :=
  .token (ht.change_rest (h.ends_absorbs (List.isChain_cons.mp hfollow).1)) h

/-- Two texts one behind the other. -/
theorem Tokenizes.append (h : Tokenizes cs ts) (h' : Tokenizes cs' us)
    (hfollow : Follow (ts ++ us)) : Tokenizes (cs ++ cs') (ts ++ us) := by
  induction h with
  | nil => exact h'
  | blank hc _ ih => exact .blank hc (ih hfollow)
  | token ht _ ih =>
    rw [List.append_assoc]
    exact .token_of_follow ht hfollow (ih (List.isChain_cons.mp hfollow).2)

/-- Tokens that follow each other stay the same when the blanks between them are left out. -/
theorem Tokenizes.strip (h : Tokenizes cs ts) (hfollow : Follow ts) :
    Tokenizes (Text.strip cs) ts := by
  induction h with
  | nil => exact .nil
  | blank hc _ ih =>
    rw [Text.strip, List.filter_cons_of_neg (by simp [hc])]
    exact ih hfollow
  | token ht _ ih =>
    rw [Text.strip_append, Text.stripped_iff.mpr ht.isBlank_eq_false]
    exact .token_of_follow ht hfollow (ih (List.isChain_cons.mp hfollow).2)

end BandMath.Formula
