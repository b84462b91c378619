/-
# Neighbours in a sentence

What the grammar derives is a phrase: it begins and ends as an operand does, and of two tokens next
to each other the second is one that may follow the first.  Behind an operand there is an operator
or the end of a parenthesis, behind an operator or at the start of a parenthesis there is an
operand.  So two numerals or names are never neighbours, nor are two operators other than a sign
behind an operator.

This is not all that the grammar says, since it does not count parentheses; it is what can be seen
of it without looking further than one token.

It is enough for two questions about texts.  Tokens that may be neighbours do not run together when
the blanks between them are left out (`BandMath.Proofs.Formula.Tokens`), and two operators that
would become another operator are never neighbours (`BandMath.Proofs.Formula.Spellings`).
-/
import BandMath.Proofs.Formula.Grammar
import Mathlib.Data.List.Chain

namespace BandMath.Formula

/-! ## 1. Phrases -/

namespace Token

/-- Tokens that an operand may begin with. -/
def beginsOperand : Token → Bool
  | number _ | name _ | plus | minus | openParen => true
  | _ => false

/-- Tokens that an operand may end with. -/
def endsOperand : Token → Bool
  | number _ | name _ | closeParen => true
  | _ => false

/-- Tokens that may come right after an operand. -/
def followsOperand : Token → Bool
  | plus | minus | times | divide | power | closeParen => true
  | _ => false

/-- Tokens that a function may be called by. -/
def callsFunction : Token → Bool
  | name _ => true
  | _ => false

/-- Whether the second token may come right after the first. -/
def mayPrecede (t u : Token) : Bool :=
  if t.endsOperand then u.followsOperand || (t.callsFunction && u = openParen)
  else u.beginsOperand

theorem mayPrecede_of_endsOperand {t u : Token} (ht : t.endsOperand = true)
    (hu : u.followsOperand = true) : t.mayPrecede u = true := by
  rw [mayPrecede, if_pos ht, hu, Bool.true_or]

theorem mayPrecede_of_beginsOperand {t u : Token} (ht : t.endsOperand = false)
    (hu : u.beginsOperand = true) : t.mayPrecede u = true := by
  rw [mayPrecede, ht, if_neg Bool.false_ne_true, hu]

end Token

/-- Tokens that could be an operand, as far as two neighbours can tell. -/
structure IsPhrase (ts : List Token) : Prop where
  begins : ∃ t ∈ ts.head?, t.beginsOperand = true
  ends : ∃ t ∈ ts.getLast?, t.endsOperand = true
  chain : ts.IsChain fun t u => t.mayPrecede u = true

/-! ## 2. Making phrases -/

namespace IsPhrase

variable {ts us : List Token} {t op : Token}

theorem singleton (hbegins : t.beginsOperand = true) (hends : t.endsOperand = true) :
    IsPhrase [t] :=
  ⟨⟨t, rfl, hbegins⟩, ⟨t, rfl, hends⟩, .singleton t⟩

theorem ne_nil (h : IsPhrase ts) : ts ≠ [] := by
  rintro rfl
  obtain ⟨t, ht, -⟩ := h.begins
  exact nomatch ht

/-- A token before a phrase. -/
theorem cons (h : IsPhrase ts) (hbegins : t.beginsOperand = true)
    (hnext : ∀ u ∈ ts.head?, t.mayPrecede u = true) : IsPhrase (t :: ts) := by
  refine ⟨⟨t, rfl, hbegins⟩, ?_, List.isChain_cons.mpr ⟨hnext, h.chain⟩⟩
  rw [List.getLast?_cons_of_ne_nil h.ne_nil]
  exact h.ends

/-- A sign before a phrase. -/
theorem sign (h : IsPhrase ts) (hbegins : t.beginsOperand = true) (hends : t.endsOperand = false) :
    IsPhrase (t :: ts) := by
  refine h.cons hbegins fun u hu => Token.mayPrecede_of_beginsOperand hends ?_
  obtain ⟨v, hv, hvbegins⟩ := h.begins
  rwa [Option.mem_unique hu hv]

/-- An operator between two phrases. -/
theorem join (hl : IsPhrase ts) (hr : IsPhrase us) (hfollows : op.followsOperand = true)
    (hends : op.endsOperand = false) : IsPhrase (ts ++ op :: us) := by
  obtain ⟨t, ht, htbegins⟩ := hl.begins
  obtain ⟨v, hv, hvends⟩ := hl.ends
  obtain ⟨u, hu, hubegins⟩ := hr.begins
  refine ⟨⟨t, ?_, htbegins⟩, ?_, List.isChain_append.mpr ⟨hl.chain, ?_, ?_⟩⟩
  · rw [List.head?_append_of_ne_nil _ hl.ne_nil]
    exact ht
  · rw [List.getLast?_append_of_ne_nil _ (List.cons_ne_nil _ _),
      List.getLast?_cons_of_ne_nil hr.ne_nil]
    exact hr.ends
  · refine List.isChain_cons.mpr ⟨fun w hw => ?_, hr.chain⟩
    rw [Option.mem_unique hw hu]
    exact Token.mayPrecede_of_beginsOperand hends hubegins
  · intro x hx y hy
    obtain rfl := Option.some.inj hy
    rw [Option.mem_unique hx hv]
    exact Token.mayPrecede_of_endsOperand hvends hfollows

/-- A phrase between parentheses. -/
theorem enclose (h : IsPhrase ts) : IsPhrase (.openParen :: (ts ++ [.closeParen])) := by
  obtain ⟨t, ht, htbegins⟩ := h.begins
  obtain ⟨v, hv, hvends⟩ := h.ends
  refine ⟨⟨_, rfl, rfl⟩, ⟨.closeParen, ?_, rfl⟩, List.isChain_cons.mpr ⟨fun u hu => ?_, ?_⟩⟩
  · rw [← List.cons_append, List.getLast?_concat]
    rfl
  · rw [List.head?_append_of_ne_nil _ h.ne_nil] at hu
    rw [Option.mem_unique hu ht]
    exact Token.mayPrecede_of_beginsOperand rfl htbegins
  · refine List.isChain_append.mpr ⟨h.chain, .singleton _, fun x hx y hy => ?_⟩
    obtain rfl := Option.some.inj hy
    rw [Option.mem_unique hx hv]
    exact Token.mayPrecede_of_endsOperand hvends rfl

end IsPhrase

/-! ## 3. Sentences -/

/-- **Whatever is derived is a phrase.**  By induction on the derivation. -/
theorem isPhrase_of_derives {nt : Nonterminal} {n : Nat} {ts : List Token} {e : Expr}
    (h : Derives nt n ts e) : IsPhrase ts := by
  induction h with
  | sum _ ih | product _ ih | unsigned _ ih | base _ ih => exact ih
  | add _ _ ihl ihr | subtract _ _ ihl ihr | multiply _ _ ihl ihr | divide _ _ ihl ihr
  | raise _ _ ihl ihr => exact ihl.join ihr rfl rfl
  | negate _ ih | posit _ ih => exact ih.sign rfl rfl
  | number v => exact .singleton rfl rfl
  | name x => exact .singleton rfl rfl
  | call f _ ih =>
    refine ih.enclose.cons rfl fun u hu => ?_
    obtain rfl := Option.some.inj hu
    rfl
  | parens _ ih => exact ih.enclose

end BandMath.Formula
