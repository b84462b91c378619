/-
# The longest word of a class

Lexemes are words of three classes: runs of digits and points with their exponents, names, and
operators.  Which class it is shows in the first character (`WordClass.starts`), and what is taken
is the longest word of the class that stands there (`Longest`).  This says nothing of how the word
is looked for; `spells_iff` says that it is the word that was found.

* A run is taken whole even if it is not a numeral: it is one exactly when it has a digit and at
  most one point before the exponent (`IsRun.unsigned?_eq_none_iff`).
* So no token is found at the front of a text in two cases only (`firstToken_eq_error_iff`): the
  first character starts no word, or the run that stands there is not a numeral.

The classes of characters are given as in `BandMath.Formula.Lexeme`, but words are given by what
they consist of: a run is digits and points with a complete exponent behind it or without one, a
name is a letter or an underscore with letters, digits and underscores behind it, and an operator is
one of a few fixed words.  A word that is longer than another one at the same place begins with it,
so there is at most one longest word (`Longest.unique`).
-/
import BandMath.Proofs.Decimal.Numeral
import BandMath.Proofs.Formula.LongestMatch

namespace BandMath.Formula

open Decimal (isDigit isExponentMark exponent? mantissa? unsigned?)

variable {c : Char} {body exponent word source rest text : List Char}

/-! ## 1. Runs of digits and points -/

/-- Digits and points, one at least, and behind them nothing or a complete exponent. -/
structure IsRun (body exponent : List Char) : Prop where
  nonempty : body ≠ []
  inside : ∀ c ∈ body, inNumeral c = true
  complete : exponent = [] ∨ ∃ mark sign digits, IsExponent mark sign digits ∧
    exponent = mark :: (sign ++ digits)

/-- Digits and points that are not a number: there is no digit, or more than one point. -/
def Malformed (body : List Char) : Prop :=
  (∀ c ∈ body, isDigit c = false) ∨ 1 < body.count '.'

/-- A complete exponent has a value. -/
theorem IsExponent.exists_exponent? {mark : Char} {sign digits : List Char}
    (h : IsExponent mark sign digits) : ∃ e, exponent? (sign ++ digits) = some e := by
  obtain ⟨hplain, hplus, hminus⟩ := Decimal.exponent?_digits h.nonempty h.digits
  rcases h.sign with rfl | rfl | rfl
  · exact ⟨_, hplain⟩
  · exact ⟨_, hplus⟩
  · exact ⟨_, hminus⟩

/-- Among digits and points, those that are no digits are points. -/
theorem forall_isDigit_iff (h : ∀ c ∈ word, inNumeral c = true) :
    (∀ c ∈ word, isDigit c = true) ↔ word.count '.' = 0 := by
  rw [List.count_eq_zero]
  constructor
  · intro hdigits hmem
    exact absurd (hdigits '.' hmem) (by decide)
  · intro hpoint c hc
    rcases Bool.or_eq_true_iff.mp (h c hc) with hdigit | heq
    · exact hdigit
    · exact absurd (of_decide_eq_true heq ▸ hc) hpoint

/-- Only the empty word is made of digits and has none. -/
theorem forall_not_isDigit_iff (h : ∀ c ∈ word, isDigit c = true) :
    (∀ c ∈ word, isDigit c = false) ↔ word = [] := by
  constructor
  · intro hnone
    refine List.eq_nil_iff_forall_not_mem.mpr fun c hc => ?_
    exact Bool.false_ne_true ((hnone c hc).symm.trans (h c hc))
  · rintro rfl c hc
    exact nomatch hc

/-- Digits and points give no number exactly when they are malformed. -/
theorem mantissa?_eq_none_iff (hne : body ≠ []) (hbody : ∀ c ∈ body, inNumeral c = true) :
    mantissa? body = none ↔ Malformed body := by
  obtain ⟨whole, tail, rfl, hwhole, htail⟩ := exists_word isDigit body
  obtain ⟨hinWhole, hinTail⟩ := List.forall_mem_append.mp hbody
  have hzero : whole.count '.' = 0 := (forall_isDigit_iff hinWhole).mp hwhole
  have hwhole' := forall_not_isDigit_iff hwhole
  rw [mantissa?, takeWhile_word hwhole htail, dropWhile_word hwhole htail]
  cases tail with
  | nil =>
    -- digits only, so a number
    rw [List.append_nil] at hne
    simp [Malformed, hne, hzero, hwhole']
  | cons c fraction =>
    -- what ends the digits before it is a point
    have hc : c = '.' := by
      have hnumeral := hinTail c List.mem_cons_self
      simpa [inNumeral, htail c rfl] using hnumeral
    subst hc
    have hfraction := forall_isDigit_iff fun c hc => hinTail c (List.mem_cons_of_mem _ hc)
    have hcount : (whole ++ '.' :: fraction).count '.' = fraction.count '.' + 1 := by
      simp [hzero]
    rw [Malformed, hcount, List.forall_mem_append, List.forall_mem_cons]
    by_cases hall : ∀ c ∈ fraction, isDigit c = true
    · have hall' : fraction.all isDigit = true := List.all_eq_true.mpr hall
      have hpoint : isDigit '.' = false := rfl
      simp [hall', hwhole', hpoint, forall_not_isDigit_iff hall, hfraction.mp hall]
    · have hall' : fraction.all isDigit = false := by
        rw [← Bool.not_eq_true, List.all_eq_true]
        exact hall
      have hpositive : 0 < fraction.count '.' := Nat.pos_of_ne_zero fun h => hall (hfraction.mpr h)
      simp [hall', hpositive]

/-- The digits and points of a run are what stands before its exponent mark. -/
theorem IsRun.takeWhile_eq (h : IsRun body exponent) :
    (body ++ exponent).takeWhile (fun c => !isExponentMark c) = body := by
  refine takeWhile_word (fun c hc => ?_) fun c hc => ?_
  · rw [Bool.not_eq_true']
    by_contra hmark
    rw [Bool.not_eq_false] at hmark
    exact absurd (h.inside c hc) (by simp [inNumeral_of_isExponentMark hmark])
  · rcases h.complete with rfl | ⟨mark, sign, digits, hexp, rfl⟩
    · exact nomatch hc
    · rw [← Option.some.inj hc, hexp.mark, Bool.not_true]

/-- **A run is a numeral unless it is malformed before its exponent.** -/
theorem IsRun.unsigned?_eq_none_iff (h : IsRun body exponent) :
    unsigned? (body ++ exponent) = none ↔ Malformed body := by
  -- whether there is a value does not depend on how it is rounded
  rw [Decimal.unsigned?_eq, Option.map_eq_none_iff, ← mantissa?_eq_none_iff h.nonempty h.inside,
    Decimal.decimal?, h.takeWhile_eq, List.drop_left]
  cases mantissa? body with
  | none => simp
  | some r =>
    rcases h.complete with rfl | ⟨mark, sign, digits, hexp, rfl⟩
    · simp
    · obtain ⟨e, he⟩ := hexp.exists_exponent?
      simp [he]

/-! ## 2. Classes of words -/

/-- What a lexeme can be. -/
inductive WordClass where
  | numeral
  | name
  | operator

/-- The words of a class. -/
def WordClass.Has : WordClass → List Char → Prop
  | numeral, word => ∃ body exponent, IsRun body exponent ∧ word = body ++ exponent
  | name, word => ∃ c cs, word = c :: cs ∧ startsName c = true ∧ ∀ d ∈ cs, continuesName d = true
  | operator, word => word = ['*', '*'] ∨ ∃ c ∈ operators, word = [c]

/-- The first characters of the words of a class. -/
def WordClass.starts : WordClass → Char → Bool
  | numeral, c => inNumeral c
  | name, c => startsName c
  | operator, c => c ∈ operators

namespace WordClass

variable {k : WordClass}

/-- The words of a class begin with its first characters. -/
theorem Has.exists_cons (h : k.Has word) : ∃ c cs, word = c :: cs ∧ k.starts c = true := by
  cases k with
  | numeral =>
    obtain ⟨body, exponent, hrun, rfl⟩ := h
    obtain ⟨c, cs, rfl⟩ := List.exists_cons_of_ne_nil hrun.nonempty
    exact ⟨c, cs ++ exponent, rfl, hrun.inside c List.mem_cons_self⟩
  | name =>
    obtain ⟨c, cs, rfl, hc, -⟩ := h
    exact ⟨c, cs, rfl, hc⟩
  | operator =>
    rcases h with rfl | ⟨c, hc, rfl⟩
    · exact ⟨'*', ['*'], rfl, by decide⟩
    · exact ⟨c, [], rfl, decide_eq_true hc⟩

/-- A first character of a class is a word of it. -/
theorem has_singleton (h : k.starts c = true) : k.Has [c] := by
  cases k with
  | numeral =>
    refine ⟨[c], [], ⟨List.cons_ne_nil c [], ?_, .inl rfl⟩, rfl⟩
    intro d hd
    rwa [List.mem_singleton.mp hd]
  | name => exact ⟨c, [], rfl, h, fun d hd => nomatch hd⟩
  | operator => exact .inr ⟨c, of_decide_eq_true h, rfl⟩

end WordClass

/-- The longest word of the class at the front of a text. -/
structure Longest (k : WordClass) (word text : List Char) : Prop where
  front : word <+: text
  has : k.Has word
  longest : ∀ other, other <+: text → k.Has other → other.length ≤ word.length

theorem Longest.unique {k : WordClass} {word' : List Char} (h : Longest k word text)
    (h' : Longest k word' text) : word = word' := by
  have hlength : word.length = word'.length :=
    Nat.le_antisymm (h'.longest word h.front h.has) (h.longest word' h'.front h'.has)
  have hfront := List.prefix_of_prefix_length_le h.front h'.front (Nat.le_of_eq hlength)
  exact hfront.eq_of_length hlength

/-! ## 3. What stands at the front of a text -/

/-- Digits and points with an exponent are a run, if they do not begin with the exponent. -/
theorem IsNumeral.exists_isRun {cs : List Char} (h : IsNumeral (c :: cs))
    (hc : inNumeral c = true) :
    ∃ body exponent, IsRun body exponent ∧ c :: cs = body ++ exponent := by
  generalize hcs : c :: cs = source at h
  cases h with
  | plain hbody =>
    refine ⟨source, [], ⟨?_, hbody, .inl rfl⟩, (List.append_nil source).symm⟩
    rw [← hcs]
    exact List.cons_ne_nil c cs
  | @scaled body mark sign digits hbody hexp =>
    refine ⟨body, _, ⟨?_, hbody, .inr ⟨mark, sign, digits, hexp, rfl⟩⟩, rfl⟩
    rintro rfl
    rw [(List.cons.inj hcs).1, inNumeral_of_isExponentMark hexp.mark] at hc
    exact Bool.false_ne_true hc

/-- What is read as a numeral is a run. -/
theorem exists_isRun_numeralSource (cs : List Char) (hc : inNumeral c = true) :
    ∃ body exponent, IsRun body exponent ∧ numeralSource (c :: cs) = body ++ exponent := by
  have hnumeral := (isNumeral_numeralSource (c :: cs)).1
  rw [numeralSource_cons hc] at hnumeral ⊢
  exact hnumeral.exists_isRun hc

/-- A run at the front of a text is part of what is read as a numeral. -/
theorem IsRun.length_le_numeralSource (h : IsRun body exponent) (rest : List Char) :
    (body ++ exponent).length ≤ (numeralSource (body ++ exponent ++ rest)).length := by
  rcases h.complete with rfl | ⟨mark, sign, digits, hexp, rfl⟩
  · rw [List.append_nil, numeralSource, List.takeWhile_append_of_pos h.inside]
    simp only [List.length_append]
    omega
  · -- the exponent may go on behind the digits that the run ends with
    obtain ⟨more, tail, rfl, hmore, htail⟩ := exists_word isDigit rest
    have hexp' : IsExponent mark sign (digits ++ more) :=
      ⟨hexp.mark, hexp.sign, List.append_ne_nil_of_left_ne_nil hexp.nonempty more,
        List.forall_mem_append.mpr ⟨hexp.digits, hmore⟩⟩
    have htext : body ++ mark :: (sign ++ digits) ++ (more ++ tail) =
        body ++ (mark :: (sign ++ (digits ++ more)) ++ tail) := by simp
    rw [htext, numeralSource_scaled h.inside hexp' htail]
    simp only [List.length_append, List.length_cons]
    omega

theorem longest_numeralSource (cs : List Char) (hc : inNumeral c = true) :
    Longest .numeral (numeralSource (c :: cs)) (c :: cs) := by
  obtain ⟨-, rest, hrest⟩ := isNumeral_numeralSource (c :: cs)
  refine ⟨⟨rest, hrest.symm⟩, exists_isRun_numeralSource cs hc, ?_⟩
  rintro other ⟨rest', hrest'⟩ ⟨body, exponent, hrun, rfl⟩
  rw [← hrest']
  exact hrun.length_le_numeralSource rest'

theorem longest_name (hc : startsName c = true) (hword : ∀ d ∈ word, continuesName d = true)
    (hrest : Ends continuesName rest) : Longest .name (c :: word) (c :: word ++ rest) := by
  refine ⟨List.prefix_append _ rest, ⟨c, word, rfl, hc, hword⟩, ?_⟩
  rintro other ⟨rest', hrest'⟩ ⟨d, cs, rfl, -, hcs⟩
  have htail : cs ++ rest' = word ++ rest := (List.cons.inj hrest').2
  have htake : cs ++ rest'.takeWhile continuesName = word := by
    rw [← List.takeWhile_append_of_pos hcs, htail, takeWhile_word hword hrest]
  rw [← htake]
  simp only [List.length_cons, List.length_append]
  omega

theorem longest_stars (rest : List Char) : Longest .operator ['*', '*'] ('*' :: '*' :: rest) := by
  refine ⟨⟨rest, rfl⟩, .inl rfl, ?_⟩
  rintro other - (rfl | ⟨c, -, rfl⟩)
  · exact Nat.le_refl 2
  · exact Nat.le_succ 1

theorem longest_operator (hc : c ∈ operators) (hrest : c = '*' → rest.head? ≠ some '*') :
    Longest .operator [c] (c :: rest) := by
  refine ⟨⟨rest, rfl⟩, .inr ⟨c, hc, rfl⟩, ?_⟩
  rintro other ⟨rest', hrest'⟩ (rfl | ⟨d, -, rfl⟩)
  · obtain ⟨rfl, rfl⟩ := List.cons.inj hrest'
    exact absurd rfl (hrest rfl)
  · exact Nat.le_refl 1

/-! ## 4. Tokens -/

/-- The class of the words that are read as the token. -/
def Token.wordClass : Token → WordClass
  | number _ => .numeral
  | name _ => .name
  | _ => .operator

/-- The word is read as the token, if it is of the class. -/
def Token.Reads : Token → List Char → Prop
  | number v, word => unsigned? word = some v
  | name x, word => word = x.toList
  | plus, word => word = ['+']
  | minus, word => word = ['-']
  | times, word => word = ['*']
  | divide, word => word = ['/']
  | power, word => word = ['^'] ∨ word = ['*', '*']
  | openParen, word => word = ['(']
  | closeParen, word => word = [')']

theorem Longest.of_spells {t : Token} (h : Spells t source rest) :
    Longest t.wordClass source (source ++ rest) := by
  cases h with
  | times hrest => exact longest_operator (by decide) fun _ => hrest
  | powerStars rest => exact longest_stars rest
  | @number c cs _ v hc hsource hv =>
    have hlongest := longest_numeralSource (cs ++ rest) hc
    rwa [← List.cons_append, hsource] at hlongest
  | name hc hcs hrest => exact longest_name hc hcs hrest
  | _ => exact longest_operator (by decide) fun hstar => absurd hstar (by decide)

theorem Token.reads_of_spells {t : Token} (h : Spells t source rest) : t.Reads source := by
  cases h with
  | power rest => exact .inl rfl
  | powerStars rest => exact .inr rfl
  | number hc hsource hv => exact hv
  | name hc hcs hrest => exact String.toList_ofList.symm
  | _ => rfl

/-- The longest word that is read as a number is found as a numeral. -/
theorem spells_number {v : Float} (hv : unsigned? source = some v)
    (h : Longest .numeral source (source ++ rest)) : Spells (.number v) source rest := by
  obtain ⟨c, cs, rfl, hc⟩ := h.has.exists_cons
  exact .number hc ((longest_numeralSource (cs ++ rest) hc).unique h) hv

/-- The longest word that is read as a name is found as a name. -/
theorem spells_name {x : String} (h : Longest .name x.toList (x.toList ++ rest)) :
    Spells (.name x) x.toList rest := by
  obtain ⟨c, cs, hx, hc, hcs⟩ := h.has
  have hends : Ends continuesName rest := by
    intro d hd
    by_contra hcontinues
    rw [Bool.not_eq_false] at hcontinues
    obtain ⟨tail, rfl⟩ := List.head?_eq_some_iff.mp hd
    have hlonger := h.longest (x.toList ++ [d]) ⟨tail, by simp⟩ ⟨c, cs ++ [d], by simp [hx], hc,
      List.forall_mem_append.mpr ⟨hcs, by simpa using hcontinues⟩⟩
    rw [List.length_append, List.length_singleton] at hlonger
    omega
  have hname := Spells.name hc hcs hends
  rwa [← hx, String.ofList_toList] at hname

/-- **A token is spelled where its word is the longest of its class.** -/
theorem spells_iff {t : Token} : Spells t source rest ↔
    t.Reads source ∧ Longest t.wordClass source (source ++ rest) := by
  constructor
  · intro h
    exact ⟨Token.reads_of_spells h, .of_spells h⟩
  · rintro ⟨hreads, hlongest⟩
    cases t with
    | number v => exact spells_number hreads hlongest
    | name x =>
      obtain rfl := hreads
      exact spells_name hlongest
    | times =>
      obtain rfl := hreads
      refine .times fun hstar => ?_
      obtain ⟨tail, rfl⟩ := List.head?_eq_some_iff.mp hstar
      exact absurd (hlongest.longest ['*', '*'] ⟨tail, rfl⟩ (.inl rfl)) (by decide)
    | power =>
      rcases hreads with rfl | rfl
      · exact .power rest
      · exact .powerStars rest
    | _ =>
      obtain rfl := hreads
      constructor

/-! ## 5. Where no token is found -/

/-- No token can be read at the front of the text: its first character is not blank and begins no
word, or the run that stands there is malformed. -/
inductive Unreadable : List Char → Reason → Prop
  | character {c : Char} {rest : List Char} (hblank : Text.isBlank c = false)
      (hc : ∀ (k : WordClass) (word : List Char), k.Has word → word.head? ≠ some c) :
      Unreadable (c :: rest) (.unexpectedCharacter c)
  | run {body exponent text : List Char} (hrun : IsRun body exponent)
      (hlongest : Longest .numeral (body ++ exponent) text) (hbody : Malformed body) :
      Unreadable text (.invalidNumber (String.ofList (body ++ exponent)))

theorem begins_no_word_iff : (∀ (k : WordClass) (word : List Char), k.Has word →
    word.head? ≠ some c) ↔ c ∉ operators ∧ inNumeral c = false ∧ startsName c = false := by
  constructor
  · intro h
    have hstarts : ∀ k : WordClass, k.starts c = false := by
      intro k
      by_contra hk
      rw [Bool.not_eq_false] at hk
      exact h k [c] (WordClass.has_singleton hk) rfl
    exact ⟨of_decide_eq_false (hstarts .operator), hstarts .numeral, hstarts .name⟩
  · rintro ⟨hoperator, hnumeral, hname⟩ k word hword hhead
    obtain ⟨d, cs, rfl, hd⟩ := hword.exists_cons
    obtain rfl := Option.some.inj hhead
    cases k with
    | numeral => exact Bool.false_ne_true (hnumeral.symm.trans hd)
    | name => exact Bool.false_ne_true (hname.symm.trans hd)
    | operator => exact hoperator (of_decide_eq_true hd)

/-- Where an operator stands, a token is found. -/
theorem exists_firstToken_of_mem (rest : List Char) (hc : c ∈ operators) :
    ∃ t source, firstToken (c :: rest) = .ok (t, source) := by
  by_cases hstar : c = '*' ∧ rest.head? ≠ some '*'
  · obtain ⟨rfl, hrest⟩ := hstar
    exact ⟨.times, ['*'], firstToken_eq_ok_iff.mpr ⟨rest, rfl, .times hrest⟩⟩
  · simp only [operators, List.mem_cons, List.not_mem_nil, or_false] at hc
    rcases hc with rfl | rfl | rfl | rfl | rfl | rfl | rfl
    case inr.inr.inl =>
      have hhead : rest.head? = some '*' := by simpa using hstar
      obtain ⟨tail, rfl⟩ := List.head?_eq_some_iff.mp hhead
      exact ⟨_, _, rfl⟩
    all_goals exact ⟨_, _, rfl⟩

theorem Unreadable.exists_cons {reason : Reason} (h : Unreadable text reason) :
    ∃ c rest, text = c :: rest ∧ Text.isBlank c = false := by
  cases h with
  | @character c rest hblank _ => exact ⟨c, rest, rfl, hblank⟩
  | run hrun hlongest _ =>
    obtain ⟨c, cs, hword, hc⟩ := hlongest.has.exists_cons
    obtain ⟨rest, htext⟩ := hlongest.front
    rw [hword] at htext
    exact ⟨c, cs ++ rest, htext.symm, isBlank_of_isVisible (isVisible_of_inNumeral hc)⟩

theorem firstToken_of_unreadable {reason : Reason} (h : Unreadable text reason) :
    firstToken text = .error reason := by
  cases h with
  | character _ hc =>
    obtain ⟨hoperator, hnumeral, hname⟩ := begins_no_word_iff.mp hc
    rw [firstToken_of_not_mem hoperator, hnumeral, hname]
    rfl
  | run hrun hlongest hbody =>
    obtain ⟨c, cs, hword, hc⟩ := hlongest.has.exists_cons
    obtain ⟨rest, rfl⟩ := hlongest.front
    have hnumeral : inNumeral c = true := hc
    have hsource := (longest_numeralSource (cs ++ rest) hnumeral).unique
      (by rwa [← List.cons_append, ← hword])
    rw [hword, List.cons_append, firstToken_of_not_mem (not_mem_operators_of_inNumeral hnumeral),
      if_pos hnumeral, hsource, hrun.unsigned?_eq_none_iff.mpr hbody, hword]

/-- **No token is found exactly where none can be read.** -/
theorem firstToken_eq_error_iff {reason : Reason} (hblank : Text.isBlank c = false) :
    firstToken (c :: rest) = .error reason ↔ Unreadable (c :: rest) reason := by
  refine ⟨fun h => ?_, firstToken_of_unreadable⟩
  by_cases hc : c ∈ operators
  · obtain ⟨t, source, hok⟩ := exists_firstToken_of_mem rest hc
    rw [hok] at h
    exact nomatch h
  rw [firstToken_of_not_mem hc] at h
  split at h
  · rename_i hnumeral
    obtain ⟨body, exponent, hrun, hsource⟩ := exists_isRun_numeralSource rest hnumeral
    have hlongest := longest_numeralSource rest hnumeral
    rw [hsource] at h hlongest
    split at h
    · exact nomatch h
    · rename_i hnone
      obtain rfl := Except.error.inj h
      exact .run hrun hlongest (hrun.unsigned?_eq_none_iff.mp hnone)
  · rename_i hnumeral
    split at h
    · exact nomatch h
    · rename_i hname
      obtain rfl := Except.error.inj h
      exact .character hblank
        (begins_no_word_iff.mpr ⟨hc, by simpa using hnumeral, by simpa using hname⟩)

end BandMath.Formula
