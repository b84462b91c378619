/-
# How a text is cut into lexemes

`lexemes` is a loop that counts characters.  `Cut` says what it does without the loop: lexemes
follow each other with nothing but blanks between them, and each is what stands at its place.

What stands at a place is given by `Spells t source rest`: the characters `source` are the token
`t`, and they are as many as the class of `t` allows when `rest` comes after them.  The rest matters
only through its first character (`Spells.change_rest`): `Token.absorbs` says which characters a
token would take in.

* `firstToken_eq_ok_iff`: the token found at the front of a text is the one that is spelled there;
* `lexemes_eq_ok_iff`: a text has the lexemes that it can be cut into.
-/
import BandMath.Formula.Lexeme
import BandMath.Proofs.Fallible
import BandMath.Proofs.Text.Word

namespace BandMath.Formula

open Decimal (isDigit isExponentMark)

/-! ## 1. Classes of characters

By the numbers of the characters, so that what two classes have in common is arithmetic. -/

theorem char_le_iff {c d : Char} : c ≤ d ↔ c.toNat ≤ d.toNat := Iff.rfl

theorem isDigit_iff {c : Char} : isDigit c = true ↔ 48 ≤ c.toNat ∧ c.toNat ≤ 57 := by
  simp [isDigit, char_le_iff]

theorem isExponentMark_iff {c : Char} :
    isExponentMark c = true ↔ c.toNat = 101 ∨ c.toNat = 69 := by
  simp [isExponentMark, ← Char.toNat_inj]

theorem inNumeral_iff {c : Char} :
    inNumeral c = true ↔ (48 ≤ c.toNat ∧ c.toNat ≤ 57) ∨ c.toNat = 46 := by
  simp [inNumeral, isDigit_iff, ← Char.toNat_inj]

theorem startsName_iff {c : Char} : startsName c = true ↔
    (97 ≤ c.toNat ∧ c.toNat ≤ 122) ∨ (65 ≤ c.toNat ∧ c.toNat ≤ 90) ∨ c.toNat = 95 := by
  simp [startsName, char_le_iff, ← Char.toNat_inj, or_assoc]

theorem continuesName_iff {c : Char} :
    continuesName c = true ↔ startsName c = true ∨ isDigit c = true := by
  simp [continuesName]

theorem inNumeral_of_isExponentMark {c : Char} (h : isExponentMark c = true) :
    inNumeral c = false := by
  rw [isExponentMark_iff] at h
  rw [← Bool.not_eq_true, inNumeral_iff]
  omega

theorem inNumeral_of_startsName {c : Char} (h : startsName c = true) : inNumeral c = false := by
  rw [startsName_iff] at h
  rw [← Bool.not_eq_true, inNumeral_iff]
  omega

theorem isDigit_of_inNumeral_eq_false {c : Char} (h : inNumeral c = false) : isDigit c = false :=
  (Bool.or_eq_false_iff.mp h).1

/-- The visible characters of ASCII. -/
def isVisible (c : Char) : Bool :=
  '!' ≤ c && c ≤ '~'

theorem isVisible_iff {c : Char} : isVisible c = true ↔ 33 ≤ c.toNat ∧ c.toNat ≤ 126 := by
  simp [isVisible, char_le_iff]

theorem isBlank_of_isVisible {c : Char} (h : isVisible c = true) : Text.isBlank c = false := by
  rw [isVisible_iff] at h
  simp [Text.isBlank, Text.blankRanges]
  omega

theorem isVisible_of_inNumeral {c : Char} (h : inNumeral c = true) : isVisible c = true := by
  rw [inNumeral_iff] at h
  rw [isVisible_iff]
  omega

theorem isVisible_of_continuesName {c : Char} (h : continuesName c = true) :
    isVisible c = true := by
  rw [continuesName_iff, startsName_iff, isDigit_iff] at h
  rw [isVisible_iff]
  omega

/-! ## 2. Numerals -/

/-- A complete exponent: a mark, perhaps a sign, and digits. -/
structure IsExponent (mark : Char) (sign digits : List Char) : Prop where
  mark : isExponentMark mark = true
  sign : sign = [] ∨ sign = ['+'] ∨ sign = ['-']
  nonempty : digits ≠ []
  digits : ∀ c ∈ digits, isDigit c = true

theorem IsExponent.source_append {mark : Char} {sign digits rest : List Char}
    (h : IsExponent mark sign digits) (hrest : Ends isDigit rest) :
    exponentSource (mark :: (sign ++ digits) ++ rest) = mark :: (sign ++ digits) := by
  have htake : (digits ++ rest).takeWhile isDigit = digits := takeWhile_word h.digits hrest
  rcases h.sign with rfl | rfl | rfl
  · cases digits with
    | nil => exact absurd rfl h.nonempty
    | cons d digits =>
      have hd : isDigit d = true := h.digits d List.mem_cons_self
      simp only [exponentSource, h.mark, if_true, List.nil_append, List.cons_append]
      split
      · rename_i heq
        rw [(List.cons.inj heq).1] at hd
        exact nomatch hd
      · rename_i heq
        rw [(List.cons.inj heq).1] at hd
        exact nomatch hd
      · rw [exponentDigits, ← List.cons_append, htake]
        rfl
  · simp [exponentSource, h.mark, exponentDigits, htake, h.nonempty]
  · simp [exponentSource, h.mark, exponentDigits, htake, h.nonempty]

theorem exponentDigits_eq (before cs : List Char) :
    exponentDigits before cs = [] ∨ ∃ digits rest, cs = digits ++ rest ∧
      exponentDigits before cs = before ++ digits ∧ digits ≠ [] ∧
      (∀ c ∈ digits, isDigit c = true) ∧ Ends isDigit rest := by
  obtain ⟨digits, rest, rfl, hdigits, hrest⟩ := exists_word isDigit cs
  rw [exponentDigits, takeWhile_word hdigits hrest]
  cases digits with
  | nil => exact Or.inl rfl
  | cons d digits =>
    exact Or.inr ⟨d :: digits, rest, rfl, rfl, List.cons_ne_nil _ _, hdigits, hrest⟩

/-- What is taken as an exponent is nothing or a complete exponent. -/
theorem exponentSource_eq (cs : List Char) :
    exponentSource cs = [] ∨ ∃ mark sign digits rest, IsExponent mark sign digits ∧
      Ends isDigit rest ∧ cs = mark :: (sign ++ digits) ++ rest := by
  cases cs with
  | nil => exact Or.inl rfl
  | cons mark cs =>
    by_cases hmark : isExponentMark mark = true
    · simp only [exponentSource, hmark, if_true]
      split
      · rename_i after
        refine (exponentDigits_eq [mark, '+'] after).imp_right ?_
        rintro ⟨digits, rest, rfl, -, hne, hdigits, hrest⟩
        exact ⟨mark, ['+'], digits, rest, ⟨hmark, by simp, hne, hdigits⟩, hrest, rfl⟩
      · rename_i after
        refine (exponentDigits_eq [mark, '-'] after).imp_right ?_
        rintro ⟨digits, rest, rfl, -, hne, hdigits, hrest⟩
        exact ⟨mark, ['-'], digits, rest, ⟨hmark, by simp, hne, hdigits⟩, hrest, rfl⟩
      · refine (exponentDigits_eq [mark] cs).imp_right ?_
        rintro ⟨digits, rest, rfl, -, hne, hdigits, hrest⟩
        exact ⟨mark, [], digits, rest, ⟨hmark, by simp, hne, hdigits⟩, hrest, rfl⟩
    · exact Or.inl (by simp [exponentSource, hmark])

/-- Digits and points, perhaps with an exponent behind them. -/
inductive IsNumeral : List Char → Prop
  | plain {body : List Char} (hbody : ∀ c ∈ body, inNumeral c = true) : IsNumeral body
  | scaled {body : List Char} {mark : Char} {sign digits : List Char}
      (hbody : ∀ c ∈ body, inNumeral c = true) (hexp : IsExponent mark sign digits) :
      IsNumeral (body ++ mark :: (sign ++ digits))

/-- Characters that a numeral may take in. -/
def extendsNumeral (c : Char) : Bool :=
  inNumeral c || isExponentMark c

/-- A complete exponent is taken with the digits and points before it. -/
theorem numeralSource_scaled {body sign digits rest : List Char} {mark : Char}
    (hbody : ∀ c ∈ body, inNumeral c = true) (hexp : IsExponent mark sign digits)
    (hrest : Ends isDigit rest) :
    numeralSource (body ++ (mark :: (sign ++ digits) ++ rest)) =
      body ++ mark :: (sign ++ digits) := by
  have hmark : Ends inNumeral (mark :: (sign ++ digits) ++ rest) := by
    intro c hc
    rw [← Option.some.inj hc]
    exact inNumeral_of_isExponentMark hexp.mark
  rw [numeralSource, takeWhile_word hbody hmark, dropWhile_word hbody hmark,
    hexp.source_append hrest]

theorem IsNumeral.source_append {source rest : List Char} (h : IsNumeral source)
    (hrest : Ends extendsNumeral rest) : numeralSource (source ++ rest) = source := by
  have hnumeral : Ends inNumeral rest := fun c hc => (Bool.or_eq_false_iff.mp (hrest c hc)).1
  cases h with
  | plain hbody =>
    have hnone : exponentSource rest = [] := by
      cases rest with
      | nil => rfl
      | cons c rest =>
        have hmark : isExponentMark c = false := (Bool.or_eq_false_iff.mp (hrest c rfl)).2
        simp [exponentSource, hmark]
    rw [numeralSource, takeWhile_word hbody hnumeral, dropWhile_word hbody hnumeral, hnone,
      List.append_nil]
  | @scaled body mark sign digits hbody hexp =>
    have hdigit : Ends isDigit rest := fun c hc => isDigit_of_inNumeral_eq_false (hnumeral c hc)
    rw [List.append_assoc, numeralSource_scaled hbody hexp hdigit]

/-- What is taken as a numeral is one, and begins the text. -/
theorem isNumeral_numeralSource (cs : List Char) :
    IsNumeral (numeralSource cs) ∧ ∃ rest, cs = numeralSource cs ++ rest := by
  obtain ⟨body, tail, rfl, hbody, htail⟩ := exists_word inNumeral cs
  rw [numeralSource, takeWhile_word hbody htail, dropWhile_word hbody htail]
  rcases exponentSource_eq tail with hnone | ⟨mark, sign, digits, rest, hexp, hrest, rfl⟩
  · rw [hnone, List.append_nil]
    exact ⟨.plain hbody, tail, rfl⟩
  · rw [hexp.source_append hrest]
    exact ⟨.scaled hbody hexp, rest, (List.append_assoc ..).symm⟩

theorem isNumeral_of_numeralSource_eq {cs source : List Char} (h : numeralSource cs = source) :
    IsNumeral source :=
  h ▸ (isNumeral_numeralSource cs).1

theorem numeralSource_cons {c : Char} {cs : List Char} (hc : inNumeral c = true) :
    numeralSource (c :: cs) = c :: numeralSource cs := by
  rw [numeralSource, List.takeWhile_cons_of_pos hc, List.dropWhile_cons_of_pos hc]
  rfl

/-! ## 3. Tokens -/

/-- The characters `source` are the token, and as many of its class as there are before `rest`. -/
inductive Spells : Token → List Char → List Char → Prop
  | plus (rest : List Char) : Spells .plus ['+'] rest
  | minus (rest : List Char) : Spells .minus ['-'] rest
  | times {rest : List Char} (hrest : rest.head? ≠ some '*') : Spells .times ['*'] rest
  | divide (rest : List Char) : Spells .divide ['/'] rest
  | power (rest : List Char) : Spells .power ['^'] rest
  | powerStars (rest : List Char) : Spells .power ['*', '*'] rest
  | openParen (rest : List Char) : Spells .openParen ['('] rest
  | closeParen (rest : List Char) : Spells .closeParen [')'] rest
  | number {c : Char} {cs rest : List Char} {v : Float} (hc : inNumeral c = true)
      (hsource : numeralSource (c :: cs ++ rest) = c :: cs)
      (hv : Decimal.unsigned? (c :: cs) = some v) : Spells (.number v) (c :: cs) rest
  | name {c : Char} {cs rest : List Char} (hc : startsName c = true)
      (hcs : ∀ d ∈ cs, continuesName d = true) (hrest : Ends continuesName rest) :
      Spells (.name (String.ofList (c :: cs))) (c :: cs) rest

/-- The characters that are tokens by themselves, or begin one. -/
def operators : List Char := ['+', '-', '*', '/', '^', '(', ')']

/-- A numeral or a name is looked for where no operator stands. -/
theorem firstToken_of_not_mem {c : Char} {cs : List Char} (hc : c ∉ operators) :
    firstToken (c :: cs) =
      if inNumeral c then
        match Decimal.unsigned? (numeralSource (c :: cs)) with
        | some v => .ok (.number v, numeralSource (c :: cs))
        | none => .error (.invalidNumber (String.ofList (numeralSource (c :: cs))))
      else if startsName c then
        .ok (.name (String.ofList (c :: cs.takeWhile continuesName)),
          c :: cs.takeWhile continuesName)
      else .error (.unexpectedCharacter c) := by
  unfold firstToken
  split
  case h_10 =>
    rename_i heq
    obtain ⟨rfl, rfl⟩ := List.cons.inj heq
    rfl
  all_goals simp_all [operators]

theorem not_mem_operators_of_inNumeral {c : Char} (hc : inNumeral c = true) : c ∉ operators := by
  intro hmem
  have hany : operators.any inNumeral = false := by decide
  exact nomatch hany.symm.trans (List.any_eq_true.mpr ⟨c, hmem, hc⟩)

theorem not_mem_operators_of_startsName {c : Char} (hc : startsName c = true) :
    c ∉ operators := by
  intro hmem
  have hany : operators.any startsName = false := by decide
  exact nomatch hany.symm.trans (List.any_eq_true.mpr ⟨c, hmem, hc⟩)

/-- **The token found at the front of a text is the one that is spelled there.** -/
theorem firstToken_eq_ok_iff {cs : List Char} {t : Token} {source : List Char} :
    firstToken cs = .ok (t, source) ↔ ∃ rest, cs = source ++ rest ∧ Spells t source rest := by
  constructor
  · intro h
    unfold firstToken at h
    split at h
    case h_1 => exact nomatch h
    case h_6 rest hrest =>
      obtain ⟨rfl, rfl⟩ := Prod.mk.inj (Except.ok.inj h)
      refine ⟨rest, rfl, .times fun hhead => ?_⟩
      obtain ⟨tail, htail⟩ := List.head?_eq_some_iff.mp hhead
      exact hrest tail htail
    case h_10 c cs _ _ _ _ _ _ _ _ =>
      split at h
      · rename_i hc
        dsimp only at h
        split at h
        · rename_i v hv
          obtain ⟨rfl, rfl⟩ := Prod.mk.inj (Except.ok.inj h)
          obtain ⟨-, rest, hrest⟩ := isNumeral_numeralSource (c :: cs)
          refine ⟨rest, hrest, ?_⟩
          rw [numeralSource_cons hc] at hrest hv ⊢
          refine .number hc ?_ hv
          rw [← hrest, numeralSource_cons hc]
        · exact nomatch h
      · split at h
        · rename_i hc
          obtain ⟨rfl, rfl⟩ := Prod.mk.inj (Except.ok.inj h)
          obtain ⟨word, rest, rfl, hword, hrest⟩ := exists_word continuesName cs
          rw [takeWhile_word hword hrest]
          exact ⟨rest, rfl, .name hc hword hrest⟩
        · exact nomatch h
    all_goals
      obtain ⟨rfl, rfl⟩ := Prod.mk.inj (Except.ok.inj h)
      exact ⟨_, rfl, by constructor⟩
  · rintro ⟨rest, rfl, h⟩
    cases h with
    | times hrest =>
      cases rest with
      | nil => rfl
      | cons c rest =>
        have hc : c ≠ '*' := fun hc => hrest (congrArg some hc)
        simp [firstToken, hc]
    | number hc hsource hv =>
      rw [List.cons_append, firstToken_of_not_mem (not_mem_operators_of_inNumeral hc), if_pos hc,
        ← List.cons_append, hsource, hv]
    | name hc hcs hrest =>
      rw [List.cons_append, firstToken_of_not_mem (not_mem_operators_of_startsName hc),
        inNumeral_of_startsName hc, if_neg Bool.false_ne_true, if_pos hc,
        takeWhile_word hcs hrest]
    | _ => rfl

/-! ## 4. The rest behind a token -/

/-- Characters that the token would take in if they came next. -/
def Token.absorbs : Token → Char → Bool
  | number _, c => extendsNumeral c
  | name _, c => continuesName c
  | times, c => c = '*'
  | _, _ => false

theorem Spells.source_ne_nil {t : Token} {source rest : List Char} (h : Spells t source rest) :
    source ≠ [] := by
  cases h <;> exact List.cons_ne_nil _ _

/-- A token stands as well before any other rest that it does not absorb. -/
theorem Spells.change_rest {t : Token} {source rest rest' : List Char} (h : Spells t source rest)
    (hrest : Ends t.absorbs rest') : Spells t source rest' := by
  cases h with
  | times _ =>
    refine .times fun hhead => ?_
    have hne : ('*' = '*') = False := by simpa [Token.absorbs] using hrest '*' hhead
    exact hne.mp rfl
  | number hc hsource hv =>
    exact .number hc ((isNumeral_of_numeralSource_eq hsource).source_append hrest) hv
  | name hc hcs _ => exact .name hc hcs hrest
  | _ => constructor

theorem isVisible_of_extendsNumeral {c : Char} (h : extendsNumeral c = true) :
    isVisible c = true := by
  rcases Bool.or_eq_true_iff.mp h with h | h
  · exact isVisible_of_inNumeral h
  · have := isExponentMark_iff.mp h
    rw [isVisible_iff]
    omega

/-- What a numeral consists of. -/
theorem IsNumeral.mem {source : List Char} (h : IsNumeral source) :
    ∀ c ∈ source, extendsNumeral c = true ∨ c ∈ ['+', '-'] := by
  have hbody : ∀ {c}, inNumeral c = true → extendsNumeral c = true ∨ c ∈ ['+', '-'] :=
    fun hc => .inl (Bool.or_eq_true_iff.mpr (.inl hc))
  cases h with
  | plain hnumeral => exact fun c hc => hbody (hnumeral c hc)
  | @scaled body mark sign digits hnumeral hexp =>
    intro c hc
    rcases List.mem_append.mp hc with hc | hc
    · exact hbody (hnumeral c hc)
    rcases List.mem_cons.mp hc with rfl | hc
    · exact .inl (Bool.or_eq_true_iff.mpr (.inr hexp.mark))
    rcases List.mem_append.mp hc with hc | hc
    · rcases hexp.sign with rfl | rfl | rfl
      · exact nomatch hc
      · exact .inr (List.mem_append_left ['-'] hc)
      · exact .inr (List.mem_append_right ['+'] hc)
    · exact hbody (Bool.or_eq_true_iff.mpr (.inl (hexp.digits c hc)))

theorem IsNumeral.visible {source : List Char} (h : IsNumeral source) :
    ∀ c ∈ source, isVisible c = true := by
  have hsigns : ∀ c ∈ ['+', '-'], isVisible c = true := List.all_eq_true.mp (by decide)
  exact fun c hc => (h.mem c hc).elim isVisible_of_extendsNumeral (hsigns c)

/-- Nothing in a token is blank. -/
theorem Spells.isBlank_eq_false {t : Token} {source rest : List Char} (h : Spells t source rest) :
    ∀ c ∈ source, Text.isBlank c = false := by
  suffices hvisible : ∀ c ∈ source, isVisible c = true from
    fun c hc => isBlank_of_isVisible (hvisible c hc)
  cases h with
  | number _ hsource _ => exact (isNumeral_of_numeralSource_eq hsource).visible
  | name hc hcs _ =>
    intro d hd
    refine isVisible_of_continuesName ?_
    rcases List.mem_cons.mp hd with rfl | hd
    · exact Bool.or_eq_true_iff.mpr (Or.inl hc)
    · exact hcs d hd
  | _ => exact List.all_eq_true.mp (by decide)

/-! ## 5. Lexemes -/

/-- The characters `cs`, of which the first stands at place `start`, are cut into the lexemes:
these and blanks, and nothing else. -/
inductive Cut : Nat → List Char → List Lexeme → Prop
  | nil (start : Nat) : Cut start [] []
  | blank {start : Nat} {c : Char} {cs : List Char} {ls : List Lexeme}
      (hc : Text.isBlank c = true) (h : Cut (start + 1) cs ls) : Cut start (c :: cs) ls
  | lexeme {start : Nat} {t : Token} {source rest : List Char} {ls : List Lexeme}
      (ht : Spells t source rest) (h : Cut (start + source.length) rest ls) :
      Cut start (source ++ rest) (⟨t, start, source⟩ :: ls)

/-- Lexemes stand one behind the other, within the text. -/
theorem Cut.starts {start : Nat} {cs : List Char} {ls : List Lexeme} (h : Cut start cs ls) :
    ls.Pairwise (·.start < ·.start) ∧
      ∀ x ∈ ls, start ≤ x.start ∧ x.start < start + cs.length := by
  induction h with
  | nil start => exact ⟨.nil, fun x hx => nomatch hx⟩
  | blank _ _ ih =>
    refine ⟨ih.1, fun x hx => ?_⟩
    have := ih.2 x hx
    rw [List.length_cons]
    omega
  | @lexeme start t source rest ls ht _ ih =>
    have hpos := List.length_pos_iff.mpr ht.source_ne_nil
    rw [List.length_append]
    refine ⟨List.pairwise_cons.mpr ⟨fun x hx => ?_, ih.1⟩, fun x hx => ?_⟩
    · have := ih.2 x hx
      dsimp only
      omega
    · rcases List.mem_cons.mp hx with rfl | hx
      · dsimp only
        omega
      · have := ih.2 x hx
        omega

/-- The characters of the lexeme found last are passed over. -/
theorem scan_append (found : List Lexeme) : ∀ (word rest : List Char) (start : Nat),
    scan found start word.length (word ++ rest) = scan found (start + word.length) 0 rest
  | [], _, _ => rfl
  | _ :: word, rest, start => by
    rw [List.length_cons, List.cons_append, scan, scan_append found word rest (start + 1),
      Nat.add_assoc, Nat.add_comm 1]

/-- A token that stands at the front of a text is found. -/
theorem scan_lexeme {t : Token} {source rest : List Char} (ht : Spells t source rest)
    (found : List Lexeme) (start : Nat) : scan found start 0 (source ++ rest) =
      scan (⟨t, start, source⟩ :: found) (start + source.length) 0 rest := by
  have hfirst := firstToken_eq_ok_iff.mpr ⟨rest, rfl, ht⟩
  have hblank := ht.isBlank_eq_false
  cases source with
  | nil => exact absurd rfl ht.source_ne_nil
  | cons c word =>
    rw [List.cons_append] at hfirst ⊢
    rw [scan, if_neg (by simp [hblank c List.mem_cons_self]), hfirst]
    dsimp only
    rw [List.length_cons, Nat.add_sub_cancel, scan_append, Nat.add_assoc, Nat.add_comm 1]

theorem scan_of_cut {start : Nat} {cs : List Char} {ls : List Lexeme} (h : Cut start cs ls) :
    ∀ found, scan found start 0 cs = .ok (found.reverse ++ ls) := by
  induction h with
  | nil start => exact fun found => by rw [scan, List.append_nil]
  | blank hc _ ih => exact fun found => by rw [scan, if_pos hc, ih found]
  | @lexeme start t source rest ls ht _ ih =>
    intro found
    rw [scan_lexeme ht, ih]
    simp

/-- What a loop finds that has found some lexemes, of which the last reaches `inside` characters
into the text.  By induction on the text. -/
theorem cut_of_scan : ∀ {cs : List Char} {found ls : List Lexeme} {start inside : Nat},
    inside ≤ cs.length → scan found start inside cs = .ok ls →
      ∃ more, ls = found.reverse ++ more ∧ Cut (start + inside) (cs.drop inside) more
  | [], found, ls, start, inside, hinside, h => by
    rw [scan] at h
    rw [List.drop_nil]
    exact ⟨[], by rw [List.append_nil, Except.ok.inj h], .nil _⟩
  | c :: rest, found, ls, start, inside + 1, hinside, h => by
    rw [scan] at h
    obtain ⟨more, hls, hcut⟩ := cut_of_scan (Nat.le_of_succ_le_succ hinside) h
    rw [Nat.add_assoc, Nat.add_comm 1] at hcut
    exact ⟨more, hls, hcut⟩
  | c :: rest, found, ls, start, 0, _, h => by
    unfold scan at h
    dsimp only at h
    split at h
    · rename_i hc
      obtain ⟨more, hls, hcut⟩ := cut_of_scan (Nat.zero_le _) h
      exact ⟨more, hls, .blank hc hcut⟩
    · split at h
      · exact nomatch h
      · rename_i t source hfirst
        obtain ⟨tail, htail, ht⟩ := firstToken_eq_ok_iff.mp hfirst
        cases source with
        | nil => exact absurd rfl ht.source_ne_nil
        | cons d word =>
          obtain ⟨rfl, rfl⟩ : c = d ∧ rest = word ++ tail := List.cons.inj htail
          obtain ⟨more, hls, hcut⟩ := cut_of_scan (by simp) h
          rw [List.length_cons, Nat.add_sub_cancel, List.drop_left, Nat.add_assoc,
            Nat.add_comm 1] at hcut
          refine ⟨_, ?_, .lexeme ht hcut⟩
          rw [hls, List.reverse_cons, List.append_assoc]
          rfl

/-- **A text has the lexemes that it can be cut into.** -/
theorem lexemes_eq_ok_iff {text : List Char} {ls : List Lexeme} :
    lexemes text = .ok ls ↔ Cut 0 text ls := by
  constructor
  · intro h
    obtain ⟨more, rfl, hcut⟩ := cut_of_scan (Nat.zero_le _) h
    exact hcut
  · intro h
    exact scan_of_cut h []

end BandMath.Formula
