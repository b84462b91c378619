/-
# Faults stand at the earliest possible place

A reader that goes from left to right and never takes anything back could still look at more than it
needs before it refuses.  It does not: where a formula is refused, for another reason than being too
deep, the tokens before the place are the beginning of a sentence, and no sentence begins with these
tokens and the one at the place (`parse_fault_earliest`).

* **What has been taken is a beginning.**  Each rule of the grammar can be completed from where its
  reader stops (`Begins`).
* **The next token decides.**  What a reader does depends on what it takes and on the token behind
  it, and on nothing further (`Settles`).  So if a sentence began with the tokens taken and the one
  at the place, its reading would end there as well; but what is derived is read, or too deep
  (`ofLexemes_reaches`).

Both are shown rule by rule, with the readers inside a rule as hypotheses, as soundness is.
-/
import BandMath.Proofs.Formula.Acceptance
import BandMath.Proofs.Formula.LongestMatch

namespace BandMath.Formula

variable {stop room : Nat} {ls rest : List Lexeme} {e : Expr} {ts us : List Token}

/-! ## 1. Beginnings -/

/-- The nonterminal derives the tokens with the tree, whatever the limits say. -/
def Derivable (nt : Nonterminal) (ts : List Token) (e : Expr) : Prop :=
  ∃ n, Derives nt n ts e

/-- The tokens are a sentence of the grammar. -/
def IsSentence (ts : List Token) : Prop :=
  ∃ e, Derivable .sum ts e

/-- What the nonterminal derives may begin with the tokens. -/
def Begins (nt : Nonterminal) (ts : List Token) : Prop :=
  ∃ us e, Derivable nt (ts ++ us) e

/-- The tokens are the beginning of a sentence. -/
abbrev IsBeginning (ts : List Token) : Prop :=
  Begins .sum ts

theorem Derivable.begins {nt : Nonterminal} (h : Derivable nt ts e) : Begins nt ts :=
  ⟨[], e, by rwa [List.append_nil]⟩

/-- Every nonterminal derives something, so nothing at all is a beginning. -/
theorem begins_nil (nt : Nonterminal) : Begins nt [] := by
  have hprimary : Derives .primary 0 [.name "x"] (.symbol "x") := .name "x"
  refine ⟨[.name "x"], .symbol "x", ?_⟩
  cases nt with
  | sum => exact ⟨_, .sum (.product (.unsigned (.base hprimary)))⟩
  | product => exact ⟨_, .product (.unsigned (.base hprimary))⟩
  | signed => exact ⟨_, .unsigned (.base hprimary)⟩
  | power => exact ⟨_, .base hprimary⟩
  | primary => exact ⟨_, hprimary⟩

/-- A nonterminal that derives more begins with more. -/
theorem Begins.imp {nt nt' : Nonterminal} {before : List Token}
    (hd : ∀ us e, Derivable nt (ts ++ us) e → ∃ e', Derivable nt' (before ++ us) e')
    (h : Begins nt ts) : Begins nt' before := by
  obtain ⟨us, e, h⟩ := h
  obtain ⟨e', h'⟩ := hd us e h
  exact ⟨us, e', h'⟩

theorem Reader.Sound.derivable {read : Reader} {nt : Nonterminal}
    (h : read.Sound (Formed room nt)) : read.Sound (Derivable nt) := by
  intro ls e rest hread
  obtain ⟨used, hls, ⟨n, -, hd⟩, -⟩ := h ls e rest hread
  exact ⟨used, hls, n, hd⟩

/-! ## 2. Readers that look one token ahead -/

/-- What the reader does on the lexemes depends on those that it takes and on the next one only.
When it refuses, it does so at the next one, and what it has taken has the property `V`. -/
inductive Settles (stop : Nat) (read : Reader) (V : List Token → Prop) : List Lexeme → Prop
  | takes (used : List Lexeme) {rest : List Lexeme} (e : Expr)
      (h : ∀ rest', rest'.head? = rest.head? → read (used ++ rest') = .ok (e, rest')) :
      Settles stop read V (used ++ rest)
  | refuses (used : List Lexeme) {rest : List Lexeme} (reason : Reason)
      (hv : V (used.map (·.token)))
      (h : ∀ rest', rest'.head? = rest.head? →
        read (used ++ rest') = .error ⟨place stop rest, reason⟩) :
      Settles stop read V (used ++ rest)

theorem place_congr {ls' : List Lexeme} (h : ls'.head? = ls.head?) :
    place stop ls' = place stop ls := by
  cases ls with
  | nil => rw [List.head?_eq_none_iff.mp h]
  | cons x ls =>
    obtain ⟨tail, rfl⟩ := List.head?_eq_some_iff.mp h
    rfl

theorem head?_append_congr {used rest' : List Lexeme} (h : rest'.head? = rest.head?) :
    (used ++ rest').head? = (used ++ rest).head? := by
  rw [List.head?_append, List.head?_append, h]

namespace Settles

variable {read first : Reader} {V W : List Token → Prop}
  {D : List Token → Expr → Prop} {x : Lexeme}

/-- Nothing is taken. -/
theorem takes_nothing (e : Expr) (h : ∀ ls', ls'.head? = ls.head? → read ls' = .ok (e, ls')) :
    Settles stop read V ls :=
  .takes [] e h

theorem refuses_here (reason : Reason) (hv : V [])
    (h : ∀ ls', ls'.head? = ls.head? → read ls' = .error ⟨place stop ls, reason⟩) :
    Settles stop read V ls :=
  .refuses [] reason hv h

/-- A reader that does the same on all lexemes with this beginning. -/
theorem congr {read' : Reader} (h : Settles stop read V ls)
    (hread : ∀ ls', ls'.head? = ls.head? → read' ls' = read ls') : Settles stop read' V ls := by
  cases h with
  | takes used e h =>
    refine .takes used e fun rest' hrest => ?_
    rw [hread _ (head?_append_congr hrest), h rest' hrest]
  | refuses used reason hv h =>
    refine .refuses used reason hv fun rest' hrest => ?_
    rw [hread _ (head?_append_congr hrest), h rest' hrest]

theorem imp (hV : ∀ ts, V ts → W ts) (h : Settles stop read V ls) : Settles stop read W ls := by
  cases h with
  | takes used e h => exact .takes used e h
  | refuses used reason hv h => exact .refuses used reason (hV _ hv) h

/-- One lexeme is taken, and then another reader goes on. -/
theorem cons {read' : Reader} (h : Settles stop read (fun us => V (x.token :: us)) ls)
    (hread : ∀ ls', ls'.head? = ls.head? → read' (x :: ls') = read ls') :
    Settles stop read' V (x :: ls) := by
  cases h with
  | takes used e h =>
    refine .takes (x :: used) e fun rest' hrest => ?_
    rw [List.cons_append, hread _ (head?_append_congr hrest), h rest' hrest]
  | refuses used reason hv h =>
    refine .refuses (x :: used) reason hv fun rest' hrest => ?_
    rw [List.cons_append, hread _ (head?_append_congr hrest), h rest' hrest]

/-- One reader goes on where another has taken something. -/
theorem bind (next : Expr → Reader) (hs : first.Sound D) (h : Settles stop first W ls)
    (hnext : ∀ ts e ls, D ts e → Settles stop (next e) (fun us => V (ts ++ us)) ls)
    (hW : ∀ ts, W ts → V ts) :
    Settles stop (fun ls => do
      let (e, ls) ← first ls
      next e ls) V ls := by
  cases h with
  | @takes used rest e h =>
    obtain ⟨used', heq, hd⟩ := hs _ _ _ (h rest rfl)
    obtain rfl := List.append_cancel_right heq
    generalize hafter : rest = after
    cases hnext _ _ after hd with
    | @takes taken rest e' hnext =>
      subst hafter
      rw [← List.append_assoc]
      refine .takes _ e' fun rest' hrest => ?_
      rw [List.append_assoc, h _ (head?_append_congr hrest), ok_bind]
      exact hnext rest' hrest
    | @refuses taken rest reason hv hnext =>
      subst hafter
      rw [← List.append_assoc]
      refine .refuses _ reason (by rwa [List.map_append]) fun rest' hrest => ?_
      rw [List.append_assoc, h _ (head?_append_congr hrest), ok_bind]
      exact hnext rest' hrest
  | refuses used reason hv h =>
    refine .refuses used reason (hW _ hv) fun rest' hrest => ?_
    rw [h rest' hrest, error_bind]

end Settles

/-! ## 3. Small readers -/

theorem bounded_settles {V : List Token → Prop} (hv : V []) (e : Expr) (ls : List Lexeme) :
    Settles stop (bounded stop e) V ls := by
  by_cases h : e.depth ≤ maxDepth
  · exact .takes_nothing e fun ls' _ => if_pos h
  · refine .refuses_here .tooDeep hv fun ls' hls => ?_
    rw [bounded, if_neg h, failAt, place_congr hls]

theorem bounded_sound (e : Expr) :
    Reader.Sound (bounded stop e) fun ts e' => ts = [] ∧ e' = e := by
  intro ls e' rest h
  obtain ⟨-, h⟩ := bounded_eq_ok_iff.mp h
  obtain ⟨rfl, rfl⟩ := Prod.mk.inj h
  exact ⟨[], rfl, rfl, rfl⟩

theorem closing_of_head {ls' : List Lexeme} (h : ∀ x ∈ ls.head?, x.token ≠ .closeParen)
    (hls : ls'.head? = ls.head?) :
    closing stop ls' = .error ⟨place stop ls, .missingParenthesis⟩ := by
  unfold closing
  split
  · rename_i i s rest
    exact absurd rfl (h _ hls.symm)
  · rw [failAt, place_congr hls]

/-- The closing parenthesis is taken, and then another reader goes on. -/
theorem closing_settles {next : Reader} {V : List Token → Prop} (hv : V [])
    (hnext : ∀ ls, Settles stop next (fun us => V (.closeParen :: us)) ls) (ls : List Lexeme) :
    Settles stop (fun ls => do
      let ls ← closing stop ls
      next ls) V ls := by
  by_cases hclose : ∃ x ∈ ls.head?, x.token = .closeParen
  · obtain ⟨x, hx, hclose⟩ := hclose
    obtain ⟨ls, rfl⟩ := List.head?_eq_some_iff.mp hx
    refine .cons (hclose ▸ hnext ls) fun ls' _ => ?_
    rw [closing_eq_ok hclose, ok_bind]
  · refine .refuses_here .missingParenthesis hv fun ls' hls => ?_
    rw [closing_of_head (fun x hx hclose' => hclose ⟨x, hx, hclose'⟩) hls, error_bind]

/-! ## 4. The rules -/

section Rules

variable {inner operand : Reader}

/-- The sum between two parentheses and the closing one are taken, and then another reader goes
on. -/
theorem enclosed_settles (next : Expr → Reader) {V : List Token → Prop}
    (hs : inner.Sound (Derivable .sum)) (hi : ∀ ls, Settles stop inner IsBeginning ls)
    (hV : ∀ ts, IsBeginning ts → V ts)
    (hnext : ∀ ts e ls, Derivable .sum ts e →
      Settles stop (next e) (fun us => V (ts ++ .closeParen :: us)) ls) (ls : List Lexeme) :
    Settles stop (fun ls => do
      let (e, ls) ← inner ls
      let ls ← closing stop ls
      next e ls) V ls := by
  refine .bind (fun e ls => do let ls ← closing stop ls; next e ls) hs (hi ls) ?_ hV
  intro ts e ls hd
  refine closing_settles (V := fun us => V (ts ++ us)) ?_ (fun ls => hnext ts e ls hd) ls
  rw [List.append_nil]
  exact hV ts hd.begins

theorem primary_settles (hs : inner.Sound (Derivable .sum))
    (hi : ∀ ls, Settles stop inner IsBeginning ls) (ls : List Lexeme) :
    Settles stop (primary stop inner) (Begins .primary) ls := by
  rcases ls with - | ⟨⟨t, i, s⟩, ls⟩
  · refine .refuses_here .unexpectedEnd (begins_nil _) fun ls' hls => ?_
    rw [List.head?_eq_none_iff.mp hls]
    rfl
  cases ht : t with
  | number v => exact .takes [_] (.number v) fun _ _ => rfl
  | name f =>
    by_cases hcall : ∃ y ∈ ls.head?, y.token = .openParen
    · obtain ⟨⟨_, j, u⟩, hy, rfl⟩ := hcall
      obtain ⟨ls, rfl⟩ := List.head?_eq_some_iff.mp hy
      have hcalled : ∀ us e, Derivable .sum us e →
          Derivable .primary (.name f :: .openParen :: (us ++ [.closeParen])) (.call f e) :=
        fun us e ⟨n, hd⟩ => ⟨n, hd.call f⟩
      have hafter : Settles stop (fun ls => primary stop inner (⟨.name f, i, s⟩ :: ls))
          (fun us => Begins .primary (.name f :: us)) (⟨.openParen, j, u⟩ :: ls) := by
        refine .cons (enclosed_settles (fun a => bounded stop (.call f a)) hs hi ?_ ?_ ls)
          fun _ _ => rfl
        · rintro ts ⟨us, e, hd⟩
          exact ⟨us ++ [.closeParen], .call f e, by simpa using hcalled _ e hd⟩
        · exact fun ts e ls hd => bounded_settles (hcalled ts e hd).begins _ ls
      exact .cons hafter fun _ _ => rfl
    · refine .takes [_] (.symbol f) fun rest' hrest => primary_name fun y hy => ?_
      have hne : y.token ≠ .openParen := fun hy' => hcall ⟨y, hrest ▸ hy, hy'⟩
      revert hne
      cases y.token <;> simp [Nonterminal.goesOn]
  | openParen =>
    have henclosed : ∀ us e, Derivable .sum us e →
        Derivable .primary (.openParen :: (us ++ [.closeParen])) e :=
      fun us e ⟨n, hd⟩ => ⟨n, hd.parens⟩
    refine .cons (enclosed_settles (fun e ls => .ok (e, ls)) hs hi ?_ ?_ ls)
      fun _ _ => rfl
    · rintro ts ⟨us, e, hd⟩
      exact ⟨us ++ [.closeParen], e, by simpa using henclosed _ e hd⟩
    · exact fun ts e ls hd => .takes_nothing e fun _ _ => rfl
  | _ =>
    refine .refuses_here (.unexpectedToken t) (begins_nil _) fun ls' hls => ?_
    obtain ⟨tail, rfl⟩ := List.head?_eq_some_iff.mp hls
    rw [ht]
    rfl

/-- What follows the base of a power. -/
def powerAfter (stop : Nat) (operand : Reader) (base : Expr) : Reader
  | ⟨.power, _, _⟩ :: ls => do
    let (exponent, ls) ← operand ls
    bounded stop (.binary .power base exponent) ls
  | ls => .ok (base, ls)

theorem power_eq (ls : List Lexeme) : power stop inner operand ls = (do
    let (base, ls) ← primary stop inner ls
    powerAfter stop operand base ls) := by
  unfold power
  cases primary stop inner ls with
  | error fault => rfl
  | ok r =>
    obtain ⟨base, - | ⟨⟨t, i, s⟩, rest⟩⟩ := r
    · rfl
    · cases t <;> rfl

theorem powerAfter_settles {base : Expr} (hbase : Derivable .primary ts base)
    (hso : operand.Sound (Derivable .signed))
    (ho : ∀ ls, Settles stop operand (Begins .signed) ls) (ls : List Lexeme) :
    Settles stop (powerAfter stop operand base) (fun us => Begins .power (ts ++ us)) ls := by
  have hraised : ∀ us x, Derivable .signed us x →
      Derivable .power (ts ++ .power :: us) (.binary .power base x) := by
    rintro us x ⟨m, hx⟩
    obtain ⟨n, hb⟩ := hbase
    exact ⟨max n m, hb.raise hx⟩
  by_cases hpower : ∃ x ∈ ls.head?, x.token = .power
  · obtain ⟨⟨_, i, s⟩, hx, rfl⟩ := hpower
    obtain ⟨ls, rfl⟩ := List.head?_eq_some_iff.mp hx
    refine .cons (.bind (fun x => bounded stop (.binary .power base x)) hso (ho ls)
      (fun us x ls hd => bounded_settles ?_ _ ls) ?_) fun _ _ => rfl
    · simpa using (hraised us x hd).begins
    · rintro us ⟨vs, x, hd⟩
      exact ⟨vs, _, by simpa using hraised _ x hd⟩
  · refine .takes_nothing base fun ls' hls => ?_
    unfold powerAfter
    split
    · rename_i i s rest
      exact absurd ⟨_, hls.symm, rfl⟩ hpower
    · rfl

theorem power_settles (hsi : inner.Sound (Formed room .sum))
    (hi : ∀ ls, Settles stop inner IsBeginning ls) (hso : operand.Sound (Derivable .signed))
    (ho : ∀ ls, Settles stop operand (Begins .signed) ls) (ls : List Lexeme) :
    Settles stop (power stop inner operand) (Begins .power) ls := by
  refine (Settles.bind (powerAfter stop operand) (primary_sound hsi).derivable
    (primary_settles hsi.derivable hi ls)
    (fun ts base ls hd => powerAfter_settles hd hso ho ls) ?_).congr fun ls' _ => power_eq ls'
  rintro ts ⟨us, e, n, hd⟩
  exact ⟨us, e, n, hd.base⟩

theorem signed_settles (hsi : inner.Sound (Formed room .sum))
    (hi : ∀ ls, Settles stop inner IsBeginning ls) (hso : operand.Sound (Derivable .signed))
    (ho : ∀ ls, Settles stop operand (Begins .signed) ls) (ls : List Lexeme) :
    Settles stop (signed stop inner operand) (Begins .signed) ls := by
  have hpower : Settles stop (power stop inner operand) (Begins .signed) ls :=
    (power_settles hsi hi hso ho ls).imp fun ts h => h.imp fun us e ⟨n, hd⟩ => ⟨e, _, hd.unsigned⟩
  rcases ls with - | ⟨⟨t, i, s⟩, ls⟩
  · refine hpower.congr fun ls' hls => ?_
    rw [List.head?_eq_none_iff.mp hls]
    rfl
  cases t with
  | minus =>
    refine .cons (.bind (fun e => bounded stop (.negate e)) hso (ho ls)
      (fun us e ls ⟨n, hd⟩ => bounded_settles ?_ _ ls) ?_) fun _ _ => rfl
    · have hnegated : Derivable .signed (.minus :: us) (.negate e) := ⟨_, hd.negate⟩
      simpa using hnegated.begins
    · exact fun ts h => h.imp fun us e ⟨n, hd⟩ => ⟨_, _, hd.negate⟩
  | plus =>
    refine .cons ((ho ls).imp fun ts h => ?_) fun _ _ => rfl
    exact h.imp fun us e ⟨n, hd⟩ => ⟨_, _, hd.posit⟩
  | _ =>
    refine hpower.congr fun ls' hls => ?_
    obtain ⟨tail, rfl⟩ := List.head?_eq_some_iff.mp hls
    rfl

end Rules

/-! ## 5. The loops -/

section Chain

variable {nt nt' : Nonterminal} {op? : Token → Option BinaryOp} {operand : Reader}

/-- An operator of `op?` between what the two nonterminals derive gives more of the first. -/
def Joins (nt nt' : Nonterminal) (op? : Token → Option BinaryOp) : Prop :=
  ∀ {ts us l r t op}, op? t = some op → Derivable nt ts l → Derivable nt' us r →
    Derivable nt (ts ++ t :: us) (.binary op l r)

theorem joins_sum : Joins .sum .product sumOp? := by
  rintro ts us l r t op hop ⟨n, hl⟩ ⟨m, hr⟩
  cases t <;> simp only [sumOp?, Option.some.injEq, reduceCtorEq] at hop
  · subst hop
    exact ⟨_, hl.add hr⟩
  · subst hop
    exact ⟨_, hl.subtract hr⟩

theorem joins_product : Joins .product .signed productOp? := by
  rintro ts us l r t op hop ⟨n, hl⟩ ⟨m, hr⟩
  cases t <;> simp only [productOp?, Option.some.injEq, reduceCtorEq] at hop
  · subst hop
    exact ⟨_, hl.multiply hr⟩
  · subst hop
    exact ⟨_, hl.divide hr⟩

/-- The loop behind what has been derived so far. -/
theorem chainAfter_settles (hjoins : Joins nt nt' op?) (hs : operand.Sound (Derivable nt'))
    (ho : ∀ ls, Settles stop operand (Begins nt') ls) :
    ∀ (room : Nat) (ts : List Token) (left : Expr) (ls : List Lexeme), Derivable nt ts left →
      Settles stop (chainAfter stop op? operand room left) (fun us => Begins nt (ts ++ us)) ls
  | room, ts, left, [], hd => .takes_nothing left fun ls' hls => by
    rw [List.head?_eq_none_iff.mp hls]
    exact chainAfter_of_none fun _ hx => nomatch hx
  | room, ts, left, x :: ls, hd => by
    have hbegins : Begins nt (ts ++ []) := by simpa using hd.begins
    cases hop : op? x.token with
    | none =>
      refine .takes_nothing left fun ls' hls => chainAfter_of_none fun y hy => ?_
      rw [hls] at hy
      rwa [← Option.some.inj hy]
    | some op =>
      cases room with
      | zero =>
        refine .refuses_here .tooDeep hbegins fun ls' hls => ?_
        obtain ⟨tail, rfl⟩ := List.head?_eq_some_iff.mp hls
        unfold chainAfter
        rw [hop]
        rfl
      | succ room =>
        refine .cons (.bind (fun r ls => do
            let (e, ls) ← bounded stop (.binary op left r) ls
            chainAfter stop op? operand room e ls) hs (ho ls) ?_ ?_)
          fun ls' _ => chainAfter_of_some hop
        · intro us r ls hr
          have hd' := hjoins hop hd hr
          refine .bind (chainAfter stop op? operand room) (bounded_sound _)
            (bounded_settles (V := fun vs => vs = []) rfl _ ls) ?_ ?_
          · rintro _ _ ls ⟨rfl, rfl⟩
            simpa using chainAfter_settles hjoins hs ho room _ _ ls hd'
          · rintro _ rfl
            simpa using hd'.begins
        · rintro us ⟨vs, r, hr⟩
          exact ⟨vs, _, by simpa using hjoins hop hd hr⟩

theorem chain_settles (hjoins : Joins nt nt' op?) (hs : operand.Sound (Derivable nt'))
    (ho : ∀ ls, Settles stop operand (Begins nt') ls)
    (hpromote : ∀ ts e, Derivable nt' ts e → Derivable nt ts e) (ls : List Lexeme) :
    Settles stop (chain stop op? operand) (Begins nt) ls := by
  refine .bind (chainAfter stop op? operand maxDepth) hs (ho ls) ?_ ?_
  · exact fun ts left ls hd => chainAfter_settles hjoins hs ho _ ts left ls (hpromote ts left hd)
  · exact fun ts h => h.imp fun us e hd => ⟨e, hpromote _ e hd⟩

theorem sum_settles (hs : operand.Sound (Formed room .signed))
    (ho : ∀ ls, Settles stop operand (Begins .signed) ls) (ls : List Lexeme) :
    Settles stop (sum stop operand) IsBeginning ls := by
  refine chain_settles joins_sum (product_sound hs).derivable ?_ ?_ ls
  · exact chain_settles joins_product hs.derivable ho fun ts e ⟨n, hd⟩ => ⟨n, hd.product⟩
  · exact fun ts e ⟨n, hd⟩ => ⟨n, hd.sum⟩

end Chain

/-- **Every reader looks one token ahead.** -/
theorem signedWithin_settles (stop : Nat) :
    ∀ room ls, Settles stop (signedWithin stop room) (Begins .signed) ls
  | 0, ls => .refuses_here .tooDeep (begins_nil _) fun ls' hls => by
    rw [← place_congr hls]
    rfl
  | room + 1, ls =>
    have hs := signedWithin_sound stop room
    have ho := signedWithin_settles stop room
    signed_settles (sum_sound hs) (sum_settles hs ho) hs.derivable ho ls

/-! ## 6. Whole formulas -/

theorem ofLexemes_of_ne_nil (h : ls ≠ []) : Expr.ofLexemes stop ls = (do
    match ← sum stop (signedWithin stop maxDepth) ls with
    | (e, []) => return e
    | (_, next :: rest) => failAt stop (next :: rest) (.trailingToken next.token)) := by
  cases ls with
  | nil => exact absurd rfl h
  | cons x ls => rfl

/-- A refusal comes from the lexemes that have been taken, which are the beginning of a sentence,
and from the next one. -/
theorem exists_of_ofLexemes_eq_error {fault : Fault} (h : Expr.ofLexemes stop ls = .error fault) :
    ∃ used rest, ls = used ++ rest ∧ fault.position = place stop rest ∧
      IsBeginning (used.map (·.token)) ∧
      ∀ rest', rest'.head? = rest.head? → Expr.ofLexemes stop (used ++ rest') = .error fault := by
  by_cases hne : ls = []
  · subst hne
    obtain rfl := Except.error.inj h
    refine ⟨[], [], rfl, rfl, begins_nil _, fun rest' hrest => ?_⟩
    rw [List.head?_eq_none_iff.mp hrest]
    rfl
  rw [ofLexemes_of_ne_nil hne] at h
  have hsound : Reader.Sound (sum stop (signedWithin stop maxDepth)) (Formed maxDepth .sum) :=
    sum_sound (signedWithin_sound stop maxDepth)
  have hsettles := sum_settles (signedWithin_sound stop maxDepth)
    (signedWithin_settles stop maxDepth) ls
  cases hsettles with
  | @takes used rest e hread =>
    rw [hread rest rfl, ok_bind] at h
    cases rest with
    | nil => exact nomatch h
    | cons next rest =>
      obtain rfl := Except.error.inj h
      obtain ⟨used', heq, hd⟩ := hsound.derivable _ _ _ (hread _ rfl)
      obtain rfl := List.append_cancel_right heq
      refine ⟨used, next :: rest, rfl, rfl, hd.begins, fun rest' hrest => ?_⟩
      obtain ⟨tail, rfl⟩ := List.head?_eq_some_iff.mp hrest
      rw [ofLexemes_of_ne_nil (by simp), hread (next :: tail) rfl]
      rfl
  | @refuses used rest reason hv hread =>
    rw [hread rest rfl, error_bind] at h
    obtain rfl := Except.error.inj h
    refine ⟨used, rest, rfl, rfl, hv, fun rest' hrest => ?_⟩
    have hne' : used ++ rest' ≠ [] := fun hnil => hne (List.head?_eq_none_iff.mp
      (by rw [← head?_append_congr hrest, hnil, List.head?_nil]))
    rw [ofLexemes_of_ne_nil hne', hread rest' hrest, error_bind]

/-- What is refused, but not as too deep, is not a sentence. -/
theorem not_isSentence_of_ofLexemes {fault : Fault} (h : Expr.ofLexemes stop ls = .error fault)
    (hreason : fault.reason ≠ .tooDeep) : ¬ IsSentence (ls.map (·.token)) := by
  rintro ⟨e, n, hd⟩
  have hreaches : Reaches True (Expr.ofLexemes stop ls) (.ok e) :=
    ofLexemes_reaches hd (.inr trivial) (.inr trivial)
  rcases hreaches with hread | ⟨-, position, hread⟩
  · exact nomatch h.symm.trans hread
  · obtain rfl := Except.error.inj (h.symm.trans hread)
    exact hreason rfl

/-- No sentence begins with the tokens that have been taken and the next one. -/
theorem not_isBeginning_of_ofLexemes {fault : Fault} {used : List Lexeme} {x : Lexeme}
    (h : ∀ rest', rest'.head? = some x → Expr.ofLexemes stop (used ++ rest') = .error fault)
    (hreason : fault.reason ≠ .tooDeep) :
    ¬ IsBeginning (used.map (·.token) ++ [x.token]) := by
  rintro ⟨us, hsentence⟩
  refine not_isSentence_of_ofLexemes (h (x :: us.map fun t => ⟨t, 0, []⟩) rfl) hreason ?_
  simpa [IsSentence, Function.comp_def] using hsentence

/-! ## 7. Places in the text -/

theorem ofLexemes_of_parse_eq_error {text formula : String} {fault : Fault} {ls : List Lexeme}
    (hls : lexemes text.toList = .ok ls)
    (h : parse text = .error (.malformedFormula formula fault)) :
    formula = text ∧ Expr.ofLexemes text.toList.length ls = .error fault := by
  rw [parse_of_lexemes hls] at h
  generalize Expr.ofLexemes text.toList.length ls = read at h ⊢
  cases read with
  | error fault' =>
    obtain ⟨rfl, rfl⟩ := Error.malformedFormula.inj (Except.error.inj h)
    exact ⟨rfl, rfl⟩
  | ok e => exact nomatch h

/-- **Where a formula is refused, but not as too deep, it could not have been refused earlier.**
The place is that of the first token that no sentence goes on with; or, if there is no such token,
the end of the text, which is no sentence as it stands. -/
theorem parse_fault_earliest {text formula : String} {fault : Fault} {ls : List Lexeme}
    (hls : lexemes text.toList = .ok ls)
    (h : parse text = .error (.malformedFormula formula fault))
    (hreason : fault.reason ≠ .tooDeep) :
    formula = text ∧ ∃ before rest, ls = before ++ rest ∧
      (∀ x ∈ before, x.start < fault.position) ∧ (∀ x ∈ rest, fault.position ≤ x.start) ∧
      IsBeginning (before.map (·.token)) ∧
      ((∃ x after, rest = x :: after ∧ fault.position = x.start ∧
          ¬ IsBeginning (before.map (·.token) ++ [x.token])) ∨
        (rest = [] ∧ fault.position = text.length ∧ ¬ IsSentence (before.map (·.token)))) := by
  obtain ⟨hformula, hread⟩ := ofLexemes_of_parse_eq_error hls h
  obtain ⟨used, rest, rfl, hplace, hbegins, hsettled⟩ := exists_of_ofLexemes_eq_error hread
  obtain ⟨hsorted, hwithin⟩ := (lexemes_eq_ok_iff.mp hls).starts
  obtain ⟨-, hrest, hacross⟩ := List.pairwise_append.mp hsorted
  refine ⟨hformula, used, rest, rfl, ?_, ?_, hbegins, ?_⟩
  · intro x hx
    cases rest with
    | nil =>
      have := (hwithin x (List.mem_append_left _ hx)).2
      rw [hplace, place]
      omega
    | cons y rest => exact hplace ▸ hacross x hx y List.mem_cons_self
  · intro x hx
    cases rest with
    | nil => exact nomatch hx
    | cons y rest =>
      rw [hplace, place]
      rcases List.mem_cons.mp hx with rfl | hx
      · exact Nat.le_refl _
      · exact Nat.le_of_lt ((List.pairwise_cons.mp hrest).1 x hx)
  · cases rest with
    | nil =>
      rw [List.append_nil] at hread
      exact .inr ⟨rfl, hplace, not_isSentence_of_ofLexemes hread hreason⟩
    | cons y rest =>
      exact .inl ⟨y, rest, rfl, hplace, not_isBeginning_of_ofLexemes hsettled hreason⟩

/-- An operator where an operand should start, inside a parenthesis that is still open. -/
theorem parse_fault_earliest_operator :
    let text := "a*(b +  / 2"
    let ls : List Lexeme := [⟨.name "a", 0, ['a']⟩, ⟨.times, 1, ['*']⟩, ⟨.openParen, 2, ['(']⟩,
      ⟨.name "b", 3, ['b']⟩, ⟨.plus, 5, ['+']⟩, ⟨.divide, 8, ['/']⟩, ⟨.number 2, 10, ['2']⟩]
    let fault : Fault := ⟨8, .unexpectedToken .divide⟩
    lexemes text.toList = .ok ls ∧ parse text = .error (.malformedFormula text fault) ∧
      fault.reason ≠ .tooDeep ∧ ∃ before rest, ls = before ++ rest ∧
        (∀ x ∈ before, x.start < 8) ∧ (∀ x ∈ rest, 8 ≤ x.start) ∧
        IsBeginning (before.map (·.token)) ∧
        ((∃ x after, rest = x :: after ∧ 8 = x.start ∧
            ¬ IsBeginning (before.map (·.token) ++ [x.token])) ∨
          (rest = [] ∧ 8 = text.length ∧ ¬ IsSentence (before.map (·.token)))) := by
  intro text ls fault
  have hls : lexemes text.toList = .ok ls := by decide +kernel
  have h : parse text = .error (.malformedFormula text fault) := by decide +kernel
  have hreason : fault.reason ≠ .tooDeep := by decide
  exact ⟨hls, h, hreason, (parse_fault_earliest hls h hreason).2⟩

end BandMath.Formula
