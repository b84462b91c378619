/-
# Reading accepts what the grammar derives

`Expr.ofLexemes` is a function that may refuse, the grammar a relation.  They agree: lexemes are
read as `e` exactly when their tokens derive `e` within the two limits (`ofLexemes_eq_ok_iff`).

* **Soundness.**  What a reader takes from the front of its lexemes is derived by its nonterminal,
  and every tree that leaves a reader is within the limit on depth.  This goes rule by rule, with
  the readers inside a rule as hypotheses, and then by induction on `room`.
* **Completeness.**  By induction on the derivation, for lexemes followed by any others that do not
  go on with the nonterminal (`Stops`).  A sum or product is read by a loop, so the statement about
  it is that the loop reaches the tree with the rest of the lexemes still to come (`Reads`).  The
  limits enter as a condition under which a reader may refuse as too deep (`Reaches`), so the same
  induction says what becomes of a derivation that exceeds them: nothing else (`ofLexemes_reaches`).

The loop counts its operands down from `maxDepth`.  The count never runs out: every operand makes
the tree deeper, and trees are bounded first.  `chainAfter_room` says that the count leaves no
trace.
-/
import BandMath.Formula.Basic
import BandMath.Proofs.Fallible
import BandMath.Proofs.Formula.Grammar

namespace BandMath.Formula

variable {stop room : Nat} {ls rest : List Lexeme} {e : Expr}

/-! ## 1. Small readers -/

theorem bounded_eq_ok_iff {r : Expr × List Lexeme} :
    bounded stop e ls = .ok r ↔ e.depth ≤ maxDepth ∧ (e, ls) = r := by
  unfold bounded failAt
  split
  · rename_i h
    simp [h]
  · rename_i h
    simp [h]

theorem closing_eq_ok_iff :
    closing stop ls = .ok rest ↔ ∃ c, c.token = .closeParen ∧ ls = c :: rest := by
  unfold closing failAt
  split
  · rename_i i s ls'
    constructor
    · intro h
      rw [Except.ok.inj h]
      exact ⟨_, rfl, rfl⟩
    · rintro ⟨c, -, h⟩
      rw [(List.cons.inj h).2]
  · rename_i hne
    constructor
    · intro h
      exact nomatch h
    · rintro ⟨⟨t, i, s⟩, rfl, rfl⟩
      exact absurd rfl (hne i s rest)

theorem one_le_maxDepth : 1 ≤ maxDepth := by decide

theorem Expr.depth_left_lt (op : BinaryOp) (l r : Expr) : l.depth < (binary op l r).depth :=
  Nat.lt_succ_of_le (Nat.le_max_left _ _)

theorem Expr.depth_operands_le {op : BinaryOp} {l r : Expr} {d : Nat}
    (h : (binary op l r).depth ≤ d) : l.depth ≤ d ∧ r.depth ≤ d := by
  simp only [depth] at h
  omega

/-! ## 2. Soundness, rule by rule -/

/-- What the reader takes is derived, with the tree that it returns. -/
def Reader.Sound (read : Reader) (D : List Token → Expr → Prop) : Prop :=
  ∀ ls e rest, read ls = .ok (e, rest) →
    ∃ used, ls = used ++ rest ∧ D (used.map (·.token)) e

theorem primary_sound {inner : Reader} (hi : inner.Sound (Formed room .sum)) :
    Reader.Sound (primary stop inner) (Formed room .primary) := by
  intro ls e rest h
  unfold primary at h
  split at h
  · exact nomatch h
  · rename_i v i s ls
    obtain ⟨rfl, rfl⟩ := Prod.mk.inj (Except.ok.inj h)
    exact ⟨[_], rfl, ⟨0, Nat.zero_le _, .number v⟩, one_le_maxDepth⟩
  · rename_i f i s j t ls
    obtain ⟨⟨a, ls₁⟩, ha, h⟩ := bind_eq_ok_iff.mp h
    obtain ⟨ls₂, hc, h⟩ := bind_eq_ok_iff.mp h
    obtain ⟨hd, h⟩ := bounded_eq_ok_iff.mp h
    obtain ⟨rfl, rfl⟩ := Prod.mk.inj h
    obtain ⟨c, hct, rfl⟩ := closing_eq_ok_iff.mp hc
    obtain ⟨used, rfl, ⟨n, hn, hda⟩, -⟩ := hi _ _ _ ha
    refine ⟨⟨.name f, i, s⟩ :: ⟨.openParen, j, t⟩ :: (used ++ [c]), by simp, ⟨n, hn, ?_⟩, hd⟩
    simpa [hct] using Derives.call f hda
  · rename_i x i s ls hne
    obtain ⟨rfl, rfl⟩ := Prod.mk.inj (Except.ok.inj h)
    exact ⟨[_], rfl, ⟨0, Nat.zero_le _, .name x⟩, one_le_maxDepth⟩
  · rename_i i s ls
    obtain ⟨⟨a, ls₁⟩, ha, h⟩ := bind_eq_ok_iff.mp h
    obtain ⟨ls₂, hc, h⟩ := bind_eq_ok_iff.mp h
    obtain ⟨rfl, rfl⟩ := Prod.mk.inj (Except.ok.inj h)
    obtain ⟨c, hct, rfl⟩ := closing_eq_ok_iff.mp hc
    obtain ⟨used, rfl, ⟨n, hn, hda⟩, hd⟩ := hi _ _ _ ha
    refine ⟨⟨.openParen, i, s⟩ :: (used ++ [c]), by simp, ⟨n, hn, ?_⟩, hd⟩
    simpa [hct] using Derives.parens hda
  · exact nomatch h

theorem power_sound {inner operand : Reader} (hi : inner.Sound (Formed room .sum))
    (ho : operand.Sound (Formed room .signed)) :
    Reader.Sound (power stop inner operand) (Formed room .power) := by
  intro ls e rest h
  obtain ⟨⟨b, ls₁⟩, hb, hafter⟩ := bind_eq_ok_iff.mp h
  obtain ⟨used, rfl, hdb⟩ := primary_sound hi _ _ _ hb
  split at hafter
  · rename_i base i s ls₂ heq
    obtain ⟨rfl, rfl⟩ := Prod.mk.inj heq
    obtain ⟨⟨x, ls₃⟩, hx, hnode⟩ := bind_eq_ok_iff.mp hafter
    obtain ⟨hd, hnode⟩ := bounded_eq_ok_iff.mp hnode
    obtain ⟨rfl, rfl⟩ := Prod.mk.inj hnode
    obtain ⟨used', rfl, hdx⟩ := ho _ _ _ hx
    refine ⟨used ++ ⟨.power, i, s⟩ :: used', by simp, ?_⟩
    rw [List.map_append, List.map_cons]
    exact Formed.join (fun _ _ => .raise) hdb hdx hd
  · obtain ⟨rfl, rfl⟩ := Prod.mk.inj (Except.ok.inj hafter)
    exact ⟨used, rfl, hdb.promote fun _ => .base⟩

theorem signed_sound {inner operand : Reader} (hi : inner.Sound (Formed room .sum))
    (ho : operand.Sound (Formed room .signed)) :
    Reader.Sound (signed stop inner operand) (Formed (room + 1) .signed) := by
  intro ls e rest h
  unfold signed at h
  split at h
  · obtain ⟨⟨a, ls₁⟩, ha, h⟩ := bind_eq_ok_iff.mp h
    obtain ⟨hd, h⟩ := bounded_eq_ok_iff.mp h
    obtain ⟨rfl, rfl⟩ := Prod.mk.inj h
    obtain ⟨used, rfl, hda⟩ := ho _ _ _ ha
    exact ⟨_ :: used, rfl, hda.deepen (fun _ => .negate) hd⟩
  · obtain ⟨used, rfl, hda⟩ := ho _ _ _ h
    exact ⟨_ :: used, rfl, hda.deepen (fun _ => .posit) hda.depth_le⟩
  · obtain ⟨used, rfl, hda⟩ := power_sound hi ho _ _ _ h
    exact ⟨used, rfl, hda.deepen (fun _ => .unsigned) hda.depth_le⟩

/-! ## 3. Soundness of the loops -/

section Chain

variable {op? : Token → Option BinaryOp} {operand : Reader} {D S : List Token → Expr → Prop}

/-- A successful loop is over, or has read one more operand and goes on. -/
theorem chainAfter_eq_ok {left e : Expr}
    (h : chainAfter stop op? operand room left ls = .ok (e, rest)) :
    (left = e ∧ ls = rest) ∨
      ∃ x ls₁ op room' r ls₂, ls = x :: ls₁ ∧ room = room' + 1 ∧ op? x.token = some op ∧
        operand ls₁ = .ok (r, ls₂) ∧ (Expr.binary op left r).depth ≤ maxDepth ∧
        chainAfter stop op? operand room' (.binary op left r) ls₂ = .ok (e, rest) := by
  unfold chainAfter at h
  split at h
  · exact Or.inl (Prod.mk.inj (Except.ok.inj h))
  · rename_i x ls₁
    split at h
    · exact Or.inl (Prod.mk.inj (Except.ok.inj h))
    · exact nomatch h
    · rename_i op room' hop
      obtain ⟨⟨r, ls₂⟩, hr, hnode⟩ := bind_eq_ok_iff.mp h
      obtain ⟨⟨e', ls₃⟩, he, hloop⟩ := bind_eq_ok_iff.mp hnode
      obtain ⟨hd, he⟩ := bounded_eq_ok_iff.mp he
      obtain ⟨rfl, rfl⟩ := Prod.mk.inj he
      exact Or.inr ⟨x, ls₁, op, room', r, ls₂, rfl, rfl, hop, hr, hd, hloop⟩

/-- The loop keeps what it has read so far derived: the lexemes `before` and the tree `left`. -/
theorem chainAfter_sound (ho : operand.Sound D)
    (step : ∀ {ts us l r t op}, S ts l → op? t = some op → D us r →
      (Expr.binary op l r).depth ≤ maxDepth → S (ts ++ t :: us) (.binary op l r)) :
    ∀ (room : Nat) (before ls : List Lexeme) (left e : Expr) (rest : List Lexeme),
      S (before.map (·.token)) left → chainAfter stop op? operand room left ls = .ok (e, rest) →
      ∃ used, ls = used ++ rest ∧ S ((before ++ used).map (·.token)) e := by
  intro room
  induction room with
  | zero =>
    intro before ls left e rest hs h
    rcases chainAfter_eq_ok h with ⟨rfl, rfl⟩ | ⟨_, _, _, _, _, _, -, hroom, -⟩
    · exact ⟨[], rfl, by simpa using hs⟩
    · exact nomatch hroom
  | succ room ih =>
    intro before ls left e rest hs h
    rcases chainAfter_eq_ok h with
      ⟨rfl, rfl⟩ | ⟨x, ls₁, op, room', r, ls₂, rfl, hroom, hop, hr, hd, hloop⟩
    · exact ⟨[], rfl, by simpa using hs⟩
    · obtain rfl := Nat.succ.inj hroom
      obtain ⟨used, rfl, hdr⟩ := ho _ _ _ hr
      have hs' : S ((before ++ x :: used).map (·.token)) (.binary op left r) := by
        rw [List.map_append, List.map_cons]
        exact step hs hop hdr hd
      obtain ⟨used', rfl, hs''⟩ := ih (before ++ x :: used) ls₂ _ e rest hs' hloop
      exact ⟨x :: used ++ used', by simp, by simpa using hs''⟩

theorem chain_sound (ho : operand.Sound D) (base : ∀ {ts e}, D ts e → S ts e)
    (step : ∀ {ts us l r t op}, S ts l → op? t = some op → D us r →
      (Expr.binary op l r).depth ≤ maxDepth → S (ts ++ t :: us) (.binary op l r)) :
    Reader.Sound (chain stop op? operand) S := by
  intro ls e rest h
  obtain ⟨⟨a, ls₁⟩, ha, hloop⟩ := bind_eq_ok_iff.mp h
  obtain ⟨used, rfl, hda⟩ := ho _ _ _ ha
  obtain ⟨used', rfl, hs⟩ := chainAfter_sound ho step _ used ls₁ a e rest (base hda) hloop
  exact ⟨used ++ used', by simp, hs⟩

end Chain

theorem product_sound {operand : Reader} (ho : operand.Sound (Formed room .signed)) :
    Reader.Sound (chain stop productOp? operand) (Formed room .product) := by
  refine chain_sound ho (fun h => h.promote fun _ => .product) ?_
  intro ts us l r t op hl hop hr hd
  cases t <;> simp only [productOp?, Option.some.injEq, reduceCtorEq] at hop
  · subst hop
    exact Formed.join (fun _ _ => .multiply) hl hr hd
  · subst hop
    exact Formed.join (fun _ _ => .divide) hl hr hd

theorem sum_sound {operand : Reader} (ho : operand.Sound (Formed room .signed)) :
    Reader.Sound (sum stop operand) (Formed room .sum) := by
  refine chain_sound (product_sound ho) (fun h => h.promote fun _ => .sum) ?_
  intro ts us l r t op hl hop hr hd
  cases t <;> simp only [sumOp?, Option.some.injEq, reduceCtorEq] at hop
  · subst hop
    exact Formed.join (fun _ _ => .add) hl hr hd
  · subst hop
    exact Formed.join (fun _ _ => .subtract) hl hr hd

/-- **Every reader is sound.**  The readers inside `signed` have one entry less left. -/
theorem signedWithin_sound (stop : Nat) :
    ∀ room, Reader.Sound (signedWithin stop room) (Formed room .signed)
  | 0 => fun _ _ _ h => nomatch h
  | room + 1 =>
    have ho := signedWithin_sound stop room
    signed_sound (sum_sound ho) ho

/-! ## 4. The count of a loop leaves no trace -/

section Chain

variable {op? : Token → Option BinaryOp} {operand : Reader} {left r : Expr} {op : BinaryOp}
  {x : Lexeme}

theorem chainAfter_of_none (h : ∀ x ∈ ls.head?, op? x.token = none) :
    chainAfter stop op? operand room left ls = .ok (left, ls) := by
  cases ls with
  | nil => cases room <;> rfl
  | cons x ls =>
    have hx : op? x.token = none := h x rfl
    unfold chainAfter
    rw [hx]

theorem chainAfter_of_some (h : op? x.token = some op) :
    chainAfter stop op? operand (room + 1) left (x :: ls) =
      (do
        let (right, ls) ← operand ls
        let (e, ls) ← bounded stop (.binary op left right) ls
        chainAfter stop op? operand room e ls) := by
  conv => lhs; unfold chainAfter
  rw [h]

/-- **The count never runs out.**  A tree read by a loop that has counted to `room` is deeper than
what has been counted, so two counts that are both still ahead of the limit make no difference. -/
theorem chainAfter_room : ∀ (room room' : Nat) (left : Expr) (ls : List Lexeme),
    left.depth ≤ maxDepth → maxDepth < left.depth + room → maxDepth < left.depth + room' →
      chainAfter stop op? operand room left ls = chainAfter stop op? operand room' left ls
  | 0, _, left, ls, hd, h, _ => absurd h (Nat.not_lt.mpr hd)
  | _ + 1, 0, left, ls, hd, _, h => absurd h (Nat.not_lt.mpr hd)
  | room + 1, room' + 1, left, [], _, _, _ => rfl
  | room + 1, room' + 1, left, x :: ls, hd, h, h' => by
    cases hop : op? x.token with
    | none =>
      have hnone : ∀ y ∈ (x :: ls).head?, op? y.token = none := by simpa using hop
      rw [chainAfter_of_none hnone, chainAfter_of_none hnone]
    | some op =>
      rw [chainAfter_of_some hop, chainAfter_of_some hop]
      congr 1
      funext ⟨r, ls₁⟩
      by_cases hnode : (Expr.binary op left r).depth ≤ maxDepth
      · have hlt := Expr.depth_left_lt op left r
        have hb : bounded stop (.binary op left r) ls₁ = .ok (.binary op left r, ls₁) :=
          bounded_eq_ok_iff.mpr ⟨hnode, rfl⟩
        simp only [hb, ok_bind]
        exact chainAfter_room room room' _ ls₁ hnode (by omega) (by omega)
      · simp only [bounded, if_neg hnode]
        rfl

end Chain

/-! ## 5. Refusals of what is too deep -/

/-- The first computation does what the second does, or is refused as too deep, which it may be
under the condition `deep` only. -/
def Reaches {α : Type} (deep : Prop) (x y : Except Fault α) : Prop :=
  x = y ∨ deep ∧ ∃ position, x = .error ⟨position, .tooDeep⟩

namespace Reaches

variable {α β : Type} {deep : Prop} {x y z : Except Fault α}

protected theorem rfl : Reaches deep x x := .inl rfl

theorem trans (h : Reaches deep x y) (h' : Reaches deep y z) : Reaches deep x z := by
  rcases h with rfl | h
  · exact h'
  · exact .inr h

theorem bind {a : α} {f : α → Except Fault β} {w : Except Fault β} (h : Reaches deep x (.ok a))
    (hf : Reaches deep (f a) w) : Reaches deep (x >>= f) w := by
  rcases h with rfl | ⟨hdeep, position, rfl⟩
  · exact hf
  · exact .inr ⟨hdeep, position, rfl⟩

theorem eq_of_not (h : Reaches deep x y) (hdeep : ¬ deep) : x = y :=
  h.resolve_right fun hrefused => hdeep hrefused.1

end Reaches

section Chain

variable {deep : Prop} {op? : Token → Option BinaryOp} {operand : Reader} {left r : Expr}
  {op : BinaryOp} {x : Lexeme}

theorem bounded_reaches (hd : e.depth ≤ maxDepth ∨ deep) :
    Reaches deep (bounded stop e ls) (.ok (e, ls)) := by
  by_cases h : e.depth ≤ maxDepth
  · exact .inl (bounded_eq_ok_iff.mpr ⟨h, rfl⟩)
  · exact .inr ⟨hd.resolve_left h, place stop ls, if_neg h⟩

/-- One more operand of a loop that may still read `maxDepth` of them. -/
theorem chainAfter_step (hop : op? x.token = some op)
    (hr : Reaches deep (operand ls) (.ok (r, rest)))
    (hd : (Expr.binary op left r).depth ≤ maxDepth ∨ deep) :
    Reaches deep (chainAfter stop op? operand maxDepth left (x :: ls))
      (chainAfter stop op? operand maxDepth (.binary op left r) rest) := by
  rw [show chainAfter stop op? operand maxDepth left (x :: ls) = _ from
    chainAfter_of_some hop]
  refine hr.bind ?_
  by_cases hnode : (Expr.binary op left r).depth ≤ maxDepth
  · have hb : bounded stop (.binary op left r) rest = .ok (.binary op left r, rest) :=
      bounded_eq_ok_iff.mpr ⟨hnode, rfl⟩
    have hlt := Expr.depth_left_lt op left r
    have hleft := Expr.one_le_depth left
    simp only [hb, ok_bind]
    exact .inl (chainAfter_room _ _ _ _ hnode (by simp only [maxDepth]; omega)
      (by simp only [maxDepth]; omega))
  · have hb : bounded stop (.binary op left r) rest = .error ⟨place stop rest, .tooDeep⟩ :=
      if_neg hnode
    simp only [hb, error_bind]
    exact .inr ⟨hd.resolve_left hnode, _, rfl⟩

end Chain

/-! ## 6. Completeness -/

/-- Whether a token goes on with what a nonterminal has derived. -/
def Nonterminal.goesOn : Nonterminal → Token → Bool
  | _, .openParen => true
  | .power, .power | .signed, .power | .product, .power | .sum, .power => true
  | .product, .times | .product, .divide | .sum, .times | .sum, .divide => true
  | .sum, .plus | .sum, .minus => true
  | _, _ => false

/-- The lexemes do not begin with a token that goes on with the nonterminal. -/
def Stops (nt : Nonterminal) (ls : List Lexeme) : Prop :=
  ∀ x ∈ ls.head?, nt.goesOn x.token = false

theorem stops_cons {nt : Nonterminal} {x : Lexeme} (h : nt.goesOn x.token = false) :
    Stops nt (x :: ls) := by
  intro y hy
  rw [← Option.some.inj hy]
  exact h

/-- What stops a nonterminal stops those that it begins with. -/
theorem Stops.weaken {nt nt' : Nonterminal}
    (hle : ∀ t, nt.goesOn t = false → nt'.goesOn t = false) (h : Stops nt ls) : Stops nt' ls :=
  fun x hx => hle _ (h x hx)

theorem goesOn_signed {t : Token} (h : Nonterminal.signed.goesOn t = false) :
    Nonterminal.primary.goesOn t = false ∧ t ≠ .power ∧ t ≠ .openParen := by
  cases t <;> simp_all [Nonterminal.goesOn]

theorem goesOn_product {t : Token} (h : Nonterminal.product.goesOn t = false) :
    Nonterminal.signed.goesOn t = false ∧ productOp? t = none := by
  cases t <;> simp_all [Nonterminal.goesOn, productOp?]

theorem goesOn_sum {t : Token} (h : Nonterminal.sum.goesOn t = false) :
    Nonterminal.product.goesOn t = false ∧ sumOp? t = none := by
  cases t <;> simp_all [Nonterminal.goesOn, sumOp?]

theorem goesOn_of_sumOp {t : Token} {op : BinaryOp} (h : sumOp? t = some op) :
    Nonterminal.product.goesOn t = false := by
  cases t <;> simp_all [Nonterminal.goesOn, sumOp?]

theorem goesOn_of_productOp {t : Token} {op : BinaryOp} (h : productOp? t = some op) :
    Nonterminal.signed.goesOn t = false := by
  cases t <;> simp_all [Nonterminal.goesOn, productOp?]

/-- The lexemes `ls` are read as `e` by the reader of `nt`, whatever follows that stops it; under
the condition `deep` the reader may refuse them as too deep.  Sums and products are read by a loop,
which gets as far as `e`. -/
def Reads (stop room : Nat) (deep : Prop) (nt : Nonterminal) (ls : List Lexeme) (e : Expr) :
    Prop :=
  let operand := signedWithin stop room
  let product := chain stop productOp? operand
  match nt with
  | .sum => ∀ rest, Stops .product rest → Reaches deep (sum stop operand (ls ++ rest))
      (chainAfter stop sumOp? product maxDepth e rest)
  | .product => ∀ rest, Stops .signed rest → Reaches deep (product (ls ++ rest))
      (chainAfter stop productOp? operand maxDepth e rest)
  | .signed => ∀ rest, Stops .signed rest → Reaches deep (operand (ls ++ rest)) (.ok (e, rest))
  | .power => ∀ rest, Stops .signed rest →
      Reaches deep (power stop (sum stop operand) operand (ls ++ rest)) (.ok (e, rest))
  | .primary => ∀ rest, Stops .primary rest →
      Reaches deep (primary stop (sum stop operand) (ls ++ rest)) (.ok (e, rest))

section Reads

variable {deep : Prop}

/-- A product is read whole before a token that stops it. -/
theorem Reads.product_reaches (h : Reads stop room deep .product ls e) (hs : Stops .product rest) :
    Reaches deep (chain stop productOp? (signedWithin stop room) (ls ++ rest)) (.ok (e, rest)) := by
  have hloop := h rest (hs.weaken fun _ ht => (goesOn_product ht).1)
  rwa [chainAfter_of_none fun x hx => (goesOn_product (hs x hx)).2] at hloop

/-- A sum is read whole before a token that stops it. -/
theorem Reads.sum_reaches (h : Reads stop room deep .sum ls e) (hs : Stops .sum rest) :
    Reaches deep (sum stop (signedWithin stop room) (ls ++ rest)) (.ok (e, rest)) := by
  have hloop := h rest (hs.weaken fun _ ht => (goesOn_sum ht).1)
  rwa [chainAfter_of_none fun x hx => (goesOn_sum (hs x hx)).2] at hloop

/-- A sign is not the start of a power, so `signed` reads what `power` does. -/
theorem signed_of_power {inner operand : Reader} {p : Expr × List Lexeme}
    (h : Reaches deep (power stop inner operand ls) (.ok p)) :
    Reaches deep (signed stop inner operand ls) (.ok p) := by
  unfold signed
  split
  · rcases h with h | ⟨-, _, h⟩
    · exact nomatch h
    · exact nomatch h
  · rcases h with h | ⟨-, _, h⟩
    · exact nomatch h
    · exact nomatch h
  · exact h

/-- A name that no parenthesis follows is a symbol. -/
theorem primary_name {inner : Reader} {x : String} {i : Nat} {s : List Char}
    (hs : Stops .primary rest) :
    primary stop inner (⟨.name x, i, s⟩ :: rest) = .ok (.symbol x, rest) := by
  cases rest with
  | nil => rfl
  | cons y rest =>
    obtain ⟨t, j, u⟩ := y
    have ht : Nonterminal.primary.goesOn t = false := hs _ rfl
    cases t with
    | openParen => exact nomatch ht
    | _ => rfl

theorem power_of_primary {inner operand : Reader}
    (h : Reaches deep (primary stop inner ls) (.ok (e, rest))) (hs : Stops .signed rest) :
    Reaches deep (power stop inner operand ls) (.ok (e, rest)) := by
  refine h.bind ?_
  split
  · rename_i heq
    obtain ⟨rfl, rfl⟩ := Prod.mk.inj heq
    exact absurd rfl (goesOn_signed (hs _ rfl)).2.1
  · exact .rfl

theorem closing_eq_ok {c : Lexeme} (hc : c.token = .closeParen) :
    closing stop (c :: rest) = .ok rest :=
  closing_eq_ok_iff.mpr ⟨c, hc, rfl⟩

/-- One more operand of a sum. -/
theorem Reads.sum_step {ls₁ ls₂ : List Lexeme} {x : Lexeme} {op : BinaryOp} {l r : Expr}
    (hl : Reads stop room deep .sum ls₁ l) (hop : sumOp? x.token = some op)
    (hr : Reads stop room deep .product ls₂ r)
    (hd : (Expr.binary op l r).depth ≤ maxDepth ∨ deep) :
    Reads stop room deep .sum (ls₁ ++ x :: ls₂) (.binary op l r) := by
  intro rest hs
  have hx : Stops .product (x :: ls₂ ++ rest) := stops_cons (goesOn_of_sumOp hop)
  rw [List.append_assoc]
  exact (hl _ hx).trans (chainAfter_step hop (hr.product_reaches hs) hd)

/-- One more operand of a product. -/
theorem Reads.product_step {ls₁ ls₂ : List Lexeme} {x : Lexeme} {op : BinaryOp} {l r : Expr}
    (hl : Reads stop room deep .product ls₁ l) (hop : productOp? x.token = some op)
    (hr : Reads stop room deep .signed ls₂ r)
    (hd : (Expr.binary op l r).depth ≤ maxDepth ∨ deep) :
    Reads stop room deep .product (ls₁ ++ x :: ls₂) (.binary op l r) := by
  intro rest hs
  have hx : Stops .signed (x :: ls₂ ++ rest) := stops_cons (goesOn_of_productOp hop)
  rw [List.append_assoc]
  exact (hl _ hx).trans (chainAfter_step hop (hr rest hs) hd)

end Reads

/-- The lexemes around one whose token is known. -/
theorem map_token_eq_append_cons {ts us : List Token} {t : Token}
    (h : ls.map (·.token) = ts ++ t :: us) :
    ∃ ls₁ x ls₂, ls = ls₁ ++ x :: ls₂ ∧ ls₁.map (·.token) = ts ∧ x.token = t ∧
      ls₂.map (·.token) = us := by
  obtain ⟨ls₁, xs, rfl, h₁, hxs⟩ := List.map_eq_append_iff.mp h
  obtain ⟨x, ls₂, rfl, hx, h₂⟩ := List.map_eq_cons_iff.mp hxs
  exact ⟨ls₁, x, ls₂, rfl, h₁, hx, h₂⟩

/-- Limits on a pair are limits on both. -/
theorem limits_of_max {deep : Prop} {n m room : Nat} (h : max n m ≤ room ∨ deep) :
    (n ≤ room ∨ deep) ∧ (m ≤ room ∨ deep) :=
  ⟨h.imp_left (Nat.le_trans (Nat.le_max_left _ _)),
    h.imp_left (Nat.le_trans (Nat.le_max_right _ _))⟩

theorem limits_of_operands {deep : Prop} {op : BinaryOp} {l r : Expr}
    (h : (Expr.binary op l r).depth ≤ maxDepth ∨ deep) :
    (l.depth ≤ maxDepth ∨ deep) ∧ (r.depth ≤ maxDepth ∨ deep) :=
  ⟨h.imp_left fun hd => (Expr.depth_operands_le hd).1,
    h.imp_left fun hd => (Expr.depth_operands_le hd).2⟩

/-- **Every derivation is read.**  By induction on the derivation, for all lexemes with its tokens;
what exceeds the number of entries or the depth may be refused as too deep instead. -/
theorem reads_of_derives {nt : Nonterminal} {n : Nat} {ts : List Token} {deep : Prop}
    (h : Derives nt n ts e) :
    ∀ (room : Nat) (ls : List Lexeme), (n ≤ room ∨ deep) → ls.map (·.token) = ts →
      (e.depth ≤ maxDepth ∨ deep) → Reads stop room deep nt ls e := by
  induction h with
  | sum _ ih =>
    intro room ls hn hts hd rest hs
    exact ((ih room ls hn hts hd).product_reaches hs).bind .rfl
  | add _ _ ihl ihr | subtract _ _ ihl ihr =>
    intro room ls hn hts hd
    obtain ⟨ls₁, x, ls₂, rfl, hl, hx, hr⟩ := map_token_eq_append_cons hts
    obtain ⟨hn₁, hn₂⟩ := limits_of_max hn
    obtain ⟨hd₁, hd₂⟩ := limits_of_operands hd
    have hop := congrArg sumOp? hx
    exact (ihl room ls₁ hn₁ hl hd₁).sum_step hop (ihr room ls₂ hn₂ hr hd₂) hd
  | product _ ih =>
    intro room ls hn hts hd rest hs
    exact (ih room ls hn hts hd rest hs).bind .rfl
  | multiply _ _ ihl ihr | divide _ _ ihl ihr =>
    intro room ls hn hts hd
    obtain ⟨ls₁, x, ls₂, rfl, hl, hx, hr⟩ := map_token_eq_append_cons hts
    obtain ⟨hn₁, hn₂⟩ := limits_of_max hn
    obtain ⟨hd₁, hd₂⟩ := limits_of_operands hd
    have hop := congrArg productOp? hx
    exact (ihl room ls₁ hn₁ hl hd₁).product_step hop (ihr room ls₂ hn₂ hr hd₂) hd
  | negate _ ih =>
    intro room ls hn hts hd rest hs
    cases room with
    | zero => exact .inr ⟨hn.resolve_left (Nat.not_succ_le_zero _), _, rfl⟩
    | succ room =>
      obtain ⟨⟨_, i, s⟩, ls, rfl, rfl, htail⟩ := List.map_eq_cons_iff.mp hts
      have hinner := ih room ls (hn.imp_left Nat.le_of_succ_le_succ) htail
        (hd.imp_left Nat.le_of_succ_le) rest hs
      exact hinner.bind (bounded_reaches hd)
  | posit _ ih =>
    intro room ls hn hts hd rest hs
    cases room with
    | zero => exact .inr ⟨hn.resolve_left (Nat.not_succ_le_zero _), _, rfl⟩
    | succ room =>
      obtain ⟨⟨_, i, s⟩, ls, rfl, rfl, htail⟩ := List.map_eq_cons_iff.mp hts
      exact ih room ls (hn.imp_left Nat.le_of_succ_le_succ) htail hd rest hs
  | unsigned _ ih =>
    intro room ls hn hts hd rest hs
    cases room with
    | zero => exact .inr ⟨hn.resolve_left (Nat.not_succ_le_zero _), _, rfl⟩
    | succ room =>
      exact signed_of_power (ih room ls (hn.imp_left Nat.le_of_succ_le_succ) hts hd rest hs)
  | base _ ih =>
    intro room ls hn hts hd rest hs
    exact power_of_primary
      (ih room ls hn hts hd rest (hs.weaken fun _ ht => (goesOn_signed ht).1)) hs
  | raise _ _ ihb ihx =>
    intro room ls hn hts hd rest hs
    obtain ⟨ls₁, ⟨_, i, s⟩, ls₂, rfl, hb, rfl, hx⟩ := map_token_eq_append_cons hts
    obtain ⟨hn₁, hn₂⟩ := limits_of_max hn
    obtain ⟨hd₁, hd₂⟩ := limits_of_operands hd
    have hbase := ihb room ls₁ hn₁ hb hd₁ (⟨.power, i, s⟩ :: ls₂ ++ rest) (stops_cons rfl)
    rw [List.append_assoc]
    exact hbase.bind ((ihx room ls₂ hn₂ hx hd₂ rest hs).bind (bounded_reaches hd))
  | number v =>
    intro room ls hn hts hd rest hs
    obtain ⟨⟨_, i, s⟩, ls, rfl, rfl, hnil⟩ := List.map_eq_cons_iff.mp hts
    rw [List.map_eq_nil_iff.mp hnil]
    exact .rfl
  | name x =>
    intro room ls hn hts hd rest hs
    obtain ⟨⟨_, i, s⟩, ls, rfl, rfl, hnil⟩ := List.map_eq_cons_iff.mp hts
    rw [List.map_eq_nil_iff.mp hnil]
    exact .inl (primary_name hs)
  | call f _ ih =>
    intro room ls hn hts hd rest hs
    obtain ⟨⟨_, i, s⟩, ls, rfl, rfl, htail⟩ := List.map_eq_cons_iff.mp hts
    obtain ⟨⟨_, j, t⟩, ls, rfl, rfl, hparens⟩ := List.map_eq_cons_iff.mp htail
    obtain ⟨us, c, ls', rfl, hus, hc, hnil⟩ := map_token_eq_append_cons hparens
    have hstop : Stops .sum (c :: rest) := stops_cons (by rw [hc]; rfl)
    have hinner := (ih room us hn hus (hd.imp_left Nat.le_of_succ_le)).sum_reaches hstop
    rw [List.map_eq_nil_iff.mp hnil]
    simp only [List.cons_append, List.append_assoc, List.nil_append, primary]
    exact hinner.bind ((Reaches.bind (.inl (closing_eq_ok hc))) (bounded_reaches hd))
  | parens _ ih =>
    intro room ls hn hts hd rest hs
    obtain ⟨⟨_, i, s⟩, ls, rfl, rfl, hparens⟩ := List.map_eq_cons_iff.mp hts
    obtain ⟨us, c, ls', rfl, hus, hc, hnil⟩ := map_token_eq_append_cons hparens
    have hstop : Stops .sum (c :: rest) := stops_cons (by rw [hc]; rfl)
    have hinner := (ih room us hn hus hd).sum_reaches hstop
    rw [List.map_eq_nil_iff.mp hnil]
    simp only [List.cons_append, List.append_assoc, List.nil_append, primary]
    exact hinner.bind ((Reaches.bind (.inl (closing_eq_ok hc))) .rfl)

/-! ## 7. Whole formulas -/

theorem ofLexemes_eq_ok_iff_sum {stop : Nat} {ls : List Lexeme} :
    Expr.ofLexemes stop ls = .ok e ↔
      sum stop (signedWithin stop maxDepth) ls = .ok (e, []) := by
  cases ls with
  | nil =>
    constructor
    · intro h
      exact nomatch h
    · intro h
      exact nomatch h
  | cons x ls =>
    constructor
    · intro h
      obtain ⟨⟨e', rest⟩, hsum, hrest⟩ := bind_eq_ok_iff.mp h
      cases rest with
      | nil => rw [hsum, Except.ok.inj hrest]
      | cons y rest => exact nomatch hrest
    · intro h
      rw [Expr.ofLexemes, h]
      rfl

theorem formed_of_ofLexemes (h : Expr.ofLexemes stop ls = .ok e) :
    Formed maxDepth .sum (ls.map (·.token)) e := by
  have hsum := ofLexemes_eq_ok_iff_sum.mp h
  obtain ⟨used, rfl, hf⟩ := sum_sound (signedWithin_sound stop maxDepth) _ _ _ hsum
  rw [List.append_nil]
  exact hf

/-- **What is derived is read, unless it exceeds a limit and is refused as too deep.** -/
theorem ofLexemes_reaches {n : Nat} {deep : Prop} (h : Derives .sum n (ls.map (·.token)) e)
    (hn : n ≤ maxDepth ∨ deep) (hd : e.depth ≤ maxDepth ∨ deep) :
    Reaches deep (Expr.ofLexemes stop ls) (.ok e) := by
  have hreads : Reads stop maxDepth deep .sum ls e := reads_of_derives h maxDepth ls hn rfl hd
  have hstop : Stops .sum [] := fun _ hx => nomatch hx
  have hsum := hreads.sum_reaches hstop
  rw [List.append_nil] at hsum
  cases ls with
  | nil =>
    rcases hsum with hsum | ⟨-, _, hsum⟩
    · exact nomatch hsum
    · exact nomatch hsum
  | cons x ls => exact hsum.bind .rfl

theorem ofLexemes_of_formed (h : Formed maxDepth .sum (ls.map (·.token)) e) :
    Expr.ofLexemes stop ls = .ok e := by
  obtain ⟨⟨n, hn, hd⟩, hdepth⟩ := h
  exact (ofLexemes_reaches hd (.inl hn) (.inl hdepth)).eq_of_not id

/-- Reading a text whose lexemes are known. -/
theorem parse_of_lexemes {text : String} (hls : lexemes text.toList = .ok ls) :
    parse text = ((Expr.ofLexemes text.toList.length ls).map fun e => ⟨normalize text, e⟩).mapError
      (.malformedFormula text) := by
  rw [parse, ofText, Expr.ofText, hls, ok_bind]
  rfl

/-- What stands behind a formula: the lexemes of its text, and the expression that they make up. -/
theorem expr_of_parse {text : String} {f : Formula} (h : parse text = .ok f) :
    ∃ ls, lexemes text.toList = .ok ls ∧
      Expr.ofLexemes text.toList.length ls = .ok f.expr ∧ f.text = normalize text := by
  obtain ⟨e, he, hf⟩ := bind_eq_ok_iff.mp (mapError_eq_ok_iff.mp h)
  obtain ⟨ls, hls, hread⟩ := bind_eq_ok_iff.mp he
  obtain rfl := Except.ok.inj hf
  exact ⟨ls, hls, hread, rfl⟩

/-- **Lexemes are read as an expression exactly when their tokens derive it within the limits.**
Reading always ends: in the only expression that the tokens derive within the limits, or in a fault
if there is none.  The expression of a formula is never deeper than `maxDepth`. -/
theorem ofLexemes_eq_ok_iff (stop : Nat) (ls : List Lexeme) :
    (∀ e, Expr.ofLexemes stop ls = .ok e ↔ Formed maxDepth .sum (ls.map (·.token)) e) ∧
      ((∃ e, Expr.ofLexemes stop ls = .ok e ∧
          ∀ e', Formed maxDepth .sum (ls.map (·.token)) e' → e' = e) ∨
        ∃ fault, Expr.ofLexemes stop ls = .error fault ∧
          ∀ e, ¬ Formed maxDepth .sum (ls.map (·.token)) e) ∧
      ∀ (text : String) (f : Formula), parse text = .ok f → f.expr.depth ≤ maxDepth := by
  refine ⟨fun e => ⟨formed_of_ofLexemes, ofLexemes_of_formed⟩, ?_, ?_⟩
  · cases h : Expr.ofLexemes stop ls with
    | ok e =>
      refine Or.inl ⟨e, rfl, fun e' he' => ?_⟩
      have h' : Expr.ofLexemes stop ls = .ok e' := ofLexemes_of_formed he'
      exact Except.ok.inj (h'.symm.trans h)
    | error fault =>
      refine Or.inr ⟨fault, rfl, fun e he => ?_⟩
      have h' : Expr.ofLexemes stop ls = .ok e := ofLexemes_of_formed he
      exact nomatch h.symm.trans h'
  · intro text f h
    obtain ⟨ls, -, hread, -⟩ := expr_of_parse h
    exact (formed_of_ofLexemes hread).depth_le

end BandMath.Formula
