/-
# The grammar of formulas

The grammar by itself, without any reader: `Derives r n ts e` says that the nonterminal `r` derives
the tokens `ts` and that `e` is the tree of the derivation.

    sum     = product (('+' | '-') product)*
    product = signed (('*' | '/') signed)*
    signed  = ('-' | '+') signed | power
    power   = primary ('^' signed)?
    primary = numeral | name | name '(' sum ')' | '(' sum ')'

The repetitions are written as left recursions, since sums and products group to the left.  The
number `n` is the greatest number of `signed` on a path of the derivation from its root to a leaf:
it is what the limit on nesting counts.  Nothing here bounds it, nor the depth of the tree; the
limits are added by `Formed`.
-/
import BandMath.Formula.Reading

namespace BandMath.Formula

/-! ## 1. Derivations -/

/-- What tokens can be derived as. -/
inductive Nonterminal where
  | sum
  | product
  | signed
  | power
  | primary
  deriving DecidableEq

/-- `Derives r n ts e`: the nonterminal `r` derives `ts` with the tree `e`, and the paths of the
derivation go through at most `n` nonterminals `signed`, one of them through exactly `n`. -/
inductive Derives : Nonterminal → Nat → List Token → Expr → Prop
  | sum {n ts e} : Derives .product n ts e → Derives .sum n ts e
  | add {n m ts us l r} : Derives .sum n ts l → Derives .product m us r →
      Derives .sum (max n m) (ts ++ .plus :: us) (.binary .add l r)
  | subtract {n m ts us l r} : Derives .sum n ts l → Derives .product m us r →
      Derives .sum (max n m) (ts ++ .minus :: us) (.binary .subtract l r)
  | product {n ts e} : Derives .signed n ts e → Derives .product n ts e
  | multiply {n m ts us l r} : Derives .product n ts l → Derives .signed m us r →
      Derives .product (max n m) (ts ++ .times :: us) (.binary .multiply l r)
  | divide {n m ts us l r} : Derives .product n ts l → Derives .signed m us r →
      Derives .product (max n m) (ts ++ .divide :: us) (.binary .divide l r)
  | negate {n ts e} : Derives .signed n ts e →
      Derives .signed (n + 1) (.minus :: ts) (.negate e)
  /-- A plus sign leaves no trace in the tree. -/
  | posit {n ts e} : Derives .signed n ts e → Derives .signed (n + 1) (.plus :: ts) e
  | unsigned {n ts e} : Derives .power n ts e → Derives .signed (n + 1) ts e
  | base {n ts e} : Derives .primary n ts e → Derives .power n ts e
  | raise {n m ts us b x} : Derives .primary n ts b → Derives .signed m us x →
      Derives .power (max n m) (ts ++ .power :: us) (.binary .power b x)
  | number (v : Float) : Derives .primary 0 [.number v] (.number v)
  | name (x : String) : Derives .primary 0 [.name x] (.symbol x)
  | call {n ts e} (f : String) : Derives .sum n ts e →
      Derives .primary n (.name f :: .openParen :: (ts ++ [.closeParen])) (.call f e)
  | parens {n ts e} : Derives .sum n ts e →
      Derives .primary n (.openParen :: (ts ++ [.closeParen])) e

/-! ## 2. The two limits -/

/-- `r` derives `ts` with the tree `e`, going through `signed` at most `room` times on each path,
and the tree is not too deep. -/
def Formed (room : Nat) (r : Nonterminal) (ts : List Token) (e : Expr) : Prop :=
  (∃ n ≤ room, Derives r n ts e) ∧ e.depth ≤ maxDepth

namespace Formed

variable {room : Nat} {ts us : List Token} {e l r b x : Expr}

theorem depth_le {nt : Nonterminal} (h : Formed room nt ts e) : e.depth ≤ maxDepth := h.2

/-- A derivation from one nonterminal that only names another. -/
theorem promote {nt nt' : Nonterminal} (hd : ∀ n, Derives nt n ts e → Derives nt' n ts e)
    (h : Formed room nt ts e) : Formed room nt' ts e := by
  obtain ⟨⟨n, hn, hd'⟩, hdepth⟩ := h
  exact ⟨⟨n, hn, hd n hd'⟩, hdepth⟩

/-- Two derivations joined under a node of their trees. -/
theorem join {nt₁ nt₂ nt : Nonterminal} {ws : List Token} {t : Expr}
    (hd : ∀ n m, Derives nt₁ n ts l → Derives nt₂ m us r → Derives nt (max n m) ws t)
    (hl : Formed room nt₁ ts l) (hr : Formed room nt₂ us r) (ht : t.depth ≤ maxDepth) :
    Formed room nt ws t := by
  obtain ⟨⟨n, hn, hdn⟩, -⟩ := hl
  obtain ⟨⟨m, hm, hdm⟩, -⟩ := hr
  exact ⟨⟨max n m, Nat.max_le.mpr ⟨hn, hm⟩, hd n m hdn hdm⟩, ht⟩

/-- One more `signed` on the path. -/
theorem deepen {nt : Nonterminal} {ws : List Token} {t : Expr}
    (hd : ∀ n, Derives nt n ts e → Derives .signed (n + 1) ws t)
    (h : Formed room nt ts e) (ht : t.depth ≤ maxDepth) : Formed (room + 1) .signed ws t := by
  obtain ⟨⟨n, hn, hdn⟩, -⟩ := h
  exact ⟨⟨n + 1, Nat.succ_le_succ hn, hd n hdn⟩, ht⟩

end Formed

end BandMath.Formula
