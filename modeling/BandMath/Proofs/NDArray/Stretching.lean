/-
# Stretching, element by element

A shape that stretches to another is aligned with its last axes, every axis being equal to its
partner or of length 1 (`stretches_iff`).  So stretching is a preorder, and the projections that go
with it compose: an element found through two stretchings is found through their composition
(`project_project`).

`Pointwise f a b c` is what two arrays combined by `f` have in common whichever of them is the
smaller: both stretch to the result, and the result has at every position `f` of the elements that
the two have for it.  `zipWith_pointwise` says so of `zipWith`.

Positions are lists, and the axes that a smaller shape lacks come first, so everything here is about
appended lists: `Aligned` and `pin` are about axes that stand one below the other, and shapes and
positions of different lengths are brought to this form by dropping what comes first.

A number is an array without axes, which stretches to every shape (`stretches_nil`).  So putting in
a number at every element is a case of combining two arrays (`map_pointwise_right`,
`map_pointwise_left`), and formulas over numbers and arrays can be dealt with alike
(`BandMath.Proofs.Value.Elements`).
-/
import BandMath.NDArray.Broadcast
import Mathlib.Data.List.Forall2

namespace BandMath

/-! ## 1. Positions within appended shapes -/

namespace Position

theorem within_nil {p : List Nat} (h : Within [] p) : p = [] := by
  cases p with
  | nil => rfl
  | cons i p => exact absurd h id

theorem within_cons {n : Nat} {s p : List Nat} (h : Within (n :: s) p) :
    ∃ i q, p = i :: q ∧ i < n ∧ Within s q := by
  cases p with
  | nil => exact absurd h id
  | cons i q => exact ⟨i, q, rfl, h.1, h.2⟩

theorem Within.length_eq : ∀ {s p : List Nat}, Within s p → p.length = s.length
  | [], p, h => by rw [within_nil h]
  | n :: s, p, h => by
    obtain ⟨i, q, rfl, -, hq⟩ := within_cons h
    rw [List.length_cons, List.length_cons, hq.length_eq]

theorem within_append : ∀ {s t p : List Nat}, Within (s ++ t) p →
    ∃ q r, p = q ++ r ∧ Within s q ∧ Within t r
  | [], t, p, h => ⟨[], p, rfl, trivial, h⟩
  | n :: s, t, p, h => by
    obtain ⟨i, p, rfl, hi, hp⟩ := within_cons h
    obtain ⟨q, r, rfl, hq, hr⟩ := within_append hp
    exact ⟨i :: q, r, rfl, ⟨hi, hq⟩, hr⟩

/-- An index below the length of an axis that was dropped. -/
theorem within_insertIdx : ∀ {s p : List Nat} {i n k : Nat}, s[i]? = some n → k < n →
    Within (s.eraseIdx i) p → Within s (p.insertIdx i k)
  | [], _, _, _, _, h, _, _ => nomatch h
  | m :: s, p, 0, n, k, h, hk, hp => by
    obtain rfl : m = n := Option.some.inj h
    rw [List.insertIdx_zero]
    exact ⟨hk, hp⟩
  | m :: s, p, i + 1, n, k, h, hk, hp => by
    obtain ⟨j, q, rfl, hj, hq⟩ := within_cons hp
    rw [List.insertIdx_succ_cons]
    exact ⟨hj, within_insertIdx h hk hq⟩

end Position

open Position

namespace NDArray

/-! ## 2. Aligned axes -/

/-- Axes one below the other, each of the length of its partner or of length 1. -/
abbrev Aligned (s t : List Nat) : Prop := List.Forall₂ (fun n m => n = m ∨ n = 1) s t

/-- The position within aligned axes: an axis of length 1 gives its only element. -/
def pin (s p : List Nat) : List Nat := List.zipWith (fun n i => if n = 1 then 0 else i) s p

theorem Aligned.refl (s : List Nat) : Aligned s s := List.forall₂_same.mpr fun _ _ => Or.inl rfl

theorem Aligned.trans {s t u : List Nat} (h : Aligned s t) (h' : Aligned t u) : Aligned s u := by
  induction h generalizing u with
  | nil => exact h'
  | cons hn _ ih =>
    cases h' with
    | cons hm h' =>
      refine List.Forall₂.cons ?_ (ih h')
      rcases hn with rfl | rfl
      · exact hm
      · exact Or.inr rfl

theorem within_pin {s t p : List Nat} (h : Aligned s t) (hp : Within t p) :
    Within s (pin s p) := by
  induction h generalizing p with
  | nil => rw [within_nil hp]; trivial
  | @cons n m s t hn _ ih =>
    obtain ⟨i, q, rfl, hi, hq⟩ := within_cons hp
    refine ⟨?_, ih hq⟩
    rcases hn with rfl | rfl
    · dsimp only
      split <;> omega
    · exact Nat.one_pos

theorem pin_pin {s t u p : List Nat} (h : Aligned s t) (h' : Aligned t u) (hp : Within u p) :
    pin s (pin t p) = pin s p := by
  induction h generalizing u p with
  | nil => rfl
  | @cons n m s t hn _ ih =>
    cases h' with
    | cons _ h' =>
      obtain ⟨i, q, rfl, -, hq⟩ := within_cons hp
      have htail : pin s (pin t q) = pin s q := ih h' hq
      simp only [pin] at htail ⊢
      rw [List.zipWith_cons_cons, List.zipWith_cons_cons, List.zipWith_cons_cons, htail]
      rcases hn with rfl | rfl
      · split <;> rfl
      · rfl

theorem pin_self : ∀ {s p : List Nat}, Within s p → pin s p = p
  | [], p, h => by rw [within_nil h]; rfl
  | n :: s, p, h => by
    obtain ⟨i, q, rfl, hi, hq⟩ := within_cons h
    have htail : pin s q = q := pin_self hq
    simp only [pin] at htail ⊢
    rw [List.zipWith_cons_cons, htail]
    split
    · rw [show i = 0 by omega]
    · rfl

theorem pin_append {s t p q : List Nat} (h : p.length = s.length) :
    pin (s ++ t) (p ++ q) = pin s p ++ pin t q :=
  List.zipWith_append h.symm

/-! ## 3. Stretching -/

/-- A shape stretches to one that has further axes before some that it is aligned with. -/
theorem stretches_iff {s t : List Nat} :
    stretches s t = true ↔ ∃ lead u, t = lead ++ u ∧ Aligned s u := by
  unfold stretches
  rw [Bool.and_eq_true, decide_eq_true_iff]
  constructor
  · rintro ⟨hlen, hall⟩
    refine ⟨t.take (t.length - s.length), t.drop (t.length - s.length),
      (List.take_append_drop _ t).symm, List.forall₂_iff_zip.mpr ⟨?_, fun {n m} hmem => ?_⟩⟩
    · rw [List.length_drop]
      omega
    · simpa using List.all_eq_true.mp hall (n, m) hmem
  · rintro ⟨lead, u, rfl, h⟩
    have hlen := h.length_eq
    rw [List.length_append, show lead.length + u.length - s.length = lead.length by omega,
      List.drop_left, List.all_eq_true]
    refine ⟨by omega, fun x hx => ?_⟩
    have := (List.forall₂_iff_zip.mp h).2 hx
    simpa using this

theorem stretches_refl (s : List Nat) : stretches s s = true :=
  stretches_iff.mpr ⟨[], s, rfl, Aligned.refl s⟩

theorem stretches_nil (s : List Nat) : stretches [] s = true :=
  stretches_iff.mpr ⟨s, [], (List.append_nil s).symm, List.Forall₂.nil⟩

/-- Two aligned lists are aligned part by part. -/
theorem Aligned.of_append {s t u : List Nat} (h : Aligned (s ++ t) u) :
    ∃ v w, u = v ++ w ∧ Aligned s v ∧ Aligned t w := by
  refine ⟨u.take s.length, u.drop s.length, (List.take_append_drop _ u).symm, ?_, ?_⟩
  · simpa using List.forall₂_take s.length h
  · simpa using List.forall₂_drop s.length h

theorem stretches_trans {s t u : List Nat} (h : stretches s t = true) (h' : stretches t u = true) :
    stretches s u = true := by
  obtain ⟨lead, t', rfl, hs⟩ := stretches_iff.mp h
  obtain ⟨lead', u', rfl, ht⟩ := stretches_iff.mp h'
  obtain ⟨v, w, rfl, -, hw⟩ := ht.of_append
  exact stretches_iff.mpr ⟨lead' ++ v, w, (List.append_assoc _ _ _).symm, hs.trans hw⟩

/-! ## 4. Projections -/

theorem project_append {s p q : List Nat} (h : q.length = s.length) :
    project s (p ++ q) = pin s q := by
  unfold project pin
  rw [List.length_append, show p.length + q.length - s.length = p.length by omega,
    List.drop_left]

theorem within_project {s t p : List Nat} (h : stretches s t = true) (hp : Within t p) :
    Within s (project s p) := by
  obtain ⟨lead, u, rfl, hs⟩ := stretches_iff.mp h
  obtain ⟨q, r, rfl, -, hr⟩ := within_append hp
  rw [project_append (hr.length_eq.trans hs.length_eq.symm)]
  exact within_pin hs hr

theorem project_self {s p : List Nat} (h : Within s p) : project s p = p := by
  have hp : project s ([] ++ p) = pin s p := project_append h.length_eq
  rw [List.nil_append] at hp
  rw [hp, pin_self h]

/-- **Projections compose.** -/
theorem project_project {s t u p : List Nat} (h : stretches s t = true)
    (h' : stretches t u = true) (hp : Within u p) : project s (project t p) = project s p := by
  obtain ⟨lead, t', rfl, hs⟩ := stretches_iff.mp h
  obtain ⟨lead', u', rfl, ht⟩ := stretches_iff.mp h'
  obtain ⟨v, w, rfl, hv, hw⟩ := ht.of_append
  obtain ⟨q, r, rfl, -, hr⟩ := within_append hp
  obtain ⟨r₁, r₂, rfl, hr₁, hr₂⟩ := within_append hr
  have hlen₁ : r₁.length = lead.length := hr₁.length_eq.trans hv.length_eq.symm
  have hlen₂ : r₂.length = t'.length := hr₂.length_eq.trans hw.length_eq.symm
  have hlen₃ : (pin t' r₂).length = s.length := by
    rw [(within_pin hw hr₂).length_eq, hs.length_eq]
  calc project s (project (lead ++ t') (q ++ (r₁ ++ r₂)))
      = project s (pin lead r₁ ++ pin t' r₂) := by
        rw [project_append (by simp only [List.length_append, hlen₁, hlen₂]), pin_append hlen₁]
    _ = pin s (pin t' r₂) := project_append hlen₃
    _ = pin s r₂ := pin_pin hs hw hr₂
    _ = project s (q ++ (r₁ ++ r₂)) := by
        rw [← List.append_assoc, project_append (hlen₂.trans hs.length_eq.symm)]

/-! ## 5. Two arrays -/

/-- Both arrays stretch to the third, which has at every position `f` of their elements. -/
structure Pointwise (f : Float → Float → Float) (a b c : NDArray) : Prop where
  left : stretches a.shape c.shape = true
  right : stretches b.shape c.shape = true
  get : ∀ p, Within c.shape p →
    c.get p = f (a.get (project a.shape p)) (b.get (project b.shape p))

/-- The same two arrays in the other order. -/
theorem Pointwise.flip {f : Float → Float → Float} {a b c : NDArray}
    (h : Pointwise (fun x y => f y x) a b c) : Pointwise f b a c :=
  ⟨h.right, h.left, h.get⟩

theorem commonShape?_eq_some {s t u : List Nat} (h : commonShape? s t = some u) :
    stretches s u = true ∧ stretches t u = true := by
  unfold commonShape? at h
  split at h
  · rename_i hts
    obtain rfl := Option.some.inj h
    exact ⟨stretches_refl _, hts⟩
  · split at h
    · rename_i hst
      obtain rfl := Option.some.inj h
      exact ⟨hst, stretches_refl _⟩
    · exact nomatch h

/-- **Arrays are combined element by element.** -/
theorem zipWith_pointwise {f : Float → Float → Float} {a b c : NDArray}
    (h : zipWith f a b = .ok c) : Pointwise f a b c := by
  unfold zipWith at h
  split at h
  · rename_i u hu
    obtain rfl := Except.ok.inj h
    obtain ⟨hl, hr⟩ := commonShape?_eq_some hu
    exact ⟨hl, hr, fun p hp => get_ofFn _ hp⟩
  · exact nomatch h

theorem ofFn_congr {s : List Nat} {f g : List Nat → Float} (h : ∀ p, Within s p → f p = g p) :
    ofFn s f = ofFn s g := by
  refine ext_get rfl fun p hp => ?_
  have hp' : Within s p := hp
  rw [get_ofFn f hp', get_ofFn g hp', h p hp']

/-- Arrays of one shape are combined without any stretching. -/
theorem zipWith_of_shape_eq {f : Float → Float → Float} {a b : NDArray}
    (h : b.shape = a.shape) :
    zipWith f a b = .ok (ofFn a.shape fun p => f (a.get p) (b.get p)) := by
  have hcommon : commonShape? a.shape b.shape = some a.shape := by
    rw [commonShape?, h, if_pos (stretches_refl _)]
  rw [zipWith, hcommon]
  refine congrArg Except.ok (ofFn_congr fun p hp => ?_)
  rw [h, project_self hp]

theorem shape_zipWith {f : Float → Float → Float} {a b c : NDArray} (hshape : a.shape = b.shape)
    (h : zipWith f a b = .ok c) : c.shape = a.shape := by
  rw [zipWith_of_shape_eq hshape.symm] at h
  obtain rfl := Except.ok.inj h
  rfl

/-- The shape of one of the two is kept. -/
theorem shape_zipWith_eq_or {f : Float → Float → Float} {a b c : NDArray}
    (h : zipWith f a b = .ok c) : c.shape = a.shape ∨ c.shape = b.shape := by
  unfold zipWith commonShape? at h
  split at h
  · rename_i s hs
    obtain rfl := Except.ok.inj h
    split at hs
    · exact Or.inl (Option.some.inj hs).symm
    · split at hs
      · exact Or.inr (Option.some.inj hs).symm
      · exact nomatch hs
  · exact nomatch h

/-! ## 6. Numbers as arrays without axes -/

theorem get_fill {shape p : List Nat} (x : Float) (h : Within shape p) :
    (fill shape x).get p = x :=
  get_ofFn _ h

theorem map_fill (f : Float → Float) (x : Float) : (fill [] x).map f = fill [] (f x) := by
  refine ext_get rfl fun p hp => ?_
  have hp' : Within [] p := hp
  rw [get_map f hp', get_fill x hp', get_fill (f x) hp']

/-- Two numbers. -/
theorem fill_pointwise (f : Float → Float → Float) (x y : Float) :
    Pointwise f (fill [] x) (fill [] y) (fill [] (f x y)) := by
  refine ⟨stretches_nil _, stretches_nil _, fun p hp => ?_⟩
  have hp' : Within [] p := hp
  have hx : (fill [] x).get (project [] p) = x :=
    get_fill x (within_project (stretches_nil _) hp')
  have hy : (fill [] y).get (project [] p) = y :=
    get_fill y (within_project (stretches_nil _) hp')
  rw [get_fill _ hp']
  exact (congrArg₂ f hx hy).symm

/-- A number on the right. -/
theorem map_pointwise_right (f : Float → Float → Float) (a : NDArray) (y : Float) :
    Pointwise f a (fill [] y) (a.map fun x => f x y) := by
  refine ⟨stretches_refl _, stretches_nil _, fun p hp => ?_⟩
  have hp' : Within a.shape p := hp
  have hy : (fill [] y).get (project [] p) = y :=
    get_fill y (within_project (stretches_nil _) hp')
  rw [get_map _ hp', project_self hp']
  exact congrArg (f (a.get p)) hy.symm

/-- A number on the left. -/
theorem map_pointwise_left (f : Float → Float → Float) (x : Float) (b : NDArray) :
    Pointwise f (fill [] x) b (b.map fun y => f x y) :=
  (map_pointwise_right (fun y x => f x y) b x).flip

end NDArray

end BandMath
