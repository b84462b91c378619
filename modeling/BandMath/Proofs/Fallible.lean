/-
# Computations that may be refused

What a computation must have done when it gives a result: `bind_eq_ok_iff` takes one step of a
sequence off, `map_eq_ok_iff` a function applied to the result and `mapError_eq_ok_iff` one applied
to the refusal.

`Follows exactly R x y` compares two computations: when the first gives a result, so does the
second, and the results are related by `R`; when the first is refused, the second is refused for the
same reason if `exactly` is set, and may do anything otherwise.  Steps that follow each other make
sequences that do (`Follows.bind`, `Follows.mapM`).

A computation for every item of a list does what its first refused item does (`mapM_eq`, `forM_eq`).
-/
import Mathlib.Data.List.Forall2

namespace BandMath

variable {ε α β γ δ : Type}

/-! ## 1. One computation after another -/

theorem bind_eq_ok_iff {x : Except ε α} {f : α → Except ε β} {b : β} :
    (x >>= f) = .ok b ↔ ∃ a, x = .ok a ∧ f a = .ok b := by
  cases x with
  | error e => simp [bind, Except.bind]
  | ok a => simp [bind, Except.bind]

@[simp] theorem ok_bind (a : α) (f : α → Except ε β) : (Except.ok a >>= f) = f a := rfl

@[simp] theorem error_bind (e : ε) (f : α → Except ε β) : (Except.error e >>= f) = .error e := rfl

/-! ## 2. A function of the result -/

theorem map_eq_ok_iff {x : Except ε α} {f : α → β} {b : β} :
    x.map f = .ok b ↔ ∃ a, x = .ok a ∧ f a = b := by
  cases x with
  | error e => simp [Except.map]
  | ok a => simp [Except.map]

@[simp] theorem map_ok (a : α) (f : α → β) : (Except.ok a : Except ε α).map f = .ok (f a) := rfl

@[simp] theorem map_error (e : ε) (f : α → β) :
    (Except.error e : Except ε α).map f = .error e := rfl

/-! ## 3. Another wording of the refusal -/

theorem mapError_eq_ok_iff {x : Except ε α} {f : ε → δ} {a : α} :
    x.mapError f = .ok a ↔ x = .ok a := by
  cases x with
  | error e => simp [Except.mapError]
  | ok b => simp [Except.mapError]

/-! ## 4. Two computations -/

/-- The second computation does what the first does, up to `R`; where the first is refused, it has
to do so only if `exactly` is set. -/
def Follows (exactly : Bool) (R : α → β → Prop) : Except ε α → Except ε β → Prop
  | .ok a, .ok b => R a b
  | .ok _, .error _ => False
  | .error e, y => exactly = true → y = .error e

namespace Follows

variable {exactly : Bool} {R : α → β → Prop} {S : γ → δ → Prop} {x : Except ε α} {y : Except ε β}

theorem bind {f : α → Except ε γ} {g : β → Except ε δ} (h : Follows exactly R x y)
    (hfg : ∀ a b, R a b → Follows exactly S (f a) (g b)) :
    Follows exactly S (x >>= f) (y >>= g) := by
  cases x with
  | error e =>
    intro hex
    rw [h hex]
    rfl
  | ok a =>
    cases y with
    | error e => exact absurd h id
    | ok b => exact hfg a b h

theorem imp {S : α → β → Prop} (hRS : ∀ a b, R a b → S a b) (h : Follows exactly R x y) :
    Follows exactly S x y := by
  cases x with
  | error e => exact h
  | ok a =>
    cases y with
    | error e => exact absurd h id
    | ok b => exact hRS a b h

theorem exists_ok {a : α} (h : Follows exactly R x y) (hx : x = .ok a) :
    ∃ b, y = .ok b ∧ R a b := by
  subst hx
  cases y with
  | error e => exact absurd h id
  | ok b => exact ⟨b, rfl, h⟩

/-- Where refusals are followed as well, so are results backwards. -/
theorem exists_ok_of_ok {b : β} (h : Follows true R x y) (hy : y = .ok b) :
    ∃ a, x = .ok a ∧ R a b := by
  subst hy
  cases x with
  | error e => exact nomatch h rfl
  | ok a => exact ⟨a, rfl, h⟩

/-- Where a refusal does not have to be followed, only results count. -/
theorem of_map_ok {f : α → γ} {g : β → δ}
    (h : ∀ a, x = .ok a → ∃ b, y = .ok b ∧ S (f a) (g b)) :
    Follows false S (x.map f) (y.map g) := by
  cases x with
  | error e => exact fun hex => nomatch hex
  | ok a =>
    obtain ⟨b, rfl, hab⟩ := h a rfl
    exact hab

theorem refl (x : Except ε α) : Follows exactly Eq x x := by
  cases x with
  | error e => exact fun _ => rfl
  | ok a => exact rfl

theorem eq {x y : Except ε α} (h : Follows true Eq x y) : x = y := by
  cases x with
  | error e => exact (h rfl).symm
  | ok a =>
    obtain ⟨b, rfl, rfl⟩ := h.exists_ok rfl
    rfl

/-- Two computations that are refused together and give a value and its image. -/
theorem eq_map {f : α → β} (h : Follows true (fun a b => b = f a) x y) : y = x.map f := by
  cases x with
  | error e => exact h rfl
  | ok a =>
    obtain ⟨b, hy, rfl⟩ := h.exists_ok rfl
    exact hy

/-- A computation for every item of two lists. -/
theorem mapM {f : α → Except ε γ} {g : β → Except ε δ}
    (hfg : ∀ a b, R a b → Follows exactly S (f a) (g b)) {as : List α} {bs : List β}
    (h : List.Forall₂ R as bs) : Follows exactly (List.Forall₂ S) (as.mapM f) (bs.mapM g) := by
  induction h with
  | nil => exact List.Forall₂.nil
  | cons hab _ ih =>
    rw [List.mapM_cons, List.mapM_cons]
    refine (hfg _ _ hab).bind fun c d hcd => ?_
    exact ih.bind fun cs ds hcds => List.Forall₂.cons hcd hcds

end Follows

/-! ## 5. Related lists -/

/-- What computations for all items of a list give, item by item. -/
theorem forall₂_of_mapM {f : α → Except ε β} : ∀ {as : List α} {bs : List β},
    as.mapM f = .ok bs → List.Forall₂ (fun a b => f a = .ok b) as bs
  | [], bs, h => by
    obtain rfl := Except.ok.inj h
    exact .nil
  | a :: as, bs, h => by
    rw [List.mapM_cons] at h
    obtain ⟨b, hb, h⟩ := bind_eq_ok_iff.mp h
    obtain ⟨rest, hrest, h⟩ := bind_eq_ok_iff.mp h
    obtain rfl := Except.ok.inj h
    exact .cons hb (forall₂_of_mapM hrest)

/-- Related items, item by item. -/
theorem exists_forall₂ {R : α → β → Prop} {as : List α} (h : ∀ a ∈ as, ∃ b, R a b) :
    ∃ bs, List.Forall₂ R as bs := by
  induction as with
  | nil => exact ⟨[], .nil⟩
  | cons a as ih =>
    obtain ⟨b, hb⟩ := h a (List.mem_cons_self ..)
    obtain ⟨bs, hbs⟩ := ih fun c hc => h c (List.mem_cons_of_mem _ hc)
    exact ⟨b :: bs, .cons hb hbs⟩

/-- What follows for the related item, item by item. -/
theorem forall_of_forall₂ {R : α → β → Prop} {Q : β → Prop} {as : List α} {bs : List β}
    (h : List.Forall₂ R as bs) (hQ : ∀ a ∈ as, ∀ b, R a b → Q b) : ∀ b ∈ bs, Q b := by
  induction h with
  | nil => exact fun b hb => absurd hb List.not_mem_nil
  | @cons a b as bs hab _ ih =>
    intro c hc
    rcases List.mem_cons.mp hc with rfl | hc
    · exact hQ a (List.mem_cons_self ..) _ hab
    · exact ih (fun a ha => hQ a (List.mem_cons_of_mem _ ha)) c hc

/-- Two lists whose items answer alike. -/
theorem map_eq_of_forall₂ {f : α → γ} {g : β → γ} {as : List α} {bs : List β}
    (h : List.Forall₂ (fun a b => f a = g b) as bs) : as.map f = bs.map g := by
  induction h with
  | nil => rfl
  | cons hab _ ih => rw [List.map_cons, List.map_cons, hab, ih]

/-- Searching two lists whose items answer alike. -/
theorem findSome?_of_forall₂ {f : α → Option γ} {g : β → Option γ} {as : List α} {bs : List β}
    (h : List.Forall₂ (fun a b => f a = g b) as bs) : as.findSome? f = bs.findSome? g := by
  induction h with
  | nil => rfl
  | cons hab _ ih => rw [List.findSome?_cons, List.findSome?_cons, hab, ih]

/-- Collecting from two lists whose items answer alike. -/
theorem filterMap_of_forall₂ {f : α → Option γ} {g : β → Option γ} {as : List α} {bs : List β}
    (h : List.Forall₂ (fun a b => f a = g b) as bs) : as.filterMap f = bs.filterMap g := by
  induction h with
  | nil => rfl
  | cons hab _ ih => rw [List.filterMap_cons, List.filterMap_cons, hab, ih]

/-! ## 6. The first refusal -/

/-- Why a computation is refused, if it is. -/
def refusal? : Except ε α → Option ε
  | .error e => some e
  | .ok _ => none

@[simp] theorem refusal?_ok (a : α) : refusal? (.ok a : Except ε α) = none := rfl

@[simp] theorem refusal?_error (e : ε) : refusal? (.error e : Except ε α) = some e := rfl

theorem refusal?_eq_none_iff {x : Except ε α} : refusal? x = none ↔ ∃ a, x = .ok a := by
  cases x with
  | error e => simp
  | ok a => simp

theorem refusal?_eq_some_iff {x : Except ε α} {e : ε} : refusal? x = some e ↔ x = .error e := by
  cases x with
  | error e' => simp
  | ok a => simp

theorem refusal?_map {x : Except ε α} {f : α → β} : refusal? (x.map f) = refusal? x := by
  cases x with
  | error e => rfl
  | ok a => rfl

/-- Computations that are refused together are refused for the same reason. -/
theorem Follows.refusal?_eq {R : α → β → Prop} {x : Except ε α} {y : Except ε β}
    (h : Follows true R x y) : refusal? x = refusal? y := by
  cases x with
  | error e => rw [h rfl, refusal?_error, refusal?_error]
  | ok a =>
    obtain ⟨b, rfl, -⟩ := h.exists_ok rfl
    rfl

/-- The result, unless there is a reason to refuse it. -/
def unlessRefused (reason? : Option ε) (a : α) : Except ε α :=
  match reason? with
  | some e => .error e
  | none => .ok a

@[simp] theorem unlessRefused_none (a : α) : unlessRefused (none : Option ε) a = .ok a := rfl

@[simp] theorem unlessRefused_some (e : ε) (a : α) : unlessRefused (some e) a = .error e := rfl

theorem refusal?_unlessRefused (reason? : Option ε) (a : α) :
    refusal? (unlessRefused reason? a) = reason? := by
  cases reason? with
  | none => rfl
  | some e => rfl

/-- **The first refused item decides.**  Without one, all results are there, in order. -/
theorem mapM_eq (f : α → Except ε β) : ∀ as : List α,
    as.mapM f = unlessRefused (as.findSome? fun a => refusal? (f a))
      (as.filterMap fun a => (f a).toOption)
  | [] => rfl
  | a :: as => by
    rw [List.mapM_cons, mapM_eq f as, List.findSome?_cons, List.filterMap_cons]
    cases f a with
    | error e => rfl
    | ok b =>
      rw [refusal?_ok, ok_bind]
      cases as.findSome? fun a => refusal? (f a) with
      | some e => rfl
      | none => rfl

theorem forM_eq (f : α → Except ε PUnit) : ∀ as : List α,
    as.forM f = unlessRefused (as.findSome? fun a => refusal? (f a)) ⟨⟩
  | [] => rfl
  | a :: as => by
    have hcons : (a :: as).forM f = f a >>= fun _ => as.forM f := rfl
    rw [hcons, forM_eq f as, List.findSome?_cons]
    cases f a with
    | error e => rfl
    | ok u => rfl

end BandMath
