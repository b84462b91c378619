/-
# What validation depends on

Bindings are validated for the required symbols one by one.  So validation looks at no other symbol,
and whoever gets past it may rely on every required symbol.

Both directions are of use.  `mem_of_validate` is what evaluation relies on: after validation no
required symbol is found unbound.  `validate_of_forall_mem` is what callers rely on who have bound
everything.  The error is left out of both; it is the first missing symbol by definition, and that
matters only where errors are compared (`BandMath.Proofs.CommandLine.Shortages`).

What validation does not look at is said by congruence: bindings that agree on the required symbols
miss the same symbols (`missingSymbols_congr`) and are validated alike (`validate_congr`).
-/
import BandMath.Proofs.Bindings
import BandMath.Validation

namespace BandMath

variable {α : Type} {subject s : String} {required : List String} {b b' : Bindings α}

theorem mem_of_validate (h : validate subject required b = .ok ()) (hs : s ∈ required) :
    s ∈ b := by
  unfold validate at h
  split at h
  · rename_i hmissing
    have hcontains := List.filter_eq_nil_iff.mp hmissing s hs
    rwa [Bool.not_eq_true, Bool.not_eq_false', Std.ExtTreeMap.contains_iff_mem] at hcontains
  · exact nomatch h

theorem validate_of_forall_mem (h : ∀ s ∈ required, s ∈ b) :
    validate subject required b = .ok () := by
  have hmissing : missingSymbols required b = [] :=
    List.filter_eq_nil_iff.mpr fun s hs => by simp [h s hs]
  rw [validate, hmissing]

/-- Whether a symbol is bound is read off its look-up. -/
theorem contains_congr (h : b[s]? = b'[s]?) : b.contains s = b'.contains s := by
  rw [Std.ExtTreeMap.contains_eq_isSome_getElem?, Std.ExtTreeMap.contains_eq_isSome_getElem?, h]

theorem missingSymbols_congr (h : Bindings.AgreeOn required b b') :
    missingSymbols required b = missingSymbols required b' :=
  List.filter_congr fun s hs => by rw [contains_congr (h s hs)]

theorem validate_congr (h : Bindings.AgreeOn required b b') :
    validate subject required b = validate subject required b' := by
  rw [validate, validate, missingSymbols_congr h]

end BandMath
