/-
# Labels fit the data wherever they come from

The series, tables and labeled arrays that can be made are those that the operations make
(`Value.Built`): one rule for each way to make one from data, to change its labels, to take a part
of it, to put several together and to calculate with it.  Everything that is made fits
(`Value.Built.fits`, by induction on how it is made).  Arithmetic of any two values is among the
rules, so this covers what a formula makes of its operands.

So arithmetic of two series never meets columns of different lengths once the labels are the same,
and a label or a name that is found is that of something which is there (`built_fits`).

Whatever has no labels is taken as given in `Value.Built`, arrays, numbers and handles; so are
deferred values, of which only what they compute to has to fit.  Combined results are not a rule of
their own: tables and concatenations are, and combining makes nothing else.

What fitting means for each type, and that its operations keep it, is in
`BandMath.Proofs.Labeled.Column` and `BandMath.Proofs.Labeled.Fitting`.
-/
import BandMath.Proofs.Labeled.Fitting
import BandMath.Proofs.Value.Labeled

namespace BandMath

/-! ## 1. Computing what is deferred -/

theorem LazySeries.fits_compute {s : LazySeries} {mode : Mode} {t : Series}
    (h : s.compute mode = .ok t) : t.Fits := by
  unfold compute at h
  obtain ⟨a, -, h⟩ := bind_eq_ok_iff.mp h
  split at h
  · exact nomatch h
  · obtain ⟨u, hu, h⟩ := bind_eq_ok_iff.mp h
    obtain rfl := Except.ok.inj h
    have hfits : u.Fits := Series.fits_withIndex hu
    exact hfits

theorem LazyFrame.fits_compute {f : LazyFrame} {mode : Mode} {t : Frame}
    (h : f.compute mode = .ok t) : t.Fits := by
  obtain ⟨series, hseries, h⟩ := bind_eq_ok_iff.mp h
  refine Frame.fits_ofSeries ?_ h
  exact forall_of_forall₂ (forall₂_of_mapM hseries) fun _ _ _ hs => LazySeries.fits_compute hs

namespace Value

variable {v w u : Value}

/-! ## 2. Values that fit -/

/-- The labels of the value fit its data. -/
def Fits : Value → Prop
  | series s => s.Fits
  | frame f => f.Fits
  | labeledArray a => a.Fits
  | _ => True

/-- **What an operator makes of two values that fit, fits.** -/
theorem fits_binary {op : BinaryOp} (hv : v.Fits) (hw : w.Fits) (h : binary op v w = .ok u) :
    u.Fits := by
  cases u with
  | series s =>
    cases Family.lawful_series.binary h with
    | members h => exact Series.fits_zipWith hv hw h
    | memberNumber s y => exact Series.fits_map hv _
    | numberMember x t => exact Series.fits_map hw _
    | memberArray h => exact Series.fits_zipArray hv h
    | arrayMember h => exact Series.fits_zipArray hw h
  | labeledArray a =>
    cases Family.lawful_labeledArray.binary h with
    | members h => exact LabeledArray.fits_zipWith hv hw h
    | memberNumber s y => exact LabeledArray.fits_map hv _
    | numberMember x t => exact LabeledArray.fits_map hw _
    | memberArray h => exact LabeledArray.fits_zipArray hv h
    | arrayMember h => exact LabeledArray.fits_zipArray hw h
  | frame f => exact nomatch (kind_of_binary h).2
  | _ => trivial

theorem fits_unary {op : UnaryOp} (hv : v.Fits) (h : unary op v = .ok u) : u.Fits := by
  cases u with
  | series s =>
    obtain ⟨t, rfl, rfl⟩ := Family.lawful_series.unary h
    exact Series.fits_map hv _
  | labeledArray a =>
    obtain ⟨b, rfl, rfl⟩ := Family.lawful_labeledArray.unary h
    exact LabeledArray.fits_map hv _
  | frame f => exact nomatch (kind_of_unary h).2
  | _ => trivial

theorem fits_compute {mode : Mode} (hv : v.Fits) (h : v.compute mode = .ok u) : u.Fits := by
  cases v with
  | lazyArray a =>
    obtain ⟨b, -, rfl⟩ := map_eq_ok_iff.mp h
    trivial
  | lazySeries s =>
    obtain ⟨t, ht, rfl⟩ := map_eq_ok_iff.mp h
    exact LazySeries.fits_compute ht
  | lazyFrame f =>
    obtain ⟨t, ht, rfl⟩ := map_eq_ok_iff.mp h
    exact LazyFrame.fits_compute ht
  | _ =>
    obtain rfl := Except.ok.inj h
    exact hv

/-! ## 3. Values that can be made -/

/-- The values that can be made.  Whatever has no labels is taken as given. -/
inductive Built : Value → Prop
  | unlabeled {v : Value} (h : v.kind ∉ [Kind.series, .frame, .labeledArray]) : Built v
  -- series
  | ofList (values : List Float) : Built (series (.ofList values))
  | withIndex {s t : Series} {index : List String} (hs : Built (series s))
      (h : s.withIndex index = .ok t) : Built (series t)
  | withName {s : Series} (hs : Built (series s)) (name : String) : Built (series (s.withName name))
  | map {s : Series} (hs : Built (series s)) (f : Float → Float) : Built (series (s.map f))
  | zipWith {s t r : Series} {f : Float → Float → Float} (hs : Built (series s))
      (ht : Built (series t)) (h : s.zipWith f t = .ok r) : Built (series r)
  | zipArray {s r : Series} {f : Float → Float → Float} {a : NDArray} (hs : Built (series s))
      (h : s.zipArray f a = .ok r) : Built (series r)
  | column {f : Frame} {name : String} {s : Series} (hf : Built (frame f))
      (h : f.column? name = some s) : Built (series s)
  -- tables
  | ofSeries {names : List String} {columns : List Series} {f : Frame}
      (hs : ∀ s ∈ columns, Built (series s)) (h : Frame.ofSeries names columns = .ok f) :
      Built (frame f)
  -- labeled arrays
  | ofArray {data : NDArray} {dims : List String} {a : LabeledArray}
      (h : LabeledArray.ofArray data dims = .ok a) : Built (labeledArray a)
  | withCoord {a b : LabeledArray} {dim : String} {labels : List String}
      (ha : Built (labeledArray a)) (h : a.withCoord dim labels = .ok b) : Built (labeledArray b)
  | arrayWithName {a : LabeledArray} (ha : Built (labeledArray a)) (name : String) :
      Built (labeledArray (a.withName name))
  | arrayMap {a : LabeledArray} (ha : Built (labeledArray a)) (f : Float → Float) :
      Built (labeledArray (a.map f))
  | arrayZipWith {a b c : LabeledArray} {f : Float → Float → Float} (ha : Built (labeledArray a))
      (hb : Built (labeledArray b)) (h : a.zipWith f b = .ok c) : Built (labeledArray c)
  | arrayZipArray {a c : LabeledArray} {f : Float → Float → Float} {data : NDArray}
      (ha : Built (labeledArray a)) (h : a.zipArray f data = .ok c) : Built (labeledArray c)
  | select {a b : LabeledArray} {dim label : String} (ha : Built (labeledArray a))
      (h : a.select dim label = .ok b) : Built (labeledArray b)
  | concat {arrays : List LabeledArray} {dim : String} {a : LabeledArray}
      (harrays : ∀ b ∈ arrays, Built (labeledArray b))
      (h : LabeledArray.concat arrays dim = .ok a) : Built (labeledArray a)
  -- values
  | binary {op : BinaryOp} {v w u : Value} (hv : Built v) (hw : Built w)
      (h : binary op v w = .ok u) : Built u
  | unary {op : UnaryOp} {v u : Value} (hv : Built v) (h : unary op v = .ok u) : Built u
  | compute {mode : Mode} {v u : Value} (hv : Built v) (h : v.compute mode = .ok u) : Built u

/-- **Everything that is made fits.**  By induction on how it is made. -/
theorem Built.fits (h : v.Built) : v.Fits := by
  induction h with
  | @unlabeled v h =>
    cases v with
    | series | frame | labeledArray => exact absurd (by simp [kind]) h
    | _ => trivial
  | ofList values => exact Series.fits_ofList values
  | withIndex _ h => exact Series.fits_withIndex h
  | withName _ name ih => exact Series.fits_withName ih name
  | map _ f ih => exact Series.fits_map ih f
  | zipWith _ _ h ihs iht => exact Series.fits_zipWith ihs iht h
  | zipArray _ h ih => exact Series.fits_zipArray ih h
  | column _ h ih => exact Frame.Fits.fits_column? ih h
  | ofSeries _ h ih => exact Frame.fits_ofSeries ih h
  | ofArray h => exact LabeledArray.fits_ofArray h
  | withCoord _ h ih => exact LabeledArray.fits_withCoord ih h
  | arrayWithName _ name ih => exact LabeledArray.fits_withName ih name
  | arrayMap _ f ih => exact LabeledArray.fits_map ih f
  | arrayZipWith _ _ h iha ihb => exact LabeledArray.fits_zipWith iha ihb h
  | arrayZipArray _ h ih => exact LabeledArray.fits_zipArray ih h
  | select _ h ih => exact LabeledArray.fits_select ih h
  | concat _ h ih => exact LabeledArray.fits_concat ih h
  | binary _ _ h ihv ihw => exact fits_binary ihv ihw h
  | unary _ h ih => exact fits_unary ih h
  | compute _ h ih => exact fits_compute ih h

/-- **Labels always fit the data.**  Every value that can be made has as many labels as it has
positions to label.  So two series with the same labels are equally long, exactly the labels and the
names of columns that there are can be looked up, and a selection reads within the array. -/
theorem built_fits :
    (∀ v : Value, v.Built → v.Fits) ∧
      (∀ s t : Series, (series s).Built → (series t).Built → s.index = t.index →
        s.values.size = t.values.size) ∧
      (∀ s : Series, (series s).Built → ∀ label, (s.get? label).isSome = true ↔ label ∈ s.index) ∧
      (∀ f : Frame, (frame f).Built → ∀ name,
        (f.column? name).isSome = true ↔ name ∈ f.columns) ∧
      ∀ (a b : LabeledArray) (dim label : String), (labeledArray a).Built →
        a.select dim label = .ok b →
        ∃ i labels k, a.dims.idxOf? dim = some i ∧ a.coord? dim = some labels ∧
          labels.idxOf? label = some k ∧ b.PartAt a i k := by
  refine ⟨fun v h => h.fits, fun s t hs ht hindex => ?_, fun s hs => ?_, fun f hf => ?_,
    fun a b dim label ha h => ?_⟩
  · exact Series.size_eq_of_index_eq hs.fits ht.fits hindex
  · exact Series.Fits.isSome_get?_iff hs.fits
  · exact Frame.Fits.isSome_column?_iff hf.fits
  · exact LabeledArray.partAt_of_select ha.fits h

/-- Two columns of one name, and two axes of one name, the first of which has grown: a selection
drops that axis and the coordinate, and keeps the other axis. -/
theorem built_fits_repeated :
    (∃ s t : Series, s.index = t.index ∧ s.values.size = t.values.size ∧
        (s.get? "v").isSome = true ∧
        ∃ f, Frame.ofSeries ["n", "n"] [s, t] = .ok f ∧ (f.column? "n").isSome = true) ∧
      ∃ a b : LabeledArray, (labeledArray a).Fits ∧ a.dims = ["x", "x"] ∧ a.shape = [4, 2] ∧
        a.coord? "x" = some ["p", "q", "p", "q"] ∧ a.select "x" "q" = .ok b ∧ b.dims = ["x"] ∧
        b.coord? "x" = none ∧ ∃ i labels k, a.dims.idxOf? "x" = some i ∧
          a.coord? "x" = some labels ∧ labels.idxOf? "q" = some k ∧ b.PartAt a i k := by
  constructor
  · let s : Series := ⟨none, ["u", "v"], #[1, 2]⟩
    have hs : (series s).Built :=
      (Built.ofList [1, 2]).withIndex (show Series.withIndex _ ["u", "v"] = .ok _ from rfl)
    have ht : (series (s.map (1 + ·))).Built := hs.map (1 + ·)
    have hf := Built.ofSeries (List.forall_mem_cons.mpr ⟨hs, List.forall_mem_singleton.mpr ht⟩)
      (show Frame.ofSeries ["n", "n"] _ = .ok _ from rfl)
    exact ⟨s, s.map (1 + ·), rfl, built_fits.2.1 _ _ hs ht rfl,
      (built_fits.2.2.1 _ hs "v").mpr (by decide), _, rfl,
      (built_fits.2.2.2.1 _ hf "n").mpr (by decide)⟩
  · have hplain := Built.ofArray
      (show LabeledArray.ofArray (.fill [2, 2] 0) ["x", "x"] = .ok _ from rfl)
    have hsquare := hplain.withCoord
      (show LabeledArray.withCoord _ "x" ["p", "q"] = .ok _ from rfl)
    have hjoined := Built.concat
      (List.forall_mem_cons.mpr ⟨hsquare, List.forall_mem_singleton.mpr hsquare⟩)
      (show LabeledArray.concat _ "x" = .ok _ from rfl)
    exact ⟨_, _, built_fits.1 _ hjoined, rfl, rfl, rfl, rfl, rfl, rfl,
      built_fits.2.2.2.2 _ _ "x" "q" hjoined rfl⟩

end Value

end BandMath
