/-
# What deferred columns and tables describe

A deferred series describes a series with its labels when its values describe the values of that
series.  Names are kept out of this: they are not deferred, and where a deferred column meets a
given one, not the same name is kept as between two given ones.  Up to its name, a deferred series
computes what it describes (`Describes.compute`); a table, whose columns have names of their own,
does so exactly (`LazyFrame.compute_eq`).

`Describes` asks two things: the labels of the deferred series are those of the series, and its
values describe the array of that series.  It is kept by every operation (`Describes.binary`,
`Describes.binarySeries`, `Describes.seriesBinary` and those with a number), where the operation on
the described series leads, except for its name, to what is described.

The cases of arithmetic have one lemma in common, `describes_zipWith`: columns with the same labels
are combined when their values are.

A table is computed column by column.  Names of series play no part in making a table
(`Frame.ofSeries_unnamed`), so a deferred table computes the table of what its columns describe, and
there is one whenever there is the other (`LazyFrame.exists_ofSeries`).
-/
import BandMath.Deferred.LazySeries
import BandMath.Proofs.Deferred.LazyArray
import BandMath.Proofs.Labeled.Column

namespace BandMath

open Deferred NDArray

namespace LazySeries

/-! ## 1. Columns -/

/-- The deferred series stands for the series, up to their names. -/
structure Describes (s : LazySeries) (t : Series) : Prop where
  index : s.index = t.index
  fits : t.Fits
  values : s.values.Describes t.array

variable {s s' u : LazySeries} {t t' : Series} {op : BinaryOp}

theorem Describes.congr (h : s.Describes t) (ht : t.unnamed = t'.unnamed) : s.Describes t' := by
  refine ⟨h.index.trans (Series.unnamed_eq_iff.mp ht).1, Series.fits_of_unnamed_eq h.fits ht, ?_⟩
  rw [← Series.array_eq_of_unnamed_eq ht]
  exact h.values

/-- **A deferred series computes what it describes**, under its own name. -/
theorem Describes.compute (h : s.Describes t) (mode : Mode) :
    s.compute mode = .ok { t with name := s.name } := by
  have hlength : s.index.length = (Series.ofList t.array.toList).length := by
    rw [h.index, h.fits]
    simp [Series.ofList, Series.length, Series.array, NDArray.toList]
  have hrank : ¬ t.array.rank ≠ 1 := not_not.mpr rfl
  unfold LazySeries.compute
  rw [h.values.compute mode, ok_bind]
  dsimp only
  rw [if_neg hrank, Series.withIndex, if_pos hlength, h.index]
  rfl

theorem describes_ofSeries {size : Nat} (ht : t.Fits) (h : ofSeries t size = .ok s) :
    s.Describes t := by
  obtain ⟨values, hvalues, hs⟩ := bind_eq_ok_iff.mp h
  obtain rfl := Except.ok.inj hs
  exact ⟨rfl, ht, LazyArray.describes_ofArray hvalues⟩

theorem Describes.withName (h : s.Describes t) (name : String) : (s.withName name).Describes t :=
  ⟨h.index, h.fits, h.values⟩

/-! ## 2. Arithmetic -/

theorem Describes.binaryNumber (h : s.Describes t) (v : Float) :
    (s.binaryNumber op v).Describes (t.map fun x => op.apply x v) := by
  refine ⟨h.index, Series.fits_map h.fits _, ?_⟩
  rw [Series.array_map]
  exact h.values.binaryNumber v

theorem Describes.numberBinary (h : s.Describes t) (v : Float) :
    (LazySeries.numberBinary op v s).Describes (t.map fun x => op.apply v x) := by
  refine ⟨h.index, Series.fits_map h.fits _, ?_⟩
  rw [Series.array_map]
  exact h.values.numberBinary v

theorem Describes.unary {op : UnaryOp} (h : s.Describes t) :
    (s.unary op).Describes (t.map op.apply) := by
  refine ⟨h.index, Series.fits_map h.fits _, ?_⟩
  rw [Series.array_map]
  exact h.values.unary

/-- Columns with the same labels are combined when their values are. -/
theorem describes_zipWith {f : Float → Float → Float} {values : LazyArray} {name : Option String}
    (ht : t.Fits) (ht' : t'.Fits) (hindex : t.index = t'.index)
    (h : ∃ c, NDArray.zipWith f t.array t'.array = .ok c ∧ values.Describes c) :
    ∃ r, t.zipWith f t' = .ok r ∧ Describes ⟨name, t.index, values⟩ r := by
  have hr := (Series.zipWith_eq_ok_iff (f := f)).mpr ⟨hindex, rfl⟩
  refine ⟨_, hr, rfl, Series.fits_zipWith ht ht' hr, ?_⟩
  obtain ⟨c, hc, hvalues⟩ := h
  rw [Series.array_zipWith ht ht' hr] at hc
  obtain rfl := Except.ok.inj hc
  exact hvalues

/-- What a successful combination of two deferred series is. -/
theorem binary_eq_ok (h : s.binary op s' = .ok u) : s.index = s'.index ∧
    ∃ values, s.values.binary op s'.values = .ok values ∧
      u = ⟨commonName s.name s'.name, s.index, values⟩ := by
  unfold LazySeries.binary at h
  dsimp only at h
  split at h
  · exact nomatch h
  · rename_i hindex
    obtain ⟨values, hvalues, h⟩ := bind_eq_ok_iff.mp h
    exact ⟨not_not.mp hindex, values, hvalues, (Except.ok.inj h).symm⟩

theorem binarySeries_eq_ok (h : s.binarySeries op t = .ok u) : s.index = t.index ∧
    ∃ values, s.values.binaryArray op t.array = .ok values ∧ u = ⟨s.name, s.index, values⟩ := by
  unfold LazySeries.binarySeries at h
  dsimp only at h
  split at h
  · exact nomatch h
  · rename_i hindex
    obtain ⟨values, hvalues, h⟩ := bind_eq_ok_iff.mp h
    exact ⟨not_not.mp hindex, values, hvalues, (Except.ok.inj h).symm⟩

theorem seriesBinary_eq_ok (h : LazySeries.seriesBinary op t s = .ok u) : s.index = t.index ∧
    ∃ values, LazyArray.arrayBinary op t.array s.values = .ok values ∧
      u = ⟨s.name, s.index, values⟩ := by
  unfold LazySeries.seriesBinary at h
  dsimp only at h
  split at h
  · exact nomatch h
  · rename_i hindex
    obtain ⟨values, hvalues, h⟩ := bind_eq_ok_iff.mp h
    exact ⟨not_not.mp hindex, values, hvalues, (Except.ok.inj h).symm⟩

theorem Describes.binary (hs : s.Describes t) (hs' : s'.Describes t')
    (h : s.binary op s' = .ok u) : ∃ r, t.zipWith op.apply t' = .ok r ∧ u.Describes r := by
  obtain ⟨hindex, values, hvalues, rfl⟩ := binary_eq_ok h
  have hsame : t.index = t'.index := by
    rw [← hs.index, ← hs'.index, hindex]
  rw [hs.index]
  exact describes_zipWith hs.fits hs'.fits hsame (hs.values.binary hs'.values hvalues)

theorem Describes.binarySeries (hs : s.Describes t) (ht' : t'.Fits)
    (h : s.binarySeries op t' = .ok u) :
    ∃ r, t.zipWith op.apply t' = .ok r ∧ u.Describes r := by
  obtain ⟨hindex, values, hvalues, rfl⟩ := binarySeries_eq_ok h
  have hsame : t.index = t'.index := by
    rw [← hs.index, hindex]
  rw [hs.index]
  exact describes_zipWith hs.fits ht' hsame (hs.values.binaryArray hvalues)

theorem Describes.seriesBinary (hs : s.Describes t) (ht' : t'.Fits)
    (h : LazySeries.seriesBinary op t' s = .ok u) :
    ∃ r, t'.zipWith op.apply t = .ok r ∧ u.Describes r := by
  obtain ⟨hindex, values, hvalues, rfl⟩ := seriesBinary_eq_ok h
  rw [hindex]
  exact describes_zipWith ht' hs.fits (hindex.symm.trans hs.index)
    (hs.values.arrayBinary hvalues)

/-! ## 3. All deferred columns -/

/-- The deferred series that can be made. -/
inductive Built : LazySeries → Prop
  | ofSeries {t : Series} {size : Nat} {s : LazySeries} (ht : t.Fits)
      (h : ofSeries t size = .ok s) : Built s
  | withName {s : LazySeries} (hs : Built s) (name : String) : Built (s.withName name)
  | binary {op : BinaryOp} {s s' u : LazySeries} (hs : Built s) (hs' : Built s')
      (h : s.binary op s' = .ok u) : Built u
  | binaryNumber {s : LazySeries} (hs : Built s) (op : BinaryOp) (v : Float) :
      Built (s.binaryNumber op v)
  | numberBinary {s : LazySeries} (hs : Built s) (op : BinaryOp) (v : Float) :
      Built (numberBinary op v s)
  | binarySeries {op : BinaryOp} {s u : LazySeries} {t : Series} (hs : Built s) (ht : t.Fits)
      (h : s.binarySeries op t = .ok u) : Built u
  | seriesBinary {op : BinaryOp} {s u : LazySeries} {t : Series} (hs : Built s) (ht : t.Fits)
      (h : seriesBinary op t s = .ok u) : Built u
  | unary {s : LazySeries} (hs : Built s) (op : UnaryOp) : Built (s.unary op)

/-- **Every deferred series describes a series.** -/
theorem Built.exists_describes (h : s.Built) : ∃ t, s.Describes t := by
  induction h with
  | ofSeries ht h => exact ⟨_, describes_ofSeries ht h⟩
  | withName _ name ih =>
    obtain ⟨t, ht⟩ := ih
    exact ⟨t, ht.withName name⟩
  | binary _ _ h ih ih' =>
    obtain ⟨t, ht⟩ := ih
    obtain ⟨t', ht'⟩ := ih'
    obtain ⟨r, -, hr⟩ := ht.binary ht' h
    exact ⟨r, hr⟩
  | binaryNumber _ op v ih =>
    obtain ⟨t, ht⟩ := ih
    exact ⟨_, ht.binaryNumber v⟩
  | numberBinary _ op v ih =>
    obtain ⟨t, ht⟩ := ih
    exact ⟨_, ht.numberBinary v⟩
  | binarySeries _ hr h ih =>
    obtain ⟨t, ht⟩ := ih
    obtain ⟨u, -, hu⟩ := ht.binarySeries hr h
    exact ⟨u, hu⟩
  | seriesBinary _ hr h ih =>
    obtain ⟨t, ht⟩ := ih
    obtain ⟨u, -, hu⟩ := ht.seriesBinary hr h
    exact ⟨u, hu⟩
  | unary _ op ih =>
    obtain ⟨t, ht⟩ := ih
    exact ⟨_, ht.unary⟩

/-- The values of a deferred series are a deferred array like any other. -/
theorem Built.values (h : s.Built) : s.values.Built := by
  induction h with
  | ofSeries _ h =>
    obtain ⟨values, hvalues, hs⟩ := bind_eq_ok_iff.mp h
    obtain rfl := Except.ok.inj hs
    exact .ofArray hvalues
  | withName _ _ ih => exact ih
  | binary _ _ h ih ih' =>
    obtain ⟨-, values, hvalues, rfl⟩ := binary_eq_ok h
    exact ih.binary ih' hvalues
  | binaryNumber _ op v ih => exact ih.binaryNumber op v
  | numberBinary _ op v ih => exact ih.numberBinary op v
  | binarySeries _ _ h ih =>
    obtain ⟨-, values, hvalues, rfl⟩ := binarySeries_eq_ok h
    exact ih.binaryArray hvalues
  | seriesBinary _ _ h ih =>
    obtain ⟨-, values, hvalues, rfl⟩ := seriesBinary_eq_ok h
    exact ih.arrayBinary hvalues
  | unary _ op ih => exact ih.unary op

/-! ## 4. Tables -/

theorem mapM_compute {ss : List LazySeries} {ts : List Series} (h : List.Forall₂ Describes ss ts)
    (mode : Mode) : ∃ us, ss.mapM (LazySeries.compute mode) = .ok us ∧
      us.map Series.unnamed = ts.map Series.unnamed := by
  induction h with
  | nil => exact ⟨[], rfl, rfl⟩
  | @cons s t ss ts hs _ ih =>
    obtain ⟨us, hus, hsame⟩ := ih
    refine ⟨{ t with name := s.name } :: us, ?_, congrArg (List.cons t.unnamed) hsame⟩
    rw [List.mapM_cons, hs.compute mode, ok_bind, hus, ok_bind]
    rfl

end LazySeries

/-- A table does not see the names of the series that it is made of. -/
theorem Frame.ofSeries_unnamed (names : List String) (ts : List Series) :
    Frame.ofSeries names (ts.map Series.unnamed) = Frame.ofSeries names ts := by
  unfold Frame.ofSeries
  dsimp only
  rw [List.length_map, List.head?_map, Option.map_map, List.all_map, List.map_map]
  rfl

theorem LazySeries.map_index {ss : List LazySeries} {ts : List Series}
    (h : List.Forall₂ LazySeries.Describes ss ts) :
    ss.map (·.index) = ts.map (·.index) := by
  induction h with
  | nil => rfl
  | cons hs _ ih => rw [List.map_cons, List.map_cons, hs.index, ih]

/-- **A deferred table computes the table of what its columns describe.** -/
theorem LazyFrame.compute_eq {f : LazyFrame} {ts : List Series}
    (h : List.Forall₂ LazySeries.Describes f.series ts) (mode : Mode) :
    f.compute mode = Frame.ofSeries f.columns ts := by
  obtain ⟨us, hus, hsame⟩ := LazySeries.mapM_compute h mode
  rw [LazyFrame.compute, hus, ok_bind, ← Frame.ofSeries_unnamed, hsame, Frame.ofSeries_unnamed]

/-- Deferred columns make a table when what they describe does. -/
theorem LazyFrame.exists_ofSeries {f g : LazyFrame} {ss : List LazySeries} {ts : List Series}
    {labels : List String} (h : List.Forall₂ LazySeries.Describes ss ts)
    (hf : concat ss = .ok f) (hg : f.rename labels = .ok g) :
    ∃ t, Frame.ofSeries labels ts = .ok t ∧ ∀ mode, g.compute mode = .ok t := by
  unfold concat at hf
  dsimp only at hf
  split at hf
  · rename_i hall
    obtain rfl := Except.ok.inj hf
    unfold rename at hg
    split at hg
    · rename_i hlabels
      obtain rfl := Except.ok.inj hg
      have hlength : labels.length = ts.length := by
        rw [hlabels, List.length_mapIdx, h.length_eq]
      -- whether the labels agree can be read off the list of them
      have hsame :
          (ts.all fun t => decide (t.index = (ts.head?.map (·.index)).getD [])) = true := by
        calc (ts.all fun t => decide (t.index = (ts.head?.map (·.index)).getD []))
            = (ts.map (·.index)).all fun i => decide (i = (ts.map (·.index)).head?.getD []) := by
              rw [List.all_map, List.head?_map]
              rfl
          _ = (ss.map (·.index)).all fun i => decide (i = (ss.map (·.index)).head?.getD []) := by
              rw [LazySeries.map_index h]
          _ = ss.all fun s => decide (s.index = (ss.head?.map (·.index)).getD []) := by
              rw [List.all_map, List.head?_map]
              rfl
          _ = true := hall
      have hframe : ∃ t, Frame.ofSeries labels ts = .ok t := by
        unfold Frame.ofSeries
        dsimp only
        rw [if_neg (not_not.mpr hlength), if_pos hsame]
        exact ⟨_, rfl⟩
      obtain ⟨t, ht⟩ := hframe
      exact ⟨t, ht, fun mode => (compute_eq h mode).trans ht⟩
    · exact nomatch hg
  · exact nomatch hf

end BandMath
