/-
# Deferred values can always be computed

A task does not store shapes, and neither its block numbers nor the pairing of its blocks are
checked where it is evaluated.  What makes this right is a relation between a task and the layout
above it: chunk `i` of the task can be evaluated without leaving the chunks of a source or the
inputs of a stack, and wherever two arrays meet they have one shape (`Deferred.Task.Safe`).

The relation is not kept by the tasks alone.  It holds for every task of a deferred array that can
be made (`LazyArray.Built.safe`, by induction on how it is made), because the array that is
described fixes the shape of every block.  From it and from what is described follows all that a
caller relies on (`built_realizable`): a deferred array, column or table is computed in every mode,
with the shape, the labels and the columns that it had announced.
-/
import BandMath.Proofs.Deferred.LazySeries
import BandMath.Proofs.Labeled.Concatenation

namespace BandMath

open Deferred NDArray

/-! ## 1. Tasks -/

namespace Deferred.Task

/-- Chunk `i` of the task can be evaluated: the source has that chunk and covers it, the stack has
that input and every chunk of the input can be evaluated in turn, and two arrays that meet have one
shape, so that nothing is stretched. -/
inductive Safe : Task → Nat → Prop
  | source {a : NDArray} {chunks : List Nat} {i : Nat} (hi : i < chunks.length)
      (ha : a.Leads (total chunks)) : Safe (.source a chunks) i
  | constant (v : Float) (i : Nat) : Safe (.constant v) i
  | binary {op : BinaryOp} {left right : Task} {i : Nat} (hleft : Safe left i)
      (hright : Safe right i)
      (hshape : ∀ a b, left.block i = .ok (.array a) → right.block i = .ok (.array b) →
        a.shape = b.shape) : Safe (.binary op left right) i
  | unary {op : UnaryOp} {input : Task} {i : Nat} (h : Safe input i) : Safe (.unary op input) i
  | stack {inputs : List (Layout × Task)} {layout : Layout} {input : Task} {i : Nat}
      (hi : inputs[i]? = some (layout, input))
      (h : ∀ j < layout.chunks.length, Safe input j) : Safe (.stack inputs) i

variable {t u : Task} {chunks : List Nat} {a b : NDArray} {i : Nat}

/-- The shape of a block is fixed by the array that the task gives. -/
theorem Yields.shape_eq (h : t.Yields chunks a) (hi : i < chunks.length)
    (hb : t.block i = .ok (.array b)) : b.shape = chunks.getD i 0 :: a.shape.tail := by
  rw [h i hi] at hb
  obtain rfl := Block.array.inj (Except.ok.inj hb)
  rfl

/-- Tasks that give arrays of one shape meet in blocks of one shape. -/
theorem Safe.binary_of_yields {op : BinaryOp} (ht : t.Yields chunks a) (hu : u.Yields chunks b)
    (hshape : a.shape = b.shape) (hi : i < chunks.length) (hts : t.Safe i) (hus : u.Safe i) :
    (Task.binary op t u).Safe i := by
  refine .binary hts hus fun x y hx hy => ?_
  rw [ht.shape_eq hi hx, hu.shape_eq hi hy, hshape]

end Deferred.Task

/-! ## 2. Arrays -/

namespace LazyArray

variable {l r : LazyArray} {a b : NDArray} {i : Nat}

/-- A given array that takes the chunks of a deferred one has all of them. -/
theorem Describes.safe_source (hl : l.Describes a) (hb : b.shape = l.shape)
    (hi : i < l.layout.chunks.length) : (Task.source b l.layout.chunks).Safe i :=
  .source hi (hl.cuts_of_shape_eq hb).leads

/-- **Every chunk of a deferred array can be evaluated.**  By induction on how the array is made;
that two operands meet in blocks of one shape is read off the arrays that they describe. -/
theorem Built.safe (h : l.Built) : ∀ i < l.layout.chunks.length, l.task.Safe i := by
  induction h with
  | ofArray h =>
    have hleads := (describes_ofArray h).cuts.leads
    obtain ⟨-, rfl⟩ := ofArray_eq_ok h
    exact fun i hi => .source hi hleads
  | binary hl hr h ihl ihr =>
    intro i hi
    obtain ⟨a, ha⟩ := hl.exists_describes
    obtain ⟨b, hb⟩ := hr.exists_describes
    obtain ⟨hshape, hchunks, rfl⟩ := binary_eq_ok h
    have hab : a.shape = b.shape := by
      rw [ha.shape_eq, hb.shape_eq, hshape]
    exact .binary_of_yields ha.task (hchunks ▸ hb.task) hab hi (ihl i hi) (ihr i (hchunks ▸ hi))
  | binaryNumber _ op v ih =>
    exact fun i hi => .binary (ih i hi) (.constant v i) fun _ _ _ hv => nomatch hv
  | numberBinary _ op v ih =>
    exact fun i hi => .binary (.constant v i) (ih i hi) fun _ _ hv _ => nomatch hv
  | binaryArray hl h ih =>
    intro i hi
    obtain ⟨a, ha⟩ := hl.exists_describes
    obtain ⟨hb, rfl⟩ := binaryArray_eq_ok h
    exact .binary_of_yields ha.task (Task.yields_source _ _) (ha.shape_eq.trans hb.symm) hi
      (ih i hi) (ha.safe_source hb hi)
  | arrayBinary hl h ih =>
    intro i hi
    obtain ⟨a, ha⟩ := hl.exists_describes
    obtain ⟨hb, rfl⟩ := arrayBinary_eq_ok h
    exact .binary_of_yields (Task.yields_source _ _) ha.task (hb.trans ha.shape_eq.symm) hi
      (ha.safe_source hb hi) (ih i hi)
  | unary _ op ih => exact fun i hi => .unary (ih i hi)
  | @stack ls m _ h ih =>
    cases ls with
    | nil => exact nomatch h
    | cons l ls =>
      obtain ⟨-, rfl⟩ := stack_eq_ok h
      intro i hi
      have hlt : i < (l :: ls).length := by
        rwa [List.length_replicate] at hi
      have hget : (l :: ls)[i]? = some (l :: ls)[i] := List.getElem?_eq_getElem hlt
      refine .stack ?_ (ih _ (List.getElem_mem hlt))
      rw [List.getElem?_map, hget]
      rfl

/-- What a deferred array must offer to be computed: its chunks cover the leading axis, each chunk
can be evaluated to an array of its own shape, and so can the whole, in any mode. -/
structure Realizable (l : LazyArray) : Prop where
  chunks_ne_nil : l.chunks ≠ []
  leads : l.shape = total l.chunks :: l.shape.tail
  safe : ∀ i < l.chunks.length, l.task.Safe i
  block : ∀ (i : Nat) (hi : i < l.chunks.length), ∃ a, l.task.block i = .ok (.array a) ∧
    a.shape = l.chunks[i] :: l.shape.tail
  compute : ∀ mode, ∃ a, l.compute mode = .ok a ∧ a.shape = l.shape

theorem Built.realizable (h : l.Built) : l.Realizable := by
  obtain ⟨a, ha⟩ := h.exists_describes
  have hleads : a.Leads (total l.chunks) := ha.cuts.leads
  rw [Leads, ha.shape_eq] at hleads
  refine ⟨ha.cuts.chunks, hleads, h.safe, fun i hi => ?_, fun mode => ?_⟩
  · refine ⟨_, ha.task i hi, ?_⟩
    rw [ha.task.shape_eq hi (ha.task i hi), ha.shape_eq]
    exact congrArg (· :: l.shape.tail) ((List.getElem_eq_getD 0).symm)
  · exact ⟨a, ha.compute mode, ha.shape_eq⟩

end LazyArray

/-! ## 3. Columns -/

namespace LazySeries

variable {s : LazySeries}

/-- What a deferred column must offer: values that can be computed, one for each label, and a
series of them under its labels and its name, in any mode. -/
structure Realizable (s : LazySeries) : Prop where
  values : s.values.Realizable
  shape : s.values.shape = [s.length]
  compute : ∀ mode, ∃ t, s.compute mode = .ok t ∧ t.index = s.index ∧ t.length = s.length ∧
    t.name = s.name

theorem Built.realizable (h : s.Built) : s.Realizable := by
  obtain ⟨t, ht⟩ := h.exists_describes
  have hlength : t.length = s.length := by
    rw [LazySeries.length, ht.index, ht.fits]
  refine ⟨h.values.realizable, ?_, fun mode => ?_⟩
  · rw [← ht.values.shape_eq, ← hlength]
    rfl
  · exact ⟨_, ht.compute mode, ht.index.symm, hlength, rfl⟩

end LazySeries

/-! ## 4. Tables -/

namespace LazyFrame

variable {f : LazyFrame}

/-- The deferred tables that can be made. -/
inductive Built : LazyFrame → Prop
  | concat {ss : List LazySeries} {f : LazyFrame} (hss : ∀ s ∈ ss, s.Built)
      (h : concat ss = .ok f) : Built f
  | rename {f g : LazyFrame} {names : List String} (hf : Built f) (h : f.rename names = .ok g) :
      Built g

/-- What a deferred table must offer: a table under its column names, each column as long as there
are row labels, in any mode. -/
structure Realizable (f : LazyFrame) : Prop where
  series : ∀ s ∈ f.series, s.Realizable
  compute : ∀ mode, ∃ t, f.compute mode = .ok t ∧ t.columns = f.columns ∧
    t.data.length = f.columns.length ∧ (∀ s ∈ f.series, t.index = s.index) ∧
    ∀ values ∈ t.data, values.size = t.index.length

/-- A deferred table is made of its columns in one step, and named in another. -/
theorem Built.exists_concat (h : f.Built) : (∀ s ∈ f.series, s.Built) ∧
    ∃ g, LazyFrame.concat f.series = .ok g ∧ g.rename f.columns = .ok f := by
  induction h with
  | concat hss h =>
    have hconcat := h
    unfold LazyFrame.concat at h
    dsimp only at h
    split at h
    · obtain rfl := Except.ok.inj h
      exact ⟨hss, _, hconcat, if_pos rfl⟩
    · exact nomatch h
  | @rename f g names _ h ih =>
    obtain ⟨hss, f₀, hconcat, hnamed⟩ := ih
    unfold LazyFrame.rename at h hnamed
    split at h
    · rename_i hlength
      split at hnamed
      · rename_i hlength₀
        obtain rfl := Except.ok.inj h
        refine ⟨hss, f₀, hconcat, ?_⟩
        have hf : ⟨f.columns, f₀.series⟩ = f := Except.ok.inj hnamed
        rw [LazyFrame.rename, if_pos (hlength.trans hlength₀), ← hf]
      · exact nomatch hnamed
    · exact nomatch h

theorem Built.realizable (h : f.Built) : f.Realizable := by
  obtain ⟨hbuilt, f₀, hconcat, hnamed⟩ := h.exists_concat
  obtain ⟨ts, hts⟩ := exists_forall₂ fun s hs => (hbuilt s hs).exists_describes
  obtain ⟨t, ht, hcompute⟩ := exists_ofSeries hts hconcat hnamed
  obtain ⟨hlength, hindex, hcolumns, hdata⟩ := Frame.ofSeries_eq_ok ht
  have hlabels : ∀ labels ∈ f.series.map (·.index), t.index = labels := by
    rw [LazySeries.map_index hts]
    intro labels hlabels
    obtain ⟨u, hu, rfl⟩ := List.mem_map.mp hlabels
    exact (hindex u hu).symm
  have hfits : ∀ u ∈ ts, u.Fits := forall_of_forall₂ hts fun _ _ _ hu => hu.fits
  refine ⟨fun s hs => (hbuilt s hs).realizable,
    fun mode => ⟨t, hcompute mode, hcolumns, ?_, fun s hs => hlabels _ (List.mem_map_of_mem hs),
      fun values hvalues => ?_⟩⟩
  · rw [hdata, List.length_map, hlength]
  · rw [hdata] at hvalues
    obtain ⟨u, hu, rfl⟩ := List.mem_map.mp hvalues
    rw [← hindex u hu, hfits u hu]
    rfl

end LazyFrame

/-! ## 5. Everything that is deferred -/

/-- **Whatever is deferred can be computed.**  A deferred array, column or table that can be made
keeps what it announces: its shape, its labels, its columns. -/
theorem built_realizable :
    (∀ l : LazyArray, l.Built → l.Realizable) ∧ (∀ s : LazySeries, s.Built → s.Realizable) ∧
      ∀ f : LazyFrame, f.Built → f.Realizable :=
  ⟨fun _ h => h.realizable, fun _ h => h.realizable, fun _ h => h.realizable⟩

/-- A stack of stacks of an array without elements, a column, and a table of two columns. -/
theorem built_realizable_nested :
    (∃ l : LazyArray, l.shape = [2, 1, 3, 0] ∧ l.chunks = [1, 1] ∧ l.Realizable) ∧
      (∃ s : LazySeries, s.length = 3 ∧ s.values.chunks = [2, 1] ∧ s.Realizable) ∧
      ∃ f : LazyFrame, f.columns = ["p", "q"] ∧ f.Realizable := by
  have hcolumn : LazySeries.Built
      ⟨none, ["a", "b", "c"], ⟨⟨[3], [2, 1]⟩, .source ⟨[3], #[1, 2, 3], rfl⟩ [2, 1]⟩⟩ :=
    .ofSeries (t := ⟨none, ["a", "b", "c"], #[1, 2, 3]⟩) rfl
      (show LazySeries.ofSeries _ 2 = .ok _ from rfl)
  refine ⟨?_, ⟨_, rfl, rfl, built_realizable.2.1 _ hcolumn⟩, ?_⟩
  · have hsource : LazyArray.Built ⟨⟨[3, 0], [2, 1]⟩, .source (fill [3, 0] 0) [2, 1]⟩ :=
      .ofArray (show LazyArray.ofArray (fill [3, 0] 0) 2 = .ok _ from rfl)
    have hinner : LazyArray.Built ⟨⟨[1, 3, 0], [1]⟩,
        .stack [(⟨[3, 0], [2, 1]⟩, .source (fill [3, 0] 0) [2, 1])]⟩ :=
      .stack (List.forall_mem_singleton.mpr hsource) rfl
    have houter := LazyArray.Built.stack
      (List.forall_mem_cons.mpr ⟨hinner, List.forall_mem_singleton.mpr (hinner.unary .negate)⟩) rfl
    exact ⟨_, rfl, rfl, built_realizable.1 _ houter⟩
  · have htable := LazyFrame.Built.concat (List.forall_mem_cons.mpr
      ⟨hcolumn.withName "n", List.forall_mem_singleton.mpr (hcolumn.binaryNumber .add 1)⟩) rfl
    have hnamed := htable.rename (show LazyFrame.rename _ ["p", "q"] = .ok _ from rfl)
    exact ⟨_, rfl, built_realizable.2.2 _ hnamed⟩

end BandMath
