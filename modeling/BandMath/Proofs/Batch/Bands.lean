/-
# Bands of a batch

An image that goes through an operator keeps its bands, and where both operands are images the left
one's are kept (`Value.bands?_binary`).  So the bands of a formula are those of one of its symbols,
the first in its text that is bound to an image (`Formula.bands_of_parse`): how many bands the
other images have is never asked.

Over images of one band each, every index of a batch is therefore an image of one band, if it
mentions one.  Then there is a name for each band, and the images are always combined
(`Registry.compute_singleBand`).

That every such index has a value is shown over numbers: a formula over numbers and handles is
refused exactly where it is over numbers, and a formula without calls whose symbols are bound is not
refused there (`exists_evaluate_of_sendable`).  That the value is an image, and with how many bands,
is then read off the formula.

If images have other numbers of bands, a batch may be refused for them, or may give one index the
band of another.  What is promised then is in `BandMath.Proofs.Combination.Shares`.
-/
import BandMath.Proofs.Batch.Dependence
import BandMath.Proofs.Combination.Shares
import BandMath.Proofs.Value.Delivery

namespace BandMath

open Formula (lexemes parse references)

/-! ## 1. Operators -/

namespace Value

variable {v w u : Value}

/-- The bands of a value, if it is an image. -/
def bands? (v : Value) : Option (List String) :=
  v.remoteImage?.map (·.bands)

theorem bands?_eq_some_iff {bands : List String} :
    v.bands? = some bands ↔ ∃ i, v = .remoteImage i ∧ i.bands = bands := by
  rw [bands?, Option.map_eq_some_iff]
  cases v <;> simp [remoteImage?]

/-- **An operator keeps the bands of its first operand that is an image.** -/
theorem bands?_binary {op : BinaryOp} (h : binary op v w = .ok u) :
    u.bands? = v.bands?.or w.bands? := by
  cases v <;> cases w <;>
    simp only [binary, map_eq_ok_iff, Except.ok.injEq, reduceCtorEq] at h <;>
    obtain ⟨_, -, rfl⟩ := h <;>
    rfl

theorem bands?_unary {op : UnaryOp} (h : unary op v = .ok u) : u.bands? = v.bands? := by
  cases v <;> simp only [unary, Except.ok.injEq, reduceCtorEq] at h <;> subst h <;>
    cases op <;> rfl

end Value

/-! ## 2. Formulas -/

namespace Formula

variable {b : Bindings Value} {functions : List Function} {e : Expr} {v : Value}

/-- The bands of the image that a name stands for, if it is a symbol and bound to an image. -/
def Reference.bands? (b : Bindings Value) (r : Reference) : Option (List String) :=
  if r.isCall then none else b[r.name]?.bind Value.bands?

/-- **The bands of an expression are those of its first image.**  By induction on the evaluation:
what an operator keeps is found further left than what it drops. -/
theorem Expr.Evaluates.bands?_eq (h : e.Evaluates ⟨b, functions⟩ v) :
    v.bands? = e.references.findSome? (Reference.bands? b) := by
  induction h with
  | number x => rfl
  | symbol hx => simp [Expr.references, Reference.bands?, hx]
  | binary _ _ h ihl ihr =>
    rw [Value.bands?_binary h, ihl, ihr, Expr.references, List.findSome?_append]
  | negate _ h ih => exact (Value.bands?_unary h).trans ih
  | call _ _ h ih => exact (Value.bands?_unary h).trans ih

theorem Reference.bands?_eq_some_iff {r : Reference} {bands : List String} :
    r.bands? b = some bands ↔
      r.isCall = false ∧ ∃ i, b[r.name]? = some (.remoteImage i) ∧ i.bands = bands := by
  rw [bands?]
  split
  · rename_i hcall
    simp [hcall]
  · rename_i hcall
    simp [hcall, Option.bind_eq_some_iff, Value.bands?_eq_some_iff]

/-- Of the names that are symbols and bound to images, the first is bound to `i`. -/
def FirstImage (b : Bindings Value) (names : List Reference) (i : RemoteImage) : Prop :=
  ∃ before x after, names = before ++ ⟨x, false⟩ :: after ∧ b[x]? = some (.remoteImage i) ∧
    ∀ y, ⟨y, false⟩ ∈ before → ∀ j, b[y]? ≠ some (.remoteImage j)

theorem Expr.Evaluates.exists_firstImage {i : RemoteImage}
    (h : e.Evaluates ⟨b, functions⟩ (.remoteImage i)) :
    ∃ j, FirstImage b e.references j ∧ i.bands = j.bands := by
  obtain ⟨before, ⟨x, isCall⟩, after, hsplit, hx, hbefore⟩ :=
    List.findSome?_eq_some_iff.mp h.bands?_eq.symm
  obtain ⟨hsymbol, j, hj, hbands⟩ := Reference.bands?_eq_some_iff.mp hx
  obtain rfl : isCall = false := hsymbol
  refine ⟨j, ⟨before, x, after, hsplit, hj, fun y hy k hk => ?_⟩, hbands.symm⟩
  have hbands : Reference.bands? b ⟨y, false⟩ = some k.bands :=
    Reference.bands?_eq_some_iff.mpr ⟨rfl, k, hk, rfl⟩
  exact nomatch (hbefore _ hy).symm.trans hbands

/-- **The image that a formula gives has the bands of the image that the first symbol of its text is
bound to, among the symbols that are bound to images.** -/
theorem bands_of_parse {text : String} {f : Formula} (h : parse text = .ok f) :
    ∃ ls, lexemes text.toList = .ok ls ∧ ∀ (b : Bindings Value) (functions : List Function) i,
      f.evaluateIn ⟨b, functions⟩ = .ok (.remoteImage i) →
        ∃ j, FirstImage b (references (ls.map (·.token))) j ∧ i.bands = j.bands := by
  obtain ⟨ls, hls, hnames⟩ := exists_references h
  refine ⟨ls, hls, fun b functions i hi => ?_⟩
  rw [hnames]
  exact (Expr.eval_eq_ok_iff.mp hi).exists_firstImage

/-- A formula that mentions an image gives one, with the bands of one that it mentions. -/
theorem exists_image_of_evaluateIn {f : Formula} {x : String} {i : RemoteImage}
    (h : f.evaluateIn ⟨b, functions⟩ = .ok v) (hx : x ∈ f.symbols)
    (hi : b[x]? = some (.remoteImage i)) :
    ∃ u, v = .remoteImage u ∧
      ∃ y ∈ f.symbols, ∃ j, b[y]? = some (.remoteImage j) ∧ u.bands = j.bands := by
  have hv := Expr.eval_eq_ok_iff.mp h
  have hsome : (f.expr.references.findSome? (Reference.bands? b)).isSome = true := by
    refine List.findSome?_isSome_iff.mpr ⟨_, Expr.mem_mentions_iff.mp (mem_symbols.mp hx), ?_⟩
    rw [Reference.bands?_eq_some_iff.mpr ⟨rfl, i, hi, rfl⟩]
    rfl
  obtain ⟨bands, hbands⟩ := Option.isSome_iff_exists.mp (hv.bands?_eq ▸ hsome)
  obtain ⟨u, rfl, -⟩ := Value.bands?_eq_some_iff.mp hbands
  obtain ⟨j, ⟨before, y, after, hsplit, hj, -⟩, hu⟩ := hv.exists_firstImage
  have hy : y ∈ f.symbols := by
    rw [mem_symbols, Expr.mem_mentions_iff, hsplit]
    exact List.mem_append_right _ (List.mem_cons_self ..)
  exact ⟨u, rfl, y, hy, j, hj, hu⟩

/-- A formula over numbers and remote handles has a value, if it calls nothing: it has one over the
numbers that an executor makes of these. -/
theorem exists_evaluate_of_sendable (f : Formula) (hcalls : f.expr.calls = [])
    (hb : ∀ x ∈ f.symbols, ∃ w, b[x]? = some w ∧ w.Sendable) : ∃ v, f.evaluate b = .ok v := by
  let numbers : Bindings Float := b.map fun _ w => w.denote Graph.run
  have hrel : ∀ x ∈ f.symbols, Option.Rel (fun w y => w.Sendable ∧ y = w.denote Graph.run)
      b[x]? numbers[x]? := by
    intro x hx
    obtain ⟨w, hw, hsendable⟩ := hb x hx
    rw [Std.ExtTreeMap.getElem?_map, hw]
    exact .some ⟨hsendable, rfl⟩
  have hbound : ∀ x ∈ f.expr.mentions, x ∈ numbers := by
    intro x hx
    obtain ⟨w, hw, -⟩ := hb x (mem_symbols.mpr hx)
    simp [numbers, Std.ExtTreeMap.mem_iff_isSome_getElem?, hw]
  have hfollows := evaluateIn_follows (Value.simulates_sendable Graph.executes_run) f [] hrel
  have hrefusal := Expr.refusal?_eval_of_bound total_float ⟨numbers, []⟩ f.expr hbound
  rw [hcalls] at hrefusal
  exact refusal?_eq_none_iff.mp (hfollows.refusal?_eq.trans hrefusal)

end Formula

/-! ## 3. Batches -/

/-- A number, a remote number, or an image of one band. -/
inductive Value.SingleBand : Value → Prop
  | scalar (x : Float) : SingleBand (.scalar x)
  | number (n : RemoteNumber) : SingleBand (.remoteNumber n)
  | image {i : RemoteImage} (h : i.bands.length = 1) : SingleBand (.remoteImage i)

theorem Value.SingleBand.sendable {v : Value} (h : v.SingleBand) : v.Sendable := by
  cases h with
  | scalar x => exact .scalar x
  | number n => exact .number n
  | image h => exact .image _

namespace Registry

variable {r : Registry} {b : Bindings Value} {names : List String} {name : String}
  {d : IndexDefinition}

/-- The index calls nothing and mentions an image, and all that it requires is bound to numbers and
images of one band. -/
structure OverSingleBands (d : IndexDefinition) (b : Bindings Value) : Prop where
  calls : d.formula.expr.calls = []
  image : ∃ x ∈ d.formula.symbols, ∃ i, b[x]? = some (.remoteImage i)
  required : ∀ x ∈ d.required, ∃ v, b[x]? = some v ∧ v.SingleBand

/-- The value of such an index is an image of one band. -/
theorem exists_value_singleBand (hr : r.WellFormed) (hd : r.index name = .ok d)
    (h : OverSingleBands d b) :
    ∃ i, r.value b name = .ok (.remoteImage i) ∧ i.bands.length = 1 := by
  have hsymbols : ∀ x ∈ d.formula.symbols, ∃ v, b[x]? = some v ∧ v.SingleBand := fun x hx =>
    h.required x ((hr name d (index_eq_ok hd)).sound.symbols x hx)
  obtain ⟨v, hv⟩ := d.formula.exists_evaluate_of_sendable h.calls fun x hx => by
    obtain ⟨w, hw, hsingle⟩ := hsymbols x hx
    exact ⟨w, hw, hsingle.sendable⟩
  have hvalid : d.validate b = .ok () := validate_of_forall_mem fun x hx => by
    obtain ⟨w, hw, -⟩ := h.required x hx
    simp [Std.ExtTreeMap.mem_iff_isSome_getElem?, hw]
  have hvalue : r.value b name = .ok v := value_eq_ok_iff.mpr ⟨d, index_eq_ok hd, hvalid, hv⟩
  obtain ⟨x, hx, i, hi⟩ := h.image
  obtain ⟨u, rfl, y, hy, j, hj, hu⟩ := Formula.exists_image_of_evaluateIn hv hx hi
  refine ⟨u, hvalue, ?_⟩
  obtain ⟨w, hw, hsingle⟩ := hsymbols y hy
  obtain rfl := Option.some.inj (hj.symm.trans hw)
  cases hsingle with
  | image hone => rw [hu, hone]

/-- **Batches over images of one band each always combine.**  Every index of the batch mentions an
image and calls nothing, and what it requires is bound to numbers and images of one band.  Then the
combination has a band for each name, in the requested order, and its graph renames the bands of the
images that the names give one by one.

What a formula gives has the bands of one of its images in general: that of the symbol that comes
first in the text. -/
theorem compute_singleBand (hr : r.Grown) (hseveral : 2 ≤ names.length)
    (h : ∀ name ∈ names, ∃ d, r.index name = .ok d ∧ OverSingleBands d b) (axis : String)
    (mode : Mode) :
    (∃ images : List RemoteImage,
      List.Forall₂ (fun name i => ∃ d, r.index name = .ok d ∧ d.evaluate b = .ok (.remoteImage i))
        names images ∧
      r.compute (.many names) b ⟨true, axis, mode⟩ = .ok (.single (.remoteImage
        ⟨.invocation "Image.rename"
          [("input", .invocation "Image.cat" [("images", .list (images.map (·.graph)))]),
            ("names", .list (names.map .text))],
        names⟩))) ∧
    ∀ (text : String) (f : Formula), parse text = .ok f →
      ∃ ls, lexemes text.toList = .ok ls ∧
        ∀ (b : Bindings Value) (functions : List Formula.Function) i,
          f.evaluateIn ⟨b, functions⟩ = .ok (.remoteImage i) →
            ∃ j, Formula.FirstImage b (references (ls.map (·.token))) j ∧ i.bands = j.bands := by
  refine ⟨?_, fun text f hf => Formula.bands_of_parse hf⟩
  have hvalue : ∀ name ∈ names, ∃ i, r.value b name = .ok (.remoteImage i) ∧
      i.bands.length = 1 := by
    intro name hname
    obtain ⟨d, hd, hover⟩ := h name hname
    exact exists_value_singleBand hr.wellFormed hd hover
  obtain ⟨images, himages⟩ := exists_forall₂ hvalue
  have hvalues : r.values b names = images.map .remoteImage :=
    values_eq_of_forall₂ (List.forall₂_map_right_iff.mpr (himages.imp fun _ _ h => h.1))
  have hsingle : ∀ i ∈ images, i.bands.length = 1 :=
    forall_of_forall₂ himages fun _ _ _ h => h.2
  have hlength := himages.length_eq
  have htagged : Tagged images names := ⟨hlength ▸ hseveral, hlength.symm⟩
  have hevaluate : r.evaluate mode names b = .ok (images.map .remoteImage) := by
    rw [← hvalues]
    refine evaluate_of_forall mode fun name hname => ?_
    obtain ⟨i, hi, -⟩ := hvalue name hname
    exact ⟨_, hi⟩
  refine ⟨images, himages.imp fun name i hi => ?_, ?_⟩
  · obtain ⟨d, hd, hvalue⟩ := bind_eq_ok_iff.mp hi.1
    exact ⟨d, hd, hvalue⟩
  · have hmany : 2 ≤ (images.map Value.remoteImage).length := by
      rw [List.length_map]
      exact htagged.several
    have hcompute : r.compute (.many names) b ⟨true, axis, mode⟩ = _ :=
      compute_of_evaluate hmany hevaluate rfl
    rw [hcompute, (unify_images_of_single htagged hsingle).1]
    rfl

/-- The difference of two images, and a number over one of them. -/
theorem compute_singleBand_two :
    let b : Bindings Value := .ofPairs
      [("N", .remoteImage (.load "n" ["B8"])), ("R", .remoteImage (.load "r" ["B4"])),
        ("L", .remoteNumber (.constant 1))]
    ∃ (r : Registry) (i j : Graph), r.Grown ∧
      (∀ name ∈ ["A", "B"], ∃ d, r.index name = .ok d ∧ OverSingleBands d b) ∧
      r.compute (.many ["A", "B"]) b {} = .ok (.single (.remoteImage
        ⟨.invocation "Image.rename"
          [("input", .invocation "Image.cat" [("images", .list [i, j])]),
            ("names", .list [.text "A", .text "B"])],
        ["A", "B"]⟩)) := by
  intro b
  have h : (do
      let r ← ofIndexDocument
        ("\x7b\"SpectralIndices\":\x7b\"A\":[\"A\",\"N-R\",[\"N\",\"R\"]]," ++
          "\"B\":[\"B\",\"L/N\",[\"L\",\"N\"]]\x7d\x7d")
      let d ← r.index "A"
      let e ← r.index "B"
      return ((d.formula.expr.calls, d.formula.symbols, d.required),
        e.formula.expr.calls, e.formula.symbols, e.required) : Except Error _) =
      .ok (([], ["N", "R"], ["N", "R"]), [], ["L", "N"], ["L", "N"]) := by
    decide +kernel
  obtain ⟨r, hr, h⟩ := bind_eq_ok_iff.mp h
  obtain ⟨d, hd, h⟩ := bind_eq_ok_iff.mp h
  obtain ⟨e, he, h⟩ := bind_eq_ok_iff.mp h
  simp only [pure, Except.pure, Except.ok.injEq, Prod.mk.injEq] at h
  obtain ⟨⟨hdcalls, hdsymbols, hdrequired⟩, hecalls, hesymbols, herequired⟩ := h
  have hgrown : r.Grown := (Loaded.ofIndexDocument hr).grown
  have himage : b["N"]? = some (.remoteImage (.load "n" ["B8"])) := rfl
  have hbound : ∀ x ∈ ["N", "R", "L"], ∃ v, b[x]? = some v ∧ v.SingleBand := by
    simp only [List.forall_mem_cons]
    exact ⟨⟨_, rfl, .image rfl⟩, ⟨_, rfl, .image rfl⟩, ⟨_, rfl, .number _⟩, by simp⟩
  have hover : ∀ name ∈ ["A", "B"], ∃ d, r.index name = .ok d ∧ OverSingleBands d b := by
    simp only [List.forall_mem_cons]
    refine ⟨⟨d, hd, hdcalls, ⟨"N", by simp [hdsymbols], _, himage⟩, fun x hx => hbound x ?_⟩,
      ⟨e, he, hecalls, ⟨"N", by simp [hesymbols], _, himage⟩, fun x hx => hbound x ?_⟩, by simp⟩
    · rw [hdrequired] at hx
      exact List.subset_def.mp (by decide) hx
    · rw [herequired] at hx
      exact List.subset_def.mp (by decide) hx
  have hseveral : 2 ≤ ["A", "B"].length := Nat.le_refl 2
  obtain ⟨⟨images, himages, hcompute⟩, -⟩ :=
    compute_singleBand hgrown hseveral hover "index" .sequential
  obtain ⟨i, j, rfl⟩ := List.length_eq_two.mp himages.length_eq.symm
  exact ⟨r, i.graph, j.graph, hgrown, hover, hcompute⟩

end Registry

end BandMath
