/-
# Images and numbers among the nodes of a graph

An executor has its arithmetic twice, once for images and once for numbers, and takes only operands
of the one sort.  `WellSorted` says that every node of a graph keeps to that.  What handles are made
of does: their roots show the sort (`GivesImage`, `GivesNumber`), and whatever becomes an argument
of a function on images is promoted to an image first.

A constant is a number, and so is what a function on numbers gives; an image comes only from a
function on images.  The two kinds of functions are told apart by the beginning of their names, and
no name begins in both ways (`image_ne_number`).  So a root has one sort at most, and looking at it
is enough to see whether a graph is an image (`isImage_iff`).

Only arithmetic is asked to have operands of a sort (`arithmetic`).  Other functions, such as those
that load an image, choose a band or evaluate a text, take arguments of their own and are left free;
their graphs are well sorted if their arguments are (`isImageGraph_invoke`, `isNumberGraph_invoke`).

Entries are put in the order of their keys when a graph is made, which neither adds nor loses one
(`mem_of_mem_sortEntries`, `mem_keys_sortEntries`), so being well sorted is not affected by it.
-/
import BandMath.Remote.Handle

namespace BandMath.Graph

/-! ## 1. Nodes -/

/-- One graph is a node of another. -/
inductive Node : Graph → Graph → Prop
  | root (g : Graph) : Node g g
  | item {n g : Graph} {items : List Graph} (hg : g ∈ items) (h : Node n g) : Node n (.list items)
  | entry {n g : Graph} {key : String} {entries : List (String × Graph)}
      (hg : (key, g) ∈ entries) (h : Node n g) : Node n (.dictionary entries)
  | argument {n g : Graph} {key function : String} {arguments : List (String × Graph)}
      (hg : (key, g) ∈ arguments) (h : Node n g) : Node n (.invocation function arguments)

/-- The arithmetic of an executor, by the names of its functions. -/
def arithmetic : List (String × (Float → Float → Float)) :=
  [("add", fun x y => x + y), ("subtract", fun x y => x - y), ("multiply", fun x y => x * y),
    ("divide", fun x y => x / y), ("pow", Float.pow)]

/-! ## 2. Sorts -/

/-- The root invokes a function that gives an image. -/
def GivesImage (g : Graph) : Prop :=
  ∃ m arguments, g = .invocation ("Image." ++ m) arguments

/-- The root is a constant or invokes a function that gives a number. -/
def GivesNumber (g : Graph) : Prop :=
  (∃ v, g = .constant v) ∨ ∃ m arguments, g = .invocation ("Number." ++ m) arguments

/-- If the root does arithmetic, it has two operands of the right sort. -/
def Sorted : Graph → Prop
  | .invocation function arguments =>
    (∀ m ∈ arithmetic.map Prod.fst, function = "Image." ++ m →
      ∃ l r, arguments = [("image1", l), ("image2", r)] ∧ l.GivesImage ∧ r.GivesImage) ∧
    ∀ m ∈ arithmetic.map Prod.fst, function = "Number." ++ m →
      ∃ l r, arguments = [("left", l), ("right", r)] ∧ l.GivesNumber ∧ r.GivesNumber
  | _ => True

/-- All arithmetic in the graph has operands of the right sort. -/
def WellSorted (g : Graph) : Prop := ∀ n, Node n g → n.Sorted

/-- The graph of an image. -/
structure IsImageGraph (g : Graph) : Prop where
  root : g.GivesImage
  sorted : g.WellSorted

/-- The graph of a number. -/
structure IsNumberGraph (g : Graph) : Prop where
  root : g.GivesNumber
  sorted : g.WellSorted

variable {g l r : Graph} {function : String} {arguments entries : List (String × Graph)}

theorem isNumberGraph_constant (v : Float) : (constant v).IsNumberGraph := by
  refine ⟨Or.inl ⟨v, rfl⟩, fun n hn => ?_⟩
  cases hn with
  | root => exact trivial

theorem wellSorted_text (s : String) : (text s).WellSorted := by
  intro n hn
  cases hn with
  | root => exact trivial

theorem wellSorted_list {items : List Graph} (h : ∀ g ∈ items, g.WellSorted) :
    (list items).WellSorted := by
  intro n hn
  cases hn with
  | root => exact trivial
  | item hg hn => exact h _ hg n hn

theorem wellSorted_dictionary (h : ∀ e ∈ entries, e.2.WellSorted) :
    (dictionary entries).WellSorted := by
  intro n hn
  cases hn with
  | root => exact trivial
  | entry hg hn => exact h _ hg n hn

theorem wellSorted_invocation (hroot : (invocation function arguments).Sorted)
    (h : ∀ e ∈ arguments, e.2.WellSorted) : (invocation function arguments).WellSorted := by
  intro n hn
  cases hn with
  | root => exact hroot
  | argument hg hn => exact h _ hg n hn

/-! ## 3. Entries in order -/

theorem mem_insertEntry {key : String} {e : String × Graph} :
    ∀ {entries : List (String × Graph)}, e ∈ insertEntry key g entries →
      e = (key, g) ∨ e ∈ entries
  | [], he => Or.inl (List.mem_singleton.mp he)
  | (k, h) :: rest, he => by
    unfold insertEntry at he
    split at he
    · exact List.mem_cons.mp he
    · split at he
      · rcases List.mem_cons.mp he with rfl | he
        · exact Or.inl rfl
        · exact Or.inr (List.mem_cons_of_mem _ he)
      · rcases List.mem_cons.mp he with rfl | he
        · exact Or.inr (List.mem_cons_self ..)
        · rcases mem_insertEntry he with rfl | he
          · exact Or.inl rfl
          · exact Or.inr (List.mem_cons_of_mem _ he)

/-- Putting entries in order adds none. -/
theorem mem_of_mem_sortEntries {e : String × Graph} (h : e ∈ sortEntries entries) :
    e ∈ entries := by
  -- what has been sorted so far and what is still to come hold no entry but those given
  have hfold : ∀ (es sorted : List (String × Graph)),
      e ∈ es.foldl (fun sorted x => insertEntry x.1 x.2 sorted) sorted → e ∈ sorted ∨ e ∈ es := by
    intro es
    induction es with
    | nil => exact fun sorted he => Or.inl he
    | cons x es ih =>
      intro sorted he
      rcases ih _ he with he | he
      · rcases mem_insertEntry he with rfl | he
        · exact Or.inr (List.mem_cons_self ..)
        · exact Or.inl he
      · exact Or.inr (List.mem_cons_of_mem _ he)
  rcases hfold entries [] h with h | h
  · exact absurd h List.not_mem_nil
  · exact h

theorem mem_keys_insertEntry {key k : String} : ∀ {entries : List (String × Graph)},
    k ∈ (insertEntry key g entries).map Prod.fst ↔ k = key ∨ k ∈ entries.map Prod.fst
  | [] => by simp [insertEntry]
  | (l, h) :: rest => by
    have ih : k ∈ (insertEntry key g rest).map Prod.fst ↔ k = key ∨ k ∈ rest.map Prod.fst :=
      mem_keys_insertEntry
    unfold insertEntry
    split
    · simp
    · split
      · rename_i hkey
        simp [hkey]
      · rw [List.map_cons, List.mem_cons, ih, List.map_cons, List.mem_cons, or_left_comm]

/-- Nor does it lose a key. -/
theorem mem_keys_sortEntries {k : String} :
    k ∈ (sortEntries entries).map Prod.fst ↔ k ∈ entries.map Prod.fst := by
  have hfold : ∀ (es sorted : List (String × Graph)),
      k ∈ (es.foldl (fun sorted x => insertEntry x.1 x.2 sorted) sorted).map Prod.fst ↔
        k ∈ sorted.map Prod.fst ∨ k ∈ es.map Prod.fst := by
    intro es
    induction es with
    | nil => simp
    | cons x es ih =>
      intro sorted
      rw [List.foldl_cons, ih, mem_keys_insertEntry, List.map_cons, List.mem_cons, or_assoc,
        or_left_comm]
  have hall := hfold entries []
  rwa [List.map_nil, or_iff_right List.not_mem_nil] at hall

theorem insertEntry_of_forall_lt {key : String} : ∀ {entries : List (String × Graph)},
    (∀ e ∈ entries, e.1 < key) → insertEntry key g entries = entries ++ [(key, g)]
  | [], _ => rfl
  | (k, h) :: rest, hlt => by
    obtain ⟨hk, hrest⟩ := List.forall_mem_cons.mp hlt
    have hnot : ¬ key < k := String.lt_asymm hk
    have hne : key ≠ k := by
      rintro rfl
      exact hnot hk
    rw [insertEntry, if_neg hnot, if_neg hne, insertEntry_of_forall_lt hrest, List.cons_append]

/-- Entries that are in order stay as they are. -/
theorem sortEntries_eq_self (h : entries.Pairwise fun e f => e.1 < f.1) :
    sortEntries entries = entries := by
  -- every entry comes after those that have been put in order before it
  have hfold : ∀ es sorted : List (String × Graph),
      (sorted ++ es).Pairwise (fun e f => e.1 < f.1) →
        es.foldl (fun sorted x => insertEntry x.1 x.2 sorted) sorted = sorted ++ es := by
    intro es
    induction es with
    | nil => simp
    | cons x es ih =>
      intro sorted hsorted
      have hlt : ∀ e ∈ sorted, e.1 < x.1 := fun e he =>
        (List.pairwise_append.mp hsorted).2.2 e he x (List.mem_cons_self ..)
      rw [List.foldl_cons, insertEntry_of_forall_lt hlt, ih]
      · simp
      · simpa using hsorted
  exact hfold entries [] h

/-! ## 4. Functions of the two sorts -/

/-- No function is one on images and one on numbers. -/
theorem image_ne_number (m k : String) : "Image." ++ m ≠ "Number." ++ k := by
  intro h
  have hlists : "Image.".toList ++ m.toList = "Number.".toList ++ k.toList := by
    rw [← String.toList_append, ← String.toList_append, h]
  exact absurd (List.cons.inj hlists).1 (by decide)

/-- A function on images that does no arithmetic. -/
theorem isImageGraph_invoke {m : String} (hm : m ∉ arithmetic.map Prod.fst)
    (h : ∀ e ∈ arguments, e.2.WellSorted) : (invoke ("Image." ++ m) arguments).IsImageGraph := by
  refine ⟨⟨m, _, rfl⟩, wellSorted_invocation ⟨fun k hk hf => ?_, fun k _ hf => ?_⟩
    fun e he => h e (mem_of_mem_sortEntries he)⟩
  · obtain rfl := (String.append_right_inj "Image.").mp hf
    exact absurd hk hm
  · exact absurd hf (image_ne_number m k)

/-- A function on numbers that does no arithmetic. -/
theorem isNumberGraph_invoke {m : String} (hm : m ∉ arithmetic.map Prod.fst)
    (h : ∀ e ∈ arguments, e.2.WellSorted) : (invoke ("Number." ++ m) arguments).IsNumberGraph := by
  refine ⟨Or.inr ⟨m, _, rfl⟩, wellSorted_invocation ⟨fun k _ hf => ?_, fun k hk hf => ?_⟩
    fun e he => h e (mem_of_mem_sortEntries he)⟩
  · exact absurd hf.symm (image_ne_number k m)
  · obtain rfl := (String.append_right_inj "Number.").mp hf
    exact absurd hk hm

theorem isImageGraph_arithmetic {m : String} (hl : l.IsImageGraph) (hr : r.IsImageGraph) :
    (invocation ("Image." ++ m) [("image1", l), ("image2", r)]).IsImageGraph := by
  refine ⟨⟨m, _, rfl⟩, wellSorted_invocation
    ⟨fun k _ _ => ⟨l, r, rfl, hl.root, hr.root⟩, fun k _ hf => ?_⟩ fun e he => ?_⟩
  · exact absurd hf (image_ne_number m k)
  · rcases List.mem_cons.mp he with rfl | he
    · exact hl.sorted
    · obtain rfl := List.mem_singleton.mp he
      exact hr.sorted

theorem isNumberGraph_arithmetic {m : String} (hl : l.IsNumberGraph) (hr : r.IsNumberGraph) :
    (invocation ("Number." ++ m) [("left", l), ("right", r)]).IsNumberGraph := by
  refine ⟨Or.inr ⟨m, _, rfl⟩, wellSorted_invocation
    ⟨fun k _ hf => ?_, fun k _ _ => ⟨l, r, rfl, hl.root, hr.root⟩⟩ fun e he => ?_⟩
  · exact absurd hf.symm (image_ne_number k m)
  · rcases List.mem_cons.mp he with rfl | he
    · exact hl.sorted
    · obtain rfl := List.mem_singleton.mp he
      exact hr.sorted

/-! ## 5. Recognizing images -/

theorem isImage_iff : g.isImage = true ↔ g.GivesImage := by
  cases g with
  | invocation f arguments =>
    have hstart : isImage (.invocation f arguments) = true ↔
        ∃ t, "Image.".toList ++ t = f.toList := List.isPrefixOf_iff_prefix
    rw [hstart]
    constructor
    · rintro ⟨t, ht⟩
      have hf : f = "Image." ++ String.ofList t := by
        have hlist : (String.ofList t).toList = t := String.toList_ofList
        rw [← String.toList_inj, String.toList_append, hlist, ht]
      exact ⟨String.ofList t, arguments, by rw [hf]⟩
    · rintro ⟨m, arguments', h⟩
      obtain ⟨rfl, -⟩ := Graph.invocation.inj h
      exact ⟨m.toList, String.toList_append.symm⟩
  | _ =>
    constructor
    · exact fun h => nomatch h
    · rintro ⟨m, arguments, h⟩
      exact nomatch h

end BandMath.Graph
