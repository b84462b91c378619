/-
# What a deferred array describes

`Describes l a` says that the chunks of `l` cover `a` and that its task gives them, one by one.  A
deferred array that describes `a` computes `a`, in every mode (`Describes.compute`), and every
operation on deferred arrays describes what the operation on arrays gives for what the operands
describe.  So every deferred array that can be made describes an array (`Built.exists_describes`).

There are two notions, since tasks do not know their shape.  `Task.Yields` is about a task and a
list of chunks: chunk by chunk, the task gives an array or a number that stands for it.  `Describes`
adds that the layout is one of the array, which is what joining the chunks needs.

An operation may be refused, and what it is refused for is in its definition; the lemmas in the
second section say what a success has made (`binary_eq_ok` and others), so the others need not open
the definitions again.  The arithmetic then is that of chunks (`describes_binary`): as operands have
the same chunks, a chunk of the result is the result for two chunks.  A number has no chunks, and is
combined with each of them.

For stacks the induction goes through the inputs, each of which describes an array of its own and
computes it, and the chunks of the stack are these arrays (`describes_stack`).

`Built` has a constructor for each operation that makes a deferred array, so the last result is an
induction in which every case is one of the lemmas before it.
-/
import BandMath.Proofs.Deferred.Chunking

namespace BandMath

open Deferred NDArray

/-! ## 1. Tasks -/

/-- The task gives the chunks of the array. -/
def Deferred.Task.Yields (t : Deferred.Task) (chunks : List Nat) (a : NDArray) : Prop :=
  ∀ i < chunks.length, t.block i = .ok (.array (chunkOf a chunks i))

theorem Deferred.Task.yields_source (a : NDArray) (chunks : List Nat) :
    (Deferred.Task.source a chunks).Yields chunks a := fun _ _ => rfl

namespace LazyArray

/-- The deferred array stands for the array: its layout is one of the array, and its task gives the
chunks. -/
structure Describes (l : LazyArray) (a : NDArray) : Prop where
  cuts : l.layout.Cuts a
  task : l.task.Yields l.layout.chunks a

variable {l r m : LazyArray} {a b c : NDArray} {op : BinaryOp}

/-- **A deferred array computes what it describes.** -/
theorem Describes.compute (h : l.Describes a) (mode : Mode) : l.compute mode = .ok a :=
  h.cuts.realize h.task mode

theorem Describes.shape_eq (h : l.Describes a) : a.shape = l.shape := h.cuts.shape

/-! ## 2. What a success has made -/

theorem ofArray_eq_ok {size : Nat} (h : ofArray a size = .ok l) : a.rank ≠ 0 ∧
    l = ⟨⟨a.shape, chunkSizes (a.length 0) size⟩,
      .source a (chunkSizes (a.length 0) size)⟩ := by
  unfold ofArray at h
  split at h
  · exact nomatch h
  · rename_i hrank
    split at h
    · exact nomatch h
    · exact ⟨hrank, (Except.ok.inj h).symm⟩

theorem binary_eq_ok (h : l.binary op r = .ok m) : l.shape = r.shape ∧
    l.layout.chunks = r.layout.chunks ∧ m = { l with task := .binary op l.task r.task } := by
  unfold LazyArray.binary at h
  split at h
  · exact nomatch h
  · rename_i hshape
    split at h
    · exact nomatch h
    · rename_i hchunks
      exact ⟨not_not.mp hshape, not_not.mp hchunks, (Except.ok.inj h).symm⟩

/-- A given array takes the chunks of the deferred one. -/
theorem sourceLike_eq_ok {t : Deferred.Task} (h : l.sourceLike b = .ok t) :
    b.shape = l.shape ∧ t = .source b l.layout.chunks := by
  unfold sourceLike at h
  split at h
  · rename_i hshape
    exact ⟨hshape, (Except.ok.inj h).symm⟩
  · exact nomatch h

theorem binaryArray_eq_ok (h : l.binaryArray op b = .ok m) : b.shape = l.shape ∧
    m = { l with task := .binary op l.task (.source b l.layout.chunks) } := by
  obtain ⟨t, ht, hm⟩ := bind_eq_ok_iff.mp h
  obtain ⟨hshape, rfl⟩ := sourceLike_eq_ok ht
  exact ⟨hshape, (Except.ok.inj hm).symm⟩

theorem arrayBinary_eq_ok (h : LazyArray.arrayBinary op b l = .ok m) : b.shape = l.shape ∧
    m = { l with task := .binary op (.source b l.layout.chunks) l.task } := by
  obtain ⟨t, ht, hm⟩ := bind_eq_ok_iff.mp h
  obtain ⟨hshape, rfl⟩ := sourceLike_eq_ok ht
  exact ⟨hshape, (Except.ok.inj hm).symm⟩

theorem stack_eq_ok {ls : List LazyArray} (h : stack (l :: ls) = .ok m) :
    (∀ k ∈ ls, k.shape = l.shape) ∧
      m = ⟨⟨(ls.length + 1) :: l.shape, List.replicate (ls.length + 1) 1⟩,
        .stack ((l :: ls).map fun k => (k.layout, k.task))⟩ := by
  unfold stack at h
  dsimp only at h
  split at h
  · exact nomatch h
  · rename_i hfind
    refine ⟨fun k hk => ?_, (Except.ok.inj h).symm⟩
    exact not_not.mp fun hne => List.find?_eq_none.mp hfind k hk (decide_eq_true hne)

/-! ## 3. Arithmetic -/

theorem describes_ofArray {size : Nat} (h : ofArray a size = .ok l) : l.Describes a := by
  obtain ⟨hrank, rfl⟩ := ofArray_eq_ok h
  exact ⟨cuts_chunkSizes hrank size, Task.yields_source _ _⟩

/-- Two tasks of one layout are combined chunk by chunk. -/
theorem describes_binary {layout : Layout} {t u : Deferred.Task} (ha : layout.Cuts a)
    (hb : b.shape = a.shape) (ht : t.Yields layout.chunks a) (hu : u.Yields layout.chunks b) :
    ∃ c, zipWith op.apply a b = .ok c ∧ Describes ⟨layout, .binary op t u⟩ c := by
  have hzip := zipWith_of_shape_eq (f := op.apply) hb
  refine ⟨_, hzip, ⟨ha.shape, ha.leads, ha.chunks⟩, fun i hi => ?_⟩
  have hchunk := ha.zipWith_chunkOf hb hi hzip
  rw [Task.block, ht i hi, hu i hi, ok_bind, ok_bind, Block.binary, hchunk]
  rfl

/-- A function that a task applies to every chunk. -/
theorem Describes.mapTask (h : l.Describes a) {t : Deferred.Task} (f : Float → Float)
    (ht : ∀ i b, l.task.block i = .ok (.array b) → t.block i = .ok (.array (b.map f))) :
    Describes { l with task := t } (a.map f) := by
  refine ⟨h.cuts.map f, fun i hi => ?_⟩
  rw [ht i _ (h.task i hi), h.cuts.chunkOf_map hi]

theorem Describes.binaryNumber (h : l.Describes a) (v : Float) :
    (l.binaryNumber op v).Describes (a.map fun x => op.apply x v) := by
  refine h.mapTask _ fun i b hb => ?_
  rw [Task.block, hb]
  rfl

theorem Describes.numberBinary (h : l.Describes a) (v : Float) :
    (LazyArray.numberBinary op v l).Describes (a.map fun x => op.apply v x) := by
  refine h.mapTask _ fun i b hb => ?_
  rw [Task.block, hb]
  rfl

theorem Describes.unary {op : UnaryOp} (h : l.Describes a) :
    (l.unary op).Describes (a.map op.apply) := by
  refine h.mapTask _ fun i b hb => ?_
  rw [Task.block, hb]
  rfl

theorem Describes.binary (hl : l.Describes a) (hr : r.Describes b) (h : l.binary op r = .ok m) :
    ∃ c, zipWith op.apply a b = .ok c ∧ m.Describes c := by
  obtain ⟨hshape, hchunks, rfl⟩ := binary_eq_ok h
  have hb : b.shape = a.shape := by
    rw [hr.shape_eq, hl.shape_eq, hshape]
  exact describes_binary hl.cuts hb hl.task (hchunks ▸ hr.task)

theorem Describes.binaryArray (hl : l.Describes a) (h : l.binaryArray op b = .ok m) :
    ∃ c, zipWith op.apply a b = .ok c ∧ m.Describes c := by
  obtain ⟨hb, rfl⟩ := binaryArray_eq_ok h
  exact describes_binary hl.cuts (hb.trans hl.shape_eq.symm) hl.task (Task.yields_source _ _)

/-- The layout of a deferred array is one of every array of its shape. -/
theorem Describes.cuts_of_shape_eq (hl : l.Describes a) (hb : b.shape = l.shape) :
    l.layout.Cuts b := by
  refine ⟨hb, ?_, hl.cuts.chunks⟩
  rw [Leads, hb, ← hl.shape_eq]
  exact hl.cuts.leads

theorem Describes.arrayBinary (hl : l.Describes a) (h : LazyArray.arrayBinary op b l = .ok m) :
    ∃ c, zipWith op.apply b a = .ok c ∧ m.Describes c := by
  obtain ⟨hb, rfl⟩ := arrayBinary_eq_ok h
  exact describes_binary (hl.cuts_of_shape_eq hb) (hl.shape_eq.trans hb.symm)
    (Task.yields_source _ _) hl.task

/-! ## 4. Stacks -/

/-- Each input of a stack gives the array that it describes. -/
theorem inputArray_eq_ok {ls : List LazyArray} {as : List NDArray}
    (h : List.Forall₂ Describes ls as) : ∀ {i : Nat}, as[i]? = some a →
      inputArray (ls.map fun l => (l.layout, l.task)) i = .ok a := by
  induction h with
  | nil => exact fun hi => nomatch hi
  | @cons l b ls as hl _ ih =>
    intro i hi
    cases i with
    | zero =>
      obtain rfl := Option.some.inj hi
      rw [List.map_cons, inputArray]
      exact hl.compute .sequential
    | succ i =>
      rw [List.map_cons, inputArray]
      exact ih hi

/-- **A deferred stack describes the stack of what its inputs describe.** -/
theorem describes_stack {ls : List LazyArray} {as : List NDArray}
    (h : List.Forall₂ Describes ls as) (hm : stack ls = .ok m) :
    ∃ first others c, as = first :: others ∧ NDArray.stack first others = .ok c ∧
      m.Describes c := by
  cases h with
  | nil => exact nomatch hm
  | @cons l a ls as hl hls =>
    obtain ⟨hlazy, rfl⟩ := stack_eq_ok hm
    have hshapes : ∀ b ∈ as, b.shape = a.shape := by
      refine forall_of_forall₂ hls fun k hk b hb => ?_
      rw [hb.shape_eq, hlazy k hk, hl.shape_eq]
    obtain ⟨c, hc⟩ : ∃ c, NDArray.stack a as = .ok c :=
      ⟨_, stack_eq_ok_iff.mpr ⟨hshapes, rfl⟩⟩
    have hlength : ls.length = as.length := hls.length_eq
    refine ⟨a, as, c, rfl, hc, ?_, fun i hi => ?_⟩
    · rw [hlength, ← hl.shape_eq]
      exact cuts_stack hc
    · dsimp only at hi ⊢
      rw [hlength] at hi ⊢
      rw [List.length_replicate] at hi
      have hget : (a :: as)[i]? = some (a :: as)[i] := List.getElem?_eq_getElem hi
      rw [Task.block, inputArray_eq_ok (List.Forall₂.cons hl hls) hget, chunkOf_stack hc hget]
      rfl

/-! ## 5. All deferred arrays -/

/-- The deferred arrays that can be made. -/
inductive Built : LazyArray → Prop
  | ofArray {a : NDArray} {size : Nat} {l : LazyArray} (h : ofArray a size = .ok l) : Built l
  | binary {op : BinaryOp} {l r m : LazyArray} (hl : Built l) (hr : Built r)
      (h : l.binary op r = .ok m) : Built m
  | binaryNumber {l : LazyArray} (hl : Built l) (op : BinaryOp) (v : Float) :
      Built (l.binaryNumber op v)
  | numberBinary {l : LazyArray} (hl : Built l) (op : BinaryOp) (v : Float) :
      Built (numberBinary op v l)
  | binaryArray {op : BinaryOp} {l m : LazyArray} {b : NDArray} (hl : Built l)
      (h : l.binaryArray op b = .ok m) : Built m
  | arrayBinary {op : BinaryOp} {l m : LazyArray} {b : NDArray} (hl : Built l)
      (h : arrayBinary op b l = .ok m) : Built m
  | unary {l : LazyArray} (hl : Built l) (op : UnaryOp) : Built (l.unary op)
  | stack {ls : List LazyArray} {m : LazyArray} (hls : ∀ l ∈ ls, Built l) (h : stack ls = .ok m) :
      Built m

/-- **Every deferred array describes an array.**  By induction on how it is made. -/
theorem Built.exists_describes (h : l.Built) : ∃ a, l.Describes a := by
  induction h with
  | ofArray h => exact ⟨_, describes_ofArray h⟩
  | binary _ _ h ihl ihr =>
    obtain ⟨a, ha⟩ := ihl
    obtain ⟨b, hb⟩ := ihr
    obtain ⟨c, -, hc⟩ := ha.binary hb h
    exact ⟨c, hc⟩
  | binaryNumber _ op v ih =>
    obtain ⟨a, ha⟩ := ih
    exact ⟨_, ha.binaryNumber v⟩
  | numberBinary _ op v ih =>
    obtain ⟨a, ha⟩ := ih
    exact ⟨_, ha.numberBinary v⟩
  | binaryArray _ h ih =>
    obtain ⟨a, ha⟩ := ih
    obtain ⟨c, -, hc⟩ := ha.binaryArray h
    exact ⟨c, hc⟩
  | arrayBinary _ h ih =>
    obtain ⟨a, ha⟩ := ih
    obtain ⟨c, -, hc⟩ := ha.arrayBinary h
    exact ⟨c, hc⟩
  | unary _ op ih =>
    obtain ⟨a, ha⟩ := ih
    exact ⟨_, ha.unary⟩
  | stack _ h ih =>
    obtain ⟨as, has⟩ := exists_forall₂ ih
    obtain ⟨-, -, c, -, -, hc⟩ := describes_stack has h
    exact ⟨c, hc⟩

end LazyArray

end BandMath
