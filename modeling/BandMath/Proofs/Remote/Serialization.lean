/-
# What a serialized graph says

The text of a graph says which graph it is and where it ends: if a text begins with two graphs, they
are the same graph and the same text comes after them (`told`).  The proof goes down the graph.  The
type that every node begins with tells which node it is; a string ends at its quote and a number
before the brace that closes its node; and items and entries are divided by commas, which are not
what closes a list of them.

The induction is on the first of the two graphs, with a statement that leaves open what comes after
the text (`told`).  It goes through lists of items and of entries as well, since these are where a
graph holds graphs (`items_cancel`, `entries_cancel`).

Each part of a node is cancelled by a lemma of its own: a string by `quoted_cancel`, a number
because what follows it is no part of a number (`documentText_cancel`), a member of an object by its
key and its value (`member_cancel`).  After that only the innermost graphs are left.

Only finite constants are told apart, as all others are written as null (`FiniteConstants`).

So a text has at most one graph at its front, and `front?` is the function that finds it
(`front?_serialize`).
-/
import BandMath.Proofs.Decimal.Layout
import BandMath.Proofs.Json.Quoted
import BandMath.Proofs.Remote.Sorts

namespace BandMath.Graph

variable {r s : List Char}

/-! ## 1. Graphs of numbers -/

/-- All constants of a graph are numbers. -/
def FiniteConstants (g : Graph) : Prop := ∀ v, Node (.constant v) g → v.isFinite = true

theorem FiniteConstants.item {items : List Graph} (h : (list items).FiniteConstants) {g : Graph}
    (hg : g ∈ items) : g.FiniteConstants :=
  fun v hv => h v (.item hg hv)

theorem FiniteConstants.entry {entries : List (String × Graph)}
    (h : (dictionary entries).FiniteConstants) {e : String × Graph} (he : e ∈ entries) :
    e.2.FiniteConstants :=
  fun v hv => h v (.entry (show (e.1, e.2) ∈ entries from he) hv)

theorem FiniteConstants.argument {f : String} {arguments : List (String × Graph)}
    (h : (invocation f arguments).FiniteConstants) {e : String × Graph} (he : e ∈ arguments) :
    e.2.FiniteConstants :=
  fun v hv => h v (.argument (show (e.1, e.2) ∈ arguments from he) hv)

theorem finiteConstants_constant {v : Float} (hv : v.isFinite = true) :
    (constant v).FiniteConstants := by
  intro w hw
  cases hw with
  | root => exact hv

theorem finiteConstants_text (s : String) : (text s).FiniteConstants :=
  fun _ hv => nomatch hv

theorem finiteConstants_list {items : List Graph} (h : ∀ g ∈ items, g.FiniteConstants) :
    (list items).FiniteConstants := by
  intro v hv
  cases hv with
  | item hg hv => exact h _ hg v hv

/-- Induction on graphs, one case for each type of node. -/
theorem induct {P : Graph → Prop} (constant : ∀ v, P (constant v)) (text : ∀ s, P (text s))
    (list : ∀ items, (∀ g ∈ items, P g) → P (list items))
    (dictionary : ∀ entries, (∀ e ∈ entries, P e.2) → P (dictionary entries))
    (invocation : ∀ f arguments, (∀ e ∈ arguments, P e.2) → P (invocation f arguments))
    (g : Graph) : P g := by
  refine @Graph.rec P (fun items => ∀ g ∈ items, P g) (fun entries => ∀ e ∈ entries, P e.2)
    (fun e => P e.2) constant text list dictionary invocation ?_ ?_ ?_ ?_ ?_ g
  · exact fun g hg => absurd hg List.not_mem_nil
  · exact fun g gs hg hgs => List.forall_mem_cons.mpr ⟨hg, hgs⟩
  · exact fun e he => absurd he List.not_mem_nil
  · exact fun e es he hes => List.forall_mem_cons.mpr ⟨he, hes⟩
  · exact fun key g hg => hg

/-! ## 2. Texts divided by commas -/

theorem commaSeparated_cons (x : List Char) (xs : List (List Char)) :
    commaSeparated (x :: xs) = x ++ if xs.isEmpty then [] else ',' :: commaSeparated xs := by
  cases xs with
  | nil => exact (List.append_nil x).symm
  | cons y ys => rfl

/-- **Items divided by commas can be told apart, and from what closes them**, if each of them can be
told from what comes after it and none begins like the end. -/
theorem commaSeparated_cancel {α : Type} {f : α → List Char} {first close : Char}
    (hfirst : ∀ x, ∃ tail, f x = first :: tail) (hopen : first ≠ close) (hcomma : close ≠ ',') :
    ∀ {xs ys : List α},
      (∀ x ∈ xs, ∀ y ∈ ys, ∀ r s, f x ++ r = f y ++ s → x = y ∧ r = s) →
      commaSeparated (xs.map f) ++ close :: r = commaSeparated (ys.map f) ++ close :: s →
      xs = ys ∧ r = s := by
  -- items are not empty, since the end does not begin like one
  have hend : ∀ (y : α) (ys : List α) (r s : List Char),
      close :: r ≠ commaSeparated ((y :: ys).map f) ++ close :: s := by
    intro y ys r s h
    obtain ⟨tail, htail⟩ := hfirst y
    rw [List.map_cons, commaSeparated_cons, htail] at h
    exact hopen (List.cons.inj h).1.symm
  intro xs
  induction xs with
  | nil =>
    intro ys hcancel h
    cases ys with
    | nil => exact ⟨rfl, (List.cons.inj h).2⟩
    | cons y ys => exact absurd h (hend y ys r s)
  | cons x xs ih =>
    intro ys hcancel h
    cases ys with
    | nil => exact absurd h.symm (hend x xs s r)
    | cons y ys =>
      rw [List.map_cons, List.map_cons, commaSeparated_cons, commaSeparated_cons,
        List.append_assoc, List.append_assoc] at h
      obtain ⟨rfl, hrest⟩ :=
        hcancel x (List.mem_cons_self ..) y (List.mem_cons_self ..) _ _ h
      have hcancel' := fun x hx y hy =>
        hcancel x (List.mem_cons_of_mem _ hx) y (List.mem_cons_of_mem _ hy)
      cases xs with
      | nil =>
        cases ys with
        | nil => exact ⟨rfl, (List.cons.inj hrest).2⟩
        | cons z zs => exact absurd (List.cons.inj hrest).1 hcomma
      | cons w ws =>
        cases ys with
        | nil => exact absurd (List.cons.inj hrest).1.symm hcomma
        | cons z zs =>
          obtain ⟨heq, hrs⟩ := ih hcancel' (List.cons.inj hrest).2
          exact ⟨by rw [heq], hrs⟩

/-! ## 3. Members and nodes -/

theorem member_cancel {key key' : String} {v v' : List Char}
    (h : member key v ++ r = member key' v' ++ s) : key = key' ∧ v ++ r = v' ++ s := by
  rw [member, member, List.append_assoc, List.append_assoc] at h
  obtain ⟨hkey, hvalue⟩ := Json.quoted_cancel h
  exact ⟨hkey, (List.cons.inj hvalue).2⟩

/-- A node says its type first, and then its members. -/
theorem node_cancel {type type' : String} {m m' : List Char} {ms ms' : List (List Char)}
    (h : node type (m :: ms) ++ r = node type' (m' :: ms') ++ s) :
    type = type' ∧
      commaSeparated (m :: ms) ++ '\x7d' :: r = commaSeparated (m' :: ms') ++ '\x7d' :: s := by
  have hsplit : ∀ (type : String) (m : List Char) (ms : List (List Char)) (r : List Char),
      node type (m :: ms) ++ r = '\x7b' ::
        (member "type" (Json.quoted type) ++ ',' :: (commaSeparated (m :: ms) ++ '\x7d' :: r)) := by
    intro type m ms r
    simp [node, braced, commaSeparated]
  rw [hsplit, hsplit] at h
  obtain ⟨-, htype⟩ := member_cancel (List.cons.inj h).2
  obtain ⟨htype, hmembers⟩ := Json.quoted_cancel htype
  exact ⟨htype, (List.cons.inj hmembers).2⟩

/-- A node with one member. -/
theorem node_cancel_one {type key : String} {v v' : List Char}
    (h : node type [member key v] ++ r = node type [member key v'] ++ s) :
    v ++ '\x7d' :: r = v' ++ '\x7d' :: s :=
  (member_cancel (node_cancel h).2).2

/-- A node with two members. -/
theorem node_cancel_two {type key key' : String} {v v' w w' : List Char}
    (h : node type [member key v, member key' w] ++ r =
      node type [member key v', member key' w'] ++ s) :
    v ++ ',' :: (member key' w ++ '\x7d' :: r) = v' ++ ',' :: (member key' w' ++ '\x7d' :: s) := by
  have hmembers := (node_cancel h).2
  simp only [commaSeparated, List.append_assoc, List.cons_append] at hmembers
  exact (member_cancel hmembers).2

/-- A text ends before the first character that does not occur in it. -/
theorem append_cons_cancel {c : Char} {x y : List Char} (hx : c ∉ x) (hy : c ∉ y)
    (h : x ++ c :: r = y ++ c :: s) : x = y ∧ r = s := by
  rcases List.append_eq_append_iff.mp h with ⟨z, rfl, hz⟩ | ⟨z, rfl, hz⟩
  · cases z with
    | nil => exact ⟨(List.append_nil x).symm, (List.cons.inj hz).2⟩
    | cons d ds =>
      obtain ⟨rfl, -⟩ := List.cons.inj hz
      exact absurd (List.mem_append_right x (List.mem_cons_self ..)) hy
  · cases z with
    | nil => exact ⟨List.append_nil y, (List.cons.inj hz).2.symm⟩
    | cons d ds =>
      obtain ⟨rfl, -⟩ := List.cons.inj hz
      exact absurd (List.mem_append_right y (List.mem_cons_self ..)) hx

/-! ## 4. Graphs -/

/-- The type that a node is written with. -/
def nodeType : Graph → String
  | constant _ => "constant"
  | text _ => "text"
  | list _ => "list"
  | dictionary _ => "dictionary"
  | invocation _ _ => "invocation"

theorem exists_written_eq (g : Graph) : ∃ m ms, g.written = node g.nodeType (m :: ms) := by
  cases g <;> exact ⟨_, _, rfl⟩

theorem nodeType_eq {g h : Graph} (heq : g.written ++ r = h.written ++ s) :
    g.nodeType = h.nodeType := by
  obtain ⟨m, ms, hg⟩ := exists_written_eq g
  obtain ⟨m', ms', hh⟩ := exists_written_eq h
  rw [hg, hh] at heq
  exact (node_cancel heq).1

theorem written_eq_cons (g : Graph) : ∃ tail, g.written = '\x7b' :: tail := by
  obtain ⟨m, ms, hg⟩ := exists_written_eq g
  rw [hg]
  exact ⟨_, rfl⟩

/-- The text of an entry. -/
def writtenEntry (e : String × Graph) : List Char :=
  member e.1 e.2.written

theorem writtenItems_eq : ∀ items : List Graph, writtenItems items = items.map written
  | [] => rfl
  | g :: gs => by rw [writtenItems, writtenItems_eq gs, List.map_cons]

theorem writtenEntries_eq : ∀ entries : List (String × Graph),
    writtenEntries entries = entries.map writtenEntry
  | [] => rfl
  | (key, g) :: rest => by rw [writtenEntries, writtenEntries_eq rest, List.map_cons, writtenEntry]

/-- The text of a graph tells it from other graphs, whatever comes after them. -/
def Told (g : Graph) : Prop :=
  ∀ (h : Graph) (r s : List Char), g.FiniteConstants → h.FiniteConstants →
    g.written ++ r = h.written ++ s → g = h ∧ r = s

theorem items_cancel {xs ys : List Graph} (htold : ∀ g ∈ xs, g.Told)
    (hxs : ∀ g ∈ xs, g.FiniteConstants) (hys : ∀ g ∈ ys, g.FiniteConstants)
    (h : '[' :: commaSeparated (writtenItems xs) ++ [']'] ++ r =
      '[' :: commaSeparated (writtenItems ys) ++ [']'] ++ s) : xs = ys ∧ r = s := by
  simp only [writtenItems_eq, List.cons_append, List.append_assoc, List.nil_append,
    List.cons.injEq, true_and] at h
  refine commaSeparated_cancel written_eq_cons (by decide) (by decide) ?_ h
  intro x hx y hy r s heq
  exact htold x hx y r s (hxs x hx) (hys y hy) heq

theorem entries_cancel {xs ys : List (String × Graph)} (htold : ∀ e ∈ xs, e.2.Told)
    (hxs : ∀ e ∈ xs, e.2.FiniteConstants) (hys : ∀ e ∈ ys, e.2.FiniteConstants)
    (h : braced (writtenEntries xs) ++ r = braced (writtenEntries ys) ++ s) : xs = ys ∧ r = s := by
  simp only [braced, writtenEntries_eq, List.cons_append, List.append_assoc, List.nil_append,
    List.cons.injEq, true_and] at h
  refine commaSeparated_cancel (fun e => ⟨_, rfl⟩) (by decide : '"' ≠ '\x7d') (by decide) ?_ h
  intro x hx y hy r s heq
  obtain ⟨hkey, hgraph⟩ := member_cancel heq
  obtain ⟨hgraph, hrest⟩ := htold x hx y.2 r s (hxs x hx) (hys y hy) hgraph
  exact ⟨Prod.ext hkey hgraph, hrest⟩

/-- The text of a number ends where the node ends. -/
theorem documentText_cancel {v w : Float} (hv : v.isFinite = true) (hw : w.isFinite = true)
    (h : (Decimal.documentText v).toList ++ '\x7d' :: r =
      (Decimal.documentText w).toList ++ '\x7d' :: s) : v = w ∧ r = s := by
  have hnot : ∀ {x : Float}, x.isFinite = true → '\x7d' ∉ (Decimal.documentText x).toList := by
    intro x hx hmem
    rcases Decimal.isDigit_or_mem_of_mem_documentText hx hmem with hdigit | hmem
    · exact absurd hdigit (by decide)
    · exact absurd hmem (by decide)
  obtain ⟨htext, hrest⟩ := append_cons_cancel (hnot hv) (hnot hw) h
  exact ⟨Decimal.eq_of_documentText hv hw (String.toList_inj.mp htext), hrest⟩

/-- **Where a text begins with a graph, it says which one and where it ends.** -/
theorem told (g : Graph) : g.Told := by
  induction g using induct with
  | constant v =>
    intro h r s hg hh heq
    cases h with
    | constant w =>
      obtain ⟨rfl, hrest⟩ :=
        documentText_cancel (hg v (.root _)) (hh w (.root _)) (node_cancel_one heq)
      exact ⟨rfl, hrest⟩
    | _ => exact absurd (nodeType_eq heq) (by simp [nodeType])
  | text t =>
    intro h r s hg hh heq
    cases h with
    | text u =>
      obtain ⟨rfl, hrest⟩ := Json.quoted_cancel (node_cancel_one heq)
      exact ⟨rfl, (List.cons.inj hrest).2⟩
    | _ => exact absurd (nodeType_eq heq) (by simp [nodeType])
  | list xs ih =>
    intro h r s hg hh heq
    cases h with
    | list ys =>
      obtain ⟨rfl, hrest⟩ := items_cancel ih (fun g hx => hg.item hx) (fun g hy => hh.item hy)
        (node_cancel_one heq)
      exact ⟨rfl, (List.cons.inj hrest).2⟩
    | _ => exact absurd (nodeType_eq heq) (by simp [nodeType])
  | dictionary xs ih =>
    intro h r s hg hh heq
    cases h with
    | dictionary ys =>
      obtain ⟨rfl, hrest⟩ := entries_cancel ih (fun e he => hg.entry he) (fun e he => hh.entry he)
        (node_cancel_one heq)
      exact ⟨rfl, (List.cons.inj hrest).2⟩
    | _ => exact absurd (nodeType_eq heq) (by simp [nodeType])
  | invocation f xs ih =>
    intro h r s hg hh heq
    cases h with
    | invocation k ys =>
      obtain ⟨rfl, hvalue⟩ := Json.quoted_cancel (node_cancel_two heq)
      obtain ⟨-, harguments⟩ := member_cancel (List.cons.inj hvalue).2
      obtain ⟨rfl, hrest⟩ := entries_cancel ih (fun e he => hg.argument he)
        (fun e he => hh.argument he) harguments
      exact ⟨rfl, (List.cons.inj hrest).2⟩
    | _ => exact absurd (nodeType_eq heq) (by simp [nodeType])

/-! ## 5. Serialized forms -/

theorem serialize_cancel {g h : Graph} (hg : g.FiniteConstants) (hh : h.FiniteConstants)
    {rest rest' : String} (heq : g.serialize ++ rest = h.serialize ++ rest') :
    g = h ∧ rest = rest' := by
  have hlists := congrArg String.toList heq
  simp only [serialize, String.toList_append, String.toList_ofList] at hlists
  obtain ⟨hgraphs, hrest⟩ := told g h _ _ hg hh hlists
  exact ⟨hgraphs, String.toList_inj.mp hrest⟩

open Classical in
/-- The graph of numbers at the front of a text, and what comes after it. -/
noncomputable def front? (text : String) : Option (Graph × String) :=
  if h : ∃ p : Graph × String, p.1.FiniteConstants ∧ p.1.serialize ++ p.2 = text then
    some h.choose
  else none

theorem front?_serialize {g : Graph} (hg : g.FiniteConstants) (rest : String) :
    front? (g.serialize ++ rest) = some (g, rest) := by
  have hread : ∃ p : Graph × String,
      p.1.FiniteConstants ∧ p.1.serialize ++ p.2 = g.serialize ++ rest := ⟨(g, rest), hg, rfl⟩
  obtain ⟨hfinite, heq⟩ := hread.choose_spec
  obtain ⟨hgraph, hrest⟩ := serialize_cancel hfinite hg heq
  rw [front?, dif_pos hread]
  exact congrArg some (Prod.ext hgraph hrest)

/-- **The serialized form of a graph of numbers determines the graph.**  Graphs with the same form
are the same, even in the sign of a zero; no form is the beginning of another; and a graph can be
decoded from the front of whatever text begins with its form. -/
theorem serialize_determines :
    (∀ g h : Graph, g.FiniteConstants → h.FiniteConstants → g.serialize = h.serialize → g = h) ∧
      (∀ g h : Graph, g.FiniteConstants → h.FiniteConstants →
        ∀ rest, g.serialize ++ rest = h.serialize → rest = "") ∧
      ∃ decode : String → Option (Graph × String),
        ∀ g : Graph, g.FiniteConstants → ∀ rest, decode (g.serialize ++ rest) = some (g, rest) := by
  refine ⟨fun g h hg hh heq => ?_, fun g h hg hh rest heq => ?_, front?, fun g hg rest => ?_⟩
  · exact (serialize_cancel hg hh (congrArg (· ++ "") heq)).1
  · exact (serialize_cancel hg hh (heq.trans String.append_empty.symm)).2
  · exact front?_serialize hg rest

/-- The two zeros, next to a text that looks like the end of a node. -/
theorem serialize_determines_zeros :
    (list [text "]\x7d", constant 0.0]).serialize ≠
        (list [text "]\x7d", constant (-0.0)]).serialize ∧
      ∃ decode : String → Option (Graph × String),
        decode ((list [text "]\x7d", constant 0.0]).serialize ++ "]\x7d") =
          some (list [text "]\x7d", constant 0.0], "]\x7d") := by
  have hfinite : ∀ v : Float, v.isFinite = true →
      (list [text "]\x7d", constant v]).FiniteConstants := by
    intro v hv
    refine finiteConstants_list fun g hg => ?_
    rcases List.mem_cons.mp hg with rfl | hg
    · exact finiteConstants_text _
    · obtain rfl := List.mem_singleton.mp hg
      exact finiteConstants_constant hv
  have hpos := hfinite 0.0 (by decide +kernel)
  have hneg := hfinite (-0.0) (by decide +kernel)
  obtain ⟨hinjective, -, decode, hdecode⟩ := serialize_determines
  refine ⟨fun heq => ?_, decode, hdecode _ hpos _⟩
  have hgraphs := hinjective _ _ hpos hneg heq
  simp only [list.injEq, List.cons.injEq, constant.injEq, true_and, and_true] at hgraphs
  exact absurd (congrArg Float.toBits hgraphs) (by decide +kernel)

end BandMath.Graph
