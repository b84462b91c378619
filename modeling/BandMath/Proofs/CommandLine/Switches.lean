/-
# One more switch

A switch without a value may be put before all other arguments of a command.  It is taken note of,
and nothing else changes: the arguments after it are read as before (`read_preceded`), unless they
give the same switch once more.  So every computation can also be asked for one result at a time
(`ofArguments_noAggregate`).

The proof follows the reader.  It is shown of every step that what was given before does not matter,
as long as the step does not look at the switch in question: taking note of another switch
(`record_preceded`), reading an argument of either form (`readLong_preceded`,
`readLetters_preceded`), and adding a word.  `read_preceded` puts this together, by induction on the
arguments.

A switch that may be given once only is refused when it is given again, so it has to be asked that
the arguments do not give it.  Whether they do is seen in the end, for what is taken note of is
never dropped: if the switch is not there at the end, it was not there at any time before.

The arguments before the command have no part in this.  What is read of them does not depend on what
comes after the command (`readUpToWord_append`), except for help, which is no computation.
-/
import BandMath.CommandLine.Invocation
import BandMath.Proofs.Fallible

namespace BandMath.CommandLine

variable {switches : List Switch} {maxWords : Option Nat} {waiting waiting' : Option Switch}
  {g g' : Given} {args : List String} {long v : String}

/-! ## 1. Given before anything else -/

/-- What is given when a switch stands before all others. -/
def Given.preceded (g : Given) (long v : String) : Given :=
  { g with values := (long, v) :: g.values }

theorem Given.value?_preceded {other : String} (h : other ≠ long) :
    (g.preceded long v).value? other = g.value? other := by
  have hne : (other == long) = false := beq_false_of_ne h
  simp [value?, preceded, List.lookup_cons, hne]

theorem Given.has_preceded {other : String} (h : other ≠ long) :
    (g.preceded long v).has other = g.has other := by
  rw [has, has, value?_preceded h]

theorem Given.has_preceded_self : (g.preceded long v).has long = true := by
  simp [has, value?, preceded]

theorem Given.allValues_preceded {other : String} (h : long ≠ other) :
    (g.preceded long v).allValues other = g.allValues other := by
  simp [allValues, preceded, h]

theorem Given.has_iff : g.has long = true ↔ ∃ v, (long, v) ∈ g.values := by
  rw [has, value?, List.lookup_eq_findSome?, List.findSome?_isSome_iff]
  constructor
  · rintro ⟨⟨other, v⟩, hmem, h⟩
    have heq : long = other := by simpa using h
    exact ⟨v, heq ▸ hmem⟩
  · rintro ⟨v, hmem⟩
    exact ⟨(long, v), hmem, by simp⟩

/-! ## 2. Taking note of a switch -/

/-- What is taken note of stays, so a switch that is not given in the end is not given before. -/
theorem record_preceded {s : Switch} {text : String} (h : record s text g = .ok g')
    (hlong : g'.has long = false) :
    g.has long = false ∧ record s text (g.preceded long v) = .ok (g'.preceded long v) := by
  unfold record at h ⊢
  split at h
  · exact nomatch h
  · exact nomatch h
  · split at h
    · exact nomatch h
    · rename_i hok
      obtain rfl := Except.ok.inj h
      have hne : s.long ≠ long := by
        rintro rfl
        have hgiven : Given.has { g with values := g.values ++ [(s.long, text)] } s.long = true :=
          Given.has_iff.mpr ⟨text, List.mem_append_right _ (List.mem_singleton.mpr rfl)⟩
        rw [hlong] at hgiven
        exact nomatch hgiven
      refine ⟨?_, ?_⟩
      · rw [← Bool.not_eq_true, Given.has_iff] at hlong ⊢
        rintro ⟨w, hw⟩
        exact hlong ⟨w, List.mem_append_left _ hw⟩
      · simp only [Given.has_preceded hne]
        rw [if_neg hok]
        rfl

/-- The same for what ends with taking note of a switch. -/
theorem map_record_preceded {s : Switch} {text : String}
    (h : (record s text g).map (fun g => (g, (none : Option Switch))) = .ok (g', waiting'))
    (hlong : g'.has long = false) :
    g.has long = false ∧ (record s text (g.preceded long v)).map (fun g => (g, none)) =
      .ok (g'.preceded long v, waiting') := by
  obtain ⟨g'', hrecord, heq⟩ := map_eq_ok_iff.mp h
  obtain ⟨rfl, rfl⟩ := Prod.mk.inj heq
  obtain ⟨hbefore, hpreceded⟩ := record_preceded (v := v) hrecord hlong
  exact ⟨hbefore, map_eq_ok_iff.mpr ⟨_, hpreceded, rfl⟩⟩

/-! ## 3. Reading arguments -/

theorem readLong_preceded {body : List Char}
    (h : readLong switches g body = .ok (g', waiting')) (hlong : g'.has long = false) :
    g.has long = false ∧
      readLong switches (g.preceded long v) body = .ok (g'.preceded long v, waiting') := by
  unfold readLong at h ⊢
  dsimp only at h ⊢
  split at h
  · exact nomatch h
  · split at h
    · rename_i hvalue
      rw [if_pos hvalue]
      obtain ⟨rfl, rfl⟩ := Prod.mk.inj (Except.ok.inj h)
      exact ⟨hlong, rfl⟩
    · rename_i hvalue
      rw [if_neg hvalue]
      exact map_record_preceded h hlong
  · split at h
    · rename_i hvalue
      rw [if_pos hvalue]
      exact map_record_preceded h hlong
    · exact nomatch h

theorem readLetters_preceded {letters : List Char}
    (h : readLetters switches g letters = .ok (g', waiting')) (hlong : g'.has long = false) :
    g.has long = false ∧
      readLetters switches (g.preceded long v) letters =
        .ok (g'.preceded long v, waiting') := by
  induction letters generalizing g with
  | nil =>
    obtain ⟨rfl, rfl⟩ := Prod.mk.inj (Except.ok.inj h)
    exact ⟨hlong, rfl⟩
  | cons c cs ih =>
    unfold readLetters at h ⊢
    cases hs : switches.find? fun s => s.letter = some c with
    | none =>
      rw [hs] at h
      exact nomatch h
    | some s =>
      rw [hs] at h
      dsimp only at h ⊢
      split at h
      · rename_i hnone
        obtain ⟨g'', hrecord, hrest⟩ := bind_eq_ok_iff.mp h
        obtain ⟨hbetween, hletters⟩ := ih hrest
        obtain ⟨hbefore, hpreceded⟩ := record_preceded (v := v) hrecord hbetween
        rw [if_pos hnone, hpreceded]
        exact ⟨hbefore, hletters⟩
      · rename_i hsome
        rw [if_neg hsome]
        split at h
        · obtain ⟨rfl, rfl⟩ := Prod.mk.inj (Except.ok.inj h)
          exact ⟨hlong, rfl⟩
        · exact map_record_preceded h hlong
        · exact map_record_preceded h hlong

theorem addWord_preceded {word : String} (long v : String)
    (h : addWord maxWords g word = .ok g') :
    g'.values = g.values ∧
      addWord maxWords (g.preceded long v) word = .ok (g'.preceded long v) := by
  unfold addWord at h ⊢
  split at h
  · exact nomatch h
  · rename_i hfew
    obtain rfl := Except.ok.inj h
    exact ⟨rfl, if_neg hfew⟩

theorem foldlM_addWord_preceded {words : List String} (long v : String)
    (h : words.foldlM (addWord maxWords) g = .ok g') :
    g'.values = g.values ∧
      words.foldlM (addWord maxWords) (g.preceded long v) = .ok (g'.preceded long v) := by
  induction words generalizing g with
  | nil =>
    obtain rfl := Except.ok.inj h
    exact ⟨rfl, rfl⟩
  | cons word words ih =>
    rw [List.foldlM_cons] at h ⊢
    obtain ⟨g'', hword, hrest⟩ := bind_eq_ok_iff.mp h
    obtain ⟨hvalues, hpreceded⟩ := addWord_preceded long v hword
    obtain ⟨hvalues', hpreceded'⟩ := ih hrest
    rw [hpreceded]
    exact ⟨hvalues'.trans hvalues, hpreceded'⟩

theorem Given.has_congr {g h : Given} (heq : h.values = g.values) : h.has long = g.has long := by
  rw [has, has, value?, value?, heq]

/-- **Arguments are read as before after a switch that they do not give.**  By induction on the
arguments. -/
theorem read_preceded (h : read switches maxWords g waiting args = .ok g')
    (hlong : g'.has long = false) :
    g.has long = false ∧
      read switches maxWords (g.preceded long v) waiting args = .ok (g'.preceded long v) := by
  induction args generalizing g waiting with
  | nil =>
    unfold read at h ⊢
    split at h
    · exact nomatch h
    · rename_i hwaiting
      obtain rfl := Except.ok.inj h
      exact ⟨hlong, if_neg hwaiting⟩
  | cons a rest ih =>
    unfold read at h ⊢
    cases waiting with
    | some s =>
      dsimp only at h ⊢
      split at h
      · exact nomatch h
      · rename_i hword
        obtain ⟨g'', hrecord, hrest⟩ := bind_eq_ok_iff.mp h
        obtain ⟨hbetween, hread⟩ := ih hrest
        obtain ⟨hbefore, hpreceded⟩ := record_preceded (v := v) hrecord hbetween
        rw [if_neg hword, hpreceded]
        exact ⟨hbefore, hread⟩
    | none =>
      dsimp only at h ⊢
      split at h
      · obtain ⟨hvalues, hpreceded⟩ := foldlM_addWord_preceded long v h
        exact ⟨(Given.has_congr hvalues).symm.trans hlong, hpreceded⟩
      · obtain ⟨⟨g'', waiting⟩, hstep, hrest⟩ := bind_eq_ok_iff.mp h
        obtain ⟨hbetween, hread⟩ := ih hrest
        obtain ⟨hbefore, hpreceded⟩ := readLong_preceded (v := v) hstep hbetween
        rw [hpreceded]
        exact ⟨hbefore, hread⟩
      · obtain ⟨⟨g'', waiting⟩, hstep, hrest⟩ := bind_eq_ok_iff.mp h
        obtain ⟨hbetween, hread⟩ := ih hrest
        obtain ⟨hbefore, hpreceded⟩ := readLetters_preceded (v := v) hstep hbetween
        rw [hpreceded]
        exact ⟨hbefore, hread⟩
      · obtain ⟨g'', hword, hrest⟩ := bind_eq_ok_iff.mp h
        obtain ⟨hbetween, hread⟩ := ih hrest
        obtain ⟨hvalues, hpreceded⟩ := addWord_preceded long v hword
        rw [hpreceded]
        exact ⟨(Given.has_congr hvalues).symm.trans hbetween, hread⟩

/-- The arguments after the first word have no influence on what is read before it.  By induction
on the arguments. -/
theorem readUpToWord_append {before : Except Refusal Given} {word : String} {rest : List String}
    (h : readUpToWord switches g waiting args = .ok (before, word :: rest)) :
    ∃ front, args = front ++ word :: rest ∧ ∀ rest',
      readUpToWord switches g waiting (front ++ word :: rest') = .ok (before, word :: rest') := by
  induction args generalizing g waiting with
  | nil =>
    unfold readUpToWord at h
    split at h
    · exact nomatch h
    · exact nomatch h
  | cons a args ih =>
    unfold readUpToWord at h
    cases waiting with
    | some s =>
      dsimp only at h
      split at h
      · exact nomatch h
      · rename_i hvalue
        split at h
        · rename_i hnext
          obtain ⟨g'', hrecord, hrest⟩ := bind_eq_ok_iff.mp h
          obtain ⟨front, rfl, hfront⟩ := ih hrest
          refine ⟨a :: front, rfl, fun rest' => ?_⟩
          have hnext' : (front ++ word :: rest').head?.any isSwitch = true := by
            cases front with
            | nil => exact hnext
            | cons => exact hnext
          rw [List.cons_append, readUpToWord]
          rw [if_neg hvalue, if_pos hnext', hrecord]
          exact hfront rest'
        · rename_i hnext
          obtain ⟨rfl, rfl⟩ := Prod.mk.inj (Except.ok.inj h)
          refine ⟨[a], rfl, fun rest' => ?_⟩
          have hnext' : ¬ (word :: rest').head?.any isSwitch = true := hnext
          rw [List.singleton_append, readUpToWord]
          rw [if_neg hvalue, if_neg hnext']
    | none =>
      dsimp only at h
      split at h
      · exact nomatch h
      · rename_i ha
        obtain ⟨⟨g'', waiting⟩, hstep, hrest⟩ := bind_eq_ok_iff.mp h
        obtain ⟨front, rfl, hfront⟩ := ih hrest
        refine ⟨a :: front, rfl, fun rest' => ?_⟩
        rw [List.cons_append, readUpToWord]
        simp only [ha, hstep, ok_bind]
        exact hfront rest'
      · rename_i ha
        obtain ⟨⟨g'', waiting⟩, hstep, hrest⟩ := bind_eq_ok_iff.mp h
        obtain ⟨front, rfl, hfront⟩ := ih hrest
        refine ⟨a :: front, rfl, fun rest' => ?_⟩
        rw [List.cons_append, readUpToWord]
        simp only [ha, hstep, ok_bind]
        exact hfront rest'
      · obtain ⟨rfl, heq⟩ := Prod.mk.inj (Except.ok.inj h)
        obtain ⟨rfl, rfl⟩ := List.cons.inj heq
        refine ⟨[], rfl, fun rest' => ?_⟩
        rw [List.nil_append, readUpToWord]
        split <;> simp_all

/-! ## 4. Computations -/

/-- The arguments of a command, and what they come to. -/
theorem exists_of_ofCommand {before : Except Refusal Given} {u : Usage} {i : Invocation}
    (h : Request.ofCommand before u args = .run i) :
    ∃ front g, before = .ok front ∧
      read (u.switches ++ commonSwitches ++ [helpSwitch]) u.maxWords {} none args = .ok g ∧
      Command.ofGiven? u.name g = some i.command ∧
      i.registry = (g.value? "registry").or (front.value? "registry") ∧
      i.threads = ((g.value? "threads").or (front.value? "threads")).bind threads? := by
  unfold Request.ofCommand at h
  split at h
  · exact nomatch h
  · exact nomatch h
  · exact nomatch h
  · rename_i g hread
    split at h
    · rename_i front command hcommand
      obtain rfl := Request.run.inj h
      exact ⟨front, g, rfl, hread, hcommand, rfl, rfl⟩
    · exact nomatch h

/-- The command of a command line. -/
theorem exists_of_ofArguments {i : Invocation} (h : Request.ofArguments args = .run i) :
    ∃ before u rest,
      readUpToWord (commonSwitches ++ [helpSwitch, versionSwitch]) {} none args =
        .ok (before, u.name :: rest) ∧
      commands.find? (fun w => w.name = u.name) = some u ∧ u.name ≠ helpCommand ∧
      Request.ofCommand before u rest = .run i := by
  unfold Request.ofArguments at h
  split at h
  · exact nomatch h
  · exact nomatch h
  · exact nomatch h
  · exact nomatch h
  · rename_i before name rest hread
    split at h
    · split at h
      · exact nomatch h
      · split at h
        · exact nomatch h
        · exact nomatch h
      · exact nomatch h
    · rename_i hhelp
      split at h
      · rename_i u hu
        obtain rfl : u.name = name := by simpa using List.find?_some hu
        exact ⟨before, u, rest, hread, hu, hhelp, h⟩
      · exact nomatch h

section Compute

variable {name axis : String} {indices : List String} {parameters : List (String × List Float)}
  {defaults aggregate : Bool} {registry : Option String} {threads : Option Nat}

theorem ofGiven?_eq_compute
    (h : Command.ofGiven? name g = some (.compute indices parameters defaults aggregate axis)) :
    name = "compute" ∧ g.words = indices ∧ indices ≠ [] ∧ g.parameters = parameters ∧
      g.has "defaults" = defaults ∧ (!g.has "no-aggregate") = aggregate ∧
      (g.value? "axis").getD defaultAxis = axis := by
  unfold Command.ofGiven? at h
  split at h
  · exact nomatch h
  · exact nomatch h
  · exact nomatch h
  · rename_i hwords
    injection h with h
    injection h with h₁ h₂ h₃ h₄ h₅
    subst h₁
    exact ⟨rfl, hwords, List.cons_ne_nil _ _, h₂, h₃, h₄, h₅⟩
  · exact nomatch h
  · exact nomatch h

/-- A computation is asked for one by one by the switch in front of its arguments. -/
theorem ofGiven?_preceded
    (h : Command.ofGiven? "compute" g = some (.compute indices parameters defaults true axis)) :
    Command.ofGiven? "compute" (g.preceded "no-aggregate" "") =
      some (.compute indices parameters defaults false axis) := by
  obtain ⟨-, hwords, hne, rfl, rfl, -, rfl⟩ := ofGiven?_eq_compute h
  obtain ⟨index, more, rfl⟩ := List.exists_cons_of_ne_nil hne
  have hwords' : (g.preceded "no-aggregate" "").words = index :: more := hwords
  unfold Command.ofGiven?
  rw [hwords', Given.parameters, Given.allValues_preceded (by decide),
    Given.has_preceded (by decide), Given.has_preceded_self, Given.value?_preceded (by decide)]
  rfl

/-- **Every computation can be asked for one by one**: with the switch right after the name of the
command. -/
theorem ofArguments_noAggregate
    (h : Request.ofArguments args =
      .run ⟨registry, threads, .compute indices parameters defaults true axis⟩) :
    ∃ before rest, args = before ++ "compute" :: rest ∧
      Request.ofArguments (before ++ "compute" :: "--no-aggregate" :: rest) =
        .run ⟨registry, threads, .compute indices parameters defaults false axis⟩ := by
  obtain ⟨before, u, rest, hup, hu, hhelp, hcommand⟩ := exists_of_ofArguments h
  obtain ⟨front, g, rfl, hread, hgiven, hregistry, hthreads⟩ := exists_of_ofCommand hcommand
  dsimp only at hgiven hregistry hthreads
  subst hregistry hthreads
  obtain ⟨hname, -, -, -, -, haggregate, -⟩ := ofGiven?_eq_compute hgiven
  have hlong : g.has "no-aggregate" = false := by simpa using haggregate
  rw [hname] at hup hu hhelp hgiven
  obtain rfl : computeUsage = u := Option.some.inj hu
  obtain ⟨arguments, rfl, hfront⟩ := readUpToWord_append hup
  refine ⟨arguments, rest, rfl, ?_⟩
  obtain ⟨-, hpreceded⟩ := read_preceded (v := "") hread hlong
  have hread' : read (computeUsage.switches ++ commonSwitches ++ [helpSwitch])
      computeUsage.maxWords {} none ("--no-aggregate" :: rest) =
        .ok (g.preceded "no-aggregate" "") := hpreceded
  have hgiven' := ofGiven?_preceded hgiven
  unfold Request.ofArguments
  rw [hfront ("--no-aggregate" :: rest)]
  dsimp only
  rw [if_neg hhelp, hu]
  dsimp only
  unfold Request.ofCommand
  rw [hread']
  dsimp only
  rw [hname, hgiven', Given.value?_preceded (by decide), Given.value?_preceded (by decide)]

end Compute

end BandMath.CommandLine
