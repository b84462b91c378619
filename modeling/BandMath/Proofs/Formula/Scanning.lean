/-
# Scanning loses nothing

`Scanned text start stop ls` describes what scanning has found between two places, without going
through the text: each lexeme is the longest word of its class at the place where it starts, the
lexemes are apart from each other, and whatever is not in a lexeme is blank.

From the start of a text there is one such description that goes as far as possible.  It ends
either with the text or at a place where no token can be read (`exists_scanned`), and this is where
the scanner ends, with the lexemes described or with the fault (`lexemes_lossless`).

There is only one description between two given places, because a text cannot go on in two ways: a
blank is in no lexeme (`Scanned.of_blank`), and what is not blank is the start of one
(`Scanned.exists_lexeme`).  So a description can be taken apart from its beginning, in steps of a
blank or of a lexeme, which is the induction that the scanner is compared by (`Scanned.induct`).

What a caller knows of lexemes follows from the description alone: they are in the order of their
places (`Scanned.pairwise_start`), and together they are the text without its blanks
(`Scanned.flatMap_source`).
-/
import BandMath.Formula.Basic
import BandMath.Proofs.Formula.WordClasses

namespace BandMath.Formula

/-! ## 1. Lexemes at their places -/

/-- The place right behind a lexeme. -/
def Lexeme.stop (x : Lexeme) : Nat :=
  x.start + x.source.length

/-- The lexeme is what stands at its place in the text. -/
structure Lexeme.StandsIn (x : Lexeme) (text : List Char) : Prop where
  reads : x.token.Reads x.source
  longest : Longest x.token.wordClass x.source (text.drop x.start)
  nonempty : x.source ≠ []
  noBlank : ∀ c ∈ x.source, Text.isBlank c = false

/-- Between the two places, the text consists of the lexemes, in this order, and of blanks.  The
text behind the second place counts only where a lexeme must be the longest word. -/
structure Scanned (text : List Char) (start stop : Nat) (ls : List Lexeme) : Prop where
  bounds : start ≤ stop ∧ stop ≤ text.length
  stands : ∀ x ∈ ls, x.StandsIn text
  within : ∀ x ∈ ls, start ≤ x.start ∧ x.stop ≤ stop
  apart : ls.Pairwise fun x y => x.stop ≤ y.start
  between : ∀ (i : Nat) (c : Char), start ≤ i → i < stop → text[i]? = some c →
    (∀ x ∈ ls, i < x.start ∨ x.stop ≤ i) → Text.isBlank c = true

variable {text source rest : List Char} {start stop : Nat} {x : Lexeme} {ls : List Lexeme}
  {c : Char} {t : Token} {reason : Reason}

theorem Lexeme.StandsIn.start_lt_stop (h : x.StandsIn text) : x.start < x.stop := by
  have hpos := List.length_pos_iff.mpr h.nonempty
  rw [Lexeme.stop]
  omega

theorem Lexeme.StandsIn.exists_spells (h : x.StandsIn text) :
    ∃ rest, text.drop x.start = x.source ++ rest ∧ Spells x.token x.source rest := by
  obtain ⟨rest, hrest⟩ := h.longest.front
  refine ⟨rest, hrest.symm, spells_iff.mpr ⟨h.reads, ?_⟩⟩
  rw [hrest]
  exact h.longest

theorem standsIn_of_spells (htext : text.drop start = source ++ rest) (ht : Spells t source rest) :
    Lexeme.StandsIn ⟨t, start, source⟩ text := by
  obtain ⟨hreads, hlongest⟩ := spells_iff.mp ht
  rw [← htext] at hlongest
  exact ⟨hreads, hlongest, ht.source_ne_nil, ht.isBlank_eq_false⟩

theorem getElem?_of_drop_eq_cons (h : text.drop start = c :: rest) : text[start]? = some c := by
  rw [← List.head?_drop, h, List.head?_cons]

theorem drop_of_drop_eq_append (h : text.drop start = source ++ rest) :
    text.drop (start + source.length) = rest := by
  rw [← List.drop_drop, h, List.drop_left]

theorem drop_of_drop_eq_cons (h : text.drop start = c :: rest) : text.drop (start + 1) = rest := by
  rw [← List.drop_drop, h, List.drop_one, List.tail_cons]

theorem exists_drop_eq_cons (h : start < text.length) : ∃ c rest, text.drop start = c :: rest :=
  ⟨_, _, List.drop_eq_getElem_cons h⟩

/-! ## 2. Steps of a scan -/

namespace Scanned

theorem nil (h : stop ≤ text.length) : Scanned text stop stop [] where
  bounds := ⟨Nat.le_refl stop, h⟩
  stands := fun _ hx => nomatch hx
  within := fun _ hx => nomatch hx
  apart := .nil
  between := fun _ _ hstart hstop => absurd hstop (Nat.not_lt.mpr hstart)

theorem blank (htext : text.drop start = c :: rest) (hc : Text.isBlank c = true)
    (h : Scanned text (start + 1) stop ls) : Scanned text start stop ls where
  bounds := ⟨Nat.le_of_succ_le h.bounds.1, h.bounds.2⟩
  stands := h.stands
  within := fun x hx => ⟨Nat.le_of_succ_le (h.within x hx).1, (h.within x hx).2⟩
  apart := h.apart
  between := by
    intro i d hstart hstop hd hout
    rcases Nat.eq_or_lt_of_le hstart with rfl | hlt
    · rw [getElem?_of_drop_eq_cons htext] at hd
      rwa [← Option.some.inj hd]
    · exact h.between i d hlt hstop hd hout

theorem lexeme (htext : text.drop start = source ++ rest) (ht : Spells t source rest)
    (h : Scanned text (start + source.length) stop ls) :
    Scanned text start stop (⟨t, start, source⟩ :: ls) where
  bounds := ⟨Nat.le_trans (Nat.le_add_right ..) h.bounds.1, h.bounds.2⟩
  stands := List.forall_mem_cons.mpr ⟨standsIn_of_spells htext ht, h.stands⟩
  within := by
    refine List.forall_mem_cons.mpr ⟨⟨Nat.le_refl start, h.bounds.1⟩, fun x hx => ?_⟩
    exact ⟨Nat.le_trans (Nat.le_add_right ..) (h.within x hx).1, (h.within x hx).2⟩
  apart := List.pairwise_cons.mpr ⟨fun x hx => (h.within x hx).1, h.apart⟩
  between := by
    intro i d hstart hstop hd hout
    obtain ⟨hfirst, hout⟩ := List.forall_mem_cons.mp hout
    exact h.between i d (hfirst.resolve_left (Nat.not_lt.mpr hstart)) hstop hd hout

/-- Between a place and itself there is nothing. -/
theorem eq_nil (h : Scanned text start start ls) : ls = [] := by
  refine List.eq_nil_iff_forall_not_mem.mpr fun x hx => ?_
  have hwithin := h.within x hx
  have hlt := (h.stands x hx).start_lt_stop
  omega

/-- A blank is in no lexeme, so the lexemes are those behind it. -/
theorem of_blank (h : Scanned text start stop ls) (htext : text.drop start = c :: rest)
    (hc : Text.isBlank c = true) (hlt : start < stop) : Scanned text (start + 1) stop ls where
  bounds := ⟨hlt, h.bounds.2⟩
  stands := h.stands
  within := by
    intro x hx
    obtain ⟨hstart, hstop⟩ := h.within x hx
    -- a lexeme that starts here would begin with the blank
    refine ⟨Nat.lt_of_le_of_ne hstart fun heq => ?_, hstop⟩
    obtain ⟨tail, htail, ht⟩ := (h.stands x hx).exists_spells
    rw [← heq, htext] at htail
    obtain ⟨d, word, hword⟩ := List.exists_cons_of_ne_nil ht.source_ne_nil
    rw [hword] at htail
    have hd : Text.isBlank d = false := ht.isBlank_eq_false d (hword ▸ List.mem_cons_self)
    rw [← (List.cons.inj htail).1, hc] at hd
    exact nomatch hd
  apart := h.apart
  between := fun i d hstart hstop hd hout =>
    h.between i d (Nat.le_of_succ_le hstart) hstop hd hout

/-- What is not blank is in a lexeme, and the first one starts with it. -/
theorem exists_lexeme (h : Scanned text start stop ls) (htext : text.drop start = c :: rest)
    (hc : Text.isBlank c = false) (hlt : start < stop) :
    ∃ x tail, ls = x :: tail ∧ x.start = start ∧ Scanned text x.stop stop tail := by
  have hcovered : ∃ x ∈ ls, x.start ≤ start ∧ start < x.stop := by
    by_contra hnone
    have hblank := h.between start c (Nat.le_refl start) hlt (getElem?_of_drop_eq_cons htext)
      fun x hx => by
        by_contra hin
        exact hnone ⟨x, hx, by omega⟩
    rw [hc] at hblank
    exact nomatch hblank
  obtain ⟨y, hy, hle, hlt'⟩ := hcovered
  cases ls with
  | nil => exact nomatch hy
  | cons x tail =>
    obtain ⟨hafter, hapart⟩ := List.pairwise_cons.mp h.apart
    obtain ⟨hx, hwithin⟩ := List.forall_mem_cons.mp h.within
    obtain ⟨hstands, htail⟩ := List.forall_mem_cons.mp h.stands
    -- a lexeme before the one that holds the character would lie before the start of the scan
    have hstart : x.start = start := by
      rcases List.mem_cons.mp hy with rfl | hy
      · omega
      · have hbefore := hafter y hy
        have hpos := hstands.start_lt_stop
        omega
    refine ⟨x, tail, rfl, hstart, ⟨⟨hx.2, h.bounds.2⟩, htail, ?_, hapart, ?_⟩⟩
    · exact fun y hy => ⟨hafter y hy, (hwithin y hy).2⟩
    · intro i d hi hstop hd hout
      have hpos := hstands.start_lt_stop
      exact h.between i d (by omega) hstop hd (List.forall_mem_cons.mpr ⟨.inr hi, hout⟩)

/-- Induction along a scan, from its end: a scan that has not ended begins with a blank or with a
lexeme. -/
theorem induct {P : ∀ start ls, Scanned text start stop ls → Prop}
    (nil : ∀ h, P stop [] (.nil h))
    (blank : ∀ {start c rest ls} (htext : text.drop start = c :: rest)
      (hc : Text.isBlank c = true) (h : Scanned text (start + 1) stop ls),
      P (start + 1) ls h → P start ls (h.blank htext hc))
    (lexeme : ∀ {start t source rest ls} (htext : text.drop start = source ++ rest)
      (ht : Spells t source rest) (h : Scanned text (start + source.length) stop ls),
      P (start + source.length) ls h → P start (⟨t, start, source⟩ :: ls) (h.lexeme htext ht))
    (h : Scanned text start stop ls) : P start ls h := by
  induction hn : stop - start using Nat.strongRecOn generalizing start ls with
  | _ n ih =>
    rcases Nat.eq_or_lt_of_le h.bounds.1 with rfl | hlt
    · obtain rfl := h.eq_nil
      exact nil h.bounds.2
    obtain ⟨c, rest, htext⟩ := exists_drop_eq_cons (Nat.lt_of_lt_of_le hlt h.bounds.2)
    cases hc : Text.isBlank c with
    | true =>
      have hrest := h.of_blank htext hc hlt
      exact blank htext hc hrest (ih _ (by omega) hrest rfl)
    | false =>
      obtain ⟨x, tail, rfl, rfl, hrest⟩ := h.exists_lexeme htext hc hlt
      have hstands := h.stands x List.mem_cons_self
      have hpos := hstands.start_lt_stop
      obtain ⟨after, hsource, ht⟩ := hstands.exists_spells
      exact lexeme hsource ht hrest (ih _ (by omega) hrest rfl)

/-! ## 3. What a scan keeps -/

/-- Lexemes are in the order of their places. -/
theorem pairwise_start (h : Scanned text start stop ls) : ls.Pairwise (·.start < ·.start) := by
  refine h.apart.imp_of_mem ?_
  intro x y hx _ hapart
  exact Nat.lt_of_lt_of_le (h.stands x hx).start_lt_stop hapart

/-- **The lexemes together are the text without its blanks.** -/
theorem flatMap_source (h : Scanned text start stop ls) :
    ls.flatMap (·.source) = Text.strip ((text.drop start).take (stop - start)) := by
  induction h using induct with
  | nil => simp [Text.strip]
  | @blank start c rest ls htext hc hrest ih =>
    have hlength : stop - start = stop - (start + 1) + 1 := by
      have := hrest.bounds
      omega
    rw [ih, drop_of_drop_eq_cons htext, htext, hlength, List.take_succ_cons]
    simp [Text.strip, hc]
  | @lexeme start t source rest ls htext ht hrest ih =>
    have hlength : stop - start = source.length + (stop - (start + source.length)) := by
      have := hrest.bounds
      omega
    rw [List.flatMap_cons, ih, drop_of_drop_eq_append htext, htext, hlength,
      List.take_length_add_append, Text.strip_append, Text.stripped_iff.mpr ht.isBlank_eq_false]

/-! ## 4. The scanner -/

/-- Where the text is scanned, the scanner comes to the end with the lexemes. -/
theorem scan_eq (h : Scanned text start stop ls) : ∀ found,
    scan found start 0 (text.drop start) = scan (ls.reverse ++ found) stop 0 (text.drop stop) := by
  induction h using induct with
  | nil => exact fun found => rfl
  | blank htext hc _ ih =>
    intro found
    rw [htext, scan, if_pos hc, ← drop_of_drop_eq_cons htext, ih]
  | lexeme htext ht _ ih =>
    intro found
    rw [htext, scan_lexeme ht, ← drop_of_drop_eq_append htext, ih]
    simp

theorem lexemes_eq_scan (h : Scanned text 0 stop ls) :
    lexemes text = scan ls.reverse stop 0 (text.drop stop) := by
  have hscan := h.scan_eq []
  rwa [List.append_nil] at hscan

theorem lexemes_eq_ok (h : Scanned text 0 text.length ls) : lexemes text = .ok ls := by
  rw [h.lexemes_eq_scan, List.drop_length, scan, List.reverse_reverse]

theorem lexemes_eq_error (h : Scanned text 0 stop ls)
    (hfault : Unreadable (text.drop stop) reason) : lexemes text = .error ⟨stop, reason⟩ := by
  rw [h.lexemes_eq_scan]
  have hfirst := firstToken_of_unreadable hfault
  obtain ⟨c, rest, htext, hc⟩ := hfault.exists_cons
  rw [htext] at hfirst ⊢
  rw [scan, if_neg (by simp [hc]), hfirst]

end Scanned

/-- **Scanning comes to an end**: to that of the text, or to a place where nothing can be read. -/
theorem exists_scanned (h : start ≤ text.length) : ∃ stop ls, Scanned text start stop ls ∧
    (stop = text.length ∨ ∃ reason, Unreadable (text.drop stop) reason) := by
  induction hn : text.length - start using Nat.strongRecOn generalizing start with
  | _ n ih =>
    rcases Nat.eq_or_lt_of_le h with rfl | hlt
    · exact ⟨_, [], .nil h, .inl rfl⟩
    obtain ⟨c, rest, htext⟩ := exists_drop_eq_cons hlt
    cases hc : Text.isBlank c with
    | true =>
      obtain ⟨stop, ls, hls, hend⟩ := ih _ (by omega) hlt rfl
      exact ⟨stop, ls, hls.blank htext hc, hend⟩
    | false =>
      cases hfirst : firstToken (text.drop start) with
      | error reason =>
        refine ⟨start, [], .nil h, .inr ⟨reason, ?_⟩⟩
        rw [htext] at hfirst ⊢
        exact (firstToken_eq_error_iff hc).mp hfirst
      | ok found =>
        obtain ⟨t, source⟩ := found
        obtain ⟨rest, hsource, ht⟩ := firstToken_eq_ok_iff.mp hfirst
        have hlength := congrArg List.length hsource
        have hpos := List.length_pos_iff.mpr ht.source_ne_nil
        rw [List.length_drop, List.length_append] at hlength
        obtain ⟨stop, ls, hls, hend⟩ := ih _ (by omega)
          (show start + source.length ≤ text.length by omega) rfl
        exact ⟨stop, _, hls.lexeme hsource ht, hend⟩

theorem lexemes_eq_ok_iff_scanned : lexemes text = .ok ls ↔ Scanned text 0 text.length ls := by
  refine ⟨fun h => ?_, Scanned.lexemes_eq_ok⟩
  obtain ⟨stop, found, hfound, rfl | ⟨reason, hfault⟩⟩ := exists_scanned (Nat.zero_le text.length)
  · rw [hfound.lexemes_eq_ok] at h
    rwa [← Except.ok.inj h]
  · rw [hfound.lexemes_eq_error hfault] at h
    exact nomatch h

theorem lexemes_eq_error_iff : lexemes text = .error ⟨stop, reason⟩ ↔
    (∃ ls, Scanned text 0 stop ls) ∧ Unreadable (text.drop stop) reason := by
  refine ⟨fun h => ?_, fun ⟨⟨ls, hls⟩, hfault⟩ => hls.lexemes_eq_error hfault⟩
  obtain ⟨place, found, hfound, rfl | ⟨why, hfault⟩⟩ := exists_scanned (Nat.zero_le text.length)
  · rw [hfound.lexemes_eq_ok] at h
    exact nomatch h
  · rw [hfound.lexemes_eq_error hfault] at h
    obtain ⟨rfl, rfl⟩ := Fault.mk.inj (Except.error.inj h)
    exact ⟨⟨found, hfound⟩, hfault⟩

/-- **Scanning is lossless, and fails only where nothing can be read.**  Every text is scanned to
its end or to such a place.  It has the lexemes that it is scanned into as a whole, in the order of
their places, and together they are the text without its blanks.  It is refused at the place up to
which it is scanned into lexemes and where no token can be read, for what stands there. -/
theorem lexemes_lossless (text : String) :
    (∃ stop ls, Scanned text.toList 0 stop ls ∧
      (stop = text.length ∨ ∃ reason, Unreadable (text.toList.drop stop) reason)) ∧
      (∀ ls, lexemes text.toList = .ok ls ↔ Scanned text.toList 0 text.length ls) ∧
      (∀ ls, lexemes text.toList = .ok ls → ls.Pairwise (·.start < ·.start) ∧
        String.ofList (ls.flatMap (·.source)) = normalize text) ∧
      ∀ stop reason, lexemes text.toList = .error ⟨stop, reason⟩ ↔
        (∃ ls, Scanned text.toList 0 stop ls) ∧ Unreadable (text.toList.drop stop) reason := by
  rw [← String.length_toList]
  refine ⟨exists_scanned (Nat.zero_le _), fun ls => lexemes_eq_ok_iff_scanned, fun ls h => ?_,
    fun stop reason => lexemes_eq_error_iff⟩
  have hls := lexemes_eq_ok_iff_scanned.mp h
  refine ⟨hls.pairwise_start, ?_⟩
  rw [hls.flatMap_source, normalize, List.drop_zero, Nat.sub_zero, List.take_length]

/-- A numeral with an exponent and one without, each before a name, and a run with two points. -/
theorem lexemes_lossless_exponents :
    let ls : List Lexeme := [⟨.number 100000, 0, ['1', 'e', '5']⟩, ⟨.name "x", 3, ['x']⟩,
      ⟨.power, 5, ['*', '*']⟩, ⟨.number 1, 7, ['1']⟩, ⟨.name "e", 8, ['e']⟩]
    Scanned "1e5x **1e".toList 0 9 ls ∧
      String.ofList (ls.flatMap (·.source)) = normalize "1e5x **1e" ∧
      (∃ ls, Scanned "a 1.2.3e4".toList 0 2 ls) ∧
      Unreadable ("a 1.2.3e4".toList.drop 2) (.invalidNumber "1.2.3e4") := by
  intro ls
  have hls : lexemes "1e5x **1e".toList = .ok ls := by decide +kernel
  have hfault : lexemes "a 1.2.3e4".toList = .error ⟨2, .invalidNumber "1.2.3e4"⟩ := by
    decide +kernel
  obtain ⟨-, hok, hall, -⟩ := lexemes_lossless "1e5x **1e"
  obtain ⟨-, -, -, herror⟩ := lexemes_lossless "a 1.2.3e4"
  exact ⟨(hok ls).mp hls, (hall ls hls).2, (herror _ _).mp hfault⟩

end BandMath.Formula
