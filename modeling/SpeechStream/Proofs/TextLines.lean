import SpeechStream.Text.Blank
/-!
Lines and words of text files.

A text is cut into lines at exactly three breaks: a line feed, a carriage return followed by a
line feed, and a carriage return that no line feed follows; a last line without a break is
kept when it is not empty. `Text.Lines` is that grammar and `Text.lines` computes its one
derivation (`Text.lines_eq_iff`).

Words are the maximal runs of non-blank characters, so a line has none exactly when each of its
characters is blank (`Text.words_eq_nil_iff`), and two non-blank texts with a space between
them are read back as two words (`Text.words_pair`).
-/

set_option autoImplicit false

namespace SpeechStream.Text

/-- A line: text with no line feed and no carriage return. -/
def IsLine (l : List Char) : Prop := '\n' ∉ l ∧ '\r' ∉ l

/-- How a text is cut into lines: each line followed by its break, the last one possibly
without. A carriage return is a break of its own only when no line feed follows it. -/
inductive Lines : List Char → List (List Char) → Prop
  | nil : Lines [] []
  | last {l : List Char} : IsLine l → l ≠ [] → Lines l [l]
  | lf {l rest : List Char} {ls : List (List Char)} : IsLine l → Lines rest ls →
      Lines (l ++ '\n' :: rest) (l :: ls)
  | crlf {l rest : List Char} {ls : List (List Char)} : IsLine l → Lines rest ls →
      Lines (l ++ '\r' :: '\n' :: rest) (l :: ls)
  | cr {l rest : List Char} {ls : List (List Char)} : IsLine l → rest.head? ≠ some '\n' →
      Lines rest ls → Lines (l ++ '\r' :: rest) (l :: ls)

theorem isLine_nil : IsLine [] := ⟨List.not_mem_nil, List.not_mem_nil⟩

theorem isLine_cons {c : Char} {l : List Char} : IsLine (c :: l) ↔ c ≠ '\n' ∧ c ≠ '\r' ∧ IsLine l := by
  simp only [IsLine, List.mem_cons, not_or]
  constructor
  · rintro ⟨⟨h1, h2⟩, h3, h4⟩
    exact ⟨Ne.symm h1, Ne.symm h3, h2, h4⟩
  · rintro ⟨h1, h3, h2, h4⟩
    exact ⟨⟨Ne.symm h1, h2⟩, Ne.symm h3, h4⟩

theorem isLine_reverse {l : List Char} : IsLine l.reverse ↔ IsLine l := by
  simp [IsLine]

theorem isLine_append {a b : List Char} : IsLine (a ++ b) ↔ IsLine a ∧ IsLine b := by
  simp only [IsLine, List.mem_append, not_or]
  constructor
  · rintro ⟨⟨h1, h2⟩, h3, h4⟩
    exact ⟨⟨h1, h3⟩, h2, h4⟩
  · rintro ⟨⟨h1, h3⟩, h2, h4⟩
    exact ⟨⟨h1, h2⟩, h3, h4⟩

theorem isLine_of_not_blank {l : List Char} (h : ∀ c ∈ l, isBlank c = false) : IsLine l :=
  ⟨fun hn => absurd (h _ hn) (by decide), fun hr => absurd (h _ hr) (by decide)⟩

theorem linesOf_append {l : List Char} (hl : IsLine l) (cur cs : List Char) :
    linesOf cur (l ++ cs) = linesOf (l.reverse ++ cur) cs := by
  induction l generalizing cur with
  | nil => rfl
  | cons c l ih =>
    obtain ⟨hn, hr, hl⟩ := isLine_cons.1 hl
    rw [List.cons_append, linesOf.eq_5 _ _ _ (fun _ h _ => hr h) hr hn, ih hl]
    simp

theorem lines_linesOf (cur cs : List Char) (hcur : IsLine cur) :
    Lines (cur.reverse ++ cs) (linesOf cur cs) := by
  fun_induction linesOf cur cs with
  | case1 cur h =>
    rw [List.isEmpty_iff.1 h]
    exact .nil
  | case2 cur h =>
    rw [List.append_nil]
    exact .last (isLine_reverse.2 hcur) (by simpa using h)
  | case3 cur rest ih => exact .crlf (isLine_reverse.2 hcur) (ih isLine_nil)
  | case4 cur rest hrest ih =>
    refine .cr (isLine_reverse.2 hcur) ?_ (ih isLine_nil)
    intro h
    obtain ⟨rest', rfl⟩ : ∃ rest', rest = '\n' :: rest' := by
      cases rest with
      | nil => cases h
      | cons c rest' => exact ⟨rest', by simp_all⟩
    exact hrest rest' rfl
  | case5 cur rest ih => exact .lf (isLine_reverse.2 hcur) (ih isLine_nil)
  | case6 cur c rest hcr hr hn ih =>
    simpa using ih (isLine_cons.2 ⟨hn, hr, hcur⟩)

theorem linesOf_of_lines {cs : List Char} {ls : List (List Char)} (h : Lines cs ls) :
    linesOf [] cs = ls := by
  induction h with
  | nil => rfl
  | @last l hl hne =>
    rw [← List.append_nil l, linesOf_append hl, linesOf.eq_1]
    simp [hne]
  | @lf l rest ls hl _ ih =>
    rw [linesOf_append hl, linesOf.eq_4, ih]
    simp
  | @crlf l rest ls hl _ ih =>
    rw [linesOf_append hl, linesOf.eq_2, ih]
    simp
  | @cr l rest ls hl hnext _ ih =>
    rw [linesOf_append hl, linesOf.eq_3 _ _ (fun rest' h => hnext (by simp [h])), ih]
    simp

theorem linesOf_eq_iff (cs : List Char) (ls : List (List Char)) : linesOf [] cs = ls ↔ Lines cs ls := by
  constructor
  · rintro rfl
    simpa using lines_linesOf [] cs isLine_nil
  · exact linesOf_of_lines

theorem lines_eq_iff (s : String) (ls : List String) : lines s = ls ↔ Lines s.toList (ls.map String.toList) := by
  rw [← linesOf_eq_iff, lines]
  constructor
  · rintro rfl
    simp [List.map_map, Function.comp_def]
  · intro h
    rw [h, List.map_map]
    simp [Function.comp_def]

theorem wordsOf_cons_blank {c : Char} (hc : isBlank c = true) (cs : List Char) :
    wordsOf (c :: cs) = wordsOf cs := by
  simp [wordsOf, List.splitOnP_cons_eq_if_modifyHead, hc]

theorem wordsOf_cons_ne_nil {c : Char} (hc : isBlank c = false) (cs : List Char) : wordsOf (c :: cs) ≠ [] := by
  have hne := List.splitOnP_ne_nil isBlank cs
  obtain ⟨w, ws, hw⟩ := List.exists_cons_of_ne_nil hne
  simp [wordsOf, List.splitOnP_cons_eq_if_modifyHead, hc, hw]

theorem wordsOf_eq_nil_iff (cs : List Char) : wordsOf cs = [] ↔ ∀ c ∈ cs, isBlank c = true := by
  induction cs with
  | nil => simp [wordsOf]
  | cons c cs ih =>
    cases hc : isBlank c with
    | true => simp [wordsOf_cons_blank hc, ih, hc]
    | false => simp [wordsOf_cons_ne_nil hc, hc]

theorem words_eq_nil_iff (s : String) : words s = [] ↔ ∀ c ∈ s.toList, isBlank c = true := by
  simp [words, wordsOf_eq_nil_iff]

theorem wordsOf_word_blank {w : List Char} (hw : ∀ c ∈ w, isBlank c = false) (hne : w ≠ [])
    {c : Char} (hc : isBlank c = true) (cs : List Char) :
    wordsOf (w ++ c :: cs) = w :: wordsOf cs := by
  simp [wordsOf, List.splitOnP_append_cons_of_forall_mem hw c hc, hne]

theorem wordsOf_word {w : List Char} (hw : ∀ c ∈ w, isBlank c = false) (hne : w ≠ []) :
    wordsOf w = [w] := by
  simp [wordsOf, List.splitOnP_eq_singleton hw, hne]

theorem words_pair {a b : String} (ha : ∀ c ∈ a.toList, isBlank c = false) (hane : a ≠ "")
    (hb : ∀ c ∈ b.toList, isBlank c = false) (hbne : b ≠ "") : words (a ++ " " ++ b) = [a, b] := by
  have hsp : isBlank ' ' = true := by decide
  have ha' : a.toList ≠ [] := by simpa using hane
  have hb' : b.toList ≠ [] := by simpa using hbne
  simp only [words, String.toList_append, List.append_assoc]
  rw [show " ".toList = [' '] from rfl, List.singleton_append, wordsOf_word_blank ha ha' hsp,
    wordsOf_word hb hb']
  simp

end SpeechStream.Text
