import SpeechStream.Vocabulary
import SpeechStream.Proofs.TextLines
import SpeechStream.Proofs.MetadataDocuments
import Mathlib.Data.List.ReduceOption
/-!
Vocabulary files.

A vocabulary file is read line by line, once its text is cut into lines (`Text.lines_eq_iff`).
A line without words is skipped and a line of a symbol and an integer text gives an entry
(`Vocabulary.LineEntry`); any other line is a fault (`Vocabulary.LineFault`): a count of words
other than two names the line, counted from one with blank lines included, and an id that is
not an integer text is the integer reader's fault. Reading stops at the first line that faults
(`Vocabulary.ofText_eq_error`); otherwise the vocabulary holds the entries read, each id once,
a later line for an id replacing the symbol of an earlier one (`Vocabulary.ofText_eq_ok`).

Written one `<symbol> <id>` line per entry, a vocabulary whose symbols are words reads back as
itself (`Vocabulary.ofText_toText`).
-/

set_option autoImplicit false

namespace SpeechStream

namespace Vocabulary

/-! ### Entries -/

/-- The ids of a vocabulary, in order. -/
def ids (v : Vocabulary) : List Int := v.entries.map Prod.fst

theorem any_eq_true_iff (v : Vocabulary) (id : Int) :
    v.entries.any (fun e => e.1 == id) = true ↔ id ∈ v.ids := by
  simp [ids]

theorem ids_insert (v : Vocabulary) (id : Int) (sym : String) :
    (v.insert id sym).ids = if id ∈ v.ids then v.ids else v.ids ++ [id] := by
  unfold insert
  by_cases h : id ∈ v.ids
  · rw [if_pos ((any_eq_true_iff v id).2 h), if_pos h]
    simp only [ids, List.map_map]
    apply List.map_congr_left
    intro e _
    by_cases he : e.1 = id <;> simp [he]
  · rw [if_neg (mt (any_eq_true_iff v id).1 h), if_neg h]
    simp [ids]

theorem find_eq (v : Vocabulary) (id : Int) :
    v.find id = ((v.entries.find? (fun e => e.1 == id)).map Prod.snd).getD "" := by
  unfold find
  cases h : v.entries.find? (fun e => e.1 == id) <;> simp

theorem find_insert (v : Vocabulary) (id : Int) (sym : String) (id' : Int) :
    (v.insert id sym).find id' = if id' = id then sym else v.find id' := by
  rw [find_eq, find_eq]
  unfold insert
  split
  · rename_i hany
    have hp : ((fun e : Int × String => e.1 == id') ∘ fun e => if e.1 == id then (id, sym) else e) =
        fun e => e.1 == id' := by
      funext e
      by_cases he : e.1 = id <;> simp [he]
    rw [List.find?_map, hp]
    cases hfind : v.entries.find? (fun e => e.1 == id') with
    | none =>
      have hid : id' ≠ id := by
        rintro rfl
        have := List.find?_isSome.2 (List.any_eq_true.1 hany)
        rw [hfind] at this
        cases this
      simp [hid]
    | some e =>
      have hfst : e.1 = id' := by simpa using List.find?_some hfind
      by_cases hid : id' = id <;> simp [hfst, hid]
  · rename_i hany
    have hnone : v.entries.find? (fun e => e.1 == id) = none :=
      List.find?_eq_none.2 (fun e he hp => hany (List.any_eq_true.2 ⟨e, he, hp⟩))
    rw [List.find?_append]
    by_cases hid : id' = id
    · subst hid
      simp [hnone]
    · simp [hid, Ne.symm hid]

theorem ids_foldl_insert (ps : List (Int × String)) (acc : Vocabulary) (hacc : acc.ids.Nodup) :
    (ps.foldl (fun v p => v.insert p.1 p.2) acc).ids.Nodup ∧
      ∀ id, id ∈ (ps.foldl (fun v p => v.insert p.1 p.2) acc).ids ↔ id ∈ acc.ids ∨ id ∈ ps.map Prod.fst := by
  induction ps generalizing acc with
  | nil => simpa using hacc
  | cons p ps ih =>
    have hstep : (acc.insert p.1 p.2).ids.Nodup ∧
        ∀ id, id ∈ (acc.insert p.1 p.2).ids ↔ id ∈ acc.ids ∨ id = p.1 := by
      rw [ids_insert]
      split
      · rename_i hold
        refine ⟨hacc, fun id => ⟨.inl, ?_⟩⟩
        rintro (h | rfl)
        · exact h
        · exact hold
      · rename_i hnew
        refine ⟨List.nodup_append.2 ⟨hacc, by simp, ?_⟩, fun id => by simp⟩
        intro a ha b hb
        rw [List.mem_singleton] at hb
        subst hb
        exact fun h => hnew (h ▸ ha)
    obtain ⟨hnodup, hmem⟩ := ih (acc.insert p.1 p.2) hstep.1
    refine ⟨hnodup, fun id => ?_⟩
    rw [List.foldl_cons, hmem, hstep.2]
    simp only [List.map_cons, List.mem_cons]
    tauto

theorem find_foldl_insert (ps : List (Int × String)) (acc : Vocabulary) (id : Int) :
    (ps.foldl (fun v p => v.insert p.1 p.2) acc).find id = (ps.reverse.lookup id).getD (acc.find id) := by
  induction ps generalizing acc with
  | nil => rfl
  | cons p ps ih =>
    obtain ⟨k, sym⟩ := p
    rw [List.foldl_cons, ih, find_insert, List.reverse_cons, List.lookup_append, Option.getD_or]
    by_cases hid : id = k
    · simp [hid]
    · have hb : (id == k) = false := by simpa using hid
      simp [List.lookup_cons, hid, hb]

theorem foldl_insert_of_nodup (ps : List (Int × String)) (acc : Vocabulary)
    (h : ((acc.entries ++ ps).map Prod.fst).Nodup) :
    ps.foldl (fun v p => v.insert p.1 p.2) acc = ⟨acc.entries ++ ps⟩ := by
  induction ps generalizing acc with
  | nil => simp
  | cons p ps ih =>
    have hnew : p.1 ∉ acc.ids := by
      simp only [List.map_append, List.map_cons, List.nodup_append, List.nodup_cons] at h
      exact fun hp => h.2.2 _ hp _ (List.mem_cons_self ..) rfl
    have hins : acc.insert p.1 p.2 = ⟨acc.entries ++ [p]⟩ := by
      unfold insert
      rw [if_neg (mt (any_eq_true_iff acc p.1).1 hnew)]
    rw [List.foldl_cons, hins, ih ⟨acc.entries ++ [p]⟩ (by simpa using h)]
    simp

theorem ofList_spec (ps : List (Int × String)) :
    (ofList ps).ids.Nodup ∧ ∀ id, (id ∈ (ofList ps).ids ↔ id ∈ ps.map Prod.fst) ∧
      (ofList ps).find id = (ps.reverse.lookup id).getD "" := by
  obtain ⟨hnodup, hmem⟩ := ids_foldl_insert ps empty List.nodup_nil
  refine ⟨hnodup, fun id => ⟨?_, find_foldl_insert ps empty id⟩⟩
  rw [ofList, hmem]
  simp [empty, ids]

theorem ofList_of_nodup {ps : List (Int × String)} (h : (ps.map Prod.fst).Nodup) : ofList ps = ⟨ps⟩ :=
  foldl_insert_of_nodup ps empty (by simpa [empty] using h)

/-! ### Lines -/

/-- What a line that reads gives: nothing for a line without words, an entry for a symbol
followed by an integer text. -/
inductive LineEntry (line : String) : Option (Int × String) → Prop
  | skip : Text.words line = [] → LineEntry line none
  | entry {sym idText : String} {id : Int} : Text.words line = [sym, idText] →
      Text.readInt idText = .value id → LineEntry line (some (id, sym))

/-- How a line fails to read, by its number in the file: a count of words other than two names
the line and its text, and an id that is not an integer text is the integer reader's fault. -/
inductive LineFault (file : String) (lineNo : Nat) (line : String) : Fault → Prop
  | parts : Text.words line ≠ [] → (Text.words line).length ≠ 2 →
      LineFault file lineNo line (.badUnitsLine file lineNo (Text.stripBlank line))
  | invalid {sym idText : String} : Text.words line = [sym, idText] →
      Text.readInt idText = .invalid → LineFault file lineNo line (.badInteger idText)
  | tooLong {sym idText : String} : Text.words line = [sym, idText] →
      Text.readInt idText = .tooLong → LineFault file lineNo line .integerTooLong

/-- A vocabulary with the entry of a line, if it has one. -/
def addEntry (v : Vocabulary) : Option (Int × String) → Vocabulary
  | none => v
  | some p => v.insert p.1 p.2

theorem readLine_of_entry {line : String} {e : Option (Int × String)} (he : LineEntry line e)
    (file : String) (v : Vocabulary) (lineNo : Nat) : readLine file v lineNo line = .ok (v.addEntry e) := by
  cases he with
  | skip hw => simp [readLine, hw, addEntry]
  | entry hw hid => simp [readLine, hw, hid, addEntry]

theorem readLine_of_fault {file : String} {lineNo : Nat} {line : String} {f : Fault}
    (hf : LineFault file lineNo line f) (v : Vocabulary) : readLine file v lineNo line = .error f := by
  cases hf with
  | parts h0 h2 =>
    unfold readLine
    split
    · contradiction
    · simp_all
    · rfl
  | invalid hw hid => simp [readLine, hw, hid]
  | tooLong hw hid => simp [readLine, hw, hid]

theorem entry_or_fault (file : String) (lineNo : Nat) (line : String) :
    (∃ e, LineEntry line e) ∨ ∃ f, LineFault file lineNo line f := by
  by_cases h0 : Text.words line = []
  · exact .inl ⟨none, .skip h0⟩
  by_cases h2 : (Text.words line).length = 2
  · obtain ⟨sym, idText, hw⟩ := List.length_eq_two.1 h2
    cases hid : Text.readInt idText with
    | value id => exact .inl ⟨some (id, sym), .entry hw hid⟩
    | invalid => exact .inr ⟨_, .invalid hw hid⟩
    | tooLong => exact .inr ⟨_, .tooLong hw hid⟩
  · exact .inr ⟨_, .parts h0 h2⟩

theorem readLine_eq_ok {file : String} {v v' : Vocabulary} {lineNo : Nat} {line : String} :
    readLine file v lineNo line = .ok v' ↔ ∃ e, LineEntry line e ∧ v' = v.addEntry e := by
  constructor
  · intro h
    rcases entry_or_fault file lineNo line with ⟨e, he⟩ | ⟨f, hf⟩
    · rw [readLine_of_entry he] at h
      cases h
      exact ⟨e, he, rfl⟩
    · rw [readLine_of_fault hf] at h
      cases h
  · rintro ⟨e, he, rfl⟩
    exact readLine_of_entry he file v lineNo

theorem readLine_eq_error {file : String} {v : Vocabulary} {lineNo : Nat} {line : String} {f : Fault} :
    readLine file v lineNo line = .error f ↔ LineFault file lineNo line f := by
  constructor
  · intro h
    rcases entry_or_fault file lineNo line with ⟨e, he⟩ | ⟨f', hf⟩
    · rw [readLine_of_entry he] at h
      cases h
    · rw [readLine_of_fault hf] at h
      cases h
      exact hf
  · intro hf
    exact readLine_of_fault hf v

theorem LineEntry.not_fault {line : String} {e : Option (Int × String)} (he : LineEntry line e)
    {file : String} {lineNo : Nat} {f : Fault} : ¬ LineFault file lineNo line f := by
  intro hf
  have h := readLine_of_entry he file empty lineNo
  rw [readLine_of_fault hf] at h
  cases h

/-! ### Files -/

theorem foldlM_lines_eq_ok (file : String) (ls : List String) (k : Nat) (acc v : Vocabulary) :
    (ls.zipIdx k).foldlM (fun v (p : String × Nat) => readLine file v (p.2 + 1) p.1) acc = .ok v ↔
      ∃ es, List.Forall₂ LineEntry ls es ∧ v = es.foldl addEntry acc := by
  induction ls generalizing k acc with
  | nil =>
    simp only [List.zipIdx_nil, List.foldlM_nil, List.forall₂_nil_left_iff, exists_eq_left,
      List.foldl_nil]
    exact ⟨fun h => by cases h; rfl, fun h => h ▸ rfl⟩
  | cons l ls ih =>
    rw [List.zipIdx_cons, List.foldlM_cons]
    dsimp only
    constructor
    · intro h
      obtain ⟨a, hl, hrest⟩ := Except.bind_eq_ok.1 h
      obtain ⟨e, he, rfl⟩ := readLine_eq_ok.1 hl
      obtain ⟨es, hes, rfl⟩ := (ih (k + 1) _).1 hrest
      exact ⟨e :: es, .cons he hes, rfl⟩
    · rintro ⟨es', hes', rfl⟩
      cases hes' with
      | cons he hes =>
        rw [readLine_of_entry he, Except.ok_bind]
        exact (ih (k + 1) _).2 ⟨_, hes, rfl⟩

theorem foldlM_lines_eq_error (file : String) (ls : List String) (k : Nat) (acc : Vocabulary)
    (f : Fault) :
    (ls.zipIdx k).foldlM (fun v (p : String × Nat) => readLine file v (p.2 + 1) p.1) acc = .error f ↔
      ∃ pre line post, ls = pre ++ line :: post ∧ (∀ l ∈ pre, ∃ e, LineEntry l e) ∧
        LineFault file (k + pre.length + 1) line f := by
  induction ls generalizing k acc with
  | nil =>
    simp only [List.zipIdx_nil, List.foldlM_nil]
    constructor
    · intro h
      cases h
    · rintro ⟨pre, line, post, h, -⟩
      simp at h
  | cons l ls ih =>
    rw [List.zipIdx_cons, List.foldlM_cons]
    dsimp only
    cases hl : readLine file acc (k + 1) l with
    | error f' =>
      have hf' := readLine_eq_error.1 hl
      rw [Except.error_bind]
      constructor
      · rintro ⟨⟩
        exact ⟨[], l, ls, rfl, by simp, by simpa using hf'⟩
      · rintro ⟨pre, line, post, hsplit, hpre, hf⟩
        cases pre with
        | nil =>
          obtain ⟨rfl, rfl⟩ := List.cons.inj hsplit
          have := readLine_of_fault hf acc
          rw [List.length_nil, Nat.add_zero, hl] at this
          exact this
        | cons p pre =>
          obtain ⟨hlp, -⟩ := List.cons.inj hsplit
          obtain ⟨e, he⟩ := hpre p (List.mem_cons_self ..)
          rw [← hlp] at he
          exact absurd hf' he.not_fault
    | ok a =>
      rw [Except.ok_bind, ih]
      have hread : ∃ e, LineEntry l e := by
        obtain ⟨e, he, -⟩ := readLine_eq_ok.1 hl
        exact ⟨e, he⟩
      constructor
      · rintro ⟨pre, line, post, rfl, hpre, hf⟩
        refine ⟨l :: pre, line, post, rfl, ?_, ?_⟩
        · intro l' hl'
          rcases List.mem_cons.1 hl' with rfl | hl'
          · exact hread
          · exact hpre l' hl'
        · rwa [List.length_cons, ← Nat.add_assoc, Nat.add_right_comm k]
      · rintro ⟨pre, line, post, hsplit, hpre, hf⟩
        cases pre with
        | nil =>
          obtain ⟨rfl, -⟩ := List.cons.inj hsplit
          obtain ⟨e, he⟩ := hread
          exact absurd hf he.not_fault
        | cons p pre =>
          obtain ⟨-, rfl⟩ := List.cons.inj hsplit
          refine ⟨pre, line, post, rfl, fun l' hl' => hpre l' (List.mem_cons_of_mem _ hl'), ?_⟩
          rwa [List.length_cons, ← Nat.add_assoc, Nat.add_right_comm k] at hf

theorem foldl_addEntry (es : List (Option (Int × String))) (acc : Vocabulary) :
    es.foldl addEntry acc = es.reduceOption.foldl (fun v p => v.insert p.1 p.2) acc := by
  induction es generalizing acc with
  | nil => rfl
  | cons e es ih =>
    cases e with
    | none => rw [List.reduceOption_cons_of_none, List.foldl_cons, ih]; rfl
    | some p => rw [List.reduceOption_cons_of_some, List.foldl_cons, List.foldl_cons, ih]; rfl

theorem ofText_eq_ok (file text : String) (v : Vocabulary) :
    ofText file text = .ok v ↔
      ∃ es, List.Forall₂ LineEntry (Text.lines text) es ∧ v = ofList es.reduceOption := by
  unfold ofText
  rw [foldlM_lines_eq_ok]
  simp only [foldl_addEntry, ofList]

example : (ofText "units.txt" "<blank> 0\n▁hel 1\rlo 2\n\n▁world 3\nlo 1\n").map entries =
    .ok [(0, "<blank>"), (1, "lo"), (2, "lo"), (3, "▁world")] := by rfl

theorem ofText_eq_error (file text : String) (f : Fault) :
    ofText file text = .error f ↔ ∃ pre line post, Text.lines text = pre ++ line :: post ∧
      (∀ l ∈ pre, ∃ e, LineEntry l e) ∧ LineFault file (pre.length + 1) line f := by
  unfold ofText
  rw [foldlM_lines_eq_error]
  simp only [Nat.zero_add]

example : ofText "units.txt" "a 0\r\nb\n" = .error (.badUnitsLine "units.txt" 2 "b") := by rfl

theorem LineFault.kind {file : String} {lineNo : Nat} {line : String} {f : Fault}
    (hf : LineFault file lineNo line f) : f.kind = "ValueError" := by
  cases hf <;> rfl

/-! ### Writing -/

/-- A vocabulary written one `<symbol> <id>` line per entry. -/
def toText (v : Vocabulary) : String :=
  String.join (v.entries.map (fun e => e.2 ++ " " ++ Json.intText e.1 ++ "\n"))

theorem isLine_entry (e : Int × String) (h : ∀ c ∈ e.2.toList, Text.isBlank c = false) :
    Text.IsLine (e.2 ++ " " ++ Json.intText e.1).toList := by
  simp only [String.toList_append]
  refine Text.isLine_append.2 ⟨Text.isLine_append.2 ⟨Text.isLine_of_not_blank h, ?_⟩,
    Text.isLine_of_not_blank (Text.isBlank_intText e.1)⟩
  rw [show " ".toList = [' '] from rfl]
  simp [Text.IsLine]

theorem lines_toText {v : Vocabulary} (h : ∀ e ∈ v.entries, ∀ c ∈ e.2.toList, Text.isBlank c = false) :
    Text.lines v.toText = v.entries.map (fun e => e.2 ++ " " ++ Json.intText e.1) := by
  obtain ⟨es⟩ := v
  rw [Text.lines_eq_iff]
  induction es with
  | nil => exact .nil
  | cons e es ih =>
    have hrest := ih (fun e' he' => h e' (List.mem_cons_of_mem _ he'))
    simp only [toText, List.map_cons, String.join_cons, String.toList_append] at hrest ⊢
    rw [show "\n".toList = ['\n'] from rfl, List.append_assoc, List.singleton_append]
    exact .lf (by simpa using isLine_entry e (h e (List.mem_cons_self ..))) hrest

theorem lineEntry_of_entry {e : Int × String} (hne : e.2 ≠ "")
    (hsym : ∀ c ∈ e.2.toList, Text.isBlank c = false) (hid : e.1.natAbs < 10 ^ Text.digitLimit) :
    LineEntry (e.2 ++ " " ++ Json.intText e.1) (some e) :=
  .entry (Text.words_pair hsym hne (Text.isBlank_intText e.1) (Text.intText_ne_empty e.1))
    (Text.readInt_intText hid)

theorem ofText_toText {v : Vocabulary} (hids : v.ids.Nodup)
    (h : ∀ e ∈ v.entries, e.2 ≠ "" ∧ (∀ c ∈ e.2.toList, Text.isBlank c = false) ∧
      e.1.natAbs < 10 ^ Text.digitLimit) (file : String) :
    ofText file v.toText = .ok v := by
  rw [ofText_eq_ok, lines_toText (fun e he => (h e he).2.1)]
  refine ⟨v.entries.map some, ?_, ?_⟩
  · rw [List.forall₂_map_left_iff, List.forall₂_map_right_iff]
    apply List.forall₂_same.2
    intro e he
    obtain ⟨hne, hsym, hid⟩ := h e he
    exact lineEntry_of_entry hne hsym hid
  · rw [show (v.entries.map some).reduceOption = v.entries by simp [List.reduceOption],
      ofList_of_nodup hids]

theorem ofBytes_toUTF8 (file s : String) : ofBytes file s.toUTF8 = ofText file s := by
  have h : String.fromUTF8? s.toUTF8 = some s := by
    rw [String.fromUTF8?, dif_pos (String.toUTF8_eq_toByteArray ▸ s.isValidUTF8)]
    rfl
  unfold ofBytes
  rw [h]

/-- Reading a vocabulary file. Its text is cut into lines at a line feed, a carriage return and
line feed, or a lone carriage return, and nowhere else; a line is skipped exactly when each of its
characters is blank. Reading faults exactly at the first line that is neither skipped nor gives
an entry, with that line's fault: a count of words other than two names the line, counted from
one, and an id that is not an integer text is the integer reader's fault; each is a value error.
Otherwise the vocabulary is built from the entries read, and holds each id once with the symbol
of its last line. A vocabulary of distinct ids whose symbols are non-empty and have no blank,
with ids of at most `Text.digitLimit` digits, written one `<symbol> <id>` line per entry, reads
back as itself, also from its UTF-8 bytes. -/
theorem vocabulary_file_reading (file text : String) :
    (∀ ls, Text.lines text = ls ↔ Text.Lines text.toList (ls.map String.toList)) ∧
    (∀ line, Text.words line = [] ↔ ∀ c ∈ line.toList, Text.isBlank c = true) ∧
    (∀ f, ofText file text = .error f ↔ ∃ pre line post, Text.lines text = pre ++ line :: post ∧
      (∀ l ∈ pre, ∃ e, LineEntry l e) ∧ LineFault file (pre.length + 1) line f) ∧
    (∀ f, ofText file text = .error f → f.kind = "ValueError") ∧
    (∀ v, ofText file text = .ok v ↔
      ∃ es, List.Forall₂ LineEntry (Text.lines text) es ∧ v = ofList es.reduceOption) ∧
    (∀ ps : List (Int × String), (ofList ps).ids.Nodup ∧ ∀ id,
      (id ∈ (ofList ps).ids ↔ id ∈ ps.map Prod.fst) ∧
        (ofList ps).find id = (ps.reverse.lookup id).getD "") ∧
    ∀ v : Vocabulary, v.ids.Nodup → (∀ e ∈ v.entries, e.2 ≠ "" ∧
        (∀ c ∈ e.2.toList, Text.isBlank c = false) ∧ e.1.natAbs < 10 ^ Text.digitLimit) →
      ofText file v.toText = .ok v ∧ ofBytes file v.toText.toUTF8 = .ok v := by
  refine ⟨Text.lines_eq_iff text, Text.words_eq_nil_iff, ofText_eq_error file text, ?kind,
    ofText_eq_ok file text, ofList_spec, ?roundTrip⟩
  case kind =>
    intro f hf
    obtain ⟨pre, line, post, -, -, hfault⟩ := (ofText_eq_error file text f).1 hf
    exact hfault.kind
  case roundTrip =>
    intro v hids h
    have hok := ofText_toText hids h file
    exact ⟨hok, (ofBytes_toUTF8 file _).trans hok⟩

/-- A file whose second line has one word is a value error, and a vocabulary of a blank symbol
and a word piece reads back as itself from its text and from its bytes. -/
theorem vocabulary_file_reading_on_units :
    (∃ f, ofText "units.txt" "a 0\r\nb\n" = .error f ∧ f.kind = "ValueError") ∧
    ofText "units.txt" (ofList [(0, "<blank>"), (1, "▁hel")]).toText =
      .ok (ofList [(0, "<blank>"), (1, "▁hel")]) ∧
    ofBytes "units.txt" (ofList [(0, "<blank>"), (1, "▁hel")]).toText.toUTF8 =
      .ok (ofList [(0, "<blank>"), (1, "▁hel")]) := by
  obtain ⟨-, -, -, hkind, -, -, hround⟩ := vocabulary_file_reading "units.txt" "a 0\r\nb\n"
  have herr : ofText "units.txt" "a 0\r\nb\n" = .error (.badUnitsLine "units.txt" 2 "b") := by rfl
  refine ⟨⟨_, herr, hkind _ herr⟩, hround _ (by decide) (fun e he => ?_)⟩
  have hentries : (ofList [(0, "<blank>"), (1, "▁hel")]).entries = [(0, "<blank>"), (1, "▁hel")] :=
    rfl
  rw [hentries, List.mem_cons, List.mem_singleton] at he
  -- the digit bound stays a variable, so that its power is never unfolded
  have hpow : ∀ k : Nat, k ≠ 0 → 1 < 10 ^ k := fun k hk => Nat.one_lt_pow hk (by decide)
  rcases he with rfl | rfl <;>
    exact ⟨by simp, by simp [Text.isBlank], Nat.lt_of_le_of_lt (by decide) (hpow _ (by decide))⟩

end Vocabulary

end SpeechStream
