import SpeechStream.Proofs.ChunkWindows
import Mathlib.Data.List.Destutter
/-!
Greedy CTC search does not depend on how the rows are cut into chunks.

The labels of a chunk of log-probabilities are the best labels of its rows (`Tensor.rowLabels`).
The CTC rule keeps a label when it is not the blank and differs from the label of the row before
it (`ctcKept`); this is merging repeated labels and then dropping blanks
(`ctcKept_none_eq_destutter`). The search carries the label of the last row it saw from one chunk
to the next, so after every chunk its tokens are those the rule keeps in the labels of all rows so
far (`GreedySearch.searchAll_tracks`), wherever the chunks were cut.
-/

set_option autoImplicit false

namespace SpeechStream

/-- The labels the CTC rule keeps in `l` after the label `p` (`none` at the start): a label is
kept when it is not the blank and differs from the label before it. -/
def ctcKept (blank : Int) (p : Option Int) (l : List Int) : List Int :=
  ((l.zip (p :: l.map some)).filter (fun e => e.1 != blank && some e.1 != e.2)).map Prod.fst

@[simp] theorem ctcKept_nil (blank : Int) (p : Option Int) : ctcKept blank p [] = [] := rfl

theorem ctcKept_cons (blank : Int) (p : Option Int) (x : Int) (l : List Int) :
    ctcKept blank p (x :: l) =
      if x ≠ blank ∧ some x ≠ p then x :: ctcKept blank (some x) l else ctcKept blank (some x) l := by
  by_cases h : x ≠ blank ∧ some x ≠ p
  · simp [ctcKept, h.1, h.2]
  · rw [not_and_or, not_not, not_not] at h
    rcases h with h | h <;> simp [ctcKept, h]

theorem ctcKept_append (blank : Int) (p : Option Int) (l m : List Int) :
    ctcKept blank p (l ++ m) = ctcKept blank p l ++ ctcKept blank (l.getLast?.or p) m := by
  induction l generalizing p with
  | nil => simp
  | cons x l ih =>
    have hlast : l.getLast?.or (some x) = (x :: l).getLast?.or p := by
      cases l <;> simp [List.getLast?_cons]
    rw [List.cons_append, ctcKept_cons, ctcKept_cons, ih, hlast]
    split <;> simp

theorem ctcKept_destutter' (blank a : Int) (l : List Int) :
    (l.destutter' (· ≠ ·) a).filter (· ≠ blank) =
      (if a ≠ blank then [a] else []) ++ ctcKept blank (some a) l := by
  induction l generalizing a with
  | nil => by_cases h : a = blank <;> simp [h]
  | cons b l ih =>
    by_cases hab : a = b
    · subst hab
      rw [List.destutter'_cons_neg _ (by simp), ih, ctcKept_cons]
      simp
    · rw [List.destutter'_cons_pos _ hab, List.filter_cons, ih, ctcKept_cons]
      have hba : some b ≠ some a := fun h => hab (Option.some.inj h).symm
      by_cases ha : a = blank <;> by_cases hb : b = blank <;> simp [ha, hb, hba]

theorem ctcKept_none_eq_destutter (blank : Int) (l : List Int) :
    ctcKept blank none l = (l.destutter (· ≠ ·)).filter (· ≠ blank) := by
  cases l with
  | nil => rfl
  | cons a l =>
    rw [List.destutter_cons', ctcKept_destutter', ctcKept_cons]
    by_cases h : a = blank <;> simp [h]

namespace GreedySearch

/-- The best label of a row: the index of its first largest entry. -/
def bestLabel (row : List Float32) : Int := (best row).2

/-- Searches chunks one after another. -/
def searchAll (s : GreedySearch) (cs : List Tensor) : GreedySearch :=
  cs.foldl (fun s c => (s.search c).1) s

@[simp] theorem searchAll_nil (s : GreedySearch) : s.searchAll [] = s := rfl

@[simp] theorem searchAll_cons (s : GreedySearch) (c : Tensor) (cs : List Tensor) :
    s.searchAll (c :: cs) = (s.search c).1.searchAll cs := rfl

end GreedySearch

/-- The best label of every row of a chunk, in order. -/
def Tensor.rowLabels (c : Tensor) : List Int := c.toRows.map GreedySearch.bestLabel

@[simp] theorem Tensor.length_rowLabels (c : Tensor) : c.rowLabels.length = c.numRows := by
  simp [rowLabels, toRows]

/-- A chunk of log-probabilities: a matrix of rows by labels holding exactly its numbers, with
at least one label when it has rows. -/
def Tensor.IsScoreMatrix (c : Tensor) : Prop := ∃ v, c.WellFormed v ∧ (c.numRows = 0 ∨ 0 < v)

namespace GreedySearch

theorem collapse_index (blank : Int) (p : Option Int) (l : List Int) :
    collapse blank (p.map .index) (l.map .index) = (ctcKept blank p l).map .index := by
  induction l generalizing p with
  | nil => rfl
  | cons x l ih =>
    have hx : (Label.index x != Label.index blank) = decide (x ≠ blank) := by
      show (!decide (x = blank)) = _
      simp
    have hp : (some (Label.index x) != p.map Label.index) = decide (some x ≠ p) := by
      cases p with
      | none => rfl
      | some y =>
        show (!decide (x = y)) = _
        simp
    have ih' := ih (some x)
    simp only [Option.map] at ih'
    rw [List.map_cons, collapse, hx, hp, ih', ctcKept_cons]
    by_cases h : x ≠ blank ∧ some x ≠ p
    · rw [if_pos (by simpa using h), if_pos h, List.map_cons]
    · rw [if_neg (by simpa using h), if_neg h]

theorem labels_of_wellFormed {c : Tensor} {v : Nat} (hc : c.WellFormed v) (hv : 0 < v) :
    (List.range c.numRows).map (labelAt (fun r =>
        ((((List.range (c.data.size / v)).map (fun r =>
          best (c.data.extract (r * v) ((r + 1) * v)).toList))[r]?).map (fun p => (p.2 : Int))).getD 0)
        [v].dropLast) = c.rowLabels.map .index := by
  have hrows : c.data.size / v = c.numRows := by rw [hc.2, Nat.mul_div_cancel _ hv]
  have hwidth : c.rowWidth = v := by rw [Tensor.rowWidth, hc.1]; simp [Tensor.count]
  rw [hrows]
  simp only [Tensor.rowLabels, Tensor.toRows, List.map_map]
  apply List.map_congr_left
  intro r hr
  have hr' : r < c.numRows := List.mem_range.1 hr
  simp [labelAt, bestLabel, Tensor.row, hwidth, hr']

theorem search_scoreMatrix (s : GreedySearch) {c : Tensor} (hc : c.IsScoreMatrix) :
    (s.search c).2 = none ∧ (s.search c).1.blank = s.blank ∧
      (s.search c).1.tokens = s.tokens ++ collapse s.blank s.prev (c.rowLabels.map .index) ∧
      (s.search c).1.prev = (c.rowLabels.map Label.index).getLast?.orElse (fun _ => s.prev) ∧
      (s.search c).1.frames = s.frames + c.numRows := by
  obtain ⟨v, hwf, hv⟩ := hc
  have hshape : c.shape = [c.numRows, v] := hwf.1
  cases hn : c.numRows with
  | zero =>
    have hlabels : c.rowLabels = [] := List.eq_nil_of_length_eq_zero (by simp [hn])
    simp [search, hshape, hn, hlabels, collapse]
  | succ k =>
    have hv' : 0 < v := hv.resolve_left (by omega)
    have hlabels := labels_of_wellFormed hwf hv'
    rw [hn] at hlabels
    have hv0 : (v == 0) = false := by simp; omega
    simp only [search, hshape, hn, hv0, List.getLast?_singleton, Option.getD_some,
      Bool.false_eq_true, ↓reduceIte, hlabels, and_self]

/-- The search has the blank `blank` and has read rows of labels `l`: its tokens are those the
CTC rule keeps in `l`, the label it carries is the last of `l`, and it counts the rows of `l`. -/
def Tracks (s : GreedySearch) (blank : Int) (l : List Int) : Prop :=
  s.blank = blank ∧ s.tokens = (ctcKept blank none l).map .index ∧ s.prev = l.getLast?.map .index ∧
    s.frames = l.length

theorem init_tracks (blank : Int) : (init blank).Tracks blank [] := ⟨rfl, rfl, rfl, rfl⟩

theorem search_tracks {s : GreedySearch} {blank : Int} {l : List Int} (hs : s.Tracks blank l)
    {c : Tensor} (hc : c.IsScoreMatrix) : (s.search c).1.Tracks blank (l ++ c.rowLabels) := by
  obtain ⟨-, hblank, htokens, hprev, hframes⟩ := search_scoreMatrix s hc
  obtain ⟨hb, ht, hp, hf⟩ := hs
  refine ⟨hblank.trans hb, ?_, ?_, ?_⟩
  · rw [htokens, ht, hp, hb, collapse_index, ← List.map_append, ctcKept_append blank none l,
      Option.or_none]
  · rw [hprev, hp, List.getLast?_map, List.getLast?_append]
    cases c.rowLabels.getLast? <;> rfl
  · rw [hframes, hf, List.length_append, Tensor.length_rowLabels]

theorem searchAll_tracks {s : GreedySearch} {blank : Int} {l : List Int} (hs : s.Tracks blank l)
    (cs : List Tensor) (hcs : ∀ c ∈ cs, c.IsScoreMatrix) :
    (s.searchAll cs).Tracks blank (l ++ cs.flatMap Tensor.rowLabels) := by
  induction cs generalizing s l with
  | nil => simpa using hs
  | cons c cs ih =>
    have hstep := search_tracks hs (hcs c (by simp))
    simpa [List.append_assoc] using ih hstep (fun d hd => hcs d (by simp [hd]))

end GreedySearch

theorem flatMap_rowLabels (cs : List Tensor) :
    cs.flatMap Tensor.rowLabels = (cs.flatMap Tensor.toRows).map GreedySearch.bestLabel := by
  rw [List.map_flatMap]
  rfl

/-- Greedy CTC search does not depend on chunking. Search chunks of log-probabilities one after
another from a new search (which is what a reset gives), with `l` the best labels of all their
rows in order. The tokens are the labels the CTC rule keeps in `l` (not the blank, and not the
label of the row before), which is merging repeats and then dropping blanks; so any other cut of
the same rows into chunks gives the same tokens. The outputs are none until a row was searched
and the tokens after, and there are as many likelihoods as outputs. -/
theorem greedy_search_ignores_chunking (blank : Int) (cs : List Tensor)
    (hcs : ∀ c ∈ cs, c.IsScoreMatrix) :
    let s := (GreedySearch.init blank).searchAll cs
    let l := cs.flatMap Tensor.rowLabels
    s.tokens = (ctcKept blank none l).map .index ∧
      ctcKept blank none l = (l.destutter (· ≠ ·)).filter (· ≠ blank) ∧
      (∀ ds : List Tensor, (∀ d ∈ ds, d.IsScoreMatrix) →
        ds.flatMap Tensor.toRows = cs.flatMap Tensor.toRows →
        ((GreedySearch.init blank).searchAll ds).tokens = s.tokens) ∧
      s.outputs = (if cs.flatMap Tensor.toRows = [] then [] else [s.tokens]) ∧
      s.likelihood.length = s.outputs.length := by
  intro s l
  obtain ⟨-, htokens, -, hframes⟩ := GreedySearch.searchAll_tracks (GreedySearch.init_tracks blank) cs hcs
  rw [List.nil_append] at htokens hframes
  have hrows : s.frames = (cs.flatMap Tensor.toRows).length := by
    rw [hframes, flatMap_rowLabels, List.length_map]
  refine ⟨htokens, ctcKept_none_eq_destutter blank l, fun ds hds hsame => ?_, ?_, ?_⟩
  · obtain ⟨-, htokens', -, -⟩ :=
      GreedySearch.searchAll_tracks (GreedySearch.init_tracks blank) ds hds
    rw [htokens', List.nil_append, flatMap_rowLabels, hsame, ← flatMap_rowLabels]
    exact htokens.symm
  · simp only [GreedySearch.outputs, hrows, List.length_eq_zero_iff]
  · unfold GreedySearch.outputs GreedySearch.likelihood
    split <;> rfl

/-- Two rows of three labels, a chunk without rows, and one more row. -/
def GreedySearch.sampleChunks : List Tensor :=
  [⟨[2, 3], #[0, 1, 0, 0, 1, 0]⟩, ⟨[0, 3], #[]⟩, ⟨[1, 3], #[0, 1, 0]⟩]

theorem greedy_search_ignores_chunking_across_an_empty_chunk :
    (∀ c ∈ GreedySearch.sampleChunks, c.IsScoreMatrix) ∧
      let s := (GreedySearch.init 0).searchAll GreedySearch.sampleChunks
      let l := GreedySearch.sampleChunks.flatMap Tensor.rowLabels
      s.tokens = (ctcKept 0 none l).map .index ∧
        ctcKept 0 none l = (l.destutter (· ≠ ·)).filter (· ≠ 0) ∧
        (∀ ds : List Tensor, (∀ d ∈ ds, d.IsScoreMatrix) →
          ds.flatMap Tensor.toRows = GreedySearch.sampleChunks.flatMap Tensor.toRows →
          ((GreedySearch.init 0).searchAll ds).tokens = s.tokens) ∧
        s.outputs = (if GreedySearch.sampleChunks.flatMap Tensor.toRows = [] then [] else [s.tokens]) ∧
        s.likelihood.length = s.outputs.length := by
  have hcs : ∀ c ∈ GreedySearch.sampleChunks, c.IsScoreMatrix := by
    intro c hc
    simp only [GreedySearch.sampleChunks, List.mem_cons, List.not_mem_nil, or_false] at hc
    rcases hc with rfl | rfl | rfl <;> exact ⟨3, ⟨rfl, rfl⟩, .inr (by decide)⟩
  exact ⟨hcs, greedy_search_ignores_chunking 0 GreedySearch.sampleChunks hcs⟩

end SpeechStream
