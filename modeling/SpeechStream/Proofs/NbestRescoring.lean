import SpeechStream.Proofs.DecoderInputs
import SpeechStream.Proofs.StableRanking
import SpeechStream.Proofs.SessionSteps
import SpeechStream.Proofs.FrameCounts
/-!
Rescoring an n-best list.

Rescoring rebuilds the n-best list from the searcher (`Session.candidates`): the cut outputs in
order, each with the likelihood at its own index as its CTC score. Their token lists go to the
attention decoder in a single call, and the rescorer returns one score per hypothesis, computed
from the decoder row of the same index (`FusedScore`). Scores and candidates are paired by
position, each candidate's score becomes the weighted sum of its two scores, and the list is
ranked by score (`Ranking.byScore`), which only permutes it; with comparable scores the ranking is
by non-increasing score and keeps tied candidates in n-best order.
-/

set_option autoImplicit false

namespace SpeechStream

theorem mapM_forall₂_of_ok {α β ε : Type} {g : α → Except ε β} {l : List α} {r : List β}
    (h : l.mapM g = .ok r) : List.Forall₂ (fun a b => g a = .ok b) l r := by
  induction l generalizing r with
  | nil =>
    obtain rfl : [] = r := Except.pure_eq_ok.1 h
    exact .nil
  | cons a l ih =>
    rw [List.mapM_cons] at h
    obtain ⟨b, hb, h⟩ := Except.bind_eq_ok.1 h
    obtain ⟨bs, hbs, h⟩ := Except.bind_eq_ok.1 h
    obtain rfl : b :: bs = r := Except.pure_eq_ok.1 h
    exact .cons hb (ih hbs)

theorem Label.eq_map_index {l : List Label} {t : List Int} (h : l.mapM Label.index? = some t) :
    l = t.map Label.index := by
  induction l generalizing t with
  | nil =>
    obtain rfl : [] = t := by simpa using h
    rfl
  | cons a l ih =>
    simp only [List.mapM_cons, Option.bind_eq_bind, Option.bind_eq_some_iff, Option.pure_def,
      Option.some.injEq] at h
    obtain ⟨x, hx, xs, hxs, rfl⟩ := h
    cases a with
    | index n =>
      obtain rfl : n = x := by simpa [Label.index?] using hx
      simp [ih hxs]
    | block _ => simp [Label.index?] at hx

namespace Session

variable {s : Session} {cands : List Candidate}

theorem candidates_spec (h : s.candidates = .ok cands) :
    cands.length = (s.options.cut s.searcher.outputs).length ∧
    ∀ i (hi : i < cands.length), ∃ hyp l,
      (s.options.cut s.searcher.outputs)[i]? = some (hyp.map Label.index) ∧
      s.searcher.likelihood[i]? = some l ∧
      cands[i] = { sentence := s.sentenceOf hyp, tokens := hyp, score := l, ctcScore := l } := by
  unfold candidates at h
  obtain ⟨hyps, hhyps, hc⟩ := Except.bind_eq_ok.1 h
  have hcut := mapM_forall₂_of_ok hhyps
  have hzip := mapM_forall₂_of_ok hc
  have hlen : cands.length = hyps.length := by simpa using hzip.length_eq.symm
  refine ⟨hlen.trans hcut.length_eq.symm, fun i hi => ?_⟩
  have hh : i < hyps.length := hlen ▸ hi
  have ho : i < (s.options.cut s.searcher.outputs).length := hcut.length_eq ▸ hh
  have hrow := hcut.get ho hh
  have hcand := hzip.get (by simpa using hh) hi
  simp only [List.get_eq_getElem, List.getElem_zipIdx, Nat.zero_add] at hrow hcand
  split at hrow
  case h_2 => cases hrow
  case h_1 tokens htok =>
    obtain rfl : tokens = hyps[i] := Except.pure_eq_ok.1 hrow
    split at hcand
    case h_2 => cases hcand
    case h_1 l hl =>
      refine ⟨hyps[i], l, ?_, hl, ?_⟩
      · rw [List.getElem?_eq_getElem ho, Label.eq_map_index htok]
      · exact (Except.pure_eq_ok.1 hcand).symm

end Session

/-- Row `i` of decoder output `out` scores hypothesis `hyp` as `x`: the left-to-right score
weighted by `1 - w`, plus, weighted by `w`, the right-to-left score of the reversed tokens when the
reverse direction is used and zero in its place otherwise. -/
def FusedScore (out : DecoderOutput) (eos : Int) (useReverse : Bool) (w : Float) (i : Nat)
    (hyp : List Int) (x : Float) : Prop :=
  ∃ fwd bwd, attentionScore (out.forward.row i) hyp eos = .ok fwd ∧
    (if useReverse then ∃ bw, out.backward = some bw ∧
        attentionScore (bw.row i) hyp.reverse eos = .ok bwd
      else bwd = 0.0) ∧
    x = fwd * (1 - w) + bwd * w

theorem rescore_spec {b : Backend} {sos eos : Int} {bidirectional : Bool} {hyps : List (List Int)}
    {outs : List Tensor} {w : Float} {calls : List Call} {scores : List Float}
    (h : rescore b sos eos bidirectional hyps outs w = (calls, .ok scores)) :
    scores.length = hyps.length ∧
    (hyps = [] ∨ outs = [] → calls = [] ∧ ∀ x ∈ scores, x = 0.0) ∧
    (hyps ≠ [] → outs ≠ [] → ∃ input out, calls = [.decoder input] ∧ b.decode input = .ok out ∧
      ∀ i (hi : i < hyps.length) (hs : i < scores.length),
        FusedScore out eos (bidirectional && w > 0) w i hyps[i] scores[i]) := by
  unfold rescore at h
  by_cases hh : hyps = []
  · subst hh
    simp only [List.isEmpty_nil, if_true, Prod.mk.injEq, Except.ok.injEq] at h
    obtain ⟨rfl, rfl⟩ := h
    simp
  by_cases ho : outs = []
  · subst ho
    simp only [List.isEmpty_nil, if_true, Prod.mk.injEq, Except.ok.injEq, List.isEmpty_iff, hh, if_false] at h
    obtain ⟨rfl, rfl⟩ := h
    simp [hh]
  rw [if_neg (by simpa using hh), if_neg (by simpa using ho)] at h
  split at h
  · simp at h
  split at h
  · simp at h
  dsimp only at h
  split at h
  · simp at h
  rename_i out hout
  split at h
  · simp at h
  rename_i hnone
  simp only [Prod.mk.injEq] at h
  obtain ⟨rfl, hmap⟩ := h
  have hf := mapM_forall₂_of_ok hmap
  have hlen : scores.length = hyps.length := by simpa using hf.length_eq.symm
  refine ⟨hlen, fun hor => by simp_all, fun _ _ => ⟨_, out, rfl, hout, fun i hi hs => ?_⟩⟩
  have hone := hf.get (by simpa using hi) hs
  simp only [List.get_eq_getElem, List.getElem_zipIdx, Nat.zero_add] at hone
  obtain ⟨rows, -, hone⟩ := Except.bind_eq_ok.1 hone
  obtain ⟨-, hone⟩ := Except.ite_throw_eq_ok hone
  obtain ⟨fwd, hfwd, hone⟩ := Except.bind_eq_ok.1 hone
  by_cases hrev : (bidirectional && decide (w > 0)) = true
  · rw [if_pos hrev] at hone
    split at hone
    case h_1 bw hbw =>
      obtain ⟨rows', -, hone⟩ := Except.bind_eq_ok.1 hone
      obtain ⟨-, hone⟩ := Except.ite_throw_eq_ok hone
      obtain ⟨bwd, hbwd, hone⟩ := Except.bind_eq_ok.1 hone
      refine ⟨fwd, bwd, hfwd, ?_, (Except.pure_eq_ok.1 hone).symm⟩
      rw [if_pos hrev]
      exact ⟨bw, hbw, hbwd⟩
    case h_2 hbw => simp [hrev, hbw] at hnone
  · rw [if_neg hrev] at hone
    obtain ⟨r, hr, hone⟩ := Except.bind_eq_ok.1 hone
    obtain rfl : 0.0 = r := Except.pure_eq_ok.1 hr
    refine ⟨fwd, 0.0, hfwd, ?_, (Except.pure_eq_ok.1 hone).symm⟩
    rw [if_neg hrev]

namespace Session

variable {s : Session} {cands : List Candidate}

theorem rescoring_of_ok (h : s.rescoring.out = .ok ()) :
    ∃ cands, s.candidates = .ok cands ∧
      (cands = [] ∧ s.rescoring.calls = [] ∧ s.rescoring.next.results = [] ∨
       cands ≠ [] ∧ ∃ st scores, s.stream.current = .ok st ∧
        rescore s.stream.backend s.stream.metadata.sos s.stream.metadata.eos
          s.stream.metadata.bidirectional (cands.map Candidate.tokens) st.outputs
          s.options.reverseWeight.toFloat = (s.rescoring.calls, .ok scores) ∧
        s.rescoring.next.results = Ranking.byScore ((cands.zip scores).map (fun p =>
          { p.1 with rescoringScore := p.2,
                     score := s.options.rescoringWeight.toFloat * p.2 +
                       s.options.ctcWeight.toFloat * p.1.ctcScore }) ++ cands.drop scores.length)) := by
  cases hc : s.candidates with
  | error f =>
    simp [rescoring, updateResults_of_error hc] at h
  | ok cands =>
    refine ⟨cands, rfl, ?_⟩
    by_cases hne : cands = []
    · subst hne
      exact .inl ⟨rfl, by simp [rescoring, updateResults_of_ok hc]⟩
    refine .inr ⟨hne, ?_⟩
    cases hst : s.stream.current with
    | error f =>
      simp [rescoring, updateResults_of_ok hc, hne, Stream.rescore, hst] at h
    | ok st =>
      cases hr : rescore s.stream.backend s.stream.metadata.sos s.stream.metadata.eos
          s.stream.metadata.bidirectional (cands.map Candidate.tokens) st.outputs
          s.options.reverseWeight.toFloat with
      | mk calls out =>
        cases out with
        | error f =>
          simp [rescoring, updateResults_of_ok hc, hne, Stream.rescore, hst, hr] at h
        | ok scores =>
          refine ⟨st, scores, rfl, ?_, ?_⟩ <;>
            simp [rescoring, updateResults_of_ok hc, hne, Stream.rescore, hst, hr]

theorem rescoring_results (hc : s.candidates = .ok cands) (rs : List Candidate) :
    ({ s with results := rs }).rescoring = s.rescoring := by
  have hc' : ({ s with results := rs } : Session).candidates = .ok cands := hc
  rw [rescoring, rescoring, updateResults_of_ok hc, updateResults_of_ok hc']

theorem rescoring_again (hc : s.candidates = .ok cands) : s.rescoring.next.rescoring = s.rescoring := by
  obtain ⟨rs, hrs⟩ := rescoring_next (s := s)
  rw [hrs, rescoring_results hc]

end Session

/-- Rescoring re-ranks the n-best list without losing or mispairing hypotheses. After rescoring
succeeds, the ranked list is a permutation of the n-best list the searcher gives, where each
candidate keeps its tokens and CTC score (the likelihood at its index) and takes as attention
score the rescorer's score for its own tokens, and as score the weighted sum of the two. The
decoder is called once when the n-best list and the encoder output are both non-empty, and not
at all otherwise, all attention scores then being zero. With comparable scores the list is ranked
by non-increasing score with ties in n-best order, and rescoring again gives the same step. -/
theorem rescoring_reranks_nbest (s : Session) (h : s.rescoring.out = .ok ()) :
    let md := s.stream.metadata
    let w := s.options.reverseWeight.toFloat
    let rw := s.options.rescoringWeight.toFloat
    let cw := s.options.ctcWeight.toFloat
    let ranked := s.rescoring.next.results
    ∃ cands scores, s.candidates = .ok cands ∧ scores.length = cands.length ∧
      let rescored := (cands.zip scores).map (fun p =>
        { p.1 with rescoringScore := p.2, score := rw * p.2 + cw * p.1.ctcScore })
      (cands.length = (s.options.cut s.searcher.outputs).length ∧
        ∀ i (hi : i < cands.length),
          (s.options.cut s.searcher.outputs)[i]? = some (cands[i].tokens.map Label.index) ∧
          s.searcher.likelihood[i]? = some cands[i].ctcScore) ∧
      ranked.Perm rescored ∧
      (cands = [] → s.rescoring.calls = []) ∧
      (cands ≠ [] → ∃ st, s.stream.current = .ok st ∧
        (st.outputs = [] → s.rescoring.calls = [] ∧ ∀ x ∈ scores, x = 0.0) ∧
        (st.outputs ≠ [] → ∃ input out, s.rescoring.calls = [.decoder input] ∧
          s.stream.backend.decode input = .ok out ∧
          ∀ i (hi : i < cands.length) (hs : i < scores.length),
            FusedScore out md.eos (md.bidirectional && w > 0) w i cands[i].tokens scores[i])) ∧
      (Ranking.Comparable rescored →
        ranked.Pairwise (fun a b => ¬ a.score < b.score) ∧
        ∀ c ∈ rescored, ranked.filter (Ranking.ties c) = rescored.filter (Ranking.ties c)) ∧
      s.rescoring.next.rescoring = s.rescoring := by
  dsimp only
  obtain ⟨cands, hc, hcases⟩ := Session.rescoring_of_ok h
  obtain ⟨hlen, hspec⟩ := Session.candidates_spec hc
  have hnbest : ∀ i (hi : i < cands.length),
      (s.options.cut s.searcher.outputs)[i]? = some (cands[i].tokens.map Label.index) ∧
      s.searcher.likelihood[i]? = some cands[i].ctcScore := by
    intro i hi
    obtain ⟨hyp, l, hcut, hl, hci⟩ := hspec i hi
    rw [hci]
    exact ⟨hcut, hl⟩
  have hagain := Session.rescoring_again hc
  rcases hcases with ⟨rfl, hcalls, hres⟩ | ⟨hne, st, scores, hst, hr, hres⟩
  case inl =>
    refine ⟨[], [], hc, rfl, ⟨hlen, hnbest⟩, by simp [hres], fun _ => hcalls,
      fun hne => absurd rfl hne, fun _ => by simp [hres], hagain⟩
  case inr =>
    obtain ⟨hslen, hnone, hone⟩ := rescore_spec hr
    have hslen' : scores.length = cands.length := by simpa using hslen
    rw [List.drop_of_length_le (by omega), List.append_nil] at hres
    refine ⟨cands, scores, hc, hslen', ⟨hlen, hnbest⟩, hres ▸ Ranking.byScore_perm _,
      fun hnil => absurd hnil hne, fun _ => ⟨st, hst, ?_, ?_⟩, ?_, hagain⟩
    · exact fun hout => hnone (.inr hout)
    · intro hout
      obtain ⟨input, out, hcalls, hdec, hfused⟩ := hone (by simpa using hne) hout
      refine ⟨input, out, hcalls, hdec, fun i hi hs => ?_⟩
      have hi' : i < (cands.map Candidate.tokens).length := by simpa using hi
      have hf := hfused i hi' hs
      rwa [List.getElem_map] at hf
    · intro hU
      rw [hres]
      exact ⟨Ranking.byScore_sorted hU, Ranking.byScore_stable hU⟩

/-- A session whose searcher holds three hypotheses of different lengths, one of them empty, over
an encoder output of two frames, and whose decoder scores every position as zero. -/
def Session.sampleRescoring : Session :=
  let md : Metadata := ⟨2, 1, 1, 1, 1, 0, 1, 2, false, 1, 1⟩
  let b : Backend := ⟨md, [], fun _ => .error .backendFailed, fun _ => .error .backendFailed,
    fun _ => .ok ⟨Tensor.zeros [3, 3, 8], none⟩⟩
  { queue := (FrameQueue.empty (some 1)).finish
    stream := ⟨b, md, some ⟨0, Tensor.zeros [1, 1, 1, 4], Tensor.zeros [1, 1, 2, 0],
      [Tensor.zeros [1, 2, 2]], none⟩, 8⟩
    searcher := .fixed [[5, 6], [7], []] [-1.5, -0.5, -2.0] 1
    initialSearcher := .fixed [] [] 0
    options := {}, vocabulary := none, detector := none, started := true, results := [], frames := 2 }

theorem rescoring_reranks_nbest_three_hypotheses :
    Session.sampleRescoring.rescoring.out = .ok () ∧
    let s := Session.sampleRescoring
    let md := s.stream.metadata
    let w := s.options.reverseWeight.toFloat
    let rw := s.options.rescoringWeight.toFloat
    let cw := s.options.ctcWeight.toFloat
    let ranked := s.rescoring.next.results
    ∃ cands scores, s.candidates = .ok cands ∧ scores.length = cands.length ∧
      let rescored := (cands.zip scores).map (fun p =>
        { p.1 with rescoringScore := p.2, score := rw * p.2 + cw * p.1.ctcScore })
      (cands.length = (s.options.cut s.searcher.outputs).length ∧
        ∀ i (hi : i < cands.length),
          (s.options.cut s.searcher.outputs)[i]? = some (cands[i].tokens.map Label.index) ∧
          s.searcher.likelihood[i]? = some cands[i].ctcScore) ∧
      ranked.Perm rescored ∧
      (cands = [] → s.rescoring.calls = []) ∧
      (cands ≠ [] → ∃ st, s.stream.current = .ok st ∧
        (st.outputs = [] → s.rescoring.calls = [] ∧ ∀ x ∈ scores, x = 0.0) ∧
        (st.outputs ≠ [] → ∃ input out, s.rescoring.calls = [.decoder input] ∧
          s.stream.backend.decode input = .ok out ∧
          ∀ i (hi : i < cands.length) (hs : i < scores.length),
            FusedScore out md.eos (md.bidirectional && w > 0) w i cands[i].tokens scores[i])) ∧
      (Ranking.Comparable rescored →
        ranked.Pairwise (fun a b => ¬ a.score < b.score) ∧
        ∀ c ∈ rescored, ranked.filter (Ranking.ties c) = rescored.filter (Ranking.ties c)) ∧
      s.rescoring.next.rescoring = s.rescoring :=
  ⟨rfl, rescoring_reranks_nbest Session.sampleRescoring rfl⟩

end SpeechStream
