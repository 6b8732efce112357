import Mathlib.Data.List.Forall2
import SpeechStream.Proofs.FinalResults
/-!
A reset session is a fresh one.

Resetting keeps two values of the old utterance: the feature width of the queue and the label
count of the stream's last CTC output. The label count is read only to shape the output of a
chunk whose frames are still buffered, and that output has no rows. The greedy and the fixed
searcher are not changed by a chunk without rows, but a caller's search program is given it,
and the caller's endpoint detector may read the whole session, label count included. Where the
program cannot tell such chunks apart by their width (`Searcher.WidthBlind`) and the detector
cannot tell sessions apart by the label count or by such widths (`Session.DetectorBlind`),
sessions that differ only there make the same backend calls, return the same decode states and
faults and keep the same n-best lists, operation after operation (`Session.trace_recast`).
Searching never changes what resetting the searcher gives (`Searcher.reset_search`), so the
searcher of every session started with one that resets to itself resets to it. A reset session
therefore behaves as a session created afresh with the same backend, metadata, searcher,
options, vocabulary and endpoint detector over a queue of the same feature width, and a clone is
exactly such a session. A detector that reads the label count tells the two apart.

A recogniser is reset the same way. Its queue keeps the feature width of the old utterance, so
it behaves as a new recogniser whose queue already has that width; a recogniser just created
takes blocks of any width.
-/

set_option autoImplicit false

namespace SpeechStream

namespace Stream

/-- Two outputs of a chunk that agree but for the label count of an output without frames. -/
def SameOutput (x y : Except Fault Tensor) : Prop :=
  x = y ∨ ∃ a b, x = .ok (Tensor.zeros [0, a]) ∧ y = .ok (Tensor.zeros [0, b])

variable (s : Stream) (v : Nat)

theorem feed_vocab (st : StreamState) (feats : Tensor) :
    ({ s with vocab := v }).feed st feats = s.feed st feats := rfl

theorem encodeFrames_vocab (st : StreamState) (feats : Tensor) :
    (∃ v', (({ s with vocab := v }).encodeFrames st feats).next =
      { (s.encodeFrames st feats).next with vocab := v' }) ∧
    (({ s with vocab := v }).encodeFrames st feats).calls = (s.encodeFrames st feats).calls ∧
    SameOutput (({ s with vocab := v }).encodeFrames st feats).out (s.encodeFrames st feats).out := by
  unfold encodeFrames
  rw [feed_vocab]
  -- both sides take the same branch at every test; only the buffered output differs
  cases feats.rows? with
  | error f => exact ⟨⟨v, rfl⟩, rfl, .inl rfl⟩
  | ok n =>
    dsimp only
    split
    · exact ⟨⟨v, rfl⟩, rfl, .inl rfl⟩
    split
    · exact ⟨⟨v, rfl⟩, rfl, .inr ⟨_, _, rfl, rfl⟩⟩
    cases s.feed st feats with
    | error f => exact ⟨⟨v, rfl⟩, rfl, .inl rfl⟩
    | ok inputs =>
      dsimp only
      cases s.backend.encode inputs with
      | error f => exact ⟨⟨v, rfl⟩, rfl, .inl rfl⟩
      | ok enc =>
        dsimp only
        cases enc.out.size? 1 with
        | error f => exact ⟨⟨v, rfl⟩, rfl, .inl rfl⟩
        | ok produced =>
          dsimp only
          cases s.backend.ctc enc.out with
          | error f => exact ⟨⟨v, rfl⟩, rfl, .inl rfl⟩
          | ok probs =>
            dsimp only
            split
            · exact ⟨⟨v, rfl⟩, rfl, .inl rfl⟩
            · exact ⟨⟨v, rfl⟩, rfl, .inl rfl⟩
            · split
              · exact ⟨⟨v, rfl⟩, rfl, .inl rfl⟩
              · exact ⟨⟨_, rfl⟩, rfl, .inl rfl⟩

theorem forward_vocab (feats : Tensor) :
    (∃ v', (({ s with vocab := v }).forward feats).next = { (s.forward feats).next with vocab := v' }) ∧
    (({ s with vocab := v }).forward feats).calls = (s.forward feats).calls ∧
    SameOutput (({ s with vocab := v }).forward feats).out (s.forward feats).out := by
  unfold forward
  have hcur : ({ s with vocab := v }).current = s.current := rfl
  rw [hcur]
  cases s.current with
  | error f => exact ⟨⟨v, rfl⟩, rfl, .inl rfl⟩
  | ok st =>
    dsimp only
    cases joinCarried st feats with
    | error f => exact ⟨⟨v, rfl⟩, rfl, .inl rfl⟩
    | ok x => exact encodeFrames_vocab s v st x

theorem rescore_vocab (hyps : List (List Int)) (w : Float) :
    ({ s with vocab := v }).rescore hyps w =
      ⟨{ s with vocab := v }, (s.rescore hyps w).calls, (s.rescore hyps w).out⟩ := by
  unfold rescore
  have hcur : ({ s with vocab := v }).current = s.current := rfl
  rw [hcur]
  cases s.current <;> rfl

theorem copy_eq : s.copy = s.reset.map (fun t => { t with vocab := 0 }) := by
  unfold copy reset
  simp only [new]
  cases freshState s.metadata <;> rfl

end Stream

/-- Two chunks of log-probabilities alike but for the width of a chunk without frames. -/
def SameChunk (x y : Tensor) : Prop :=
  x = y ∨ ∃ a b, x = Tensor.zeros [0, a] ∧ y = Tensor.zeros [0, b]

theorem SameChunk.refl (x : Tensor) : SameChunk x x := .inl rfl

/-- A search program that cannot tell apart histories, nor next chunks, that differ only in the
widths of chunks without frames. -/
def SearchProgram.WidthBlind (p : SearchProgram) : Prop :=
  ∀ h h', List.Forall₂ SameChunk h h' →
    p.outputs h = p.outputs h' ∧ p.likelihood h = p.likelihood h' ∧
      ∀ x x', SameChunk x x' → p.fault h x = p.fault h' x'

namespace Searcher

/-- Two searchers alike but for the widths of the chunks without frames that a width-blind
program was given. -/
inductive Alike : Searcher → Searcher → Prop
  | greedy (g : GreedySearch) : Alike (.greedy g) (.greedy g)
  | fixed (outs : List (List Int)) (lik : List Float) (n : Nat) : Alike (.fixed outs lik n) (.fixed outs lik n)
  | program {p : SearchProgram} {h h' : List Tensor} (hp : p.WidthBlind) (hh : List.Forall₂ SameChunk h h') :
      Alike (.program p h) (.program p h')

/-- A searcher that does not read the width of a chunk without frames: the greedy and the fixed
searcher, and a program blind to that width. -/
def WidthBlind (s : Searcher) : Prop := s.Alike s

variable {s g : Searcher}

theorem Alike.outputs_eq (h : s.Alike g) : s.outputs = g.outputs := by
  cases h with
  | greedy => rfl
  | fixed => rfl
  | program hp hh => exact (hp _ _ hh).1

theorem Alike.likelihood_eq (h : s.Alike g) : s.likelihood = g.likelihood := by
  cases h with
  | greedy => rfl
  | fixed => rfl
  | program hp hh => exact (hp _ _ hh).2.1

theorem Alike.search {x y : Tensor} (h : s.Alike g) (hxy : SameChunk x y) :
    (s.search x).1.Alike (g.search y).1 ∧ (s.search x).2 = (g.search y).2 := by
  cases h with
  | greedy g =>
    rcases hxy with rfl | ⟨a, b, rfl, rfl⟩
    · exact ⟨.greedy _, rfl⟩
    · exact ⟨.greedy g, rfl⟩
  | fixed outs lik n =>
    rcases hxy with rfl | ⟨a, b, rfl, rfl⟩
    · unfold Searcher.search
      cases x.rows? with
      | ok r => exact ⟨.fixed _ _ _, rfl⟩
      | error f => exact ⟨.fixed _ _ _, rfl⟩
    · exact ⟨.fixed _ _ _, rfl⟩
  | program hp hh => exact ⟨.program hp (List.rel_append hh (.cons hxy .nil)), (hp _ _ hh).2.2 x y hxy⟩

theorem Alike.reset (h : s.Alike g) : s.reset.Alike g.reset := by
  cases h with
  | greedy g => exact .greedy _
  | fixed outs lik n => exact .fixed _ _ _
  | program hp _ => exact .program hp .nil

theorem reset_search (s : Searcher) (probs : Tensor) : (s.search probs).1.reset = s.reset := by
  cases s with
  | greedy g =>
    have hblank : (g.search probs).1.blank = g.blank := by
      unfold GreedySearch.search
      split
      · rfl
      · rfl
      · rfl
      · rfl
      · dsimp only
        split <;> rfl
    show Searcher.greedy (GreedySearch.init (g.search probs).1.blank) = .greedy (GreedySearch.init g.blank)
    rw [hblank]
  | fixed outs lik n =>
    unfold Searcher.search
    cases probs.rows? <;> rfl
  | program p h => rfl

theorem reset_reset (s : Searcher) : s.reset.reset = s.reset := by
  cases s <;> rfl

end Searcher

/-- The state with the stream's label count and the searcher replaced. -/
def SessionCore.recast (c : SessionCore) (v : Nat) (g : Searcher) : SessionCore :=
  { c with stream := { c.stream with vocab := v }, searcher := g }

namespace Session

/-- An endpoint detector that cannot tell a state from the state recast with another label count
and an alike searcher. -/
def DetectorBlind : Option (SessionCore → Bool) → Prop
  | none => True
  | some d => ∀ (c : SessionCore) (v : Nat) (g : Searcher), c.searcher.Alike g → d (c.recast v g) = d c

theorem framesAtLeast_blind (n : Int) : DetectorBlind (some (framesAtLeast n)) :=
  fun _ _ _ _ => rfl

/-- The session with its stream's label count and its searcher replaced. -/
def recast (s : Session) (v : Nat) (g : Searcher) : Session :=
  { s with stream := { s.stream with vocab := v }, searcher := g }

variable (s : Session) (v : Nat) (g : Searcher)

@[simp] theorem results_recast : (s.recast v g).results = s.results := rfl

@[simp] theorem detector_recast : (s.recast v g).detector = s.detector := rfl

theorem toSessionCore_recast : (s.recast v g).toSessionCore = s.toSessionCore.recast v g := rfl

@[simp] theorem detector_searchChunk (feats : Tensor) : (s.searchChunk feats).next.detector = s.detector := by
  rcases searchChunk_cases s feats with ⟨-, h⟩ | ⟨-, f, -, h⟩ | ⟨-, probs, g, fault, -, -, h⟩ <;> rw [h]

@[simp] theorem detector_decode (b : Bool) : (s.decode b).next.detector = s.detector := by
  cases hw : s.waits b
  · obtain ⟨rs, h⟩ := decode_next_eq hw
    rw [h]
    exact detector_searchChunk _ _
  · rw [decode_of_waits s b hw]

theorem candidates_recast (hg : s.searcher.Alike g) : (s.recast v g).candidates = s.candidates := by
  have houts : (s.recast v g).searcher.outputs = s.searcher.outputs := hg.outputs_eq.symm
  have hlik : (s.recast v g).searcher.likelihood = s.searcher.likelihood := hg.likelihood_eq.symm
  simp only [candidates, houts, hlik]
  rfl

theorem endAfter_recast (hd : DetectorBlind s.detector) (hg : s.searcher.Alike g) (st : DecodeState) :
    (s.recast v g).endAfter st = s.endAfter st := by
  by_cases hst : st = .endBatch
  · subst hst
    unfold endAfter
    rw [detector_recast]
    cases hdet : s.detector with
    | none => rfl
    | some d =>
      rw [hdet] at hd
      simp only [toSessionCore_recast, hd s.toSessionCore v g hg]
  · rw [endAfter_of_ne (s.recast v g) st hst, endAfter_of_ne s st hst]

theorem searchChunk_recast (hg : s.searcher.Alike g) (feats : Tensor) :
    ∃ v' g', (s.searchChunk feats).next.searcher.Alike g' ∧
      (s.recast v g).searchChunk feats =
        ⟨(s.searchChunk feats).next.recast v' g', (s.searchChunk feats).calls, (s.searchChunk feats).out⟩ := by
  obtain ⟨⟨v', hnext⟩, hcalls, hout⟩ := Stream.forward_vocab s.stream v feats
  have hfwd : (s.recast v g).stream.forward feats = ({ s.stream with vocab := v }).forward feats := rfl
  rcases searchChunk_cases s feats with ⟨h0, hsc⟩ | ⟨hpos, f, hfo, hsc⟩ | ⟨hpos, probs, s1, fault, hfo, hs, hsc⟩
  · exact ⟨v, g, by rw [hsc]; exact hg, by rw [hsc, searchChunk_of_empty _ _ h0]⟩
  · -- the stream faults on both sides, as outputs that agree up to width fault alike
    have hfo' : ((s.recast v g).stream.forward feats).out = .error f := by
      rcases hout with h | ⟨a, b, -, hb⟩
      · rw [hfwd, h, hfo]
      · rw [hfo] at hb
        cases hb
    rcases searchChunk_cases (s.recast v g) feats with ⟨h0, -⟩ | ⟨-, f', hf', hsc'⟩ | ⟨-, probs', -, -, hf', -⟩
    · omega
    · rw [hfo'] at hf'
      cases hf'
      refine ⟨v', g, by rw [hsc]; exact hg, ?_⟩
      rw [hsc', hsc, hfwd, hnext, hcalls]
      rfl
    · rw [hfo'] at hf'
      cases hf'
  · obtain ⟨probs', hfo', hsame⟩ : ∃ probs', ((s.recast v g).stream.forward feats).out = .ok probs' ∧
        SameChunk probs probs' := by
      rcases hout with h | ⟨a, b, ha, hb⟩
      · exact ⟨probs, by rw [hfwd, h, hfo], .refl probs⟩
      · rw [hfo] at hb
        cases hb
        exact ⟨_, by rw [hfwd, ha], .inr ⟨b, a, rfl, rfl⟩⟩
    rcases searchChunk_cases (s.recast v g) feats with ⟨h0, -⟩ | ⟨-, f', hf', -⟩ | ⟨-, probs'', g1, fault', hf', hs', hsc'⟩
    · omega
    · rw [hfo'] at hf'
      cases hf'
    · rw [hfo'] at hf'
      cases hf'
      have hgs : g.search probs' = (g1, fault') := hs'
      obtain ⟨hg', hfault⟩ := hg.search hsame
      simp only [hs, hgs] at hg' hfault
      subst hfault
      refine ⟨v', g1, by rw [hsc]; exact hg', ?_⟩
      rw [hsc', hsc, hfwd, hnext, hcalls]
      rfl

theorem consume_eq_after (feats : Tensor) (st : DecodeState) : s.consume feats st =
    match (s.searchChunk feats).out, (s.searchChunk feats).next.candidates with
    | .error f, _ => ⟨(s.searchChunk feats).next, (s.searchChunk feats).calls, .error f⟩
    | .ok (), .error f => ⟨(s.searchChunk feats).next, (s.searchChunk feats).calls, .error f⟩
    | .ok (), .ok cs => ⟨{ (s.searchChunk feats).next with results := cs }, (s.searchChunk feats).calls,
        .ok ({ (s.searchChunk feats).next with results := cs }.endAfter st)⟩ := by
  rcases consume_cases s feats st with ⟨f, hout, hc⟩ | ⟨f, hout, hcs, hc⟩ | ⟨cs, hout, hcs, hc⟩
  · rw [hc, hout]
  · rw [hc, hout, hcs]
  · rw [hc, hout, hcs]

theorem consume_recast (hd : DetectorBlind s.detector) (hg : s.searcher.Alike g) (feats : Tensor)
    (st : DecodeState) :
    ∃ v' g', (s.consume feats st).next.searcher.Alike g' ∧
      (s.recast v g).consume feats st =
        ⟨(s.consume feats st).next.recast v' g', (s.consume feats st).calls, (s.consume feats st).out⟩ := by
  obtain ⟨v', g', hg', h⟩ := searchChunk_recast s v g hg feats
  have hd' : DetectorBlind (s.searchChunk feats).next.detector := by
    rw [detector_searchChunk]
    exact hd
  rw [consume_eq_after s, consume_eq_after (s.recast v g), h]
  dsimp only
  rw [candidates_recast _ v' g' hg']
  cases (s.searchChunk feats).out with
  | error f => exact ⟨v', g', hg', rfl⟩
  | ok u =>
    cases (s.searchChunk feats).next.candidates with
    | error f => exact ⟨v', g', hg', rfl⟩
    | ok cs =>
      refine ⟨v', g', hg', ?_⟩
      have he := endAfter_recast { (s.searchChunk feats).next with results := cs } v' g' hd' hg' st
      simp only [recast] at he ⊢
      rw [he]

theorem decode_recast (hd : DetectorBlind s.detector) (hg : s.searcher.Alike g) (b : Bool) :
    ∃ v' g', (s.decode b).next.searcher.Alike g' ∧
      (s.recast v g).decode b = ⟨(s.decode b).next.recast v' g', (s.decode b).calls, (s.decode b).out⟩ := by
  have hwaits : (s.recast v g).waits b = s.waits b := rfl
  cases hw : s.waits b
  · obtain ⟨v', g', hg', h⟩ := consume_recast { s with queue := (s.queue.read s.request).2.2 } v g hd hg
      (s.queue.read s.request).1 (if (s.queue.read s.request).2.1 then .endBatch else .endFeats)
    rw [decode_of_not_waits _ b (hwaits.trans hw), decode_of_not_waits s b hw]
    exact ⟨v', g', hg', h⟩
  · rw [decode_of_waits _ b (hwaits.trans hw), decode_of_waits s b hw]
    exact ⟨v, g, hg, rfl⟩

theorem rescoring_recast (hg : s.searcher.Alike g) :
    (s.recast v g).rescoring = ⟨s.rescoring.next.recast v g, s.rescoring.calls, s.rescoring.out⟩ := by
  have hc := candidates_recast s v g hg
  cases hcs : s.candidates with
  | error f =>
    simp only [rescoring, updateResults_of_error hcs, updateResults_of_error (hc.trans hcs)]
  | ok cs =>
    simp only [rescoring, updateResults_of_ok hcs, updateResults_of_ok (hc.trans hcs)]
    split
    · rfl
    · simp only [recast, Stream.rescore_vocab, Stream.rescore_next]
      cases (s.stream.rescore (cs.map Candidate.tokens) s.options.reverseWeight.toFloat).out <;> rfl

theorem reset_recast : (s.recast v g).reset = s.reset.map (·.recast v g.reset) := by
  unfold reset Stream.reset
  simp only [recast]
  cases Stream.freshState s.stream.metadata <;> rfl

theorem reset_eq_fresh (h : s.searcher.reset = s.initialSearcher) :
    s.reset = (create (FrameQueue.empty s.queue.dim) (Stream.new s.stream.backend s.stream.metadata)
      s.initialSearcher s.options s.vocabulary s.detector).map (·.recast s.stream.vocab s.initialSearcher) := by
  unfold reset create Stream.reset
  simp only [Stream.new]
  rw [h]
  cases Stream.freshState s.stream.metadata <;> rfl

theorem clone_eq : s.clone = create (FrameQueue.empty s.queue.dim)
    (Stream.new s.stream.backend s.stream.metadata) s.initialSearcher s.options s.vocabulary
    s.detector := by
  unfold clone create Stream.copy Stream.reset
  simp only [Stream.new]
  cases h : Stream.freshState s.stream.metadata with
  | error f => rfl
  | ok st => simp only [bind, Except.bind, pure, Except.pure, h]

theorem create_eq_ok {q : FrameQueue} {st : Stream} {o : DecodeOptions} {voc : Option Vocabulary}
    {d : Option (SessionCore → Bool)} {t : Session} (h : create q st g o voc d = .ok t) :
    t.searcher = g ∧ t.initialSearcher = g ∧ t.detector = d := by
  unfold create at h
  obtain ⟨st', -, h⟩ := Except.bind_eq_ok.1 h
  cases Except.pure_eq_ok.1 h
  exact ⟨rfl, rfl, rfl⟩

theorem searchChunk_reset (feats : Tensor) :
    (s.searchChunk feats).next.searcher.reset = s.searcher.reset ∧
      (s.searchChunk feats).next.initialSearcher = s.initialSearcher := by
  rcases searchChunk_cases s feats with ⟨-, h⟩ | ⟨-, f, -, h⟩ | ⟨-, probs, g, fault, -, hs, h⟩
  · rw [h]
    exact ⟨rfl, rfl⟩
  · rw [h]
    exact ⟨rfl, rfl⟩
  · have hsearch := Searcher.reset_search s.searcher probs
    rw [hs] at hsearch
    rw [h]
    exact ⟨hsearch, rfl⟩

theorem decode_reset (b : Bool) :
    (s.decode b).next.searcher.reset = s.searcher.reset ∧
      (s.decode b).next.initialSearcher = s.initialSearcher := by
  cases hw : s.waits b
  · obtain ⟨rs, h⟩ := decode_next_eq hw
    rw [h]
    exact searchChunk_reset _ _
  · rw [decode_of_waits s b hw]
    exact ⟨rfl, rfl⟩

/-- What a client sees of one operation: the backend calls it made, the decode state it returned
(none for an operation that returns nothing) or the fault it raised, and the n-best list after
it. -/
structure Seen where
  calls : List Call
  out : Except Fault (Option DecodeState)
  results : List Candidate

/-- One operation of a client that carries on after a fault, on the session the fault left. -/
def exec (s : Session) : Op → Session × Seen
  | .accept t => match s.queue.accept t with
    | .ok q => ({ s with queue := q }, ⟨[], .ok none, s.results⟩)
    | .error f => (s, ⟨[], .error f, s.results⟩)
  | .finish => ({ s with queue := s.queue.finish }, ⟨[], .ok none, s.results⟩)
  | .decode b => ((s.decode b).next, ⟨(s.decode b).calls, (s.decode b).out.map some, (s.decode b).next.results⟩)
  | .rescore => (s.rescoring.next, ⟨s.rescoring.calls, s.rescoring.out.map (fun _ => none), s.rescoring.next.results⟩)
  | .reset => match s.reset with
    | .ok t => (t, ⟨[], .ok none, t.results⟩)
    | .error f => (s, ⟨[], .error f, s.results⟩)

/-- What a client sees of operations, each on the session the one before left. -/
def trace (s : Session) : List Op → List Seen
  | [] => []
  | op :: ops => (s.exec op).2 :: (s.exec op).1.trace ops

theorem exec_resets (h : s.searcher.reset = s.initialSearcher) (op : Op) :
    (s.exec op).1.searcher.reset = (s.exec op).1.initialSearcher := by
  cases op with
  | accept t =>
    simp only [exec]
    cases s.queue.accept t <;> exact h
  | finish => exact h
  | decode b =>
    obtain ⟨hreset, hinit⟩ := decode_reset s b
    show (s.decode b).next.searcher.reset = (s.decode b).next.initialSearcher
    rw [hreset, hinit, h]
  | rescore =>
    obtain ⟨rs, hnext⟩ := rescoring_next (s := s)
    show s.rescoring.next.searcher.reset = s.rescoring.next.initialSearcher
    rw [hnext]
    exact h
  | reset =>
    simp only [exec]
    cases hr : s.reset with
    | error f => exact h
    | ok t =>
      obtain ⟨st, -, rfl⟩ := reset_eq_ok hr
      exact (Searcher.reset_reset s.searcher).trans h

theorem detector_exec (op : Op) : (s.exec op).1.detector = s.detector := by
  cases op with
  | accept t =>
    simp only [exec]
    cases s.queue.accept t <;> rfl
  | finish => rfl
  | decode b => exact detector_decode s b
  | rescore =>
    obtain ⟨rs, hnext⟩ := rescoring_next (s := s)
    show s.rescoring.next.detector = s.detector
    rw [hnext]
  | reset =>
    simp only [exec]
    cases hr : s.reset with
    | error f => rfl
    | ok t =>
      obtain ⟨st, -, rfl⟩ := reset_eq_ok hr
      rfl

theorem exec_recast (hd : DetectorBlind s.detector) (hg : s.searcher.Alike g) (op : Op) :
    ∃ v' g', (s.exec op).1.searcher.Alike g' ∧ (s.recast v g).exec op = ((s.exec op).1.recast v' g', (s.exec op).2) := by
  cases op with
  | accept t =>
    have hq : (s.recast v g).queue = s.queue := rfl
    simp only [exec, hq]
    cases s.queue.accept t with
    | ok q => exact ⟨v, g, hg, rfl⟩
    | error f => exact ⟨v, g, hg, rfl⟩
  | finish => exact ⟨v, g, hg, rfl⟩
  | decode b =>
    obtain ⟨v', g', hg', h⟩ := decode_recast s v g hd hg b
    exact ⟨v', g', hg', by simp only [exec, h, results_recast]⟩
  | rescore =>
    obtain ⟨rs, hnext⟩ := rescoring_next (s := s)
    have hsearcher : s.rescoring.next.searcher = s.searcher := by rw [hnext]
    refine ⟨v, g, ?_, by simp only [exec, rescoring_recast s v g hg, results_recast]⟩
    show s.rescoring.next.searcher.Alike g
    rw [hsearcher]
    exact hg
  | reset =>
    simp only [exec, reset_recast]
    cases hr : s.reset with
    | error f => exact ⟨v, g, hg, rfl⟩
    | ok t =>
      obtain ⟨st, -, rfl⟩ := reset_eq_ok hr
      exact ⟨v, g.reset, hg.reset, rfl⟩

theorem trace_recast (hd : DetectorBlind s.detector) (hg : s.searcher.Alike g) (ops : List Op) :
    (s.recast v g).trace ops = s.trace ops := by
  -- the label count and the searcher's history may change along the way, so the induction takes
  -- any session, count and alike searcher
  induction ops generalizing s v g with
  | nil => rfl
  | cons op ops ih =>
    obtain ⟨v', g', hg', h⟩ := exec_recast s v g hd hg op
    have hd' : DetectorBlind (s.exec op).1.detector := by
      rw [detector_exec]
      exact hd
    simp only [trace, h, ih _ v' g' hd' hg']

end Session

namespace Recognizer

/-- The recogniser with its stream's label count and its searcher replaced. -/
def recast (r : Recognizer) (v : Nat) (g : Searcher) : Recognizer :=
  { r with session := r.session.recast v g }

variable (r : Recognizer) (v : Nat) (g : Searcher)

@[simp] theorem result_recast : (r.recast v g).result = r.result := rfl

theorem refreshPartial_recast : (r.recast v g).refreshPartial = r.refreshPartial.recast v g := rfl

theorem stepped_recast (hd : Session.DetectorBlind r.session.detector) (hg : r.session.searcher.Alike g) :
    ∃ v' g', r.stepped.session.searcher.Alike g' ∧ (r.recast v g).stepped = r.stepped.recast v' g' ∧
      ((r.recast v g).session.decode false).calls = (r.session.decode false).calls ∧
      ((r.recast v g).session.decode false).out = (r.session.decode false).out := by
  obtain ⟨v', g', hg', h⟩ := Session.decode_recast r.session v g hd hg false
  have hdec : (r.recast v g).session.decode false = (r.session.recast v g).decode false := rfl
  refine ⟨v', g', hg', ?_, ?_, ?_⟩
  · simp only [stepped, hdec, h]
    rfl
  · rw [hdec, h]
  · rw [hdec, h]

theorem conclude_recast (hg : r.session.searcher.Alike g) :
    (r.recast v g).conclude = ⟨r.conclude.next.recast v g, r.conclude.calls, r.conclude.out⟩ := by
  have hres : (r.recast v g).session.rescoring = ⟨r.session.rescoring.next.recast v g,
      r.session.rescoring.calls, r.session.rescoring.out⟩ := Session.rescoring_recast r.session v g hg
  cases h : r.session.rescoring.out with
  | error f =>
    have h' : (r.recast v g).session.rescoring.out = .error f := by rw [hres, h]
    rw [conclude_of_error h', conclude_of_error h, hres]
    rfl
  | ok u =>
    have h' : (r.recast v g).session.rescoring.out = .ok () := by rw [hres, h]
    rw [conclude_of_ok h', conclude_of_ok h, hres]
    rfl

theorem conclude_session : ∃ rs, r.conclude.next.session = { r.session with results := rs } := by
  obtain ⟨rs, hnext⟩ := Session.rescoring_next (s := r.session)
  refine ⟨rs, ?_⟩
  cases h : r.session.rescoring.out with
  | error f =>
    rw [conclude_of_error h]
    exact hnext
  | ok u =>
    rw [conclude_of_ok h]
    exact hnext

theorem drain_detector (n : Nat) (calls : List Call) :
    (drain n r calls).next.session.detector = r.session.detector := by
  induction n generalizing r calls with
  | zero => rfl
  | succ n ih =>
    have hstep : r.stepped.session.detector = r.session.detector := Session.detector_decode r.session false
    rw [drain_succ]
    cases (r.session.decode false).out with
    | error f => exact hstep
    | ok st =>
      cases st with
      | waitFeats => exact hstep
      | endBatch => exact (ih _ _).trans hstep
      | endpoint => exact (ih _ _).trans hstep
      | endFeats =>
        obtain ⟨rs, hrs⟩ := conclude_session r.stepped
        show r.stepped.conclude.next.session.detector = r.session.detector
        rw [hrs]
        exact hstep

theorem drain_recast (hd : Session.DetectorBlind r.session.detector) (hg : r.session.searcher.Alike g)
    (n : Nat) (calls : List Call) :
    ∃ v' g', (drain n r calls).next.session.searcher.Alike g' ∧
      drain n (r.recast v g) calls =
        ⟨(drain n r calls).next.recast v' g', (drain n r calls).calls, (drain n r calls).out⟩ := by
  induction n generalizing r v g calls with
  | zero => exact ⟨v, g, hg, rfl⟩
  | succ n ih =>
    obtain ⟨v', g', hg', hstep, hcalls, hout⟩ := stepped_recast r v g hd hg
    have hd' : Session.DetectorBlind r.stepped.refreshPartial.session.detector := by
      show Session.DetectorBlind (r.session.decode false).next.detector
      rw [Session.detector_decode]
      exact hd
    rw [drain_succ, drain_succ, hcalls, hout, hstep]
    cases (r.session.decode false).out with
    | error f => exact ⟨v', g', hg', rfl⟩
    | ok st =>
      cases st with
      | waitFeats => exact ⟨v', g', hg', rfl⟩
      | endBatch =>
        rw [refreshPartial_recast]
        exact ih _ _ _ hd' hg' _
      | endpoint =>
        rw [refreshPartial_recast]
        exact ih _ _ _ hd' hg' _
      | endFeats =>
        rw [conclude_recast _ _ _ hg']
        obtain ⟨rs, hrs⟩ := conclude_session r.stepped
        refine ⟨v', g', ?_, rfl⟩
        show r.stepped.conclude.next.session.searcher.Alike g'
        rw [hrs]
        exact hg'

theorem accepted_recast (q : FrameQueue) (last : Bool) :
    (r.recast v g).accepted q last = (r.accepted q last).recast v g := by
  cases last <;> rfl

theorem decode_recast (hd : Session.DetectorBlind r.session.detector) (hg : r.session.searcher.Alike g)
    (t : Tensor) (last : Bool) :
    ∃ v' g', (r.decode t last).next.session.searcher.Alike g' ∧
      (r.recast v g).decode t last =
        ⟨(r.decode t last).next.recast v' g', (r.decode t last).calls, (r.decode t last).out⟩ := by
  cases hfin : r.finished
  · cases hacc : r.session.queue.accept t with
    | error f =>
      rw [decode_of_reject (r := r.recast v g) hfin hacc, decode_of_reject hfin hacc]
      exact ⟨v, g, hg, rfl⟩
    | ok q =>
      obtain ⟨v', g', hg', h⟩ := drain_recast (r.accepted q last) v g hd hg (q.queued + 2) []
      rw [decode_eq_drain (r := r.recast v g) last hfin hacc, decode_eq_drain last hfin hacc,
        accepted_recast, h]
      exact ⟨v', g', hg', rfl⟩
  · rw [decode_of_finished (r := r.recast v g) hfin, decode_of_finished hfin]
    exact ⟨v, g, hg, rfl⟩

theorem reset_recast : (r.recast v g).reset = r.reset.map (·.recast v g.reset) := by
  unfold Recognizer.reset
  have hreset : (r.recast v g).session.reset = r.session.reset.map (·.recast v g.reset) :=
    Session.reset_recast r.session v g
  rw [hreset]
  cases r.session.reset <;> rfl

theorem reset_eq_fresh (h : r.session.searcher.reset = r.session.initialSearcher) :
    r.reset = (Session.create (FrameQueue.empty r.session.queue.dim)
      (Stream.new r.session.stream.backend r.session.stream.metadata) r.session.initialSearcher
      r.session.options r.session.vocabulary r.session.detector).map
        (fun s => (⟨s, "", [], false⟩ : Recognizer).recast r.session.stream.vocab r.session.initialSearcher) := by
  unfold Recognizer.reset
  rw [Session.reset_eq_fresh r.session h]
  cases Session.create (FrameQueue.empty r.session.queue.dim)
    (Stream.new r.session.stream.backend r.session.stream.metadata) r.session.initialSearcher
    r.session.options r.session.vocabulary r.session.detector <;> rfl

/-- What a client does with a recogniser: decodes a block, the last when told so, sets the n-best
bound, or starts a new utterance. -/
inductive Op where
  | decode (t : Tensor) (last : Bool)
  | setNbest (n : Int)
  | reset

/-- What a client sees of one call: the backend calls it made, the partial result it returned
(none for a call that returns nothing) or the fault it raised, and the result after it. -/
structure Seen where
  calls : List Call
  out : Except Fault (Option String)
  result : List Candidate

/-- One call of a client that carries on after a fault, on the recogniser the fault left. -/
def exec (r : Recognizer) : Op → Recognizer × Seen
  | .decode t last => ((r.decode t last).next,
      ⟨(r.decode t last).calls, (r.decode t last).out.map some, (r.decode t last).next.result⟩)
  | .setNbest n => (r.setNbest n, ⟨[], .ok none, (r.setNbest n).result⟩)
  | .reset => match r.reset with
    | .ok r' => (r', ⟨[], .ok none, r'.result⟩)
    | .error f => (r, ⟨[], .error f, r.result⟩)

/-- What a client sees of calls, each on the recogniser the one before left. -/
def trace (r : Recognizer) : List Op → List Seen
  | [] => []
  | op :: ops => (r.exec op).2 :: (r.exec op).1.trace ops

theorem detector_exec (op : Op) : (r.exec op).1.session.detector = r.session.detector := by
  cases op with
  | decode t last =>
    cases hfin : r.finished
    · cases hacc : r.session.queue.accept t with
      | error f => simp only [exec, decode_of_reject hfin hacc]
      | ok q =>
        simp only [exec, decode_eq_drain last hfin hacc]
        exact drain_detector _ _ _
    · simp only [exec, decode_of_finished hfin]
  | setNbest n => rfl
  | reset =>
    simp only [exec]
    cases hr : r.reset with
    | error f => rfl
    | ok r' =>
      unfold Recognizer.reset at hr
      obtain ⟨s, hs, h⟩ := Except.bind_eq_ok.1 hr
      cases Except.pure_eq_ok.1 h
      obtain ⟨st, -, rfl⟩ := Session.reset_eq_ok hs
      rfl

theorem exec_recast (hd : Session.DetectorBlind r.session.detector) (hg : r.session.searcher.Alike g) (op : Op) :
    ∃ v' g', (r.exec op).1.session.searcher.Alike g' ∧
      (r.recast v g).exec op = ((r.exec op).1.recast v' g', (r.exec op).2) := by
  cases op with
  | decode t last =>
    obtain ⟨v', g', hg', h⟩ := decode_recast r v g hd hg t last
    exact ⟨v', g', hg', by simp only [exec, h, result_recast]⟩
  | setNbest n => exact ⟨v, g, hg, rfl⟩
  | reset =>
    simp only [exec, reset_recast]
    cases hr : r.reset with
    | error f => exact ⟨v, g, hg, rfl⟩
    | ok r' =>
      unfold Recognizer.reset at hr
      obtain ⟨s, hs, h⟩ := Except.bind_eq_ok.1 hr
      cases Except.pure_eq_ok.1 h
      obtain ⟨st, -, rfl⟩ := Session.reset_eq_ok hs
      exact ⟨v, g.reset, hg.reset, rfl⟩

theorem trace_recast (hd : Session.DetectorBlind r.session.detector) (hg : r.session.searcher.Alike g)
    (ops : List Op) : (r.recast v g).trace ops = r.trace ops := by
  induction ops generalizing r v g with
  | nil => rfl
  | cons op ops ih =>
    obtain ⟨v', g', hg', h⟩ := exec_recast r v g hd hg op
    have hd' : Session.DetectorBlind (r.exec op).1.session.detector := by
      rw [detector_exec]
      exact hd
    simp only [trace, h, ih _ v' g' hd' hg']

end Recognizer

/-- A reset session is a fresh one. When its searcher resets to the one it started with, that
searcher cannot tell chunks without frames apart by their width, and its endpoint detector cannot
tell sessions apart by the stream's label count or by such widths, a reset session is seen by
every client, operation after operation, as the session created afresh with the same backend,
metadata, searcher, options, vocabulary and endpoint detector over a queue of the same feature
width: the same backend calls, decode states, faults and n-best lists. The label count a reset
keeps, and the widths of chunks without frames an alike searcher was given, change nothing such a
client sees of a session, and of a stream only the column count of a buffered chunk's empty
output. A session started with a searcher that resets to itself keeps it resetting so after every
operation, faults included; the greedy search is such a searcher and is width-blind, and a frame
threshold is a blind detector. A clone is the fresh session, and a copied stream is the stream
reset but for the label count. A reset recogniser is seen as a new recogniser over such a fresh
session, whose queue keeps the old feature width. -/
theorem reset_matches_fresh_session :
    (∀ (s : Session) (ops : List Session.Op), s.searcher.reset = s.initialSearcher →
      s.initialSearcher.WidthBlind → Session.DetectorBlind s.detector →
      s.reset.map (·.trace ops) =
        (Session.create (FrameQueue.empty s.queue.dim) (Stream.new s.stream.backend s.stream.metadata)
          s.initialSearcher s.options s.vocabulary s.detector).map (·.trace ops)) ∧
    (∀ (s : Session) (v : Nat) (g : Searcher) (ops : List Session.Op), Session.DetectorBlind s.detector →
      s.searcher.Alike g → (s.recast v g).trace ops = s.trace ops) ∧
    (∀ (s : Stream) (v : Nat) (feats : Tensor),
      (({ s with vocab := v }).forward feats).calls = (s.forward feats).calls ∧
      Stream.SameOutput (({ s with vocab := v }).forward feats).out (s.forward feats).out) ∧
    (∀ (q : FrameQueue) (st : Stream) (g : Searcher) (o : DecodeOptions) (voc : Option Vocabulary)
      (d : Option (SessionCore → Bool)) (s : Session), g.reset = g →
        Session.create q st g o voc d = .ok s → s.searcher.reset = s.initialSearcher) ∧
    (∀ (s : Session) (op : Session.Op), s.searcher.reset = s.initialSearcher →
      (s.exec op).1.searcher.reset = (s.exec op).1.initialSearcher) ∧
    (∀ blank n : Int, (Searcher.greedy (GreedySearch.init blank)).reset = .greedy (GreedySearch.init blank) ∧
      (Searcher.greedy (GreedySearch.init blank)).WidthBlind ∧
      Session.DetectorBlind (some (Session.framesAtLeast n))) ∧
    (∀ s : Session, s.clone = Session.create (FrameQueue.empty s.queue.dim)
      (Stream.new s.stream.backend s.stream.metadata) s.initialSearcher s.options s.vocabulary
      s.detector) ∧
    (∀ s : Stream, s.copy = s.reset.map (fun t => { t with vocab := 0 })) ∧
    (∀ (r : Recognizer) (ops : List Recognizer.Op), r.session.searcher.reset = r.session.initialSearcher →
      r.session.initialSearcher.WidthBlind → Session.DetectorBlind r.session.detector →
      r.reset.map (·.trace ops) =
        (Session.create (FrameQueue.empty r.session.queue.dim)
          (Stream.new r.session.stream.backend r.session.stream.metadata) r.session.initialSearcher
          r.session.options r.session.vocabulary r.session.detector).map
            (fun s => (⟨s, "", [], false⟩ : Recognizer).trace ops)) := by
  refine ⟨fun s ops h hw hd => ?_, fun s v g ops hd hg => Session.trace_recast s v g hd hg ops,
    fun s v feats => ?_, fun q st g o voc d s hg h => ?_, fun s op h => Session.exec_resets s h op,
    fun blank n => ⟨rfl, .greedy _, Session.framesAtLeast_blind n⟩, Session.clone_eq, Stream.copy_eq,
    fun r ops h hw hd => ?_⟩
  · rw [Session.reset_eq_fresh s h]
    cases ht : Session.create (FrameQueue.empty s.queue.dim) (Stream.new s.stream.backend s.stream.metadata)
      s.initialSearcher s.options s.vocabulary s.detector with
    | error f => rfl
    | ok t =>
      obtain ⟨hs, -, hdet⟩ := Session.create_eq_ok _ ht
      have hd' : Session.DetectorBlind t.detector := by
        rw [hdet]
        exact hd
      have hw' : t.searcher.Alike s.initialSearcher := by
        rw [hs]
        exact hw
      exact congrArg Except.ok (Session.trace_recast t s.stream.vocab s.initialSearcher hd' hw' ops)
  · obtain ⟨-, hcalls, hout⟩ := Stream.forward_vocab s v feats
    exact ⟨hcalls, hout⟩
  · obtain ⟨hs, hinit, -⟩ := Session.create_eq_ok _ h
    rw [hs, hinit, hg]
  · rw [Recognizer.reset_eq_fresh r h]
    cases ht : Session.create (FrameQueue.empty r.session.queue.dim)
      (Stream.new r.session.stream.backend r.session.stream.metadata) r.session.initialSearcher
      r.session.options r.session.vocabulary r.session.detector with
    | error f => rfl
    | ok t =>
      obtain ⟨hs, -, hdet⟩ := Session.create_eq_ok _ ht
      have hd' : Session.DetectorBlind t.detector := by
        rw [hdet]
        exact hd
      have hw' : t.searcher.Alike r.session.initialSearcher := by
        rw [hs]
        exact hw
      exact congrArg Except.ok
        (Recognizer.trace_recast ⟨t, "", [], false⟩ r.session.stream.vocab r.session.initialSearcher hd' hw' ops)

/-- The synthetic session with three frames queued, a fixed n-best list and an endpoint after two
frames, one chunk in. -/
def Session.endpointing : Session :=
  (({ Session.queuedWith [#[1, 2], #[3, 4], #[5, 6]] false with
      detector := some (Session.framesAtLeast 2) }).decode false).next

/-- The endpointing session reset after its first chunk is seen as the session created afresh
through a block, a chunk, the end of the input and a rescoring; the synthetic recogniser reset is
seen as a new one through two blocks. -/
theorem reset_matches_fresh_session_one_chunk_in :
    Session.endpointing.reset.map
        (·.trace [.accept ⟨[2, 2], #[7, 8, 9, 10]⟩, .decode false, .finish, .decode false, .rescore]) =
      (Session.create (FrameQueue.empty Session.endpointing.queue.dim)
        (Stream.new Session.endpointing.stream.backend Session.endpointing.stream.metadata)
        Session.endpointing.initialSearcher Session.endpointing.options Session.endpointing.vocabulary
        Session.endpointing.detector).map
          (·.trace [.accept ⟨[2, 2], #[7, 8, 9, 10]⟩, .decode false, .finish, .decode false, .rescore]) ∧
    Recognizer.synthetic.reset.map
        (·.trace [.decode ⟨[3, 2], #[1, 2, 3, 4, 5, 6]⟩ false, .decode ⟨[1, 2], #[7, 8]⟩ true]) =
      (Session.create (FrameQueue.empty Recognizer.synthetic.session.queue.dim)
        (Stream.new Recognizer.synthetic.session.stream.backend Recognizer.synthetic.session.stream.metadata)
        Recognizer.synthetic.session.initialSearcher Recognizer.synthetic.session.options
        Recognizer.synthetic.session.vocabulary Recognizer.synthetic.session.detector).map
          (fun s => (⟨s, "", [], false⟩ : Recognizer).trace
            [.decode ⟨[3, 2], #[1, 2, 3, 4, 5, 6]⟩ false, .decode ⟨[1, 2], #[7, 8]⟩ true]) := by
  obtain ⟨hfresh, -, -, -, hexec, hdefaults, -, -, hrec⟩ := reset_matches_fresh_session
  have hreset : Session.endpointing.searcher.reset = Session.endpointing.initialSearcher :=
    hexec { Session.queuedWith [#[1, 2], #[3, 4], #[5, 6]] false with
      detector := some (Session.framesAtLeast 2) } (.decode false) rfl
  have hinit : Session.endpointing.initialSearcher = .fixed [[1]] [-1.0] 0 := (Session.decode_reset _ false).2
  have hdet : Session.endpointing.detector = some (Session.framesAtLeast 2) := Session.detector_decode _ false
  refine ⟨hfresh _ _ hreset (by rw [hinit]; exact .fixed _ _ _) (by rw [hdet]; exact (hdefaults 0 2).2.2),
    hrec _ _ rfl (.greedy _) trivial⟩

/-- The synthetic session one chunk in, its stream having seen one label, with nothing queued, and
an endpoint detector that fires once the stream has seen a label. -/
def Session.labelDetecting : Session :=
  { Recognizer.synthetic.session with
    stream := { Recognizer.synthetic.session.stream with vocab := 1 }
    searcher := .fixed [[1]] [-1.0] 2
    initialSearcher := .fixed [[1]] [-1.0] 0
    started := true
    frames := 2
    detector := some (fun c => decide (0 < c.stream.vocab)) }

/-- A reset session is not always a fresh one. An endpoint detector that reads the stream's label
count tells the two apart: told to take whatever is queued, the reset session reports an endpoint
where the fresh one reports the end of a chunk. And a reset recogniser's queue keeps the feature
width of the old utterance and refuses a block of another width, which a new recogniser takes. -/
theorem reset_is_not_always_fresh :
    (¬ ∀ (s : Session) (ops : List Session.Op), s.searcher.reset = s.initialSearcher →
      s.reset.map (·.trace ops) =
        (Session.create (FrameQueue.empty s.queue.dim) (Stream.new s.stream.backend s.stream.metadata)
          s.initialSearcher s.options s.vocabulary s.detector).map (·.trace ops)) ∧
    ¬ ∀ (r : Recognizer) (ops : List Recognizer.Op), r.session.searcher.reset = r.session.initialSearcher →
      r.reset.map (·.trace ops) =
        (Recognizer.create r.session.stream.backend r.session.options r.session.vocabulary).map
          (·.trace ops) := by
  constructor
  · intro h
    have hreset : Session.labelDetecting.reset.map (·.trace [.decode true]) =
        .ok [⟨[], .ok (some .endpoint), []⟩] := rfl
    have hfresh : (Session.create (FrameQueue.empty Session.labelDetecting.queue.dim)
        (Stream.new Session.labelDetecting.stream.backend Session.labelDetecting.stream.metadata)
        Session.labelDetecting.initialSearcher Session.labelDetecting.options
        Session.labelDetecting.vocabulary Session.labelDetecting.detector).map (·.trace [.decode true]) =
        .ok [⟨[], .ok (some .endBatch), []⟩] := rfl
    have hsame := h Session.labelDetecting [.decode true] rfl
    rw [hreset, hfresh] at hsame
    simp at hsame
  · intro h
    have hreset : Recognizer.rescoringFaulting.reset.map (·.trace [.decode (Tensor.zeros [1, 2]) false]) =
        .ok [⟨[], .error (.dimMismatch 1 2), []⟩] := rfl
    have hnew : (Recognizer.create Recognizer.rescoringFaulting.session.stream.backend
        Recognizer.rescoringFaulting.session.options Recognizer.rescoringFaulting.session.vocabulary).map
          (·.trace [.decode (Tensor.zeros [1, 2]) false]) = .ok [⟨[], .error .backendFailed, []⟩] := rfl
    have hsame := h Recognizer.rescoringFaulting [.decode (Tensor.zeros [1, 2]) false] rfl
    rw [hreset, hnew] at hsame
    simp at hsame

end SpeechStream
