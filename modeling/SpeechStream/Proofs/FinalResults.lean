import SpeechStream.Proofs.DecodingLoop
import SpeechStream.Proofs.ChunkFaults
/-!
The final result of an utterance, and the one rescoring that produces it.

A decode call that reaches the end of the input rescores the n-best list, keeps the rescored
list as the final result and finishes the utterance (`Recognizer.conclude`). Whatever the call
returns, the input has then ended, so every later call is refused with the recogniser left as it
was: a finished utterance refuses a block, and a queue whose input ended refuses frames. So the
utterance is rescored at most once, by the call whose loop first reaches the end of the input,
and only after a call passed the last block (`Recognizer.Decodes.ended`).

Throughout, the partial result is the best sentence of the result, and the result is the
session's n-best list (`Recognizer.Shows`). A rescoring that faults leaves the utterance
unfinished and the n-best list as it was.
-/

set_option autoImplicit false

namespace SpeechStream

namespace Session

variable {s : Session}

theorem consume_candidates_results {feats : Tensor} {st st' : DecodeState}
    (h : (s.consume feats st).out = .ok st') :
    (s.consume feats st).next.candidates = .ok (s.consume feats st).next.results := by
  rcases consume_cases s feats st with ⟨f, -, hc⟩ | ⟨f, -, -, hc⟩ | ⟨cs, -, hcs, hc⟩
  · rw [hc] at h
    cases h
  · rw [hc] at h
    cases h
  · rw [hc]
    exact hcs

theorem decode_of_waitFeats {b : Bool} (h : (s.decode b).out = .ok .waitFeats) :
    s.decode b = ⟨s, [], .ok .waitFeats⟩ := by
  cases hw : s.waits b
  · exact absurd rfl (decode_ok hw h).2.2.1
  · exact decode_of_waits s b hw

theorem decode_candidates_results {b : Bool} {st : DecodeState} (h : (s.decode b).out = .ok st)
    (hst : st ≠ .waitFeats) :
    (s.decode b).next.candidates = .ok (s.decode b).next.results := by
  cases hw : s.waits b
  · rw [decode_of_not_waits s b hw] at h ⊢
    simpa only [candidates_queue] using consume_candidates_results h
  · rw [decode_of_waits s b hw] at h
    cases h
    exact absurd rfl hst

theorem rescoring_of_error {f : Fault} (hc : s.candidates = .ok s.results)
    (h : s.rescoring.out = .error f) : s.rescoring.next = s := by
  have hupd : s.updateResults = .ok s := by
    rw [updateResults_of_ok hc]
  unfold rescoring at h ⊢
  simp only [hupd] at h ⊢
  split
  · rename_i hempty
    simp [hempty] at h
  · rename_i hne
    cases hout : (s.stream.rescore (s.results.map Candidate.tokens) s.options.reverseWeight.toFloat).out with
    | error g => simp [Stream.rescore_next]
    | ok scores => simp [hne, hout] at h

theorem rescoring_queue : s.rescoring.next.queue = s.queue := by
  obtain ⟨rs, h⟩ := rescoring_next (s := s)
  rw [h]

end Session

namespace Recognizer

/-- The best sentence of an n-best list, or the empty text. -/
def bestSentence : List Candidate → String
  | c :: _ => c.sentence
  | [] => ""

@[simp] theorem refreshPartial_partialText (r : Recognizer) :
    r.refreshPartial.partialText = bestSentence r.session.results := by
  unfold refreshPartial bestSentence
  cases r.session.results <;> rfl

@[simp] theorem refreshPartial_session (r : Recognizer) : r.refreshPartial.session = r.session := rfl

@[simp] theorem refreshPartial_finished (r : Recognizer) : r.refreshPartial.finished = r.finished := rfl

@[simp] theorem stepped_finished (r : Recognizer) : r.stepped.finished = r.finished := rfl

theorem result_of_unfinished {r : Recognizer} (h : r.finished = false) : r.result = r.session.results := by
  simp [result, h]

/-- What a recogniser shows agrees with its session: the result is the session's n-best list, and
the partial result is its best sentence. -/
structure Shows (r : Recognizer) : Prop where
  partial_eq : r.partialText = bestSentence r.result
  result_eq : r.result = r.session.results

theorem Shows.of_unfinished {r : Recognizer} (h : r.finished = false)
    (hp : r.partialText = bestSentence r.session.results) : r.Shows :=
  ⟨by rw [result_of_unfinished h, hp], result_of_unfinished h⟩

/-! The end of an utterance. -/

theorem conclude_of_error {r : Recognizer} {f : Fault} (h : r.session.rescoring.out = .error f) :
    r.conclude = ⟨{ r.refreshPartial with session := r.session.rescoring.next }, r.session.rescoring.calls,
      .error f⟩ := by
  simp only [conclude, refreshPartial_session, h]

theorem conclude_of_ok {r : Recognizer} (h : r.session.rescoring.out = .ok ()) :
    r.conclude =
      ⟨{ r with session := r.session.rescoring.next, final := r.session.rescoring.next.results,
                partialText := bestSentence r.session.rescoring.next.results, finished := true },
        r.session.rescoring.calls, .ok ()⟩ := by
  simp only [conclude, refreshPartial_session, h]
  rfl

theorem conclude_queue (r : Recognizer) : r.conclude.next.session.queue = r.session.queue := by
  cases h : r.session.rescoring.out with
  | error f =>
    rw [conclude_of_error h]
    exact Session.rescoring_queue
  | ok u =>
    rw [conclude_of_ok h]
    exact Session.rescoring_queue

theorem conclude_shows {r : Recognizer} (hfin : r.finished = false)
    (hc : r.session.candidates = .ok r.session.results) :
    r.conclude.next.Shows ∧ r.conclude.next.finished = r.conclude.out.isOk := by
  cases hout : r.session.rescoring.out with
  | error f =>
    rw [conclude_of_error hout, Session.rescoring_of_error hc hout]
    exact ⟨Shows.of_unfinished hfin (refreshPartial_partialText r), hfin⟩
  | ok u =>
    rw [conclude_of_ok hout]
    exact ⟨⟨rfl, rfl⟩, rfl⟩

namespace Loop

variable {r : Recognizer} {os : List (Except Fault DecodeState)} {d : Step Recognizer Unit}

theorem shows (hl : r.Loop os d) (hfin : r.finished = false)
    (hp : r.partialText = bestSentence r.session.results) : d.next.Shows := by
  induction hl with
  | fault h =>
    have hres := (Session.decode_of_error h).2.1
    exact Shows.of_unfinished hfin (by simpa [stepped, hres] using hp)
  | @wait r h =>
    simp only [stepped, Session.decode_of_waitFeats h]
    exact Shows.of_unfinished hfin hp
  | chunk h hst rest ih => exact ih hfin (refreshPartial_partialText _)
  | @finish r h =>
    exact (conclude_shows (r := r.stepped) hfin (Session.decode_candidates_results h (by decide))).1

theorem queue_finished (hl : r.Loop os d) :
    d.next.session.queue.finished = r.session.queue.finished := by
  induction hl with
  | fault h => exact (Session.decode_queue_flags _ _).1
  | wait h => exact (Session.decode_queue_flags _ _).1
  | chunk h hst rest ih =>
    rw [ih]
    exact (Session.decode_queue_flags _ _).1
  | finish h =>
    rw [conclude_queue]
    exact (Session.decode_queue_flags _ _).1

theorem endFeats_mem_of_chunk {st : DecodeState} {os : List (Except Fault DecodeState)}
    (hst : st = .endBatch ∨ st = .endpoint) (h : .ok .endFeats ∈ (.ok st :: os)) :
    (.ok .endFeats : Except Fault DecodeState) ∈ os := by
  rcases List.mem_cons.1 h with heq | hmem
  · rcases hst with rfl | rfl <;> cases heq
  · exact hmem

theorem ended (hl : r.Loop os d) (h : .ok .endFeats ∈ os) : r.session.queue.finished = true := by
  induction hl with
  | fault h' => simp at h
  | wait h' => simp at h
  | chunk h' hst rest ih =>
    rw [← (Session.decode_queue_flags _ false).1]
    exact ih (endFeats_mem_of_chunk hst h)
  | finish h' => exact Session.decode_endFeats_finished _ _ h'

theorem finished_of_endFeats (hl : r.Loop os d) (hfin : r.finished = false)
    (hp : r.partialText = bestSentence r.session.results) (h : .ok .endFeats ∈ os) :
    d.next.finished = d.out.isOk := by
  induction hl with
  | fault h' => simp at h
  | wait h' => simp at h
  | chunk h' hst rest ih => exact ih hfin (refreshPartial_partialText _) (endFeats_mem_of_chunk hst h)
  | @finish r h' =>
    exact (conclude_shows (r := r.stepped) hfin (Session.decode_candidates_results h' (by decide))).2

end Loop

/-! One decode call. -/

section Call

variable {r : Recognizer} {t : Tensor} {last : Bool}

theorem decode_of_finished (h : r.finished = true) : r.decode t last = ⟨r, [], .error .utteranceFinished⟩ := by
  simp [decode, h]

theorem decode_of_reject {f : Fault} (hfin : r.finished = false) (h : r.session.queue.accept t = .error f) :
    r.decode t last = ⟨r, [], .error f⟩ := by
  simp [decode, hfin, h]

theorem decode_of_ended (h : r.session.queue.finished = true) :
    r.decode t last = ⟨r, [], .error (if r.finished then .utteranceFinished else .acceptAfterFinish)⟩ := by
  cases hfin : r.finished
  · exact decode_of_reject hfin (FrameQueue.accept_of_finished _ t h)
  · exact decode_of_finished hfin

/-- A decode call that rescores: the recogniser is unfinished, accepts the block, and the loop
from there reaches the end of the input, where the n-best list is rescored. -/
def Rescores (r : Recognizer) (t : Tensor) (last : Bool) : Prop :=
  r.finished = false ∧ ∃ q os d, r.session.queue.accept t = .ok q ∧ (r.accepted q last).Loop os d ∧
    .ok .endFeats ∈ os

theorem not_rescores_of_ended (h : r.session.queue.finished = true) : ¬ r.Rescores t last := by
  rintro ⟨-, q, os, d, hacc, -⟩
  rw [FrameQueue.accept_of_finished _ t h] at hacc
  cases hacc

theorem accepted_queue_finished {q : FrameQueue} (hacc : r.session.queue.accept t = .ok q) :
    (r.accepted q last).session.queue.finished = (last || r.session.queue.finished) := by
  obtain ⟨k, -, -, hfin⟩ := FrameQueue.accept_ok hacc
  cases last
  · exact hfin
  · rfl

variable (hr : r.session.stream.Reads)
include hr

theorem decode_shows (hs : r.Shows) : (r.decode t last).next.Shows := by
  cases hfin : r.finished
  · cases hacc : r.session.queue.accept t with
    | error f =>
      rw [decode_of_reject hfin hacc]
      exact hs
    | ok q =>
      obtain ⟨os, d, hl, hdec⟩ := decode_eq_loop last hr hfin hacc
      rw [hdec]
      have hp : r.partialText = bestSentence r.session.results := by
        rw [hs.partial_eq, hs.result_eq]
      exact hl.shows hfin hp
  · rw [decode_of_finished hfin]
    exact hs

theorem decode_ended (h : (r.decode t last).next.session.queue.finished = true) :
    r.session.queue.finished = true ∨ last = true := by
  cases hfin : r.finished
  · cases hacc : r.session.queue.accept t with
    | error f =>
      rw [decode_of_reject hfin hacc] at h
      exact .inl h
    | ok q =>
      obtain ⟨os, d, hl, hdec⟩ := decode_eq_loop last hr hfin hacc
      rw [hdec] at h
      have hend : (last || r.session.queue.finished) = true := by
        rw [← accepted_queue_finished hacc, ← hl.queue_finished]
        exact h
      cases last <;> simp_all
  · rw [decode_of_finished hfin] at h
    exact .inl h

theorem decode_of_rescores (hs : r.Shows) (h : r.Rescores t last) :
    (r.decode t last).next.finished = (r.decode t last).out.isOk ∧
      (r.decode t last).next.session.queue.finished = true ∧
      (last || r.session.queue.finished) = true := by
  obtain ⟨hfin, q, os, d, hacc, hl, hmem⟩ := h
  obtain ⟨os', d', hl', hdec⟩ := decode_eq_loop last hr hfin hacc
  obtain ⟨rfl, rfl⟩ := hl.unique hl'
  have hp : r.partialText = bestSentence r.session.results := by
    rw [hs.partial_eq, hs.result_eq]
  have hended : (r.accepted q last).session.queue.finished = true := hl.ended hmem
  rw [hdec]
  refine ⟨?_, ?_, ?_⟩
  · rw [hl.finished_of_endFeats hfin hp hmem]
    cases d.out <;> rfl
  · rw [hl.queue_finished]
    exact hended
  · rw [← accepted_queue_finished hacc]
    exact hended

end Call

theorem reset_shows {r₀ r : Recognizer} (h : r₀.reset = .ok r) :
    r.session.queue.finished = false ∧ r.Shows := by
  obtain ⟨t, ht, rfl⟩ := reset_eq_ok h
  obtain ⟨st, -, rfl⟩ := Session.reset_eq_ok ht
  exact ⟨rfl, Shows.of_unfinished rfl rfl⟩

/-! Runs of decode calls. -/

/-- `r.Decodes ended r'`: decode calls, each on the recogniser the one before left, faults
included, lead from `r` to `r'`; `ended` tells whether one of them was given the last block. -/
inductive Decodes : Recognizer → Bool → Recognizer → Prop
  | refl (r : Recognizer) : Decodes r false r
  | step {r r' : Recognizer} {ended : Bool} (t : Tensor) (last : Bool) :
      Decodes r ended r' → Decodes r (ended || last) (r'.decode t last).next

namespace Decodes

variable {r r' : Recognizer} {e : Bool}

theorem reads (h : r.Decodes e r') (hr : r.session.stream.Reads) : r'.session.stream.Reads := by
  induction h with
  | refl => exact hr
  | step t last _ ih => exact Stream.reads_of_metadata (decode_metadata _ t last) ih

theorem shows (h : r.Decodes e r') (hr : r.session.stream.Reads) (hs : r.Shows) : r'.Shows := by
  induction h with
  | refl => exact hs
  | step t last hrun ih => exact decode_shows (hrun.reads hr) ih

theorem ended (h : r.Decodes e r') (hr : r.session.stream.Reads)
    (hopen : r.session.queue.finished = false) (hend : r'.session.queue.finished = true) :
    e = true := by
  induction h with
  | refl => simp_all
  | step t last hrun ih =>
    rcases decode_ended (hrun.reads hr) hend with h | h
    · simp [ih h]
    · simp [h]

theorem of_ended (h : r.Decodes e r') (hend : r.session.queue.finished = true) : r' = r := by
  induction h with
  | refl => rfl
  | step t last _ ih =>
    subst ih
    rw [decode_of_ended hend]

end Decodes

end Recognizer

/-- A recogniser one chunk into an utterance, whose frame was blank, with nothing queued, over a
backend whose attention decoder faults. -/
def Recognizer.rescoringFaulting : Recognizer :=
  let b : Backend := ⟨Metadata.single 1, [], fun _ => .error .backendFailed,
    fun _ => .error .backendFailed, fun _ => .error .noBackwardScores⟩
  { session :=
      { queue := { FrameQueue.empty (some 1) with total := 1 }
        stream := ⟨b, Metadata.single 1, some ⟨1, Tensor.zeros [1, 1, 1, 4], Tensor.zeros [1, 1, 2, 0],
          [Tensor.zeros [1, 1, 2]], none⟩, 0⟩
        searcher := .greedy ⟨0, [], 0.0, some (.index 0), 1⟩
        initialSearcher := .greedy (GreedySearch.init 0)
        options := {}, vocabulary := none, detector := none, started := true
        results := [{ sentence := "", tokens := [], score := 0.0, ctcScore := 0.0 }]
        frames := 1 }
    partialText := "", final := [], finished := false }

theorem Recognizer.rescoringFaulting_reads : Recognizer.rescoringFaulting.session.stream.Reads := by
  intro started
  cases started <;> decide

theorem Recognizer.rescoringFaulting_rescores : Recognizer.rescoringFaulting.Rescores (Tensor.zeros [0, 1]) true :=
  ⟨rfl, { FrameQueue.empty (some 1) with total := 1 }, _, _, rfl, .finish rfl, List.mem_singleton_self _⟩

/-- An utterance is rescored at most once. In every run of decode calls from a recogniser with its
input open, the partial result is the best sentence of the result, and the result is the
session's n-best list. A call that rescores, the loop of which reaches the end of the input,
follows a call given the last block (or is one), and finishes the utterance exactly when it
returns, the rescored list then being the result. After it the input has ended: every later call
is refused with a runtime error, leaves the recogniser as it was, and never rescores. -/
theorem rescoring_concludes_once :
    (∀ r₀ r : Recognizer, r₀.reset = .ok r → r.session.queue.finished = false ∧
      r.partialText = Recognizer.bestSentence r.result ∧ r.result = r.session.results) ∧
    ∀ r : Recognizer, r.session.stream.Reads → r.session.queue.finished = false →
      r.partialText = Recognizer.bestSentence r.result → r.result = r.session.results →
    ∀ (ended : Bool) (r' : Recognizer), r.Decodes ended r' →
      r'.partialText = Recognizer.bestSentence r'.result ∧ r'.result = r'.session.results ∧
      ∀ t last, r'.Rescores t last →
        (ended || last) = true ∧
        (r'.decode t last).next.finished = (r'.decode t last).out.isOk ∧
        ∀ ended' r'', (r'.decode t last).next.Decodes ended' r'' →
          r'' = (r'.decode t last).next ∧
          ∀ t' last', ¬ r''.Rescores t' last' ∧
            r''.decode t' last' = ⟨r'', [], .error (if r''.finished then .utteranceFinished
              else .acceptAfterFinish)⟩ ∧
            (if r''.finished then Fault.utteranceFinished else .acceptAfterFinish).kind = "RuntimeError" := by
  refine ⟨fun r₀ r h => ?_, fun r hr hopen hp hres ended r' hrun => ?_⟩
  · obtain ⟨hopen, hshows⟩ := Recognizer.reset_shows h
    exact ⟨hopen, hshows.partial_eq, hshows.result_eq⟩
  have hshows : r'.Shows := hrun.shows hr ⟨hp, hres⟩
  refine ⟨hshows.partial_eq, hshows.result_eq, fun t last hresc => ?_⟩
  have hr' : r'.session.stream.Reads := hrun.reads hr
  obtain ⟨hfinished, hend, hlast⟩ := Recognizer.decode_of_rescores hr' hshows hresc
  have hended : ended = true ∨ last = true := by
    rcases Bool.or_eq_true_iff.1 hlast with h | h
    · exact .inr h
    · exact .inl (hrun.ended hr hopen h)
  refine ⟨by rcases hended with h | h <;> simp [h], hfinished, fun ended' r'' hlater => ?_⟩
  obtain rfl := hlater.of_ended hend
  refine ⟨rfl, fun t' last' => ⟨Recognizer.not_rescores_of_ended hend, Recognizer.decode_of_ended hend, ?_⟩⟩
  split <;> rfl

/-- The recogniser over a faulting attention decoder, reset or as it is, given an empty last block
and then a frame. -/
theorem rescoring_concludes_once_at_faulting_decoder :
    (∃ r, Recognizer.rescoringFaulting.reset = .ok r ∧ r.session.queue.finished = false ∧
      r.partialText = Recognizer.bestSentence r.result ∧ r.result = r.session.results) ∧
    Recognizer.rescoringFaulting.session.stream.Reads ∧
    Recognizer.rescoringFaulting.session.queue.finished = false ∧
    Recognizer.rescoringFaulting.partialText =
      Recognizer.bestSentence Recognizer.rescoringFaulting.result ∧
    Recognizer.rescoringFaulting.result = Recognizer.rescoringFaulting.session.results ∧
    Recognizer.rescoringFaulting.Rescores (Tensor.zeros [0, 1]) true ∧
    (false || true) = true ∧
    (Recognizer.rescoringFaulting.decode (Tensor.zeros [0, 1]) true).next.finished =
      (Recognizer.rescoringFaulting.decode (Tensor.zeros [0, 1]) true).out.isOk ∧
    ¬ (Recognizer.rescoringFaulting.decode (Tensor.zeros [0, 1]) true).next.Rescores
      (Tensor.zeros [1, 1]) false ∧
    (Recognizer.rescoringFaulting.decode (Tensor.zeros [0, 1]) true).next.decode (Tensor.zeros [1, 1]) false =
      ⟨(Recognizer.rescoringFaulting.decode (Tensor.zeros [0, 1]) true).next, [],
        .error (if (Recognizer.rescoringFaulting.decode (Tensor.zeros [0, 1]) true).next.finished
          then .utteranceFinished else .acceptAfterFinish)⟩ := by
  obtain ⟨hp, hres, hcall⟩ := rescoring_concludes_once.2 Recognizer.rescoringFaulting
    Recognizer.rescoringFaulting_reads rfl rfl rfl false _ (.refl _)
  obtain ⟨hlast, hfinished, hlater⟩ := hcall _ true Recognizer.rescoringFaulting_rescores
  obtain ⟨-, hrefused⟩ := hlater false _ (.refl _)
  exact ⟨⟨_, rfl, rescoring_concludes_once.1 Recognizer.rescoringFaulting _ rfl⟩,
    Recognizer.rescoringFaulting_reads, rfl, hp, hres, Recognizer.rescoringFaulting_rescores, hlast,
    hfinished, (hrefused _ false).1, (hrefused _ false).2.1⟩

/-- Rescoring does not always finish the utterance: when the attention decoder faults, the call
that rescores returns the fault and the utterance stays unfinished. -/
theorem rescoring_fault_leaves_unfinished :
    ¬ ∀ (r : Recognizer) (t : Tensor) (last : Bool), r.session.stream.Reads → r.Rescores t last →
      (r.decode t last).next.finished = true := by
  intro h
  have hunfinished :
      (Recognizer.rescoringFaulting.decode (Tensor.zeros [0, 1]) true).next.finished = false := rfl
  rw [h _ _ _ Recognizer.rescoringFaulting_reads Recognizer.rescoringFaulting_rescores] at hunfinished
  cases hunfinished

end SpeechStream
