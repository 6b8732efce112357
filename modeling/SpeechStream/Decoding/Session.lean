import SpeechStream.FrameQueue
import SpeechStream.Stream
import SpeechStream.Search.Searcher
import SpeechStream.Vocabulary
import SpeechStream.Decoding.Ranking
/-!
Decoding sessions: one utterance, decoded one chunk at a time.

A decode step reads at most one chunk from the frame queue. Unless told to take whatever is
queued, it waits while the input is open and a chunk's worth of frames has not arrived (and
always waits while open in whole-utterance mode). Otherwise it reads the chunk; the step ends
the input when the read could not be filled. Frames read go through the stream and the
searcher, and the n-best list is rebuilt from the searcher. A caller's endpoint detector,
asked after every chunk step that ends a batch, may turn it into an endpoint.

Rescoring sends the n-best list to the attention decoder once, sets each candidate's score to
`rescoring weight · attention score + CTC weight · CTC score`, and ranks the list by score.
-/

set_option autoImplicit false

namespace SpeechStream

/-- What a decode step did. -/
inductive DecodeState where
  | waitFeats
  | endBatch
  | endpoint
  | endFeats
  deriving BEq, DecidableEq, Repr, Inhabited

/-- The name of a decode state. -/
def DecodeState.name : DecodeState → String
  | .waitFeats => "wait_feats"
  | .endBatch => "end_batch"
  | .endpoint => "endpoint"
  | .endFeats => "end_feats"

/-- What a decoding session holds, which its endpoint detector may read. -/
structure SessionCore where
  queue : FrameQueue
  stream : Stream
  searcher : Searcher
  /-- The searcher a new session starts with. -/
  initialSearcher : Searcher
  options : DecodeOptions
  vocabulary : Option Vocabulary
  /-- Whether a chunk has been encoded since the last reset. -/
  started : Bool
  results : List Candidate
  /-- Frames decoded since the last reset. -/
  frames : Nat

/-- A decoding session: what it holds, and the caller's endpoint detector, if any. -/
structure Session extends SessionCore where
  detector : Option (SessionCore → Bool)

namespace Session

/-- A session over a queue, a stream and a searcher; the stream is reset. -/
def create (queue : FrameQueue) (stream : Stream) (searcher : Searcher) (options : DecodeOptions)
    (vocabulary : Option Vocabulary) (detector : Option (SessionCore → Bool)) :
    Except Fault Session := do
  let stream ← stream.reset
  pure { queue, stream, searcher, initialSearcher := searcher, options, vocabulary, detector,
         started := false, results := [], frames := 0 }

/-- The detector that declares an endpoint once at least `n` frames have been decoded. -/
def framesAtLeast (n : Int) (s : SessionCore) : Bool := decide (n ≤ s.frames)

/-- The text of tokens: by the vocabulary, or the ids joined by spaces without one. -/
def sentenceOf (s : Session) (tokens : List Int) : String :=
  match s.vocabulary with
  | some v => v.sentence tokens
  | none => String.intercalate " " (tokens.map Json.intText)

/-- The n-best list the searcher supports: the cut outputs, each scored with its likelihood. A
likelihood list shorter than the outputs, or a label that is a block rather than a token, is a
fault. -/
def candidates (s : Session) : Except Fault (List Candidate) := do
  let hyps ← (s.options.cut s.searcher.outputs).mapM (fun hyp =>
    match hyp.mapM Label.index? with
    | some tokens => pure tokens
    | none => throw Fault.typeMismatch)
  let lik := s.searcher.likelihood
  hyps.zipIdx.mapM (fun (hyp, i) =>
    match lik[i]? with
    | some l => pure ({ sentence := s.sentenceOf hyp, tokens := hyp, score := l, ctcScore := l } : Candidate)
    | none => throw Fault.indexOutOfRange)

/-- Rebuilds the n-best list from the searcher. -/
def updateResults (s : Session) : Except Fault Session := do
  pure { s with results := ← s.candidates }

/-- Runs frames read from the queue through the stream and the searcher; no frames change
nothing. -/
def searchChunk (s : Session) (feats : Tensor) : Step Session Unit :=
  let rows := feats.numRows
  if rows > 0 then
    let r := s.stream.forward feats
    let s := { s with stream := r.next }
    match r.out with
    | .error f => ⟨s, r.calls, .error f⟩
    | .ok probs =>
      let s := { s with started := true, frames := s.frames + rows }
      let (searcher, fault) := s.searcher.search probs
      let s := { s with searcher := searcher }
      match fault with
      | some f => ⟨s, r.calls, .error f⟩
      | none => ⟨s, r.calls, .ok ()⟩
  else ⟨s, [], .ok ()⟩

/-- Ends a step that read `feats`: the frames are searched, the n-best list is rebuilt, and a
chunk step may become an endpoint. -/
def consume (s : Session) (feats : Tensor) (state : DecodeState) : Step Session DecodeState :=
  let afterChunk := s.searchChunk feats
  match afterChunk.out with
  | .error f => ⟨afterChunk.next, afterChunk.calls, .error f⟩
  | .ok () =>
    let s := afterChunk.next
    match s.updateResults with
    | .error f => ⟨s, afterChunk.calls, .error f⟩
    | .ok s =>
      let state := match state, s.detector with
        | .endBatch, some d => if d s.toSessionCore then .endpoint else .endBatch
        | st, _ => st
      ⟨s, afterChunk.calls, .ok state⟩

/-- Frames the next chunk asks for: `-1` asks for everything. -/
def request (s : Session) : Int := s.stream.framesForChunk s.started

/-- Whether a step waits: it was not told to take what is queued, the input is open, and the
chunk is unbounded or not yet complete. -/
def waits (s : Session) (block : Bool) : Bool :=
  !block && !s.queue.finished && (s.request < 0 || (s.queue.queued : Int) < s.request)

/-- One decode step. -/
def decode (s : Session) (block : Bool) : Step Session DecodeState :=
  if s.waits block then ⟨s, [], .ok .waitFeats⟩
  else
    let (feats, filled, queue) := s.queue.read s.request
    { s with queue := queue }.consume feats (if filled then .endBatch else .endFeats)

/-- Rescores the n-best list with the attention decoder and ranks it. -/
def rescoring (s : Session) : Step Session Unit :=
  match s.updateResults with
  | .error f => ⟨s, [], .error f⟩
  | .ok s =>
    if s.results.isEmpty then ⟨s, [], .ok ()⟩
    else
      let r := s.stream.rescore (s.results.map Candidate.tokens) s.options.reverseWeight.toFloat
      let s := { s with stream := r.next }
      match r.out with
      | .error f => ⟨s, r.calls, .error f⟩
      | .ok scores =>
        let rw := s.options.rescoringWeight.toFloat
        let cw := s.options.ctcWeight.toFloat
        let rescored := (s.results.zip scores).map (fun (c, a) =>
          { c with rescoringScore := a, score := rw * a + cw * c.ctcScore })
        let rest := s.results.drop scores.length
        ⟨{ s with results := Ranking.byScore (rescored ++ rest) }, r.calls, .ok ()⟩

/-- Prepares the session for a new utterance. -/
def reset (s : Session) : Except Fault Session := do
  let stream ← s.stream.reset
  pure { s with started := false, results := [], frames := 0, queue := s.queue.reset,
                stream := stream, searcher := s.searcher.reset }

/-- An independent session with the same backend, metadata, options, vocabulary and endpoint
detector, a fresh queue of the same feature width, and a fresh searcher. -/
def clone (s : Session) : Except Fault Session := do
  let stream ← s.stream.copy
  create (FrameQueue.empty s.queue.dim) stream s.initialSearcher s.options s.vocabulary
    s.detector

end Session

end SpeechStream
