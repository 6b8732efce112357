import SpeechStream.Decoding.Session
/-!
Recognizers: a decoding session driven block by block, with partial and final results.

Decoding a block accepts its frames, ends the input if the block is the last, and then steps
the session until it waits for frames or ends the input. Each chunk step refreshes the partial
result (the best candidate's sentence, or nothing). When the input ends, the n-best list is
rescored, kept as the final result, and the utterance is finished; decoding more before a
reset is a fault.

The options may override the model's chunking; the recogniser decodes with the metadata so
changed.
-/

set_option autoImplicit false

namespace SpeechStream

/-- A recogniser. -/
structure Recognizer where
  session : Session
  partialText : String
  final : List Candidate
  finished : Bool

namespace Recognizer

/-- The metadata a recogniser decodes with: the backend's, with the chunking of the options
where they set it. -/
def decodingMetadata (b : Backend) (o : DecodeOptions) : Metadata :=
  if o.chunkSize.isSome || o.leftChunks.isSome then
    b.metadata.withChunking (o.chunkSize.getD b.metadata.chunkSize)
      (o.leftChunks.getD b.metadata.leftChunks)
  else b.metadata

/-- A recogniser over a backend with options and an optional vocabulary. -/
def create (b : Backend) (o : DecodeOptions) (vocabulary : Option Vocabulary) :
    Except Fault Recognizer := do
  let session ← Session.create (FrameQueue.empty none) (Stream.new b (decodingMetadata b o))
    (.greedy (GreedySearch.init 0)) o vocabulary none
  pure ⟨session, "", [], false⟩

/-- Sets the n-best bound, at least one. -/
def setNbest (r : Recognizer) (n : Int) : Recognizer :=
  { r with session := { r.session with options := { r.session.options with nbest := some (max n 1) } } }

/-- Starts a new utterance. -/
def reset (r : Recognizer) : Except Fault Recognizer := do
  pure ⟨← r.session.reset, "", [], false⟩

/-- The best sentence of the session's n-best list, or the empty text. -/
def refreshPartial (r : Recognizer) : Recognizer :=
  { r with partialText := match r.session.results with
    | c :: _ => c.sentence
    | [] => "" }

/-- Steps the session until it waits or ends the input; the fuel bounds the steps. -/
def drain : Nat → Recognizer → List Call → Step Recognizer Unit
  | 0, r, calls => ⟨r, calls, .error .stalled⟩
  | fuel + 1, r, calls =>
    let st := r.session.decode false
    let r := { r with session := st.next }
    let calls := calls ++ st.calls
    match st.out with
    | .error f => ⟨r, calls, .error f⟩
    | .ok .waitFeats => ⟨r, calls, .ok ()⟩
    | .ok .endBatch | .ok .endpoint => drain fuel r.refreshPartial calls
    | .ok .endFeats =>
      let r := r.refreshPartial
      let rs := r.session.rescoring
      let r := { r with session := rs.next }
      let calls := calls ++ rs.calls
      match rs.out with
      | .error f => ⟨r, calls, .error f⟩
      | .ok () =>
        let r := { r with final := r.session.results }
        ⟨{ r.refreshPartial with finished := true }, calls, .ok ()⟩

/-- Decodes a block of frames, the last block when `last`; returns the partial result. -/
def decode (r : Recognizer) (features : Tensor) (last : Bool) : Step Recognizer String :=
  if r.finished then ⟨r, [], .error .utteranceFinished⟩
  else
    match r.session.queue.accept features with
    | .error f => ⟨r, [], .error f⟩
    | .ok q =>
      let q := if last then q.finish else q
      let r := { r with session := { r.session with queue := q } }
      let d := drain (q.queued + 2) r []
      match d.out with
      | .error f => ⟨d.next, d.calls, .error f⟩
      | .ok () => ⟨d.next, d.calls, .ok d.next.partialText⟩

/-- The final n-best list once finished, else the session's current one. -/
def result (r : Recognizer) : List Candidate :=
  if r.finished then r.final else r.session.results

end Recognizer

end SpeechStream
