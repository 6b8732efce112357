import SpeechStream.Backend.Basic
import SpeechStream.Rescoring.Rescorer
/-!
Streams: chunk-by-chunk encoding of one utterance.

A stream keeps, between chunks, the attention and convolution caches of the encoder, the
offset (encoder frames consumed so far, counting the zero-filled cache window when left
chunks are kept), the encoder output of every chunk, and the input frames carried over to the
next chunk because the subsampling looks ahead.

A chunk step joins the carried frames with the new ones. With no frame at all it fails. With
fewer frames than the look-ahead needs it keeps them all for later and yields no
log-probabilities. Otherwise it calls the encoder with the roles the backend accepts: the
frames, the offset, the cache size, both caches and, when left chunks are kept, the
attention mask. It takes the caches the encoder returns, then advances the offset by the frames
produced, records the output, asks the CTC head for log-probabilities, and carries the last
`1 + right context - subsampling rate` frames into the next chunk. Nothing of the stream changes
before the encoder call returns; a fault after it keeps what was done up to the fault.

The attention mask covers the cache window and the chunk. While fewer chunks than the left
chunks have been decoded, the cache still holds the zeros of the reset, and the mask hides
them.
-/

set_option autoImplicit false

namespace SpeechStream

/-- What a stateful operation did: the state after it, the backend calls it made, and its
answer or fault. The state is kept also when the operation fails part way. -/
structure Step (σ α : Type) where
  next : σ
  calls : List Call
  out : Except Fault α

/-- The per-utterance state of a stream. -/
structure StreamState where
  offset : Int
  attCache : Tensor
  cnnCache : Tensor
  /-- Encoder output of every chunk, oldest first. -/
  outputs : List Tensor
  /-- Input frames carried into the next chunk. -/
  carried : Option Tensor
  deriving Inhabited

/-- A stream: a backend, the metadata it decodes with, its state once reset, and the label
count of the last CTC output it produced. -/
structure Stream where
  backend : Backend
  metadata : Metadata
  state : Option StreamState
  vocab : Nat

namespace Stream

/-- A stream that has not been reset. -/
def new (b : Backend) (m : Metadata) : Stream := ⟨b, m, none, 0⟩

/-- The state of a fresh utterance: zero caches and, with left chunks, an offset and cache
as long as the cache window. A cache that cannot be allocated is a fault. -/
def freshState (m : Metadata) : Except Fault StreamState := do
  let window : Int := if m.leftChunks > 0 then m.requiredCacheSize else 0
  let att ← Tensor.zerosOf [m.numBlocks, m.heads, window, m.headDim * 2]
  let cnn ← Tensor.zerosOf [m.numBlocks, 1, m.outputSize, m.kernelSize - 1]
  pure ⟨window, att, cnn, [], none⟩

/-- Starts a new utterance. -/
def reset (s : Stream) : Except Fault Stream := do
  pure { s with state := some (← freshState s.metadata) }

/-- A new stream on the same backend and metadata, reset. -/
def copy (s : Stream) : Except Fault Stream := (new s.backend s.metadata).reset

/-- Frames to read for the next chunk: the first chunk needs the look-ahead of a whole
chunk, later ones a chunk's worth of subsampled frames; `-1` (read everything) when the
chunk size is not positive. -/
def framesForChunk (s : Stream) (started : Bool) : Int :=
  let m := s.metadata
  if m.chunkSize ≤ 0 then -1
  else if !started then (m.chunkSize - 1) * m.subsamplingRate + m.rightContext + 1
  else m.chunkSize * m.subsamplingRate

/-- The attention mask for a chunk at an offset, over the cache window and the chunk; none
without left chunks. A zero chunk size is a fault, and so is a mask length that cannot be
allocated (outside 64 bits, or negative). -/
def mask (s : Stream) (offset : Int) : Except Fault (Option Mask) := do
  let m := s.metadata
  if m.leftChunks ≤ 0 then return none
  if m.chunkSize == 0 then throw .divisionByZero
  let chunkIdx := Int.fdiv offset m.chunkSize - m.leftChunks
  let len := m.requiredCacheSize + m.chunkSize
  let _ ← Tensor.allocShape [1, 1, len] 1
  let n := len.toNat
  let hidden : Nat :=
    if chunkIdx < m.leftChunks then
      let invisible := (m.leftChunks - chunkIdx) * m.chunkSize
      if invisible ≥ 0 then min invisible.toNat n else (max (len + invisible) 0).toNat
    else 0
  pure (some ⟨[1, 1, n], (Array.range n).map (fun i => decide (i ≥ hidden))⟩)

/-- The state, or the fault of a stream never reset. -/
def current (s : Stream) : Except Fault StreamState :=
  match s.state with
  | some st => .ok st
  | none => .error .uninitialized

/-- The encoder inputs for a chunk of frames, restricted to the roles the backend accepts. -/
def feed (s : Stream) (st : StreamState) (feats : Tensor) : Except Fault Feed := do
  let base : Feed := [(.chunk, .tensor feats.unsqueeze), (.offset, .int st.offset),
    (.requiredCacheSize, .int s.metadata.requiredCacheSize), (.attCache, .tensor st.attCache),
    (.cnnCache, .tensor st.cnnCache)]
  let withMask := match ← s.mask st.offset with
    | some m => base ++ [(Role.attMask, Input.mask m)]
    | none => base
  pure (withMask.filter (fun p => s.backend.roles.contains p.1))

/-- The frames of a chunk: the carried frames, when there are any, followed by the new ones. -/
def joinCarried (st : StreamState) (features : Tensor) : Except Fault Tensor :=
  match st.carried with
  | some c => if c.numRows > 0 then Tensor.cat [c, features] else .ok features
  | none => .ok features

/-- Encodes the frames of a chunk from a state and returns its CTC log-probabilities (frames by
labels), empty while the frames are still fewer than the look-ahead needs. -/
def encodeFrames (s : Stream) (st : StreamState) (feats : Tensor) : Step Stream Tensor :=
  let fail := fun (f : Fault) => (⟨s, [], .error f⟩ : Step Stream Tensor)
  match feats.rows? with
  | .error f => fail f
  | .ok n =>
    let m := s.metadata
    if n == 0 then fail .emptyInput
    else if (n : Int) < m.rightContext + 1 then
      ⟨{ s with state := some { st with carried := some feats } }, [],
        .ok (Tensor.zeros [0, s.vocab])⟩
    else
      match s.feed st feats with
      | .error f => fail f
      | .ok inputs =>
        match s.backend.encode inputs with
        | .error f => fail f
        | .ok enc =>
          let calls := [Call.encoder inputs]
          match enc.out.size? 1 with
          | .error f =>
            ⟨{ s with state := some { st with attCache := enc.attCache, cnnCache := enc.cnnCache } },
              calls, .error f⟩
          | .ok produced =>
            let st1 : StreamState :=
              { st with attCache := enc.attCache, cnnCache := enc.cnnCache,
                        offset := st.offset + produced, outputs := st.outputs ++ [enc.out] }
            let s1 := { s with state := some st1 }
            match s.backend.ctc enc.out with
            | .error f => ⟨s1, calls, .error f⟩
            | .ok probs =>
              let calls := calls ++ [Call.ctc enc.out]
              match probs.rows? with
              | .error f => ⟨s1, calls, .error f⟩
              | .ok 0 => ⟨s1, calls, .error .indexOutOfRange⟩
              | .ok _ =>
                let lp := probs.row 0
                match lp.size? (-1) with
                | .error f => ⟨s1, calls, .error f⟩
                | .ok v =>
                  let keep := 1 + m.rightContext - m.subsamplingRate
                  let carried := if keep > 0 then some (feats.lastRows (min keep.toNat n))
                    else none
                  ⟨{ s1 with vocab := v, state := some { st1 with carried := carried } },
                    calls, .ok lp⟩

/-- Encodes one chunk of new frames and returns its CTC log-probabilities (frames by labels),
empty while the frames are still fewer than the look-ahead needs. -/
def forward (s : Stream) (features : Tensor) : Step Stream Tensor :=
  match s.current with
  | .error f => ⟨s, [], .error f⟩
  | .ok st =>
    match joinCarried st features with
    | .error f => ⟨s, [], .error f⟩
    | .ok feats => s.encodeFrames st feats

/-- Rescores hypotheses against every chunk encoded so far. -/
def rescore (s : Stream) (hyps : List (List Int)) (w : Float) : Step Stream (List Float) :=
  match s.current with
  | .error f => ⟨s, [], .error f⟩
  | .ok st =>
    let (calls, out) := SpeechStream.rescore s.backend s.metadata.sos s.metadata.eos
      s.metadata.bidirectional hyps st.outputs w
    ⟨s, calls, out⟩

end Stream

end SpeechStream
