import SpeechStream.Network.Encoder
import SpeechStream.Network.Decoder
/-!
The reference network as a whole, and as a backend.

A network is built from a configuration, a source of weights and optional normalization
statistics. It reports its description in the key/value layout written next to exported
models, runs the encoder chunk by chunk, gives CTC log-probabilities of encoder output, and
scores hypotheses with its attention decoder: log-probabilities left to right and, for a
bidirectional decoder, right to left on the reversed hypotheses.

As a backend it accepts every encoder role.
-/

set_option autoImplicit false

namespace SpeechStream.Network

/-- A built network. -/
structure Model where
  config : Config
  plan : Plan
  parameters : List Parameter
  encoder : Encoder
  decoder : Decoder
  rightDecoder : Option Decoder
  ctc : Affine
  deriving Inhabited

/-- Builds a network; the configuration is checked first, in the order of its parts. -/
def Model.build (c : Config) (w : Weights) (cmvn : Option Cmvn) : Except Fault Model := do
  let (plan, params) ← c.plan
  let enc ← Encoder.build w plan c.inputDim cmvn
  let d := plan.encoder.outputSize.toNat
  let v := c.vocab.toNat
  let (dec, right) ← match plan.kind with
    | .bidirectional => do
      let l ← Decoder.build w "decoder.left_decoder" plan.decoder v d plan.leftBlocks.toNat
      let r ← Decoder.build w "decoder.right_decoder" plan.decoder v d
        plan.decoder.rightBlocks.toNat
      pure (l, some r)
    | .leftToRight => do
      let l ← Decoder.build w "decoder" plan.decoder v d plan.leftBlocks.toNat
      pure (l, none)
  pure ⟨c, plan, params, enc, dec, right, w.affine "ctc.ctc_lo" d v⟩

/-- Whether the decoder also scores right to left. -/
def Model.bidirectional (m : Model) : Bool := m.plan.kind == .bidirectional

/-- The description of a configured network with a chunking: width, blocks, heads, kernel,
rate, context, symbols, decoder kind and chunking, in the layout of exported models. -/
def describe (c : Config) (p : Plan) (chunkSize leftChunks : Value) : List (String × Value) :=
  let e := p.encoder
  [("output_size", .int e.outputSize), ("num_blocks", .int e.numBlocks), ("head", .int e.heads),
    ("cnn_module_kernel", .int e.kernel), ("subsampling_rate", .int (frontRate frontLayers)),
    ("right_context", .int (frontContext frontLayers)), ("sos_symbol", .int c.sosId),
    ("eos_symbol", .int c.eosId),
    ("is_bidirectional_decoder", .int (if p.kind == .bidirectional then 1 else 0)),
    ("chunk_size", chunkSize), ("left_chunks", leftChunks)]

/-- The model's description with a chunking. -/
def Model.describe (m : Model) (chunkSize leftChunks : Int) : List (String × Value) :=
  Network.describe m.config m.plan (.int chunkSize) (.int leftChunks)

/-- The total count of parameter numbers. -/
def Model.parameterCount (m : Model) : Nat := m.parameters.foldl (fun acc p => acc + p.count) 0

/-- Frames of a tensor whose last axis is the feature axis, as rows. -/
def framesOf (t : Tensor) : Matrix :=
  let w := t.shape.getLast?.getD 0
  ⟨if w == 0 then t.shape.dropLast.foldl (· * ·) 1 else t.data.size / w, w, t.data⟩

/-- CTC log-probabilities of encoder output, frame by frame. -/
def Model.ctcLogProbs (m : Model) (x : Matrix) : Except Fault Matrix := do
  pure (Kernel.logSoftmaxRows (← m.ctc.apply x))

/-- CTC log-probabilities of an encoder output tensor, keeping its leading axes. -/
def Model.ctcTensor (m : Model) (enc : Tensor) : Except Fault Tensor := do
  let y ← m.ctcLogProbs (framesOf enc)
  pure ⟨enc.shape.dropLast ++ [y.cols], y.data⟩

/-- Log-probabilities of padded hypotheses against the encoder output `[1, frames, width]`:
left to right, and right to left for a bidirectional decoder. -/
def Model.scoreHyps (m : Model) (hyps : List (List Int)) (lens : List Int) (enc : Tensor) :
    Except Fault (Tensor × Option Tensor) := do
  if enc.shape.headD 0 != 1 then throw (.assertion "encoder_out must have batch size 1")
  if lens.length != hyps.length then throw (.assertion "")
  let memory := framesOf (enc.row 0)
  let width := (hyps.headD []).length
  let run (dec : Decoder) (rows : List (List Int)) : Except Fault Tensor := do
    let outs ← dec.apply memory rows lens
    let probs := outs.map Kernel.logSoftmaxRows
    let v := (probs.headD (Matrix.empty 0)).cols
    pure ⟨[rows.length, width, v], probs.foldl (fun acc p => acc ++ p.data) #[]⟩
  match m.rightDecoder with
  | none => pure (← run m.decoder hyps, none)
  | some right =>
    let reversed ← reverseHyps m.config.sosId m.config.eosId hyps lens
    let fwd ← run m.decoder hyps
    let bwd ← run right reversed
    pure (fwd, some bwd)

/-- The encoder step of the network as a backend: the chunk, its position, the cache size to
keep, the caches and the optional mask of a feed. -/
def Model.encodeFeed (m : Model) (feed : Feed) : Except Fault EncoderOutput := do
  let chunk ← match feed.tensor? .chunk with
    | some t => pure t
    | none => throw .keyMissing
  let offset ← match feed.int? .offset with
    | some n => pure n
    | none => throw .keyMissing
  let required ← match feed.int? .requiredCacheSize with
    | some n => pure n
    | none => throw .keyMissing
  let att ← match feed.tensor? .attCache with
    | some t => pure t
    | none => throw .keyMissing
  let cnn ← match feed.tensor? .cnnCache with
    | some t => pure t
    | none => throw .keyMissing
  let (x, att', cnn') ← m.encoder.forwardChunk chunk offset required att cnn (feed.mask? .attMask)
  pure ⟨⟨[1, x.rows, x.cols], x.data⟩, att', cnn'⟩

/-- The network as a backend with the given metadata. -/
def Model.toBackend (m : Model) (md : Metadata) : Backend :=
  { metadata := md
    roles := Role.all
    encode := m.encodeFeed
    ctc := m.ctcTensor
    decode := fun d => do
      let (fwd, bwd) ← m.scoreHyps d.hyps d.lens d.enc
      pure ⟨fwd, bwd⟩ }

end SpeechStream.Network
