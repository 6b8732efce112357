import SpeechStream.Network.Block
import SpeechStream.Network.Front
import SpeechStream.Network.Cmvn
import SpeechStream.Backend.Basic
/-!
The chunk-streaming Conformer encoder.

One call encodes one chunk of frames: it normalizes them (when statistics are given), runs the
convolution front end with the chunk's output position, and then every block with its slice of
the two caches. The attention cache of a block holds the keys and values of earlier frames;
the block returns them with the chunk's own appended, and the encoder keeps of each only the
most recent ones: all of them when the required cache size is negative, none when it is zero,
and the last `n` when it is `n > 0`. The convolution cache of a block holds its last
`kernel - 1` normalized input frames.

Encoding a whole utterance chunk by chunk starts from empty caches and takes windows of
`(chunk - 1) · rate + context` frames every `rate · chunk` frames, as long as a window has the
`context` frames one output frame needs; without a window there is nothing to join.
-/

set_option autoImplicit false

namespace SpeechStream.Network

/-- The encoder. -/
structure Encoder where
  cmvn : Option Cmvn
  front : Front
  blocks : List EncoderBlock
  afterNorm : Option Norm
  config : EncoderConfig
  deriving Inhabited

/-- The eps of the encoder's and decoders' own layer normalizations. -/
def layerEps : Float32 := (1e-12 : Float).toFloat32

/-- Builds the encoder of a checked plan. -/
def Encoder.build (w : Weights) (plan : Plan) (inputDim : Int) (cmvn : Option Cmvn) :
    Except Fault Encoder := do
  let e := plan.encoder
  let front ← Front.build w "encoder.embed" inputDim e.outputSize [3, 3] [2, 2]
  let d := e.outputSize.toNat
  let blocks := (List.range e.numBlocks.toNat).map (fun i =>
    let name := "encoder.encoders." ++ toString i
    ({ attention := w.attention (name ++ ".self_attn") e.heads.toNat d
       feedForward := w.feedForward (name ++ ".feed_forward") d e.linearUnits.toNat
         plan.activation
       conv := w.convModule (name ++ ".conv_module") d e.kernel.toNat
       normAttention := w.norm (name ++ ".norm_mha") d layerEps
       normFeedForward := w.norm (name ++ ".norm_ff") d layerEps
       normFinal := w.norm (name ++ ".norm_final") d layerEps
       preNorm := e.preNorm } : EncoderBlock))
  let after := if e.preNorm then some (w.norm "encoder.after_norm" d layerEps) else none
  pure ⟨cmvn, front, blocks, after, e⟩

/-- The factor by which the encoder lowers the frame rate. -/
def Encoder.rate (_ : Encoder) : Int := frontRate [(3, 2), (3, 2)]

/-- The input frames beyond the first that one output frame needs. -/
def Encoder.rightContext (_ : Encoder) : Int := frontContext [(3, 2), (3, 2)]

/-- A tensor of zeros with integer sizes; a negative size is a fault. -/
def zerosOfInts (dims : List Int) : Except Fault Tensor := Tensor.zerosOf dims

/-- Empty caches holding `cacheSize` cached frames: attention caches
`[blocks, heads, cacheSize, 2·dk]` and convolution caches `[blocks, 1, width, kernel - 1]`. -/
def Encoder.initCaches (e : Encoder) (cacheSize : Int) : Except Fault (Tensor × Tensor) := do
  let c := e.config
  if c.heads == 0 then throw .divisionByZero
  let dk := Int.fdiv c.outputSize c.heads
  let att ← zerosOfInts [c.numBlocks, c.heads, cacheSize, dk * 2]
  let cnn ← zerosOfInts [c.numBlocks, 1, c.outputSize, c.kernel - 1]
  pure (att, cnn)

/-- The visibility a mask tensor `[1, queries, keys]` gives over `keys` keys: a longer mask is
cut, a mask of one key or one query applies to all; an empty mask hides nothing. -/
def maskVisibility (m : Option Mask) (queries keys : Nat) : Except Fault Visibility :=
  match m with
  | none => .ok none
  | some m =>
    let l := m.shape.getLast?.getD 0
    if l == 0 then .ok none
    else
      let q := if m.shape.length ≥ 2 then m.shape.getD (m.shape.length - 2) 1 else 1
      if !(l == 1 || l ≥ keys) || !(q == 1 || q == queries) then .error .shapeMismatch
      else .ok (some fun i j =>
        let row := if q == 1 then 0 else i
        let col := if l == 1 then 0 else j
        m.bits.getD (row * l + col) false)

/-- The first index of the attention cache to keep, from the number of keys and the required
cache size. -/
def cacheStart (keys : Nat) (required : Int) : Nat :=
  if required < 0 then 0
  else if required == 0 then keys
  else (keys - required).toNat

/-- Keeps the frames of a packed attention cache `[1, heads, t, w]` from `start` on. -/
def dropCached (t : Tensor) (start : Nat) : Tensor :=
  match t.shape with
  | [b, h, n, w] =>
    let s := min start n
    let kept := n - s
    ⟨[b, h, kept, w], Array.ofFn (n := b * h * kept * w) fun k =>
      let blk := k.val / (kept * w)
      let r := k.val % (kept * w)
      t.data.getD (blk * n * w + (s + r / w) * w + r % w) 0⟩
  | _ => t

/-- The frames of a chunk `[1, frames, features]` at output position `offset` as the blocks see
them: normalized (when statistics are given) and through the front end. -/
def Encoder.embed (e : Encoder) (xs : Tensor) (offset : Int) : Except Fault Matrix := do
  if xs.shape.headD 1 != 1 then throw (.assertion "forward_chunk only supports batch size 1")
  let x ← match xs.shape with
    | [_, t, f] => pure (⟨t, f, xs.data⟩ : Matrix)
    | _ => throw .shapeMismatch
  let x ← match e.cmvn with
    | some c => c.apply x
    | none => pure x
  let (x, _, _) ← e.front.apply x offset
  pure x

/-- Runs block `i` over the frames so far with its slice of the caches, and collects its kept
attention cache (from `start` on) and its next convolution cache. -/
def blockStep (att cnn : Tensor) (vis : Visibility) (start : Nat)
    (acc : Matrix × List Tensor × List Tensor) (bi : EncoderBlock × Nat) :
    Except Fault (Matrix × List Tensor × List Tensor) := do
  let (b, i) := bi
  let attI ← if att.shape.headD 0 > 0 then pure (some (att.sliceRows i (i + 1))) else pure none
  let cnnI ← if cnn.shape.headD 0 > 0 then some <$> cnn.index? i else pure none
  let (y, a, c) ← b.apply acc.1 vis attI cnnI
  pure (y, acc.2.1 ++ [dropCached a start], acc.2.2 ++ [c.unsqueeze])

/-- Encodes one chunk `[1, frames, features]` at output position `offset` with the caches:
the encoder output, the kept attention caches and the next convolution caches. -/
def Encoder.forwardChunk (e : Encoder) (xs : Tensor) (offset required : Int) (att cnn : Tensor)
    (mask : Option Mask) : Except Fault (Matrix × Tensor × Tensor) := do
  let x ← e.embed xs offset
  let keys := att.shape.getD 2 0 + x.rows
  let start := cacheStart keys required
  let vis ← maskVisibility mask x.rows keys
  let (x, atts, cnns) ← (e.blocks.zipIdx).foldlM (blockStep att cnn vis start) (x, [], [])
  let x ← match e.afterNorm with
    | some n => n.apply x
    | none => pure x
  if atts.isEmpty then throw .nothingToJoin
  let att' ← Tensor.cat atts
  let cnn' ← Tensor.cat cnns
  pure (x, att', cnn')

/-- Input frames between the starts of two chunks of `chunk` output frames. -/
def Encoder.chunkStride (e : Encoder) (chunk : Int) : Nat := (e.rate * chunk).toNat

/-- Input frames of one chunk of `chunk` output frames. -/
def Encoder.chunkWindow (e : Encoder) (chunk : Int) : Nat :=
  ((chunk - 1) * e.rate + e.rightContext + 1).toNat

/-- The `n`-th chunk of an utterance `[1, frames, features]`: a window from `n` strides on, cut
at the last frame. -/
def Encoder.chunkInput (e : Encoder) (xs : Tensor) (chunk : Int) (n : Nat) : Tensor :=
  let frames := xs.shape.getD 1 0
  let width := xs.shape.getD 2 0
  let cur := n * e.chunkStride chunk
  let stop := min (cur + e.chunkWindow chunk) frames
  ⟨[1, stop - cur, width], xs.data.extract (cur * width) (stop * width)⟩

/-- One step of encoding an utterance chunk by chunk: the `n`-th chunk encoded at the offset and
with the caches the chunks before it left, its output added to theirs. -/
def Encoder.chunkStep (e : Encoder) (xs : Tensor) (chunk left : Int)
    (acc : List Matrix × Int × Tensor × Tensor) (n : Nat) :
    Except Fault (List Matrix × Int × Tensor × Tensor) := do
  let (y, att, cnn) ← e.forwardChunk (e.chunkInput xs chunk n) acc.2.1 (chunk * left) acc.2.2.1
    acc.2.2.2 none
  pure (acc.1 ++ [y], acc.2.1 + y.rows, att, cnn)

/-- The first `count` steps from empty caches: the chunk outputs, the offset and the caches. -/
def Encoder.chunkLoop (e : Encoder) (xs : Tensor) (chunk left : Int) (count : Nat) :
    Except Fault (List Matrix × Int × Tensor × Tensor) := do
  let (att, cnn) ← e.initCaches 0
  (List.range count).foldlM (e.chunkStep xs chunk left) ([], 0, att, cnn)

/-- Encodes a whole utterance `[1, frames, features]` chunk by chunk with `chunk` output frames
per chunk and `left` chunks of history (negative for all). -/
def Encoder.forwardByChunks (e : Encoder) (xs : Tensor) (chunk left : Int) :
    Except Fault Matrix := do
  if chunk ≤ 0 then throw (.assertion "decoding_chunk_size must be positive")
  let context := e.rightContext + 1
  let stride := e.chunkStride chunk
  let frames := xs.shape.getD 1 0
  let last : Int := frames - context + 1
  let count := if last ≤ 0 then 0 else (last.toNat + stride - 1) / stride
  let (outs, _, _, _) ← e.chunkLoop xs chunk left count
  match outs with
  | [] => throw .nothingToJoin
  | first :: rest => pure (rest.foldl Matrix.appendRows first)

end SpeechStream.Network
