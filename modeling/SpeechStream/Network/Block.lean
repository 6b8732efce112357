import SpeechStream.Network.Attention
import SpeechStream.Document.Literal
/-!
The blocks of the encoder and the decoder.

A feed-forward layer maps each frame by an affine map to a wider layer, applies its
activation, and maps back.

The causal convolution module normalizes its input, joins the cached left context (or zeros
for the first chunk) before the frames, and keeps the last `kernel - 1` joined frames as the
next cache. The joined frames go through a pointwise convolution to twice the width, a gate
(the first half times the logistic function of the second half), a channel-wise convolution
without padding (products rounded and added in order), a second normalization,
`x * sigmoid x`, and a last pointwise convolution. The logistic function of a block of entries
depends on their positions in memory: the gate holds each channel's frames together, the
normalized frames hold each frame's channels together. The module's run takes that function as
a parameter (`ConvModule.applyWith`); the network runs it with the vector kernels'
`Activation.sigmoidAt`. With a cache of the
right length the output has one frame per input frame, so chunked processing sees the same
left context as processing the whole sequence.

An encoder block adds to its input, in turn: self-attention over the cached and current
frames, the convolution module, and the feed-forward layer; each branch reads its input
normalized first (or normalizes the sum after, when normalization comes after the branch),
and a last normalization closes the block. A decoder block does the same with self-attention
under the causal mask, attention over the encoder output, and the feed-forward layer.
-/

set_option autoImplicit false

namespace SpeechStream.Network

/-- Adds a branch to frames; a branch of one frame is added to every frame and one frame is
widened to the branch's frames, other frame counts must agree. -/
def addFrames (x y : Matrix) : Except Fault Matrix :=
  if x.rows == y.rows then x.add y
  else if x.cols != y.cols then .error .shapeMismatch
  else if y.rows == 1 then .ok (Matrix.ofFn x.rows x.cols fun i j => x.get i j + y.get 0 j)
  else if x.rows == 1 then .ok (Matrix.ofFn y.rows y.cols fun i j => x.get 0 j + y.get i j)
  else .error .shapeMismatch

/-- A feed-forward layer. -/
structure FeedForward where
  widen : Affine
  narrow : Affine
  activation : Activation
  deriving Inhabited

/-- The feed-forward layer stored under a name. -/
def Weights.feedForward (w : Weights) (name : String) (d units : Nat) (act : Activation) :
    FeedForward :=
  ⟨w.affine (name ++ ".w_1") d units, w.affine (name ++ ".w_2") units d, act⟩

/-- Applies a feed-forward layer to every frame. -/
def FeedForward.apply (f : FeedForward) (x : Matrix) : Except Fault Matrix := do
  let h ← f.widen.apply x
  f.narrow.apply ⟨h.rows, h.cols, f.activation.applyBlock h.data⟩

/-- The causal convolution module. -/
structure ConvModule where
  inNorm : Norm
  expand : Affine
  depthwise : Matrix
  depthBias : Array Float32
  outNorm : Norm
  project : Affine
  lorder : Nat
  deriving Inhabited

/-- The eps of the convolution module's normalizations. -/
def convEps : Float32 := (1e-5 : Float).toFloat32

/-- The convolution module stored under a name, of `d` channels and kernel `k`. -/
def Weights.convModule (w : Weights) (name : String) (d k : Nat) : ConvModule :=
  { inNorm := w.norm (name ++ ".layernorm") d convEps
    expand := w.affine (name ++ ".pointwise_conv1") d (2 * d)
    depthwise := w.matrix (name ++ ".depthwise_conv.weight") d k
    depthBias := w.values (name ++ ".depthwise_conv.bias") d
    outNorm := w.norm (name ++ ".norm") d convEps
    project := w.affine (name ++ ".pointwise_conv2") d d
    lorder := k - 1 }

/-- The left context of a cache tensor `[batch, channels, frames]` as frames by channels:
`none` when the cache has no frames; a batch or channel count other than the input's is a
fault with the two shapes. -/
def ConvModule.context (c : ConvModule) (cache : Option Tensor) (frames : Nat) :
    Except Fault (Option Matrix) :=
  let d := c.inNorm.gain.size
  match cache with
  | none => .ok none
  | some t =>
    if t.shape.getLast? == some 0 || t.shape.isEmpty then .ok none
    else match t.shape with
    | b :: ch :: rest =>
      if b != 1 || ch != d then
        .error (.assertion ("Conv cache shape " ++ Literal.tuple t.shape ++
          " does not match input " ++ Literal.tuple [1, d, frames]))
      else match rest with
        | [l] => .ok (some (Matrix.ofFn l d fun i j => t.data.getD (j * l + i) 0))
        | _ => .error .shapeMismatch
    | _ => .error .indexOutOfRange

/-- The normalized frames behind their left context (zeros without a cache), and the last
`kernel - 1` of the joined frames; nothing is joined for a kernel of one. -/
def ConvModule.join (c : ConvModule) (xn : Matrix) (cache : Option Tensor) :
    Except Fault (Matrix × Matrix) :=
  if c.lorder == 0 then pure (xn, Matrix.empty xn.cols)
  else do
    let ctx ← c.context cache xn.rows
    let joined := (ctx.getD (Matrix.zeros c.lorder xn.cols)).appendRows xn
    pure (joined, joined.sliceRows (joined.rows - c.lorder) joined.rows)

/-- The gate over frames `g` of `2·d` channels: channel `j` of frame `i` is `g i j` times the
logistic function of `g i (d + j)`. The logistic function is given as `σ count k x`, for the entry
`x` at position `k` of a contiguous block of `count` entries; the gate's channels are contiguous
blocks of frames. -/
def ConvModule.gate (σ : Nat → Nat → Float32 → Float32) (g : Matrix) (d : Nat) : Matrix :=
  Matrix.ofFn g.rows d fun i j => g.get i j * σ (d * g.rows) (j * g.rows + i) (g.get i (d + j))

/-- The channel-wise convolution without padding: frame `t` of the output is read from frames
`t .. t + lorder` of the input, products rounded and added in order. -/
def ConvModule.depthwiseConv (c : ConvModule) (gated : Matrix) : Matrix :=
  let k := c.lorder + 1
  Matrix.ofFn (gated.rows - c.lorder) gated.cols fun t ch =>
    Kernel.dotAt c.depthwise.data (ch * k) (Array.ofFn (n := k) fun i => gated.get (t + i.val) ch)
      0 k + c.depthBias.getD ch 0

/-- The layers after the join, over joined frames of `d` channels: the pointwise convolution to
twice the width, the gate, the channel-wise convolution, the second normalization, `x * sigmoid x`
and the last pointwise convolution, with the logistic function of a block given as `σ`. -/
def ConvModule.mix (σ : Nat → Nat → Float32 → Float32) (c : ConvModule) (joined : Matrix)
    (d : Nat) : Except Fault Matrix := do
  let g ← c.expand.applyPointwise joined
  let gated := gate σ g d
  if gated.rows < c.lorder + 1 then throw .shapeMismatch
  let normed ← c.outNorm.apply (c.depthwiseConv gated)
  c.project.applyPointwise ⟨normed.rows, normed.cols, Activation.swishBlock σ normed.data⟩

/-- Runs the convolution module over frames with an optional cache, with the logistic function
of a block given as `σ` (see `ConvModule.gate`): the output and the next cache
`[1, channels, kernel - 1]`. -/
def ConvModule.applyWith (σ : Nat → Nat → Float32 → Float32) (c : ConvModule) (x : Matrix)
    (cache : Option Tensor) : Except Fault (Matrix × Tensor) := do
  let xn ← c.inNorm.apply x
  let (joined, next) ← c.join xn cache
  let y ← c.mix σ joined xn.cols
  pure (y, ⟨[1, xn.cols, next.rows], next.transpose.data⟩)

/-- Runs the convolution module with the logistic function of the vector kernels
(`Activation.sigmoidAt`). -/
def ConvModule.apply (c : ConvModule) (x : Matrix) (cache : Option Tensor) :
    Except Fault (Matrix × Tensor) :=
  c.applyWith Activation.sigmoidAt x cache

/-- The eps of the blocks' layer normalizations. -/
def blockEps : Float32 := (1e-12 : Float).toFloat32

/-- A residual branch: normalizes before or after the branch as configured. -/
def residual (preNorm : Bool) (norm : Norm) (x : Matrix)
    (branch : Matrix → Except Fault Matrix) : Except Fault Matrix := do
  let input ← if preNorm then norm.apply x else pure x
  let y ← addFrames x (← branch input)
  if preNorm then pure y else norm.apply y

/-- An encoder block. -/
structure EncoderBlock where
  attention : Attention
  feedForward : FeedForward
  conv : ConvModule
  normAttention : Norm
  normFeedForward : Norm
  normFinal : Norm
  preNorm : Bool
  deriving Inhabited

/-- Runs an encoder block over frames with its caches and the mask over cached and current
frames: the output and the block's grown attention cache and next convolution cache. -/
def EncoderBlock.apply (b : EncoderBlock) (x : Matrix) (vis : Visibility)
    (attCache cnnCache : Option Tensor) : Except Fault (Matrix × Tensor × Tensor) := do
  let input ← if b.preNorm then b.normAttention.apply x else pure x
  let (att, attOut) ← b.attention.apply input input vis attCache
  let y ← addFrames x att
  let y ← if b.preNorm then pure y else b.normAttention.apply y
  let (conv, cnnOut) ← b.conv.apply y cnnCache
  let y ← addFrames y conv
  let y ← residual b.preNorm b.normFeedForward y b.feedForward.apply
  let y ← b.normFinal.apply y
  pure (y, attOut, cnnOut)

/-- A decoder block. -/
structure DecoderBlock where
  selfAttention : Attention
  sourceAttention : Attention
  feedForward : FeedForward
  norm1 : Norm
  norm2 : Norm
  norm3 : Norm
  preNorm : Bool
  deriving Inhabited

/-- Runs a decoder block over the embedded tokens of one hypothesis, seeing earlier tokens
as `causal` says and the whole encoder output. -/
def DecoderBlock.apply (b : DecoderBlock) (x memory : Matrix) (causal : Nat → Nat → Bool) :
    Except Fault Matrix := do
  let y ← residual b.preNorm b.norm1 x (fun i => do
    pure (← b.selfAttention.apply i i (some causal) none).1)
  let y ← residual b.preNorm b.norm2 y (fun i => do
    pure (← b.sourceAttention.apply i memory none none).1)
  residual b.preNorm b.norm3 y b.feedForward.apply

end SpeechStream.Network
