import SpeechStream.Document.Literal
import SpeechStream.Fault
import SpeechStream.Network.Kernel
/-!
Configuration of the reference network and the parameters it implies.

A network is a Conformer encoder, a CTC head and an attention decoder, which is either a
single left-to-right decoder or a pair of left-to-right and right-to-left decoders. Each part
is configured by a section of named integers; a missing entry takes the part's default, an
unknown entry is refused.

The configuration fixes the list of parameter tensors: their dotted names and shapes, in the
order the parts are built. Building checks the configuration in that same order, so the first
impossible part decides the fault: a size below zero, a head count that does not divide the
model width, a kernel below one, an unknown activation, an unknown decoder kind.
-/

set_option autoImplicit false

namespace SpeechStream

namespace Network

/-- A parameter tensor: its dotted name and shape. -/
structure Parameter where
  name : String
  shape : List Nat
  deriving Inhabited, BEq

/-- The number of numbers a parameter holds. -/
def Parameter.count (p : Parameter) : Nat := p.shape.foldl (· * ·) 1

/-- The encoder section. -/
structure EncoderConfig where
  outputSize : Int := 256
  heads : Int := 4
  linearUnits : Int := 2048
  numBlocks : Int := 12
  kernel : Int := 15
  activation : Value := .str "swish"
  preNorm : Bool := true
  deriving Inhabited

/-- A decoder section; `rightBlocks` is used by a bidirectional decoder only. -/
structure DecoderConfig where
  heads : Int := 4
  linearUnits : Int := 2048
  numBlocks : Option Int := none
  rightBlocks : Int := 3
  preNorm : Bool := true
  deriving Inhabited

/-- The kinds of attention decoder. -/
inductive DecoderKind where
  | leftToRight
  | bidirectional
  deriving BEq, Inhabited

/-- A whole network as configured: the sizes, the sections as written, and the symbols. -/
structure Config where
  vocab : Int
  inputDim : Int
  encoderSection : Value := .null
  decoderSection : Value := .null
  decoderKind : Value := .str "bitransformer"
  sos : Option Int := none
  eos : Option Int := none
  deriving Inhabited

/-- The parts of a configuration once read and checked. -/
structure Plan where
  encoder : EncoderConfig
  activation : Activation
  decoder : DecoderConfig
  kind : DecoderKind
  deriving Inhabited

/-- An integer setting: integers and truth values are accepted. -/
def intSetting (v : Value) : Except Fault Int :=
  match v with
  | .int n => .ok n
  | .bool b => .ok (if b then 1 else 0)
  | _ => .error .typeMismatch

/-- The entries of a section: nothing is an empty section, anything but a mapping is refused. -/
def sectionEntries : Value → Except Fault (List (String × Value))
  | .null => .ok []
  | .map es => es.mapM (fun e => match e.1 with
    | .str k => .ok (k, e.2)
    | _ => .error .typeMismatch)
  | _ => .error .typeMismatch

/-- Dropout rates the encoder accepts; inference does not use them. -/
def encoderDropoutKeys : List String :=
  ["dropout_rate", "positional_dropout_rate", "attention_dropout_rate"]

/-- Dropout rates a decoder accepts; inference does not use them. -/
def decoderDropoutKeys : List String :=
  ["dropout_rate", "positional_dropout_rate", "self_attention_dropout_rate",
    "src_attention_dropout_rate"]

/-- Reads the encoder section. -/
def EncoderConfig.ofSection (v : Value) : Except Fault EncoderConfig := do
  let es ← sectionEntries v
  es.foldlM (fun (c : EncoderConfig) (k, x) =>
    match k with
    | "output_size" => return { c with outputSize := ← intSetting x }
    | "attention_heads" => return { c with heads := ← intSetting x }
    | "linear_units" => return { c with linearUnits := ← intSetting x }
    | "num_blocks" => return { c with numBlocks := ← intSetting x }
    | "cnn_module_kernel" => return { c with kernel := ← intSetting x }
    | "activation_type" => return { c with activation := x }
    | "normalize_before" => return { c with preNorm := x.truthy }
    | _ => if encoderDropoutKeys.contains k then return c else throw .typeMismatch) {}

/-- Reads a decoder section; the right-to-left block count is known only to a bidirectional
decoder, and a left-to-right decoder drops it. -/
def DecoderConfig.ofSection (v : Value) : Except Fault DecoderConfig := do
  let es ← sectionEntries v
  es.foldlM (fun (c : DecoderConfig) (k, x) =>
    match k with
    | "attention_heads" => return { c with heads := ← intSetting x }
    | "linear_units" => return { c with linearUnits := ← intSetting x }
    | "num_blocks" => return { c with numBlocks := some (← intSetting x) }
    | "r_num_blocks" => return { c with rightBlocks := ← intSetting x }
    | "normalize_before" => return { c with preNorm := x.truthy }
    | _ => if decoderDropoutKeys.contains k then return c else throw .typeMismatch) {}

/-- The decoder kind a configuration names. -/
def DecoderKind.ofValue (v : Value) : Except Fault DecoderKind :=
  if v.isText "bitransformer" then .ok .bidirectional
  else if v.isText "transformer" then .ok .leftToRight
  else .error (.unknownDecoder (Literal.plain v))

/-- The start symbol: the configured one or the last vocabulary entry. -/
def Config.sosId (c : Config) : Int := c.sos.getD (c.vocab - 1)

/-- The end symbol: the configured one or the last vocabulary entry. -/
def Config.eosId (c : Config) : Int := c.eos.getD (c.vocab - 1)

/-- The number of blocks of the left-to-right decoder. -/
def Plan.leftBlocks (p : Plan) : Int :=
  p.decoder.numBlocks.getD (if p.kind == .bidirectional then 3 else 6)

/-- Frames lost by each strided convolution of the front end, as the width formula of the
projection computes it: `floor ((n - kernel) / stride + 1)` in exact rationals. -/
def reducedWidth (n kernel stride : Int) : Except Fault Int :=
  if stride == 0 then .error .divisionByZero
  else
    -- floor of a rational (n - kernel + stride) / stride
    .ok (Int.fdiv (n - kernel + stride) stride)

/-- The width left after a list of strided convolutions. -/
def reducedWidthAll (n : Int) (layers : List (Int × Int)) : Except Fault Int :=
  layers.foldlM (fun w (k, s) => reducedWidth w k s) n

/-- A size, refused when negative. -/
def size (n : Int) : Except Fault Nat :=
  if n < 0 then .error .negativeSize else .ok n.toNat

/-- The parameters of an affine map from `i` to `o` features under a name. -/
def affineParams (name : String) (i o : Nat) : List Parameter :=
  [⟨name ++ ".weight", [o, i]⟩, ⟨name ++ ".bias", [o]⟩]

/-- The parameters of a layer normalization of `d` features. -/
def normParams (name : String) (d : Nat) : List Parameter :=
  [⟨name ++ ".weight", [d]⟩, ⟨name ++ ".bias", [d]⟩]

/-- Checks a head count against a width: a zero count divides nothing, and the width must be a
multiple of the count. -/
def checkHeads (heads width : Int) : Except Fault Unit :=
  if heads == 0 then .error .divisionByZero
  else if width % heads != 0 then .error (.assertion "n_feat must be divisible by n_head")
  else .ok ()

/-- The head width and head count of attention with `heads` heads over `width` features. -/
def attentionGeometry (heads width : Int) : Except Fault (Int × Int) := do
  checkHeads heads width
  let _ ← size width
  pure (Int.fdiv width heads, heads)

/-- The cached left context of a causal convolution module over `channels` channels with
kernel `kernel`: `kernel - 1` frames. -/
def convLeftContext (channels kernel : Int) : Except Fault Int := do
  if kernel < 1 then throw (.assertion "Kernel size must be positive")
  let _ ← size channels
  if channels == 0 then throw .noChannels
  pure (kernel - 1)

/-- The parameters of multi-head attention of width `d`. -/
def attentionParams (name : String) (heads : Int) (d : Nat) : Except Fault (List Parameter) := do
  checkHeads heads d
  pure (["linear_q", "linear_k", "linear_v", "linear_out"].flatMap
    (fun l => affineParams (name ++ "." ++ l) d d))

/-- The activation a configuration value names. -/
def activationOf (v : Value) : Except Fault Activation :=
  match v with
  | .str s => match Activation.ofName? s with
    | some a => .ok a
    | none => .error (.unknownActivation s)
  | .list _ | .map _ => .error .typeMismatch
  | _ => .error (.unknownActivation (Literal.plain v))

/-- The parameters of the convolution front end with its layer kernels and strides, from
`input` features to `d` channels. -/
def frontParams (name : String) (input : Int) (d : Int) (layers : List (Int × Int)) :
    Except Fault (List Parameter) := do
  let convs ← (layers.zipIdx).mapM (fun ((k, _), i) => do
    let o ← size d
    let ic ← if i == 0 then pure 1 else size d
    let kk ← size k
    pure [⟨name ++ ".conv." ++ toString (2 * i) ++ ".weight", [o, ic, kk, kk]⟩,
      ⟨name ++ ".conv." ++ toString (2 * i) ++ ".bias", [o]⟩])
  let w ← reducedWidthAll input layers
  let linIn ← size (d * w)
  let dn ← size d
  -- the position encodings of the front end divide by the width and fill it by column pairs
  if d == 0 then throw .divisionByZero
  if d % 2 != 0 then throw .shapeMismatch
  pure (convs.flatten ++ affineParams (name ++ ".out") linIn dn)

/-- The kernels and strides of the encoder's front end. -/
def frontLayers : List (Int × Int) := [(3, 2), (3, 2)]

/-- The parameters of one encoder block. -/
def encoderBlockParams (name : String) (c : EncoderConfig) (d : Nat) :
    Except Fault (List Parameter) := do
  let att ← attentionParams (name ++ ".self_attn") c.heads d
  let _ ← activationOf c.activation
  let units ← size c.linearUnits
  let ff := affineParams (name ++ ".feed_forward.w_1") d units ++
    affineParams (name ++ ".feed_forward.w_2") units d
  if c.kernel < 1 then throw (.assertion "Kernel size must be positive")
  if d == 0 then throw .noChannels
  let k := c.kernel.toNat
  let conv := normParams (name ++ ".conv_module.layernorm") d ++
    [⟨name ++ ".conv_module.pointwise_conv1.weight", [2 * d, d, 1]⟩,
      ⟨name ++ ".conv_module.pointwise_conv1.bias", [2 * d]⟩,
      ⟨name ++ ".conv_module.depthwise_conv.weight", [d, 1, k]⟩,
      ⟨name ++ ".conv_module.depthwise_conv.bias", [d]⟩] ++
    normParams (name ++ ".conv_module.norm") d ++
    [⟨name ++ ".conv_module.pointwise_conv2.weight", [d, d, 1]⟩,
      ⟨name ++ ".conv_module.pointwise_conv2.bias", [d]⟩]
  pure (att ++ ff ++ conv ++ normParams (name ++ ".norm_mha") d ++
    normParams (name ++ ".norm_ff") d ++ normParams (name ++ ".norm_final") d)

/-- The parameters of the encoder, with its section read. -/
def encoderParams (c : Config) : Except Fault (EncoderConfig × Activation × List Parameter) := do
  let e ← EncoderConfig.ofSection c.encoderSection
  let front ← frontParams "encoder.embed" c.inputDim e.outputSize frontLayers
  let d ← size e.outputSize
  let blocks ← (List.range e.numBlocks.toNat).mapM (fun i =>
    encoderBlockParams ("encoder.encoders." ++ toString i) e d)
  let after := if e.preNorm then normParams "encoder.after_norm" d else []
  -- the activation is checked with the first block; without blocks any name passes
  let act := (activationOf e.activation).toOption.getD .swish
  pure (e, act, front ++ blocks.flatten ++ after)

/-- The parameters of one decoder block. -/
def decoderBlockParams (name : String) (c : DecoderConfig) (d : Nat) :
    Except Fault (List Parameter) := do
  let selfAtt ← attentionParams (name ++ ".self_attn") c.heads d
  let srcAtt ← attentionParams (name ++ ".src_attn") c.heads d
  let units ← size c.linearUnits
  pure (selfAtt ++ srcAtt ++ affineParams (name ++ ".feed_forward.w_1") d units ++
    affineParams (name ++ ".feed_forward.w_2") units d ++
    normParams (name ++ ".norm1") d ++ normParams (name ++ ".norm2") d ++
    normParams (name ++ ".norm3") d)

/-- The parameters of one decoder with `blocks` blocks. -/
def decoderParams (name : String) (vocab : Int) (c : DecoderConfig) (blocks : Int) (d : Nat) :
    Except Fault (List Parameter) := do
  let v ← size vocab
  let after := if c.preNorm then normParams (name ++ ".after_norm") d else []
  let bs ← (List.range blocks.toNat).mapM (fun i =>
    decoderBlockParams (name ++ ".decoders." ++ toString i) c d)
  pure ([⟨name ++ ".embed.weight", [v, d]⟩] ++ after ++ bs.flatten ++
    affineParams (name ++ ".output_layer") d v)

/-- The checked parts of a network and all its parameters, in the order the network is built;
the first impossible part gives the fault. -/
def Config.plan (c : Config) : Except Fault (Plan × List Parameter) := do
  let (e, act, enc) ← encoderParams c
  let d ← size e.outputSize
  let kind ← DecoderKind.ofValue c.decoderKind
  let decSection ← match kind with
    | .bidirectional => pure c.decoderSection
    | .leftToRight => pure (match c.decoderSection with
      | .map es => .map (es.filter (fun en => !en.1.isText "r_num_blocks"))
      | v => v)
  let dc ← DecoderConfig.ofSection decSection
  let p : Plan := ⟨e, act, dc, kind⟩
  let dec ← match kind with
    | .bidirectional => do
      let l ← decoderParams "decoder.left_decoder" c.vocab dc p.leftBlocks d
      let r ← decoderParams "decoder.right_decoder" c.vocab dc dc.rightBlocks d
      pure (l ++ r)
    | .leftToRight => decoderParams "decoder" c.vocab dc p.leftBlocks d
  let v ← size c.vocab
  pure (p, enc ++ dec ++ affineParams "ctc.ctc_lo" d v)

end Network

end SpeechStream
