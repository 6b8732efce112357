import SpeechStream.Document.Basic
import SpeechStream.Document.Yaml
import SpeechStream.Text.Integer
import SpeechStream.Fault
/-!
Model metadata: the eleven integers that describe an exported streaming model.

A metadata document names them by the keys of `Metadata.keys`. Reading one checks, in this
order: that no key is missing (all missing keys are reported together, in table order); that
each value is an integer, key by key in table order, the first bad one reported (a truth
value counts as `0` or `1`, a text as the integer it writes); and that the encoder has at
least one attention head and no negative block count. The bidirectional flag is true for
any non-zero integer.
-/

set_option autoImplicit false

namespace SpeechStream

/-- Static description of a streaming model. -/
structure Metadata where
  /-- Width of the encoder output. -/
  outputSize : Int
  /-- Number of encoder layers. -/
  numBlocks : Int
  /-- Attention heads per layer. -/
  heads : Int
  /-- Kernel width of the convolution module. -/
  kernelSize : Int
  /-- Input frames per encoder output frame. -/
  subsamplingRate : Int
  /-- Input frames the subsampling looks ahead. -/
  rightContext : Int
  /-- Start-of-sentence token. -/
  sos : Int
  /-- End-of-sentence token. -/
  eos : Int
  /-- Whether the rescoring decoder also reads right to left. -/
  bidirectional : Bool
  /-- Encoder output frames per chunk; zero or less decodes the whole input at once. -/
  chunkSize : Int
  /-- Chunks of history kept in the attention cache; zero or less keeps none. -/
  leftChunks : Int
  deriving BEq, Repr, Inhabited

namespace Metadata

/-- The document keys, in table order. -/
def keys : List String :=
  ["output_size", "num_blocks", "head", "cnn_module_kernel", "subsampling_rate",
    "right_context", "sos_symbol", "eos_symbol", "is_bidirectional_decoder", "chunk_size",
    "left_chunks"]

/-- Width of one attention head: the output width divided by the heads, rounded down. -/
def headDim (m : Metadata) : Int := Int.fdiv m.outputSize m.heads

/-- Time rows the attention cache keeps: the chunk size times the left chunks. -/
def requiredCacheSize (m : Metadata) : Int := m.chunkSize * m.leftChunks

/-- The same model decoded with another chunking. -/
def withChunking (m : Metadata) (chunkSize leftChunks : Int) : Metadata :=
  { m with chunkSize := chunkSize, leftChunks := leftChunks }

/-- The values in table order, the flag as `0` or `1`. -/
def values (m : Metadata) : List Int :=
  [m.outputSize, m.numBlocks, m.heads, m.kernelSize, m.subsamplingRate, m.rightContext,
    m.sos, m.eos, if m.bidirectional then 1 else 0, m.chunkSize, m.leftChunks]

/-- The metadata as a document: each key with its integer. -/
def toDocument (m : Metadata) : Value :=
  Value.record (keys.zip (m.values.map Value.int))

/-- Builds metadata from values in table order. -/
def ofValues : List Int → Metadata
  | [a, b, c, d, e, f, g, h, i, j, k] => ⟨a, b, c, d, e, f, g, h, i != 0, j, k⟩
  | _ => default

/-- The integer a metadata value stands for. -/
def fieldValue (key : String) (v : Value) : Except Fault Int :=
  match v with
  | .bool b => .ok (if b then 1 else 0)
  | .int n => .ok n
  | .str s =>
    match Text.readInt (Text.stripBlank s) with
    | .value n => .ok n
    | _ => .error (.notAnInteger key v)
  | _ => .error (.notAnInteger key v)

/-- Whether a document contains a key, in the sense of a membership test: a key of a
mapping, a part of a text, an item of a list. Other documents cannot be searched. -/
def contains (doc : Value) (key : String) : Except Fault Bool :=
  match doc with
  | .map _ => .ok (doc.has key)
  | .str s => .ok ((s.splitOn key).length > 1 || key.isEmpty)
  | .list xs => .ok (xs.any (fun x => x.isText key))
  | _ => .error .wrongKind

/-- The value under a key; only mappings can be indexed by a text. -/
def lookup (doc : Value) (key : String) : Except Fault Value :=
  match doc with
  | .map _ =>
    match doc.get? key with
    | some v => .ok v
    | none => .error .keyMissing
  | _ => .error .wrongKind

/-- Reads metadata from a document, with the checks in their order. -/
def ofDocument (doc : Value) : Except Fault Metadata := do
  let present ← keys.mapM (fun k => contains doc k)
  let missing := (keys.zip present).filterMap (fun p => if p.2 then none else some p.1)
  if !missing.isEmpty then throw (.missingKeys missing)
  let vs ← keys.mapM (fun k => do fieldValue k (← lookup doc k))
  let m := ofValues vs
  if m.heads ≤ 0 || m.numBlocks < 0 then throw (.badGeometry m.heads m.numBlocks)
  pure m

/-- Reads metadata from YAML text: the whole document, or its `metadata` section when it
has one. An empty document is an empty mapping. -/
def ofYaml (text : String) : Except Fault Metadata := do
  let doc ← match Yaml.parse text with
    | .ok v => pure v
    | .error stage => throw (.malformedYaml stage)
  let doc := if doc.truthy then doc else Value.map []
  let doc ← if ← contains doc "metadata" then lookup doc "metadata" else pure doc
  ofDocument doc

end Metadata

end SpeechStream
