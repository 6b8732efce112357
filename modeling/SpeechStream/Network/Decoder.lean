import SpeechStream.Network.Block
import SpeechStream.Network.Config
import SpeechStream.Network.Positional
/-!
Attention decoders that score whole hypotheses, and the masks and reversal they use.

A hypothesis is a row of token ids that starts with the start symbol, padded on the right to
the longest row, with its length (start symbol included). Token `i` of a hypothesis may look
at token `j` when `j` is inside the hypothesis and `j ≤ i`. The decoder embeds the tokens,
scales them by `sqrt d` and adds their position encodings, runs its blocks against the encoder
output, normalizes (when normalization comes first), and maps every position to one score per
vocabulary entry.

A right-to-left decoder reads each hypothesis reversed: the tokens after the start symbol in
reverse order, the padding replaced by the end symbol, the start symbol kept in front.
-/

set_option autoImplicit false

namespace SpeechStream.Network

/-- Padding masks: entry `j` of row `n` is true when `j ≥ lengths[n]`, over `maxLen` columns
(the largest length when not given). No lengths and no width, or a negative width, is a
fault. -/
def padMask (lengths : List Int) (maxLen : Option Int) : Except Fault (List (List Bool)) := do
  let width ← match maxLen, lengths.max? with
    | some m, _ => pure m
    | none, some m => pure m
    | none, none => throw .shapeMismatch
  if width < 0 then throw .negativeSize
  pure (lengths.map (fun len => (List.range width.toNat).map (fun (j : Nat) => (j : Int) ≥ len)))

/-- The causal mask of `size` positions: entry `(i, j)` is true when `j ≤ i`. -/
def subsequentMask (size : Int) : Except Fault (List (List Bool)) :=
  if size < 0 then .error .negativeSize
  else .ok ((List.range size.toNat).map (fun i => (List.range size.toNat).map (fun j => j ≤ i)))

/-- Reverses hypotheses: after the start symbol `sos`, the `len - 1` tokens of a row in reverse
order, then `eos` to the row's width. A length past the row, or a count of lengths other than
the count of rows, is a fault. -/
def reverseHyps (sos eos : Int) (hyps : List (List Int)) (lens : List Int) :
    Except Fault (List (List Int)) := do
  if hyps.length != lens.length then throw .shapeMismatch
  let width := (hyps.headD []).length - 1
  (hyps.zip lens).mapM (fun (row, len) => do
    let body := row.drop 1
    let r := len - 1
    let out ← (List.range width).mapM (fun (j : Nat) => do
      if r > j then
        let idx := (r - 1 - j).toNat
        match body[idx]? with
        | some t => if idx < width then pure t else throw .shapeMismatch
        | none => throw .shapeMismatch
      else pure eos)
    pure (sos :: out))

/-- A transformer decoder. -/
structure Decoder where
  embed : Matrix
  table : PositionTable
  blocks : List DecoderBlock
  afterNorm : Option Norm
  output : Affine
  deriving Inhabited

/-- Builds a decoder of `blocks` blocks named under `name`. -/
def Decoder.build (w : Weights) (name : String) (c : DecoderConfig) (vocab d blocks : Nat) :
    Except Fault Decoder := do
  let table ← PositionTable.create d 5000
  let bs := (List.range blocks).map (fun i =>
    let n := name ++ ".decoders." ++ toString i
    ({ selfAttention := w.attention (n ++ ".self_attn") c.heads.toNat d
       sourceAttention := w.attention (n ++ ".src_attn") c.heads.toNat d
       feedForward := w.feedForward (n ++ ".feed_forward") d c.linearUnits.toNat .relu
       norm1 := w.norm (n ++ ".norm1") d blockEps
       norm2 := w.norm (n ++ ".norm2") d blockEps
       norm3 := w.norm (n ++ ".norm3") d blockEps
       preNorm := c.preNorm } : DecoderBlock))
  let after := if c.preNorm then some (w.norm (name ++ ".after_norm") d blockEps) else none
  pure ⟨w.matrix (name ++ ".embed.weight") vocab d, table, bs, after,
    w.affine (name ++ ".output_layer") d vocab⟩

/-- The scores of padded hypotheses against the encoder output: one matrix of positions by
vocabulary per hypothesis. A token outside the vocabulary is a fault. -/
def Decoder.apply (dec : Decoder) (memory : Matrix) (hyps : List (List Int)) (lens : List Int) :
    Except Fault (List Matrix) := do
  let vocab := dec.embed.rows
  if hyps.any (fun row => row.any (fun t => t < 0 || t ≥ vocab)) then throw .indexOutOfRange
  (hyps.zip lens).mapM (fun (row, len) => do
    let emb := Matrix.ofFn row.length dec.embed.cols fun i j =>
      dec.embed.get (row.getD i 0).toNat j
    let (x, _, _) ← encodePositions dec.table emb 0
    let causal (i j : Nat) : Bool := (j : Int) < len && j ≤ i
    let x ← dec.blocks.foldlM (fun x b => b.apply x memory causal) x
    let x ← match dec.afterNorm with
      | some n => n.apply x
      | none => pure x
    dec.output.apply x)

end SpeechStream.Network
