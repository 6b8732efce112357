import SpeechStream.Tensor.Basic
/-!
Hypotheses as decoder input, and their attention scores.

Padding puts the start symbol before every hypothesis and fills with `0` to the longest
length plus one; the lengths count the start symbol. The attention score of a hypothesis
reads, from a matrix of per-position log-probabilities, the entry of its `j`-th token at
position `j` and the end symbol at the position after the last token, and adds them in
order into a double, starting from `0.0`. Token ids count from the end when negative.
-/

set_option autoImplicit false

namespace SpeechStream

/-- Padded hypotheses: the rows and the lengths. -/
structure Padded where
  rows : List (List Int)
  lens : List Int
  deriving Inhabited

/-- The padded form of hypotheses. No hypotheses, or an id that does not fit in 64 bits,
is a fault. -/
def padHypotheses (hyps : List (List Int)) (sos : Int) : Except Fault Padded := do
  let lens := hyps.map (fun h => (h.length : Int) + 1)
  if hyps.isEmpty then throw .noHypotheses
  let width := (hyps.map (fun h => h.length + 1)).foldl max 0
  let rows := hyps.map (fun h => (sos :: h) ++ List.replicate (width - (h.length + 1)) 0)
  if rows.any (fun r => r.any (fun x => !fitsInt64 x)) then throw .overflow
  pure ⟨rows, lens⟩

/-- The attention score of a hypothesis from a matrix of log-probabilities
(positions by labels). A position or label outside the matrix is a fault. -/
def attentionScore (prob : Tensor) (hyp : List Int) (eos : Int) : Except Fault Float := do
  let (rows, cols) ← match prob.shape with
    | [r, c] => pure (r, c)
    | _ => throw .indexOutOfRange
  let entry := fun (j : Nat) (tok : Int) => do
    let j ← Tensor.wrapIndex j rows
    let t ← Tensor.wrapIndex tok cols
    match prob.get? [j, t] with
    | some x => pure x.toFloat
    | none => throw Fault.indexOutOfRange
  let score ← (hyp.zipIdx).foldlM (fun acc (tok, j) => do pure (acc + (← entry j tok))) 0.0
  pure (score + (← entry hyp.length eos))

end SpeechStream
