import SpeechStream.Rescoring.Basic
import SpeechStream.Backend.Basic
/-!
Attention rescoring of hypotheses against a whole utterance.

The encoder outputs of all chunks are joined along time and sent, with the padded
hypotheses, to the backend's attention decoder in one call. The score of a hypothesis is
`forward · (1 - w) + backward · w` for the reverse weight `w`; the backward score is read on
the reversed hypothesis and only for a bidirectional decoder with `w > 0`, else it is `0.0`.
No hypotheses give no scores and no call; no encoder output gives zeros and no call.
-/

set_option autoImplicit false

namespace SpeechStream

/-- Scores of hypotheses from the decoder, with the calls made. -/
def rescore (b : Backend) (sos eos : Int) (bidirectional : Bool) (hyps : List (List Int))
    (outs : List Tensor) (w : Float) : List Call × Except Fault (List Float) :=
  if hyps.isEmpty then ([], .ok [])
  else if outs.isEmpty then ([], .ok (hyps.map (fun _ => 0.0)))
  else
    match Tensor.catAxis 1 outs with
    | .error f => ([], .error f)
    | .ok enc =>
      match padHypotheses hyps sos with
      | .error f => ([], .error f)
      | .ok p =>
        let input : DecoderInput := ⟨p.rows, p.lens, enc⟩
        match b.decode input with
        | .error f => ([], .error f)
        | .ok out =>
          let calls := [Call.decoder input]
          let useReverse := bidirectional && w > 0
          if useReverse && out.backward.isNone then (calls, .error .noBackwardScores)
          else
            let one := fun (i : Nat) (hyp : List Int) => do
              let rows ← Tensor.rows? out.forward
              if i ≥ rows then throw Fault.indexOutOfRange
              let s ← attentionScore (out.forward.row i) hyp eos
              let r ← if useReverse then
                  match out.backward with
                  | some bw => do
                    let rows ← Tensor.rows? bw
                    if i ≥ rows then throw Fault.indexOutOfRange
                    attentionScore (bw.row i) hyp.reverse eos
                  | none => pure 0.0
                else pure 0.0
              pure (s * (1 - w) + r * w)
            (calls, hyps.zipIdx.mapM (fun (h, i) => one i h))

end SpeechStream
