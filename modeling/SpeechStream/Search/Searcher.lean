import SpeechStream.Search.Greedy
/-!
Searchers: what turns streamed CTC log-probabilities into n-best token sequences.

Two searchers are provided: the greedy CTC search, and a fixed searcher that reports a
given n-best list with given likelihoods as soon as it has seen at least one frame, which
makes the decoding session testable with any n-best list. Any other searcher a caller brings
is a program: its n-best list, its likelihoods and the fault of its next search are functions
of the chunks it was given since its last reset.
-/

set_option autoImplicit false

namespace SpeechStream

/-- A searcher brought by a caller, as functions of the chunks of log-probabilities it was
given since its last reset, oldest first. -/
structure SearchProgram where
  outputs : List Tensor → List (List Label)
  likelihood : List Tensor → List Float
  /-- The fault of searching a chunk after the given ones, if it faults. -/
  fault : List Tensor → Tensor → Option Fault

/-- A searcher and its state. -/
inductive Searcher where
  | greedy (s : GreedySearch)
  | fixed (outputs : List (List Int)) (likelihood : List Float) (frames : Nat)
  | program (p : SearchProgram) (history : List Tensor)
  deriving Inhabited

namespace Searcher

/-- Consumes one chunk of log-probabilities; a fault may come with a changed state. -/
def search (s : Searcher) (probs : Tensor) : Searcher × Option Fault :=
  match s with
  | .greedy g => let (g', f) := g.search probs; (.greedy g', f)
  | .fixed outs lik n =>
    match probs.rows? with
    | .ok r => (.fixed outs lik (n + r), none)
    | .error f => (s, some f)
  | .program p h => (.program p (h ++ [probs]), p.fault h probs)

/-- Forgets everything searched. -/
def reset : Searcher → Searcher
  | .greedy g => .greedy g.reset
  | .fixed outs lik _ => .fixed outs lik 0
  | .program p _ => .program p []

/-- The n-best label sequences, best first. -/
def outputs : Searcher → List (List Label)
  | .greedy g => g.outputs
  | .fixed outs _ n => if n ≥ 1 then outs.map (List.map .index) else []
  | .program p h => p.outputs h

/-- The CTC log-likelihood of each sequence. -/
def likelihood : Searcher → List Float
  | .greedy g => g.likelihood
  | .fixed _ lik n => if n ≥ 1 then lik else []
  | .program p h => p.likelihood h

end Searcher

end SpeechStream
