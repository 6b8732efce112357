import SpeechStream.Tensor.Basic
/-!
Greedy CTC search over streamed posteriors.

Each row of a chunk of log-probabilities votes for its best label: the first largest entry,
where a NaN counts as larger than everything (so the first NaN wins). The labels of all rows,
across chunks, collapse by the CTC rule: a label is emitted when it is not the blank and
differs from the label of the row before, also when that row was in an earlier chunk. The
score adds the sum of the row maxima of each chunk, summed in single precision, into a double.

A chunk with more than two axes is read along its first axis: the label of an entry of the
first axis is the block of the labels of the rows under it. A block is never the blank, and
two blocks are the same label when they hold the same labels.
-/

set_option autoImplicit false

namespace SpeechStream

/-- The label of a row: an index, or for a chunk of more axes, the block of labels under an
entry of its first axis. -/
inductive Label where
  | index (n : Int)
  | block (labels : List Label)
  deriving Inhabited

mutual
/-- Two labels are the same when they are the same index, or blocks of the same labels. -/
def Label.beq : Label → Label → Bool
  | .index a, .index b => a == b
  | .block xs, .block ys => Label.beqList xs ys
  | _, _ => false

/-- Two lists of labels are the same when they hold the same labels in order. -/
def Label.beqList : List Label → List Label → Bool
  | [], [] => true
  | x :: xs, y :: ys => Label.beq x y && Label.beqList xs ys
  | _, _ => false
end

instance : BEq Label := ⟨Label.beq⟩

/-- The index a label stands for, when it is one. -/
def Label.index? : Label → Option Int
  | .index n => some n
  | .block _ => none

/-- The state of a greedy search. -/
structure GreedySearch where
  blank : Int
  /-- Emitted tokens, in order. -/
  tokens : List Label
  /-- Accumulated log-likelihood. -/
  score : Float
  /-- Label of the last row searched. -/
  prev : Option Label
  /-- Rows searched since the last reset. -/
  frames : Nat
  deriving Inhabited

namespace GreedySearch

/-- A fresh search with a blank label. -/
def init (blank : Int) : GreedySearch := ⟨blank, [], 0.0, none, 0⟩

/-- Forgets everything searched. -/
def reset (s : GreedySearch) : GreedySearch := init s.blank

/-- The best entry of a row and its index: the first maximum, a NaN beating everything. -/
def best (row : List Float32) : Float32 × Nat :=
  match row with
  | [] => (0, 0)
  | x :: rest =>
    let step := fun (acc : Float32 × Nat × Nat) (y : Float32) =>
      let (b, bi, i) := acc
      if b.isNaN then (b, bi, i + 1)
      else if y.isNaN || y > b then (y, i, i + 1)
      else (b, bi, i + 1)
    let (b, bi, _) := rest.foldl step (x, 0, 1)
    (b, bi)

/-- Collapses labels after a previous label by the CTC rule. -/
def collapse (blank : Int) : Option Label → List Label → List Label
  | _, [] => []
  | prev, l :: rest =>
    if l != .index blank && some l != prev then l :: collapse blank (some l) rest
    else collapse blank (some l) rest

/-- The label of the rows under an entry: with no further axes the best index of row `row`,
else the block of the labels under each entry of the next axis. Rows are numbered in
row-major order. -/
def labelAt (pick : Nat → Int) : List Nat → Nat → Label
  | [], row => .index (pick row)
  | d :: rest, row => .block ((List.range d).map (fun i => labelAt pick rest (row * d + i)))

/-- Searches one chunk of log-probabilities (rows by labels, possibly under more leading
axes). A chunk without rows changes nothing; rows without labels, or a chunk without axes,
are faults. A vector chunk adds its maximum to the score before it is refused. -/
def search (s : GreedySearch) (probs : Tensor) : GreedySearch × Option Fault :=
  match probs.shape with
  | [] => (s, some .indexOutOfRange)
  | [0] | 0 :: _ => (s, none)
  | [_] =>
    let (b, _) := best probs.data.toList
    ({ s with score := s.score + b.toFloat }, some .indexOutOfRange)
  | n :: inner =>
    let width := inner.getLast?.getD 0
    if width == 0 then (s, some .indexOutOfRange)
    else
      let rows := probs.data.size / width
      let picks := (List.range rows).map (fun r =>
        best (probs.data.extract (r * width) ((r + 1) * width)).toList)
      let total : Float32 := picks.foldl (fun acc p => acc + p.1) 0
      let pick (r : Nat) : Int := ((picks[r]?).map (fun p => (p.2 : Int))).getD 0
      let labels := (List.range n).map (labelAt pick inner.dropLast)
      ({ s with
        tokens := s.tokens ++ collapse s.blank s.prev labels,
        score := s.score + total.toFloat,
        prev := labels.getLast?.orElse (fun _ => s.prev),
        frames := s.frames + n }, none)

/-- The n-best token sequences: none before any row was searched, else the one sequence. -/
def outputs (s : GreedySearch) : List (List Label) := if s.frames = 0 then [] else [s.tokens]

/-- The log-likelihood of each output sequence. -/
def likelihood (s : GreedySearch) : List Float := if s.frames = 0 then [] else [s.score]

end GreedySearch

end SpeechStream
