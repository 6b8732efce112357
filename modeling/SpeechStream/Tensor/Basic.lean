import SpeechStream.Document.Basic
import SpeechStream.Fault
/-!
Tensors of single-precision numbers.

A tensor is a shape and its elements in row-major order. The first axis is the axis of rows
(frames, time steps); a row is the block of elements that shares a first index. Operations on
rows follow the usual rules of tensor libraries: joining along the first axis needs equal
ranks and equal sizes on the other axes, except that a one-dimensional empty tensor joins with
anything by contributing nothing.
-/

set_option autoImplicit false

namespace SpeechStream

/-- Whether an integer fits in 64 bits with sign. -/
def fitsInt64 (n : Int) : Bool := -Int.pow 2 63 ≤ n && n < Int.pow 2 63

/-- A tensor: a shape and its elements in row-major order. -/
structure Tensor where
  shape : List Nat
  data : Array Float32
  deriving Inhabited

namespace Tensor

/-- The number of elements a shape holds. -/
def count (shape : List Nat) : Nat := shape.foldl (· * ·) 1

/-- The tensor of zeros of a shape. -/
def zeros (shape : List Nat) : Tensor := ⟨shape, Array.replicate (count shape) 0⟩

/-- Whether the bytes of a shape can be counted: the product of the sizes, formed in order in 64
unsigned bits with no step overflowing, times the bytes of one element, stays below `2^63`. -/
def storageFits (dims : List Nat) (itemBytes : Nat) : Bool :=
  match dims.foldlM (fun p d => if p * d < Nat.pow 2 64 then some (p * d) else none) 1 with
  | some p => decide (p * itemBytes < Nat.pow 2 63)
  | none => false

/-- The sizes of a new tensor whose elements take `itemBytes` bytes, checked as an allocation
checks them: every size must fit in 64 bits, then none may be negative, then the byte count must
be countable. -/
def allocShape (dims : List Int) (itemBytes : Nat) : Except Fault (List Nat) :=
  if dims.any (fun d => !fitsInt64 d) then .error .overflow
  else if dims.any (· < 0) then .error .negativeSize
  else if !storageFits (dims.map Int.toNat) itemBytes then .error .overflow
  else .ok (dims.map Int.toNat)

/-- The zeros of a shape given by integers, allocated as single-precision numbers. -/
def zerosOf (dims : List Int) : Except Fault Tensor := (allocShape dims 4).map zeros

/-- The number of axes. -/
def rank (t : Tensor) : Nat := t.shape.length

/-- The number of elements. -/
def numel (t : Tensor) : Nat := count t.shape

/-- The size of an axis, counted from the end when negative. -/
def size? (t : Tensor) (axis : Int) : Except Fault Nat :=
  let r : Int := t.rank
  let a := if axis < 0 then axis + r else axis
  if 0 ≤ a && a < r then
    match t.shape[a.toNat]? with
    | some n => .ok n
    | none => .error .indexOutOfRange
  else .error .indexOutOfRange

/-- The number of rows: the size of the first axis; a scalar has none. -/
def rows? (t : Tensor) : Except Fault Nat := t.size? 0

/-- The number of rows, zero for a scalar. -/
def numRows (t : Tensor) : Nat := t.shape.headD 0

/-- Elements per row. -/
def rowWidth (t : Tensor) : Nat := count t.shape.tail

/-- Rows `lo` up to `hi` (exclusive), clamped to the tensor. -/
def sliceRows (t : Tensor) (lo hi : Nat) : Tensor :=
  let n := t.numRows
  let hi := min hi n
  let lo := min lo hi
  let w := t.rowWidth
  ⟨(hi - lo) :: t.shape.tail, t.data.extract (lo * w) (hi * w)⟩

/-- The last `k` rows (all rows if fewer). -/
def lastRows (t : Tensor) (k : Nat) : Tensor := t.sliceRows (t.numRows - k) t.numRows

/-- One row as a tensor of the remaining axes. -/
def row (t : Tensor) (i : Nat) : Tensor :=
  let w := t.rowWidth
  ⟨t.shape.tail, t.data.extract (i * w) ((i + 1) * w)⟩

/-- The sub-tensor at index `i` of the first axis; past the last row is a fault. -/
def index? (t : Tensor) (i : Nat) : Except Fault Tensor :=
  if i < t.numRows then .ok (t.row i) else .error .indexOutOfRange

/-- A one-dimensional empty tensor: it joins with anything. -/
def isBlank (t : Tensor) : Bool := t.shape == [0]

/-- Joins tensors along the first axis. -/
def cat (ts : List Tensor) : Except Fault Tensor :=
  match ts.filter (fun t => !t.isBlank) with
  | [] => match ts with
    | t :: _ => .ok t
    | [] => .error .shapeMismatch
  | first :: rest =>
    if first.rank == 0 then .error .shapeMismatch
    else if rest.all (fun t => t.rank == first.rank && t.shape.tail == first.shape.tail) then
      let rows := (first :: rest).foldl (fun acc t => acc + t.numRows) 0
      .ok ⟨rows :: first.shape.tail, (first :: rest).foldl (fun acc t => acc ++ t.data) #[]⟩
    else .error .shapeMismatch

/-- Joins tensors along an axis: the blocks of each tensor below that axis are interleaved. -/
def catAxis (axis : Nat) (ts : List Tensor) : Except Fault Tensor :=
  match ts.filter (fun t => !t.isBlank) with
  | [] => match ts with
    | t :: _ => .ok t
    | [] => .error .shapeMismatch
  | first :: rest =>
    let outer := count (first.shape.take axis)
    let inner := count (first.shape.drop (axis + 1))
    let same (t : Tensor) : Bool := t.rank == first.rank &&
      t.shape.take axis == first.shape.take axis &&
      t.shape.drop (axis + 1) == first.shape.drop (axis + 1)
    if axis ≥ first.rank then .error .indexOutOfRange
    else if !(rest.all same) then .error .shapeMismatch
    else
      let all := first :: rest
      let sizes := all.map (fun t => t.shape.getD axis 0)
      let total := sizes.foldl (· + ·) 0
      let data := (List.range outer).foldl (fun acc o =>
        (all.zip sizes).foldl (fun acc (t, s) =>
          acc ++ t.data.extract (o * s * inner) ((o + 1) * s * inner)) acc) #[]
      .ok ⟨first.shape.take axis ++ [total] ++ first.shape.drop (axis + 1), data⟩

/-- Adds a leading axis of size one. -/
def unsqueeze (t : Tensor) : Tensor := ⟨1 :: t.shape, t.data⟩

/-- The flat position of an index, if it lies inside the shape. -/
def offsetOf (shape : List Nat) (idx : List Nat) : Option Nat :=
  if shape.length != idx.length then none
  else (shape.zip idx).foldl (fun acc (n, i) => acc.bind (fun a => if i < n then some (a * n + i)
    else none)) (some 0)

/-- The element at an index. -/
def get? (t : Tensor) (idx : List Nat) : Option Float32 :=
  (offsetOf t.shape idx).bind (fun k => t.data[k]?)

/-- The first element, if any. -/
def first? (t : Tensor) : Option Float32 := t.data[0]?

/-- A position counted from the end when negative, checked against a size. -/
def wrapIndex (i : Int) (n : Nat) : Except Fault Nat :=
  let j := if i < 0 then i + n else i
  if 0 ≤ j && j < n then .ok j.toNat else .error .indexOutOfRange

/-- Rows as lists of elements; for a matrix these are its rows. -/
def toRows (t : Tensor) : List (List Float32) :=
  (List.range t.numRows).map (fun i => (t.row i).data.toList)

/-- Applies a function to every element. -/
def map (f : Float32 → Float32) (t : Tensor) : Tensor := ⟨t.shape, t.data.map f⟩

/-- A matrix from rows of equal width. -/
def ofRows (width : Nat) (rows : List (Array Float32)) : Tensor :=
  ⟨[rows.length, width], rows.foldl (· ++ ·) #[]⟩

/-- The single-precision number a document number stands for. -/
def scalar? : Value → Option Float32
  | .int n => some (Float.ofInt n).toFloat32
  | .float x => some x.toFloat32
  | .bool b => some (if b then 1 else 0)
  | _ => none

/-- The shape of a nested list document, read along first items. -/
def shapeOf : Value → List Nat
  | .list xs => xs.length :: (match xs with
    | x :: _ => shapeOf x
    | [] => [])
  | _ => []

mutual
/-- The leaves of a nested list document in row-major order, each read by `leaf`, if the
document is rectangular with the given shape and every leaf reads. -/
def flattenWith {α : Type} (leaf : Value → Option α) : List Nat → Value → Option (List α)
  | [], v => (leaf v).map (fun x => [x])
  | n :: shape, .list xs => if xs.length != n then none else flattenItemsWith leaf shape xs
  | _ :: _, _ => none
/-- The leaves of the items of a list document, one item after the other. -/
def flattenItemsWith {α : Type} (leaf : Value → Option α) :
    List Nat → List Value → Option (List α)
  | _, [] => some []
  | shape, x :: rest => do
    let a ← flattenWith leaf shape x
    let b ← flattenItemsWith leaf shape rest
    pure (a ++ b)
end

/-- The elements of a nested list document in row-major order, if it is rectangular with the
given shape and has numbers at its leaves. -/
def flatten (shape : List Nat) (v : Value) : Option (List Float32) := flattenWith scalar? shape v

/-- A tensor from a nested list document; ragged nesting or a non-number is a fault. -/
def ofDocument (v : Value) : Except Fault Tensor :=
  let shape := shapeOf v
  match flatten shape v with
  | some xs => .ok ⟨shape, xs.toArray⟩
  | none => .error .malformedTensor

end Tensor

end SpeechStream
