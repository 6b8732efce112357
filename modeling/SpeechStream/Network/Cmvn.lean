import SpeechStream.Network.Kernel
import SpeechStream.Tensor.Basic
/-!
Global mean and variance normalization of input features.

Statistics are stored either as a mean and a standard deviation per feature, or as the sums
of the features and of their squares over a count of frames. From sums the mean is
`sum / count` and the deviation `sqrt (max (sum_square / count - mean², 1e-10))`, all in
double precision; a count of one number applies to every feature.

The normalization keeps the mean and the inverse deviation in single precision: the deviation
is rounded, raised to at least `1e-20` (rounded), and inverted. A frame becomes
`(x - mean) * istd`, feature by feature.
-/

set_option autoImplicit false

namespace SpeechStream.Network

/-- A named array of statistics: its shape and its numbers. -/
structure StatArray where
  shape : List Nat
  values : Array Float
  deriving Inhabited

/-- The double a document number stands for. -/
def docNumber : Value → Option Float
  | .int n => some (Float.ofInt n)
  | .float x => some x
  | .bool b => some (if b then 1 else 0)
  | _ => none

/-- An array of statistics from a nested list document of numbers. -/
def StatArray.ofDocument (v : Value) : Except Fault StatArray :=
  let shape := Tensor.shapeOf v
  match Tensor.flattenWith docNumber shape v with
  | some xs => .ok ⟨shape, xs.toArray⟩
  | none => .error .malformedTensor

/-- Mean and standard deviation per feature. -/
structure Stats where
  mean : StatArray
  std : StatArray
  deriving Inhabited

/-- Combines two arrays number by number; an array of one number goes with every number of the
other, otherwise the shapes must agree. -/
def StatArray.zipWith (f : Float → Float → Float) (a b : StatArray) : Except Fault StatArray :=
  if a.shape == b.shape then
    .ok ⟨a.shape, (a.values.zip b.values).map (fun p => f p.1 p.2)⟩
  else if b.values.size == 1 && b.shape.length ≤ a.shape.length then
    .ok ⟨a.shape, a.values.map (fun x => f x (b.values.getD 0 0))⟩
  else if a.values.size == 1 && a.shape.length ≤ b.shape.length then
    .ok ⟨b.shape, b.values.map (fun y => f (a.values.getD 0 0) y)⟩
  else .error .incompatibleShapes

/-- Reads statistics from named arrays: a mean with its deviation, or sums, sums of squares
and a count. A mean without a deviation is a missing key; other names are not statistics. -/
def Stats.ofArrays (arrays : List (String × StatArray)) : Except Fault Stats := do
  let find (k : String) : Option StatArray := (arrays.find? (fun p => p.1 == k)).map Prod.snd
  match find "mean", find "sum", find "sum_square", find "count" with
  | some mean, _, _, _ => match find "std" with
    | some std => pure ⟨mean, std⟩
    | none => throw .keyMissing
  | none, some s, some sq, some n => do
    let mean ← s.zipWith (· / ·) n
    let meanSquare ← sq.zipWith (· / ·) n
    let var ← meanSquare.zipWith (fun m2 m => m2 - m * m) mean
    let floor : Float := 1e-10
    pure ⟨mean, ⟨var.shape, var.values.map (fun v =>
      Float.sqrt (if v.isNaN then v else if v < floor then floor else v))⟩⟩
  | none, _, _, _ => throw (.unknownStats (arrays.map Prod.fst))

/-- Normalization by a mean and an inverse deviation per feature. -/
structure Cmvn where
  mean : Array Float32
  istd : Array Float32
  deriving Inhabited

/-- The normalization of statistics; the mean and the deviation must have one shape. -/
def Cmvn.ofStats (s : Stats) : Except Fault Cmvn :=
  if s.mean.shape != s.std.shape then .error (.assertion "mean and istd must have the same shape")
  else
    let least := (1e-20 : Float).toFloat32
    .ok ⟨s.mean.values.map Float.toFloat32, s.std.values.map (fun x =>
      let d := x.toFloat32
      1 / (if d.isNaN then d else if d < least then least else d))⟩

/-- Normalizes every frame; a frame width other than the number of statistics (unless there is
one) is a fault. -/
def Cmvn.apply (c : Cmvn) (x : Matrix) : Except Fault Matrix :=
  let n := c.mean.size
  if n != x.cols && n != 1 then .error .shapeMismatch
  else
    let pick (a : Array Float32) (j : Nat) : Float32 := a.getD (if n == 1 then 0 else j) 0
    .ok (Matrix.ofFn x.rows x.cols fun i j => (x.get i j - pick c.mean j) * pick c.istd j)

end SpeechStream.Network
