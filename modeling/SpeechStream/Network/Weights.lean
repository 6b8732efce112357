import SpeechStream.Network.Kernel
/-!
Parameter values of the reference network.

Reference weights come from a formula of the parameter's dotted name and the position of the
number in the tensor, so that every build of a network has the same numbers without any file.
For a name `s` let `h = (Σ_i (i + 1) · code (s[i])) mod 10007`; the number at flat position
`k` is `((k² · 7919 + k · 31 + h · 104729) mod 10007) / 10007 - 0.5`, computed exactly on
naturals and in double precision, then rounded once to single precision.

A source of weights maps a name and a shape to the numbers; a checkpoint may replace some
tensors of the formula by zeros.
-/

set_option autoImplicit false

namespace SpeechStream.Network

/-- The weight hash of a parameter name. -/
def nameHash (name : String) : Nat :=
  (name.toList.foldl (fun (acc : Nat × Nat) c => (acc.1 + 1, acc.2 + (acc.1 + 1) * c.toNat))
    (0, 0)).2 % 10007

/-- The reference number at flat position `k` of a tensor whose name hashes to `h`. -/
def formulaAt (h k : Nat) : Float32 :=
  let r := (k * k * 7919 + k * 31 + h * 104729) % 10007
  (Float.ofNat r / 10007.0 - 0.5).toFloat32

/-- The reference numbers of a tensor with `count` numbers. -/
def formula (name : String) (count : Nat) : Array Float32 :=
  let h := nameHash name
  Array.ofFn (n := count) fun k => formulaAt h k.val

/-- A source of parameter values: the numbers of a named tensor of a given count. -/
structure Weights where
  values : String → Nat → Array Float32

/-- The reference weights. -/
def Weights.reference : Weights := ⟨formula⟩

/-- Reference weights with some tensors replaced by zeros. -/
def Weights.zeroing (zeroed : List String) : Weights :=
  ⟨fun name n => if zeroed.contains name then Array.replicate n 0 else formula name n⟩

/-- A matrix of parameters, `rows` by `cols`. -/
def Weights.matrix (w : Weights) (name : String) (rows cols : Nat) : Matrix :=
  ⟨rows, cols, w.values name (rows * cols)⟩

/-- The affine map stored under a name, from `i` to `o` features. -/
def Weights.affine (w : Weights) (name : String) (i o : Nat) : Affine :=
  ⟨w.matrix (name ++ ".weight") o i, w.values (name ++ ".bias") o⟩

/-- The layer normalization stored under a name, over `d` features. -/
def Weights.norm (w : Weights) (name : String) (d : Nat) (eps : Float32) : Norm :=
  ⟨w.values (name ++ ".weight") d, w.values (name ++ ".bias") d, eps⟩

end SpeechStream.Network
