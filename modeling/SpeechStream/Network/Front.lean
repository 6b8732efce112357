import SpeechStream.Network.Config
import SpeechStream.Network.Weights
import SpeechStream.Network.Positional
/-!
The convolution front end: strided two-dimensional convolutions over frames and features,
each followed by `max x 0`, then a projection of every output frame to the model width and
position encoding.

Geometry. A layer with kernel `k` and stride `s` turns `n` frames into `(n - k) // s + 1`
(none when that is negative). Through all layers the frame rate drops by the product of the
strides, and one output frame needs `1 + right context` input frames, where the right context
adds `(k - 1)` times the stride product of the layers before. The projection's input width is
the model width times the feature count left after the layers, by `floor ((n - k) / s + 1)`.

A convolution reads its input as channel planes of frames by features. Output channel `o` at
`(t, f)` is the dot product of the kernel with the input window starting at `(t·s, f·s)`,
taken over input channels, then kernel rows, then kernel columns as one chain of fused
multiply-add steps, plus the bias.
-/

set_option autoImplicit false

namespace SpeechStream.Network

/-- Channel planes of equal size: frames by features. -/
abbrev Planes := Array Matrix

/-- One strided convolution layer. -/
structure ConvLayer where
  kernel : Nat
  stride : Nat
  inChannels : Nat
  outChannels : Nat
  weight : Array Float32
  bias : Array Float32
  deriving Inhabited

/-- The size left by a convolution with kernel `k` and stride `s` over `n` positions. -/
def convOut (n k s : Nat) : Except Fault Nat :=
  if k == 0 || s == 0 || n < k then .error .shapeMismatch else .ok ((n - k) / s + 1)

/-- Applies a convolution layer, then `max x 0`. -/
def ConvLayer.apply (c : ConvLayer) (x : Planes) : Except Fault Planes := do
  let h := (x[0]?.map Matrix.rows).getD 0
  let w := (x[0]?.map Matrix.cols).getD 0
  if x.size != c.inChannels then throw .shapeMismatch
  let h' ← convOut h c.kernel c.stride
  let w' ← convOut w c.kernel c.stride
  let k := c.kernel
  pure (Array.ofFn (n := c.outChannels) fun oc =>
    let o := oc.val
    Matrix.ofFn h' w' fun t f =>
      let acc := Nat.fold c.inChannels (fun ic _ acc =>
        let plane := x.getD ic default
        Nat.fold k (fun i _ acc => Nat.fold k (fun j _ acc =>
          Elementary.fusedMulAdd (c.weight.getD (((o * c.inChannels + ic) * k + i) * k + j) 0)
            (plane.get (t * c.stride + i) (f * c.stride + j)) acc) acc) acc) 0
      let y := acc + c.bias.getD o 0
      Activation.apply .relu y)

/-- The convolution front end. -/
structure Front where
  layers : List ConvLayer
  project : Affine
  table : PositionTable
  deriving Inhabited

/-- The factor by which the front end lowers the frame rate. -/
def frontRate (layers : List (Int × Int)) : Int := layers.foldl (fun acc (_, s) => acc * s) 1

/-- The input frames beyond the first that one output frame needs. -/
def frontContext (layers : List (Int × Int)) : Int :=
  (layers.foldl (fun (acc : Int × Int) (k, s) => (acc.1 + (k - 1) * acc.2, acc.2 * s)) (0, 1)).1

/-- The number of output frames for `n` input frames. -/
def frontLength (layers : List (Int × Int)) (n : Int) : Int :=
  layers.foldl (fun m (k, s) =>
    let r := if s == 0 then 0 else Int.fdiv (m - k) s + 1
    max r 0) n

/-- Builds the front end from `input` features to width `d`, its parameters named under
`name`; kernels and strides must pair up. -/
def Front.build (w : Weights) (name : String) (input d : Int) (kernels strides : List Int) :
    Except Fault Front := do
  if kernels.length != strides.length then
    throw (.assertion "kernels and strides must have same length")
  let layers := kernels.zip strides
  let _ ← frontParams name input d layers
  let dn := d.toNat
  let convs := (layers.zipIdx).map (fun ((k, s), i) =>
    let ic := if i == 0 then 1 else dn
    let kn := k.toNat
    let base := name ++ ".conv." ++ toString (2 * i)
    ({ kernel := kn, stride := s.toNat, inChannels := ic, outChannels := dn,
       weight := w.values (base ++ ".weight") (dn * ic * kn * kn),
       bias := w.values (base ++ ".bias") dn } : ConvLayer))
  let width := (← reducedWidthAll input layers).toNat
  let table ← PositionTable.create dn 5000
  pure ⟨convs, w.affine (name ++ ".out") (dn * width) dn, table⟩

/-- Runs the front end over frames (frames by features) with the position of the first output
frame: the encoded output, its position encodings, and the front end with its grown table. -/
def Front.apply (fe : Front) (x : Matrix) (offset : Int) :
    Except Fault (Matrix × Matrix × Front) := do
  let planes ← fe.layers.foldlM (fun p c => c.apply p) #[x]
  let t := (planes[0]?.map Matrix.rows).getD 0
  let f := (planes[0]?.map Matrix.cols).getD 0
  let c := planes.size
  let flat := Matrix.ofFn t (c * f) fun i j => (planes.getD (j / f) default).get i (j % f)
  let y ← fe.project.apply flat
  let (y, pos, table) ← encodePositions fe.table y offset
  pure (y, pos, { fe with table := table })

end SpeechStream.Network
