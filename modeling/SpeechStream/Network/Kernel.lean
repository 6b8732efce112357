import SpeechStream.Fault
import SpeechStream.Network.Elementary
/-!
Single-precision kernels of the reference network.

Every value is a single-precision number and every operation rounds to single precision, in
the order written here:

* a linear layer forms each output as one chain of fused multiply-add steps from zero over the
  input positions, and adds its bias to the finished chain; a layer of fewer than eight outputs
  runs two chains, over the even and over the odd positions, and adds them before the bias;
* a pointwise or strided convolution forms each output as one chain of fused steps and adds
  its bias last; a depthwise convolution and a small batched product (fewer than 400
  multiplications per matrix) round every product and add from the first to the last;
* sums of exponentials are formed as a vector of sixteen lanes forms them: fewer than sixteen
  numbers from the first to the last, otherwise lane by lane and then folded in halves;
* softmax uses the coarse exponential, log-softmax the accurate exponential and logarithm of
  `Elementary`;
* the moments of a row for layer normalization are accumulated by Welford's update lane by
  lane over whole vectors of sixteen, in chunks of sixteen vectors merged through a binary
  stack, then one at a time for the numbers past the last whole vector; the lanes are merged
  into those last. The normalized entry is `(x · r + b) · gain + shift` with both steps fused,
  where `r = 1 / sqrt (var + eps)` and `b = -mean · r`;
* the logistic function of a contiguous block uses the accurate exponential on the leading
  multiple of thirty-two entries and the exponential of the runtime on the rest;
* `erf` is evaluated in double precision and rounded once.

A matrix is a row-major block of numbers with its row and column counts; a row is a frame and
a column is a feature, a channel or a key.
-/

set_option autoImplicit false

namespace SpeechStream

/-- A matrix of single-precision numbers in row-major order. -/
structure Matrix where
  rows : Nat
  cols : Nat
  data : Array Float32
  deriving Inhabited

namespace Matrix

/-- The matrix whose entry at row `i` and column `j` is `f i j`. -/
def ofFn (rows cols : Nat) (f : Nat → Nat → Float32) : Matrix :=
  ⟨rows, cols, Array.ofFn (n := rows * cols) fun k => f (k.val / cols) (k.val % cols)⟩

/-- The entry at row `i` and column `j`, zero outside the matrix. -/
def get (m : Matrix) (i j : Nat) : Float32 := m.data.getD (i * m.cols + j) 0

/-- The matrix with no rows and a given width. -/
def empty (cols : Nat) : Matrix := ⟨0, cols, #[]⟩

/-- The zero matrix. -/
def zeros (rows cols : Nat) : Matrix := ⟨rows, cols, Array.replicate (rows * cols) 0⟩

/-- Rows `lo` up to `hi` (exclusive), clamped to the matrix. -/
def sliceRows (m : Matrix) (lo hi : Nat) : Matrix :=
  let hi := min hi m.rows
  let lo := min lo hi
  ⟨hi - lo, m.cols, m.data.extract (lo * m.cols) (hi * m.cols)⟩

/-- The rows of one matrix followed by the rows of another of the same width. -/
def appendRows (a b : Matrix) : Matrix := ⟨a.rows + b.rows, a.cols, a.data ++ b.data⟩

/-- The transposed matrix. -/
def transpose (m : Matrix) : Matrix := ofFn m.cols m.rows fun i j => m.get j i

/-- Columns `lo` up to `lo + n`. -/
def sliceCols (m : Matrix) (lo n : Nat) : Matrix := ofFn m.rows n fun i j => m.get i (lo + j)

/-- Applies a function to every entry. -/
def map (f : Float32 → Float32) (m : Matrix) : Matrix := ⟨m.rows, m.cols, m.data.map f⟩

/-- Combines two matrices of one shape entry by entry; differing shapes are a fault. -/
def zipWith (f : Float32 → Float32 → Float32) (a b : Matrix) : Except Fault Matrix :=
  if a.rows == b.rows && a.cols == b.cols then
    .ok ⟨a.rows, a.cols, Array.ofFn (n := a.rows * a.cols) fun k =>
      f (a.data.getD k.val 0) (b.data.getD k.val 0)⟩
  else .error .shapeMismatch

/-- The entry-wise sum of two matrices of one shape. -/
def add (a b : Matrix) : Except Fault Matrix := zipWith (· + ·) a b

/-- The numbers of row `i`. -/
def row (m : Matrix) (i : Nat) : Array Float32 := m.data.extract (i * m.cols) ((i + 1) * m.cols)

/-- Replaces every row by the image of a function that keeps its length. -/
def mapRows (f : Array Float32 → Array Float32) (m : Matrix) : Matrix :=
  ⟨m.rows, m.cols, (List.range m.rows).foldl (fun acc i => acc ++ f (m.row i)) #[]⟩

end Matrix

namespace Kernel

open Elementary

/-- The number of halvings that fold a vector of lanes into one. -/
def halvings : Nat := 4

/-- The number of lanes of a vector. -/
def vectorWidth : Nat := Nat.pow 2 halvings

/-- The dot product of `n` numbers of `a` from position `i` with `n` numbers of `b` from
position `j`, every product rounded and added from the first pair to the last. -/
def dotAt (a : Array Float32) (i : Nat) (b : Array Float32) (j : Nat) (n : Nat) : Float32 :=
  Nat.fold n (fun k _ acc => acc + a.getD (i + k) 0 * b.getD (j + k) 0) 0

/-- The same dot product as one chain of fused steps `acc ← a · b + acc` from zero. -/
def chainAt (a : Array Float32) (i : Nat) (b : Array Float32) (j : Nat) (n : Nat) : Float32 :=
  Nat.fold n (fun k _ acc => fusedMulAdd (a.getD (i + k) 0) (b.getD (j + k) 0) acc) 0

/-- The same dot product as two chains of fused steps, over the even and over the odd
positions, added at the end. -/
def pairedChainAt (a : Array Float32) (i : Nat) (b : Array Float32) (j : Nat) (n : Nat) :
    Float32 :=
  let even := Nat.fold ((n + 1) / 2) (fun k _ acc =>
    fusedMulAdd (a.getD (i + 2 * k) 0) (b.getD (j + 2 * k) 0) acc) 0
  let odd := Nat.fold (n / 2) (fun k _ acc =>
    fusedMulAdd (a.getD (i + 2 * k + 1) 0) (b.getD (j + 2 * k + 1) 0) acc) 0
  even + odd

/-- Folds a vector of lanes in halves `k` times: lane `l` of the first half plus lane `l` of
the second. -/
def foldHalves : Nat → Array Float32 → Float32
  | 0, v => v.getD 0 0
  | k + 1, v =>
    let half := v.size / 2
    foldHalves k (Array.ofFn (n := half) fun l => v.getD l.val 0 + v.getD (l.val + half) 0)

/-- A sum as a vector forms it: fewer numbers than lanes are added from the first to the last;
otherwise whole vectors are added lane by lane, a last partial vector into the first lanes,
and the lanes are folded in halves. -/
def laneSum (xs : Array Float32) : Float32 :=
  let w := vectorWidth
  if xs.size < w then (xs.extract 1 xs.size).foldl (· + ·) (xs.getD 0 0)
  else
    let blocks := xs.size / w
    let first := Array.ofFn (n := w) fun l => xs.getD l.val 0
    let acc := (List.range (blocks - 1)).foldl (fun acc b =>
      Array.ofFn (n := w) fun l => acc.getD l.val 0 + xs.getD ((b + 1) * w + l.val) 0) first
    let rest := xs.size - blocks * w
    let acc := Array.ofFn (n := w) fun l =>
      if l.val < rest then acc.getD l.val 0 + xs.getD (blocks * w + l.val) 0 else acc.getD l.val 0
    foldHalves halvings acc

/-- The largest of the first `n` numbers from position `i`; a NaN among them wins. -/
def maxAt (a : Array Float32) (i n : Nat) : Float32 :=
  Nat.fold n (fun k _ acc =>
    let x := a.getD (i + k) 0
    if k == 0 || x.isNaN || (!acc.isNaN && x > acc) then x else acc) 0

/-- The largest number of a row; a NaN wins. -/
def maxOf (row : Array Float32) : Float32 := maxAt row 0 row.size

/-- The normalized exponentials of a row: `e = coarseExp (x - max)`, then `e · (1 / Σ e)` with
the sum formed lane by lane. -/
def softmaxRow (row : Array Float32) : Array Float32 :=
  let top := maxOf row
  let e := row.map fun x => coarseExp (x - top)
  let inv := 1 / laneSum e
  e.map (· * inv)

/-- The normalized exponentials of each row. -/
def softmaxRows (m : Matrix) : Matrix := m.mapRows softmaxRow

/-- The logarithms of the normalized exponentials of each row:
`(x - max) - vectorLog (Σ vectorExp (x - max))`, the sum formed lane by lane. -/
def logSoftmaxRows (m : Matrix) : Matrix :=
  m.mapRows fun row =>
    let top := maxOf row
    let lse := vectorLog (laneSum (row.map fun x => vectorExp (x - top)))
    row.map fun x => x - top - lse

/-- Count, mean and sum of squared deviations of a run of numbers. -/
structure Moments where
  count : Nat
  mean : Float32
  m2 : Float32

/-- No numbers. -/
def Moments.empty : Moments := ⟨0, 0, 0⟩

/-- Adds the moments `b` of other numbers into `a`: with `c = b.count / (a.count + b.count)`
and `δ = b.mean - a.mean`, the mean moves by `c · δ` and the squares grow by
`b.m2 + δ · δ · c · a.count`. -/
def Moments.merge (a b : Moments) : Moments :=
  let n := a.count + b.count
  let c : Float32 := if n == 0 then 0 else Float32.ofNat b.count / Float32.ofNat n
  let delta := b.mean - a.mean
  ⟨n, a.mean + c * delta, a.m2 + (b.m2 + delta * delta * c * Float32.ofNat a.count)⟩

/-- The moments of the numbers from position `start` up to `n`, one at a time: the mean moves
by `δ / count` and the squares grow by `δ · (x - mean)`. -/
def tailMoments (a : Array Float32) (i start n : Nat) : Moments :=
  Nat.fold (n - start) (fun j _ (acc : Moments) =>
    let x := a.getD (i + start + j) 0
    let delta := x - acc.mean
    let count := acc.count + 1
    let mean := acc.mean + delta / Float32.ofNat count
    ⟨count, mean, acc.m2 + delta * (x - mean)⟩) Moments.empty

/-- Moments of every lane of a vector. -/
abbrev Lanes := Array Moments

/-- Lanes that have seen nothing. -/
def emptyLanes : Lanes := Array.replicate vectorWidth Moments.empty

/-- Merges the lanes of `b` into the lanes of `a`, lane by lane. -/
def mergeLanes (a b : Lanes) : Lanes :=
  Array.ofFn (n := vectorWidth) fun l => (a.getD l.val .empty).merge (b.getD l.val .empty)

/-- Welford's update lane by lane over `count` whole vectors from position `start`: with the
weight `1 / (j + 1)` rounded first, the mean and the squares each move by one fused step. -/
def vectorMoments (a : Array Float32) (start count : Nat) : Lanes :=
  Array.ofFn (n := vectorWidth) fun l =>
    let (m1, m2) := Nat.fold count (fun j _ (acc : Float32 × Float32) =>
      let x := a.getD (start + j * vectorWidth + l.val) 0
      let delta := x - acc.1
      let m1 := fusedMulAdd delta (1 / Float32.ofNat (j + 1)) acc.1
      (m1, fusedMulAdd delta (x - m1) acc.2)) (0, 0)
    ⟨count, m1, m2⟩

/-- The vectors of one chunk of the moment computation. -/
def chunkVectors : Nat := 16

/-- The levels of the merge stack for `m` chunks: `⌈log₂ m⌉`, and one at least. -/
def stackDepth (m : Nat) : Nat := if m ≤ 2 then 1 else Nat.log2 (m - 1) + 1

/-- The number of zero bits below the lowest one bit of a positive number. -/
def trailingZeros (n : Nat) : Nat :=
  ((List.range (Nat.log2 n + 1)).takeWhile (fun b => n / Nat.pow 2 b % 2 == 0)).length

/-- Puts the lanes of chunk `c` (counted from zero) on a merge stack of `depth` levels: they
are merged into level zero, and then level `j` into level `j + 1` (emptying level `j`) for as
many levels as `c + 1` has trailing zero bits, below the top level. -/
def pushChunk (depth : Nat) (stack : Array Lanes) (c : Nat) (chunk : Lanes) : Array Lanes :=
  let stack := stack.modify 0 (fun top => mergeLanes top chunk)
  (List.range (min (trailingZeros (c + 1)) (depth - 1))).foldl (fun st j =>
    let lower := st.getD j emptyLanes
    (st.modify (j + 1) (fun up => mergeLanes up lower)).set! j emptyLanes) stack

/-- Mean and (biased) variance of `n` numbers from position `i`. -/
def meanVar (a : Array Float32) (i n : Nat) : Float32 × Float32 :=
  let vectors := n / vectorWidth
  let chunks := (vectors + chunkVectors - 1) / chunkVectors
  let depth := stackDepth chunks
  let stack := (List.range chunks).foldl (fun st c =>
    let count := min chunkVectors (vectors - c * chunkVectors)
    pushChunk depth st c (vectorMoments a (i + c * chunkVectors * vectorWidth) count))
    (Array.replicate depth emptyLanes)
  let stack := (List.range (depth - 1)).foldl (fun st j =>
    st.modify 0 (fun top => mergeLanes top (st.getD (j + 1) emptyLanes))) stack
  let lanes := stack.getD 0 emptyLanes
  let all := lanes.foldl Moments.merge (tailMoments a i (vectors * vectorWidth) n)
  (all.mean, all.m2 / Float32.ofNat n)

/-- The error function, accurate to double precision: its power series below 3 and a
continued fraction for the complement above. -/
def erf (x : Float) : Float :=
  let a := x.abs
  let v :=
    if a < 3 then
      let (sum, _) := Nat.fold 60 (fun n _ (acc : Float × Float) =>
        let term := acc.2
        (acc.1 + term / Float.ofNat (2 * n + 1),
          -term * a * a / Float.ofNat (n + 1))) (0, a)
      sum * 2 / Float.sqrt 3.141592653589793
    else if a < 10 then
      let frac := Nat.fold 80 (fun k _ (acc : Float) =>
        let n := 80 - k
        a + Float.ofNat n / 2 / acc) a
      1 - Float.exp (-(a * a)) / Float.sqrt 3.141592653589793 / frac
    else 1
  if x < 0 then -v else v

end Kernel

/-- An affine map `x ↦ W x + b` applied to each row: `weight` has one row per output. -/
structure Affine where
  weight : Matrix
  bias : Array Float32
  deriving Inhabited

/-- Applies a linear layer to every row: each output is one chain of fused steps over the
inputs, or two chains over the even and odd inputs for a layer of fewer than eight outputs,
and the bias is added last. A row width other than the map's input width is a fault. -/
def Affine.apply (f : Affine) (x : Matrix) : Except Fault Matrix :=
  if x.cols != f.weight.cols then .error .shapeMismatch
  else
    let dot := if f.weight.rows < 8 then Kernel.pairedChainAt else Kernel.chainAt
    .ok (Matrix.ofFn x.rows f.weight.rows fun i o =>
      dot x.data (i * x.cols) f.weight.data (o * x.cols) x.cols + f.bias.getD o 0)

/-- Applies the map as a pointwise convolution over frames: each output is one chain of fused
steps over the channels, and the bias is added last. -/
def Affine.applyPointwise (f : Affine) (x : Matrix) : Except Fault Matrix :=
  if x.cols != f.weight.cols then .error .shapeMismatch
  else .ok (Matrix.ofFn x.rows f.weight.rows fun i o =>
    Kernel.chainAt x.data (i * x.cols) f.weight.data (o * x.cols) x.cols + f.bias.getD o 0)

/-- Layer normalization of rows: gain, shift and the small constant added to the variance. -/
structure Norm where
  gain : Array Float32
  shift : Array Float32
  eps : Float32
  deriving Inhabited

/-- Normalizes one row: with `r = 1 / sqrt (var + eps)` and `b = -mean · r`, an entry `x`
becomes `(x · r + b) · gain + shift`, both steps fused. -/
def Norm.normalizeRow (n : Norm) (row : Array Float32) : Array Float32 :=
  let (mean, var) := Kernel.meanVar row 0 row.size
  let r := 1 / Float32.sqrt (var + n.eps)
  let b := -mean * r
  Array.ofFn (n := row.size) fun j =>
    Elementary.fusedMulAdd (Elementary.fusedMulAdd (row.getD j.val 0) r b)
      (n.gain.getD j.val 0) (n.shift.getD j.val 0)

/-- Normalizes every row; a row width other than the gain's is a fault. -/
def Norm.apply (n : Norm) (x : Matrix) : Except Fault Matrix :=
  if x.cols != n.gain.size then .error .shapeMismatch
  else .ok (x.mapRows n.normalizeRow)

/-- The activations of the feed-forward layers. -/
inductive Activation where
  | relu
  | swish
  | gelu
  deriving BEq, Inhabited, Repr

namespace Activation

/-- The activations by their configuration names, in the order they are listed. -/
def table : List (String × Activation) := [("relu", .relu), ("swish", .swish), ("gelu", .gelu)]

/-- The activation a configuration name stands for. -/
def ofName? (s : String) : Option Activation := (table.find? (fun p => p.1 == s)).map Prod.snd

/-- The class name of an activation. -/
def className : Activation → String
  | .relu => "ReLU"
  | .swish => "Swish"
  | .gelu => "GELU"

/-- The logistic function `1 / (1 + exp (-x))`. -/
def sigmoid (x : Float32) : Float32 := 1 / (1 + Float32.exp (0 - x))

/-- The logistic function of the entry at position `k` of a contiguous block of `count`
entries: the vector kernel `1 / (vectorExp (-x) + 1)` covers the leading multiple of two
vectors, `sigmoid` the rest. -/
def sigmoidAt (count k : Nat) (x : Float32) : Float32 :=
  let step := 2 * Kernel.vectorWidth
  if k < count - count % step then 1 / (Elementary.vectorExp (0 - x) + 1) else sigmoid x

/-- The activation of one number: `max x 0` (a NaN stays), `x * sigmoid x`, or
`x * 0.5 * (1 + erf (x / sqrt 2))`. -/
def apply : Activation → Float32 → Float32
  | .relu, x => if x.isNaN then x else if x > 0 then x else 0
  | .swish, x => x * sigmoid x
  | .gelu, x =>
    let e := (Kernel.erf (x * (0.7071067811865476 : Float).toFloat32).toFloat).toFloat32
    x * 0.5 * (1 + e)

/-- `x * σ count k x` for every entry `x` at position `k` of a contiguous block of `count`
entries, the logistic function of the block given as `σ`. -/
def swishBlock (σ : Nat → Nat → Float32 → Float32) (xs : Array Float32) : Array Float32 :=
  xs.mapIdx fun k x => x * σ xs.size k x

/-- The activation of every entry of a contiguous block; the logistic factor of `swish`
depends on the position as `sigmoidAt` says. -/
def applyBlock (act : Activation) (xs : Array Float32) : Array Float32 :=
  match act with
  | .swish => swishBlock sigmoidAt xs
  | act => xs.map act.apply

end Activation

end SpeechStream
