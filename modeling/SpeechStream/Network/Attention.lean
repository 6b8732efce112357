import SpeechStream.Network.Weights
import SpeechStream.Tensor.Basic
/-!
Multi-head scaled dot-product attention with a key/value cache.

Queries, keys and values are affine images of their inputs, split into `heads` column blocks
of width `dk`. For head `h` the score of query `i` and key `j` is `q_i · k_j / sqrt dk`; a
key that the mask hides gets the lowest single-precision number instead. Each row of scores is
normalized by softmax, hidden keys then get weight zero, and the output of the head is the
weighted sum of the values. The heads are put side by side again and mapped by the output
affine map. The two products of a head round every product and add in order while they have
fewer than 400 multiplications; larger ones take chains of fused steps.

The cache of one block holds, per head, the keys and values of earlier frames side by side
(`2·dk` columns). The keys and values of the current frames are appended below the cached
ones, and the grown cache is returned.
-/

set_option autoImplicit false

namespace SpeechStream.Network

/-- Whether a product of a `rows × inner` and an `inner × cols` matrix is large enough for the
matrix library, whose dot products are chains of fused steps (paired for fewer than eight
columns); smaller products round every product and add in order. -/
def isLargeProduct (inner rows cols : Nat) : Bool := inner * rows * cols ≥ 400

/-- Multi-head attention. -/
structure Attention where
  heads : Nat
  dk : Nat
  query : Affine
  key : Affine
  value : Affine
  out : Affine
  deriving Inhabited

/-- The attention stored under a name, of width `d` with `heads` heads. -/
def Weights.attention (w : Weights) (name : String) (heads d : Nat) : Attention :=
  ⟨heads, d / heads, w.affine (name ++ ".linear_q") d d, w.affine (name ++ ".linear_k") d d,
    w.affine (name ++ ".linear_v") d d, w.affine (name ++ ".linear_out") d d⟩

/-- The lowest finite single-precision number, the score of a hidden key. -/
def lowestScore : Float32 := (-3.4028234663852886e38 : Float).toFloat32

/-- Which keys each query may see: `none` lets every query see every key. -/
abbrev Visibility := Option (Nat → Nat → Bool)

/-- Softmax attention weights of one head: rows are queries, columns keys. -/
def attentionWeights (scores : Matrix) (vis : Visibility) : Matrix :=
  match vis with
  | none => Kernel.softmaxRows scores
  | some seen =>
    let masked := Matrix.ofFn scores.rows scores.cols fun i j =>
      if seen i j then scores.get i j else lowestScore
    let w := Kernel.softmaxRows masked
    Matrix.ofFn w.rows w.cols fun i j => if seen i j then w.get i j else 0

/-- The scores of the queries `qh` of one head against its keys `kh`, divided by `scale`: rounded
products added in order for a small product, chains of fused steps (paired for fewer than eight
keys) for a large one. -/
def headScores (dk : Nat) (scale : Float32) (qh kh : Matrix) : Matrix :=
  let scoreDot := if !isLargeProduct dk qh.rows kh.rows then Kernel.dotAt
    else if kh.rows < 8 then Kernel.pairedChainAt else Kernel.chainAt
  Matrix.ofFn qh.rows kh.rows fun i j => scoreDot qh.data (i * dk) kh.data (j * dk) dk / scale

/-- One head: the softmax weights of its scores under the visibility, and for every query the sum
of the values `vh` under its weights, formed as `valueDot large` says. -/
def attendHead (valueDot : Bool → Array Float32 → Nat → Array Float32 → Nat → Nat → Float32)
    (vis : Visibility) (dk : Nat) (scale : Float32) (qh kh vh : Matrix) : Matrix :=
  let w := attentionWeights (headScores dk scale qh kh) vis
  let vt := vh.transpose
  Matrix.ofFn qh.rows dk fun i e =>
    valueDot (isLargeProduct dk qh.rows kh.rows) w.data (i * w.cols) vt.data (e * vt.cols) kh.rows

/-- Splits a packed cache tensor `[1, heads, t, 2·dk]` into per-head keys and values; an empty
cache gives none, a cache of another layout is a fault. -/
def Attention.unpackCache (a : Attention) (cache : Option Tensor) :
    Except Fault (Option (Array (Matrix × Matrix))) :=
  match cache with
  | none => .ok none
  | some c => match c.shape with
    | [b, h, t, w] =>
      if t == 0 then .ok none
      else if b != 1 || h != a.heads || w != 2 * a.dk then .error .shapeMismatch
      else .ok (some (Array.ofFn (n := h) fun hh =>
        let base := hh.val * t * w
        (Matrix.ofFn t a.dk fun i j => c.data.getD (base + i * w + j) 0,
          Matrix.ofFn t a.dk fun i j => c.data.getD (base + i * w + a.dk + j) 0)))
    | _ => .error .shapeMismatch

/-- The keys and values of every head: the cached ones, when there are any, followed by the
columns of the head in the keys `k` and values `v` of the current frames. -/
def Attention.grow (a : Attention) (k v : Matrix) (cached : Option (Array (Matrix × Matrix))) :
    Array (Matrix × Matrix) :=
  let dk := a.dk
  Array.ofFn (n := a.heads) fun hh =>
    let h := hh.val
    let kh := k.sliceCols (h * dk) dk
    let vh := v.sliceCols (h * dk) dk
    match cached with
    | some cs =>
      let (ck, cv) := cs.getD h default
      (ck.appendRows kh, cv.appendRows vh)
    | none => (kh, vh)

/-- The keys and values of the heads packed as a cache `[1, heads, t, 2·dk]`, `t` the frames of
the first head. -/
def Attention.pack (a : Attention) (heads : Array (Matrix × Matrix)) : Tensor :=
  let dk := a.dk
  let t := (heads[0]?.map (fun p => p.1.rows)).getD 0
  ⟨[1, a.heads, t, 2 * dk], heads.foldl (fun acc (kh, vh) =>
    acc ++ (Matrix.ofFn t (2 * dk) fun i j =>
      if j < dk then kh.get i j else vh.get i (j - dk)).data) #[]⟩

/-- The outputs of the heads side by side for `rows` queries `q`: head `h` attends with the
columns of the head in the queries to its keys and values. -/
def Attention.attendHeads
    (valueDot : Bool → Array Float32 → Nat → Array Float32 → Nat → Nat → Float32) (a : Attention)
    (vis : Visibility) (q : Matrix) (heads : Array (Matrix × Matrix)) (rows : Nat) : Matrix :=
  let dk := a.dk
  let scale := (Float.sqrt (Float.ofNat dk)).toFloat32
  let outs := heads.mapIdx fun h (kh, vh) =>
    attendHead valueDot vis dk scale (q.sliceCols (h * dk) dk) kh vh
  Matrix.ofFn rows (a.heads * dk) fun i j => (outs.getD (j / dk) default).get i (j % dk)

/-- Attention of queries `x` over keys and values from `memory`, with an optional cache of
earlier keys and values, and with the product of the weights and the values of a head given as
`valueDot large`, `large` telling whether the product is large: the output and the grown cache
`[1, heads, t + frames, 2·dk]`. -/
def Attention.applyWith (valueDot : Bool → Array Float32 → Nat → Array Float32 → Nat → Nat → Float32)
    (a : Attention) (x memory : Matrix) (vis : Visibility)
    (cache : Option Tensor) : Except Fault (Matrix × Tensor) := do
  if a.heads == 0 then throw .shapeMismatch
  let q ← a.query.apply x
  let k ← a.key.apply memory
  let v ← a.value.apply memory
  let cached ← a.unpackCache cache
  let heads := a.grow k v cached
  let y ← a.out.apply (a.attendHeads valueDot vis q heads x.rows)
  pure (y, a.pack heads)

/-- Attention with the products of the matrix library: chains of fused steps for a large product
of the weights and the values, and rounded products added in order for a small one. -/
def Attention.apply (a : Attention) (x memory : Matrix) (vis : Visibility)
    (cache : Option Tensor) : Except Fault (Matrix × Tensor) :=
  a.applyWith (fun large => if large then Kernel.chainAt else Kernel.dotAt) x memory vis cache

end SpeechStream.Network
