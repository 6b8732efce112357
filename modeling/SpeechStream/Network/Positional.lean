import SpeechStream.Network.Kernel
/-!
Sinusoidal position encodings.

Position `p` of a table of width `d` holds `sin (p · r_i)` at column `2i` and `cos (p · r_i)`
at column `2i + 1`, where `r_i = exp (2i · (-(ln 10000 / d)))`, all in single precision (the
factor `-(ln 10000 / d)` is computed in double and rounded once). A width of zero has no factor,
and an odd width has one more sine column than cosine columns: neither table can be filled.

A table covers positions `0 .. length - 1`. Asking for positions past its end grows it to the
larger of the positions needed and twice its length; the numbers of a position do not depend on
the length, so only the length is kept. A request for positions `offset .. offset + size - 1`
is cut to the table the way a slice is: a negative bound counts from the end.
-/

set_option autoImplicit false

namespace SpeechStream.Network

/-- A position table: its width and the number of positions it covers. -/
structure PositionTable where
  width : Nat
  length : Nat
  deriving Inhabited, BEq

namespace PositionTable

/-- The table of `length` positions of width `d`; a negative length, a width of zero (whose
frequency factor divides by it) or an odd width is a fault. -/
def create (d : Nat) (length : Int) : Except Fault PositionTable :=
  if length < 0 then .error .negativeSize
  else if d == 0 then .error .divisionByZero
  else if d % 2 != 0 then .error .shapeMismatch
  else .ok ⟨d, length.toNat⟩

/-- The frequency factor of column pair `i` at width `d`. -/
def rate (d i : Nat) : Float32 :=
  let step := (-(Float.log 10000.0 / Float.ofNat d)).toFloat32
  Float32.exp (Float32.ofNat (2 * i) * step)

/-- The number at position `p` and column `j` of a table of width `d`. -/
def entry (d p j : Nat) : Float32 :=
  let a := Float32.ofNat p * rate d (j / 2)
  if j % 2 == 0 then Float32.sin a else Float32.cos a

/-- The table grown to cover `needed` positions: to the larger of `needed` and twice its
length, and unchanged when it already covers them. -/
def extend (t : PositionTable) (needed : Int) : PositionTable :=
  if needed ≤ t.length then t
  else { t with length := max needed.toNat (2 * t.length) }

/-- The range `[lo, hi)` of a slice of a sequence of length `n`, negative bounds counting from
the end, clamped to the sequence. -/
def sliceRange (n : Nat) (lo hi : Int) : Nat × Nat :=
  let clamp (i : Int) : Nat :=
    if i < 0 then (max (i + n) 0).toNat else min i.toNat n
  let a := clamp lo
  let b := clamp hi
  (a, max a b)

/-- The encodings of positions `offset .. offset + size - 1`, after growing the table to cover
them; the rows are cut to the grown table like a slice. -/
def query (t : PositionTable) (offset size : Int) : PositionTable × Matrix :=
  let t := t.extend (offset + size)
  let (a, b) := sliceRange t.length offset (offset + size)
  (t, Matrix.ofFn (b - a) t.width fun i j => entry t.width (a + i) j)

end PositionTable

/-- Scales frames by `sqrt d` (rounded to single precision) and adds the encodings of their
positions from `offset`; returns the encoded frames, the encodings and the grown table. A
frame count other than the number of encodings is a fault. -/
def encodePositions (t : PositionTable) (x : Matrix) (offset : Int) :
    Except Fault (Matrix × Matrix × PositionTable) := do
  let (t, pos) := t.query offset x.rows
  let scale := (Float.sqrt (Float.ofNat t.width)).toFloat32
  let y ← (x.map (· * scale)).add pos
  pure (y, pos, t)

end SpeechStream.Network
