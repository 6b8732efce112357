/-!
Single-precision elementary functions of the vector kernels.

* `fusedMulAdd a b c` is `a * b + c` rounded once. The product of two single-precision numbers
  is exact in double precision. The double sum is then made round-to-odd with its exact error
  (a two-sum), and rounding a round-to-odd double to single precision is the single rounding of
  the exact value, because a double carries more than twice the digits of a single.
* `vectorExp` is accurate to one unit in the last place: `x = q · ln 2 + s` with `q` the
  nearest integer to `x · log₂ e` and `ln 2` taken in two parts, a polynomial of degree six in
  `s` evaluated with fused steps, and the scaling by `2^q` done in two halves. Below `-104` it
  is zero, above `100` infinite.
* `coarseExp` trades accuracy for speed, up to twenty units in the last place: `x` is clamped
  to the finite range, `n = ⌊x · log₂ e + ½⌋`, and a polynomial of degree five in `x - n · ln 2`
  is scaled by `2^(n-1) · 2`; below the logarithm of the least normal number it is zero.
* `vectorLog` writes `x = m · 2^e` with `m` in `[0.75, 1.5)`, evaluates `2 · atanh ((m-1)/(m+1))`
  in pairs of single-precision numbers, and adds `e · ln 2`.
-/

set_option autoImplicit false

namespace SpeechStream.Elementary

/-- Positive infinity. -/
def infinity : Float32 := 1 / 0

/-- A quiet NaN. -/
def notANumber : Float32 := 0 / 0

/-- The double next to `x`, toward `+∞` when `up` and toward `-∞` otherwise. -/
def nextDouble (x : Float) (up : Bool) : Float :=
  if x == 0 then (if up then Float.ofBits 1 else -(Float.ofBits 1))
  else if (x > 0) == up then Float.ofBits (x.toBits + 1) else Float.ofBits (x.toBits - 1)

/-- `a * b + c` rounded once to single precision. -/
def fusedMulAdd (a b c : Float32) : Float32 :=
  let p := a.toFloat * b.toFloat
  let d := c.toFloat
  let s := p + d
  if s.isNaN || s.isInf then s.toFloat32
  else
    -- the exact error of the double sum, then the sum rounded to odd
    let v := s - p
    let err := (p - (s - v)) + (d - v)
    let odd := if err == 0 || s.toBits % 2 == 1 then s else nextDouble s (err > 0)
    odd.toFloat32

/-- The integer nearest to `x`, a tie going to the even one. -/
def roundEven (x : Float32) : Int :=
  let f := x.floor
  let i : Int := if f < 0 then -((-f).toUInt64.toNat : Int) else (f.toUInt64.toNat : Int)
  let r := x - f
  if r < 0.5 then i else if r > 0.5 then i + 1 else if i % 2 == 0 then i else i + 1

/-- `2^e` written directly into the exponent field; zero when the field would be zero. -/
def pow2 (e : Int) : Float32 := Float32.ofBits ((e + 127).toNat * Nat.pow 2 23).toUInt32

/-- The unbiased exponent field of a positive number. -/
def exponentField (x : Float32) : Int := ((x.toBits.toNat / Nat.pow 2 23 % 256 : Nat) : Int) - 127

/-- `x · 2^e` by adding `e` to the exponent field of a normal number. -/
def addExponent (x : Float32) (e : Int) : Float32 :=
  Float32.ofBits (((x.toBits.toNat : Int) + e * Int.pow 2 23) % Int.pow 2 32).toNat.toUInt32

/-- An unevaluated sum `hi + lo` of two single-precision numbers, `lo` the smaller part. -/
structure Pair where
  hi : Float32
  lo : Float32

namespace Pair

/-- `x + y` exactly, for any two numbers. -/
def ofSum (x y : Float32) : Pair :=
  let s := x + y
  let v := s - x
  ⟨s, (x - (s - v)) + (y - v)⟩

/-- A pair times a number. -/
def mulSingle (x : Pair) (y : Float32) : Pair :=
  let s := x.hi * y
  ⟨s, fusedMulAdd x.lo y (fusedMulAdd x.hi y (-s))⟩

/-- The quotient of two pairs. -/
def div (n d : Pair) : Pair :=
  let t := 1 / d.hi
  let s := n.hi * t
  let u := fusedMulAdd t n.hi (-s)
  let v := fusedMulAdd (-d.lo) t (fusedMulAdd (-d.hi) t 1)
  ⟨s, fusedMulAdd s v (fusedMulAdd n.lo t u)⟩

/-- The sum of two pairs, the first the larger. -/
def add (x y : Pair) : Pair :=
  let s := x.hi + y.hi
  ⟨s, (((x.hi - s) + y.hi) + x.lo) + y.lo⟩

/-- A pair plus a smaller number. -/
def addSingle (x : Pair) (y : Float32) : Pair :=
  let s := x.hi + y
  ⟨s, ((x.hi - s) + y) + x.lo⟩

/-- Both parts times a power of two. -/
def scale (x : Pair) (k : Float32) : Pair := ⟨x.hi * k, x.lo * k⟩

end Pair

/-- `log₂ e` in single precision. -/
def log2e : Float32 := 1.442695040888963407359924681001892137426645954152985934135449406931

/-- The exponential, accurate to one unit in the last place. -/
def vectorExp (d : Float32) : Float32 :=
  if d.isNaN then d
  else if d < -104 then 0
  else if 100 < d then infinity
  else
    let q := roundEven (d * log2e)
    let qf := Float32.ofInt q
    let s := fusedMulAdd qf (-0.693145751953125) d
    let s := fusedMulAdd qf (-1.428606765330187045e-06) s
    let u := [0.00139304355252534151077271, 0.00833336077630519866943359,
      0.0416664853692054748535156, 0.166666671633720397949219, 0.5].foldl
      (fun u c => fusedMulAdd u s c) (0.000198527617612853646278381 : Float32)
    let u := 1 + fusedMulAdd (s * s) u s
    let h := q.fdiv 2
    u * pow2 h * pow2 (q - h)

/-- The exponential by a short polynomial, up to twenty units in the last place. -/
def coarseExp (x : Float32) : Float32 :=
  let least := Float32.ofBits 0xc2aeac50
  let most := Float32.ofBits 0x42b17218
  -- a NaN compares false and is clamped to the top
  let clamped := if x < most then x else most
  let clamped := if clamped > least then clamped else least
  let n := (fusedMulAdd clamped log2e 0.5).floor
  let r := fusedMulAdd (-n) 0.69314718246459960938 clamped
  let p := [0.0418978221, 0.166676521, 0.499991506, 0.999999701, 1].foldl
    (fun acc c => fusedMulAdd r acc c) (0.00828929059 : Float32)
  let scale := if x < least then 0 else pow2 (roundEven (n - 1))
  p * scale * 2

/-- The natural logarithm, accurate to one unit in the last place. -/
def vectorLog (d : Float32) : Float32 :=
  if d.isNaN || d < 0 then notANumber
  else if d == 0 then -infinity
  else if d.isInf then d
  else
    let small := d < 1.17549435e-38
    let x := if small then d * 18446744073709551616 else d
    let e := exponentField (x * (1 / 0.75))
    let m := addExponent x (-e)
    let e := if small then e - 64 else e
    let s := Pair.mulSingle ⟨0.69314718246459960938, -1.904654323148236017e-09⟩ (Float32.ofInt e)
    let r := Pair.div (Pair.ofSum (-1) m) (Pair.ofSum 1 m)
    let r2 := r.hi * r.hi
    let t := fusedMulAdd (fusedMulAdd 0.3027294874 r2 0.3996108174) r2 0.6666694880
    let s := (s.add (r.scale 2)).addSingle (r2 * r.hi * t)
    s.hi + s.lo

end SpeechStream.Elementary
