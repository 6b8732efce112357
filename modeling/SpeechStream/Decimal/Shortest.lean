/-!
Shortest decimal text of a binary double.

A finite double is `m · 2^q` with an integer `m`. The reals that round to it form an
interval around it: half a step to each neighbour, where the step below is half as wide
when `m` is a power of two at the bottom of its binade. The ends belong to the interval
exactly when `m` is even, since a tie then rounds to this double.

`shortest` looks at decimal grids of 1, 2, … 17 significant digits. On each grid it tests the
two grid points next to the value; the first grid with a point inside the interval wins, and
of two such points the nearer one (an exact tie takes the even digit string). All arithmetic
is on natural numbers over one common denominator, so nothing here rounds.
-/

set_option autoImplicit false

namespace SpeechStream.Decimal

/-- A finite positive double as `mant · 2^exp`, with the width of the rounding interval
below it: `narrowBelow` holds when the next smaller double is half a step away. -/
structure Binary where
  mant : Nat
  exp : Int
  narrowBelow : Bool
  deriving Repr

/-- The kinds of double: not a number, an infinity, or a finite value with its sign. -/
inductive Shape where
  | nan
  | infinite (negative : Bool)
  | zero (negative : Bool)
  | finite (negative : Bool) (b : Binary)
  deriving Repr

/-- Reads the bits of a double. -/
def Shape.ofFloat (x : Float) : Shape :=
  let bits : Nat := x.toBits.toNat
  let negative := bits ≥ Nat.pow 2 63
  let biased : Nat := (bits / Nat.pow 2 52) % Nat.pow 2 11
  let frac : Nat := bits % Nat.pow 2 52
  if biased = 2047 then
    if frac = 0 then .infinite negative else .nan
  else if biased = 0 then
    if frac = 0 then .zero negative
    else .finite negative ⟨frac, -1074, false⟩
  else
    .finite negative ⟨frac + Nat.pow 2 52, (biased : Int) - 1075, frac = 0 && biased > 1⟩

/-- A positive rational `num / den` on natural numbers. -/
structure Ratio where
  num : Nat
  den : Nat
  deriving Repr

/-- The ratio `10^k`, for any integer `k`. -/
def Ratio.tenPow (k : Int) : Ratio :=
  if 0 ≤ k then ⟨Nat.pow 10 k.toNat, 1⟩ else ⟨1, Nat.pow 10 (-k).toNat⟩

/-- The ratio `2^k`, for any integer `k`. -/
def Ratio.twoPow (k : Int) : Ratio :=
  if 0 ≤ k then ⟨Nat.pow 2 k.toNat, 1⟩ else ⟨1, Nat.pow 2 (-k).toNat⟩

/-- Compares two ratios with positive denominators by cross multiplication. -/
def Ratio.cmp (a b : Ratio) : Ordering :=
  compare (a.num * b.den) (b.num * a.den)

/-- Scales a ratio by a natural number. -/
def Ratio.scale (a : Ratio) (n : Nat) : Ratio := ⟨a.num * n, a.den⟩

/-- Multiplies two ratios. -/
def Ratio.mul (a b : Ratio) : Ratio := ⟨a.num * b.num, a.den * b.den⟩

/-- The value of a binary double as a ratio. -/
def Binary.value (b : Binary) : Ratio := (Ratio.twoPow b.exp).scale b.mant

/-- The lower end of the rounding interval. -/
def Binary.lower (b : Binary) : Ratio :=
  let gap := if b.narrowBelow then 1 else 2
  (Ratio.twoPow (b.exp - 2)).scale (4 * b.mant - gap)

/-- The upper end of the rounding interval. -/
def Binary.upper (b : Binary) : Ratio :=
  (Ratio.twoPow (b.exp - 2)).scale (4 * b.mant + 2)

/-- Whether a ratio lies in the rounding interval of a double, ends included iff the
mantissa is even. -/
def Binary.admits (b : Binary) (r : Ratio) : Bool :=
  let closed := b.mant % 2 == 0
  let lo := (b.lower).cmp r
  let hi := r.cmp b.upper
  (lo == .lt || (closed && lo == .eq)) && (hi == .lt || (closed && hi == .eq))

/-- The integer part of a ratio. -/
def Ratio.floor (r : Ratio) : Nat := r.num / r.den

/-- The decimal exponent of the leading digit: the `e` with `10^e ≤ v < 10^(e+1)`.
Starts from an estimate by bit lengths and corrects it by a few comparisons. -/
def leadExponent (v : Ratio) : Int :=
  let est : Int := ((Nat.log2 v.num : Int) - (Nat.log2 v.den : Int)) * 30103 / 100000
  let fix : Nat → Int → Int := fun fuel e =>
    (List.range fuel).foldl (fun e _ =>
      if (Ratio.tenPow e).cmp v == .gt then e - 1
      else if (Ratio.tenPow (e + 1)).cmp v != .gt then e + 1
      else e) e
  fix 8 est

/-- The decimal digits of a natural number, most significant first. -/
def digitsOf (n : Nat) : List Nat :=
  (Nat.toDigits 10 n).map (fun c => c.toNat - '0'.toNat)

/-- Drops trailing zero digits, keeping at least one digit. -/
def trimZeros (ds : List Nat) : List Nat :=
  match (ds.reverse.dropWhile (· == 0)).reverse with
  | [] => [0]
  | r => r

/-- A decimal `digits · 10^(point - length digits)`: the digit string has no trailing zero,
and `point` says after how many digits the decimal point stands. -/
structure Digits where
  digits : List Nat
  point : Int
  deriving Repr, BEq

/-- Normalises a candidate `d · 10^k` into digits and the place of the point. -/
def Digits.ofScaled (d : Nat) (k : Int) : Digits :=
  let ds := digitsOf d
  ⟨trimZeros ds, (ds.length : Int) + k⟩

/-- The candidate on the grid of `n` significant digits: both neighbours of the value on
that grid, filtered by the interval, the nearer first (an exact tie takes the even one). -/
def candidate (b : Binary) (lead : Int) (n : Nat) : Option Digits :=
  let v := b.value
  let k := lead - (n : Int) + 1
  let unit := Ratio.tenPow k
  -- v / 10^k, floored
  let q := (v.mul ⟨unit.den, unit.num⟩).floor
  let down := unit.scale q
  let up := unit.scale (q + 1)
  let okDown := q > 0 && b.admits down
  let okUp := b.admits up
  if okDown && okUp then
    -- distances v - down and up - v, compared over a common denominator
    let dDown := v.num * down.den * up.den - down.num * v.den * up.den
    let dUp := up.num * v.den * down.den - v.num * up.den * down.den
    if dDown < dUp then some (Digits.ofScaled q k)
    else if dUp < dDown then some (Digits.ofScaled (q + 1) k)
    else if q % 2 == 0 then some (Digits.ofScaled q k)
    else some (Digits.ofScaled (q + 1) k)
  else if okDown then some (Digits.ofScaled q k)
  else if okUp then some (Digits.ofScaled (q + 1) k)
  else none

/-- The shortest digits that read back as the double: the first grid of 1 to 17 digits
with a point in the rounding interval. Seventeen digits always suffice. -/
def shortest (b : Binary) : Digits :=
  let lead := leadExponent b.value
  let found := (List.range 17).findSome? (fun i => candidate b lead (i + 1))
  match found with
  | some d => d
  | none => Digits.ofScaled ((b.value.mul (Ratio.tenPow (16 - lead))).floor) (lead - 16)

end SpeechStream.Decimal
