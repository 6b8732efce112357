import SpeechStream.Decimal.Shortest
import SpeechStream.Decimal.Layout
/-!
Decimal text with a fixed number of places.

The exact binary value is rounded to the nearest multiple of `10^-places`, a tie going to
the even neighbour. The sign is written whenever the double is negative, also when the
rounded value is zero, so `-0.0001` at three places is `-0.000`. Reading the text back gives
the nearest double to the rounded decimal.
-/

set_option autoImplicit false

namespace SpeechStream.Decimal

/-- The natural number nearest to `num / den`, a tie going to the even one. -/
def roundHalfEven (num den : Nat) : Nat :=
  let q := num / den
  let r := num % den
  if 2 * r < den then q
  else if 2 * r > den then q + 1
  else if q % 2 == 0 then q else q + 1

/-- The magnitude of a finite double in units of `10^-places`, rounded half to even. -/
def Binary.scaledRound (b : Binary) (places : Nat) : Nat :=
  let v := b.value.scale (Nat.pow 10 places)
  roundHalfEven v.num v.den

/-- Text of `units · 10^-places` with exactly `places` digits after the point. -/
def placesText (units places : Nat) : String :=
  let whole := natText (units / Nat.pow 10 places)
  if places = 0 then whole
  else whole ++ "." ++ padZeros places (natText (units % Nat.pow 10 places))

/-- The fixed-place text of a double; the non-finite values are `nan`, `inf`, `-inf`. -/
def fixedText (places : Nat) (x : Float) : String :=
  match Shape.ofFloat x with
  | .nan => "nan"
  | .infinite neg => if neg then "-inf" else "inf"
  | .zero neg => (if neg then "-" else "") ++ placesText 0 places
  | .finite neg b => (if neg then "-" else "") ++ placesText (b.scaledRound places) places

/-- Rounds a double to `places` decimals and reads the result back as a double. A rounded
zero is the positive zero; non-finite values pass through. -/
def roundPlaces (places : Nat) (x : Float) : Float :=
  match Shape.ofFloat x with
  | .nan | .infinite _ => x
  | .zero _ => 0.0
  | .finite neg b =>
    let units := b.scaledRound places
    if units = 0 then 0.0
    else
      let y := Float.ofScientific units true places
      if neg then -y else y

end SpeechStream.Decimal
