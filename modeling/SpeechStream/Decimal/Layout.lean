import SpeechStream.Decimal.Shortest
/-!
How shortest digits are laid out as text.

A layout fixes where positional notation stops, whether an integral value keeps a `.0`,
how the exponent is written, and the words for the values that are not finite. The digits
themselves always come from `shortest`.
-/

set_option autoImplicit false

namespace SpeechStream.Decimal

/-- The choices a decimal printer makes around the digits. -/
structure Layout where
  /-- Positional notation is used when `lowPoint < point ≤ highPoint`. -/
  lowPoint : Int
  highPoint : Int
  /-- Keep `.0` on an integral value written positionally. -/
  pointZero : Bool
  /-- The exponent mark, the least number of exponent digits, and whether `+` is written. -/
  mark : String
  expDigits : Nat
  plusSign : Bool
  nanText : String
  infText : String

/-- Text of a natural number in decimal. -/
def natText (n : Nat) : String := String.ofList (Nat.toDigits 10 n)

/-- Digits as characters. -/
def digitText (ds : List Nat) : String :=
  String.ofList (ds.map (fun d => Char.ofNat (d + '0'.toNat)))

/-- Left-pads a text with zeros to a width. -/
def padZeros (width : Nat) (s : String) : String :=
  String.ofList (List.replicate (width - s.length) '0') ++ s

/-- Lays out positive shortest digits. -/
def Layout.digits (l : Layout) (d : Digits) : String :=
  let ds := d.digits
  let n := ds.length
  if l.lowPoint < d.point && d.point ≤ l.highPoint then
    if d.point ≤ 0 then
      "0." ++ String.ofList (List.replicate (-d.point).toNat '0') ++ digitText ds
    else
      let p := d.point.toNat
      if p ≥ n then
        digitText ds ++ String.ofList (List.replicate (p - n) '0') ++
          (if l.pointZero then ".0" else "")
      else
        digitText (ds.take p) ++ "." ++ digitText (ds.drop p)
  else
    let e := d.point - 1
    let mant := match ds with
      | [] => "0"
      | [a] => digitText [a]
      | a :: rest => digitText [a] ++ "." ++ digitText rest
    let sign := if e < 0 then "-" else if l.plusSign then "+" else ""
    mant ++ l.mark ++ sign ++ padZeros l.expDigits (natText e.natAbs)

/-- The text of a double under a layout. -/
def Layout.render (l : Layout) (x : Float) : String :=
  match Shape.ofFloat x with
  | .nan => l.nanText
  | .infinite neg => (if neg then "-" else "") ++ l.infText
  | .zero neg => (if neg then "-" else "") ++ (if l.pointZero then "0.0" else "0")
  | .finite neg b => (if neg then "-" else "") ++ l.digits (shortest b)

end SpeechStream.Decimal
