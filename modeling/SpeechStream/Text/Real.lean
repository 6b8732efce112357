import SpeechStream.Text.Blank
import SpeechStream.Text.Digit
import SpeechStream.Document.Json
/-!
Real numbers written as text.

A real-number text is, after dropping blank characters at both ends, an optional sign followed
by an infinity (`inf` or `infinity`), a NaN (`nan`), or a decimal number: digits with an
optional fraction after a point (at least one digit on one side of it) and an optional
exponent `e` or `E` with an optional sign and digits. Letters may be of either case; digits
may be of any script, and a single underscore may stand between two digits. The value is the
double nearest to the decimal number.
-/

set_option autoImplicit false

namespace SpeechStream.Text

/-- Reads digits with single underscores between them, most significant first; returns the
digits' values and the characters after them. An underscore is taken only after a digit and
before another. -/
def digitRun : List Char → Bool → List Nat × List Char
  | [], _ => ([], [])
  | c :: rest, afterDigit =>
    match digitValue? c with
    | some d =>
      let (ds, r) := digitRun rest true
      (d :: ds, r)
    | none =>
      let nextIsDigit := match rest with
        | c2 :: _ => (digitValue? c2).isSome
        | [] => false
      if c == '_' && afterDigit && nextIsDigit then digitRun rest false
      else ([], c :: rest)

/-- The number digits stand for. -/
def digitsValue (ds : List Nat) : Nat := ds.foldl (fun acc d => acc * 10 + d) 0

/-- Splits off a leading sign: whether it was a minus, and the rest. -/
def splitSign : List Char → Bool × List Char
  | '-' :: rest => (true, rest)
  | '+' :: rest => (false, rest)
  | cs => (false, cs)

/-- The exponent part of a decimal number: none for an empty text, nothing when it is not an
exponent. -/
def exponentPart : List Char → Option Int
  | [] => some 0
  | e :: rest =>
    if e == 'e' || e == 'E' then
      let (neg, body) := splitSign rest
      let (ds, after) := digitRun body false
      if ds.isEmpty || !after.isEmpty then none
      else
        let v : Int := digitsValue ds
        some (if neg then -v else v)
    else none

/-- The double a real-number text stands for, or nothing if the text is not a real number. -/
def parseReal? (s : String) : Option Float :=
  let (neg, body) := splitSign (stripBlank s).toList
  let signed (x : Float) : Float := if neg then -x else x
  let word := String.ofList (body.map Char.toLower)
  if word == "inf" || word == "infinity" then some (signed (1.0 / 0.0))
  else if word == "nan" then some (0.0 / 0.0)
  else
    let (whole, afterWhole) := digitRun body false
    let (frac, afterFrac) := match afterWhole with
      | '.' :: rest => digitRun rest false
      | rest => ([], rest)
    if whole.isEmpty && frac.isEmpty then none
    else (exponentPart afterFrac).map (fun e =>
      signed (Json.decimalToFloat (digitsValue (whole ++ frac)) (e - frac.length)))

end SpeechStream.Text
