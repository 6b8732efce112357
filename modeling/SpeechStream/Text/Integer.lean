import SpeechStream.Text.Blank
import SpeechStream.Text.Digit
/-!
Integers written as text.

An integer text is, after dropping blank characters at both ends, an optional sign followed
by decimal digits of any script, where a single underscore may stand between two digits.
Leading zeros are allowed. Nothing else is an integer: no empty text, no point, no exponent,
no base prefix, no underscore at either end or doubled.
-/

set_option autoImplicit false

namespace SpeechStream.Text

/-- The most digits an integer text may have. Longer texts are refused, so that reading
stays cheap on hostile input. -/
def digitLimit : Nat := 4300

/-- What reading an integer text gives: its value, a text that is no integer, or an
integer with more than `digitLimit` digits. -/
inductive IntText where
  | value (n : Int)
  | invalid
  | tooLong
  deriving BEq, Repr

/-- Reads digit characters with single underscores between them, most significant first,
into a value and a digit count. The flag says whether the last character read was a digit. -/
def readDigits : List Char → Nat × Nat → Bool → Option (Nat × Nat)
  | [], acc, lastDigit => if lastDigit then some acc else none
  | '_' :: rest, acc, lastDigit => if lastDigit then readDigits rest acc false else none
  | c :: rest, acc, _ =>
    match digitValue? c with
    | some d => readDigits rest (acc.1 * 10 + d, acc.2 + 1) true
    | none => none

/-- Reads an integer text. -/
def readInt (s : String) : IntText :=
  let (neg, cs) := match (stripBlank s).toList with
    | '-' :: rest => (true, rest)
    | '+' :: rest => (false, rest)
    | cs => (false, cs)
  match readDigits cs (0, 0) false with
  | none => .invalid
  | some (n, count) =>
    if count > digitLimit then .tooLong
    else .value (if neg then -(n : Int) else n)

/-- The integer written by a text, or nothing if the text is not an integer. -/
def parseInt? (s : String) : Option Int :=
  match readInt s with
  | .value n => some n
  | _ => none

end SpeechStream.Text
