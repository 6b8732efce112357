import SpeechStream.Document.Basic
import SpeechStream.Decimal.Layout
/-!
JSON text of documents.

Reading keeps what a JSON number says about its kind: a number with a fraction or an
exponent is a double, and one without is an integer of any size, so `-0.0` stays a negative
zero and `1e+100` stays a double. The words `NaN`, `Infinity` and `-Infinity` are read as
doubles too.

Writing gives one line. Doubles take the fewest digits that read back (`numberLayout`);
the values that are not finite are written as the texts `"nan"`, `"inf"` and `"-inf"`, since
JSON has no numbers for them. Text is written in ASCII, other characters as `\uXXXX`
escapes, by UTF-16 units.
-/

set_option autoImplicit false

namespace SpeechStream

open Decimal

/-- Doubles are written with the fewest digits that read back, positionally when the
decimal point falls after at most 16 digits and no more than four zeros follow it, with
`.0` on integral values, and otherwise with an exponent of at least two digits and its sign:
`0.0001`, `1e-05`, `1e+16`, `123.0`. -/
def numberLayout : Layout := ⟨-4, 16, true, "e", 2, true, "nan", "inf"⟩

namespace Json

/-- Drops JSON white space. -/
def skipWs : List Char → List Char
  | ' ' :: rest | '\n' :: rest | '\r' :: rest | '\t' :: rest => skipWs rest
  | cs => cs

/-- The value of a hexadecimal digit. -/
def hexValue? (c : Char) : Option Nat :=
  if '0' ≤ c && c ≤ '9' then some (c.toNat - '0'.toNat)
  else if 'a' ≤ c && c ≤ 'f' then some (c.toNat - 'a'.toNat + 10)
  else if 'A' ≤ c && c ≤ 'F' then some (c.toNat - 'A'.toNat + 10)
  else none

/-- The value of four hexadecimal digits. -/
def hexOf4 (a b c d : Char) : Option Nat := do
  let x ← hexValue? a
  let y ← hexValue? b
  let z ← hexValue? c
  let w ← hexValue? d
  pure (((x * 16 + y) * 16 + z) * 16 + w)

/-- Reads the body of a string after its opening quote; characters are collected in
reverse. A surrogate escape that is not part of a pair becomes the replacement character. -/
def readString : List Char → List Char → Except String (String × List Char)
  | acc, '"' :: rest => .ok (String.ofList acc.reverse, rest)
  | acc, '\\' :: 'u' :: a :: b :: c :: d :: rest =>
    match hexOf4 a b c d with
    | none => .error "bad unicode escape"
    | some hi =>
      if 0xD800 ≤ hi && hi < 0xDC00 then
        match _hr : rest with
        | '\\' :: 'u' :: e :: f :: g :: h :: more =>
          match hexOf4 e f g h with
          | some lo =>
            if 0xDC00 ≤ lo && lo < 0xE000 then
              readString (Char.ofNat (0x10000 + (hi - 0xD800) * 0x400 + (lo - 0xDC00)) :: acc) more
            else readString ('\uFFFD' :: acc) rest
          | none => readString ('\uFFFD' :: acc) rest
        | _ => readString ('\uFFFD' :: acc) rest
      else if 0xDC00 ≤ hi && hi < 0xE000 then readString ('\uFFFD' :: acc) rest
      else readString (Char.ofNat hi :: acc) rest
  | acc, '\\' :: c :: rest =>
    match c with
    | '"' => readString ('"' :: acc) rest
    | '\\' => readString ('\\' :: acc) rest
    | '/' => readString ('/' :: acc) rest
    | 'b' => readString ('\x08' :: acc) rest
    | 'f' => readString ('\x0c' :: acc) rest
    | 'n' => readString ('\n' :: acc) rest
    | 'r' => readString ('\r' :: acc) rest
    | 't' => readString ('\t' :: acc) rest
    | _ => .error "bad escape"
  | acc, c :: rest => readString (c :: acc) rest
  | _, [] => .error "unterminated string"
termination_by _ cs => cs.length
decreasing_by all_goals (simp_all; try omega)

/-- A run of decimal digits as a number and its length. -/
def digitRun (cs : List Char) : Nat × Nat :=
  cs.foldl (fun (acc : Nat × Nat) c => (acc.1 * 10 + (c.toNat - '0'.toNat), acc.2 + 1)) (0, 0)

/-- The double nearest to `m · 10^e`. Exponents far outside the range of doubles give an
infinity or zero at once. -/
def decimalToFloat (m : Nat) (e : Int) : Float :=
  let width : Int := (Nat.toDigits 10 m).length
  if m = 0 then 0.0
  else if e + width > 311 then Float.ofScientific 1 false 400
  else if e + width < -330 then 0.0
  else if e ≥ 0 then Float.ofScientific m false e.toNat
  else Float.ofScientific m true (-e).toNat

/-- Reads a number: an optional minus, digits, an optional fraction, an optional exponent. -/
def readNumber (cs : List Char) : Except String (Value × List Char) :=
  let (neg, cs) := match cs with
    | '-' :: rest => (true, rest)
    | _ => (false, cs)
  let intDigits := cs.takeWhile Char.isDigit
  let cs := cs.dropWhile Char.isDigit
  if intDigits.isEmpty then .error "bad number"
  else
    let (fracDigits, cs, hasFrac) := match cs with
      | '.' :: rest => (rest.takeWhile Char.isDigit, rest.dropWhile Char.isDigit, true)
      | _ => ([], cs, false)
    let (expPart, cs, hasExp) := match cs with
      | 'e' :: rest | 'E' :: rest =>
        let (eneg, rest) := match rest with
          | '-' :: r => (true, r)
          | '+' :: r => (false, r)
          | r => (false, r)
        let ds := rest.takeWhile Char.isDigit
        (some (eneg, ds), rest.dropWhile Char.isDigit, true)
      | _ => (none, cs, false)
    if !hasFrac && !hasExp then
      let n : Int := (digitRun intDigits).1
      .ok (.int (if neg then -n else n), cs)
    else if hasFrac && fracDigits.isEmpty then .error "bad number"
    else
      let (m, _) := digitRun (intDigits ++ fracDigits)
      let e10 : Int := match expPart with
        | some (eneg, ds) => let v : Int := (digitRun ds).1; if eneg then -v else v
        | none => 0
      let x := decimalToFloat m (e10 - fracDigits.length)
      .ok (.float (if neg then -x else x), cs)

/-- Reads a value, with fuel bounding the nesting and the number of items. -/
def readValue : Nat → List Char → Except String (Value × List Char)
  | 0, _ => .error "input too deeply nested"
  | fuel + 1, cs =>
    match skipWs cs with
    | 'n' :: 'u' :: 'l' :: 'l' :: rest => .ok (.null, rest)
    | 't' :: 'r' :: 'u' :: 'e' :: rest => .ok (.bool true, rest)
    | 'f' :: 'a' :: 'l' :: 's' :: 'e' :: rest => .ok (.bool false, rest)
    | 'N' :: 'a' :: 'N' :: rest => .ok (.float (0.0 / 0.0), rest)
    | 'I' :: 'n' :: 'f' :: 'i' :: 'n' :: 'i' :: 't' :: 'y' :: rest =>
      .ok (.float (1.0 / 0.0), rest)
    | '-' :: 'I' :: 'n' :: 'f' :: 'i' :: 'n' :: 'i' :: 't' :: 'y' :: rest =>
      .ok (.float (-1.0 / 0.0), rest)
    | '"' :: rest => do
      let (s, rest) ← readString [] rest
      pure (.str s, rest)
    | '[' :: rest =>
      match skipWs rest with
      | ']' :: rest => .ok (.list [], rest)
      | _ => readItems fuel rest []
    | '{' :: rest =>
      match skipWs rest with
      | '}' :: rest => .ok (.map [], rest)
      | _ => readEntries fuel rest []
    | cs => readNumber cs
where
  /-- Items of an array after `[`, collected in reverse. -/
  readItems : Nat → List Char → List Value → Except String (Value × List Char)
    | 0, _, _ => .error "input too deeply nested"
    | fuel + 1, cs, acc => do
      let (v, rest) ← readValue fuel cs
      match skipWs rest with
      | ',' :: rest => readItems fuel rest (v :: acc)
      | ']' :: rest => pure (.list (v :: acc).reverse, rest)
      | _ => throw "expected , or ]"
  /-- Entries of an object after the brace, collected in order. -/
  readEntries : Nat → List Char → List (Value × Value) → Except String (Value × List Char)
    | 0, _, _ => .error "input too deeply nested"
    | fuel + 1, cs, acc =>
      match skipWs cs with
      | '"' :: rest => do
        let (k, rest) ← readString [] rest
        match skipWs rest with
        | ':' :: rest => do
          let (v, rest) ← readValue fuel rest
          let acc := Value.putEntry k v acc
          match skipWs rest with
          | ',' :: rest => readEntries fuel rest acc
          | '}' :: rest => pure (.map acc, rest)
          | _ => throw "expected , or \x7d"
        | _ => throw "expected :"
      | _ => .error "expected a key"

/-- Reads one JSON document that fills the whole text. -/
def parse (s : String) : Except String Value := do
  let cs := s.toList
  let (v, rest) ← readValue (2 * cs.length + 2) cs
  if (skipWs rest).isEmpty then pure v else throw "trailing text"

/-- Escapes text for a JSON string in ASCII. -/
def escapeChar (c : Char) : String :=
  let unit (n : Nat) : String :=
    let ds := Nat.toDigits 16 n
    "\\u" ++ String.ofList (List.replicate (4 - ds.length) '0' ++ ds)
  match c with
  | '"' => "\\\""
  | '\\' => "\\\\"
  | '\n' => "\\n"
  | '\r' => "\\r"
  | '\t' => "\\t"
  | '\x08' => "\\b"
  | '\x0c' => "\\f"
  | _ =>
    let n := c.toNat
    if n < 0x20 then unit n
    else if n < 0x7F then String.singleton c
    else if n < 0x10000 then unit n
    else
      let m := n - 0x10000
      unit (0xD800 + m / 0x400) ++ unit (0xDC00 + m % 0x400)

/-- A JSON string literal. -/
def quote (s : String) : String :=
  "\"" ++ String.join (s.toList.map escapeChar) ++ "\""

/-- A double as JSON: a number when finite, else one of the texts `"nan"`, `"inf"`, `"-inf"`. -/
def number (x : Float) : String :=
  if x.isNaN then "\"nan\""
  else if x.isInf then (if x < 0 then "\"-inf\"" else "\"inf\"")
  else numberLayout.render x

/-- Text of an integer. -/
def intText (n : Int) : String :=
  (if n < 0 then "-" else "") ++ natText n.natAbs

mutual
/-- The JSON text of a value. Mapping keys that are not texts are written as their JSON text
inside a string. -/
def render : Value → String
  | .null => "null"
  | .bool b => if b then "true" else "false"
  | .int n => intText n
  | .float x => number x
  | .str s => quote s
  | .list xs => "[" ++ renderItems xs ++ "]"
  | .map es => "\x7b" ++ renderEntries es ++ "\x7d"
/-- Items separated by commas. -/
def renderItems : List Value → String
  | [] => ""
  | [x] => render x
  | x :: rest => render x ++ ", " ++ renderItems rest
/-- Entries separated by commas. -/
def renderEntries : List (Value × Value) → String
  | [] => ""
  | [e] => renderEntry e
  | e :: rest => renderEntry e ++ ", " ++ renderEntries rest
/-- One entry. -/
def renderEntry : Value × Value → String
  | (.str k, v) => quote k ++ ": " ++ render v
  | (k, v) => quote (render k) ++ ": " ++ render v
end

end Json

end SpeechStream
