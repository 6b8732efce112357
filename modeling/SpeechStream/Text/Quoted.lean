import SpeechStream.Text.Printable
/-!
Quoted text literals.

A text is written between single quotes, or between double quotes when it holds a single
quote and no double quote. Inside, the backslash and the chosen quote are escaped, tab, line
feed and carriage return have their letter escapes, and every other non-printable character
is written by its code: `\xNN` below 256, `\uNNNN` below 65536, `\UNNNNNNNN` above, in lower
case hexadecimal.
-/

set_option autoImplicit false

namespace SpeechStream.Text

/-- Lower-case hexadecimal digits of a number, left-padded with zeros to a width. -/
def hexPad (width n : Nat) : String :=
  let ds := Nat.toDigits 16 n
  String.ofList (List.replicate (width - ds.length) '0' ++ ds)

/-- The escape of one character inside a literal quoted by `q`. -/
def escapeChar (q : Char) (c : Char) : String :=
  if c == q || c == '\\' then String.ofList ['\\', c]
  else if c == '\t' then "\\t"
  else if c == '\n' then "\\n"
  else if c == '\r' then "\\r"
  else
    let n := c.toNat
    if n < 0x20 || n == 0x7F then "\\x" ++ hexPad 2 n
    else if n < 0x7F then String.singleton c
    else if isPrintable c then String.singleton c
    else if n < 0x100 then "\\x" ++ hexPad 2 n
    else if n < 0x10000 then "\\u" ++ hexPad 4 n
    else "\\U" ++ hexPad 8 n

/-- The quote a literal of this text uses. -/
def quoteFor (s : String) : Char :=
  if s.contains '\'' && !s.contains '"' then '"' else '\''

/-- The quoted literal of a text. -/
def quoted (s : String) : String :=
  let q := quoteFor s
  String.singleton q ++ String.join (s.toList.map (escapeChar q)) ++ String.singleton q

end SpeechStream.Text
