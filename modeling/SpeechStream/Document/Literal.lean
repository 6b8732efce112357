import SpeechStream.Document.Basic
import SpeechStream.Document.Json
import SpeechStream.Text.Quoted
/-!
Literal text of documents, as messages quote the values they complain about.

Nothing is `None`, truth values are `True` and `False`, texts are quoted literals, doubles
take the fewest digits that read back (`nan`, `inf` and `-inf` when not finite), lists are
`[a, b]` and mappings `{k: v}`, with `, ` between items.
-/

set_option autoImplicit false

namespace SpeechStream

namespace Literal

mutual
/-- The literal text of a value. -/
def render : Value → String
  | .null => "None"
  | .bool b => if b then "True" else "False"
  | .int n => Json.intText n
  | .float x => numberLayout.render x
  | .str s => Text.quoted s
  | .list xs => "[" ++ renderItems xs ++ "]"
  | .map es => "\x7b" ++ renderEntries es ++ "\x7d"
/-- Items separated by commas. -/
def renderItems : List Value → String
  | [] => ""
  | [x] => render x
  | x :: rest => render x ++ ", " ++ renderItems rest
/-- Entries separated by commas. -/
def renderEntries : List (Value × Value) → String
  | [] => ""
  | [e] => renderEntry e
  | e :: rest => renderEntry e ++ ", " ++ renderEntries rest
/-- One entry. -/
def renderEntry : Value × Value → String
  | (k, v) => render k ++ ": " ++ render v
end

/-- The text a value shows when written into a message: a text as it is, anything else as its
literal. -/
def plain : Value → String
  | .str s => s
  | v => render v

/-- A list of texts as a literal, as in `['a', 'b']`. -/
def texts (ss : List String) : String :=
  render (.list (ss.map .str))

/-- A tuple of natural numbers: `()`, `(3,)`, `(2, 4)`. -/
def tuple (ns : List Nat) : String :=
  match ns with
  | [n] => "(" ++ Decimal.natText n ++ ",)"
  | _ => "(" ++ String.intercalate ", " (ns.map Decimal.natText) ++ ")"

end Literal

end SpeechStream
