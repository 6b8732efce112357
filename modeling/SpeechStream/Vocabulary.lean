import SpeechStream.Text.Blank
import SpeechStream.Text.Integer
import SpeechStream.Fault
/-!
Vocabularies: token ids and the symbols they stand for.

A vocabulary file has one `<symbol> <id>` per line. Lines end at a line feed, a carriage
return followed by a line feed, or a lone carriage return. Each line is cut into its words at
blank characters; a line without words is skipped, a line with other than two words is a
fault that names the line (counted from one, blank lines included), and the id must be an
integer text. A later line for the same id replaces the symbol.

A sentence joins the symbols of its tokens (an unknown id contributes nothing), turns every
word-boundary mark `▁` into a space and drops blanks at both ends.
-/

set_option autoImplicit false

namespace SpeechStream

/-- A vocabulary: ids with their symbols, each id once, in the order ids first appeared. -/
structure Vocabulary where
  entries : List (Int × String)
  deriving Inhabited

namespace Vocabulary

/-- The empty vocabulary. -/
def empty : Vocabulary := ⟨[]⟩

/-- Sets the symbol of an id: a known id keeps its place, a new one goes last. -/
def insert (v : Vocabulary) (id : Int) (sym : String) : Vocabulary :=
  if v.entries.any (fun e => e.1 == id) then
    ⟨v.entries.map (fun e => if e.1 == id then (id, sym) else e)⟩
  else ⟨v.entries ++ [(id, sym)]⟩

/-- A vocabulary from pairs, later pairs winning. -/
def ofList (pairs : List (Int × String)) : Vocabulary :=
  pairs.foldl (fun v p => v.insert p.1 p.2) empty

/-- The number of ids. -/
def size (v : Vocabulary) : Nat := v.entries.length

/-- The symbol of an id, or the empty text for an unknown id. -/
def find (v : Vocabulary) (id : Int) : String :=
  match v.entries.find? (fun e => e.1 == id) with
  | some e => e.2
  | none => ""

/-- The word-boundary mark of subword units. -/
def boundary : Char := '▁'

/-- The sentence a token sequence spells. -/
def sentence (v : Vocabulary) (tokens : List Int) : String :=
  let text := String.join (tokens.map v.find)
  Text.stripBlank (String.ofList (text.toList.map (fun c => if c == boundary then ' ' else c)))

/-- Reads one line into the vocabulary; `file` and `lineNo` name it in a fault. -/
def readLine (file : String) (v : Vocabulary) (lineNo : Nat) (line : String) :
    Except Fault Vocabulary :=
  match Text.words line with
  | [] => .ok v
  | [sym, idText] =>
    match Text.readInt idText with
    | .value id => .ok (v.insert id sym)
    | .invalid => .error (.badInteger idText)
    | .tooLong => .error .integerTooLong
  | _ => .error (.badUnitsLine file lineNo (Text.stripBlank line))

/-- Reads a vocabulary file's text. -/
def ofText (file : String) (text : String) : Except Fault Vocabulary :=
  (Text.lines text).zipIdx.foldlM (fun v (line, i) => readLine file v (i + 1) line) empty

/-- Reads a vocabulary file's bytes, which must be UTF-8. -/
def ofBytes (file : String) (bytes : ByteArray) : Except Fault Vocabulary :=
  match String.fromUTF8? bytes with
  | some text => ofText file text
  | none => .error .badEncoding

/-- The entries ordered by id. -/
def sorted (v : Vocabulary) : List (Int × String) :=
  v.entries.mergeSort (fun a b => a.1 ≤ b.1)

end Vocabulary

end SpeechStream
