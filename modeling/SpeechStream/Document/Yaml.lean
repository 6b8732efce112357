import SpeechStream.Document.Basic
import SpeechStream.Document.Json
import SpeechStream.Text.Blank
/-!
YAML configuration files.

The reader covers the block and flow styles that configuration files use: mappings and
sequences by indentation, `[...]` and `{...}` inline, plain, single-quoted and double-quoted
scalars, and comments. An empty document is `null`.

Plain scalars are typed by the YAML 1.1 rules: `~`, `null` and the empty scalar are null;
`true`/`false`, `yes`/`no` and `on`/`off` (in lower, title or upper case) are truth values;
integers may carry a sign, underscores and the prefixes `0b`, `0x` or a leading `0` for
octal, and base-60 groups `1:30`; a double needs a point (`1.5`, `1.`, `.5`, with an optional
exponent that has a sign), or is `.inf`, `-.inf`, `.nan`. Everything else is text, so `1e3`
is the text "1e3".
-/

set_option autoImplicit false

namespace SpeechStream

namespace Yaml

/-- A line of a block: its indentation and its content without the comment. -/
structure Line where
  indent : Nat
  text : List Char

/-- Drops a comment: a `#` at the start or after a blank, outside quotes. -/
def stripComment : List Char → Option Char → Bool → List Char
  | [], _, _ => []
  | c :: rest, none, afterBlank =>
    if c == '#' && afterBlank then []
    else if c == '\'' || c == '"' then c :: stripComment rest (some c) false
    else c :: stripComment rest none (c == ' ' || c == '\t')
  | c :: rest, some q, _ =>
    if c == q then c :: stripComment rest none false
    else c :: stripComment rest (some q) false

/-- Drops trailing spaces and tabs. -/
def trimRight (cs : List Char) : List Char :=
  (cs.reverse.dropWhile (fun c => c == ' ' || c == '\t')).reverse

/-- Drops leading spaces and tabs. -/
def trimLeft (cs : List Char) : List Char :=
  cs.dropWhile (fun c => c == ' ' || c == '\t')

/-- The content lines of a document: comments, blank lines and document markers dropped. -/
def contentLines (s : String) : List Line :=
  (Text.lines s).filterMap (fun l =>
    let cs := l.toList
    let indent := (cs.takeWhile (· == ' ')).length
    let body := trimRight (stripComment (cs.drop indent) none true)
    if body.isEmpty || body == ['-', '-', '-'] || body == ['.', '.', '.'] then none
    else some ⟨indent, body⟩)

/-- Whether text is made of characters of a class, and not empty. -/
def allOf (p : Char → Bool) (cs : List Char) : Bool := !cs.isEmpty && cs.all p

/-- A natural number in a base from digits, underscores skipped. -/
def natInBase (base : Nat) (cs : List Char) : Nat :=
  cs.foldl (fun acc c =>
    match Json.hexValue? c with
    | some d => acc * base + d
    | none => acc) 0

/-- Base-60 groups such as `1:30:05`, as a natural number. -/
def sexagesimal (cs : List Char) : Nat :=
  (cs.splitOn ':').foldl (fun acc g => acc * 60 + natInBase 10 g) 0

/-- A digit of `0` to `7`. -/
def isOctal (c : Char) : Bool := '0' ≤ c && c ≤ '7'

/-- A hexadecimal digit. -/
def isHex (c : Char) : Bool := (Json.hexValue? c).isSome

/-- A base-60 group after a colon: one or two digits, the first below 6 if there are two. -/
def isSixtyGroup (g : List Char) : Bool :=
  match g with
  | [d] => d.isDigit
  | [a, b] => '0' ≤ a && a ≤ '5' && b.isDigit
  | _ => false

/-- Splits an optional sign. -/
def splitSign : List Char → Bool × List Char
  | '-' :: rest => (true, rest)
  | '+' :: rest => (false, rest)
  | cs => (false, cs)

/-- Digits and underscores, starting with a digit. -/
def isDigitRun (cs : List Char) : Bool :=
  match cs with
  | c :: _ => c.isDigit && cs.all (fun c => c.isDigit || c == '_')
  | [] => false

/-- The integer a plain scalar writes, if it is one. -/
def plainInt? (cs : List Char) : Option Int :=
  let (neg, body) := splitSign cs
  let signed (n : Nat) : Option Int := some (if neg then -(n : Int) else n)
  match body with
  | '0' :: 'b' :: rest =>
    if allOf (fun c => c == '0' || c == '1' || c == '_') rest then signed (natInBase 2 rest)
    else none
  | '0' :: 'x' :: rest =>
    if allOf (fun c => isHex c || c == '_') rest then signed (natInBase 16 rest) else none
  | ['0'] => signed 0
  | '0' :: rest =>
    if allOf (fun c => isOctal c || c == '_') rest then signed (natInBase 8 rest) else none
  | c :: rest =>
    if '1' ≤ c && c ≤ '9' then
      match (c :: rest).splitOn ':' with
      | [whole] => if whole.all (fun c => c.isDigit || c == '_') then signed (natInBase 10 whole)
                   else none
      | first :: groups =>
        if first.all (fun c => c.isDigit || c == '_') && groups.all isSixtyGroup then
          signed (sexagesimal (c :: rest))
        else none
      | [] => none
    else none
  | [] => none

/-- A double from decimal digits, a fraction and a signed exponent text. -/
def decimalValue (whole frac : List Char) (exp : Int) : Float :=
  let ds := (whole ++ frac).filter Char.isDigit
  let m := natInBase 10 ds
  Json.decimalToFloat m (exp - (frac.filter Char.isDigit).length)

/-- An exponent part `e+5`, `E-12`: the sign is required. -/
def exponent? : List Char → Option Int
  | [] => some 0
  | e :: s :: ds =>
    if (e == 'e' || e == 'E') && (s == '+' || s == '-') && allOf Char.isDigit ds then
      let v : Int := natInBase 10 ds
      some (if s == '-' then -v else v)
    else none
  | _ => none

/-- The double a plain scalar writes, if it is one. -/
def plainFloat? (cs : List Char) : Option Float :=
  let (neg, body) := splitSign cs
  let signed (x : Float) : Option Float := some (if neg then -x else x)
  if body == ['.', 'i', 'n', 'f'] || body == ['.', 'I', 'n', 'f'] || body == ['.', 'I', 'N', 'F']
  then signed (1.0 / 0.0)
  else if !neg && cs.head? != some '+' &&
      (body == ['.', 'n', 'a', 'n'] || body == ['.', 'N', 'a', 'N'] || body == ['.', 'N', 'A', 'N'])
  then some (0.0 / 0.0)
  else
    let whole := body.takeWhile (fun c => c.isDigit || c == '_' || c == ':')
    let rest := body.drop whole.length
    match rest with
    | '.' :: afterPoint =>
      let frac := afterPoint.takeWhile (fun c => c.isDigit || c == '_')
      let expText := afterPoint.drop frac.length
      if whole.contains ':' then
        if isDigitRun (whole.takeWhile (· != ':')) && expText.isEmpty then
          match whole.splitOn ':' with
          | _ :: groups =>
            if groups.all isSixtyGroup then
              let base := sexagesimal whole
              signed ((Float.ofNat base) + decimalValue [] frac 0)
            else none
          | [] => none
        else none
      else if whole.isEmpty then
        -- a leading point needs a digit after it and no sign
        if cs.head? == some '.' && (frac.head?.map Char.isDigit) == some true then
          (exponent? expText).map (fun e => decimalValue [] frac e)
        else none
      else if isDigitRun whole then
        (exponent? expText).bind (fun e => signed (decimalValue whole frac e))
      else none
    | _ => none

/-- The words YAML 1.1 reads as truth values. -/
def boolWord? (cs : List Char) : Option Bool :=
  let s := String.ofList cs
  if ["yes", "Yes", "YES", "true", "True", "TRUE", "on", "On", "ON"].contains s then some true
  else if ["no", "No", "NO", "false", "False", "FALSE", "off", "Off", "OFF"].contains s then
    some false
  else none

/-- Types a plain scalar. -/
def plainValue (cs : List Char) : Value :=
  let s := String.ofList cs
  if ["", "~", "null", "Null", "NULL"].contains s then .null
  else match boolWord? cs with
    | some b => .bool b
    | none =>
      match plainInt? cs with
      | some n => .int n
      | none =>
        match plainFloat? cs with
        | some x => .float x
        | none => .str s

/-- Reads a single-quoted scalar after its quote: a doubled quote is a quote. -/
def singleQuoted : List Char → List Char → Option (String × List Char)
  | acc, '\'' :: '\'' :: rest => singleQuoted ('\'' :: acc) rest
  | acc, '\'' :: rest => some (String.ofList acc.reverse, rest)
  | acc, c :: rest => singleQuoted (c :: acc) rest
  | _, [] => none

/-- Reads a double-quoted scalar after its quote, with backslash escapes. -/
def doubleQuoted : List Char → List Char → Option (String × List Char)
  | acc, '"' :: rest => some (String.ofList acc.reverse, rest)
  | acc, '\\' :: c :: rest =>
    let simple : Option Char := match c with
      | 'n' => some '\n' | 't' => some '\t' | 'r' => some '\r' | '0' => some '\x00'
      | '"' => some '"' | '\\' => some '\\' | '/' => some '/' | ' ' => some ' '
      | 'a' => some '\x07' | 'b' => some '\x08' | 'e' => some '\x1b' | 'f' => some '\x0c'
      | 'v' => some '\x0b' | 'N' => some '\x85' | '_' => some '\xa0'
      | _ => none
    match simple with
    | some ch => doubleQuoted (ch :: acc) rest
    | none =>
      let width := if c == 'x' then 2 else if c == 'u' then 4 else if c == 'U' then 8 else 0
      let ds := rest.take width
      if width > 0 && ds.length == width && ds.all isHex then
        doubleQuoted (Char.ofNat (natInBase 16 ds) :: acc) (rest.drop width)
      else none
  | acc, c :: rest => doubleQuoted (c :: acc) rest
  | _, [] => none
termination_by _ cs => cs.length
decreasing_by all_goals (simp_all; try omega)

/-- Reads a scalar that fills a whole text: quoted or plain. -/
def scalarText (cs : List Char) : Except String Value :=
  match cs with
  | '\'' :: rest =>
    match singleQuoted [] rest with
    | some (s, more) => if (trimLeft more).isEmpty then .ok (.str s) else .error "ScannerError"
    | none => .error "ScannerError"
  | '"' :: rest =>
    match doubleQuoted [] rest with
    | some (s, more) => if (trimLeft more).isEmpty then .ok (.str s) else .error "ScannerError"
    | none => .error "ScannerError"
  | _ => .ok (plainValue cs)

/-- Compares mapping keys the way lookups do: equal scalars are the same key. -/
def sameKey : Value → Value → Bool
  | .str a, .str b => a == b
  | .int a, .int b => a == b
  | .bool a, .bool b => a == b
  | .null, .null => true
  | .float a, .float b => a == b
  | _, _ => false

/-- Puts an entry with any key: a present key keeps its place and takes the new value. -/
def putAny (k v : Value) : List (Value × Value) → List (Value × Value)
  | [] => [(k, v)]
  | (k', w) :: rest => if sameKey k k' then (k', v) :: rest else (k', w) :: putAny k v rest

/-- Reads a flow value, with fuel bounding nesting and items. Plain scalars stop at `,`,
`]`, `}`, and a key also at `: `. -/
def flowValue : Nat → List Char → Except String (Value × List Char)
  | 0, _ => .error "ParserError"
  | fuel + 1, cs =>
    match trimLeft cs with
    | '[' :: rest =>
      match trimLeft rest with
      | ']' :: more => .ok (.list [], more)
      | _ => flowItems fuel rest []
    | '{' :: rest =>
      match trimLeft rest with
      | '}' :: more => .ok (.map [], more)
      | _ => flowEntries fuel rest []
    | '\'' :: rest =>
      match singleQuoted [] rest with
      | some (s, more) => .ok (.str s, more)
      | none => .error "ScannerError"
    | '"' :: rest =>
      match doubleQuoted [] rest with
      | some (s, more) => .ok (.str s, more)
      | none => .error "ScannerError"
    | cs =>
      let stop (c : Char) : Bool := c == ',' || c == ']' || c == '}'
      let rec plain : List Char → List Char × List Char
        | [] => ([], [])
        | ':' :: ' ' :: rest => ([], ':' :: ' ' :: rest)
        | c :: rest =>
          if stop c then ([], c :: rest)
          else let (a, b) := plain rest; (c :: a, b)
      let (text, more) := plain cs
      .ok (plainValue (trimRight text), more)
where
  /-- Items of a flow sequence after `[`, collected in reverse. -/
  flowItems : Nat → List Char → List Value → Except String (Value × List Char)
    | 0, _, _ => .error "ParserError"
    | fuel + 1, cs, acc => do
      let (v, rest) ← flowValue fuel cs
      match trimLeft rest with
      | ',' :: more =>
        match trimLeft more with
        | ']' :: more' => pure (.list (v :: acc).reverse, more')
        | _ => flowItems fuel more (v :: acc)
      | ']' :: more => pure (.list (v :: acc).reverse, more)
      | _ => throw "ParserError"
  /-- Entries of a flow mapping after the brace. -/
  flowEntries : Nat → List Char → List (Value × Value) → Except String (Value × List Char)
    | 0, _, _ => .error "ParserError"
    | fuel + 1, cs, acc => do
      let (k, rest) ← flowValue fuel cs
      let (v, rest) ← match trimLeft rest with
        | ':' :: more =>
          match trimLeft more with
          | ',' :: _ | '}' :: _ => pure (Value.null, trimLeft more)
          | _ => flowValue fuel more
        | more => pure (Value.null, more)
      let acc := putAny k v acc
      match trimLeft rest with
      | ',' :: more =>
        match trimLeft more with
        | '}' :: more' => pure (.map acc, more')
        | _ => flowEntries fuel more acc
      | '}' :: more => pure (.map acc, more)
      | _ => throw "ParserError"

/-- Reads the value written on the rest of a line: a flow collection or a scalar. -/
def inlineValue (cs : List Char) : Except String Value :=
  match cs with
  | '[' :: _ | '{' :: _ => do
    let (v, rest) ← flowValue (2 * cs.length + 2) cs
    if (trimLeft rest).isEmpty then pure v else throw "ParserError"
  | _ => scalarText cs

/-- Splits `key: value` at the first colon that is followed by a blank or ends the line,
outside quotes and brackets. -/
def splitKey : List Char → Nat → Option Char → List Char → Option (List Char × List Char)
  | [], _, _, _ => none
  | c :: rest, depth, some q, acc =>
    if c == q then splitKey rest depth none (c :: acc) else splitKey rest depth (some q) (c :: acc)
  | c :: rest, depth, none, acc =>
    if (c == '\'' || c == '"') && acc.isEmpty then splitKey rest depth (some c) (c :: acc)
    else if c == '[' || c == '{' then splitKey rest (depth + 1) none (c :: acc)
    else if c == ']' || c == '}' then splitKey rest (depth - 1) none (c :: acc)
    else if c == ':' && depth == 0 && (rest.isEmpty || rest.head? == some ' ') then
      some (trimRight acc.reverse, trimLeft rest)
    else splitKey rest depth none (c :: acc)

/-- A line that starts a sequence item. -/
def isItem (l : Line) : Bool :=
  match l.text with
  | ['-'] => true
  | '-' :: ' ' :: _ => true
  | _ => false

/-- Reads the block that starts at the first line, at that line's indentation. -/
def block : Nat → List Line → Except String (Value × List Line)
  | 0, _ => .error "ParserError"
  | _, [] => .ok (.null, [])
  | fuel + 1, l :: rest =>
    if isItem l then sequence fuel l.indent (l :: rest) []
    else match splitKey l.text 0 none [] with
      | some _ => mapping fuel l.indent (l :: rest) []
      | none => do
        let v ← inlineValue l.text
        pure (v, rest)
where
  /-- The value of an entry or item whose own line left it empty: a deeper block, a
  sequence at the same indentation (for mapping entries), or null. -/
  nested : Nat → Nat → Bool → List Line → Except String (Value × List Line)
    | 0, _, _, _ => .error "ParserError"
    | fuel + 1, indent, allowSame, ls =>
      match ls with
      | l :: _ =>
        if l.indent > indent || (allowSame && l.indent == indent && isItem l) then block fuel ls
        else .ok (.null, ls)
      | [] => .ok (.null, [])
  /-- Items of a block sequence at an indentation, collected in reverse. -/
  sequence : Nat → Nat → List Line → List Value → Except String (Value × List Line)
    | 0, _, _, _ => .error "ParserError"
    | fuel + 1, indent, ls, acc =>
      match ls with
      | l :: rest =>
        if l.indent == indent && isItem l then
          let body := l.text.drop 1
          let inner := trimLeft body
          if inner.isEmpty then do
            let (v, more) ← nested fuel indent false rest
            sequence fuel indent more (v :: acc)
          else do
            -- the item's content starts a block of its own at its column
            let col := indent + 1 + (body.length - inner.length)
            let (v, more) ← block fuel (⟨col, inner⟩ :: rest)
            sequence fuel indent more (v :: acc)
        else if l.indent > indent then .error "ParserError"
        else .ok (.list acc.reverse, ls)
      | [] => .ok (.list acc.reverse, [])
  /-- Entries of a block mapping at an indentation. -/
  mapping : Nat → Nat → List Line → List (Value × Value) → Except String (Value × List Line)
    | 0, _, _, _ => .error "ParserError"
    | fuel + 1, indent, ls, acc =>
      match ls with
      | l :: rest =>
        if l.indent == indent && !isItem l then
          match splitKey l.text 0 none [] with
          | some (keyText, valueText) => do
            let k ← scalarText keyText
            let (v, more) ← if valueText.isEmpty then nested fuel indent true rest
              else do
                let v ← inlineValue valueText
                pure (v, rest)
            mapping fuel indent more (putAny k v acc)
          | none => .error "ScannerError"
        else if l.indent > indent then .error "ParserError"
        else .ok (.map acc, ls)
      | [] => .ok (.map acc, [])

/-- Reads a YAML document. The error is the name of the stage that rejected it. -/
def parse (s : String) : Except String Value := do
  let ls := contentLines s
  let (v, rest) ← block (4 * ls.length + 4) ls
  if rest.isEmpty then pure v else throw "ParserError"

end Yaml

end SpeechStream
