/-!
Documents: the dynamic values that configuration files and requests hold.

A value is nothing, a truth value, an integer of any size, a double, a text, a list, or a
mapping. A mapping keeps its entries in the order their keys first appeared; a key written
twice keeps its first place and its last value. Integers and doubles stay apart: `2` and
`2.0` are different values, as configuration readers must tell them apart.
-/

set_option autoImplicit false

namespace SpeechStream

/-- A document value. -/
inductive Value where
  | null
  | bool (b : Bool)
  | int (n : Int)
  | float (x : Float)
  | str (s : String)
  | list (items : List Value)
  | map (entries : List (Value × Value))
  deriving Inhabited

namespace Value

/-- Whether a value is the text `s`. -/
def isText (s : String) : Value → Bool
  | .str t => t == s
  | _ => false

/-- Puts an entry into a mapping's entry list: a present key keeps its place and takes the
new value, a new key goes last. -/
def putEntry (key : String) (v : Value) : List (Value × Value) → List (Value × Value)
  | [] => [(.str key, v)]
  | (k, w) :: rest => if k.isText key then (k, v) :: rest else (k, w) :: putEntry key v rest

/-- The value under a text key of a mapping. -/
def get? (v : Value) (key : String) : Option Value :=
  match v with
  | .map es => (es.find? (fun e => e.1.isText key)).map Prod.snd
  | _ => none

/-- Whether a mapping has a text key. -/
def has (v : Value) (key : String) : Bool := (v.get? key).isSome

/-- The items of a list value. -/
def items? : Value → Option (List Value)
  | .list xs => some xs
  | _ => none

/-- The integer of an integer value. -/
def int? : Value → Option Int
  | .int n => some n
  | _ => none

/-- The text of a text value. -/
def str? : Value → Option String
  | .str s => some s
  | _ => none

/-- The truth value of a Boolean value. -/
def bool? : Value → Option Bool
  | .bool b => some b
  | _ => none

/-- Whether a value is `null`. -/
def isNull : Value → Bool
  | .null => true
  | _ => false

/-- A mapping from text keys, in the given order. -/
def record (fields : List (String × Value)) : Value :=
  .map (fields.map (fun f => (.str f.1, f.2)))

/-- A list of integers. -/
def ints (ns : List Int) : Value := .list (ns.map .int)

/-- A list of natural numbers. -/
def nats (ns : List Nat) : Value := .list (ns.map (fun (n : Nat) => .int n))

/-- The value of an optional one, or `null`. -/
def opt {α : Type} (f : α → Value) : Option α → Value
  | some a => f a
  | none => .null

/-- The truth of a document value: nothing, `false`, zero, and empty texts, lists and
mappings are false. -/
def truthy : Value → Bool
  | .null => false
  | .bool b => b
  | .int n => n != 0
  | .float x => x != 0
  | .str s => !s.isEmpty
  | .list xs => !xs.isEmpty
  | .map es => !es.isEmpty

end Value

end SpeechStream
