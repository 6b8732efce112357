import SpeechStream.Document.Basic
import SpeechStream.Document.Yaml
import SpeechStream.Fault
/-!
Decode options and n-best candidates.

Options override the model's chunking when set, weigh the CTC and attention scores in the
final score, weigh the right-to-left decoder in rescoring, and bound the n-best list. Weights
keep the kind of number they were written with. An n-best bound cuts the list like a slice
end: `n ≥ 0` keeps the first `n`, a negative `n` drops the last `-n`, and no bound keeps all.
-/

set_option autoImplicit false

namespace SpeechStream

/-- A number as written: an integer or a double. -/
inductive Num where
  | int (n : Int)
  | real (x : Float)
  deriving Inhabited

/-- The value of a number as a double. -/
def Num.toFloat : Num → Float
  | .int n => Float.ofInt n
  | .real x => x

/-- Decoding configuration. -/
structure DecodeOptions where
  chunkSize : Option Int := none
  leftChunks : Option Int := none
  ctcWeight : Num := .real 0.5
  rescoringWeight : Num := .real 1.0
  reverseWeight : Num := .real 0.0
  nbest : Option Int := some 10
  deriving Inhabited

namespace DecodeOptions

/-- The names of the options, in order. -/
def names : List String :=
  ["chunk_size", "num_left_chunks", "ctc_weight", "rescoring_weight", "reverse_weight", "nbest"]

/-- A number from a document; truth values count as `0` and `1`. -/
def num? : Value → Option Num
  | .int n => some (.int n)
  | .float x => some (.real x)
  | .bool b => some (.int (if b then 1 else 0))
  | _ => none

/-- An optional integer from a document: `null` is none. -/
def optInt? : Value → Option (Option Int)
  | .null => some none
  | .int n => some (some n)
  | .bool b => some (some (if b then 1 else 0))
  | _ => none

/-- Sets one option from a document value; unknown names are ignored. -/
def set (o : DecodeOptions) (name : String) (v : Value) : Except Fault DecodeOptions :=
  let bad : Except Fault DecodeOptions := .error .typeMismatch
  match name with
  | "chunk_size" => match optInt? v with | some x => .ok { o with chunkSize := x } | none => bad
  | "num_left_chunks" => match optInt? v with | some x => .ok { o with leftChunks := x } | none => bad
  | "ctc_weight" => match num? v with | some x => .ok { o with ctcWeight := x } | none => bad
  | "rescoring_weight" => match num? v with | some x => .ok { o with rescoringWeight := x } | none => bad
  | "reverse_weight" => match num? v with | some x => .ok { o with reverseWeight := x } | none => bad
  | "nbest" => match optInt? v with | some x => .ok { o with nbest := x } | none => bad
  | _ => .ok o

/-- Whether keys can be put in order: texts among texts, numbers among numbers, and at most
one key otherwise. -/
def orderable (keys : List Value) : Bool :=
  let texts := keys.filter (fun k => (k.str?).isSome)
  texts.length == keys.length || (texts.isEmpty && keys.all (fun k => match k with
    | .int _ | .float _ | .bool _ => true
    | _ => keys.length ≤ 1))

/-- The keys that name no option, or none when they cannot be listed in order (a list or
mapping among them, or keys of kinds that do not compare). -/
def unknownKeys (keys : List Value) : Option (List Value) :=
  let unknown := keys.filter (fun k => match k with
    | .str s => !names.contains s
    | _ => true)
  if keys.any (fun k => match k with | .list _ | .map _ => true | _ => false) then none
  else if orderable unknown then some unknown else none

/-- Options from a mapping of option names; keys that name no option are ignored, but they
must be listable in order. A text or a list has no entries to read; anything else is not a
collection of names. -/
def ofDocument (doc : Value) : Except Fault DecodeOptions :=
  match doc with
  | .map es =>
    if (unknownKeys (es.map Prod.fst)).isNone then .error .typeMismatch
    else es.foldlM (fun o (k, v) => match k with
      | .str name => o.set name v
      | _ => .ok o) {}
  | .str _ => .error .noAttribute
  | .list xs => if (unknownKeys xs).isNone then .error .typeMismatch else .error .noAttribute
  | _ => .error .typeMismatch

/-- Options from the `decode_conf` section of a YAML file; an empty file or a missing section
gives the defaults, and a document other than a mapping has no sections. -/
def ofYaml (text : String) : Except Fault DecodeOptions := do
  let doc ← match Yaml.parse text with
    | .ok v => pure v
    | .error stage => throw (.malformedYaml stage)
  if !doc.truthy then pure {}
  else match doc with
    | .map _ => match doc.get? "decode_conf" with
      | some conf => ofDocument conf
      | none => pure {}
    | _ => throw .noAttribute

/-- Cuts a list by the n-best bound. -/
def cut {α : Type} (o : DecodeOptions) (xs : List α) : List α :=
  match o.nbest with
  | none => xs
  | some n => if n ≥ 0 then xs.take n.toNat else xs.take (xs.length - n.natAbs)

end DecodeOptions

/-- One n-best entry: the sentence, its tokens, the ranking score, the CTC score, and the
attention score (zero until rescored). -/
structure Candidate where
  sentence : String
  tokens : List Int := []
  score : Float := 0.0
  ctcScore : Float := 0.0
  rescoringScore : Float := 0.0
  deriving Inhabited

end SpeechStream
