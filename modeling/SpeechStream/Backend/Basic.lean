import SpeechStream.Tensor.Basic
import SpeechStream.Metadata
/-!
Inference backends: what a streaming session asks of the networks that do the work.

A backend runs three graphs. The encoder takes one chunk of frames together with the cached
state of earlier chunks and returns the chunk's encoder output and the new caches. The CTC
head turns encoder output into per-frame log-probabilities. The attention decoder scores
padded hypotheses against the whole utterance's encoder output, left to right and, for a
bidirectional decoder, right to left.

The encoder's inputs are named by role. A backend declares which roles it accepts, and a
session passes only those. A backend keeps no state between calls: each call is a function
of its arguments, so a record of the calls made describes everything a session asked of it.
-/

set_option autoImplicit false

namespace SpeechStream

/-- The roles of the encoder's inputs. -/
inductive Role where
  | chunk
  | offset
  | requiredCacheSize
  | attCache
  | cnnCache
  | attMask
  deriving BEq, DecidableEq, Repr, Inhabited

namespace Role

/-- The roles in the order a session supplies them. -/
def all : List Role := [.chunk, .offset, .requiredCacheSize, .attCache, .cnnCache, .attMask]

/-- The name of a role, as exported graphs name their inputs. -/
def name : Role → String
  | .chunk => "chunk"
  | .offset => "offset"
  | .requiredCacheSize => "required_cache_size"
  | .attCache => "att_cache"
  | .cnnCache => "cnn_cache"
  | .attMask => "att_mask"

/-- The role a name stands for. -/
def ofName? (s : String) : Option Role := all.find? (fun r => r.name == s)

end Role

/-- A tensor of truth values, such as an attention mask. -/
structure Mask where
  shape : List Nat
  bits : Array Bool
  deriving Inhabited, BEq

/-- The value given for one encoder role. -/
inductive Input where
  | tensor (t : Tensor)
  | int (n : Int)
  | mask (m : Mask)
  | ints (shape : List Nat) (data : List Int)
  deriving Inhabited

/-- The element type of an input, by the names of exported graphs. -/
def Input.dtype : Input → String
  | .tensor _ => "float32"
  | .int _ | .ints _ _ => "int64"
  | .mask _ => "bool"

/-- The shape of an input; an integer is a scalar. -/
def Input.shape : Input → List Nat
  | .tensor t => t.shape
  | .int _ => []
  | .mask m => m.shape
  | .ints shape _ => shape

/-- The inputs of one encoder call, in role order. -/
abbrev Feed := List (Role × Input)

/-- The value of a role in a feed. -/
def Feed.get? (f : Feed) (r : Role) : Option Input := (f.find? (fun p => p.1 == r)).map Prod.snd

/-- The tensor of a role in a feed. -/
def Feed.tensor? (f : Feed) (r : Role) : Option Tensor :=
  match f.get? r with
  | some (.tensor t) => some t
  | _ => none

/-- The integer of a role in a feed. -/
def Feed.int? (f : Feed) (r : Role) : Option Int :=
  match f.get? r with
  | some (.int n) => some n
  | _ => none

/-- The mask of a role in a feed. -/
def Feed.mask? (f : Feed) (r : Role) : Option Mask :=
  match f.get? r with
  | some (.mask m) => some m
  | _ => none

/-- What the encoder returns for one chunk. -/
structure EncoderOutput where
  out : Tensor
  attCache : Tensor
  cnnCache : Tensor
  deriving Inhabited

/-- The arguments of an attention-decoder call: padded hypotheses, their lengths, and the
encoder output of the whole utterance. -/
structure DecoderInput where
  hyps : List (List Int)
  lens : List Int
  enc : Tensor
  deriving Inhabited

/-- Left-to-right scores and, for a bidirectional decoder, right-to-left scores. -/
structure DecoderOutput where
  forward : Tensor
  backward : Option Tensor
  deriving Inhabited

/-- One call a session made to its backend. -/
inductive Call where
  | encoder (feed : Feed)
  | ctc (enc : Tensor)
  | decoder (input : DecoderInput)
  deriving Inhabited

/-- An inference backend: the metadata of its model, the encoder roles it accepts, and its
three graphs as functions. -/
structure Backend where
  metadata : Metadata
  roles : List Role
  encode : Feed → Except Fault EncoderOutput
  ctc : Tensor → Except Fault Tensor
  decode : DecoderInput → Except Fault DecoderOutput

end SpeechStream
