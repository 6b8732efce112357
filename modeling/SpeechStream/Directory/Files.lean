import SpeechStream.Network.Config
import SpeechStream.Network.Weights
import SpeechStream.Network.Cmvn
/-!
The files a model directory and a decoding run read.

A file system maps paths to contents: texts (configuration, symbol tables, decode options),
feature matrices, checkpoints, arrays of statistics, and bytes that are none of these. Paths are compared after the usual
normalization of path names: empty parts and `.` parts are dropped, and a path is written with
single slashes and no trailing slash.

A checkpoint is a state dictionary of named tensors, possibly stored under one top-level key.
The tensors of a checkpoint made from a reference network hold the reference weights; extra
tensors hold zeros. Loading it into a network takes every tensor whose name the network has;
a tensor of another shape than the network's is a fault, tensors the network does not have are
ignored, and parameters the checkpoint lacks keep whatever the network had.
-/

set_option autoImplicit false

namespace SpeechStream

/-- A tensor of a checkpoint: its name, shape, and whether it holds zeros rather than the
reference weights. -/
structure CheckpointTensor where
  name : String
  shape : List Nat
  zeros : Bool := false
  deriving Inhabited

/-- A checkpoint: its tensors, stored under a top-level key or at the top, or, when `complete`,
the reference weights of every parameter of whatever network it is loaded into. -/
structure Checkpoint where
  tensors : List CheckpointTensor
  wrapper : Option String := none
  complete : Bool := false
  deriving Inhabited

/-- What a file holds. -/
inductive FileData where
  | text (s : String)
  | features (t : Tensor)
  | checkpoint (c : Checkpoint)
  | stats (arrays : List (String × Network.StatArray))
  | binary (bytes : ByteArray)
  deriving Inhabited

/-- A path name with empty and `.` parts dropped. -/
def normalizePath (p : String) : String :=
  let parts := (p.splitOn "/").filter (fun s => s != "" && s != ".")
  let body := String.intercalate "/" parts
  if p.startsWith "/" then "/" ++ body else if body.isEmpty then "." else body

/-- A file name inside a directory. -/
def joinPath (dir name : String) : String := normalizePath (dir ++ "/" ++ name)

/-- Files by path. -/
structure FileSystem where
  files : List (String × FileData)
  deriving Inhabited

/-- The contents of a path. -/
def FileSystem.find? (fs : FileSystem) (path : String) : Option FileData :=
  let p := normalizePath path
  (fs.files.find? (fun f => normalizePath f.1 == p)).map Prod.snd

/-- Whether a path exists. -/
def FileSystem.exists (fs : FileSystem) (path : String) : Bool := (fs.find? path).isSome

namespace Checkpoint

/-- The state dictionary of a checkpoint: the tensors stored under the key `model` or
`state_dict` (at the top, that key's own tensor, which is no dictionary), else the top level.
Under another key the top level holds a dictionary under that key, which is not a tensor. -/
def stateDict (c : Checkpoint) : Except Fault (List CheckpointTensor) :=
  match c.wrapper with
  | some w => if w == "model" || w == "state_dict" then .ok c.tensors else .ok []
  | none =>
    if c.tensors.any (fun t => t.name == "model" || t.name == "state_dict") then .error .typeMismatch
    else .ok c.tensors

/-- The name a checkpoint stores a dictionary under, when it is not a state dictionary. -/
def foreignKey (c : Checkpoint) : Option String :=
  c.wrapper.filter (fun w => w != "model" && w != "state_dict")

/-- The weights of a network with the given parameters after loading the checkpoint; a tensor
whose shape differs from its parameter's, or a dictionary where a parameter's tensor should
be, is a fault. -/
def weights (c : Checkpoint) (params : List Network.Parameter) : Except Fault Network.Weights := do
  if c.complete then return Network.Weights.reference
  let sd ← c.stateDict
  if params.any (fun p => c.foreignKey == some p.name) then throw .shapeMismatch
  let zeroed ← params.filterMapM (fun p =>
    match sd.find? (fun t => t.name == p.name) with
    | some t => if t.shape != p.shape then throw .shapeMismatch
      else pure (if t.zeros then some p.name else none)
    | none => pure none)
  pure (Network.Weights.zeroing zeroed)

/-- The checkpoint of a network's parameters with the reference weights: without the tensors
whose names start with one of `dropped`, with zero tensors of two numbers under the names
`extra` (in place of a kept tensor of the same name), and stored under `wrapper` when given. -/
def ofParameters (params : List Network.Parameter) (dropped extra : List String)
    (wrapper : Option String) : Checkpoint :=
  let kept := params.filter (fun p => !dropped.any (fun d => p.name.startsWith d) &&
    !extra.contains p.name)
  { tensors := kept.map (fun p => { name := p.name, shape := p.shape }) ++
      extra.map (fun n => { name := n, shape := [2], zeros := true })
    wrapper }

end Checkpoint

end SpeechStream
