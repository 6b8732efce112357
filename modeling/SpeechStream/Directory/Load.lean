import SpeechStream.Directory.Files
import SpeechStream.Network.Model
import SpeechStream.Decoding.Recognizer
/-!
Loading a model directory.

A model directory holds `config.yaml` (the network's sizes, its sections and the decoding
chunking), a checkpoint under the first of the names `final.pt`, `avg.pt`, `model.pt`,
`checkpoint.pt` that exists, and optionally `global_cmvn.npz` (normalization statistics) and
`units.txt` (the symbol table).

Loading checks, in order: that the configuration exists, parses and names `vocab_size`; that a
checkpoint exists; the statistics; the network the configuration describes; and that the
checkpoint's tensors fit the network. The backend loaded from a directory decodes with the
chunking of the configuration's `decode_conf` section, 16 frames and all history when absent.
-/

set_option autoImplicit false

namespace SpeechStream

/-- The name of a directory's configuration file. -/
def configFileName : String := "config.yaml"

/-- The names a checkpoint may have, the first existing one being used. -/
def checkpointFileNames : List String := ["final.pt", "avg.pt", "model.pt", "checkpoint.pt"]

/-- The name of a directory's normalization statistics. -/
def statsFileName : String := "global_cmvn.npz"

/-- The name of a directory's symbol table. -/
def unitsFileName : String := "units.txt"

/-- The value under a key of a mapping, or a default when the key is absent; a document that
is not a mapping has no such lookup. -/
def Value.getOr (doc : Value) (key : String) (dflt : Value) : Except Fault Value :=
  match doc with
  | .map _ => .ok ((doc.get? key).getD dflt)
  | _ => .error .noAttribute

/-- The text of a file; a missing file is a fault without message, a file that is not text
cannot be decoded. -/
def FileSystem.readText (fs : FileSystem) (path : String) : Except Fault String :=
  match fs.find? path with
  | some (.text t) => .ok t
  | some _ => .error .badEncoding
  | none => .error (.fileNotFound none)

/-- A YAML document; an empty or false document is an empty mapping. -/
def yamlDocument (text : String) : Except Fault Value :=
  match Yaml.parse text with
  | .ok v => .ok (if v.truthy then v else .map [])
  | .error stage => .error (.malformedYaml stage)

/-- The configuration of a directory. -/
def readConfig (fs : FileSystem) (dir : String) : Except Fault Value := do
  let path := joinPath dir configFileName
  if !fs.exists path then throw (.fileNotFound (some ("Config file not found: " ++ path)))
  yamlDocument (← fs.readText path)

/-- The path of the directory's checkpoint. -/
def findCheckpoint (fs : FileSystem) (dir : String) : Except Fault String :=
  match checkpointFileNames.find? (fun n => fs.exists (joinPath dir n)) with
  | some n => .ok (joinPath dir n)
  | none => .error (.fileNotFound (some ("No checkpoint (" ++ ", ".intercalate checkpointFileNames ++
      ") found in " ++ normalizePath dir)))

/-- The normalization of a statistics file. -/
def readCmvn (fs : FileSystem) (path : String) : Except Fault Network.Cmvn := do
  match fs.find? path with
  | some (.stats arrays) => Network.Cmvn.ofStats (← Network.Stats.ofArrays arrays)
  | _ => throw .malformedTensor

/-- The feature matrix stored at a path; a missing file is a fault without message. -/
def FileSystem.readFeatures (fs : FileSystem) (path : String) : Except Fault Tensor :=
  match fs.find? path with
  | some (.features t) => .ok t
  | some _ => .error .malformedTensor
  | none => .error (.fileNotFound none)

/-- The checkpoint stored at a path. -/
def readCheckpoint (fs : FileSystem) (path : String) : Except Fault Checkpoint :=
  match fs.find? path with
  | some (.checkpoint c) => .ok c
  | some _ => .error .malformedTensor
  | none => .error (.fileNotFound none)

/-- A symbol of a configuration value: absent is none, an integer or truth value is itself. -/
def optionalSymbol (v : Value) : Except Fault (Option Int) :=
  match v with
  | .null => .ok none
  | v => some <$> Network.intSetting v

/-- A network loaded from a directory, with the configuration it was described by. -/
structure LoadedModel where
  model : Network.Model
  config : Value
  hasCmvn : Bool

/-- Loads the network of a directory, with its checkpoint at `checkpoint` (a path inside the
directory) or the first default checkpoint. -/
def loadModel (fs : FileSystem) (dir : String) (checkpoint : Option String) :
    Except Fault LoadedModel := do
  let config ← readConfig fs dir
  if !(← Metadata.contains config "vocab_size") then
    throw (.missingVocabSize (joinPath dir configFileName))
  let ckptPath ← match checkpoint with
    | some p => pure (if p.startsWith "/" then p else joinPath dir p)
    | none => findCheckpoint fs dir
  let statsPath := joinPath dir statsFileName
  let cmvn ← if fs.exists statsPath then some <$> readCmvn fs statsPath else pure none
  let modelConf ← config.getOr "model_conf" (.map [])
  let vocab ← Network.intSetting (← Metadata.lookup config "vocab_size")
  let inputDim ← Network.intSetting (← config.getOr "input_dim" (.int 80))
  let c : Network.Config :=
    { vocab, inputDim
      encoderSection := ← config.getOr "encoder_conf" (.map [])
      decoderSection := ← config.getOr "decoder_conf" (.map [])
      decoderKind := ← config.getOr "decoder" (.str "bitransformer")
      sos := ← optionalSymbol (← modelConf.getOr "sos" .null)
      eos := ← optionalSymbol (← modelConf.getOr "eos" .null) }
  let (_, params) ← c.plan
  let ckpt ← readCheckpoint fs ckptPath
  let w ← ckpt.weights params
  let model ← Network.Model.build c w cmvn
  pure ⟨model, config, cmvn.isSome⟩

/-- Whether a device name names the processor: `cpu`, optionally with an index. -/
def isProcessor (device : String) : Bool :=
  match device.splitOn ":" with
  | ["cpu"] => true
  | ["cpu", n] => !n.isEmpty && n.all Char.isDigit
  | _ => false

/-- Loads the backend `name` of a directory on a device with a thread count: the reference
network with the chunking of `decode_conf`, run on the processor. Graph files need a runtime
that is not available. -/
def loadBackend (fs : FileSystem) (dir name device : String) (threads : Int) :
    Except Fault Backend := do
  if name == "torch" then
    if threads ≤ 0 then throw .badThreadCount
    let m ← loadModel fs dir none
    let conf ← m.config.getOr "decode_conf" (.map [])
    let doc := Value.record (Network.describe m.model.config m.model.plan
      (← conf.getOr "chunk_size" (.int 16)) (← conf.getOr "num_left_chunks" (.int (-1))))
    let md ← Metadata.ofDocument doc
    if !isProcessor device then throw .deviceUnavailable
    pure (m.model.toBackend md)
  else if name == "onnx" then throw .runtimeMissing
  else throw (.unknownBackend name)

/-- A recogniser of a directory: its backend, the options, and its symbol table when it has
one. -/
def Recognizer.ofDirectory (fs : FileSystem) (dir backend device : String) (threads : Int)
    (options : DecodeOptions) : Except Fault Recognizer := do
  let b ← loadBackend fs dir backend device threads
  let unitsPath := joinPath dir unitsFileName
  let vocab ← if fs.exists unitsPath then
      some <$> Vocabulary.ofText unitsPath (← fs.readText unitsPath)
    else pure none
  Recognizer.create b options vocab

end SpeechStream
