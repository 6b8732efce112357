import SpeechStream.Cli.Run
import SpeechStream.Directory.Arrays
/-!
The decoder's command: decodes feature files with the model of a directory.

The command reads the files a run may look at (the directory's configuration, checkpoints,
statistics and symbol table, the decode options file, and the feature files), runs over them,
writes what the run writes and exits with its status. A fault that ends the run is written
last, as its kind and message. Array files are read as `.npy` and `.npz` files; a checkpoint
is taken to hold the reference weights of every parameter of the network it is loaded into.
-/

set_option autoImplicit false

namespace SpeechStream.Cli

/-- How the bytes of a file are read. -/
inductive FileRole where
  | text
  | checkpoint
  | archive
  | features

/-- What a file's bytes hold when read in a role; bytes that do not read are kept as they are. -/
def fileData (role : FileRole) (bytes : ByteArray) : FileData :=
  match role with
  | .text => match String.fromUTF8? bytes with
    | some t => .text t
    | none => .binary bytes
  | .checkpoint => .checkpoint { tensors := [], complete := true }
  | .archive => match Arrays.readArchive bytes with
    | some arrays => .stats arrays
    | none => .binary bytes
  | .features => match Arrays.readFeatures bytes with
    | some t => .features t
    | none => .binary bytes

/-- The files a run with these arguments may read, with their roles. -/
def filesOf (a : Arguments) : List (String × FileRole) :=
  let dir := fun (n : String) => joinPath a.modelDir n
  [(dir configFileName, .text), (dir statsFileName, .archive), (dir unitsFileName, .text)] ++
    checkpointFileNames.map (fun n => (dir n, .checkpoint)) ++
    (a.config.toList.map (fun c => (c, .text))) ++ a.inputs.map (fun p => (p, .features))

/-- The bytes of a file, or nothing when it cannot be read. -/
def readBytes (path : String) : IO (Option ByteArray) := do
  try
    return some (← IO.FS.readBinFile path)
  catch _ =>
    return none

/-- The files a run with these arguments may read, as they are on disk. -/
def gather (a : Arguments) : IO FileSystem := do
  let mut files : List (String × FileData) := []
  for (path, role) in filesOf a do
    if let some bytes ← readBytes path then
      files := files ++ [(path, fileData role bytes)]
  return ⟨files⟩

end SpeechStream.Cli

/-- Runs the command with the process's arguments. -/
def main (args : List String) : IO UInt32 := do
  let fs ← match SpeechStream.Cli.parse args with
    | .run a => SpeechStream.Cli.gather a
    | _ => pure ⟨[]⟩
  let o := SpeechStream.Cli.run fs args
  IO.print o.stdout
  IO.eprint o.stderr
  if let some f := o.fault then
    IO.eprintln (match f.message? with
      | some m => f.kind ++ ": " ++ m
      | none => f.kind)
  return o.exit.toUInt32
