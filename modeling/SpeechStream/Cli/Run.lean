import SpeechStream.Cli.Arguments
import SpeechStream.Directory.Load
import SpeechStream.Decimal.Fixed
/-!
Running the decoder's command.

A run reads the command line, builds the decode options (those of the `-c` file, with the
options given on the command line in their place), loads the recogniser of the model
directory, and decodes every feature file in turn. A feature file holds a matrix of frames by
features; it is decoded whole, or in blocks of `--block-frames` frames, the last block ending
the utterance. While decoding in blocks the partial result is shown after a carriage return on
the error output, unless `--quiet`, and a line break ends it.

For every file the n-best list is written, one line per entry: the file, the rank, the score
with four decimals and the sentence, separated by tabs. A request for help writes the help; an
error in the command line writes the usage and the error and exits with status 2. Any other
fault ends the run with status 1, after what was written before it.
-/

set_option autoImplicit false

namespace SpeechStream.Cli

/-- What a run writes, its exit status, and the fault that ended it early, if one did. -/
structure Outcome where
  stdout : String
  stderr : String
  exit : Nat
  fault : Option Fault := none
  deriving Inhabited

/-- The decode options of a command line: those of the `-c` file when one is named, and every
option given on the command line in place of the file's. -/
def decodeOptions (fs : FileSystem) (a : Arguments) : Except Fault DecodeOptions := do
  let base ← match a.config with
    | some path => if path.isEmpty then pure {} else DecodeOptions.ofYaml (← fs.readText path)
    | none => pure {}
  let real (x : Option Float) (d : Num) : Num := match x with
    | some v => .real v
    | none => d
  pure { chunkSize := if a.chunkSize.isSome then a.chunkSize else base.chunkSize
         leftChunks := if a.leftChunks.isSome then a.leftChunks else base.leftChunks
         ctcWeight := real a.ctcWeight base.ctcWeight
         rescoringWeight := real a.rescoringWeight base.rescoringWeight
         reverseWeight := real a.reverseWeight base.reverseWeight
         nbest := if a.nbest.isSome then a.nbest else base.nbest }

/-- Decodes one block of frames, the last when `last`; gives the partial result. -/
def decodeBlock (r : Recognizer) (t : Tensor) (last : Bool) : Except Fault (Recognizer × String) :=
  let s := r.decode t last
  match s.out with
  | .ok p => .ok (s.next, p)
  | .error f => .error f

/-- Decodes the block of `b` frames of a feature matrix from a start frame, the last block when it
reaches the end, adding its partial result to the text after a carriage return unless quiet or
finished. -/
def decodeBlockAt (feats : Tensor) (b : Nat) (quiet : Bool) (acc : Recognizer × String)
    (start : Nat) : Except Fault (Recognizer × String) := do
  let stop := start + b
  let (r, p) ← decodeBlock acc.1 (feats.sliceRows start stop) (stop ≥ feats.numRows)
  pure (r, if !quiet && !r.finished then acc.2 ++ "\r" ++ p else acc.2)

/-- Decodes one feature file from the start of an utterance: the recogniser after it, the
text written to the error output, and the n-best list. -/
def decodeFile (fs : FileSystem) (r : Recognizer) (path : String) (blockFrames : Int)
    (quiet : Bool) : Except Fault (Recognizer × String × List Candidate) := do
  let feats ← fs.readFeatures path
  if feats.rank != 2 then throw (.notAFeatureMatrix path feats.shape)
  let r ← r.reset
  if blockFrames ≤ 0 then
    let (r, _) ← decodeBlock r feats true
    pure (r, "", r.result)
  else
    let n := feats.numRows
    let b := blockFrames.toNat
    let starts := (List.range ((n + b - 1) / b)).map (· * b)
    let (r, err) ← starts.foldlM (decodeBlockAt feats b quiet) (r, "")
    let (r, _) ← if n == 0 then decodeBlock r feats true else pure (r, "")
    pure (r, if quiet then err else err ++ "\n", r.result)

/-- The lines of a file's n-best list. -/
def resultLines (path : String) (results : List Candidate) : String :=
  String.join (results.zipIdx.map (fun (c, rank) =>
    path ++ "\t" ++ toString rank ++ "\t" ++ Decimal.fixedText 4 c.score ++ "\t" ++ c.sentence ++
      "\n"))

/-- Decodes the feature files in turn, adding their n-best lists to the outcome; the first
fault ends the run. -/
def decodeAll (fs : FileSystem) (a : Arguments) : Recognizer → List String → Outcome → Outcome
  | _, [], o => o
  | r, path :: rest, o =>
    match decodeFile fs r path a.blockFrames a.quiet with
    | .ok (r, e, results) =>
      decodeAll fs a r rest
        { o with stdout := o.stdout ++ resultLines path results, stderr := o.stderr ++ e }
    | .error f => { o with exit := 1, fault := some f }

/-- Runs the command with its arguments (without the command's name) over the files. -/
def run (fs : FileSystem) (argv : List String) : Outcome :=
  match parse argv with
  | .help => ⟨helpText, "", 0, none⟩
  | .error m => ⟨"", usage ++ "chunkasr: error: " ++ m ++ "\n", 2, none⟩
  | .run a =>
    let start := do
      let options ← decodeOptions fs a
      Recognizer.ofDirectory fs a.modelDir a.backend a.device a.threads options
    match start with
    | .ok r => decodeAll fs a r a.inputs ⟨"", "", 0, none⟩
    | .error f => ⟨"", "", 1, some f⟩

end SpeechStream.Cli
