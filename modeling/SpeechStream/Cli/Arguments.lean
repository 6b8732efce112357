import SpeechStream.Text.Integer
import SpeechStream.Text.Quoted
import SpeechStream.Text.Real
/-!
The command line of the decoder and how it is read.

The command takes a model directory and one or more feature files, and options. An option is
written by one of its option strings; a long option string (`--name`) may be shortened to any
prefix that no other long option string shares, and its value may follow an `=`. A short
option string (`-n`) may have its value joined to it (`-n3`), and short flags may be joined
(`-hd cpu`). A text that looks like a negative number is a value, not an option. After `--`
every argument is a value.

Arguments are read left to right. Values are given to the model directory and then to the
feature files as soon as a run of values is met: a first run of values after which an option
follows gives the model directory its value and the feature files the rest of the run, if any;
values left after the feature files have theirs are not recognized. An option takes the
argument after it as its value, and reads it as an integer or real number when it is one.

Reading stops at the first error, with its message; asking for help stops it at once.
-/

set_option autoImplicit false

namespace SpeechStream.Cli

/-- What the value of an option is read as. -/
inductive ValueKind where
  | text
  | int
  | real
  deriving BEq, Inhabited

/-- What an option does: show the help, set a flag, or take a value of a kind, one of a list of
choices when the list is not empty. -/
inductive OptionAction where
  | help
  | flag
  | value (kind : ValueKind) (choices : List String)
  deriving Inhabited

/-- An option: its option strings, the name its value is stored under, and its action. -/
structure OptionSpec where
  flags : List String
  dest : String
  action : OptionAction
  deriving Inhabited

/-- The options of the command, in the order they are listed. -/
def options : List OptionSpec :=
  [⟨["-h", "--help"], "help", .help⟩,
   ⟨["--backend"], "backend", .value .text ["torch", "onnx"]⟩,
   ⟨["-d", "--device"], "device", .value .text []⟩,
   ⟨["--num-threads"], "num_threads", .value .int []⟩,
   ⟨["-c", "--config"], "config", .value .text []⟩,
   ⟨["--chunk-size"], "chunk_size", .value .int []⟩,
   ⟨["--num-left-chunks"], "num_left_chunks", .value .int []⟩,
   ⟨["--ctc-weight"], "ctc_weight", .value .real []⟩,
   ⟨["--rescoring-weight"], "rescoring_weight", .value .real []⟩,
   ⟨["--reverse-weight"], "reverse_weight", .value .real []⟩,
   ⟨["-n", "--nbest"], "nbest", .value .int []⟩,
   ⟨["--block-frames"], "block_frames", .value .int []⟩,
   ⟨["--quiet"], "quiet", .flag⟩,
   ⟨["--log-level"], "log_level", .value .text ["DEBUG", "INFO", "WARNING", "ERROR", "CRITICAL"]⟩]

/-- Every option string with its option, in the order they are listed. -/
def optionStrings : List (String × OptionSpec) :=
  options.flatMap (fun o => o.flags.map (fun f => (f, o)))

/-- The option an exact option string names. -/
def lookupFlag (s : String) : Option OptionSpec :=
  (optionStrings.find? (fun p => p.1 == s)).map Prod.snd

/-- The name of an option in messages: its option strings joined by `/`. -/
def OptionSpec.name (o : OptionSpec) : String := "/".intercalate o.flags

/-- Whether an option takes a value. -/
def OptionSpec.takesValue (o : OptionSpec) : Bool :=
  match o.action with
  | .value _ _ => true
  | _ => false

/-- The text that opens every usage message. -/
def usage : String :=
  "usage: chunkasr [-h] [--backend \x7btorch,onnx\x7d] [-d DEVICE]\n" ++
  "                [--num-threads NUM_THREADS] [-c CONFIG]\n" ++
  "                [--chunk-size CHUNK_SIZE] [--num-left-chunks NUM_LEFT_CHUNKS]\n" ++
  "                [--ctc-weight CTC_WEIGHT]\n" ++
  "                [--rescoring-weight RESCORING_WEIGHT]\n" ++
  "                [--reverse-weight REVERSE_WEIGHT] [-n NBEST]\n" ++
  "                [--block-frames BLOCK_FRAMES] [--quiet]\n" ++
  "                [--log-level \x7bDEBUG,INFO,WARNING,ERROR,CRITICAL\x7d]\n" ++
  "                model_dir inputfiles [inputfiles ...]\n"

/-- The help of the command. -/
def helpText : String :=
  usage ++ "\n" ++
  "Decode precomputed acoustic features (.npy, frames x feat_dim) with a\n" ++
  "streaming model.\n\n" ++
  "positional arguments:\n" ++
  "  model_dir             Model directory (config.yaml + final.pt, or *.onnx\n" ++
  "                        files)\n" ++
  "  inputfiles            Feature files (.npy)\n\n" ++
  "options:\n" ++
  "  -h, --help            show this help message and exit\n" ++
  "  --backend \x7btorch,onnx\x7d\n" ++
  "                        Inference backend (default: torch)\n" ++
  "  -d DEVICE, --device DEVICE\n" ++
  "                        Computation device for the torch backend. Either 'cpu'\n" ++
  "                        or 'cuda'.\n" ++
  "  --num-threads NUM_THREADS\n" ++
  "                        Number of threads used for intraop parallelism on CPU.\n" ++
  "  -c CONFIG, --config CONFIG\n" ++
  "                        YAML file with a decode_conf section\n" ++
  "  --chunk-size CHUNK_SIZE\n" ++
  "                        Decoding chunk size in encoder frames (default: from\n" ++
  "                        model)\n" ++
  "  --num-left-chunks NUM_LEFT_CHUNKS\n" ++
  "                        Left chunks kept in the attention cache (default: from\n" ++
  "                        model)\n" ++
  "  --ctc-weight CTC_WEIGHT\n" ++
  "                        CTC score weight in the final score\n" ++
  "  --rescoring-weight RESCORING_WEIGHT\n" ++
  "                        Attention rescoring weight in the final score\n" ++
  "  --reverse-weight REVERSE_WEIGHT\n" ++
  "                        Right-to-left decoder weight during rescoring\n" ++
  "  -n NBEST, --nbest NBEST\n" ++
  "                        Number of hypotheses to output\n" ++
  "  --block-frames BLOCK_FRAMES\n" ++
  "                        Feed features in blocks of this many frames to\n" ++
  "                        simulate streaming (0: all at once)\n" ++
  "  --quiet               No partial transcription output\n" ++
  "  --log-level \x7bDEBUG,INFO,WARNING,ERROR,CRITICAL\x7d\n" ++
  "                        Set logging level (default: WARNING)\n"

/-- An argument read as an option: the option (none when no option has that string), the
option string, the value written after `=` or joined to a short option string, and the
argument as written. -/
structure OptionUse where
  spec : Option OptionSpec
  flag : String
  explicit : Option String
  raw : String
  deriving Inhabited

/-- An argument: a value, the first `--`, or an option. -/
inductive Token where
  | value (s : String)
  | separator
  | option (u : OptionUse)
  deriving Inhabited

/-- The argument a token was read from. -/
def Token.raw : Token → String
  | .value s => s
  | .separator => "--"
  | .option u => u.raw

/-- Splits a text at its first `=`. -/
def splitAtEquals (s : String) : String × Option String :=
  match s.splitOn "=" with
  | first :: rest@(_ :: _) => (first, some ("=".intercalate rest))
  | _ => (s, none)

/-- The options an argument that is no exact option string may stand for: for a long option,
every option string it is a prefix of (up to an `=`); for a short one, the option whose short
string it starts with (the rest being its value) and every option string it is a prefix of. -/
def prefixMatches (s : String) : List OptionUse :=
  match s.toList with
  | '-' :: '-' :: _ =>
    let (pre, explicit) := splitAtEquals s
    optionStrings.filterMap (fun (f, o) =>
      if f.startsWith pre then some ⟨some o, f, explicit, s⟩ else none)
  | '-' :: c :: rest =>
    let short := String.ofList ['-', c]
    optionStrings.filterMap (fun (f, o) =>
      if f == short then some ⟨some o, f, some (String.ofList rest), s⟩
      else if f.startsWith s then some ⟨some o, f, none, s⟩ else none)
  | _ => []

/-- Whether a text is a negative number: a minus and digits, or a minus, digits, a point and
digits (the digits before the point may be absent); a final line break is allowed. -/
def isNegativeNumber (s : String) : Bool :=
  let cs := match s.toList.reverse with
    | '\n' :: rest => rest.reverse
    | _ => s.toList
  match cs with
  | '-' :: body =>
    let isD := Text.isDigitChar
    let whole := body.takeWhile isD
    match body.drop whole.length with
    | [] => !whole.isEmpty
    | '.' :: frac => !frac.isEmpty && frac.all isD
    | _ => false
  | _ => false

/-- Reads an argument as an option, or none when it is a value. An argument that abbreviates
more than one option string is an error. -/
def parseOptional (s : String) : Except String (Option OptionUse) :=
  if s.isEmpty || !s.startsWith "-" then .ok none
  else match lookupFlag s with
  | some o => .ok (some ⟨some o, s, none, s⟩)
  | none =>
    if s.length == 1 then .ok none
    else
      let (pre, explicit) := splitAtEquals s
      match explicit.bind (fun _ => lookupFlag pre) with
      | some o => .ok (some ⟨some o, pre, explicit, s⟩)
      | none =>
        match prefixMatches s with
        | [m] => .ok (some m)
        | [] =>
          if isNegativeNumber s || s.contains ' ' then .ok none
          else .ok (some ⟨none, s, none, s⟩)
        | ms => .error ("ambiguous option: " ++ s ++ " could match " ++
          ", ".intercalate (ms.map (·.flag)))

/-- Reads every argument; after the first `--` every argument is a value. -/
def classify : List String → Except String (List Token)
  | [] => .ok []
  | s :: rest =>
    if s == "--" then .ok (.separator :: rest.map .value)
    else do
      let t := match ← parseOptional s with
        | some u => Token.option u
        | none => Token.value s
      pure (t :: (← classify rest))

/-- A stored value. -/
inductive Setting where
  | text (s : String)
  | texts (ss : List String)
  | int (n : Int)
  | real (x : Float)
  | flag
  deriving Inhabited

/-- Why reading stopped early: the help was asked for, or an error with its message. -/
inductive Stop where
  | help
  | error (message : String)
  deriving Inhabited

/-- The state of reading: the stored values (latest first), the names given a value, how many
of the two positional arguments have their values, and the arguments not recognized. -/
structure Reading where
  values : List (String × Setting)
  seen : List String
  positionals : Nat
  extras : List String
  deriving Inhabited

/-- The value of an option argument, read as the option's kind and checked against its
choices. -/
def convert (o : OptionSpec) (kind : ValueKind) (choices : List String) (s : String) :
    Except Stop Setting := do
  let fail (m : String) : Except Stop Setting := .error (.error ("argument " ++ o.name ++ ": " ++ m))
  let v ← match kind with
    | .text => pure (Setting.text s)
    | .int => match Text.parseInt? s with
      | some n => pure (.int n)
      | none => fail ("invalid int value: " ++ Text.quoted s)
    | .real => match Text.parseReal? s with
      | some x => pure (.real x)
      | none => fail ("invalid float value: " ++ Text.quoted s)
  if !choices.isEmpty && !choices.contains s then
    fail ("invalid choice: " ++ Text.quoted s ++ " (choose from " ++
      ", ".intercalate (choices.map Text.quoted) ++ ")")
  else pure v

/-- Performs an option with its arguments. -/
def takeOption (r : Reading) (o : OptionSpec) (args : List String) : Except Stop Reading := do
  let r := { r with seen := o.dest :: r.seen }
  match o.action with
  | .help => throw .help
  | .flag => pure { r with values := (o.dest, .flag) :: r.values }
  | .value kind choices =>
    let v ← convert o kind choices (args.headD "")
    pure { r with values := (o.dest, v) :: r.values }

/-- The pattern letter of a token: `A` for a value, `-` for the first `--`, `O` for an option. -/
def Token.letter : Token → Char
  | .value _ => 'A'
  | .separator => '-'
  | .option _ => 'O'

/-- The length of the longest match of `-*A-*` at the start of a pattern. -/
def matchOne (p : List Char) : Option Nat :=
  let lead := (p.takeWhile (· == '-')).length
  match p.drop lead with
  | 'A' :: rest => some (lead + 1 + (rest.takeWhile (· == '-')).length)
  | _ => none

/-- The length of the longest match of `-*A[A-]*` at the start of a pattern. -/
def matchMany (p : List Char) : Option Nat :=
  let lead := (p.takeWhile (· == '-')).length
  match p.drop lead with
  | 'A' :: rest => some (lead + 1 + (rest.takeWhile (fun c => c == 'A' || c == '-')).length)
  | _ => none

/-- Removes the first `--` from the arguments of a positional argument. -/
def dropSeparator (args : List String) : List String := args.erase "--"

/-- Gives values to the positional arguments still without one from the run of values starting
at token `i`; returns the index after the values taken. -/
def consumePositionals (tokens : Array Token) (i : Nat) (r : Reading) : Reading × Nat :=
  let rest := tokens.toList.drop i
  let pattern := rest.map Token.letter
  let raw (n : Nat) (skip : Nat) := dropSeparator ((rest.drop skip).take n |>.map Token.raw)
  let takeModel (r : Reading) (n : Nat) : Reading :=
    { r with values := ("model_dir", .text ((raw n 0).headD "")) :: r.values,
             seen := "model_dir" :: r.seen, positionals := 1 }
  let takeInputs (r : Reading) (skip n : Nat) : Reading :=
    { r with values := ("inputfiles", .texts (raw n skip)) :: r.values,
             seen := "inputfiles" :: r.seen, positionals := 2 }
  match r.positionals with
  | 0 =>
    match matchOne pattern with
    | some n1 =>
      match matchMany (pattern.drop n1) with
      | some n2 => (takeInputs (takeModel r n1) n1 n2, i + n1 + n2)
      | none => (takeModel r n1, i + n1)
    | none => (r, i)
  | 1 =>
    match matchMany pattern with
    | some n => (takeInputs r 0 n, i + n)
    | none => (r, i)
  | _ => (r, i)

/-- Performs the option at token `i`, with the value after `=` or joined to it, or the argument
after it; joined short flags are performed in turn. Returns the index after the arguments
taken. -/
def consumeOptional (tokens : Array Token) (i : Nat) (u : OptionUse) (r : Reading) :
    Except Stop (Reading × Nat) := do
  -- each joined short flag takes one character, so the argument's length bounds the steps
  let rec go (fuel : Nat) (o : OptionSpec) (flag : String) (explicit : Option String)
      (done : List (OptionSpec × List String)) :
      Except Stop (List (OptionSpec × List String) × Nat) :=
    let ignored (arg : String) : Except Stop (List (OptionSpec × List String) × Nat) :=
      .error (.error ("argument " ++ o.name ++ ": ignored explicit argument " ++ Text.quoted arg))
    match fuel with
    | 0 => .ok (done, i + 1)
    | fuel + 1 =>
      match explicit with
      | some arg =>
        if !o.takesValue && flag.toList.getD 1 '-' != '-' && !arg.isEmpty then
          let next := String.ofList ['-', arg.toList.headD ' ']
          let rest := String.ofList (arg.toList.drop 1)
          match lookupFlag next with
          | some o2 => go fuel o2 next (if rest.isEmpty then none else some rest) (done ++ [(o, [])])
          | none => ignored arg
        else if o.takesValue then .ok (done ++ [(o, [arg])], i + 1)
        else ignored arg
      | none =>
        if o.takesValue then
          match tokens.getD (i + 1) .separator with
          | .value s => .ok (done ++ [(o, [s])], i + 2)
          | _ => .error (.error ("argument " ++ o.name ++ ": expected one argument"))
        else .ok (done ++ [(o, [])], i + 1)
  match u.spec with
  | none => pure ({ r with extras := r.extras ++ [u.raw] }, i + 1)
  | some o =>
    let (acts, stop) ← go (u.raw.length + 1) o u.flag u.explicit []
    let r ← acts.foldlM (fun r (o, args) => takeOption r o args) r
    pure (r, stop)

/-- The index of the first option token at or after `i`. -/
def nextOption (tokens : Array Token) (i : Nat) : Option Nat :=
  ((List.range (tokens.size - i)).map (· + i)).find? (fun k =>
    match tokens.getD k .separator with
    | .option _ => true
    | _ => false)

/-- Reads the tokens from index `i`: runs of values go to the positional arguments, options
are performed, and what is left over is not recognized. The fuel bounds the steps; every step
moves past at least one token. -/
def readFrom (tokens : Array Token) : Nat → Nat → Reading → Except Stop Reading
  | 0, _, r => .ok r
  | fuel + 1, i, r =>
    let optionAt (k : Nat) (r : Reading) : Except Stop Reading :=
      match tokens.getD k .separator with
      | .option u => do
        let (r, j) ← consumeOptional tokens k u r
        readFrom tokens fuel j r
      | _ => .ok r
    match nextOption tokens i with
    | none =>
      let (r, stop) := consumePositionals tokens i r
      .ok { r with extras := r.extras ++ (tokens.toList.drop stop).map Token.raw }
    | some k =>
      if i != k then
        let (r', j) := consumePositionals tokens i r
        if j > i then readFrom tokens fuel j r'
        else optionAt k { r' with extras := r'.extras ++ ((tokens.toList.drop i).take (k - i)).map Token.raw }
      else optionAt k r

/-- The stored value under a name, the latest one. -/
def Reading.get? (r : Reading) (dest : String) : Option Setting :=
  (r.values.find? (fun p => p.1 == dest)).map Prod.snd

/-- A stored text, or a default. -/
def Reading.text (r : Reading) (dest dflt : String) : String :=
  match r.get? dest with
  | some (.text s) => s
  | _ => dflt

/-- A stored integer, if any. -/
def Reading.int? (r : Reading) (dest : String) : Option Int :=
  match r.get? dest with
  | some (.int n) => some n
  | _ => none

/-- A stored real number, if any. -/
def Reading.real? (r : Reading) (dest : String) : Option Float :=
  match r.get? dest with
  | some (.real x) => some x
  | _ => none

/-- The values of a command line. -/
structure Arguments where
  modelDir : String
  inputs : List String
  backend : String
  device : String
  threads : Int
  config : Option String
  chunkSize : Option Int
  leftChunks : Option Int
  ctcWeight : Option Float
  rescoringWeight : Option Float
  reverseWeight : Option Float
  nbest : Option Int
  blockFrames : Int
  quiet : Bool
  logLevel : String
  deriving Inhabited

/-- The values read, with the defaults of the options not given. -/
def Arguments.ofReading (r : Reading) : Arguments :=
  { modelDir := r.text "model_dir" ""
    inputs := match r.get? "inputfiles" with
      | some (.texts ss) => ss
      | _ => []
    backend := r.text "backend" "torch"
    device := r.text "device" "cpu"
    threads := (r.int? "num_threads").getD 1
    config := match r.get? "config" with
      | some (.text s) => some s
      | _ => none
    chunkSize := r.int? "chunk_size"
    leftChunks := r.int? "num_left_chunks"
    ctcWeight := r.real? "ctc_weight"
    rescoringWeight := r.real? "rescoring_weight"
    reverseWeight := r.real? "reverse_weight"
    nbest := r.int? "nbest"
    blockFrames := (r.int? "block_frames").getD 0
    quiet := (r.get? "quiet").isSome
    logLevel := r.text "log_level" "WARNING" }

/-- What reading a command line gives: its values, a request for help, or an error message. -/
inductive Parsed where
  | run (a : Arguments)
  | help
  | error (message : String)
  deriving Inhabited

/-- Reads a command line (without the command's name). After the arguments are read, a
positional argument without a value and then arguments not recognized are errors. -/
def parse (argv : List String) : Parsed :=
  match classify argv with
  | .error m => .error m
  | .ok tokens =>
    let arr := tokens.toArray
    match readFrom arr (arr.size + 1) 0 ⟨[], [], 0, []⟩ with
    | .error .help => .help
    | .error (.error m) => .error m
    | .ok r =>
      let missing := ["model_dir", "inputfiles"].filter (fun d => !r.seen.contains d)
      if !missing.isEmpty then
        .error ("the following arguments are required: " ++ ", ".intercalate missing)
      else if !r.extras.isEmpty then .error ("unrecognized arguments: " ++ " ".intercalate r.extras)
      else .run (Arguments.ofReading r)

end SpeechStream.Cli
