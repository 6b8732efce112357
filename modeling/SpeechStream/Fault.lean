import SpeechStream.Document.Literal
/-!
Faults: every way an operation of the library can fail, by cause.

Each fault has a message when its text is part of the library's contract; the faults that
arise in the arithmetic of tensors or in the host's file and number handling carry no text,
only their cause.
-/

set_option autoImplicit false

namespace SpeechStream

/-- The causes of failure. -/
inductive Fault where
  /-- Required metadata keys are absent; all of them are named, in table order. -/
  | missingKeys (keys : List String)
  /-- A metadata value is not an integer. -/
  | notAnInteger (key : String) (v : Value)
  /-- The encoder geometry is impossible: no attention head or a negative block count. -/
  | badGeometry (heads blocks : Int)
  /-- A document of the wrong kind was searched or indexed. -/
  | wrongKind
  /-- A YAML text could not be read; the stage that refused it is named. -/
  | malformedYaml (stage : String)
  /-- A vocabulary line does not have exactly two parts. -/
  | badUnitsLine (file : String) (line : Nat) (text : String)
  /-- A text that should be an integer is not one. -/
  | badInteger (text : String)
  /-- An integer text has too many digits. -/
  | integerTooLong
  /-- Bytes that are not UTF-8. -/
  | badEncoding
  /-- Frames were offered after the input was declared finished. -/
  | acceptAfterFinish
  /-- Frames that are not a matrix of frames by features. -/
  | notAMatrix (shape : List Nat)
  /-- Frames whose feature width differs from the one fixed before. -/
  | dimMismatch (expected got : Nat)
  /-- Tensors whose shapes do not fit the operation. -/
  | shapeMismatch
  /-- A nested list that is not rectangular or holds something other than numbers. -/
  | malformedTensor
  /-- An index outside a tensor or list. -/
  | indexOutOfRange
  /-- A tensor of negative size was asked for. -/
  | negativeSize
  /-- An integer does not fit in 64 bits, or a tensor's byte count does not. -/
  | overflow
  /-- An integer does not fit in 64 bits when it is turned into an array element. -/
  | conversionOverflow
  /-- An integer division by zero. -/
  | divisionByZero
  /-- The stream was used before its state was set up. -/
  | uninitialized
  /-- A chunk step found neither new nor carried-over frames. -/
  | emptyInput
  /-- The largest of no hypotheses was asked for. -/
  | noHypotheses
  /-- A bidirectional decoder gave no right-to-left scores. -/
  | noBackwardScores
  /-- Frames were offered to an utterance that is already finished. -/
  | utteranceFinished
  /-- A backend name that is not known. -/
  | unknownBackend (name : String)
  /-- The runtime for exported graphs is not available. -/
  | runtimeMissing
  /-- A file that does not exist; the message is known for the library's own checks. -/
  | fileNotFound (message : Option String)
  /-- A checked condition of a layer failed, with its message. -/
  | assertion (message : String)
  /-- An argument outside the values an operation accepts, with its message. -/
  | invalidArgument (message : String)
  /-- An argument of a kind the operation cannot use. -/
  | typeMismatch
  /-- A decoding loop that stopped making progress. -/
  | stalled
  /-- A backend that failed of its own accord, without a message. -/
  | backendFailed
  /-- Fewer values than the names they were to be bound to. -/
  | tooFewValues
  /-- A key that a mapping lacks. -/
  | keyMissing
  /-- An activation name that is not known; the name is given as written. -/
  | unknownActivation (name : String)
  /-- A decoder kind that is not known; the kind is given as written. -/
  | unknownDecoder (kind : String)
  /-- Arrays whose shapes cannot be combined number by number. -/
  | incompatibleShapes
  /-- A channel-wise convolution over no channels. -/
  | noChannels
  /-- Tensors were to be joined, but there were none. -/
  | nothingToJoin
  /-- Normalization statistics with neither known set of keys; the keys are listed. -/
  | unknownStats (keys : List String)
  /-- A model configuration without a vocabulary size. -/
  | missingVocabSize (path : String)
  /-- A feature file that does not hold a matrix of frames by features. -/
  | notAFeatureMatrix (file : String) (shape : List Nat)
  /-- An attribute looked up on a value that does not have it. -/
  | noAttribute
  /-- A thread count below one. -/
  | badThreadCount
  /-- A device the network cannot be run on. -/
  | deviceUnavailable
  deriving Inhabited

/-- The text of a fault, when it has one. -/
def Fault.message? : Fault → Option String
  | .missingKeys keys => some ("Missing metadata keys: " ++ Literal.texts keys)
  | .notAnInteger key v =>
    some ("Metadata key '" ++ key ++ "' must be an integer, got " ++ Literal.render v)
  | .badGeometry heads blocks =>
    some ("Invalid encoder geometry: head=" ++ Json.intText heads ++ ", num_blocks=" ++
      Json.intText blocks)
  | .badUnitsLine file line text =>
    some (file ++ ":" ++ Decimal.natText line ++ ": expected '<symbol> <id>', got " ++
      Text.quoted text)
  | .badInteger text => some ("invalid literal for int() with base 10: " ++ Text.quoted text)
  | .acceptAfterFinish => some "accept_features called after set_input_finished"
  | .notAMatrix shape =>
    some ("Expected (frames, feat_dim) features, got shape " ++ Literal.tuple shape)
  | .dimMismatch expected got =>
    some ("Expected feature dim " ++ Decimal.natText expected ++ ", got " ++ Decimal.natText got)
  | .uninitialized => some "StreamingAsrModel.reset() must be called first"
  | .emptyInput => some "forward_chunk called without any feature frames"
  | .noHypotheses => some "max() arg is an empty sequence"
  | .noBackwardScores => some "Backend returned no right-to-left scores for a bidirectional decoder"
  | .utteranceFinished => some "Utterance already finished, call reset() first"
  | .unknownBackend name =>
    some ("Unknown backend '" ++ name ++ "', expected 'torch' or 'onnx'")
  | .runtimeMissing =>
    some "onnxruntime required for ONNX backend. Install with: pip install onnxruntime"
  | .fileNotFound message => message
  | .unknownActivation name =>
    some ("Unknown activation '" ++ name ++ "', expected one of ['relu', 'swish', 'gelu']")
  | .unknownDecoder kind =>
    some ("decoder_type must be 'transformer' or 'bitransformer', got " ++ kind)
  | .unknownStats keys => some ("Unknown stats format. Keys: " ++ Literal.texts keys)
  | .missingVocabSize path => some (path ++ " does not define vocab_size")
  | .notAFeatureMatrix file shape =>
    some (file ++ ": expected a (frames, feat_dim) matrix, got shape " ++ Literal.tuple shape)
  | .assertion message => some message
  | .invalidArgument message => some message
  | _ => none

/-- The class of a fault, as the reported kind of error. -/
def Fault.kind : Fault → String
  | .missingKeys _ | .notAnInteger _ _ | .badGeometry _ _ => "MetadataError"
  | .wrongKind | .typeMismatch => "TypeError"
  | .malformedYaml stage => stage
  | .badUnitsLine _ _ _ | .badInteger _ | .integerTooLong | .notAMatrix _ | .dimMismatch _ _
  | .malformedTensor | .unknownActivation _ | .unknownDecoder _ | .nothingToJoin | .unknownStats _
  | .missingVocabSize _ | .notAFeatureMatrix _ _ | .incompatibleShapes | .noChannels
  | .noHypotheses | .unknownBackend _ | .invalidArgument _ | .tooFewValues => "ValueError"
  | .badEncoding => "UnicodeDecodeError"
  | .acceptAfterFinish | .shapeMismatch | .negativeSize | .overflow | .noBackwardScores
  | .utteranceFinished | .stalled | .backendFailed | .badThreadCount
  | .deviceUnavailable => "RuntimeError"
  | .conversionOverflow => "OverflowError"
  | .indexOutOfRange => "IndexError"
  | .divisionByZero => "ZeroDivisionError"
  | .uninitialized => "UninitializedModelError"
  | .emptyInput => "EmptyInputError"
  | .runtimeMissing => "ImportError"
  | .fileNotFound _ => "FileNotFoundError"
  | .assertion _ => "AssertionError"
  | .keyMissing => "KeyError"
  | .noAttribute => "AttributeError"

end SpeechStream
