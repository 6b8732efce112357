import SpeechStream.Backend.Synthetic
/-!
Backends over exported graphs that are run by input name.

An exported encoder declares the names of its inputs; an input whose name is the name of an
encoder role receives that role's value, and the others are not fed. Values are fed with the
element types the graphs expect: single precision for frames and caches, 64-bit integers for
the offset and the cache size, truth values for the mask; an integer outside 64 bits cannot be
converted. The first three outputs of the encoder are its output and the two new caches; an
encoder that returns fewer cannot be read. The CTC graph is fed under its first input
name. The decoder is fed by position: hypotheses, lengths and encoder output under its first
three input names; it yields right-to-left scores exactly when it returns a second output.
-/

set_option autoImplicit false

namespace SpeechStream

/-- An exported graph: declared input and output names, and how it computes its outputs from
named inputs. -/
structure Graph where
  inputs : List String
  outputs : List String
  run : List (String × Input) → Except Fault (List Tensor)

/-- The three graphs of an exported model, with the model's metadata. -/
structure GraphSet where
  metadata : Metadata
  encoder : Graph
  ctc : Graph
  decoder : Graph

namespace GraphSet

/-- Encoder roles that have an input of their name. -/
def roles (g : GraphSet) : List Role :=
  Role.all.filter (fun r => g.encoder.inputs.contains r.name)

/-- A value converted to the element type of its input; an integer must fit in 64 bits. -/
def convert (v : Input) : Except Fault Input :=
  match v with
  | .int n => if fitsInt64 n then .ok (.int n) else .error .conversionOverflow
  | v => .ok v

/-- The named encoder inputs for a feed: the roles the graph declares, in feed order, each value
converted. -/
def encoderFeed (g : GraphSet) (feed : Feed) : Except Fault (List (String × Input)) :=
  (feed.filter (fun p => g.encoder.inputs.contains p.1.name)).mapM
    (fun (r, v) => do pure (r.name, ← convert v))

/-- The named CTC input. -/
def ctcFeed (g : GraphSet) (enc : Tensor) : Except Fault (List (String × Input)) :=
  match g.ctc.inputs with
  | name :: _ => .ok [(name, .tensor enc)]
  | [] => .error .indexOutOfRange

/-- The named decoder inputs, bound by position. -/
def decoderFeed (g : GraphSet) (d : DecoderInput) : Except Fault (List (String × Input)) :=
  match g.decoder.inputs with
  | a :: b :: c :: _ =>
    let width := (d.hyps.headD []).length
    .ok [(a, .ints [d.hyps.length, width] d.hyps.flatten), (b, .ints [d.lens.length] d.lens),
      (c, .tensor d.enc)]
  | _ => .error .indexOutOfRange

/-- The first output of a graph. -/
def firstOutput (outs : List Tensor) : Except Fault Tensor :=
  match outs with
  | t :: _ => .ok t
  | [] => .error .indexOutOfRange

/-- The backend that runs the three graphs. -/
def toBackend (g : GraphSet) : Backend where
  metadata := g.metadata
  roles := g.roles
  encode feed := do
    match ← g.encoder.run (← g.encoderFeed feed) with
    | out :: att :: cnn :: _ => pure ⟨out, att, cnn⟩
    | _ => throw .tooFewValues
  ctc enc := do
    let outs ← g.ctc.run (← g.ctcFeed enc)
    firstOutput outs
  decode d := do
    let outs ← g.decoder.run (← g.decoderFeed d)
    let fwd ← firstOutput outs
    pure ⟨fwd, outs[1]?⟩

end GraphSet

namespace Synthetic

/-- Reads a feed back from named inputs: names of roles give those roles. -/
def feedOfNames (named : List (String × Input)) : Feed :=
  named.filterMap (fun (n, v) => (Role.ofName? n).map (fun r => (r, v)))

/-- The encoder, CTC and decoder of a synthetic backend as graphs with the given names. The
decoder graph returns right-to-left scores only when it declares a second output. -/
def graphs (s : Synthetic) (encIn ctcIn decIn decOut : List String) : GraphSet where
  metadata := s.metadata
  encoder := ⟨encIn, ["output", "r_att_cache", "r_cnn_cache"], fun named => do
    let o ← s.encode (feedOfNames named)
    pure [o.out, o.attCache, o.cnnCache]⟩
  ctc := ⟨ctcIn, ["ctc_log_probs"], fun named => do
    match named with
    | (_, .tensor t) :: _ => pure [← s.ctc t]
    | _ => throw .indexOutOfRange⟩
  decoder := ⟨decIn, decOut, fun named => do
    match named with
    | (_, .ints [n, w] hs) :: (_, .ints _ lens) :: (_, .tensor enc) :: _ =>
      let hyps := (List.range n).map (fun i => (hs.drop (i * w)).take w)
      let o ← s.decode ⟨hyps, lens, enc⟩
      match o.backward with
      | some b => pure (if decOut.length ≥ 2 then [o.forward, b] else [o.forward])
      | none => pure [o.forward]
    | _ => throw .indexOutOfRange⟩

end Synthetic

end SpeechStream
