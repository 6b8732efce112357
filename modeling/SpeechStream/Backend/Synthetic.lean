import SpeechStream.Backend.Basic
/-!
A synthetic backend with exactly predictable outputs.

It stands in for real networks when the streaming machinery itself is under test: every
output is a small dyadic number computed from its inputs, so every score a session derives
is exact. With `s = max(subsampling rate, 1)` and `c = max(right context, 0)`:

* the encoder turns a chunk of `T` frames into `T' = (T - c - 1) / s + 1` output frames when
  `T > c` (else none); frame `t` is `[offset + t, first feature of input frame t·s]`, and
  each cache it was given comes back increased by one (an empty vector for a cache it was
  not given);
* the CTC head gives frame `t` at position `p = ⌊frame[0]⌋` (toward zero) the value
  `-(p mod 4)/8` at label `⌊frame[1]⌋ mod V` and `-(((3v + p) mod 5) + 1)/2` at every other
  label `v`;
* the decoder scores position `j` of hypothesis `i` with label `v` as
  `-((7·h + 3j + 5v + 2·len + T) mod 16)/4` left to right, and
  `-((5·h + 7j + 3v + len + 3T + 1) mod 16)/4` right to left (only for a bidirectional model
  that provides it), where `h` is the token at that position and `T` the encoder frames. The values are negated
integers divided exactly, so a zero is a positive zero.
-/

set_option autoImplicit false

namespace SpeechStream

/-- The settings of a synthetic backend. -/
structure Synthetic where
  metadata : Metadata
  /-- Number of labels. -/
  vocab : Nat
  /-- Encoder roles it accepts. -/
  roles : List Role
  /-- Whether a bidirectional model provides right-to-left scores. -/
  backward : Bool

namespace Synthetic

/-- Effective subsampling rate. -/
def rate (s : Synthetic) : Nat := (max s.metadata.subsamplingRate 1).toNat

/-- Effective right context. -/
def context (s : Synthetic) : Nat := (max s.metadata.rightContext 0).toNat

/-- Output frames for `T` input frames. -/
def outFrames (s : Synthetic) (T : Nat) : Nat :=
  if T ≥ s.context + 1 then (T - s.context - 1) / s.rate + 1 else 0

/-- A cache increased by one, or the empty vector when it was not given. -/
def bump (t : Option Tensor) : Tensor :=
  match t with
  | some t => t.map (· + 1)
  | none => ⟨[0], #[]⟩

/-- The encoder of the synthetic backend. A chunk of rank below three is a fault. -/
def encode (s : Synthetic) (feed : Feed) : Except Fault EncoderOutput := do
  let (T, F, chunk) ← match feed.tensor? .chunk with
    | some c => match c.shape with
      | _ :: t :: f :: _ => pure (t, f, some c)
      | _ => throw Fault.indexOutOfRange
    | none => pure (0, 0, none)
  let offset := (feed.int? .offset).getD 0
  let n := s.outFrames T
  let rows := (List.range n).map (fun (t : Nat) =>
    let pos : Float32 := (Float.ofInt (offset + (t : Int))).toFloat32
    let feat : Float32 := if F == 0 then 0 else
      match chunk with
      | some c => (c.get? ([0, t * s.rate] ++ (c.shape.drop 2).map (fun _ => (0 : Nat)))).getD 0
      | none => 0
    #[pos, feat])
  pure ⟨⟨[1, n, 2], rows.foldl (· ++ ·) #[]⟩, bump (feed.tensor? .attCache),
    bump (feed.tensor? .cnnCache)⟩

/-- Non-negative remainder. -/
def emod (a : Int) (m : Nat) : Nat := (a % (m : Int)).toNat

/-- The CTC head of the synthetic backend: frames of width two in, one row of `vocab`
log-probabilities per frame out, with a leading axis of one. -/
def ctc (s : Synthetic) (enc : Tensor) : Except Fault Tensor := do
  let frames := (enc.row 0)
  let n := frames.numRows
  if s.vocab == 0 then throw Fault.divisionByZero
  let rows ← (List.range n).mapM (fun t => do
    let x0 ← match frames.get? [t, 0] with
      | some x => pure x
      | none => throw Fault.indexOutOfRange
    let x1 ← match frames.get? [t, 1] with
      | some x => pure x
      | none => throw Fault.indexOutOfRange
    let pos : Int := x0.toFloat.toInt64.toInt
    let tok : Nat := if x1.isFinite then emod (x1.toFloat.floor.toInt64.toInt) s.vocab else 0
    pure ((List.range s.vocab).map (fun v =>
      if v == tok then (Float.ofInt (-((emod pos 4 : Nat) : Int)) / 8.0).toFloat32
      else (Float.ofInt (-((emod (3 * v + pos) 5 + 1 : Nat) : Int)) / 2.0).toFloat32)).toArray)
  pure ⟨[1, n, s.vocab], rows.foldl (· ++ ·) #[]⟩

/-- Scores of the synthetic decoder for one direction. -/
def scores (s : Synthetic) (d : DecoderInput) (f : Int → Nat → Nat → Int → Nat → Int) : Tensor :=
  let T := d.enc.shape.getD 1 0
  let L := (d.hyps.headD []).length
  let data := (d.hyps.zip d.lens).flatMap (fun (row, len) =>
    (List.range L).flatMap (fun j => (List.range s.vocab).map (fun v =>
      let h := row.getD j 0
      (Float.ofInt (-((emod (f h j v len T) 16 : Nat) : Int)) / 4.0).toFloat32)))
  ⟨[d.hyps.length, L, s.vocab], data.toArray⟩

/-- The attention decoder of the synthetic backend. -/
def decode (s : Synthetic) (d : DecoderInput) : Except Fault DecoderOutput :=
  let fwd := s.scores d (fun h j v len T => h * 7 + j * 3 + v * 5 + len * 2 + T)
  let bwd := if s.metadata.bidirectional && s.backward then
      some (s.scores d (fun h j v len T => h * 5 + j * 7 + v * 3 + len + T * 3 + 1))
    else none
  .ok ⟨fwd, bwd⟩

/-- The synthetic backend as a backend. -/
def toBackend (s : Synthetic) : Backend :=
  ⟨s.metadata, s.roles, s.encode, s.ctc, s.decode⟩

end Synthetic

end SpeechStream
