import SpeechStream.Proofs.PaddingMask
/-!
Offset bookkeeping of a stream.

The offset of a stream is the output position of its next encoder frame. A reset starts it at
the cache window (the chunk size times the left chunks, when left chunks are kept) with no
output; an encoder call that returns records its output and moves the offset on by the output's
frames; nothing else touches the two. So along every run of resets, chunk steps, rescorings and
copies the offset is the window and the frames of the recorded outputs (`Stream.run_bookkept`);
the outputs are those of the encoder calls since the last reset, in call order, each call given
the offset that the calls before it left (`Stream.run_chronicle`); and a rescoring hands the
decoder the outputs joined along time.
-/

set_option autoImplicit false

namespace SpeechStream

/-- Rows of the attention cache that a reset fills with zeros: the chunk size times the left
chunks, when left chunks are kept. -/
def Metadata.cacheWindow (m : Metadata) : Int := if m.leftChunks > 0 then m.requiredCacheSize else 0

/-- The frames of encoder outputs `[batch, frames, width]`, all chunks together. -/
def outputFrames (outs : List Tensor) : Nat := (outs.map fun t => t.shape.getD 1 0).sum

@[simp] theorem outputFrames_nil : outputFrames [] = 0 := rfl

@[simp] theorem outputFrames_cons (t : Tensor) (outs : List Tensor) :
    outputFrames (t :: outs) = t.shape.getD 1 0 + outputFrames outs := by
  simp [outputFrames]

@[simp] theorem outputFrames_append (a b : List Tensor) :
    outputFrames (a ++ b) = outputFrames a + outputFrames b := by
  simp [outputFrames]

theorem StreamState.encoded_eq (st : StreamState) : st.encoded = outputFrames st.outputs := rfl

theorem Tensor.size?_one {t : Tensor} {n : Nat} (h : t.size? 1 = .ok n) : t.shape.getD 1 0 = n := by
  cases hs : t.shape with
  | nil => simp [Tensor.size?, Tensor.rank, hs] at h
  | cons a rest =>
    cases rest with
    | nil => simp [Tensor.size?, Tensor.rank, hs] at h
    | cons b rest => simpa [Tensor.size?, Tensor.rank, hs] using h

/-- Encoder calls and their outputs, in call order, from an offset: each call returned its
output, was given the offset when the backend reads one, and moved the offset on by the
output's frames. -/
inductive Chronicle (b : Backend) : Int → List Feed → List Tensor → Prop
  | nil (offset : Int) : Chronicle b offset [] []
  | call {offset : Int} {f : Feed} {enc : EncoderOutput} {fs : List Feed} {os : List Tensor} :
      b.encode f = .ok enc → (Role.offset ∈ b.roles → f.int? .offset = some offset) →
      Chronicle b (offset + enc.out.shape.getD 1 0) fs os → Chronicle b offset (f :: fs) (enc.out :: os)

theorem Chronicle.append {b : Backend} {offset : Int} {fs : List Feed} {os : List Tensor}
    (h : Chronicle b offset fs os) :
    ∀ {gs : List Feed} {ps : List Tensor}, Chronicle b (offset + outputFrames os) gs ps →
      Chronicle b offset (fs ++ gs) (os ++ ps) := by
  induction h with
  | nil offset =>
    intro gs ps h'
    simpa using h'
  | call henc hoff _ ih =>
    intro gs ps h'
    refine .call henc hoff (ih ?_)
    simpa [Int.add_assoc] using h'

/-- A backend whose encoder outputs all have a time axis, as outputs `[batch, frames, width]`
do. -/
def Backend.TimeAxis (b : Backend) : Prop :=
  ∀ feed enc, b.encode feed = .ok enc → ∃ n, enc.out.size? 1 = .ok n

theorem Synthetic.timeAxis (y : Synthetic) : y.toBackend.TimeAxis := by
  intro feed enc h
  have hshape : ∃ n, enc.out.shape = [1, n, 2] := by
    simp only [Synthetic.toBackend, Synthetic.encode] at h
    repeat' split at h
    all_goals simp only [bind, Except.bind, pure, Except.pure, throw, throwThe,
      MonadExceptOf.throw, reduceCtorEq, Except.ok.injEq] at h
    all_goals (try split at h)
    all_goals cases h
    all_goals exact ⟨_, rfl⟩
  obtain ⟨n, hn⟩ := hshape
  exact ⟨n, by simp [Tensor.size?, Tensor.rank, hn]⟩

namespace Stream

/-- An operation on a stream: a reset, a chunk of frames, a rescoring of hypotheses, or a copy,
after which the new stream carries on. -/
inductive Op where
  | reset
  | forward (features : Tensor)
  | rescore (hyps : List (List Int)) (weight : Float)
  | copy

/-- Chunk steps and rescorings carry on the utterance; resets and copies start a new one. -/
def Op.continues : Op → Bool
  | .forward _ => true
  | .rescore _ _ => true
  | _ => false

/-- Runs one operation: the stream after it and the backend calls it made. A reset or a copy
that faults leaves the stream as it was. -/
def exec (s : Stream) : Op → Stream × List Call
  | .reset =>
    match s.reset with
    | .ok s' => (s', [])
    | .error _ => (s, [])
  | .forward t => ((s.forward t).next, (s.forward t).calls)
  | .rescore hyps w => ((s.rescore hyps w).next, (s.rescore hyps w).calls)
  | .copy =>
    match s.copy with
    | .ok s' => (s', [])
    | .error _ => (s, [])

/-- Runs operations in order: the last stream and every backend call, in order. -/
def run : Stream → List Op → Stream × List Call
  | s, [] => (s, [])
  | s, op :: ops =>
    let step := s.exec op
    let rest := run step.1 ops
    (rest.1, step.2 ++ rest.2)

@[simp] theorem run_nil (s : Stream) : s.run [] = (s, []) := rfl

@[simp] theorem run_cons (s : Stream) (op : Op) (ops : List Op) :
    s.run (op :: ops) = (((s.exec op).1.run ops).1, (s.exec op).2 ++ ((s.exec op).1.run ops).2) := rfl

/-- The offset of the stream's state, when it has one, is the cache window and the frames of
the outputs it recorded. -/
def Bookkept (s : Stream) : Prop :=
  ∀ st, s.state = some st → st.offset = s.metadata.cacheWindow + st.encoded

theorem new_bookkept (b : Backend) (m : Metadata) : (new b m).Bookkept := by
  intro st h
  cases h

theorem reset_fresh {s s' : Stream} (h : s.reset = .ok s') :
    s'.backend = s.backend ∧ s'.metadata = s.metadata ∧
      ∃ st, s'.state = some st ∧ st.outputs = [] ∧ st.offset = s.metadata.cacheWindow := by
  obtain ⟨st, hst, rfl⟩ := reset_eq_ok h
  obtain ⟨-, houts, hoff⟩ := freshState_ok hst
  exact ⟨rfl, rfl, st, rfl, houts, hoff⟩

theorem copy_fresh {s s' : Stream} (h : s.copy = .ok s') :
    s'.backend = s.backend ∧ s'.metadata = s.metadata ∧
      ∃ st, s'.state = some st ∧ st.outputs = [] ∧ st.offset = s.metadata.cacheWindow :=
  reset_fresh (s := new s.backend s.metadata) h

theorem fresh_bookkept {s s' : Stream}
    (h : s'.metadata = s.metadata ∧ ∃ st, s'.state = some st ∧ st.outputs = [] ∧
      st.offset = s.metadata.cacheWindow) : s'.Bookkept := by
  obtain ⟨hmd, st, hst, houts, hoff⟩ := h
  intro st' hst'
  rw [hst] at hst'
  cases hst'
  simp [StreamState.encoded_eq, houts, hoff, hmd]

theorem feed_offset {s : Stream} {st : StreamState} {feats : Tensor} {inputs : Feed}
    (h : s.feed st feats = .ok inputs) (hrole : Role.offset ∈ s.backend.roles) :
    inputs.int? .offset = some st.offset := by
  unfold feed at h
  cases hm : s.mask st.offset with
  | error f => simp [hm, bind, Except.bind] at h
  | ok mo =>
    simp only [hm, bind, Except.bind, pure, Except.pure, Except.ok.injEq] at h
    subst h
    cases mo <;> by_cases hchunk : Role.chunk ∈ s.backend.roles <;>
      simp [Feed.int?, Feed.get?, List.filter_cons, hrole, hchunk]

theorem encodeFrames_books (s : Stream) (st : StreamState) (feats : Tensor) :
    ((s.encodeFrames st feats).calls = [] ∧ ((s.encodeFrames st feats).next = s ∨
      (s.encodeFrames st feats).next = { s with state := some { st with carried := some feats } })) ∨
    (∃ inputs enc f, s.backend.encode inputs = .ok enc ∧ enc.out.size? 1 = .error f ∧
      (s.encodeFrames st feats).next = s.cached st enc) ∨
    ∃ inputs enc produced, s.feed st feats = .ok inputs ∧ s.backend.encode inputs = .ok enc ∧
      enc.out.size? 1 = .ok produced ∧ feedsOf (s.encodeFrames st feats).calls = [inputs] ∧
      ∃ v c, (s.encodeFrames st feats).next = { s with vocab := v, state := some { st with
        attCache := enc.attCache, cnnCache := enc.cnnCache, offset := st.offset + produced,
        outputs := st.outputs ++ [enc.out], carried := c } } := by
  rcases encodeFrames_cases s st feats with ⟨f, he⟩ | ⟨n, -, -, -, he⟩ |
      ⟨inputs, enc, f, -, henc, hsize, he⟩ |
      ⟨n, inputs, enc, produced, hrows, hpos, hctx, hfeed, henc, hsize⟩
  · rw [he]
    exact .inl ⟨rfl, .inl rfl⟩
  · rw [he]
    exact .inl ⟨rfl, .inr rfl⟩
  · rw [he]
    exact .inr (.inl ⟨inputs, enc, f, henc, hsize, rfl⟩)
  · refine .inr (.inr ⟨inputs, enc, produced, hfeed, henc, hsize, ?_⟩)
    have hone : feedsOf [.encoder inputs] = [inputs] := by simp [feedsOf, Call.feed?]
    have htwo : feedsOf [.encoder inputs, .ctc enc.out] = [inputs] := by simp [feedsOf, Call.feed?]
    rcases encodeFrames_of_returned hrows hpos hctx hfeed henc hsize with
      ⟨f, calls, rfl | rfl, he⟩ | ⟨v, lp, he⟩
    · rw [he]
      exact ⟨hone, s.vocab, st.carried, rfl⟩
    · rw [he]
      exact ⟨htwo, s.vocab, st.carried, rfl⟩
    · rw [he]
      exact ⟨htwo, v, _, rfl⟩

theorem forward_chronicle {s : Stream} {st : StreamState} (hst : s.state = some st) (t : Tensor) :
    (s.forward t).next.backend = s.backend ∧ (s.forward t).next.metadata = s.metadata ∧
      ∃ st' outs, (s.forward t).next.state = some st' ∧ st'.outputs = st.outputs ++ outs ∧
        st'.offset = st.offset + outputFrames outs ∧
        (s.backend.TimeAxis → Chronicle s.backend st.offset (feedsOf (s.forward t).calls) outs) := by
  have hkeep : s.backend.TimeAxis → Chronicle s.backend st.offset (feedsOf []) [] :=
    fun _ => .nil _
  unfold forward
  simp only [current, hst]
  cases hjoin : joinCarried st t with
  | error f => exact ⟨rfl, rfl, st, [], hst, by simp, by simp, hkeep⟩
  | ok feats =>
    simp only
    rcases encodeFrames_books s st feats with ⟨hcalls, hnext | hnext⟩ |
        ⟨inputs, enc, f, henc, hsize, hnext⟩ |
        ⟨inputs, enc, produced, hfeed, henc, hsize, hfeeds, v, c, hnext⟩
    · rw [hcalls, hnext]
      exact ⟨rfl, rfl, st, [], hst, by simp, by simp, hkeep⟩
    · rw [hcalls, hnext]
      exact ⟨rfl, rfl, _, [], rfl, by simp, by simp, hkeep⟩
    · -- an output without a time axis is recorded nowhere, which a time axis rules out
      rw [hnext]
      refine ⟨rfl, rfl, _, [], rfl, by simp, by simp, fun hax => ?_⟩
      obtain ⟨n, hn⟩ := hax inputs enc henc
      rw [hsize] at hn
      cases hn
    · rw [hfeeds, hnext]
      have hframes := Tensor.size?_one hsize
      refine ⟨rfl, rfl, _, [enc.out], rfl, rfl,
        by rw [outputFrames_cons, outputFrames_nil, hframes, Nat.add_zero], fun _ => ?_⟩
      exact .call henc (fun hrole => feed_offset hfeed hrole) (.nil _)

theorem forward_of_none {s : Stream} (h : s.state = none) (t : Tensor) : (s.forward t).next = s := by
  simp [forward, current, h]

theorem decoder_of_rescore {b : Backend} {sos eos : Int} {bidirectional : Bool}
    {hyps : List (List Int)} {outs : List Tensor} {w : Float} {input : DecoderInput}
    (h : Call.decoder input ∈ (SpeechStream.rescore b sos eos bidirectional hyps outs w).1) :
    Tensor.catAxis 1 outs = .ok input.enc := by
  unfold SpeechStream.rescore at h
  split at h
  · cases h
  · split at h
    · cases h
    · split at h
      · cases h
      · rename_i enc henc
        split at h
        · cases h
        · dsimp only at h
          split at h
          · cases h
          · split at h <;>
              (simp only [List.mem_singleton, Call.decoder.injEq] at h; subst h; exact henc)

theorem rescore_decoder {s : Stream} {hyps : List (List Int)} {w : Float} {input : DecoderInput}
    (h : Call.decoder input ∈ (s.rescore hyps w).calls) :
    ∃ st, s.state = some st ∧ Tensor.catAxis 1 st.outputs = .ok input.enc := by
  unfold rescore at h
  split at h
  · cases h
  · rename_i st hst
    exact ⟨st, state_of_current hst, decoder_of_rescore h⟩

theorem exec_bookkept {s : Stream} (hs : s.Bookkept) (op : Op) : (s.exec op).1.Bookkept := by
  cases op with
  | reset =>
    cases h : s.reset with
    | ok s' =>
      simp only [exec, h]
      obtain ⟨-, hmd, hfresh⟩ := reset_fresh h
      exact fresh_bookkept ⟨hmd, hfresh⟩
    | error f =>
      simp only [exec, h]
      exact hs
  | copy =>
    cases h : s.copy with
    | ok s' =>
      simp only [exec, h]
      obtain ⟨-, hmd, hfresh⟩ := copy_fresh h
      exact fresh_bookkept ⟨hmd, hfresh⟩
    | error f =>
      simp only [exec, h]
      exact hs
  | rescore hyps w =>
    simp only [exec, rescore_next]
    exact hs
  | forward t =>
    simp only [exec]
    cases hst : s.state with
    | none =>
      rw [forward_of_none hst]
      exact hs
    | some st =>
      obtain ⟨-, hmd, st', outs, hst', houts, hoff, -⟩ := forward_chronicle hst t
      intro st'' h
      rw [hst'] at h
      cases h
      rw [hoff, hs st hst, StreamState.encoded_eq, StreamState.encoded_eq, houts, hmd]
      simp only [outputFrames_append, Nat.cast_add]
      omega

theorem run_bookkept (ops : List Op) : ∀ {s : Stream}, s.Bookkept → (s.run ops).1.Bookkept := by
  induction ops with
  | nil => exact fun hs => hs
  | cons op ops ih => exact fun hs => ih (exec_bookkept hs op)

theorem exec_chronicle {s : Stream} (hax : s.backend.TimeAxis) {st : StreamState}
    (hst : s.state = some st) {op : Op} (hop : op.continues) :
    (s.exec op).1.backend = s.backend ∧ ∃ st' outs, (s.exec op).1.state = some st' ∧
      st'.outputs = st.outputs ++ outs ∧ st'.offset = st.offset + outputFrames outs ∧
      Chronicle s.backend st.offset (feedsOf (s.exec op).2) outs := by
  cases op with
  | forward t =>
    obtain ⟨hb, -, st', outs, hst', houts, hoff, hc⟩ := forward_chronicle hst t
    exact ⟨hb, st', outs, hst', houts, hoff, hc hax⟩
  | rescore hyps w =>
    simp only [exec, rescore_next, Stream.feedsOf_rescore, true_and]
    exact ⟨st, [], hst, by simp, by simp, .nil _⟩
  | reset => cases hop
  | copy => cases hop

theorem run_chronicle (ops : List Op) (hops : ∀ op ∈ ops, op.continues) :
    ∀ {s : Stream} {st : StreamState}, s.backend.TimeAxis → s.state = some st →
      ∃ st' outs, (s.run ops).1.state = some st' ∧ st'.outputs = st.outputs ++ outs ∧
        st'.offset = st.offset + outputFrames outs ∧
        Chronicle s.backend st.offset (feedsOf (s.run ops).2) outs := by
  induction ops with
  | nil =>
    intro s st _ hst
    exact ⟨st, [], hst, by simp, by simp, .nil _⟩
  | cons op ops ih =>
    intro s st hax hst
    obtain ⟨hb, st₁, outs₁, hst₁, houts₁, hoff₁, hc₁⟩ :=
      exec_chronicle hax hst (hops op List.mem_cons_self)
    obtain ⟨st', outs₂, hst', houts₂, hoff₂, hc₂⟩ :=
      ih (fun op' hop' => hops op' (List.mem_cons_of_mem _ hop')) (hb ▸ hax) hst₁
    refine ⟨st', outs₁ ++ outs₂, hst', by rw [houts₂, houts₁, List.append_assoc], ?_, ?_⟩
    · rw [hoff₂, hoff₁, outputFrames_append, Nat.cast_add, Int.add_assoc]
    · -- the calls of the rest start at the offset the first operation left
      rw [run_cons, feedsOf, List.filterMap_append]
      rw [hb, hoff₁] at hc₂
      exact hc₁.append hc₂

end Stream

/-- Offset and history bookkeeping. In every state that a new stream reaches through resets,
chunk steps (buffered and faulting ones included), rescorings and copies, the offset is the
cache window and the frames of the recorded outputs. After a reset or a copy, on a backend whose
encoder outputs have a time axis, the recorded outputs are those of the encoder calls made
since, one per call and in call order, and each call was given, when the backend reads it, the
offset the calls before it left. A rescoring leaves the stream as it is and hands the decoder
the recorded outputs joined along time. -/
theorem stream_offsets_follow_outputs :
    (∀ (b : Backend) (m : Metadata) (ops : List Stream.Op), ((Stream.new b m).run ops).1.Bookkept) ∧
    (∀ (s s' : Stream) (ops : List Stream.Op), (s.reset = .ok s' ∨ s.copy = .ok s') →
      s.backend.TimeAxis → (∀ op ∈ ops, op.continues) →
      ∃ st outs, (s'.run ops).1.state = some st ∧ st.outputs = outs ∧
        st.offset = s.metadata.cacheWindow + outputFrames outs ∧
        Chronicle s.backend s.metadata.cacheWindow (feedsOf (s'.run ops).2) outs) ∧
    ∀ (s : Stream) (hyps : List (List Int)) (w : Float), (s.rescore hyps w).next = s ∧
      ∀ input, Call.decoder input ∈ (s.rescore hyps w).calls →
        ∃ st, s.state = some st ∧ Tensor.catAxis 1 st.outputs = .ok input.enc := by
  refine ⟨fun b m ops => Stream.run_bookkept ops (Stream.new_bookkept b m), ?_, ?_⟩
  · intro s s' ops hfresh hax hops
    obtain ⟨hb, -, st, hst, houts, hoff⟩ := hfresh.elim Stream.reset_fresh Stream.copy_fresh
    obtain ⟨st', outs, hst', houts', hoff', hc⟩ := Stream.run_chronicle ops hops (hb ▸ hax) hst
    refine ⟨st', outs, hst', by rw [houts', houts, List.nil_append], by rw [hoff', hoff], ?_⟩
    rw [← hb, ← hoff]
    exact hc
  · intro s hyps w
    exact ⟨Stream.rescore_next s hyps w, fun input h => Stream.rescore_decoder h⟩

/-- After a reset, a chunk of one frame, a chunk of two and a rescoring on the synthetic
backend, the two encoder calls' outputs are recorded, and the offset is the window and their
frames. -/
theorem stream_offsets_follow_outputs_after_reset :
    let b := (Synthetic.mk (Metadata.single 1) 10 Role.all true).toBackend
    let ops : List Stream.Op :=
      [.forward (Tensor.zeros [1, 1]), .forward (Tensor.zeros [2, 1]), .rescore [[1]] 0.5]
    ∃ s', (Stream.new b (Metadata.single 1)).reset = .ok s' ∧
      ∃ st outs, (s'.run ops).1.state = some st ∧ st.outputs = outs ∧ outs.length = 2 ∧
        st.offset = (Metadata.single 1).cacheWindow + outputFrames outs ∧
        Chronicle b (Metadata.single 1).cacheWindow (feedsOf (s'.run ops).2) outs := by
  intro b ops
  refine ⟨_, rfl, ?_⟩
  obtain ⟨st, outs, hst, houts, hoff, hc⟩ :=
    stream_offsets_follow_outputs.2.1 (Stream.new b (Metadata.single 1)) _ ops (.inl rfl)
      (Synthetic.timeAxis _) (by decide)
  refine ⟨st, outs, hst, houts, ?_, hoff, hc⟩
  have h := congrArg (Option.map fun st : StreamState => st.outputs.length) hst
  rw [Option.map_some] at h
  rw [← houts]
  apply Option.some_inj.1
  rw [← h]
  decide +kernel

end SpeechStream
