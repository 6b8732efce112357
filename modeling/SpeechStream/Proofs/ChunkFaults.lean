import SpeechStream.Proofs.ChunkWindows
import SpeechStream.Backend.Synthetic
/-!
Faults part way through a chunk.

A stream changes nothing until its encoder call has returned: a fault of an unreset stream, of a
chunk without frames, of joining the carried frames, of the attention mask or of the encoder
itself leaves the stream as it was. Once the encoder has returned, its caches are in the stream;
an output without a time axis is then the step's fault, and otherwise the advanced offset and the
output are in the stream too, and a fault of the CTC head or of its output leaves them there
(`Stream.forward_of_error`).

A decode step takes its frames off the queue before it forwards them, so a step that faults has
always consumed its read. It keeps the session's counters, searcher and n-best list when the
stream faulted; a fault of the searcher or of the n-best list comes after the frames were counted
(`Session.decode_of_error`).
-/

set_option autoImplicit false

namespace SpeechStream

namespace Stream

theorem state_of_current {s : Stream} {st : StreamState} (h : s.current = .ok st) : s.state = some st := by
  unfold current at h
  split at h <;> simp_all

/-- The stream after a chunk whose encoder call returned `enc` with an output without a time
axis: the caches are the encoder's, and nothing else moved. -/
def cached (s : Stream) (st : StreamState) (enc : EncoderOutput) : Stream :=
  { s with state := some { st with attCache := enc.attCache, cnnCache := enc.cnnCache } }

/-- The stream after a chunk whose encoder call returned `enc` with `produced` frames: the
caches are the encoder's, the offset moves on and the output is recorded. -/
def encoded (s : Stream) (st : StreamState) (enc : EncoderOutput) (produced : Nat) : Stream :=
  { s with state := some { st with attCache := enc.attCache, cnnCache := enc.cnnCache,
                                   offset := st.offset + produced, outputs := st.outputs ++ [enc.out] } }

theorem encodeFrames_of_error {s : Stream} {st : StreamState} {feats : Tensor} {f : Fault}
    (h : (s.encodeFrames st feats).out = .error f) :
    ((s.encodeFrames st feats).calls = [] ∧ (s.encodeFrames st feats).next = s) ∨
    (∃ inputs enc, s.backend.encode inputs = .ok enc ∧ enc.out.size? 1 = .error f ∧
      (s.encodeFrames st feats).calls = [.encoder inputs] ∧
      (s.encodeFrames st feats).next = s.cached st enc) ∨
    ∃ inputs enc produced, s.backend.encode inputs = .ok enc ∧ enc.out.size? 1 = .ok produced ∧
      (s.encodeFrames st feats).calls.head? = some (.encoder inputs) ∧
      (s.encodeFrames st feats).next = s.encoded st enc produced := by
  rcases encodeFrames_cases s st feats with ⟨g, he⟩ | ⟨n, -, -, -, he⟩ |
      ⟨inputs, enc, g, -, henc, hsize, he⟩ | ⟨n, inputs, enc, produced, hrows, hpos, hctx, hfeed, henc, hsize⟩
  · rw [he]
    exact .inl ⟨rfl, rfl⟩
  · rw [he] at h
    cases h
  · rw [he] at h ⊢
    cases h
    exact .inr (.inl ⟨inputs, enc, henc, hsize, rfl, rfl⟩)
  · -- once the encoder returned with frames, every fault keeps the chunk's caches, offset and output
    refine .inr (.inr ⟨inputs, enc, produced, henc, hsize, ?_⟩)
    rcases encodeFrames_of_returned hrows hpos hctx hfeed henc hsize with
      ⟨g, calls, rfl | rfl, he⟩ | ⟨v, lp, he⟩
    · rw [he]
      exact ⟨rfl, rfl⟩
    · rw [he]
      exact ⟨rfl, rfl⟩
    · rw [he] at h
      cases h

theorem forward_of_error {s : Stream} {feats : Tensor} {f : Fault} (h : (s.forward feats).out = .error f) :
    ((s.forward feats).calls = [] ∧ (s.forward feats).next = s) ∨
    (∃ st inputs enc, s.state = some st ∧ s.backend.encode inputs = .ok enc ∧
      enc.out.size? 1 = .error f ∧ (s.forward feats).calls = [.encoder inputs] ∧
      (s.forward feats).next = s.cached st enc) ∨
    ∃ st inputs enc produced, s.state = some st ∧ s.backend.encode inputs = .ok enc ∧
      enc.out.size? 1 = .ok produced ∧ (s.forward feats).calls.head? = some (.encoder inputs) ∧
      (s.forward feats).next = s.encoded st enc produced := by
  unfold forward at h ⊢
  split at h
  · exact .inl ⟨rfl, rfl⟩
  · rename_i st hst
    split at h
    · exact .inl ⟨rfl, rfl⟩
    · rcases encodeFrames_of_error h with hkept | ⟨inputs, enc, henc, hsize, hcalls, hnext⟩ |
          ⟨inputs, enc, produced, henc, hsize, hcall, hnext⟩
      · exact .inl hkept
      · exact .inr (.inl ⟨st, inputs, enc, state_of_current hst, henc, hsize, hcalls, hnext⟩)
      · exact .inr (.inr ⟨st, inputs, enc, produced, state_of_current hst, henc, hsize, hcall, hnext⟩)

end Stream

namespace Session

variable {s : Session} {feats : Tensor}

@[simp] theorem searchChunk_results : (s.searchChunk feats).next.results = s.results := by
  rcases searchChunk_cases s feats with ⟨-, hsc⟩ | ⟨-, f, -, hsc⟩ | ⟨-, probs, g, fault, -, -, hsc⟩ <;>
    rw [hsc]

theorem searchChunk_of_error {f : Fault} (h : (s.searchChunk feats).out = .error f) :
    ((s.stream.forward feats).out = .error f ∧
      (s.searchChunk feats).next = { s with stream := (s.stream.forward feats).next }) ∨
    (0 < feats.numRows ∧ (s.searchChunk feats).next.started = true ∧
      (s.searchChunk feats).next.frames = s.frames + feats.numRows) := by
  rcases searchChunk_cases s feats with ⟨-, hsc⟩ | ⟨-, g, hf, hsc⟩ | ⟨hrows, probs, g, fault, -, -, hsc⟩
  · rw [hsc] at h
    cases h
  · rw [hsc] at h
    cases h
    exact .inl ⟨hf, by rw [hsc]⟩
  · rw [hsc]
    exact .inr ⟨hrows, rfl, rfl⟩

theorem consume_of_error {st : DecodeState} {f : Fault} (h : (s.consume feats st).out = .error f) :
    (s.consume feats st).next = (s.searchChunk feats).next ∧
      ((s.searchChunk feats).out = .error f ∨
        (s.searchChunk feats).out = .ok () ∧ (s.searchChunk feats).next.candidates = .error f) := by
  rcases consume_cases s feats st with ⟨g, hout, hc⟩ | ⟨g, hout, hcs, hc⟩ | ⟨cs, -, -, hc⟩
  · rw [hc] at h ⊢
    cases h
    exact ⟨rfl, .inl hout⟩
  · rw [hc] at h ⊢
    cases h
    exact ⟨rfl, .inr ⟨hout, hcs⟩⟩
  · rw [hc] at h
    cases h

theorem decode_of_error {b : Bool} {f : Fault} (h : (s.decode b).out = .error f) :
    (s.decode b).next.queue = (s.queue.read s.request).2.2 ∧ (s.decode b).next.results = s.results ∧
    (((s.decode b).next = { s with queue := (s.queue.read s.request).2.2,
                                   stream := (s.decode b).next.stream } ∧
        ((s.decode b).next.stream = s.stream ∨
          (s.stream.forward (s.queue.read s.request).1).out = .error f ∧
            (s.decode b).next.stream = (s.stream.forward (s.queue.read s.request).1).next)) ∨
      (0 < (s.queue.read s.request).1.numRows ∧ (s.decode b).next.started = true ∧
        (s.decode b).next.frames = s.frames + (s.queue.read s.request).1.numRows)) := by
  have hw : s.waits b = false := by
    cases hw : s.waits b
    · rfl
    · rw [decode_of_waits s b hw] at h
      cases h
  rw [decode_of_not_waits s b hw] at h ⊢
  obtain ⟨hnext, hcause⟩ := consume_of_error h
  simp only [searchChunk_queue] at hnext hcause
  refine ⟨by rw [hnext], by simp [hnext], ?_⟩
  rw [hnext]
  rcases hcause with hchunk | ⟨hchunk, -⟩
  · rcases searchChunk_of_error hchunk with ⟨hf, hs⟩ | hcounted
    · exact .inl ⟨by rw [hs], .inr ⟨hf, by rw [hs]⟩⟩
    · exact .inr hcounted
  · by_cases hrows : 0 < (s.queue.read s.request).1.numRows
    · -- the frames went through the stream and the searcher before the n-best list faulted
      exact .inr ⟨hrows, (searchChunk_of_ok hrows hchunk).2.1, searchChunk_frames _ _ hchunk⟩
    · rw [searchChunk_of_empty s _ (by omega)]
      exact .inl ⟨rfl, .inl rfl⟩

end Session

/-- What a fault part way through a chunk leaves. A stream is as it was unless its encoder call
returned. If it did, the stream holds the encoder's caches; when the encoder's output has no time
axis that is the fault and all that changed, and otherwise the stream holds the encoded chunk. A
decode step that faults has taken its read off the queue and kept its n-best list; its counters,
searcher and everything else but the stream are as they were unless the frames had reached the
searcher, and its stream is as it was or as the faulted chunk step left it. -/
theorem chunk_fault_aftermath :
    (∀ (s : Stream) (feats : Tensor) (f : Fault), (s.forward feats).out = .error f →
      ((s.forward feats).calls = [] ∧ (s.forward feats).next = s) ∨
      (∃ st inputs enc, s.state = some st ∧ s.backend.encode inputs = .ok enc ∧
        enc.out.size? 1 = .error f ∧ (s.forward feats).calls = [.encoder inputs] ∧
        (s.forward feats).next = s.cached st enc) ∨
      ∃ st inputs enc produced, s.state = some st ∧ s.backend.encode inputs = .ok enc ∧
        enc.out.size? 1 = .ok produced ∧ (s.forward feats).calls.head? = some (.encoder inputs) ∧
        (s.forward feats).next = s.encoded st enc produced) ∧
    (∀ (s : Session) (b : Bool) (f : Fault), (s.decode b).out = .error f →
      (s.decode b).next.queue = (s.queue.read s.request).2.2 ∧ (s.decode b).next.results = s.results ∧
      (((s.decode b).next = { s with queue := (s.queue.read s.request).2.2,
                                     stream := (s.decode b).next.stream } ∧
          ((s.decode b).next.stream = s.stream ∨
            (s.stream.forward (s.queue.read s.request).1).out = .error f ∧
              (s.decode b).next.stream = (s.stream.forward (s.queue.read s.request).1).next)) ∨
        (0 < (s.queue.read s.request).1.numRows ∧ (s.decode b).next.started = true ∧
          (s.decode b).next.frames = s.frames + (s.queue.read s.request).1.numRows))) :=
  ⟨fun _ _ _ h => Stream.forward_of_error h, fun _ _ _ h => Session.decode_of_error h⟩

/-- A freshly reset stream over a synthetic backend without labels, whose CTC head therefore
faults on every chunk. -/
def Stream.ctcFaulting : Stream :=
  ⟨(Synthetic.mk (Metadata.single 1) 0 Role.all true).toBackend, Metadata.single 1,
    some ⟨1, Tensor.zeros [1, 1, 1, 4], Tensor.zeros [1, 1, 2, 0], [], none⟩, 0⟩

/-- A fresh session with one frame queued and its input ended, decoding with a chunk size of
zero and a left chunk, so that its attention mask divides by zero. -/
def Session.maskFaulting : Session :=
  { queue := ⟨some 1, [#[0]], 1, true, 1, rfl⟩,
    stream := ⟨Backend.synthetic 0, Metadata.single 0,
      some ⟨0, Tensor.zeros [1, 1, 0, 4], Tensor.zeros [1, 1, 2, 0], [], none⟩, 0⟩,
    searcher := .greedy (GreedySearch.init 0), initialSearcher := .greedy (GreedySearch.init 0),
    options := {}, vocabulary := none, started := false, results := [], frames := 0,
    detector := none }

/-- Both faults are among those described: the CTC fault comes after the encoder returned, and
the attention-mask fault before the decode step's frame reached the searcher. -/
theorem chunk_fault_aftermath_at_ctc_and_mask :
    ((Stream.ctcFaulting.forward (Tensor.zeros [1, 1])).out = .error .divisionByZero ∧
      (((Stream.ctcFaulting.forward (Tensor.zeros [1, 1])).calls = [] ∧
          (Stream.ctcFaulting.forward (Tensor.zeros [1, 1])).next = Stream.ctcFaulting) ∨
        (∃ st inputs enc, Stream.ctcFaulting.state = some st ∧
          Stream.ctcFaulting.backend.encode inputs = .ok enc ∧ enc.out.size? 1 = .error .divisionByZero ∧
          (Stream.ctcFaulting.forward (Tensor.zeros [1, 1])).calls = [.encoder inputs] ∧
          (Stream.ctcFaulting.forward (Tensor.zeros [1, 1])).next = Stream.ctcFaulting.cached st enc) ∨
        ∃ st inputs enc produced, Stream.ctcFaulting.state = some st ∧
          Stream.ctcFaulting.backend.encode inputs = .ok enc ∧ enc.out.size? 1 = .ok produced ∧
          (Stream.ctcFaulting.forward (Tensor.zeros [1, 1])).calls.head? = some (.encoder inputs) ∧
          (Stream.ctcFaulting.forward (Tensor.zeros [1, 1])).next =
            Stream.ctcFaulting.encoded st enc produced)) ∧
    ((Session.maskFaulting.decode false).out = .error .divisionByZero ∧
      (Session.maskFaulting.decode false).next.queue =
        (Session.maskFaulting.queue.read Session.maskFaulting.request).2.2 ∧
      (Session.maskFaulting.decode false).next.results = Session.maskFaulting.results ∧
      (((Session.maskFaulting.decode false).next =
            { Session.maskFaulting with
              queue := (Session.maskFaulting.queue.read Session.maskFaulting.request).2.2,
              stream := (Session.maskFaulting.decode false).next.stream } ∧
          ((Session.maskFaulting.decode false).next.stream = Session.maskFaulting.stream ∨
            (Session.maskFaulting.stream.forward
                (Session.maskFaulting.queue.read Session.maskFaulting.request).1).out =
                  .error .divisionByZero ∧
              (Session.maskFaulting.decode false).next.stream =
                (Session.maskFaulting.stream.forward
                  (Session.maskFaulting.queue.read Session.maskFaulting.request).1).next)) ∨
        (0 < (Session.maskFaulting.queue.read Session.maskFaulting.request).1.numRows ∧
          (Session.maskFaulting.decode false).next.started = true ∧
          (Session.maskFaulting.decode false).next.frames = Session.maskFaulting.frames +
            (Session.maskFaulting.queue.read Session.maskFaulting.request).1.numRows))) :=
  ⟨⟨rfl, chunk_fault_aftermath.1 Stream.ctcFaulting (Tensor.zeros [1, 1]) .divisionByZero rfl⟩,
    ⟨rfl, chunk_fault_aftermath.2 Session.maskFaulting false .divisionByZero rfl⟩⟩

/-- A fault does not always leave the state as it was: a CTC fault after the encoder returned
leaves the stream's offset moved on, and a decode step whose attention mask faults has lost the
frame it read. -/
theorem chunk_fault_changes_state :
    ¬ (∀ (s : Stream) (feats : Tensor) (f : Fault), (s.forward feats).out = .error f →
        (s.forward feats).next.state = s.state) ∧
    ¬ (∀ (s : Session) (b : Bool) (f : Fault), (s.decode b).out = .error f →
        (s.decode b).next.queue.queued = s.queue.queued ∧ (s.decode b).next.frames = s.frames ∧
          (s.decode b).next.started = s.started ∧ (s.decode b).next.results = s.results) := by
  refine ⟨fun h => ?_, fun h => ?_⟩
  · have hkept := congrArg (Option.map StreamState.offset)
      (h Stream.ctcFaulting (Tensor.zeros [1, 1]) .divisionByZero rfl)
    have hmoved : (Stream.ctcFaulting.forward (Tensor.zeros [1, 1])).next.state.map
        StreamState.offset = some 2 := rfl
    rw [hkept] at hmoved
    simp [Stream.ctcFaulting] at hmoved
  · have hkept := (h Session.maskFaulting false .divisionByZero rfl).1
    have hlost : (Session.maskFaulting.decode false).next.queue.queued = 0 := rfl
    rw [hkept] at hlost
    simp [Session.maskFaulting] at hlost

end SpeechStream
