import SpeechStream.Proofs.PaddingMask
import SpeechStream.Proofs.FreshSessions
/-!
The attention window of a decoding session.

A session that decodes a Conformer's backend with a window of left chunks starts every utterance
on a stream state that is all padding (`Stream.freshState_window`). Every operation keeps its
state a window state, with the reset's zeros in the padding and keys and values after it, that
carries at most the look-ahead and nothing before the first chunk (`Session.Ready`,
`Session.exec_ready`); so does every session that operations reach from a reset
(`Session.Reaches.ready`). There the mask of the offset hides a prefix of the window that covers
the padding and stays inside the window, exactly the padding at an offset of whole chunks
(`Session.mask_of_ready`), and the next encoder call gets that mask with the state's caches and a
chunk that leaves at most a chunk of frames for the blocks (`Session.encoder_call_fits`). Every
padded frame is then hidden from attention and no frame of the chunk is
(`attention_mask_hides_padding`).
-/

set_option autoImplicit false

namespace SpeechStream

theorem StreamState.Padded.offset_emod {st : StreamState} {md : Metadata} (hst : st.Padded md)
    (hcs : 0 < md.chunkSize) (h : ∀ t ∈ st.outputs, t.shape.getD 1 0 = md.chunkSize.toNat) :
    st.offset % md.chunkSize = 0 := by
  have henc : st.encoded = st.outputs.length * md.chunkSize.toNat := by
    unfold StreamState.encoded
    rw [List.map_congr_left h, List.map_const', List.sum_replicate_nat]
  rw [hst.offset, henc]
  apply Int.emod_eq_zero_of_dvd
  refine ⟨md.leftChunks + st.outputs.length, ?_⟩
  push_cast
  rw [Int.toNat_of_nonneg hcs.le, Metadata.requiredCacheSize]
  ring

theorem Network.Encoder.Conformer.rows_embed_le {e : Network.Encoder} (he : e.Conformer) {t : Tensor}
    {o : Int} {x : Matrix} {c : Nat} (hc : 0 < c) (hn : t.numRows ≤ 4 * c + 6)
    (h : e.embed t.unsqueeze o = .ok x) : x.rows ≤ c := by
  obtain ⟨b, n, f, hshape, hx⟩ := Network.Encoder.rows_embed h
  have hrows : t.numRows = n := by
    simp only [Tensor.unsqueeze, List.cons.injEq] at hshape
    simp [Tensor.numRows, hshape.2]
  rw [Network.frontFrames_conformer he.front] at hx
  omega

theorem FrameQueue.read_not_blank (q : FrameQueue) (n : Int) : (q.read n).1.isBlank = false := by
  simp [FrameQueue.read_eq, Tensor.isBlank, Tensor.ofRows]

namespace Session

/-- The sessions that operations lead to, each on the session the one before left. -/
inductive Reaches (s : Session) : Session → Prop
  | refl : Reaches s s
  | next {t : Session} (op : Op) : Reaches s t → Reaches s (t.exec op).1

theorem searchChunk_started (s : Session) (feats : Tensor) :
    (s.searchChunk feats).next.started =
      (s.started || (decide (0 < feats.numRows) && (s.stream.forward feats).out.isOk)) := by
  by_cases hrows : 0 < feats.numRows
  · cases hf : (s.stream.forward feats).out with
    | error f => simp [searchChunk, hrows, hf, Except.isOk, Except.toBool]
    | ok probs =>
      cases hs : s.searcher.search probs with
      | mk g fault => cases fault <;> simp [searchChunk, hrows, hf, hs, Except.isOk, Except.toBool]
  · simp [searchChunk_of_empty s feats (by omega), hrows]

variable {m : Network.Model} {mb md : Metadata}

/-- A session that decodes the model's backend with the metadata, on a window state that
carries at most the look-ahead, and nothing before its first chunk. -/
structure Ready (s : Session) (m : Network.Model) (mb md : Metadata) : Prop where
  backend : s.stream.backend = m.toBackend mb
  metadata : s.stream.metadata = md
  window : ∃ st, s.stream.state = some st ∧ st.Window md m.encoder ∧
    st.carriedRows ≤ md.rightContext.toNat ∧ (s.started = false → st.carriedRows = 0)

theorem Ready.of_stream {s t : Session} (hs : s.Ready m mb md) (hstream : t.stream = s.stream)
    (hstarted : t.started = s.started) : t.Ready m mb md := by
  obtain ⟨st, hst, hwin, hcar, hstart⟩ := hs.window
  exact ⟨hstream ▸ hs.backend, hstream ▸ hs.metadata, st, hstream ▸ hst, hwin, hcar,
    hstarted ▸ hstart⟩

variable (hw : md.LeftWindow m.encoder)
include hw

theorem ready_of_reset {s t : Session} (hb : s.stream.backend = m.toBackend mb)
    (hmd : s.stream.metadata = md) (h : s.reset = .ok t) : t.Ready m mb md := by
  obtain ⟨fresh, hfresh, rfl⟩ := Session.reset_eq_ok h
  rw [hmd] at hfresh
  obtain ⟨hwin, hcar⟩ := Stream.freshState_window hw hfresh
  exact ⟨hb, hmd, fresh, rfl, hwin, by omega, fun _ => hcar⟩

theorem searchChunk_ready {s : Session} (hs : s.Ready m mb md) (feats : Tensor) :
    (s.searchChunk feats).next.Ready m mb md := by
  by_cases hrows : 0 < feats.numRows
  · obtain ⟨-, hstream⟩ := searchChunk_of_rows s feats hrows
    obtain ⟨st, hst, hwin, hcar, hstart⟩ := hs.window
    obtain ⟨st', hst', hwin', hcar', hfail⟩ :=
      Stream.forward_window hw hs.backend hs.metadata hst hwin hcar feats
    refine ⟨?_, ?_, st', ?_, hwin', hcar', fun hnot => ?_⟩
    · rw [hstream, Stream.forward_backend, hs.backend]
    · rw [hstream, Stream.forward_metadata, hs.metadata]
    · rw [hstream, hst']
    · rw [searchChunk_started] at hnot
      simp only [Bool.or_eq_false_iff, Bool.and_eq_false_iff, decide_eq_false_iff_not] at hnot
      obtain ⟨hunstarted, hnotrows | hfailed⟩ := hnot
      · exact absurd hrows hnotrows
      · rw [hfail hfailed, hstart hunstarted]
  · rw [searchChunk_of_empty s feats (by omega)]
    exact hs

theorem decode_ready {s : Session} (hs : s.Ready m mb md) (b : Bool) : (s.decode b).next.Ready m mb md := by
  cases hwait : s.waits b with
  | false =>
    obtain ⟨rs, hnext⟩ := decode_next_eq hwait
    rw [hnext]
    exact (searchChunk_ready hw hs _).of_stream rfl rfl
  | true =>
    rw [decode_of_waits s b hwait]
    exact hs

theorem exec_ready {s : Session} (hs : s.Ready m mb md) (op : Op) : (s.exec op).1.Ready m mb md := by
  cases op with
  | accept t =>
    simp only [exec]
    cases s.queue.accept t with
    | ok q => exact hs.of_stream rfl rfl
    | error f => exact hs
  | finish => exact hs.of_stream rfl rfl
  | decode b => exact decode_ready hw hs b
  | rescore =>
    obtain ⟨rs, hnext⟩ := rescoring_next s
    show s.rescoring.next.Ready m mb md
    rw [hnext]
    exact hs.of_stream rfl rfl
  | reset =>
    simp only [exec]
    cases h : s.reset with
    | ok t => exact ready_of_reset hw hs.backend hs.metadata h
    | error f => exact hs

theorem Reaches.ready {s t : Session} (hs : s.Ready m mb md) (hr : s.Reaches t) : t.Ready m mb md := by
  induction hr with
  | refl => exact hs
  | next op _ ih => exact exec_ready hw ih op

theorem mask_of_ready {s : Session} (hs : s.Ready m mb md) {st : StreamState}
    (hwin : st.Window md m.encoder) :
    ∃ hidden, st.padding md ≤ hidden ∧ hidden ≤ md.requiredCacheSize.toNat ∧
      ((∀ t ∈ st.outputs, t.shape.getD 1 0 = md.chunkSize.toNat) → hidden = st.padding md) ∧
      s.stream.mask st.offset = .ok (some (prefixMask (md.requiredCacheSize + md.chunkSize).toNat hidden)) := by
  have hoffset := hwin.padded.offset
  obtain ⟨hidden, hlo, hhi, hwhole, hmask⟩ := Stream.mask_window (s := s.stream)
    (hs.metadata ▸ hw.chunk) (hs.metadata ▸ hw.left) (hs.metadata ▸ hw.fits) (o := st.offset) (by rw [hs.metadata]; omega)
  rw [hs.metadata] at hlo hhi hwhole hmask
  exact ⟨hidden, hlo, hhi, fun h => hwhole (hwin.padded.offset_emod hw.chunk h), hmask⟩

theorem chunk_frames_le {s : Session} (hs : s.Ready m mb md) {st : StreamState}
    (hst : s.stream.state = some st) :
    st.carriedRows + s.queue.takes s.request ≤ 4 * md.chunkSize.toNat + 6 := by
  obtain ⟨st', hst', -, hcar, hstart⟩ := hs.window
  rw [hst] at hst'
  cases hst'
  have hrate := hw.describes.rate_eq
  have hrc := hw.describes.rightContext_eq
  have hcs := hw.chunk
  have hreq : s.request = if s.started then (md.stride : Int) else md.span :=
    Metadata.framesForChunk_eq (hw.describes.chunked hw.chunk) s.stream hs.metadata s.started
  have hspan : md.span = md.stride + 3 := by
    simp only [Metadata.span, Metadata.overlap, hrate, hrc]
    rfl
  have hstride : (md.stride : Int) = 4 * md.chunkSize := by
    simp only [Metadata.stride, hrate]
    omega
  have htakes : (s.queue.takes s.request : Int) ≤ s.request := by
    unfold FrameQueue.takes
    split <;> omega
  cases hstarted : s.started
  · rw [hstarted, if_neg (by simp)] at hreq
    have := hstart hstarted
    omega
  · rw [hstarted, if_pos rfl] at hreq
    rw [hrc] at hcar
    omega

theorem encoder_call_fits {s : Session} (hs : s.Ready m mb md) {st : StreamState}
    (hst : s.stream.state = some st) {b : Bool} {inputs : Feed}
    (h : Call.encoder inputs ∈ (s.decode b).calls) :
    ∃ joined, s.stream.feed st joined = .ok inputs ∧
      ∀ x, m.encoder.embed joined.unsqueeze st.offset = .ok x → x.rows ≤ md.chunkSize.toNat := by
  cases hwait : s.waits b with
  | true => simp [decode_of_waits s b hwait] at h
  | false =>
    rw [decode_calls_eq hwait] at h
    by_cases hrows : 0 < (s.queue.read s.request).1.numRows
    · rw [(searchChunk_of_rows s _ hrows).1] at h
      obtain ⟨joined, hj, hfeed⟩ := Stream.forward_encoder_call hst h
      have hn : joined.numRows ≤ 4 * md.chunkSize.toNat + 6 := by
        rw [Stream.joinCarried_numRows (FrameQueue.read_not_blank _ _) hj, FrameQueue.numRows_read]
        exact chunk_frames_le hw hs hst
      exact ⟨joined, hfeed, fun x hx => hw.conformer.rows_embed_le (by have := hw.chunk; omega) hn hx⟩
    · rw [searchChunk_of_empty s _ (by omega)] at h
      cases h

/-- The attention window of a session hides its padding. Its stream state holds the reset's zeros
in the first `2R - offset` frames of the attention cache, the padding, and after them keys and
values of chunk frames. The mask of the offset hides a prefix of the window that covers the
padding, exactly the padding when every chunk produced a whole chunk of frames. Every encoder call
of the next decode step gets that mask with the state's offset and caches, and the keys it
attends over, the window and the frames its chunk leaves, fit the mask, which lets a key be seen
exactly when it lies past the prefix: no padded frame is seen, and every frame of the chunk is. -/
def HidesPadding (s : Session) (m : Network.Model) (md : Metadata) : Prop :=
  ∃ st, s.stream.state = some st ∧
    (∃ B H W, 0 < B ∧ st.attCache.Padded B H md.requiredCacheSize.toNat W (st.padding md)) ∧
    st.Keyed m.encoder md.requiredCacheSize.toNat (st.padding md) ∧
    ∃ hidden, st.padding md ≤ hidden ∧ hidden ≤ md.requiredCacheSize.toNat ∧
      s.stream.mask st.offset =
        .ok (some (prefixMask (md.requiredCacheSize + md.chunkSize).toNat hidden)) ∧
      ((∀ t ∈ st.outputs, t.shape.getD 1 0 = md.chunkSize.toNat) → hidden = st.padding md) ∧
      ∀ b inputs, Call.encoder inputs ∈ (s.decode b).calls → ∃ chunk,
        inputs = [(.chunk, .tensor chunk), (.offset, .int st.offset),
          (.requiredCacheSize, .int md.requiredCacheSize), (.attCache, .tensor st.attCache),
          (.cnnCache, .tensor st.cnnCache),
          (.attMask, .mask (prefixMask (md.requiredCacheSize + md.chunkSize).toNat hidden))] ∧
        ∀ x, m.encoder.embed chunk st.offset = .ok x →
          md.requiredCacheSize.toNat + x.rows ≤ (md.requiredCacheSize + md.chunkSize).toNat ∧
          ∃ vis, Network.maskVisibility
              (some (prefixMask (md.requiredCacheSize + md.chunkSize).toNat hidden))
              x.rows (md.requiredCacheSize.toNat + x.rows) = .ok (some vis) ∧
            ∀ i j, j < md.requiredCacheSize.toNat + x.rows → (vis i j = true ↔ hidden ≤ j)

end Session

/-- Every session that operations reach from a reset of a session that decodes a Conformer's
backend with a window of left chunks hides its padding from attention. -/
theorem attention_mask_hides_padding {m : Network.Model} {mb md : Metadata}
    (hw : md.LeftWindow m.encoder) {s₀ s₁ s : Session} (hb : s₀.stream.backend = m.toBackend mb)
    (hmd : s₀.stream.metadata = md) (hreset : s₀.reset = .ok s₁) (hrun : s₁.Reaches s) :
    s.HidesPadding m md := by
  have hs : s.Ready m mb md := hrun.ready hw (Session.ready_of_reset hw hb hmd hreset)
  obtain ⟨st, hst, hwin, -, -⟩ := hs.window
  obtain ⟨B, H, W, hB, hatt⟩ := hwin.padded.att
  obtain ⟨hidden, hlo, hhi, hwhole, hmask⟩ := Session.mask_of_ready hw hs hwin
  refine ⟨st, hst, ⟨B, H, W, hB, hatt⟩, hwin.keyed, hidden, hlo, hhi, hmask, hwhole, ?_⟩
  intro b inputs hcall
  obtain ⟨joined, hfeed, hfits⟩ := Session.encoder_call_fits hw hs hst hcall
  rw [Stream.feed_masked (by rw [hs.backend]; rfl) hmask, hs.metadata] at hfeed
  cases hfeed
  refine ⟨joined.unsqueeze, rfl, fun x hx => ?_⟩
  have hR := hw.required_pos
  have hcs := hw.chunk
  have hkeys : md.requiredCacheSize.toNat + x.rows ≤ (md.requiredCacheSize + md.chunkSize).toNat := by
    have := hfits x hx
    omega
  obtain ⟨vis, hvis, hseen⟩ := @maskVisibility_prefixMask _ hidden x.rows _ (by omega) hkeys
  exact ⟨hkeys, vis, hvis, hseen⟩

/-- A session on the small network with chunks of one output frame and two left chunks, before
its first reset; its searcher keeps no hypothesis. -/
def Session.small : Session :=
  { queue := FrameQueue.empty none
    stream := Stream.new (Network.Model.small.toBackend (Metadata.small 1 2)) (Metadata.small 1 2)
    searcher := .fixed [] [] 0, initialSearcher := .fixed [] [] 0, options := {}, vocabulary := none,
    detector := none, started := false, results := [], frames := 0 }

/-- The small session after its reset. -/
def Session.smallReset : Session :=
  match Session.small.reset with
  | .ok s => s
  | .error _ => Session.small

/-- Eleven frames queued on the small session and one chunk decoded: the attention cache holds
one row of padding and one row of the chunk's keys, and the next decode step makes an encoder
call over them. -/
theorem attention_mask_hides_padding_after_a_chunk :
    (Metadata.small 1 2).LeftWindow Network.Model.small.encoder ∧
      Session.small.reset = .ok Session.smallReset ∧
      Session.smallReset.Reaches
        ((Session.smallReset.exec (.accept (Tensor.counting 11 8))).1.exec (.decode false)).1 ∧
      ((Session.smallReset.exec (.accept (Tensor.counting 11 8))).1.exec (.decode false)).1.stream.state.map
        (fun st => (st.offset, st.outputs.length, st.padding (Metadata.small 1 2))) = some (3, 1, 1) ∧
      (feedsOf (((Session.smallReset.exec (.accept (Tensor.counting 11 8))).1.exec
        (.decode false)).1.decode false).calls).length = 1 ∧
      ((Session.smallReset.exec (.accept (Tensor.counting 11 8))).1.exec (.decode false)).1.HidesPadding
        Network.Model.small (Metadata.small 1 2) := by
  have hdesc := Network.Model.describes (Network.Model.build_config Network.Model.build_small)
    (show Metadata.ofDocument (Value.record (Network.Model.small.describe 1 2)) = .ok (Metadata.small 1 2)
      from rfl)
  have hw : (Metadata.small 1 2).LeftWindow Network.Model.small.encoder :=
    ⟨Network.Model.build_conformer Network.Model.build_small, hdesc.1, by decide, by decide,
      by decide, by decide⟩
  have hb : Session.small.stream.backend = Network.Model.small.toBackend (Metadata.small 1 2) := rfl
  have hmd : Session.small.stream.metadata = Metadata.small 1 2 := rfl
  have hreset : Session.small.reset = .ok Session.smallReset := rfl
  have hrun : Session.smallReset.Reaches
      ((Session.smallReset.exec (.accept (Tensor.counting 11 8))).1.exec (.decode false)).1 :=
    .next _ (.next _ .refl)
  exact ⟨hw, hreset, hrun, by decide +kernel, by decide +kernel,
    attention_mask_hides_padding hw hb hmd hreset hrun⟩

end SpeechStream
