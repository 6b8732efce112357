import SpeechStream.Proofs.ChunkWindows
import SpeechStream.Proofs.MetadataDocuments
/-!
The chunks a stream encodes with a network as its backend are those of the network's own
chunk-by-chunk encoding of the whole utterance.

The metadata read back from a network's description describes its encoder
(`Network.Model.describes`): rate four, look-ahead six, and the encoder's sizes. With a positive
chunk size and no left chunks, a stream that runs the network (`Stream.Runs`) gives the encoder
the same inputs as the loop `Encoder.chunkLoop`: the `k`-th chunk of the loop is the stream's
`k`-th window, and the offset, cache size and caches are those the loop's first `k` chunks left
(`StreamState.Follows`). A run that ends without a fault has made one call per window, each the
loop's (`Encoder.LoopFeeds`), and its outputs joined in order are `Encoder.forwardByChunks`
(`Recognizer.decodeBlocks_reference`).
-/

set_option autoImplicit false

namespace SpeechStream

/-- A matrix as a batch of one, the layout in which the encoder returns its output. -/
def Matrix.batch (y : Matrix) : Tensor := ⟨[1, y.rows, y.cols], y.data⟩

namespace Network

/-- The inputs the chunk-by-chunk loop gives the encoder for its `k`-th chunk: the chunk, the
offset and caches the chunks before it left, and the cache size of its left chunks. -/
def Encoder.loopFeed (e : Encoder) (xs : Tensor) (chunk left : Int) (k : Nat)
    (acc : List Matrix × Int × Tensor × Tensor) : Feed :=
  [(.chunk, .tensor (e.chunkInput xs chunk k)), (.offset, .int acc.2.1),
    (.requiredCacheSize, .int (chunk * left)), (.attCache, .tensor acc.2.2.1),
    (.cnnCache, .tensor acc.2.2.2)]

/-- Feeds that are, in order, the inputs the chunk-by-chunk loop gives the encoder. -/
def Encoder.LoopFeeds (e : Encoder) (xs : Tensor) (chunk left : Int) (feeds : List Feed) : Prop :=
  ∀ k feed, feeds[k]? = some feed →
    ∃ acc, e.chunkLoop xs chunk left k = .ok acc ∧ feed = e.loopFeed xs chunk left k acc

namespace Encoder

variable (e : Encoder) (xs : Tensor) (chunk left : Int)

theorem chunkLoop_zero :
    e.chunkLoop xs chunk left 0 = (e.initCaches 0).map (fun c => ([], 0, c.1, c.2)) := by
  unfold chunkLoop
  cases e.initCaches 0 <;> rfl

theorem chunkLoop_succ (k : Nat) :
    e.chunkLoop xs chunk left (k + 1) =
      (e.chunkLoop xs chunk left k).bind (fun acc => e.chunkStep xs chunk left acc k) := by
  unfold chunkLoop
  cases e.initCaches 0 with
  | error f => rfl
  | ok c =>
    simp only [List.range_succ, List.foldlM_append, bind, Except.bind, List.foldlM_cons,
      List.foldlM_nil]
    cases List.foldlM (e.chunkStep xs chunk left) ([], 0, c.1, c.2) (List.range k) with
    | error f => rfl
    | ok acc =>
      dsimp only
      cases e.chunkStep xs chunk left acc k <;> rfl

theorem chunkStep_eq (acc : List Matrix × Int × Tensor × Tensor) (k : Nat) :
    e.chunkStep xs chunk left acc k =
      (e.forwardChunk (e.chunkInput xs chunk k) acc.2.1 (chunk * left) acc.2.2.1 acc.2.2.2 none).map
        (fun y => (acc.1 ++ [y.1], acc.2.1 + y.1.rows, y.2.1, y.2.2)) := by
  unfold chunkStep
  cases e.forwardChunk (e.chunkInput xs chunk k) acc.2.1 (chunk * left) acc.2.2.1 acc.2.2.2 none <;> rfl

theorem loopFeeds_append {feeds : List Feed} (h : e.LoopFeeds xs chunk left feeds)
    {acc : List Matrix × Int × Tensor × Tensor} (hacc : e.chunkLoop xs chunk left feeds.length = .ok acc) :
    e.LoopFeeds xs chunk left (feeds ++ [e.loopFeed xs chunk left feeds.length acc]) := by
  intro k feed hk
  rw [List.getElem?_append] at hk
  split at hk
  · exact h k feed hk
  · rename_i hge
    rw [List.getElem?_singleton] at hk
    split at hk
    · cases hk
      rename_i hk
      have hkl : k = feeds.length := by omega
      subst hkl
      exact ⟨acc, hacc, rfl⟩
    · cases hk

theorem length_chunkLoop {k : Nat} {acc : List Matrix × Int × Tensor × Tensor}
    (h : e.chunkLoop xs chunk left k = .ok acc) : acc.1.length = k := by
  induction k generalizing acc with
  | zero =>
    rw [chunkLoop_zero] at h
    cases hc : e.initCaches 0 <;> simp [hc, Except.map] at h
    rw [← h]
    rfl
  | succ k ih =>
    rw [chunkLoop_succ] at h
    cases hk : e.chunkLoop xs chunk left k with
    | error f => simp [hk, Except.bind] at h
    | ok acc₀ =>
      simp only [hk, Except.bind, chunkStep_eq] at h
      cases hf : e.forwardChunk (e.chunkInput xs chunk k) acc₀.2.1 (chunk * left) acc₀.2.2.1
        acc₀.2.2.2 none <;> simp [hf, Except.map] at h
      rw [← h, List.length_append, ih hk]
      rfl

end Encoder

theorem Model.encodeFeed_loopFeed (m : Model) (xs : Tensor) (chunk left : Int) (k : Nat)
    (acc : List Matrix × Int × Tensor × Tensor) :
    m.encodeFeed (m.encoder.loopFeed xs chunk left k acc) =
      (m.encoder.forwardChunk (m.encoder.chunkInput xs chunk k) acc.2.1 (chunk * left) acc.2.2.1
        acc.2.2.2 none).map (fun y => ⟨y.1.batch, y.2.1, y.2.2⟩) := by
  have hchunk : (m.encoder.loopFeed xs chunk left k acc).tensor? .chunk =
      some (m.encoder.chunkInput xs chunk k) := rfl
  have hoffset : (m.encoder.loopFeed xs chunk left k acc).int? .offset = some acc.2.1 := rfl
  have hrequired : (m.encoder.loopFeed xs chunk left k acc).int? .requiredCacheSize =
      some (chunk * left) := rfl
  have hatt : (m.encoder.loopFeed xs chunk left k acc).tensor? .attCache = some acc.2.2.1 := rfl
  have hcnn : (m.encoder.loopFeed xs chunk left k acc).tensor? .cnnCache = some acc.2.2.2 := rfl
  have hmask : (m.encoder.loopFeed xs chunk left k acc).mask? .attMask = none := rfl
  simp only [Model.encodeFeed, hchunk, hoffset, hrequired, hatt, hcnn, hmask, pure_bind]
  cases m.encoder.forwardChunk (m.encoder.chunkInput xs chunk k) acc.2.1 (chunk * left) acc.2.2.1
    acc.2.2.2 none <;> rfl

theorem Encoder.build_config {w : Weights} {plan : Plan} {inputDim : Int} {cmvn : Option Cmvn}
    {e : Encoder} (h : Encoder.build w plan inputDim cmvn = .ok e) : e.config = plan.encoder := by
  unfold Encoder.build at h
  simp only [bind, Except.bind, pure, Except.pure] at h
  split at h
  · cases h
  · cases h
    rfl

theorem Model.build_config {c : Config} {w : Weights} {cmvn : Option Cmvn} {m : Model}
    (h : Model.build c w cmvn = .ok m) : m.encoder.config = m.plan.encoder :=
  Encoder.build_config (Model.build_encoder h)

end Network

/-- Metadata that describes an encoder: its sizes, with at least one attention head, and its
subsampling. -/
structure Metadata.Describes (md : Metadata) (e : Network.Encoder) : Prop where
  outputSize : md.outputSize = e.config.outputSize
  numBlocks : md.numBlocks = e.config.numBlocks
  heads : md.heads = e.config.heads
  kernel : md.kernelSize = e.config.kernel
  heads_pos : 0 < md.heads
  rate : md.subsamplingRate = e.rate
  rightContext : md.rightContext = e.rightContext

theorem Metadata.ofDocument_describe (c : Network.Config) (p : Network.Plan) (cs nlc : Int)
    {md : Metadata} (h : Metadata.ofDocument (Value.record (Network.describe c p (.int cs) (.int nlc))) = .ok md) :
    md = ⟨p.encoder.outputSize, p.encoder.numBlocks, p.encoder.heads, p.encoder.kernel,
      Network.frontRate Network.frontLayers, Network.frontContext Network.frontLayers, c.sosId,
      c.eosId, p.kind == .bidirectional, cs, nlc⟩ ∧ 0 < md.heads := by
  have hdoc : Value.record (Network.describe c p (.int cs) (.int nlc)) =
      Metadata.toDocument ⟨p.encoder.outputSize, p.encoder.numBlocks, p.encoder.heads,
        p.encoder.kernel, Network.frontRate Network.frontLayers,
        Network.frontContext Network.frontLayers, c.sosId, c.eosId, p.kind == .bidirectional, cs,
        nlc⟩ := rfl
  rw [hdoc, Metadata.ofDocument_toDocument_eq] at h
  split at h
  · cases h
  · cases h
    exact ⟨rfl, by omega⟩

theorem Network.Model.describes {m : Network.Model} (hcfg : m.encoder.config = m.plan.encoder)
    {cs nlc : Int} {md : Metadata} (h : Metadata.ofDocument (Value.record (m.describe cs nlc)) = .ok md) :
    md.Describes m.encoder ∧ md.chunkSize = cs ∧ md.leftChunks = nlc := by
  obtain ⟨rfl, hpos⟩ := Metadata.ofDocument_describe _ _ _ _ h
  exact ⟨⟨by rw [hcfg], by rw [hcfg], by rw [hcfg], by rw [hcfg], hpos, rfl, rfl⟩, rfl, rfl⟩

namespace Metadata.Describes

variable {md : Metadata} {e : Network.Encoder} (h : md.Describes e)
include h

theorem rate_eq : md.subsamplingRate = 4 := h.rate

theorem rightContext_eq : md.rightContext = 6 := h.rightContext

theorem chunked (hcs : 0 < md.chunkSize) : md.Chunked := by
  refine ⟨hcs, ?_, ?_⟩
  · rw [h.rate_eq]
    decide
  · rw [h.rate_eq, h.rightContext_eq]
    decide

theorem stride_eq : md.stride = e.chunkStride md.chunkSize := by
  unfold Metadata.stride Network.Encoder.chunkStride
  rw [h.rate, Int.mul_comm]

theorem span_eq (hcs : 0 < md.chunkSize) : md.span = e.chunkWindow md.chunkSize := by
  have hrate : e.rate = 4 := rfl
  have hctx : e.rightContext = 6 := rfl
  unfold Metadata.span Metadata.stride Metadata.overlap Network.Encoder.chunkWindow
  rw [h.rate, h.rightContext, hrate, hctx]
  omega

theorem chunkInput_eq_window (hcs : 0 < md.chunkSize) {x : Tensor} {d : Nat} (hx : x.WellFormed d)
    {k : Nat} (hk : k * md.stride ≤ x.numRows) :
    e.chunkInput x.unsqueeze md.chunkSize k = md.window x k := by
  have hshape : x.shape = [x.numRows, d] := hx.1
  have hwidth : x.rowWidth = d := Tensor.rowWidth_of_isMatrix hx.1
  have hlo : min (k * md.stride) (min (k * md.stride + md.span) x.numRows) = k * md.stride := by omega
  unfold Network.Encoder.chunkInput Metadata.window Tensor.sliceRows Tensor.unsqueeze
  rw [← h.stride_eq, ← h.span_eq hcs, hwidth]
  dsimp only
  rw [hlo, hshape]
  rfl

theorem forwardByChunks_of_loop (hcs : 0 < md.chunkSize) {x : Tensor} {d : Nat}
    (hx : x.WellFormed d) (hn : md.context ≤ x.numRows) (left : Int)
    {acc : List Matrix × Int × Tensor × Tensor}
    (hloop : e.chunkLoop x.unsqueeze md.chunkSize left (md.windows x).length = .ok acc) :
    ∃ first rest, acc.1 = first :: rest ∧
      e.forwardByChunks x.unsqueeze md.chunkSize left = .ok (rest.foldl Matrix.appendRows first) := by
  have hm := h.chunked hcs
  have hpos := Metadata.stride_pos hm
  have hctx : e.rightContext = 6 := rfl
  have hcontext : md.context = 7 := by
    unfold Metadata.context
    rw [h.rightContext_eq]
    rfl
  have hframes : x.unsqueeze.shape.getD 1 0 = x.numRows := by
    rw [Tensor.unsqueeze, hx.1]
    rfl
  have hcount : (if (x.numRows : Int) - (e.rightContext + 1) + 1 ≤ 0 then 0
      else ((((x.numRows : Int) - (e.rightContext + 1) + 1).toNat + e.chunkStride md.chunkSize - 1) /
        e.chunkStride md.chunkSize)) = (md.windows x).length := by
    rw [Metadata.length_windows hm, if_pos hn, if_neg (by omega), ← h.stride_eq, hctx]
    have hsum : ((x.numRows : Int) - (6 + 1) + 1).toNat + md.stride - 1 =
        (x.numRows - md.context) + md.stride := by omega
    rw [hsum, Nat.add_div_right _ hpos]
  have hlen := Network.Encoder.length_chunkLoop e _ _ _ hloop
  rw [Metadata.length_windows hm, if_pos hn] at hlen
  obtain ⟨first, rest, hacc⟩ : ∃ first rest, acc.1 = first :: rest := by
    cases hc : acc.1 with
    | nil => rw [hc] at hlen; cases hlen
    | cons first rest => exact ⟨first, rest, rfl⟩
  refine ⟨first, rest, hacc, ?_⟩
  unfold Network.Encoder.forwardByChunks
  simp only [if_neg (show ¬ md.chunkSize ≤ 0 by omega), hframes, hcount, hloop]
  obtain ⟨outs, rest'⟩ := acc
  cases hacc
  rfl

end Metadata.Describes

/-- A stream state holds what the chunk-by-chunk loop holds after its first `k` chunks: the same
offset and caches, and the loop's outputs as batches of one. -/
def StreamState.Follows (st : StreamState) (e : Network.Encoder) (xs : Tensor) (chunk left : Int)
    (k : Nat) : Prop :=
  ∃ outs, e.chunkLoop xs chunk left k = .ok (outs, st.offset, st.attCache, st.cnnCache) ∧
    st.outputs = outs.map Matrix.batch

/-- A stream that runs a network, with metadata that describes the network's encoder, a positive
chunk size and no left chunks. -/
structure Stream.Runs (s : Stream) (m : Network.Model) (md : Metadata) : Prop where
  backend : s.backend = m.toBackend md
  metadata : s.metadata = md
  describes : md.Describes m.encoder
  chunk : 0 < md.chunkSize
  left : md.leftChunks ≤ 0

namespace Stream

theorem feed_of_roles {s : Stream} (hroles : s.backend.roles = Role.all)
    (hleft : s.metadata.leftChunks ≤ 0) (st : StreamState) (feats : Tensor) :
    s.feed st feats = .ok [(.chunk, .tensor feats.unsqueeze), (.offset, .int st.offset),
      (.requiredCacheSize, .int s.metadata.requiredCacheSize), (.attCache, .tensor st.attCache),
      (.cnnCache, .tensor st.cnnCache)] := by
  have hmask : s.mask st.offset = .ok none := by
    simp [mask, hleft]
    rfl
  simp only [feed, hmask, hroles, bind, Except.bind, pure, Except.pure]
  rfl

theorem freshState_follows {md : Metadata} {e : Network.Encoder} (h : md.Describes e)
    (hleft : md.leftChunks ≤ 0) {st : StreamState} (hst : freshState md = .ok st) (xs : Tensor)
    (chunk left : Int) : st.Follows e xs chunk left 0 := by
  obtain ⟨-, houts, hoffset⟩ := freshState_ok hst
  have hwindow : ¬ md.leftChunks > 0 := by omega
  have hheads : (md.heads == 0) = false := by
    have := h.heads_pos
    simp
    omega
  rw [if_neg hwindow] at hoffset
  unfold freshState at hst
  simp only [if_neg hwindow, bind, Except.bind, pure, Except.pure] at hst
  refine ⟨[], ?_, houts⟩
  rw [Network.Encoder.chunkLoop_zero, hoffset]
  unfold Network.Encoder.initCaches Network.zerosOfInts
  simp only [← h.numBlocks, ← h.heads, ← h.outputSize, ← h.kernel]
  simp only [hheads, Bool.false_eq_true, ↓reduceIte, bind, Except.bind, pure, Except.pure]
  unfold Metadata.headDim at hst
  cases ha : Tensor.zerosOf [md.numBlocks, md.heads, 0, md.outputSize.fdiv md.heads * 2] <;>
    cases hc : Tensor.zerosOf [md.numBlocks, 1, md.outputSize, md.kernelSize - 1] <;>
    simp only [ha, hc, reduceCtorEq, Except.ok.injEq] at hst
  subst hst
  rfl

theorem encodeFrames_follows {s : Stream} {m : Network.Model} {md : Metadata} (hs : s.Runs m md)
    {xs : Tensor} {k : Nat} {st : StreamState}
    (hst : st.Follows m.encoder xs md.chunkSize md.leftChunks k) {feats : Tensor} {n : Nat}
    (hrows : feats.rows? = .ok n) (hpos : 0 < n) (hctx : md.rightContext + 1 ≤ n)
    (hchunk : feats.unsqueeze = m.encoder.chunkInput xs md.chunkSize k) {lp : Tensor}
    (hout : (s.encodeFrames st feats).out = .ok lp) :
    ∃ acc, m.encoder.chunkLoop xs md.chunkSize md.leftChunks k = .ok acc ∧
      feedsOf (s.encodeFrames st feats).calls = [m.encoder.loopFeed xs md.chunkSize md.leftChunks k acc] ∧
      ∃ st', (s.encodeFrames st feats).next.state = some st' ∧
        st'.Follows m.encoder xs md.chunkSize md.leftChunks (k + 1) := by
  obtain ⟨outs, hloop, houts⟩ := hst
  obtain ⟨inputs, enc, produced, v, hfeed, henc, hsize, hcalls, hnext⟩ :=
    encodeFrames_of_ok hrows hpos (by rw [hs.metadata]; exact hctx) hout
  have hinputs : inputs =
      m.encoder.loopFeed xs md.chunkSize md.leftChunks k (outs, st.offset, st.attCache, st.cnnCache) := by
    rw [feed_of_roles (by rw [hs.backend]; rfl) (by rw [hs.metadata]; exact hs.left)] at hfeed
    cases hfeed
    rw [hs.metadata, hchunk]
    rfl
  rw [hs.backend, hinputs] at henc
  rw [show (m.toBackend md).encode = m.encodeFeed from rfl, Network.Model.encodeFeed_loopFeed] at henc
  cases hfc : m.encoder.forwardChunk (m.encoder.chunkInput xs md.chunkSize k) st.offset
      (md.chunkSize * md.leftChunks) st.attCache st.cnnCache none with
  | error f => simp [hfc, Except.map] at henc
  | ok y =>
    obtain ⟨y, att, cnn⟩ := y
    simp only [hfc, Except.map, Except.ok.injEq] at henc
    subst henc
    have hproduced : produced = y.rows := by
      simp [Matrix.batch, Tensor.size?, Tensor.rank] at hsize
      omega
    refine ⟨_, hloop, by rw [hcalls, hinputs]; rfl, _, by rw [hnext], outs ++ [y], ?_, ?_⟩
    · rw [Network.Encoder.chunkLoop_succ, hloop, hproduced]
      simp only [Except.bind, Network.Encoder.chunkStep_eq, hfc, Except.map]
    · simp [houts, Matrix.batch]

theorem searchChunk_backend (s : Session) (feats : Tensor) :
    (s.searchChunk feats).next.stream.backend = s.stream.backend := by
  by_cases hrows : 0 < feats.numRows
  · rw [(Session.searchChunk_of_rows s feats hrows).2, forward_backend]
  · rw [Session.searchChunk_of_empty s feats (by omega)]

end Stream

namespace Session

theorem decode_backend (s : Session) (b : Bool) : (s.decode b).next.stream.backend = s.stream.backend := by
  cases h : s.waits b
  · obtain ⟨rs, hn⟩ := decode_next_eq h
    rw [hn]
    exact Stream.searchChunk_backend _ _
  · rw [decode_of_waits s b h]

theorem runs_decode {s : Session} {m : Network.Model} {md : Metadata} (hr : s.stream.Runs m md)
    (b : Bool) : (s.decode b).next.stream.Runs m md :=
  ⟨by rw [decode_backend]; exact hr.backend, by rw [decode_metadata]; exact hr.metadata,
    hr.describes, hr.chunk, hr.left⟩

section Follows

variable {s : Session} {md : Metadata} {d : Nat} {xs : List Frame} {j : Nat}

theorem decode_follows_skipped (hm : md.Chunked) (hs : s.Windowed md d xs j) {st₀ : StreamState}
    (hst : s.stream.state = some st₀) (hnone : ¬ j * md.stride + md.context ≤ xs.length)
    {st : DecodeState} (hout : (s.decode false).out = .ok st) :
    feedsOf (s.decode false).calls = [] ∧
      ∃ c, (s.decode false).next.stream.state = some { st₀ with carried := c } := by
  by_cases hlen : md.readEnd j < xs.length
  · obtain ⟨hcalls, hok⟩ := decode_of_window hm hs hst hlen
    obtain ⟨-, hstream, -, -⟩ := hok st hout
    have hshort : ((md.windowFrames xs j).length : Int) < s.stream.metadata.rightContext + 1 := by
      rw [hs.metadata]
      exact Int.lt_of_not_ge fun h => hnone ((Metadata.context_le_windowFrames_iff hm j).1 h)
    have heq : s.stream.encodeFrames st₀ (Tensor.ofRows d (md.windowFrames xs j)) = _ :=
      Stream.encodeFrames_of_short (Tensor.rows?_ofRows d _) (Metadata.length_windowFrames_pos hm hlen)
        hshort
    refine ⟨by rw [hcalls, heq]; rfl, _, by rw [hstream, heq]⟩
  · obtain ⟨hcalls, hstream⟩ := decode_of_exhausted hm hs (by omega)
    exact ⟨by rw [hcalls]; rfl, st₀.carried, by rw [hstream, hst]⟩

theorem decode_follows_encoded {m : Network.Model} (hr : s.stream.Runs m md)
    (hw : ∀ x ∈ xs, x.size = d) (hs : s.Windowed md d xs j) {st₀ : StreamState}
    (hst : s.stream.state = some st₀)
    (hf : st₀.Follows m.encoder (Tensor.ofRows d xs).unsqueeze md.chunkSize md.leftChunks j)
    (hsome : j * md.stride + md.context ≤ xs.length) {st : DecodeState}
    (hout : (s.decode false).out = .ok st) :
    ∃ acc, m.encoder.chunkLoop (Tensor.ofRows d xs).unsqueeze md.chunkSize md.leftChunks j = .ok acc ∧
      feedsOf (s.decode false).calls =
        [m.encoder.loopFeed (Tensor.ofRows d xs).unsqueeze md.chunkSize md.leftChunks j acc] ∧
      ∃ st₁, (s.decode false).next.stream.state = some st₁ ∧
        st₁.Follows m.encoder (Tensor.ofRows d xs).unsqueeze md.chunkSize md.leftChunks (j + 1) := by
  have hm := hr.describes.chunked hr.chunk
  have hlen : md.readEnd j < xs.length := Nat.lt_of_lt_of_le (readEnd_lt_context hm j) hsome
  obtain ⟨hcalls, hok⟩ := decode_of_window hm hs hst hlen
  obtain ⟨⟨probs, hprobs⟩, hstream, -, -⟩ := hok st hout
  have hctx := (Metadata.context_le_windowFrames_iff hm j).2 hsome
  have hchunk : (Tensor.ofRows d (md.windowFrames xs j)).unsqueeze =
      m.encoder.chunkInput (Tensor.ofRows d xs).unsqueeze md.chunkSize j := by
    rw [hr.describes.chunkInput_eq_window hr.chunk (Tensor.wellFormed_ofRows hw) (by simp; omega),
      Metadata.window_ofRows md hw]
  obtain ⟨acc, hacc, hfeeds, st₁, hst₁, hf₁⟩ :=
    Stream.encodeFrames_follows hr hf (Tensor.rows?_ofRows d _) (Metadata.length_windowFrames_pos hm hlen)
      hctx hchunk hprobs
  exact ⟨acc, hacc, by rw [hcalls]; exact hfeeds, st₁, by rw [hstream]; exact hst₁, hf₁⟩

end Follows

end Session

namespace Recognizer

theorem settle_follows {m : Network.Model} {md : Metadata} {d : Nat} {xs : List Frame}
    (hw : ∀ x ∈ xs, x.size = d) (r : Recognizer) (hr : r.session.stream.Runs m md)
    (hwin : r.session.Windowed md d xs 0) {st : StreamState} (hst : r.session.stream.state = some st)
    (hf : st.Follows m.encoder (Tensor.ofRows d xs).unsqueeze md.chunkSize md.leftChunks 0)
    (hok : (settle r []).out = .ok ()) :
    ∃ st', (settle r []).next.session.stream.state = some st' ∧
      st'.Follows m.encoder (Tensor.ofRows d xs).unsqueeze md.chunkSize md.leftChunks
        (feedsOf (settle r []).calls).length ∧
      m.encoder.LoopFeeds (Tensor.ofRows d xs).unsqueeze md.chunkSize md.leftChunks
        (feedsOf (settle r []).calls) := by
  have hm := hr.describes.chunked hr.chunk
  -- the invariant: the state follows the loop over as many chunks as there were encoder calls
  obtain ⟨k, calls, s, ⟨hs, hrs, ⟨st₀, hst₀, hf₀⟩, hfeeds, hlen⟩, -, hfinal⟩ := settle_run hm
    (fun j calls s => s.Windowed md d xs j ∧ s.stream.Runs m md ∧
      (∃ st, s.stream.state = some st ∧
        st.Follows m.encoder (Tensor.ofRows d xs).unsqueeze md.chunkSize md.leftChunks j) ∧
      m.encoder.LoopFeeds (Tensor.ofRows d xs).unsqueeze md.chunkSize md.leftChunks (feedsOf calls) ∧
      (feedsOf calls).length = j)
    (fun _ _ _ h => h.1)
    (fun j calls s st ⟨hs, hrs, ⟨st₀, hst₀, hf₀⟩, hfeeds, hlen⟩ hfull hout hne => by
      have hsome : j * md.stride + md.context ≤ xs.length :=
        Nat.le_trans (Nat.add_le_add_left (Metadata.context_le_span hm) _) hfull
      obtain ⟨acc, hacc, hnew, st₁, hst₁, hf₁⟩ :=
        Session.decode_follows_encoded hrs hw hs hst₀ hf₀ hsome hout
      subst hlen
      refine ⟨((Session.decode_windowed hm hw hs).2 st hout).2.2 hne, Session.runs_decode hrs false,
        ⟨st₁, hst₁, hf₁⟩, ?_, ?_⟩
      · rw [feedsOf_append, hnew]
        exact Network.Encoder.loopFeeds_append _ _ _ _ hfeeds hacc
      · rw [feedsOf_append, hnew, List.length_append]
        rfl)
    0 [] r (Nat.zero_le _) ⟨hwin, hr, ⟨st, hst, hf⟩, fun k _ h => by simp at h, rfl⟩
  rcases hfinal with ⟨f, -, -, hout⟩ | ⟨hout, hcalls, hstream⟩
  · rw [hok] at hout
    cases hout
  · rw [hcalls, feedsOf_append, feedsOf_append, Session.feedsOf_rescoring, List.append_nil, hstream]
    by_cases hsome : k * md.stride + md.context ≤ xs.length
    · obtain ⟨acc, hacc, hnew, st₁, hst₁, hf₁⟩ :=
        Session.decode_follows_encoded hrs hw hs hst₀ hf₀ hsome hout
      subst hlen
      rw [hnew]
      refine ⟨st₁, hst₁, ?_, Network.Encoder.loopFeeds_append _ _ _ _ hfeeds hacc⟩
      rw [List.length_append]
      exact hf₁
    · obtain ⟨hnew, c, hst₁⟩ := Session.decode_follows_skipped hm hs hst₀ hsome hout
      subst hlen
      rw [hnew, List.append_nil]
      exact ⟨_, hst₁, hf₀, hfeeds⟩

theorem decodeBlocks_follows {m : Network.Model} {md : Metadata} {r₀ r : Recognizer}
    (hreset : r₀.reset = .ok r) (hr : r.session.stream.Runs m md) {d : Nat} (blocks : List Tensor)
    {x : Tensor} (hne : blocks ≠ []) (hblocks : ∀ t ∈ blocks, t.IsMatrix d) (hx : x.WellFormed d)
    (hframes : x.frames = (blocks.map Tensor.frames).flatten)
    (hok : (r.decodeBlocks blocks).out.isOk) :
    ∃ st, (r.decodeBlocks blocks).next.session.stream.state = some st ∧
      st.Follows m.encoder x.unsqueeze md.chunkSize md.leftChunks
        (feedsOf (r.decodeBlocks blocks).calls).length ∧
      m.encoder.LoopFeeds x.unsqueeze md.chunkSize md.leftChunks (feedsOf (r.decodeBlocks blocks).calls) := by
  have hm := hr.describes.chunked hr.chunk
  obtain ⟨-, -, -, -, hmeta, -, st, hst, hfresh, -⟩ := reset_fresh hreset
  rw [← hmeta, hr.metadata] at hfresh
  have hx' := Tensor.eq_ofRows_frames hx
  have hf : st.Follows m.encoder (Tensor.ofRows d x.frames).unsqueeze md.chunkSize md.leftChunks 0 :=
    Stream.freshState_follows hr.describes hr.left hfresh _ _ _
  have hrole : Role.chunk ∈ r.session.stream.backend.roles := by
    rw [hr.backend]
    simp [Network.Model.toBackend, Role.all]
  rcases decodeBlocks_settle hreset (hr.metadata ▸ hm) hrole blocks hne hblocks hx hframes with
    ⟨-, hout⟩ | ⟨r', hwin, hstream, hcalls, hout, hnext⟩
  · rw [hout] at hok
    cases hok
  · have hok' : (settle r' []).out.isOk := hout ▸ hok
    have hsettle : (settle r' []).out = .ok () := by
      revert hok'
      cases (settle r' []).out <;> simp [Except.isOk, Except.toBool]
    rw [hr.metadata] at hwin
    obtain ⟨st', hst', hf', hfeeds⟩ := settle_follows (Tensor.frames_size hx) r' (hstream ▸ hr) hwin
      (by rw [hstream]; exact hst) hf hsettle
    rw [← hx'] at hf' hfeeds
    rw [hcalls, hnext hok']
    exact ⟨st', hst', hf', hfeeds⟩

theorem length_chunks_of_loopFeeds {e : Network.Encoder} {xs : Tensor} {chunk left : Int}
    {feeds : List Feed} (h : e.LoopFeeds xs chunk left feeds) :
    (feeds.filterMap (·.tensor? .chunk)).length = feeds.length := by
  refine List.filterMap_length_eq_length.2 fun feed hmem => ?_
  obtain ⟨k, hk⟩ := List.mem_iff_getElem?.1 hmem
  obtain ⟨acc, -, rfl⟩ := h k feed hk
  rfl

theorem decodeBlocks_reference {m : Network.Model} (hcfg : m.encoder.config = m.plan.encoder)
    {cs nlc : Int} {md : Metadata} (hdoc : Metadata.ofDocument (Value.record (m.describe cs nlc)) = .ok md)
    (hcs : 0 < cs) (hnlc : nlc ≤ 0) {r₀ r : Recognizer} (hb : r₀.session.stream.backend = m.toBackend md)
    (hmd : r₀.session.stream.metadata = md) (hreset : r₀.reset = .ok r) {d : Nat}
    (blocks : List Tensor) {x : Tensor} (hne : blocks ≠ []) (hblocks : ∀ t ∈ blocks, t.IsMatrix d)
    (hx : x.WellFormed d) (hframes : x.frames = (blocks.map Tensor.frames).flatten)
    (hok : (r.decodeBlocks blocks).out.isOk) :
    ∃ st outs, (r.decodeBlocks blocks).next.session.stream.state = some st ∧
      m.encoder.LoopFeeds x.unsqueeze cs nlc (feedsOf (r.decodeBlocks blocks).calls) ∧
      (feedsOf (r.decodeBlocks blocks).calls).length = (md.windows x).length ∧
      m.encoder.chunkLoop x.unsqueeze cs nlc (md.windows x).length =
        .ok (outs, st.offset, st.attCache, st.cnnCache) ∧
      st.outputs = outs.map Matrix.batch ∧
      (md.context ≤ x.numRows → ∃ first rest, outs = first :: rest ∧
        m.encoder.forwardByChunks x.unsqueeze cs nlc = .ok (rest.foldl Matrix.appendRows first)) := by
  obtain ⟨hdesc, rfl, rfl⟩ := Network.Model.describes hcfg hdoc
  obtain ⟨-, -, -, -, hmeta, hback, -⟩ := reset_fresh hreset
  have hr : r.session.stream.Runs m md := ⟨by rw [hback, hb], by rw [hmeta, hmd], hdesc, hcs, hnlc⟩
  have hrole : Role.chunk ∈ r.session.stream.backend.roles := by
    rw [hr.backend]
    simp [Network.Model.toBackend, Role.all]
  obtain ⟨st, hst, ⟨outs, hloop, houts⟩, hfeeds⟩ :=
    decodeBlocks_follows hreset hr blocks hne hblocks hx hframes hok
  have hcount : (feedsOf (r.decodeBlocks blocks).calls).length = (md.windows x).length := by
    have hchunks := (decodeBlocks_windows hreset (by rw [hr.metadata]; exact hdesc.chunked hcs) hrole
      blocks hne hblocks hx hframes).2 hok
    rw [hr.metadata] at hchunks
    rw [← hchunks, chunksOf, length_chunks_of_loopFeeds hfeeds]
  rw [hcount] at hloop
  exact ⟨st, outs, hst, hfeeds, hcount, hloop, houts,
    fun hn => hdesc.forwardByChunks_of_loop hcs hx hn _ hloop⟩

end Recognizer

/-- A stream chunks an utterance into the windows of the chunk-by-chunk encoding, whatever blocks
it arrives in: the `k`-th encoder call receives rows `k * stride` up to `k * stride + span` of it,
cut at its end, exactly for the windows that hold the context, and a run that faults has made a
first part of these calls. On a stream that runs a network with the metadata of its description
and no left chunks, every call also receives the loop's offset, cache size and caches, and the
outputs joined in order are the network's chunk-by-chunk encoding. -/
theorem stream_chunks_reference_windows :
    (∀ (r₀ r : Recognizer) (d : Nat) (blocks : List Tensor) (x : Tensor), r₀.reset = .ok r →
      r.session.stream.metadata.Chunked → Role.chunk ∈ r.session.stream.backend.roles →
      blocks ≠ [] → (∀ t ∈ blocks, t.IsMatrix d) → x.WellFormed d →
      x.frames = (blocks.map Tensor.frames).flatten →
      chunksOf (r.decodeBlocks blocks).calls <+: r.session.stream.metadata.windows x ∧
        ((r.decodeBlocks blocks).out.isOk →
          chunksOf (r.decodeBlocks blocks).calls = r.session.stream.metadata.windows x)) ∧
    (∀ (m : Network.Model) (cs nlc : Int) (md : Metadata) (r₀ r : Recognizer) (d : Nat)
      (blocks : List Tensor) (x : Tensor), m.encoder.config = m.plan.encoder →
      Metadata.ofDocument (Value.record (m.describe cs nlc)) = .ok md → 0 < cs → nlc ≤ 0 →
      r₀.session.stream.backend = m.toBackend md → r₀.session.stream.metadata = md →
      r₀.reset = .ok r → blocks ≠ [] → (∀ t ∈ blocks, t.IsMatrix d) → x.WellFormed d →
      x.frames = (blocks.map Tensor.frames).flatten → (r.decodeBlocks blocks).out.isOk →
      ∃ st outs, (r.decodeBlocks blocks).next.session.stream.state = some st ∧
        m.encoder.LoopFeeds x.unsqueeze cs nlc (feedsOf (r.decodeBlocks blocks).calls) ∧
        (feedsOf (r.decodeBlocks blocks).calls).length = (md.windows x).length ∧
        m.encoder.chunkLoop x.unsqueeze cs nlc (md.windows x).length =
          .ok (outs, st.offset, st.attCache, st.cnnCache) ∧
        st.outputs = outs.map Matrix.batch ∧
        (md.context ≤ x.numRows → ∃ first rest, outs = first :: rest ∧
          m.encoder.forwardByChunks x.unsqueeze cs nlc = .ok (rest.foldl Matrix.appendRows first))) :=
  ⟨fun _ _ _ blocks _ hreset hm hrole hne hblocks hx hframes =>
    Recognizer.decodeBlocks_windows hreset hm hrole blocks hne hblocks hx hframes,
   fun _ _ _ _ _ _ _ blocks _ hcfg hdoc hcs hnlc hb hmd hreset hne hblocks hx hframes hok =>
    Recognizer.decodeBlocks_reference hcfg hdoc hcs hnlc hb hmd hreset blocks hne hblocks hx hframes hok⟩

/-- A network configuration of width four with two heads, one encoder block of kernel three and
a left-to-right decoder of one block, over eight features and five labels. -/
def Network.Config.small : Network.Config :=
  { vocab := 5, inputDim := 8,
    encoderSection := .map [(.str "output_size", .int 4), (.str "attention_heads", .int 2),
      (.str "linear_units", .int 8), (.str "num_blocks", .int 1), (.str "cnn_module_kernel", .int 3)],
    decoderSection := .map [(.str "attention_heads", .int 2), (.str "linear_units", .int 8),
      (.str "num_blocks", .int 1)],
    decoderKind := .str "transformer" }

/-- The small network with the reference weights. -/
def Network.Model.small : Network.Model :=
  match Network.Model.build .small Network.Weights.reference none with
  | .ok m => m
  | .error _ => default

theorem Network.Model.build_small :
    Network.Model.build .small Network.Weights.reference none = .ok Network.Model.small := rfl

/-- The metadata of the small network's description with a chunking. -/
def Metadata.small (cs nlc : Int) : Metadata := ⟨4, 1, 2, 3, 4, 6, 4, 4, false, cs, nlc⟩

/-- A matrix of `rows` frames `cols` wide whose entries count up from zero, row by row. -/
def Tensor.counting (rows cols : Nat) : Tensor :=
  ⟨[rows, cols], (Array.range (rows * cols)).map (fun k => Float32.ofNat k)⟩

/-- A recogniser on the small network with chunks of one output frame and no left chunks, before
its first reset; its searcher keeps no hypothesis, so an utterance ends without rescoring. -/
def Recognizer.small : Recognizer :=
  ⟨{ queue := FrameQueue.empty none
     stream := Stream.new (Network.Model.small.toBackend (Metadata.small 1 0)) (Metadata.small 1 0)
     searcher := .fixed [] [] 0, initialSearcher := .fixed [] [] 0, options := {}, vocabulary := none,
     detector := none, started := false, results := [], frames := 0 }, "", [], false⟩

/-- The small recogniser after its reset. -/
def Recognizer.smallReset : Recognizer :=
  match Recognizer.small.reset with
  | .ok r => r
  | .error _ => Recognizer.small

/-- Eleven frames, fed to the small recogniser in blocks of five and six, make two windows of seven
frames four apart, and the recogniser makes an encoder call for each, with the inputs of the
network's chunk-by-chunk loop. -/
theorem stream_chunks_reference_windows_across_blocks :
    ((Metadata.small 1 0).windows (Tensor.counting 11 8)).length = 2 ∧
    (Recognizer.smallReset.decodeBlocks
        [(Tensor.counting 11 8).sliceRows 0 5, (Tensor.counting 11 8).sliceRows 5 11]).out.isOk ∧
    chunksOf (Recognizer.smallReset.decodeBlocks
        [(Tensor.counting 11 8).sliceRows 0 5, (Tensor.counting 11 8).sliceRows 5 11]).calls =
      (Metadata.small 1 0).windows (Tensor.counting 11 8) ∧
    ∃ st outs,
      (Recognizer.smallReset.decodeBlocks
          [(Tensor.counting 11 8).sliceRows 0 5, (Tensor.counting 11 8).sliceRows 5 11]).next.session.stream.state =
        some st ∧
      Network.Model.small.encoder.LoopFeeds (Tensor.counting 11 8).unsqueeze 1 0
        (feedsOf (Recognizer.smallReset.decodeBlocks
          [(Tensor.counting 11 8).sliceRows 0 5, (Tensor.counting 11 8).sliceRows 5 11]).calls) ∧
      (feedsOf (Recognizer.smallReset.decodeBlocks
          [(Tensor.counting 11 8).sliceRows 0 5, (Tensor.counting 11 8).sliceRows 5 11]).calls).length =
        ((Metadata.small 1 0).windows (Tensor.counting 11 8)).length ∧
      Network.Model.small.encoder.chunkLoop (Tensor.counting 11 8).unsqueeze 1 0
          ((Metadata.small 1 0).windows (Tensor.counting 11 8)).length =
        .ok (outs, st.offset, st.attCache, st.cnnCache) ∧
      st.outputs = outs.map Matrix.batch ∧
      ((Metadata.small 1 0).context ≤ (Tensor.counting 11 8).numRows → ∃ first rest, outs = first :: rest ∧
        Network.Model.small.encoder.forwardByChunks (Tensor.counting 11 8).unsqueeze 1 0 =
          .ok (rest.foldl Matrix.appendRows first)) := by
  have hreset : Recognizer.small.reset = .ok Recognizer.smallReset := rfl
  have hxm : (Tensor.counting 11 8).IsMatrix 8 := rfl
  have hx : (Tensor.counting 11 8).WellFormed 8 := ⟨hxm, by simp [Tensor.counting, Tensor.numRows]⟩
  have hblocks : ∀ t ∈ [(Tensor.counting 11 8).sliceRows 0 5, (Tensor.counting 11 8).sliceRows 5 11],
      t.IsMatrix 8 := by
    intro t ht
    simp only [List.mem_cons, List.not_mem_nil, or_false] at ht
    rcases ht with rfl | rfl <;> exact Tensor.isMatrix_sliceRows hxm _ _
  have hframes : (Tensor.counting 11 8).frames =
      ([(Tensor.counting 11 8).sliceRows 0 5, (Tensor.counting 11 8).sliceRows 5 11].map Tensor.frames).flatten := by
    have hlen : (Tensor.counting 11 8).frames.length = 11 := by simp [Tensor.numRows, Tensor.counting]
    simp only [List.map_cons, List.map_nil, List.flatten_cons, List.flatten_nil, List.append_nil,
      Tensor.frames_sliceRows, List.drop_zero]
    have hall : (Tensor.counting 11 8).frames.take 11 = (Tensor.counting 11 8).frames :=
      List.take_of_length_le (by omega)
    rw [hall, List.take_append_drop]
  have hok : (Recognizer.smallReset.decodeBlocks
      [(Tensor.counting 11 8).sliceRows 0 5, (Tensor.counting 11 8).sliceRows 5 11]).out.isOk := by
    decide +kernel
  have hwindows := (stream_chunks_reference_windows.1 Recognizer.small Recognizer.smallReset 8 _
    (Tensor.counting 11 8) hreset (by unfold Metadata.Chunked; decide +kernel) (by decide +kernel)
    (by simp) hblocks hx hframes).2 hok
  exact ⟨by decide +kernel, hok, hwindows,
    stream_chunks_reference_windows.2 Network.Model.small 1 0 (Metadata.small 1 0) Recognizer.small
      Recognizer.smallReset 8 _ (Tensor.counting 11 8) (Network.Model.build_config Network.Model.build_small)
      rfl (by decide) le_rfl rfl rfl hreset (by simp) hblocks hx hframes hok⟩

end SpeechStream
