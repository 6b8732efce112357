import SpeechStream.Proofs.BlockFeeding
/-!
Chunk windows of a streaming session.

With a positive chunk size and a subsampling whose rate is at least one and at most one more than
its look-ahead (`Metadata.Chunked`), a stream reads a whole chunk of `span` frames first and a
stride of frames after that, and carries the last `overlap` frames of each chunk into the next.
The `k`-th chunk it encodes is the window of `span` input frames from frame `k * stride`, cut at
the end of the utterance, and a window is encoded exactly when it holds the context the
subsampling needs (`Metadata.windows`). What a chunk of frames does is said once, up to the
encoder's return (`Stream.encodeFrames_cases`) and after it (`Stream.encodeFrames_of_returned`).

A session stepping through a finished utterance keeps `Session.Windowed` from one read to the
next (`Session.decode_windowed`); draining it encodes the windows in order
(`Recognizer.settle_windowed`), and so does feeding an utterance to a recogniser at its start in
any blocks (`Recognizer.decodeBlocks_windows`).
-/

set_option autoImplicit false

namespace SpeechStream

namespace Tensor

/-- A matrix of frames `d` features wide whose data holds exactly its frames. -/
def WellFormed (t : Tensor) (d : Nat) : Prop := t.IsMatrix d ∧ t.data.size = t.numRows * d

theorem ofRows_data_toList (d : Nat) (rows : List Frame) :
    (ofRows d rows).data.toList = (rows.map Array.toList).flatten := by
  simp only [ofRows]
  suffices h : ∀ acc : Array Float32,
      (rows.foldl (· ++ ·) acc).toList = acc.toList ++ (rows.map Array.toList).flatten by
    simpa using h #[]
  induction rows with
  | nil => simp
  | cons x xs ih => intro acc; simp [ih]

private theorem flatten_drop_take (d : Nat) (rows : List Frame) (hw : ∀ x ∈ rows, x.size = d)
    (i : Nat) (hi : i < rows.length) :
    ((rows.map Array.toList).flatten.drop (i * d)).take d = rows[i].toList := by
  induction rows generalizing i with
  | nil => simp at hi
  | cons x xs ih =>
    have hx : x.toList.length = d := by simp [hw x (by simp)]
    cases i with
    | zero => simp [← hx]
    | succ i =>
      have := ih (fun y hy => hw y (by simp [hy])) i (by simpa using hi)
      simp only [List.map_cons, List.flatten_cons, List.getElem_cons_succ]
      rw [Nat.succ_mul, Nat.add_comm, ← List.drop_drop, List.drop_left' hx]
      exact this

theorem frames_ofRows {d : Nat} {rows : List Frame} (hw : ∀ x ∈ rows, x.size = d) :
    (ofRows d rows).frames = rows := by
  have hwidth : (ofRows d rows).rowWidth = d := by simp [rowWidth, ofRows, count]
  apply List.ext_getElem
  · simp
  · intro i _ h2
    simp only [frames, List.getElem_map, List.getElem_range]
    apply Array.ext'
    simp only [row, hwidth, Array.toList_extract, List.extract_eq_take_drop, ofRows_data_toList]
    rw [show (i + 1) * d - i * d = d by rw [Nat.succ_mul]; omega]
    exact flatten_drop_take d rows hw i h2

private theorem length_flatten_rows {d : Nat} {rows : List Frame} (hw : ∀ x ∈ rows, x.size = d) :
    ((rows.map Array.toList).flatten).length = rows.length * d := by
  induction rows with
  | nil => simp
  | cons x xs ih =>
    have hx : x.size = d := hw x (by simp)
    rw [List.map_cons, List.flatten_cons, List.length_append, Array.length_toList, hx,
      ih (fun y hy => hw y (by simp [hy])), List.length_cons, Nat.succ_mul]
    omega

theorem wellFormed_ofRows {d : Nat} {rows : List Frame} (hw : ∀ x ∈ rows, x.size = d) :
    (ofRows d rows).WellFormed d := by
  refine ⟨rfl, ?_⟩
  rw [← Array.length_toList, ofRows_data_toList, length_flatten_rows hw, numRows_ofRows]

theorem data_toList_of_wellFormed {t : Tensor} {d : Nat} (ht : t.WellFormed d) :
    t.data.toList = (t.frames.map Array.toList).flatten := by
  have hwidth : t.rowWidth = d := rowWidth_of_isMatrix ht.1
  have hslices := flatten_slices t.data.toList d t.numRows
  rw [List.take_of_length_le (Nat.le_of_eq (by rw [Array.length_toList, ht.2]))] at hslices
  rw [← hslices, frames, List.map_map]
  congr 1
  apply List.map_congr_left
  intro i _
  simp only [Function.comp_apply, row, hwidth, Array.toList_extract, List.extract_eq_take_drop,
    List.drop_take]
  congr 1
  rw [Nat.succ_mul]

theorem frames_size {t : Tensor} {d : Nat} (ht : t.WellFormed d) : ∀ x ∈ t.frames, x.size = d := by
  intro x hx
  obtain ⟨i, hi, rfl⟩ := List.mem_map.1 hx
  have hwidth : t.rowWidth = d := rowWidth_of_isMatrix ht.1
  have hle : (i + 1) * d ≤ t.data.size := by
    rw [ht.2]
    exact Nat.mul_le_mul_right d (List.mem_range.1 hi)
  simp only [row, hwidth, Array.size_extract]
  rw [Nat.min_eq_left hle, Nat.succ_mul]
  omega

theorem ext_of {a b : Tensor} (hshape : a.shape = b.shape) (hdata : a.data = b.data) : a = b := by
  cases a
  cases b
  simp only at hshape hdata
  subst hshape
  subst hdata
  rfl

theorem eq_ofRows_frames {t : Tensor} {d : Nat} (ht : t.WellFormed d) : t = ofRows d t.frames := by
  have hshape : t.shape = (ofRows d t.frames).shape := by
    rw [ht.1]
    simp [ofRows]
  have hdata : t.data = (ofRows d t.frames).data := by
    apply Array.ext'
    rw [ofRows_data_toList, data_toList_of_wellFormed ht]
  exact ext_of hshape hdata

theorem wellFormed_sliceRows {t : Tensor} {d : Nat} (ht : t.WellFormed d) (lo hi : Nat) :
    (t.sliceRows lo hi).WellFormed d := by
  refine ⟨isMatrix_sliceRows ht.1 lo hi, ?_⟩
  have hwidth : t.rowWidth = d := rowWidth_of_isMatrix ht.1
  have hle : min hi t.numRows * d ≤ t.data.size := by
    rw [ht.2]
    exact Nat.mul_le_mul_right d (Nat.min_le_right _ _)
  rw [numRows_sliceRows]
  simp only [sliceRows, hwidth, Array.size_extract, Nat.min_eq_left hle]
  rw [← Nat.sub_mul]
  congr 1
  omega

theorem sliceRows_ofRows {d : Nat} {rows : List Frame} (hw : ∀ x ∈ rows, x.size = d) (lo hi : Nat) :
    (ofRows d rows).sliceRows lo hi = ofRows d ((rows.take hi).drop lo) := by
  rw [eq_ofRows_frames (wellFormed_sliceRows (wellFormed_ofRows hw) lo hi), frames_sliceRows,
    frames_ofRows hw]

theorem cat_ofRows (d : Nat) (xs ys : List Frame) :
    cat [ofRows d xs, ofRows d ys] = .ok (ofRows d (xs ++ ys)) := by
  have hdata : (ofRows d (xs ++ ys)).data = (ofRows d xs).data ++ (ofRows d ys).data := by
    apply Array.ext'
    simp only [ofRows_data_toList, Array.toList_append, List.map_append, List.flatten_append]
  simp only [cat, isBlank, ofRows, rank] at hdata ⊢
  simp [hdata, numRows]

theorem rows?_ofRows (d : Nat) (rows : List Frame) : (ofRows d rows).rows? = .ok rows.length := by
  simp [rows?, size?, rank, ofRows]

end Tensor

namespace Metadata

/-- Chunked decoding whose subsampling skips no frame: a positive chunk size and a rate of at
least one and at most one more than the look-ahead. -/
def Chunked (m : Metadata) : Prop :=
  0 < m.chunkSize ∧ 1 ≤ m.subsamplingRate ∧ m.subsamplingRate ≤ m.rightContext + 1

/-- Input frames between the starts of two chunks. -/
def stride (m : Metadata) : Nat := (m.chunkSize * m.subsamplingRate).toNat

/-- Input frames a chunk shares with the next: the look-ahead beyond one rate. -/
def overlap (m : Metadata) : Nat := (1 + m.rightContext - m.subsamplingRate).toNat

/-- Input frames of a whole chunk. -/
def span (m : Metadata) : Nat := m.stride + m.overlap

/-- The fewest input frames the encoder takes. -/
def context (m : Metadata) : Nat := (m.rightContext + 1).toNat

section Chunked

variable {m : Metadata} (h : m.Chunked)
include h

theorem context_cast : (m.context : Int) = m.rightContext + 1 := by
  obtain ⟨-, hsr, hrc⟩ := h
  unfold context
  omega

theorem stride_pos : 0 < m.stride := by
  obtain ⟨hcs, hsr, -⟩ := h
  have : 1 * m.subsamplingRate ≤ m.chunkSize * m.subsamplingRate :=
    Int.mul_le_mul_of_nonneg_right hcs (by omega)
  unfold stride
  omega

theorem context_eq : m.context = m.overlap + m.subsamplingRate.toNat := by
  obtain ⟨-, hsr, hrc⟩ := h
  unfold context overlap
  omega

theorem overlap_lt_context : m.overlap < m.context := by
  rw [context_eq h]
  obtain ⟨-, hsr, -⟩ := h
  omega

theorem context_le_span : m.context ≤ m.span := by
  obtain ⟨hcs, hsr, hrc⟩ := h
  have : 1 * m.subsamplingRate ≤ m.chunkSize * m.subsamplingRate :=
    Int.mul_le_mul_of_nonneg_right hcs (by omega)
  unfold span stride overlap context
  omega

theorem framesForChunk_eq (s : Stream) (hs : s.metadata = m) (started : Bool) :
    s.framesForChunk started = if started then (m.stride : Int) else m.span := by
  obtain ⟨hcs, hsr, hrc⟩ := h
  have : 1 * m.subsamplingRate ≤ m.chunkSize * m.subsamplingRate :=
    Int.mul_le_mul_of_nonneg_right hcs (by omega)
  have hmul : (m.chunkSize - 1) * m.subsamplingRate = m.chunkSize * m.subsamplingRate - m.subsamplingRate := by
    rw [Int.sub_mul, Int.one_mul]
  unfold Stream.framesForChunk
  rw [hs]
  cases started <;> simp only [Bool.not_false, Bool.not_true, Bool.false_eq_true, ↓reduceIte,
    if_neg (show ¬ m.chunkSize ≤ 0 by omega), span, stride, overlap] <;> omega

end Chunked

/-- The `k`-th window of input frames of a chunked stream: `span` frames from frame `k * stride`,
or as many as the utterance still has. -/
def window (m : Metadata) (x : Tensor) (k : Nat) : Tensor :=
  (x.sliceRows (k * m.stride) (k * m.stride + m.span)).unsqueeze

/-- The windows a chunked stream encodes, in order: every window that holds the context. -/
def windows (m : Metadata) (x : Tensor) : List Tensor :=
  ((List.range (x.numRows + 1)).filter (fun k => k * m.stride + m.context ≤ x.numRows)).map
    (m.window x)

/-- Input frames read once `j` chunks have been taken: each chunk reads up to the end of its
window. -/
def readEnd (m : Metadata) (j : Nat) : Nat := if j = 0 then 0 else j * m.stride + m.overlap

/-- Input frames the `j`-th chunk reads. -/
def request (m : Metadata) (j : Nat) : Nat := if j = 0 then m.span else m.stride

theorem readEnd_add_request (m : Metadata) (j : Nat) :
    m.readEnd j + m.request j = j * m.stride + m.span := by
  unfold readEnd request span
  by_cases hj : j = 0
  · simp [hj]
  · simp only [hj, ↓reduceIte]
    omega

theorem request_pos {m : Metadata} (hm : m.Chunked) (j : Nat) : 0 < m.request j := by
  have := stride_pos hm
  unfold request span
  split <;> omega

theorem readEnd_succ (m : Metadata) (j : Nat) : m.readEnd (j + 1) = j * m.stride + m.span := by
  simp only [readEnd, span, Nat.add_one_ne_zero, ↓reduceIte, Nat.succ_mul]
  omega

theorem le_readEnd (m : Metadata) (j : Nat) : j * m.stride ≤ m.readEnd j := by
  unfold readEnd
  split
  · simp_all
  · omega

theorem succ_le_of_whole {m : Metadata} (hm : m.Chunked) (j : Nat) : j + 1 ≤ j * m.stride + m.span := by
  have hpos := stride_pos hm
  have : j ≤ j * m.stride := Nat.le_mul_of_pos_right j hpos
  unfold span
  omega

/-- The frames of the `j`-th window of an utterance: `span` frames from frame `j * stride`, or as
many as the utterance still has. -/
def windowFrames (m : Metadata) (xs : List Frame) (j : Nat) : List Frame :=
  (xs.take (j * m.stride + m.span)).drop (j * m.stride)

@[simp] theorem length_windowFrames (m : Metadata) (xs : List Frame) (j : Nat) :
    (m.windowFrames xs j).length = min (j * m.stride + m.span) xs.length - j * m.stride := by
  simp [windowFrames]

theorem size_of_mem_windowFrames (m : Metadata) {d : Nat} {xs : List Frame}
    (hw : ∀ x ∈ xs, x.size = d) (j : Nat) : ∀ x ∈ m.windowFrames xs j, x.size = d :=
  fun x hx => hw x (List.mem_of_mem_take (List.mem_of_mem_drop hx))

theorem window_ofRows (m : Metadata) {d : Nat} {xs : List Frame} (hw : ∀ x ∈ xs, x.size = d)
    (j : Nat) : m.window (Tensor.ofRows d xs) j = (Tensor.ofRows d (m.windowFrames xs j)).unsqueeze := by
  rw [window, Tensor.sliceRows_ofRows hw]
  rfl

section Chunked

variable {m : Metadata} (hm : m.Chunked) {xs : List Frame}
include hm

theorem length_windowFrames_pos {j : Nat} (hlen : m.readEnd j < xs.length) :
    0 < (m.windowFrames xs j).length := by
  have hend := readEnd_add_request m j
  have hpos := request_pos hm j
  have hle := le_readEnd m j
  rw [length_windowFrames]
  omega

theorem context_le_windowFrames_iff (j : Nat) :
    m.rightContext + 1 ≤ ((m.windowFrames xs j).length : Int) ↔
      j * m.stride + m.context ≤ xs.length := by
  have hspan := context_le_span hm
  have hpos : 0 < m.context := Nat.lt_of_le_of_lt (Nat.zero_le _) (overlap_lt_context hm)
  rw [← context_cast hm, Int.ofNat_le, length_windowFrames]
  omega

end Chunked

theorem windowFrames_carried {m : Metadata} {xs : List Frame} {j : Nat}
    (hfull : j * m.stride + m.span ≤ xs.length) :
    (m.windowFrames xs j).drop ((m.windowFrames xs j).length - m.overlap) =
      (xs.take (m.readEnd (j + 1))).drop ((j + 1) * m.stride) := by
  have hkeep : (m.windowFrames xs j).length - m.overlap = m.stride := by
    have hspan : m.span = m.stride + m.overlap := rfl
    rw [length_windowFrames]
    omega
  rw [hkeep, windowFrames, List.drop_drop, readEnd_succ, Nat.succ_mul]

/-- The windows from the `j`-th on. -/
def windowsFrom (m : Metadata) (x : Tensor) (j : Nat) : List Tensor :=
  ((List.range' j (x.numRows + 1 - j)).filter (fun k => k * m.stride + m.context ≤ x.numRows)).map
    (m.window x)

theorem windows_eq (m : Metadata) (x : Tensor) : m.windows x = m.windowsFrom x 0 := by
  simp [windows, windowsFrom, List.range_eq_range']

private theorem filter_range_lt (p : Nat → Bool) (N : Nat) (hp : ∀ k, p k = decide (k < N)) (n : Nat) :
    (List.range n).filter p = List.range (min N n) := by
  induction n with
  | zero => simp
  | succ n ih =>
    rw [List.range_succ, List.filter_append, ih]
    by_cases h : n < N
    · rw [Nat.min_eq_right (Nat.le_of_lt h), Nat.min_eq_right h, List.range_succ]
      simp [hp, h]
    · rw [Nat.min_eq_left (by omega), Nat.min_eq_left (by omega)]
      simp [hp, h]

theorem length_windows {m : Metadata} (hm : m.Chunked) (x : Tensor) :
    (m.windows x).length = if m.context ≤ x.numRows then (x.numRows - m.context) / m.stride + 1 else 0 := by
  have hpos := stride_pos hm
  have hcount : (if m.context ≤ x.numRows then (x.numRows - m.context) / m.stride + 1 else 0) ≤
      x.numRows + 1 := by
    split
    · have := Nat.div_le_self (x.numRows - m.context) m.stride
      omega
    · omega
  rw [windows, List.length_map, filter_range_lt _ _ ?_ _, List.length_range, Nat.min_eq_left hcount]
  intro k
  rw [decide_eq_decide]
  split
  · rw [Nat.lt_succ_iff, Nat.le_div_iff_mul_le hpos]
    omega
  · omega

theorem windowsFrom_succ (m : Metadata) (x : Tensor) {j : Nat} (hj : j ≤ x.numRows) :
    m.windowsFrom x j =
      (if j * m.stride + m.context ≤ x.numRows then [m.window x j] else []) ++ m.windowsFrom x (j + 1) := by
  have hlen : x.numRows + 1 - j = (x.numRows + 1 - (j + 1)) + 1 := by omega
  unfold windowsFrom
  rw [hlen, List.range'_succ, List.filter_cons]
  split <;> simp_all

theorem windowsFrom_of_short {m : Metadata} (h : m.Chunked) (x : Tensor) {j : Nat}
    (hj : x.numRows < j * m.stride + m.span) : m.windowsFrom x (j + 1) = [] := by
  have hspan : m.span + 1 ≤ m.stride + m.context := by
    have := context_eq h
    obtain ⟨-, hsr, -⟩ := h
    unfold span
    omega
  unfold windowsFrom
  rw [List.map_eq_nil_iff, List.filter_eq_nil_iff]
  intro k hk
  have hjk : (j + 1) * m.stride ≤ k * m.stride :=
    Nat.mul_le_mul_right _ (List.mem_range'_1.1 hk).1
  rw [Nat.succ_mul] at hjk
  simp only [decide_eq_true_eq]
  omega

end Metadata

/-- The inputs of an encoder call. -/
def Call.feed? : Call → Option Feed
  | .encoder feed => some feed
  | _ => none

/-- The inputs of the encoder calls among some calls, in call order. -/
def feedsOf (calls : List Call) : List Feed := calls.filterMap Call.feed?

/-- The chunks the encoder calls among some calls received, in call order. -/
def chunksOf (calls : List Call) : List Tensor := (feedsOf calls).filterMap (·.tensor? .chunk)

@[simp] theorem feedsOf_nil : feedsOf [] = [] := rfl

@[simp] theorem feedsOf_append (a b : List Call) : feedsOf (a ++ b) = feedsOf a ++ feedsOf b :=
  List.filterMap_append

@[simp] theorem feedsOf_cons (c : Call) (cs : List Call) :
    feedsOf (c :: cs) = c.feed?.toList ++ feedsOf cs := by
  cases h : c.feed? <;> simp [feedsOf, h]

@[simp] theorem chunksOf_nil : chunksOf [] = [] := rfl

@[simp] theorem chunksOf_append (a b : List Call) : chunksOf (a ++ b) = chunksOf a ++ chunksOf b := by
  simp [chunksOf]

theorem chunksOf_of_feedsOf {calls : List Call} (h : feedsOf calls = []) : chunksOf calls = [] := by
  simp [chunksOf, h]

instance : LawfulBEq Role where
  eq_of_beq {a b} := by cases a <;> cases b <;> decide
  rfl {a} := by cases a <;> decide

/-- A stream state carries the frames `xs`, `d` features wide, into the next chunk. -/
def StreamState.Carries (st : StreamState) (d : Nat) (xs : List Frame) : Prop :=
  match st.carried with
  | none => xs = []
  | some c => c = Tensor.ofRows d xs

namespace Stream

theorem joinCarried_ofRows {st : StreamState} {d : Nat} {xs : List Frame} (h : st.Carries d xs)
    (ys : List Frame) : joinCarried st (Tensor.ofRows d ys) = .ok (Tensor.ofRows d (xs ++ ys)) := by
  unfold StreamState.Carries at h
  unfold joinCarried
  cases hc : st.carried with
  | none =>
    rw [hc] at h
    simp [h]
  | some c =>
    rw [hc] at h
    subst h
    dsimp only
    by_cases hn : (Tensor.ofRows d xs).numRows > 0
    · rw [if_pos hn, Tensor.cat_ofRows]
    · rw [if_neg hn]
      have : xs = [] := by simpa using hn
      simp [this]

theorem feed_chunk {s : Stream} {st : StreamState} {feats : Tensor} {inputs : Feed}
    (h : s.feed st feats = .ok inputs) (hrole : Role.chunk ∈ s.backend.roles) :
    inputs.tensor? .chunk = some feats.unsqueeze := by
  unfold feed at h
  cases hm : s.mask st.offset with
  | error f => simp [hm, bind, Except.bind] at h
  | ok mo =>
    simp only [hm, bind, Except.bind, pure, Except.pure, Except.ok.injEq] at h
    subst h
    cases mo <;> simp [Feed.tensor?, Feed.get?, List.filter_cons, hrole]

/-- The frames a chunk carries into the next: the last overlap of them, or none. -/
def carriedAfter (m : Metadata) (feats : Tensor) (n : Nat) : Option Tensor :=
  if 1 + m.rightContext - m.subsamplingRate > 0 then
    some (feats.lastRows (min (1 + m.rightContext - m.subsamplingRate).toNat n))
  else none

theorem encodeFrames_of_short {s : Stream} {st : StreamState} {feats : Tensor} {n : Nat}
    (hrows : feats.rows? = .ok n) (hpos : 0 < n) (hshort : (n : Int) < s.metadata.rightContext + 1) :
    s.encodeFrames st feats = ⟨{ s with state := some { st with carried := some feats } }, [],
      .ok (Tensor.zeros [0, s.vocab])⟩ := by
  have hn : (n == 0) = false := by simp; omega
  simp [encodeFrames, hrows, hn, hshort]

theorem encodeFrames_cases (s : Stream) (st : StreamState) (feats : Tensor) :
    (∃ f, s.encodeFrames st feats = ⟨s, [], .error f⟩) ∨
    (∃ n, feats.rows? = .ok n ∧ 0 < n ∧ (n : Int) < s.metadata.rightContext + 1 ∧
      s.encodeFrames st feats =
        ⟨{ s with state := some { st with carried := some feats } }, [], .ok (Tensor.zeros [0, s.vocab])⟩) ∨
    (∃ inputs enc f, s.feed st feats = .ok inputs ∧ s.backend.encode inputs = .ok enc ∧
      enc.out.size? 1 = .error f ∧
      s.encodeFrames st feats = ⟨{ s with state := some { st with
        attCache := enc.attCache, cnnCache := enc.cnnCache } }, [.encoder inputs], .error f⟩) ∨
    (∃ n inputs enc produced, feats.rows? = .ok n ∧ 0 < n ∧ s.metadata.rightContext + 1 ≤ n ∧
      s.feed st feats = .ok inputs ∧ s.backend.encode inputs = .ok enc ∧
      enc.out.size? 1 = .ok produced) := by
  cases hrows : feats.rows? with
  | error f => exact .inl ⟨f, by simp [encodeFrames, hrows]⟩
  | ok n =>
    rcases Nat.eq_zero_or_pos n with rfl | hpos
    · exact .inl ⟨.emptyInput, by simp [encodeFrames, hrows]⟩
    by_cases hshort : (n : Int) < s.metadata.rightContext + 1
    · exact .inr (.inl ⟨n, rfl, hpos, hshort, encodeFrames_of_short hrows hpos hshort⟩)
    have hn : (n == 0) = false := by simp; omega
    cases hfeed : s.feed st feats with
    | error f => exact .inl ⟨f, by simp [encodeFrames, hrows, hn, hshort, hfeed]⟩
    | ok inputs =>
      cases henc : s.backend.encode inputs with
      | error f => exact .inl ⟨f, by simp [encodeFrames, hrows, hn, hshort, hfeed, henc]⟩
      | ok enc =>
        cases hsize : enc.out.size? 1 with
        | error f =>
          exact .inr (.inr (.inl ⟨inputs, enc, f, rfl, henc, hsize,
            by simp [encodeFrames, hrows, hn, hshort, hfeed, henc, hsize]⟩))
        | ok produced =>
          exact .inr (.inr (.inr ⟨n, inputs, enc, produced, rfl, hpos, by omega, rfl, henc, hsize⟩))

theorem encodeFrames_of_returned {s : Stream} {st : StreamState} {feats : Tensor} {n : Nat}
    (hrows : feats.rows? = .ok n) (hpos : 0 < n) (hctx : s.metadata.rightContext + 1 ≤ n)
    {inputs : Feed} (hfeed : s.feed st feats = .ok inputs) {enc : EncoderOutput}
    (henc : s.backend.encode inputs = .ok enc) {produced : Nat} (hsize : enc.out.size? 1 = .ok produced) :
    let st' : StreamState := { st with
      attCache := enc.attCache, cnnCache := enc.cnnCache, offset := st.offset + produced,
      outputs := st.outputs ++ [enc.out] }
    (∃ f calls, (calls = [.encoder inputs] ∨ calls = [.encoder inputs, .ctc enc.out]) ∧
      s.encodeFrames st feats = ⟨{ s with state := some st' }, calls, .error f⟩) ∨
    ∃ v lp, s.encodeFrames st feats =
      ⟨{ s with vocab := v, state := some { st' with carried := carriedAfter s.metadata feats n } },
        [.encoder inputs, .ctc enc.out], .ok lp⟩ := by
  have hn : (n == 0) = false := by simp; omega
  have hlong : ¬ (n : Int) < s.metadata.rightContext + 1 := by omega
  unfold encodeFrames
  simp only [hrows, hn, Bool.false_eq_true, ↓reduceIte, hlong, hfeed, henc, hsize]
  cases s.backend.ctc enc.out with
  | error f => exact .inl ⟨f, _, .inl rfl, rfl⟩
  | ok probs =>
    dsimp only
    cases probs.rows? with
    | error f => exact .inl ⟨f, _, .inr rfl, rfl⟩
    | ok k =>
      cases k with
      | zero => exact .inl ⟨_, _, .inr rfl, rfl⟩
      | succ k =>
        cases (probs.row 0).size? (-1) with
        | error f => exact .inl ⟨f, _, .inr rfl, rfl⟩
        | ok v => exact .inr ⟨v, _, rfl⟩

theorem encodeFrames_of_ok {s : Stream} {st : StreamState} {feats : Tensor} {n : Nat}
    (hrows : feats.rows? = .ok n) (hpos : 0 < n) (hctx : s.metadata.rightContext + 1 ≤ n)
    {lp : Tensor} (hout : (s.encodeFrames st feats).out = .ok lp) :
    ∃ inputs enc produced v, s.feed st feats = .ok inputs ∧ s.backend.encode inputs = .ok enc ∧
      enc.out.size? 1 = .ok produced ∧
      (s.encodeFrames st feats).calls = [.encoder inputs, .ctc enc.out] ∧
      (s.encodeFrames st feats).next = { s with vocab := v, state := some { st with
        attCache := enc.attCache, cnnCache := enc.cnnCache, offset := st.offset + produced,
        outputs := st.outputs ++ [enc.out], carried := carriedAfter s.metadata feats n } } := by
  rcases encodeFrames_cases s st feats with ⟨f, he⟩ | ⟨n', hrows', -, hshort, -⟩ |
      ⟨inputs, enc, f, -, -, -, he⟩ | ⟨n', inputs, enc, produced, hrows', -, -, hfeed, henc, hsize⟩
  · rw [he] at hout
    cases hout
  · rw [hrows] at hrows'
    cases hrows'
    omega
  · rw [he] at hout
    cases hout
  · rw [hrows] at hrows'
    cases hrows'
    rcases encodeFrames_of_returned hrows hpos hctx hfeed henc hsize with ⟨f, calls, -, he⟩ | ⟨v, lp', he⟩
    · rw [he] at hout
      cases hout
    · rw [he]
      exact ⟨inputs, enc, produced, v, hfeed, henc, hsize, rfl, rfl⟩

theorem encodeFrames_calls (s : Stream) (st : StreamState) (feats : Tensor) :
    (s.encodeFrames st feats).calls = [] ∨ ∃ inputs rest, s.feed st feats = .ok inputs ∧
      (s.encodeFrames st feats).calls = .encoder inputs :: rest ∧ feedsOf rest = [] := by
  rcases encodeFrames_cases s st feats with ⟨f, he⟩ | ⟨n, -, -, -, he⟩ |
      ⟨inputs, enc, f, hfeed, -, -, he⟩ | ⟨n, inputs, enc, produced, hrows, hpos, hctx, hfeed, henc, hsize⟩
  · rw [he]
    exact .inl rfl
  · rw [he]
    exact .inl rfl
  · rw [he]
    exact .inr ⟨inputs, [], hfeed, rfl, rfl⟩
  · have hctc : feedsOf [.ctc enc.out] = [] := by simp [feedsOf, Call.feed?]
    rcases encodeFrames_of_returned hrows hpos hctx hfeed henc hsize with
      ⟨f, calls, rfl | rfl, he⟩ | ⟨v, lp, he⟩
    · exact .inr ⟨inputs, [], hfeed, by rw [he], rfl⟩
    · exact .inr ⟨inputs, [.ctc enc.out], hfeed, by rw [he], hctc⟩
    · exact .inr ⟨inputs, [.ctc enc.out], hfeed, by rw [he], hctc⟩

theorem forward_of_carries {s : Stream} {st : StreamState} (hst : s.state = some st) {d : Nat}
    {xs : List Frame} (hc : st.Carries d xs) (ys : List Frame) :
    s.forward (Tensor.ofRows d ys) = s.encodeFrames st (Tensor.ofRows d (xs ++ ys)) := by
  simp [forward, current, hst, joinCarried_ofRows hc]

theorem forward_backend (s : Stream) (feats : Tensor) : (s.forward feats).next.backend = s.backend := by
  unfold forward encodeFrames
  dsimp only
  repeat' split
  all_goals rfl

theorem carries_after {m : Metadata} (hm : m.Chunked) {d : Nat} {xs : List Frame}
    (hw : ∀ x ∈ xs, x.size = d) (hctx : m.context ≤ xs.length) (st : StreamState) :
    ({ st with carried := carriedAfter m (Tensor.ofRows d xs) xs.length } : StreamState).Carries d
      (xs.drop (xs.length - m.overlap)) := by
  have hlt := Metadata.overlap_lt_context hm
  unfold StreamState.Carries carriedAfter
  by_cases hkeep : 1 + m.rightContext - m.subsamplingRate > 0
  · have hmin : min (1 + m.rightContext - m.subsamplingRate).toNat xs.length = m.overlap := by
      rw [show (1 + m.rightContext - m.subsamplingRate).toNat = m.overlap from rfl]
      omega
    simp only [hkeep, ↓reduceIte, hmin]
    rw [Tensor.lastRows, Tensor.sliceRows_ofRows hw, Tensor.numRows_ofRows,
      List.take_of_length_le (Nat.le_refl _)]
  · have hzero : m.overlap = 0 := by
      unfold Metadata.overlap
      omega
    simp only [if_neg hkeep, hzero, Nat.sub_zero, List.drop_length]

end Stream

private theorem drop_take_append_drop_take {α : Type} (l : List α) {b a e : Nat} (hba : b ≤ a)
    (hae : a ≤ e) : (l.take a).drop b ++ (l.take e).drop a = (l.take e).drop b := by
  have hsplit : l.take e = (l.take e).take a ++ (l.take e).drop a := (List.take_append_drop _ _).symm
  rw [List.take_take, Nat.min_eq_left hae] at hsplit
  conv => rhs; rw [hsplit]
  rw [List.drop_append]
  congr 1
  by_cases hb : b ≤ (l.take a).length
  · rw [Nat.sub_eq_zero_of_le hb, List.drop_zero]
  · have hnil : (l.take e).drop a = [] := List.drop_eq_nil_of_le (by simp at hb ⊢; omega)
    rw [hnil, List.drop_nil]

namespace Session

/-- A session `j` chunks into a finished utterance of frames `xs`, `d` features wide: the frames
behind the `j`-th read wait in the queue, and the frames the `j`-th window shares with the last
one are carried. -/
structure Windowed (s : Session) (m : Metadata) (d : Nat) (xs : List Frame) (j : Nat) : Prop where
  metadata : s.stream.metadata = m
  roles : Role.chunk ∈ s.stream.backend.roles
  pending : s.queue.pending = xs.drop (m.readEnd j)
  finished : s.queue.finished = true
  dim : s.queue.dim = some d
  started : s.started = decide (0 < j)
  carried : ∃ st, s.stream.state = some st ∧
    st.Carries d ((xs.take (m.readEnd j)).drop (j * m.stride))

section Windowed

variable {s : Session} {m : Metadata} {d : Nat} {xs : List Frame} {j : Nat}

theorem request_windowed (hm : m.Chunked) (hs : s.Windowed m d xs j) :
    s.request = (m.request j : Int) := by
  rw [request, Metadata.framesForChunk_eq hm s.stream hs.metadata, hs.started]
  by_cases hj : j = 0
  · simp [hj, Metadata.request]
  · simp [hj, Metadata.request, Nat.pos_of_ne_zero hj]

theorem filled_windowed (hm : m.Chunked) (hs : s.Windowed m d xs j) :
    s.queue.filled s.request = decide (j * m.stride + m.span ≤ xs.length) := by
  have hend := Metadata.readEnd_add_request m j
  have hpos : 0 < m.request j := Metadata.request_pos hm j
  have h := FrameQueue.filled_of_finished s.queue s.request hs.finished
  rw [request_windowed hm hs, s.queue.queued_eq, hs.pending, List.length_drop] at h
  rw [request_windowed hm hs, Bool.eq_iff_iff, h, decide_eq_true_iff]
  constructor
  · rintro ⟨-, hle⟩
    omega
  · intro hle
    exact ⟨by omega, by omega⟩

theorem read_windowed (hm : m.Chunked) (hs : s.Windowed m d xs j) :
    s.queue.read s.request = (Tensor.ofRows d ((xs.take (j * m.stride + m.span)).drop (m.readEnd j)),
      decide (j * m.stride + m.span ≤ xs.length), s.queue.dropFront (m.request j)) := by
  have hend := Metadata.readEnd_add_request m j
  have htakes : s.queue.takes s.request = min (m.request j) (xs.length - m.readEnd j) := by
    rw [FrameQueue.takes, request_windowed hm hs, s.queue.queued_eq, hs.pending, List.length_drop]
    simp only [Int.toNat_natCast, Int.natCast_nonneg, Int.not_lt.2, ↓reduceIte]
  have hpending : s.queue.pending.drop (min (m.request j) (xs.length - m.readEnd j)) =
      xs.drop (j * m.stride + m.span) := by
    rw [hs.pending, List.drop_drop, ← hend]
    by_cases hr : m.request j ≤ xs.length - m.readEnd j
    · rw [Nat.min_eq_left hr]
    · rw [List.drop_eq_nil_of_le (by omega), List.drop_eq_nil_of_le (by omega)]
  have htake : s.queue.pending.take (min (m.request j) (xs.length - m.readEnd j)) =
      (xs.take (j * m.stride + m.span)).drop (m.readEnd j) := by
    rw [hs.pending, List.drop_take, ← hend, Nat.add_sub_cancel_left]
    by_cases hr : m.request j ≤ xs.length - m.readEnd j
    · rw [Nat.min_eq_left hr]
    · rw [Nat.min_eq_right (by omega), List.take_of_length_le (by simp),
        List.take_of_length_le (by simp; omega)]
  have hwidth : s.queue.dim.getD 0 = d := by rw [hs.dim]; rfl
  have hdrop : s.queue.dropFront (min (m.request j) (xs.length - m.readEnd j)) =
      s.queue.dropFront (m.request j) := by
    refine FrameQueue.ext_parts rfl ?_ rfl rfl
    rw [FrameQueue.pending_dropFront, FrameQueue.pending_dropFront, hpending, hs.pending, List.drop_drop,
      ← hend]
  rw [FrameQueue.read_eq, htakes, htake, hdrop, filled_windowed hm hs, hwidth]

theorem readEnd_lt_context (hm : m.Chunked) (j : Nat) : m.readEnd j < j * m.stride + m.context := by
  have := Metadata.overlap_lt_context hm
  unfold Metadata.readEnd
  split <;> omega

theorem readEnd_lt (hm : m.Chunked) (j : Nat) : m.readEnd j < j * m.stride + m.span := by
  have := Metadata.request_pos hm j
  have := Metadata.readEnd_add_request m j
  omega

end Windowed

theorem searchChunk_of_ok {s : Session} {feats : Tensor} (h : 0 < feats.numRows)
    (hout : (s.searchChunk feats).out = .ok ()) :
    (∃ probs, (s.stream.forward feats).out = .ok probs) ∧ (s.searchChunk feats).next.started = true ∧
      (s.searchChunk feats).next.stream = (s.stream.forward feats).next := by
  rcases searchChunk_cases s feats with ⟨h0, -⟩ | ⟨-, f, -, hsc⟩ | ⟨-, probs, g, fault, hf, -, hsc⟩
  · omega
  · rw [hsc] at hout
    cases hout
  · rw [hsc]
    exact ⟨⟨probs, hf⟩, rfl, rfl⟩

section Windowed

variable {s : Session} {m : Metadata} {d : Nat} {xs : List Frame} {j : Nat}

theorem end_iff_windowed (hm : m.Chunked) (hs : s.Windowed m d xs j) {st : DecodeState}
    (hout : (s.decode false).out = .ok st) : st = .endFeats ↔ xs.length < j * m.stride + m.span := by
  have hwait : s.waits false = false := by simp [waits, hs.finished]
  have hlt := readEnd_lt hm j
  rw [(decode_ok hwait hout).2.2.2, filled_windowed hm hs, decide_eq_false_iff_not]
  omega

theorem decode_of_exhausted (hm : m.Chunked) (hs : s.Windowed m d xs j)
    (hlen : xs.length ≤ m.readEnd j) :
    (s.decode false).calls = [] ∧ (s.decode false).next.stream = s.stream := by
  have hwait : s.waits false = false := by simp [waits, hs.finished]
  have hR : (xs.take (j * m.stride + m.span)).drop (m.readEnd j) = [] :=
    List.drop_eq_nil_of_le (by simp; omega)
  have hread := read_windowed hm hs
  rw [hR] at hread
  obtain ⟨rs, hrs⟩ := decode_next_eq hwait
  refine ⟨?_, ?_⟩
  · rw [decode_calls_eq hwait, hread, searchChunk_of_empty _ _ rfl]
  · rw [hrs, hread, searchChunk_of_empty _ _ rfl]

theorem decode_of_window (hm : m.Chunked) (hs : s.Windowed m d xs j) {st₀ : StreamState}
    (hst : s.stream.state = some st₀) (hlen : m.readEnd j < xs.length) :
    (s.decode false).calls = (s.stream.encodeFrames st₀ (Tensor.ofRows d (m.windowFrames xs j))).calls ∧
    ∀ st, (s.decode false).out = .ok st →
      (∃ probs, (s.stream.encodeFrames st₀ (Tensor.ofRows d (m.windowFrames xs j))).out = .ok probs) ∧
      (s.decode false).next.stream = (s.stream.encodeFrames st₀ (Tensor.ofRows d (m.windowFrames xs j))).next ∧
      (s.decode false).next.started = true ∧
      (s.decode false).next.queue = s.queue.dropFront (m.request j) := by
  have hwait : s.waits false = false := by simp [waits, hs.finished]
  have hread := read_windowed hm hs
  have hlt := readEnd_lt hm j
  obtain ⟨st₁, hst₁, hcar⟩ := hs.carried
  obtain rfl : st₁ = st₀ := Option.some.inj (hst₁.symm.trans hst)
  have hJ : (xs.take (m.readEnd j)).drop (j * m.stride) ++
      (xs.take (j * m.stride + m.span)).drop (m.readEnd j) = m.windowFrames xs j :=
    drop_take_append_drop_take xs (Metadata.le_readEnd m j) (Nat.le_of_lt hlt)
  have hrows : 0 < (Tensor.ofRows d ((xs.take (j * m.stride + m.span)).drop (m.readEnd j))).numRows := by
    simp
    omega
  have hfwd : s.stream.forward (Tensor.ofRows d ((xs.take (j * m.stride + m.span)).drop (m.readEnd j))) =
      s.stream.encodeFrames st₁ (Tensor.ofRows d (m.windowFrames xs j)) := by
    rw [Stream.forward_of_carries hst₁ hcar, hJ]
  refine ⟨by rw [decode_calls_eq hwait, hread, (searchChunk_of_rows _ _ hrows).1, hfwd],
    fun st hout => ?_⟩
  obtain ⟨hchunk, -, -, -⟩ := decode_ok hwait hout
  rw [hread] at hchunk
  obtain ⟨hprobs, hstarted, hstream⟩ := searchChunk_of_ok hrows hchunk
  obtain ⟨rs, hrs⟩ := decode_next_eq hwait
  rw [hfwd] at hprobs hstream
  rw [hrs, hread]
  exact ⟨hprobs, hstream, hstarted, rfl⟩

theorem Windowed.succ (hs : s.Windowed m d xs j) (hfull : j * m.stride + m.span ≤ xs.length)
    {s' : Session} {v : Nat} {st : StreamState}
    (hstream : s'.stream = { s.stream with vocab := v, state := some st })
    (hqueue : s'.queue = s.queue.dropFront (m.request j))
    (hstarted : s'.started = true)
    (hcar : st.Carries d ((m.windowFrames xs j).drop ((m.windowFrames xs j).length - m.overlap))) :
    s'.Windowed m d xs (j + 1) where
  metadata := by rw [hstream]; exact hs.metadata
  roles := by rw [hstream]; exact hs.roles
  pending := by
    rw [hqueue, FrameQueue.pending_dropFront, hs.pending, List.drop_drop, Metadata.readEnd_add_request,
      Metadata.readEnd_succ]
  finished := by rw [hqueue]; exact hs.finished
  dim := by rw [hqueue]; exact hs.dim
  started := by rw [hstarted]; simp
  carried := ⟨st, by rw [hstream], by rwa [← Metadata.windowFrames_carried hfull]⟩

theorem decode_windowed (hm : m.Chunked) (hw : ∀ x ∈ xs, x.size = d) (hs : s.Windowed m d xs j) :
    chunksOf (s.decode false).calls <+:
        (if j * m.stride + m.context ≤ xs.length then [m.window (Tensor.ofRows d xs) j] else []) ∧
      ∀ st, (s.decode false).out = .ok st →
        chunksOf (s.decode false).calls =
            (if j * m.stride + m.context ≤ xs.length then [m.window (Tensor.ofRows d xs) j] else []) ∧
          (st = .endFeats ↔ xs.length < j * m.stride + m.span) ∧
          (st ≠ .endFeats → (s.decode false).next.Windowed m d xs (j + 1)) := by
  have hend : ∀ st, (s.decode false).out = .ok st →
      (st = .endFeats ↔ xs.length < j * m.stride + m.span) :=
    fun _ hout => end_iff_windowed hm hs hout
  have hnothing : (chunksOf (s.decode false).calls = []) → ¬ j * m.stride + m.context ≤ xs.length →
      chunksOf (s.decode false).calls <+: [] ∧ ∀ st, (s.decode false).out = .ok st →
        chunksOf (s.decode false).calls = [] ∧ (st = .endFeats ↔ xs.length < j * m.stride + m.span) ∧
        (st ≠ .endFeats → (s.decode false).next.Windowed m d xs (j + 1)) := by
    intro hnil hnone
    have hctx := Metadata.context_le_span hm
    rw [hnil]
    refine ⟨List.nil_prefix, fun st hout => ⟨rfl, hend st hout, fun hne => ?_⟩⟩
    exact absurd ((hend st hout).2 (by omega)) hne
  obtain ⟨st₀, hst, -⟩ := hs.carried
  by_cases hlen : m.readEnd j < xs.length
  · obtain ⟨hcalls, hok⟩ := decode_of_window hm hs hst hlen
    have hJrows := Tensor.rows?_ofRows d (m.windowFrames xs j)
    have hJpos := Metadata.length_windowFrames_pos hm hlen
    have hJctx : s.stream.metadata.rightContext + 1 ≤ ((m.windowFrames xs j).length : Int) ↔
        j * m.stride + m.context ≤ xs.length := by
      rw [hs.metadata]
      exact Metadata.context_le_windowFrames_iff hm j
    by_cases hsome : j * m.stride + m.context ≤ xs.length
    · have hctx := hJctx.2 hsome
      rw [if_pos hsome, Metadata.window_ofRows m hw]
      refine ⟨?_, fun st hout => ?_⟩
      · rcases Stream.encodeFrames_calls _ _ _ with h | ⟨inputs, rest, hfeed, hc, hrest⟩
        · rw [hcalls, h]
          exact List.nil_prefix
        · rw [hcalls, hc]
          simp [chunksOf, hrest, Call.feed?, Stream.feed_chunk hfeed hs.roles]
      · obtain ⟨⟨probs, hprobs⟩, hstream, hstarted, hqueue⟩ := hok st hout
        obtain ⟨inputs, enc, produced, v, hfeed, -, -, hc, hnext⟩ :=
          Stream.encodeFrames_of_ok hJrows hJpos hctx hprobs
        refine ⟨by rw [hcalls, hc]; simp [chunksOf, Call.feed?, Stream.feed_chunk hfeed hs.roles],
          hend st hout, fun hne => ?_⟩
        have hfull : j * m.stride + m.span ≤ xs.length :=
          Nat.le_of_not_lt fun hlt' => hne ((hend st hout).2 hlt')
        have hwhole : m.context ≤ (m.windowFrames xs j).length := by
          have := Metadata.context_le_span hm
          rw [Metadata.length_windowFrames]
          omega
        refine hs.succ hfull (hstream.trans hnext) hqueue hstarted ?_
        rw [hs.metadata]
        exact Stream.carries_after hm (m.size_of_mem_windowFrames hw j) hwhole st₀
    · have hshort : ((m.windowFrames xs j).length : Int) < s.stream.metadata.rightContext + 1 :=
        Int.lt_of_not_ge fun h => hsome (hJctx.1 h)
      rw [if_neg hsome]
      exact hnothing (by rw [hcalls, Stream.encodeFrames_of_short hJrows hJpos hshort]; rfl) hsome
  · have hnone : ¬ j * m.stride + m.context ≤ xs.length := by
      have := readEnd_lt_context hm j
      omega
    rw [if_neg hnone]
    exact hnothing (by rw [(decode_of_exhausted hm hs (by omega)).1]; rfl) hnone

end Windowed

end Session

theorem feedsOf_rescore (b : Backend) (sos eos : Int) (bidirectional : Bool)
    (hyps : List (List Int)) (outs : List Tensor) (w : Float) :
    feedsOf (rescore b sos eos bidirectional hyps outs w).1 = [] := by
  unfold rescore
  dsimp only
  repeat' split
  all_goals simp [Call.feed?]

theorem Stream.feedsOf_rescore (s : Stream) (hyps : List (List Int)) (w : Float) :
    feedsOf (s.rescore hyps w).calls = [] := by
  unfold Stream.rescore
  split
  · rfl
  · exact SpeechStream.feedsOf_rescore _ _ _ _ _ _ _

theorem Session.feedsOf_rescoring (s : Session) : feedsOf s.rescoring.calls = [] := by
  unfold rescoring
  split
  · rfl
  · split
    · rfl
    · dsimp only
      split <;> exact Stream.feedsOf_rescore _ _ _

theorem Stream.freshState_ok {m : Metadata} {st : StreamState} (h : Stream.freshState m = .ok st) :
    st.carried = none ∧ st.outputs = [] ∧
      st.offset = (if m.leftChunks > 0 then m.requiredCacheSize else 0) := by
  unfold Stream.freshState at h
  obtain ⟨att, -, h⟩ := Except.bind_eq_ok.1 h
  obtain ⟨cnn, -, h⟩ := Except.bind_eq_ok.1 h
  cases Except.pure_eq_ok.1 h
  exact ⟨rfl, rfl, rfl⟩

namespace Recognizer

theorem settle_of_end {r : Recognizer} {calls : List Call}
    (h : (r.session.decode false).out = .ok .endFeats) :
    (settle r calls).calls =
      calls ++ (r.session.decode false).calls ++ (r.session.decode false).next.rescoring.calls := by
  simp only [settle, drain, h]
  split <;> rfl

theorem reads_of_chunked {s : Stream} (hm : s.metadata.Chunked) : s.Reads := by
  intro started
  rw [Metadata.framesForChunk_eq hm s rfl started]
  have := Metadata.stride_pos hm
  unfold Metadata.span
  split <;> omega

theorem settle_stream_of_end {r : Recognizer} {calls : List Call}
    (h : (r.session.decode false).out = .ok .endFeats) :
    (settle r calls).next.session.stream = (r.session.decode false).next.stream := by
  obtain ⟨rs, hrs⟩ := Session.rescoring_next (r.session.decode false).next
  simp only [settle, drain, h]
  split
  · rename_i f hf
    show (r.session.decode false).next.rescoring.next.stream = _
    rw [hrs]
  · show (r.session.decode false).next.rescoring.next.stream = _
    rw [hrs]

theorem settle_run {m : Metadata} (hm : m.Chunked) {d : Nat} {xs : List Frame}
    (I : Nat → List Call → Session → Prop) (hwin : ∀ j calls s, I j calls s → s.Windowed m d xs j)
    (hstep : ∀ j calls s st, I j calls s → j * m.stride + m.span ≤ xs.length →
      (s.decode false).out = .ok st → st ≠ .endFeats →
      I (j + 1) (calls ++ (s.decode false).calls) (s.decode false).next)
    (j : Nat) (calls : List Call) (r : Recognizer) (hj : j ≤ xs.length) (hI : I j calls r.session) :
    ∃ k calls' s, I k calls' s ∧ k ≤ xs.length ∧
      ((∃ f, (s.decode false).out = .error f ∧
          (settle r calls).calls = calls' ++ (s.decode false).calls ∧ (settle r calls).out = .error f) ∨
        ((s.decode false).out = .ok .endFeats ∧
          (settle r calls).calls = calls' ++ (s.decode false).calls ++ (s.decode false).next.rescoring.calls ∧
          (settle r calls).next.session.stream = (s.decode false).next.stream)) := by
  have hs := hwin j calls r.session hI
  have hwait : r.session.waits false = false := by simp [Session.waits, hs.finished]
  cases hout : (r.session.decode false).out with
  | error f =>
    refine ⟨j, calls, r.session, hI, hj, .inl ⟨f, hout, ?_, ?_⟩⟩ <;> rw [settle_of_error hout]
  | ok st =>
    by_cases hst : st = .endFeats
    · subst hst
      exact ⟨j, calls, r.session, hI, hj, .inr ⟨hout, settle_of_end hout, settle_stream_of_end hout⟩⟩
    · have hfull : j * m.stride + m.span ≤ xs.length :=
        Nat.le_of_not_lt fun h => hst ((Session.end_iff_windowed hm hs hout).2 h)
      have hj' : j + 1 ≤ xs.length := Nat.le_trans (Metadata.succ_le_of_whole hm j) hfull
      have hnotwait := (Session.decode_ok hwait hout).2.2.1
      have hreads : r.session.stream.Reads := reads_of_chunked (hs.metadata ▸ hm)
      rw [settle_of_chunk hreads hout hst hnotwait]
      exact settle_run hm I hwin hstep (j + 1) _ _ hj' (hstep j calls r.session st hI hfull hout hst)
termination_by xs.length - j

theorem settle_windowed {m : Metadata} (hm : m.Chunked) {d : Nat} {xs : List Frame}
    (hw : ∀ x ∈ xs, x.size = d) (j : Nat) (r : Recognizer) (hj : j ≤ xs.length)
    (hr : r.session.Windowed m d xs j) :
    chunksOf (settle r []).calls <+: m.windowsFrom (Tensor.ofRows d xs) j ∧
      ((settle r []).out.isOk → chunksOf (settle r []).calls = m.windowsFrom (Tensor.ofRows d xs) j) := by
  -- the invariant: the chunks encoded so far and the windows still to come make up all of them
  obtain ⟨k, calls, s, ⟨hs, hchunks⟩, hk, hfinal⟩ := settle_run hm
    (fun k calls s => s.Windowed m d xs k ∧
      chunksOf calls ++ m.windowsFrom (Tensor.ofRows d xs) k = m.windowsFrom (Tensor.ofRows d xs) j)
    (fun _ _ _ h => h.1)
    (fun k calls s st ⟨hs, hchunks⟩ hfull hout hne => by
      obtain ⟨hW, -, hnext⟩ := (Session.decode_windowed hm hw hs).2 st hout
      refine ⟨hnext hne, ?_⟩
      have hk : k ≤ (Tensor.ofRows d xs).numRows := by
        simpa using Nat.le_of_succ_le (Nat.le_trans (Metadata.succ_le_of_whole hm k) hfull)
      rw [chunksOf_append, hW, List.append_assoc, ← Tensor.numRows_ofRows d xs,
        ← Metadata.windowsFrom_succ m _ hk, hchunks])
    j [] r hj ⟨hr, by simp⟩
  have hsplit := Metadata.windowsFrom_succ m (Tensor.ofRows d xs)
    (show k ≤ (Tensor.ofRows d xs).numRows by simpa using hk)
  simp only [Tensor.numRows_ofRows] at hsplit
  obtain ⟨hpre, hok⟩ := Session.decode_windowed hm hw hs
  rcases hfinal with ⟨f, -, hcalls, hout⟩ | ⟨hout, hcalls, -⟩
  · rw [hcalls, chunksOf_append, ← hchunks, hsplit]
    refine ⟨List.prefix_append_right_inj _ |>.2 (hpre.trans (List.prefix_append _ _)), fun h => ?_⟩
    simp [hout, Except.isOk, Except.toBool] at h
  · obtain ⟨hW, hend, -⟩ := hok _ hout
    have hlast : m.windowsFrom (Tensor.ofRows d xs) (k + 1) = [] :=
      Metadata.windowsFrom_of_short hm _ (by simpa using hend.1 rfl)
    rw [hcalls, chunksOf_append, chunksOf_append, chunksOf_of_feedsOf (Session.feedsOf_rescoring _),
      hW, ← hchunks, hsplit, hlast]
    simp only [List.append_nil]
    exact ⟨List.prefix_refl _, fun _ => rfl⟩

theorem reset_fresh {r₀ r : Recognizer} (h : r₀.reset = .ok r) :
    r.finished = false ∧ r.session.queue.pending = [] ∧ r.session.queue.finished = false ∧
      r.session.started = false ∧ r.session.stream.metadata = r₀.session.stream.metadata ∧
      r.session.stream.backend = r₀.session.stream.backend ∧
      ∃ st, r.session.stream.state = some st ∧ Stream.freshState r₀.session.stream.metadata = .ok st ∧
        st.carried = none := by
  obtain ⟨t, ht, rfl⟩ := reset_eq_ok h
  obtain ⟨st, hst, rfl⟩ := Session.reset_eq_ok ht
  exact ⟨rfl, rfl, rfl, rfl, rfl, rfl, st, rfl, hst, (Stream.freshState_ok hst).1⟩

theorem decodeBlocks_settle {r₀ r : Recognizer} (hreset : r₀.reset = .ok r)
    (hm : r.session.stream.metadata.Chunked) (hrole : Role.chunk ∈ r.session.stream.backend.roles)
    {d : Nat} (blocks : List Tensor) {x : Tensor} (hne : blocks ≠ [])
    (hblocks : ∀ t ∈ blocks, t.IsMatrix d) (hx : x.WellFormed d)
    (hframes : x.frames = (blocks.map Tensor.frames).flatten) :
    ((r.decodeBlocks blocks).calls = [] ∧ (r.decodeBlocks blocks).out.isOk = false) ∨
      ∃ r', r'.session.Windowed r.session.stream.metadata d x.frames 0 ∧
        r'.session.stream = r.session.stream ∧
        (r.decodeBlocks blocks).calls = (settle r' []).calls ∧
        (r.decodeBlocks blocks).out.isOk = (settle r' []).out.isOk ∧
        ((settle r' []).out.isOk → (r.decodeBlocks blocks).next = (settle r' []).next) := by
  obtain ⟨hfin, hpend, -, hstarted, -, -, st, hst, -, hcar⟩ := reset_fresh hreset
  have hr := reads_of_chunked hm
  obtain ⟨hc, ho, hn⟩ := decodeBlocks_agrees r blocks hne hblocks hx.1 hframes hr
  rw [hc, ho]
  cases hadm : r.session.queue.admits d with
  | error f =>
    left
    simp [decode, hfin, FrameQueue.accept_of_admits_error hx.1 hadm, Except.isOk, Except.toBool]
  | ok q₀ =>
    obtain ⟨hq₀, -⟩ := FrameQueue.admits_ok hadm
    have hdecode := decode_of_admits true hr hfin hx.1 hadm
    right
    refine ⟨{ r with session := { r.session with queue := q₀ } }.extend x.frames true,
      ⟨rfl, hrole, ?_, rfl, ?_, ?_, ⟨st, hst, ?_⟩⟩, rfl, by rw [hdecode]; rfl,
      by rw [hdecode, Step.isOk_reported], fun h => ?_⟩
    · show q₀.pending ++ x.frames = x.frames.drop 0
      rw [hq₀]
      simp [hpend]
    · show q₀.dim = some d
      rw [hq₀]
    · simp [extend, hstarted]
    · simp [StreamState.Carries, hcar, Metadata.readEnd]
    · have hok : (r.decode x true).out.isOk := by rwa [hdecode, Step.isOk_reported]
      rw [hn hok, hdecode]
      rfl

theorem decodeBlocks_windows {r₀ r : Recognizer} (hreset : r₀.reset = .ok r)
    (hm : r.session.stream.metadata.Chunked) (hrole : Role.chunk ∈ r.session.stream.backend.roles)
    {d : Nat} (blocks : List Tensor) {x : Tensor} (hne : blocks ≠ [])
    (hblocks : ∀ t ∈ blocks, t.IsMatrix d) (hx : x.WellFormed d)
    (hframes : x.frames = (blocks.map Tensor.frames).flatten) :
    chunksOf (r.decodeBlocks blocks).calls <+: r.session.stream.metadata.windows x ∧
      ((r.decodeBlocks blocks).out.isOk →
        chunksOf (r.decodeBlocks blocks).calls = r.session.stream.metadata.windows x) := by
  rcases decodeBlocks_settle hreset hm hrole blocks hne hblocks hx hframes with
    ⟨hcalls, hout⟩ | ⟨r', hwin, -, hcalls, hout, -⟩
  · rw [hcalls, hout]
    exact ⟨List.nil_prefix, fun h => absurd h (by decide)⟩
  · obtain ⟨hpre, hok⟩ := settle_windowed hm (Tensor.frames_size hx) 0 r' (Nat.zero_le _) hwin
    rw [← Tensor.eq_ofRows_frames hx, ← Metadata.windows_eq] at hpre hok
    rw [hcalls, hout]
    exact ⟨hpre, hok⟩

end Recognizer

end SpeechStream
