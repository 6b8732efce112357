import SpeechStream.Proofs.PaddingMask
/-!
Stream arithmetic: which metadata a stream can reset and mask with.

Reading metadata checks only that there are heads and that the block count is not negative.
Resetting a stream turns the other fields into cache dimensions (the attention window
`chunkSize · leftChunks` when left chunks are kept, twice the head width, the output width and
`kernelSize - 1`), and allocates the caches as an allocation checks sizes: each must fit in 64
bits, then none may be negative, then the bytes must be countable. So a reset fails exactly when a
dimension is negative or the caches are too large (`Stream.freshState_ok_iff`), by a negative size
or an overflow. The attention mask of a chunk divides its offset by the chunk size and spans the
window and a chunk: with left chunks it needs a positive chunk size and a span below `2^63`
(`Stream.mask_eq_error`). Metadata with left chunks and a chunk size of zero, which a stream
otherwise treats as decoding the whole utterance at once, reads and resets but faults on its first
encoded chunk, and metadata rechunked to a window of `2^64` frames reads but does not reset.
-/

set_option autoImplicit false

namespace SpeechStream

theorem Metadata.ofDocument_geometry {doc : Value} {m : Metadata} (h : Metadata.ofDocument doc = .ok m) :
    0 < m.heads ∧ 0 ≤ m.numBlocks := by
  unfold Metadata.ofDocument at h
  obtain ⟨present, -, h⟩ := Except.bind_eq_ok.1 h
  obtain ⟨-, h⟩ := Except.ite_throw_eq_ok h
  obtain ⟨vs, -, h⟩ := Except.bind_eq_ok.1 h
  obtain ⟨hgeom, h⟩ := Except.ite_throw_eq_ok h
  rw [Except.pure_eq_ok] at h
  subst h
  simp only [Bool.or_eq_true, decide_eq_true_eq, not_or, not_le, not_lt] at hgeom
  exact hgeom

theorem Except.bind_ok_iff {ε α β : Type} {x : Except ε α} {f : α → Except ε β} :
    (∃ b, x >>= f = .ok b) ↔ ∃ a, x = .ok a ∧ ∃ b, f a = .ok b := by
  constructor
  · rintro ⟨b, h⟩
    obtain ⟨a, ha, hb⟩ := Except.bind_eq_ok.1 h
    exact ⟨a, ha, b, hb⟩
  · rintro ⟨a, ha, b, hb⟩
    exact ⟨b, Except.bind_eq_ok.2 ⟨a, ha, hb⟩⟩

namespace Tensor

/-- Sizes below `2^63` whose elements' bytes, `itemBytes` each, can be counted. -/
def Fits (dims : List Int) (itemBytes : Nat) : Prop :=
  (∀ d ∈ dims, d < 2 ^ 63) ∧ storageFits (dims.map Int.toNat) itemBytes = true

instance (dims : List Int) (itemBytes : Nat) : Decidable (Fits dims itemBytes) :=
  inferInstanceAs (Decidable (_ ∧ _))

theorem allocShape_ok_iff {dims : List Int} {b : Nat} :
    (∃ ns, allocShape dims b = .ok ns) ↔ (∀ d ∈ dims, 0 ≤ d) ∧ Fits dims b := by
  unfold allocShape Fits
  split
  · rename_i hfit
    obtain ⟨d, hd, hbad⟩ := List.any_eq_true.1 hfit
    have hout : ¬ (-2 ^ 63 ≤ d ∧ d < 2 ^ 63) := by
      rw [← fitsInt64_iff]
      simpa using hbad
    simp only [reduceCtorEq, exists_false, false_iff]
    rintro ⟨hnonneg, hsmall, -⟩
    exact hout ⟨by have := hnonneg d hd; omega, hsmall d hd⟩
  · rename_i hfit
    split
    · rename_i hneg
      obtain ⟨d, hd, hlt⟩ := List.any_eq_true.1 hneg
      simp only [reduceCtorEq, exists_false, false_iff]
      rintro ⟨hnonneg, -⟩
      have := hnonneg d hd
      simp at hlt
      omega
    · rename_i hneg
      have hfits : ∀ d ∈ dims, fitsInt64 d = true := by simpa using hfit
      have hnonneg : ∀ d ∈ dims, 0 ≤ d := by simpa using hneg
      have hsmall : ∀ d ∈ dims, d < 2 ^ 63 := fun d hd => ((fitsInt64_iff d).1 (hfits d hd)).2
      split
      · rename_i hstore
        simp only [reduceCtorEq, exists_false, false_iff]
        simp at hstore
        rintro ⟨-, -, hstore'⟩
        simp [hstore] at hstore'
      · rename_i hstore
        simp at hstore
        exact ⟨fun _ => ⟨hnonneg, hsmall, hstore⟩, fun _ => ⟨_, rfl⟩⟩

theorem allocShape_error {dims : List Int} {b : Nat} {f : Fault} (h : allocShape dims b = .error f) :
    f = .overflow ∨ f = .negativeSize := by
  unfold allocShape at h
  split at h
  · cases h
    exact .inl rfl
  split at h
  · cases h
    exact .inr rfl
  split at h
  · cases h
    exact .inl rfl
  · cases h

theorem allocShape_row_eq (n : Int) :
    allocShape [1, 1, n] 1 =
      if ¬ (-2 ^ 63 ≤ n ∧ n < 2 ^ 63) then .error .overflow
      else if n < 0 then .error .negativeSize
      else .ok [1, 1, n.toNat] := by
  by_cases hfit : -2 ^ 63 ≤ n ∧ n < 2 ^ 63
  · by_cases hneg : n < 0
    · have h1 : fitsInt64 n = true := (fitsInt64_iff n).2 hfit
      simp [allocShape, h1, hneg, (fitsInt64_iff 1).2 ⟨by decide, by decide⟩]
      omega
    · rw [if_neg (not_not.2 hfit), if_neg hneg]
      exact allocShape_row (by omega) hfit.2
  · have h1 : fitsInt64 n = false := by
      rw [← Bool.not_eq_true, fitsInt64_iff]
      exact hfit
    simp only [allocShape, if_pos (show [1, 1, n].any (fun d => !fitsInt64 d) = true by simp [h1]), hfit,
      not_false_eq_true, if_true]

theorem zerosOf_ok_iff {dims : List Int} : (∃ t, zerosOf dims = .ok t) ↔
    (∀ d ∈ dims, 0 ≤ d) ∧ Fits dims 4 := by
  rw [← allocShape_ok_iff]
  unfold zerosOf
  cases allocShape dims 4 <;> simp [Except.map]

theorem zerosOf_error {dims : List Int} {f : Fault} (h : zerosOf dims = .error f) :
    f = .overflow ∨ f = .negativeSize := by
  unfold zerosOf at h
  cases ha : allocShape dims 4 with
  | error g =>
    rw [ha] at h
    cases h
    exact allocShape_error ha
  | ok ns =>
    rw [ha] at h
    cases h

end Tensor

/-- The caches of a fresh stream state fit: the attention cache `[blocks, heads, window,
2 · head width]`, the window kept only with left chunks, and the convolution cache
`[blocks, 1, output width, kernel - 1]`. -/
def Metadata.CachesFit (m : Metadata) : Prop :=
  Tensor.Fits [m.numBlocks, m.heads, if m.leftChunks > 0 then m.requiredCacheSize else 0, m.headDim * 2] 4 ∧
    Tensor.Fits [m.numBlocks, 1, m.outputSize, m.kernelSize - 1] 4

instance (m : Metadata) : Decidable m.CachesFit := inferInstanceAs (Decidable (_ ∧ _))

namespace Stream

theorem freshState_ok_iff_caches (m : Metadata) :
    (∃ st, freshState m = .ok st) ↔
      (∃ att, Tensor.zerosOf [m.numBlocks, m.heads, if m.leftChunks > 0 then m.requiredCacheSize else 0,
        m.headDim * 2] = .ok att) ∧
      ∃ cnn, Tensor.zerosOf [m.numBlocks, 1, m.outputSize, m.kernelSize - 1] = .ok cnn := by
  unfold freshState
  constructor
  · rintro ⟨st, h⟩
    obtain ⟨att, hatt, h⟩ := Except.bind_eq_ok.1 h
    obtain ⟨cnn, hcnn, -⟩ := Except.bind_eq_ok.1 h
    exact ⟨⟨att, hatt⟩, ⟨cnn, hcnn⟩⟩
  · rintro ⟨⟨att, hatt⟩, ⟨cnn, hcnn⟩⟩
    refine ⟨⟨if m.leftChunks > 0 then m.requiredCacheSize else 0, att, cnn, [], none⟩, ?_⟩
    simp [hatt, hcnn, bind, Except.bind, pure, Except.pure]

theorem freshState_ok_iff (m : Metadata) :
    (∃ st, freshState m = .ok st) ↔
      (0 ≤ m.numBlocks ∧ 0 ≤ m.heads ∧ (0 < m.leftChunks → 0 ≤ m.requiredCacheSize) ∧
        0 ≤ m.headDim ∧ 0 ≤ m.outputSize ∧ 1 ≤ m.kernelSize) ∧ m.CachesFit := by
  have hwindow : (0 ≤ if m.leftChunks > 0 then m.requiredCacheSize else 0) ↔
      (0 < m.leftChunks → 0 ≤ m.requiredCacheSize) := by
    split <;> simp_all
  have hnonneg : ((∀ d ∈ [m.numBlocks, m.heads, if m.leftChunks > 0 then m.requiredCacheSize else 0,
        m.headDim * 2], 0 ≤ d) ∧ ∀ d ∈ [m.numBlocks, 1, m.outputSize, m.kernelSize - 1], 0 ≤ d) ↔
      0 ≤ m.numBlocks ∧ 0 ≤ m.heads ∧ (0 < m.leftChunks → 0 ≤ m.requiredCacheSize) ∧
        0 ≤ m.headDim ∧ 0 ≤ m.outputSize ∧ 1 ≤ m.kernelSize := by
    simp only [List.mem_cons, List.not_mem_nil, or_false, forall_eq_or_imp, forall_eq, hwindow]
    omega
  rw [freshState_ok_iff_caches, Tensor.zerosOf_ok_iff, Tensor.zerosOf_ok_iff, ← hnonneg]
  constructor
  · rintro ⟨⟨ha, hfa⟩, ⟨hc, hfc⟩⟩
    exact ⟨⟨ha, hc⟩, hfa, hfc⟩
  · rintro ⟨⟨ha, hc⟩, hfa, hfc⟩
    exact ⟨⟨ha, hfa⟩, ⟨hc, hfc⟩⟩

theorem freshState_error {m : Metadata} {f : Fault} (h : freshState m = .error f) :
    f = .overflow ∨ f = .negativeSize := by
  unfold freshState at h
  simp only [bind, Except.bind] at h
  split at h
  · rename_i hatt
    cases h
    exact Tensor.zerosOf_error hatt
  · split at h
    · rename_i hcnn
      cases h
      exact Tensor.zerosOf_error hcnn
    · cases h

theorem reset_ok_iff (s : Stream) : (∃ s', s.reset = .ok s') ↔ ∃ st, freshState s.metadata = .ok st := by
  unfold reset
  rw [Except.bind_ok_iff]
  simp [pure, Except.pure]

theorem reset_error {s : Stream} {f : Fault} (h : s.reset = .error f) : f = .overflow ∨ f = .negativeSize := by
  unfold reset at h
  cases hfresh : freshState s.metadata with
  | error f' =>
    rw [hfresh] at h
    cases h
    exact freshState_error hfresh
  | ok st =>
    rw [hfresh] at h
    cases h

theorem maskLength_neg_iff (m : Metadata) (hl : 0 < m.leftChunks) :
    m.requiredCacheSize + m.chunkSize < 0 ↔ m.chunkSize < 0 := by
  unfold Metadata.requiredCacheSize
  constructor
  · intro h
    by_contra hc
    have := Int.mul_nonneg (Int.not_lt.1 hc) (Int.le_of_lt hl)
    omega
  · intro h
    have := Int.mul_neg_of_neg_of_pos h hl
    omega

theorem mask_eq_error (s : Stream) (offset : Int) {f : Fault} :
    s.mask offset = .error f ↔ 0 < s.metadata.leftChunks ∧
      (s.metadata.chunkSize = 0 ∧ f = .divisionByZero ∨
        s.metadata.chunkSize ≠ 0 ∧ ¬ (-2 ^ 63 ≤ s.metadata.requiredCacheSize + s.metadata.chunkSize ∧
          s.metadata.requiredCacheSize + s.metadata.chunkSize < 2 ^ 63) ∧ f = .overflow ∨
        s.metadata.chunkSize < 0 ∧ -2 ^ 63 ≤ s.metadata.requiredCacheSize + s.metadata.chunkSize ∧
          f = .negativeSize) := by
  unfold mask
  by_cases hl : s.metadata.leftChunks ≤ 0
  · simp [hl, pure, Except.pure]
  have hlen := maskLength_neg_iff s.metadata (by omega)
  by_cases hz : s.metadata.chunkSize = 0
  · simp [hl, hz, throw, throwThe, MonadExceptOf.throw, Except.bind, bind, eq_comm]
    exact fun _ => by omega
  have hcs0 : (s.metadata.chunkSize == 0) = false := by simpa using hz
  simp only [if_neg hl, hcs0, Bool.false_eq_true, if_false]
  by_cases hfit : -2 ^ 63 ≤ s.metadata.requiredCacheSize + s.metadata.chunkSize ∧
      s.metadata.requiredCacheSize + s.metadata.chunkSize < 2 ^ 63
  · by_cases hneg : s.metadata.requiredCacheSize + s.metadata.chunkSize < 0
    · rw [Tensor.allocShape_row_eq, if_neg (not_not.2 hfit), if_pos hneg]
      simp only [bind, Except.bind]
      constructor
      · intro h
        cases h
        exact ⟨by omega, .inr (.inr ⟨hlen.1 hneg, hfit.1, rfl⟩)⟩
      · rintro ⟨-, ⟨hz', -⟩ | ⟨-, hfit', -⟩ | ⟨-, -, rfl⟩⟩
        · exact absurd hz' hz
        · exact absurd hfit hfit'
        · rfl
    · rw [Tensor.allocShape_row_eq, if_neg (not_not.2 hfit), if_neg hneg]
      simp only [bind, Except.bind, pure, Except.pure]
      constructor
      · intro h
        cases h
      · rintro ⟨-, ⟨hz', -⟩ | ⟨-, hfit', -⟩ | ⟨hneg', -, -⟩⟩
        · exact absurd hz' hz
        · exact absurd hfit hfit'
        · exact absurd (hlen.2 hneg') hneg
  · rw [Tensor.allocShape_row_eq, if_pos hfit]
    simp only [bind, Except.bind]
    constructor
    · intro h
      cases h
      exact ⟨by omega, .inr (.inl ⟨hz, hfit, rfl⟩)⟩
    · rintro ⟨-, ⟨hz', -⟩ | ⟨-, -, rfl⟩ | ⟨hneg, hlo, -⟩⟩
      · exact absurd hz' hz
      · rfl
      · exact absurd ⟨hlo, by have := hlen.2 hneg; omega⟩ hfit

theorem mask_ok_iff (s : Stream) (offset : Int) :
    (∃ r, s.mask offset = .ok r) ↔ s.metadata.leftChunks ≤ 0 ∨
      0 < s.metadata.chunkSize ∧ s.metadata.requiredCacheSize + s.metadata.chunkSize < 2 ^ 63 := by
  cases hmask : s.mask offset with
  | ok r =>
    simp only [Except.ok.injEq, exists_eq', true_iff]
    by_contra h
    rw [not_or, not_le, not_and_or, not_lt, not_lt] at h
    have hlen := maskLength_neg_iff s.metadata h.1
    obtain ⟨f, hf⟩ : ∃ f, s.mask offset = .error f := by
      by_cases hz : s.metadata.chunkSize = 0
      · exact ⟨_, (mask_eq_error s offset).2 ⟨h.1, .inl ⟨hz, rfl⟩⟩⟩
      by_cases hfit : -2 ^ 63 ≤ s.metadata.requiredCacheSize + s.metadata.chunkSize ∧
          s.metadata.requiredCacheSize + s.metadata.chunkSize < 2 ^ 63
      · exact ⟨_, (mask_eq_error s offset).2 ⟨h.1, .inr (.inr ⟨by omega, hfit.1, rfl⟩)⟩⟩
      · exact ⟨_, (mask_eq_error s offset).2 ⟨h.1, .inr (.inl ⟨hz, hfit, rfl⟩)⟩⟩
    rw [hmask] at hf
    cases hf
  | error f =>
    obtain ⟨hl, hcs⟩ := (mask_eq_error s offset).1 hmask
    have hlen := maskLength_neg_iff s.metadata hl
    simp only [reduceCtorEq, exists_false, false_iff, not_or, not_le, not_and, not_lt]
    exact ⟨hl, fun hpos => by omega⟩

theorem feed_eq_error (s : Stream) (st : StreamState) (feats : Tensor) {f : Fault} :
    s.feed st feats = .error f ↔ s.mask st.offset = .error f := by
  unfold feed
  cases s.mask st.offset <;> simp [bind, Except.bind, pure, Except.pure]

theorem feed_ok_iff (s : Stream) (st : StreamState) (feats : Tensor) :
    (∃ inputs, s.feed st feats = .ok inputs) ↔ ∃ r, s.mask st.offset = .ok r := by
  unfold feed
  cases s.mask st.offset <;> simp [bind, Except.bind, pure, Except.pure]

theorem encodeFrames_of_mask_error {s : Stream} {st : StreamState} {feats : Tensor} {n : Nat}
    (hrows : feats.rows? = .ok n) (hpos : 0 < n) (hctx : s.metadata.rightContext + 1 ≤ n) {f : Fault}
    (hmask : s.mask st.offset = .error f) : s.encodeFrames st feats = ⟨s, [], .error f⟩ := by
  have hfeed : s.feed st feats = .error f := (feed_eq_error s st feats).2 hmask
  have hn : (n == 0) = false := by simp; omega
  have hlong : ¬ (n : Int) < s.metadata.rightContext + 1 := by omega
  simp [encodeFrames, hrows, hn, hlong, hfeed]

theorem forward_of_mask_error {s : Stream} {st : StreamState} (hst : s.state = some st)
    {features feats : Tensor} (hjoin : joinCarried st features = .ok feats) {n : Nat}
    (hrows : feats.rows? = .ok n) (hpos : 0 < n) (hctx : s.metadata.rightContext + 1 ≤ n) {f : Fault}
    (hmask : s.mask st.offset = .error f) : s.forward features = ⟨s, [], .error f⟩ := by
  simp [forward, current, hst, hjoin, encodeFrames_of_mask_error hrows hpos hctx hmask]

end Stream

end SpeechStream
