import Mathlib.Tactic.Ring
import SpeechStream.Proofs.AttentionCache
import SpeechStream.Proofs.ChunkFaults
import SpeechStream.Proofs.ReferenceChunks
import SpeechStream.Proofs.SessionRuns
/-!
Padding in the attention cache, and the mask that hides it.

With left chunks a stream starts one cache window ahead: its offset is the window `R` and its
attention cache holds the window's zeros. A chunk of `p` encoder frames shifts the cache by `p`
and moves the offset on by `p`, so the first `2R - offset` frames of the cache are still zeros
(`StreamState.Padded`) and the frames after them hold keys and values that the blocks' attention
gave chunk frames (`StreamState.Keyed`). The mask of an offset hides a prefix of the window that
covers these zeros and no more than the window, exactly the zeros at an offset of whole chunks
(`Stream.mask_window`). A fresh state is all padding (`Stream.freshState_window`), and a step of
new frames keeps a state a window state whatever its outcome (`Stream.forward_window`).
-/

set_option autoImplicit false

namespace SpeechStream

/-- The mask over `n` keys that hides the first `m`. -/
def prefixMask (n m : Nat) : Mask := ⟨[1, 1, n], (Array.range n).map (fun i => decide (i ≥ m))⟩

theorem maskVisibility_prefixMask {n hidden queries keys : Nat} (hn : 0 < n) (hkeys : keys ≤ n) :
    ∃ vis, Network.maskVisibility (some (prefixMask n hidden)) queries keys = .ok (some vis) ∧
      ∀ i j, j < keys → (vis i j = true ↔ hidden ≤ j) := by
  have hlast : n ≠ 0 := Nat.pos_iff_ne_zero.1 hn
  simp only [Network.maskVisibility, prefixMask]
  simp [hlast, hkeys]
  intro j hj
  by_cases h1 : n = 1
  · subst h1
    obtain rfl : j = 0 := by omega
    simp
  · simp [h1, show j < n by omega]

theorem fitsInt64_iff (n : Int) : fitsInt64 n = true ↔ -2 ^ 63 ≤ n ∧ n < 2 ^ 63 := by
  simp only [fitsInt64, Bool.and_eq_true, decide_eq_true_eq]
  rfl

namespace Tensor

/-- An attention cache `[B, H, T, W]` whose first `z` frames are zeros in every block and head. -/
structure Padded (t : Tensor) (B H T W z : Nat) : Prop where
  shape : t.shape = [B, H, T, W]
  size : t.data.size = B * H * T * W
  zeros : ∀ b h i c, b < B → h < H → i < z → c < W → t.data.getD (entryPos H T W b h i c) 0 = 0

theorem get?_entry {t : Tensor} {B H T W b h i c : Nat} (hs : t.shape = [B, H, T, W])
    (hb : b < B) (hh : h < H) (hi : i < T) (hc : c < W) :
    t.get? [b, h, i, c] = t.data[entryPos H T W b h i c]? := by
  simp [get?, offsetOf, hs, hb, hh, hi, hc, entryPos]

theorem Padded.get? {t : Tensor} {B H T W z : Nat} (ht : t.Padded B H T W z) (hz : z ≤ T)
    {b h i c : Nat} (hb : b < B) (hh : h < H) (hi : i < z) (hc : c < W) :
    t.get? [b, h, i, c] = some 0 := by
  have hlt : entryPos H T W b h i c < t.data.size := by
    rw [ht.size]
    exact entryPos_lt hb hh (by omega) hc
  rw [get?_entry ht.shape hb hh (by omega) hc, Array.getElem?_eq_getElem hlt, ← ht.zeros b h i c hb hh hi hc]
  simp [Array.getD_eq_getD_getElem?, hlt]

theorem padded_zeros (B H T W : Nat) : (zeros [B, H, T, W]).Padded B H T W T := by
  refine ⟨rfl, by simp [zeros, count, Nat.mul_assoc], fun b h i c _ _ _ _ => ?_⟩
  simp only [zeros, Array.getD_eq_getD_getElem?, Array.getElem?_replicate]
  split <;> rfl

theorem Padded.shift {t u : Tensor} {B B' H T W z p : Nat} (ht : t.Padded B H T W z) (hz : z ≤ T)
    (hB : B' ≤ B) (hshape : u.shape = [B', H, T, W]) (hsize : u.data.size = B' * H * T * W)
    (hkeep : ∀ b h i c, b < B' → h < H → c < W → p + i < T →
      u.data.getD (entryPos H T W b h i c) 0 = t.data.getD (entryPos H T W b h (p + i) c) 0) :
    u.Padded B' H T W (z - p) := by
  refine ⟨hshape, hsize, fun b h i c hb hh hi hc => ?_⟩
  rw [hkeep b h i c hb hh hc (by omega)]
  exact ht.zeros b h (p + i) c (by omega) hh (by omega) hc

theorem allocShape_ok {dims : List Int} {b : Nat} {ns : List Nat} (h : allocShape dims b = .ok ns) :
    ns = dims.map Int.toNat := by
  unfold allocShape at h
  split at h
  · cases h
  split at h
  · cases h
  split at h
  · cases h
  cases h
  rfl

theorem allocShape_row {n : Int} (h0 : 0 ≤ n) (h1 : n < 2 ^ 63) :
    allocShape [1, 1, n] 1 = .ok [1, 1, n.toNat] := by
  have hfit : fitsInt64 n = true := (fitsInt64_iff n).2 ⟨by omega, h1⟩
  have hstore : storageFits [1, 1, n.toNat] 1 = true := by
    have hn : n.toNat < 2 ^ 63 := by omega
    have hp64 : Nat.pow 2 64 = 2 ^ 64 := rfl
    have hp63 : Nat.pow 2 63 = 2 ^ 63 := rfl
    simp only [storageFits, List.foldlM_cons, List.foldlM_nil, hp64, hp63]
    simp
    rw [if_pos (by omega)]
    simpa using hn
  have hneg : ¬ n < 0 := by omega
  simp [allocShape, hfit, hstore, hneg, (fitsInt64_iff 1).2 ⟨by decide, by decide⟩]

theorem zerosOf_ok {dims : List Int} {t : Tensor} (h : zerosOf dims = .ok t) :
    t = zeros (dims.map Int.toNat) := by
  unfold zerosOf at h
  cases ha : allocShape dims 4 with
  | error f =>
    rw [ha] at h
    cases h
  | ok ns =>
    rw [ha] at h
    cases h
    rw [allocShape_ok ha]

theorem numRows_of_rows? {t : Tensor} {n : Nat} (h : t.rows? = .ok n) : t.numRows = n := by
  unfold rows? size? at h
  unfold numRows
  cases hs : t.shape with
  | nil => simp [hs, rank] at h
  | cons k rest => simp_all [rank]

theorem numRows_lastRows (t : Tensor) (k : Nat) : (t.lastRows k).numRows = min k t.numRows := by
  simp only [lastRows, sliceRows, numRows, List.headD_cons]
  omega

end Tensor

/-- The frames the encoder produced in a stream's outputs, chunk by chunk. -/
def StreamState.encoded (st : StreamState) : Nat := (st.outputs.map fun t => t.shape.getD 1 0).sum

/-- The frames a stream state carries into its next chunk. -/
def StreamState.carriedRows (st : StreamState) : Nat := (st.carried.map Tensor.numRows).getD 0

/-- A stream state whose attention cache holds a window of `R` frames behind the reset's zeros:
the offset is `R` and the encoded frames, the attention cache `[B, H, R, W]` is zero in its
first `2R - offset` frames, and the convolution caches hold `kernel - 1` frames. -/
structure StreamState.Padded (st : StreamState) (md : Metadata) : Prop where
  offset : st.offset = md.requiredCacheSize + st.encoded
  att : ∃ B H W, 0 < B ∧
    st.attCache.Padded B H md.requiredCacheSize.toNat W (2 * md.requiredCacheSize - st.offset).toNat
  cnn : ∃ Bc D, st.cnnCache.shape = [Bc, 1, D, (md.kernelSize - 1).toNat]

/-- The frames of a state's attention cache still holding the reset's zeros: the window less the
frames encoded since, `2R - offset`. -/
def StreamState.padding (st : StreamState) (md : Metadata) : Nat :=
  (2 * md.requiredCacheSize - st.offset).toNat

/-- The frames of a state's attention cache `[B, H, R, W]` from `z` on hold, in every block and
head, the key and the value that the block's attention gave a frame of some chunk. -/
def StreamState.Keyed (st : StreamState) (e : Network.Encoder) (R z : Nat) : Prop :=
  ∀ B H W, st.attCache.shape = [B, H, R, W] → ∀ b hh i, b < B → hh < H → z ≤ i → i < R →
    ∃ blk memory j, e.blocks[b]? = some blk ∧ W = 2 * blk.attention.dk ∧ j < memory.rows ∧
      blk.attention.Holds st.attCache H R b hh i memory j

/-- The cache window of a state: reset's zeros in its padding, keys and values after it. -/
structure StreamState.Window (st : StreamState) (md : Metadata) (e : Network.Encoder) : Prop where
  padded : st.Padded md
  keyed : st.Keyed e md.requiredCacheSize.toNat (st.padding md)

/-- Metadata that decodes a Conformer encoder with a window of left chunks: it describes the
encoder, which has at least one block, its chunks and left chunks are positive, and its mask can be
allocated. -/
structure Metadata.LeftWindow (md : Metadata) (e : Network.Encoder) : Prop where
  conformer : e.Conformer
  describes : md.Describes e
  blocks : 0 < md.numBlocks
  chunk : 0 < md.chunkSize
  left : 0 < md.leftChunks
  /-- The mask over the window and a chunk can be allocated. -/
  fits : md.requiredCacheSize + md.chunkSize < 2 ^ 63

namespace Metadata.LeftWindow

variable {md : Metadata} {e : Network.Encoder} (hw : md.LeftWindow e)
include hw

theorem required_pos : 0 < md.requiredCacheSize := Int.mul_pos hw.chunk hw.left

theorem lorder (b : Network.EncoderBlock) (hb : b ∈ e.blocks) :
    b.conv.lorder = (md.kernelSize - 1).toNat := by
  rw [hw.conformer.lorder b hb, hw.describes.kernel]

end Metadata.LeftWindow

namespace Stream

theorem mask_window {s : Stream} (hcs : 0 < s.metadata.chunkSize) (hnlc : 0 < s.metadata.leftChunks)
    (hfit : s.metadata.requiredCacheSize + s.metadata.chunkSize < 2 ^ 63) {o : Int} (ho : s.metadata.requiredCacheSize ≤ o) :
    ∃ hidden, (2 * s.metadata.requiredCacheSize - o).toNat ≤ hidden ∧
      hidden ≤ s.metadata.requiredCacheSize.toNat ∧
      (o % s.metadata.chunkSize = 0 → hidden = (2 * s.metadata.requiredCacheSize - o).toNat) ∧
      s.mask o = .ok (some (prefixMask (s.metadata.requiredCacheSize + s.metadata.chunkSize).toNat
        hidden)) := by
  have hrcs : s.metadata.requiredCacheSize = s.metadata.chunkSize * s.metadata.leftChunks := rfl
  have hcs0 : (s.metadata.chunkSize == 0) = false := by simp; omega
  have hlen : 0 ≤ s.metadata.requiredCacheSize + s.metadata.chunkSize := by
    have := Int.le_of_lt (Int.mul_pos hcs hnlc)
    omega
  unfold Stream.mask
  simp only [if_neg (Int.not_le.2 hnlc), hcs0, Tensor.allocShape_row hlen hfit, Bool.false_eq_true, if_false,
    Int.fdiv_eq_ediv_of_nonneg o (Int.le_of_lt hcs)]
  refine ⟨_, ?_, ?_, ?_, rfl⟩ <;> rw [hrcs] at ho ⊢ <;>
    generalize s.metadata.chunkSize = cs at * <;> generalize s.metadata.leftChunks = nlc at *
  all_goals
    -- the chunk index counts whole chunks: `o = cs * q + r` with `0 ≤ r < cs`
    have hqr := Int.mul_ediv_add_emod o cs
    have hr0 := Int.emod_nonneg o (Int.ne_of_gt hcs)
    have hr1 := Int.emod_lt_of_pos o hcs
    generalize o / cs = q at *
    generalize o % cs = r at *
    have hq : nlc ≤ q := by
      refine Int.le_of_lt_add_one (Int.lt_of_mul_lt_mul_left (a := cs) ?_ (Int.le_of_lt hcs))
      rw [Int.mul_add, Int.mul_one]
      omega
    have hlo : cs * nlc ≤ cs * q := Int.mul_le_mul_of_nonneg_left hq (Int.le_of_lt hcs)
    have hinv : (nlc - (q - nlc)) * cs = 2 * (cs * nlc) - cs * q := by ring
    have hbelow : q < 2 * nlc → cs * q + cs ≤ 2 * (cs * nlc) := fun h =>
      calc cs * q + cs = cs * (q + 1) := by ring
        _ ≤ cs * (2 * nlc) := Int.mul_le_mul_of_nonneg_left (by omega) (Int.le_of_lt hcs)
        _ = 2 * (cs * nlc) := by ring
    have habove : 2 * nlc ≤ q → 2 * (cs * nlc) ≤ cs * q := fun h =>
      calc 2 * (cs * nlc) = cs * (2 * nlc) := by ring
        _ ≤ cs * q := Int.mul_le_mul_of_nonneg_left h (Int.le_of_lt hcs)
    split_ifs <;> omega

theorem feed_masked {s : Stream} (hroles : s.backend.roles = Role.all) {st : StreamState}
    {mk : Mask} (hmask : s.mask st.offset = .ok (some mk)) (feats : Tensor) :
    s.feed st feats = .ok [(.chunk, .tensor feats.unsqueeze), (.offset, .int st.offset),
      (.requiredCacheSize, .int s.metadata.requiredCacheSize), (.attCache, .tensor st.attCache),
      (.cnnCache, .tensor st.cnnCache), (.attMask, .mask mk)] := by
  simp only [feed, hmask, hroles, bind, Except.bind, pure, Except.pure]
  rfl

end Stream

theorem Network.Model.encodeFeed_masked (m : Network.Model) (c : Tensor) (o r : Int) (a n : Tensor)
    (mk : Mask) :
    m.encodeFeed [(.chunk, .tensor c), (.offset, .int o), (.requiredCacheSize, .int r),
        (.attCache, .tensor a), (.cnnCache, .tensor n), (.attMask, .mask mk)] =
      (m.encoder.forwardChunk c o r a n (some mk)).map (fun y => ⟨y.1.batch, y.2.1, y.2.2⟩) := by
  have hchunk : Feed.tensor? [(.chunk, .tensor c), (.offset, .int o), (.requiredCacheSize, .int r),
      (.attCache, .tensor a), (.cnnCache, .tensor n), (.attMask, .mask mk)] .chunk = some c := rfl
  have hoffset : Feed.int? [(.chunk, .tensor c), (.offset, .int o), (.requiredCacheSize, .int r),
      (.attCache, .tensor a), (.cnnCache, .tensor n), (.attMask, .mask mk)] .offset = some o := rfl
  have hrequired : Feed.int? [(.chunk, .tensor c), (.offset, .int o), (.requiredCacheSize, .int r),
      (.attCache, .tensor a), (.cnnCache, .tensor n), (.attMask, .mask mk)] .requiredCacheSize =
      some r := rfl
  have hatt : Feed.tensor? [(.chunk, .tensor c), (.offset, .int o), (.requiredCacheSize, .int r),
      (.attCache, .tensor a), (.cnnCache, .tensor n), (.attMask, .mask mk)] .attCache = some a := rfl
  have hcnn : Feed.tensor? [(.chunk, .tensor c), (.offset, .int o), (.requiredCacheSize, .int r),
      (.attCache, .tensor a), (.cnnCache, .tensor n), (.attMask, .mask mk)] .cnnCache = some n := rfl
  have hmask : Feed.mask? [(.chunk, .tensor c), (.offset, .int o), (.requiredCacheSize, .int r),
      (.attCache, .tensor a), (.cnnCache, .tensor n), (.attMask, .mask mk)] .attMask = some mk := rfl
  simp only [Network.Model.encodeFeed, hchunk, hoffset, hrequired, hatt, hcnn, hmask, pure_bind]
  cases m.encoder.forwardChunk c o r a n (some mk) <;> rfl

theorem Network.Model.encodeFeed_batch {m : Network.Model} {feed : Feed} {enc : EncoderOutput}
    (h : m.encodeFeed feed = .ok enc) : ∃ y : Matrix, enc.out = y.batch := by
  unfold Network.Model.encodeFeed at h
  repeat' split at h
  all_goals simp only [bind, Except.bind, pure, Except.pure, throw, throwThe, MonadExceptOf.throw] at h
  repeat' split at h
  all_goals cases h
  exact ⟨_, rfl⟩

section Encode

/-! A chunk encoded with the state's caches, the cache as long as the metadata's window. -/

variable {st : StreamState} {md : Metadata} {e : Network.Encoder} (hw : md.LeftWindow e)
  {xs : Tensor} {mk : Option Mask} {y : Matrix} {att cnn : Tensor}
  (h : e.forwardChunk xs st.offset md.requiredCacheSize st.attCache st.cnnCache mk = .ok (y, att, cnn))
include hw h

theorem StreamState.Padded.encode (hst : st.Padded md) (c : Option Tensor) :
    ({ st with attCache := att, cnnCache := cnn, offset := st.offset + y.rows,
               outputs := st.outputs ++ [y.batch], carried := c } : StreamState).Padded md := by
  obtain ⟨B, H, W, hB, hatt⟩ := hst.att
  obtain ⟨Bc, D, hcnn⟩ := hst.cnn
  have hoffset := hst.offset
  have hR := hw.required_pos
  have hT : md.requiredCacheSize = (md.requiredCacheSize.toNat : Int) := (Int.toNat_of_nonneg (by omega)).symm
  rw [hT] at h
  obtain ⟨x, -, hyx, B', hB', hle, hshape, hsize, hkeep, -, D', hcnn'⟩ :=
    Network.Encoder.forwardChunk_slides (fun b hb => hw.lorder b hb) hatt.shape hatt.size (by omega) hB
      hcnn h
  refine ⟨?_, ⟨B', H, W, hB', ?_⟩, ⟨B', D', hcnn'⟩⟩
  · simp [StreamState.encoded, Matrix.batch] at hoffset ⊢
    omega
  · have hslid := hatt.shift (p := x.rows) (by omega) hle hshape hsize hkeep
    have hz : (2 * md.requiredCacheSize - (st.offset + y.rows)).toNat =
        (2 * md.requiredCacheSize - st.offset).toNat - x.rows := by omega
    show att.Padded B' H md.requiredCacheSize.toNat W (2 * md.requiredCacheSize - (st.offset + y.rows)).toNat
    rw [hz]
    exact hslid

theorem StreamState.Keyed.encode (hst : st.Padded md)
    (hkey : st.Keyed e md.requiredCacheSize.toNat (st.padding md)) (c : Option Tensor) :
    ({ st with attCache := att, cnnCache := cnn, offset := st.offset + y.rows,
               outputs := st.outputs ++ [y.batch], carried := c } : StreamState).Keyed e
      md.requiredCacheSize.toNat (2 * md.requiredCacheSize - (st.offset + y.rows)).toNat := by
  obtain ⟨B, H, W, hB, hatt⟩ := hst.att
  obtain ⟨Bc, D, hcnn⟩ := hst.cnn
  have hR := hw.required_pos
  have hT : md.requiredCacheSize = (md.requiredCacheSize.toNat : Int) := (Int.toNat_of_nonneg (by omega)).symm
  rw [hT] at h
  obtain ⟨x, -, hyx, B', -, hle, hshape, -, hkeep, hnew, -⟩ :=
    Network.Encoder.forwardChunk_slides (fun b hb => hw.lorder b hb) hatt.shape hatt.size (by omega) hB
      hcnn h
  intro B₂ H₂ W₂ hshape₂ b hh i hb hhh hz hi
  have hsame : att.shape = [B₂, H₂, md.requiredCacheSize.toNat, W₂] := hshape₂
  rw [hshape] at hsame
  simp only [List.cons.injEq] at hsame
  obtain ⟨rfl, rfl, -, rfl, -⟩ := hsame
  by_cases hold : x.rows + i < md.requiredCacheSize.toNat
  · obtain ⟨blk, memory, j, hblk, hW, hj, hholds⟩ := hkey B H W hatt.shape b hh (x.rows + i) (by omega) hhh
      (by simp only [StreamState.padding]; omega) hold
    refine ⟨blk, memory, j, hblk, hW, hj, hholds.of_entries fun cc hcc => ?_⟩
    rw [← hW] at hcc ⊢
    exact hkeep b hh i cc hb hhh hcc hold
  · obtain ⟨blk, memory, hblk, hW, hmem, hholds⟩ := hnew b hh i hb hhh hi (by omega)
    exact ⟨blk, memory, x.rows + i - md.requiredCacheSize.toNat, hblk, hW, by omega, hholds⟩

theorem StreamState.Window.encode (hst : st.Window md e) (c : Option Tensor) :
    ({ st with attCache := att, cnnCache := cnn, offset := st.offset + y.rows,
               outputs := st.outputs ++ [y.batch], carried := c } : StreamState).Window md e :=
  ⟨hst.padded.encode hw h c, hst.keyed.encode hw h hst.padded c⟩

end Encode

theorem StreamState.Window.carry {st : StreamState} {md : Metadata} {e : Network.Encoder}
    (hst : st.Window md e) (c : Option Tensor) : ({ st with carried := c } : StreamState).Window md e :=
  ⟨⟨hst.padded.offset, hst.padded.att, hst.padded.cnn⟩, hst.keyed⟩

theorem carriedAfter_rows {md : Metadata} {e : Network.Encoder} (hd : md.Describes e) (feats : Tensor)
    (n : Nat) : ((Stream.carriedAfter md feats n).map Tensor.numRows).getD 0 ≤ md.rightContext.toNat := by
  unfold Stream.carriedAfter
  split
  · simp only [Option.map_some, Option.getD_some, Tensor.numRows_lastRows, hd.rate_eq, hd.rightContext_eq]
    omega
  · simp

namespace Stream

theorem freshState_window {md : Metadata} {e : Network.Encoder} (hw : md.LeftWindow e) {st : StreamState}
    (h : freshState md = .ok st) : st.Window md e ∧ st.carriedRows = 0 := by
  unfold freshState at h
  rw [if_pos hw.left] at h
  obtain ⟨att, hatt, h⟩ := Except.bind_eq_ok.1 h
  obtain ⟨cnn, hcnn, h⟩ := Except.bind_eq_ok.1 h
  rw [Except.pure_eq_ok] at h
  subst h
  rw [Tensor.zerosOf_ok hatt] at *
  rw [Tensor.zerosOf_ok hcnn]
  have hR := hw.required_pos
  have hz : (2 * md.requiredCacheSize - md.requiredCacheSize).toNat = md.requiredCacheSize.toNat := by omega
  refine ⟨⟨⟨by simp [StreamState.encoded], ⟨md.numBlocks.toNat, md.heads.toNat, (md.headDim * 2).toNat,
    by have := hw.blocks; omega, ?_⟩, ⟨_, _, rfl⟩⟩, ?_⟩, rfl⟩
  · rw [hz]
    exact Tensor.padded_zeros _ _ _ _
  · -- the padding is the whole window, so no frame lies past it
    intro B H W _ b hh i _ _ hpad hi
    simp only [StreamState.padding, hz] at hpad
    omega

theorem feed_of_encoder_call {s : Stream} {st : StreamState} {feats : Tensor} {inputs : Feed}
    (h : Call.encoder inputs ∈ (s.encodeFrames st feats).calls) : s.feed st feats = .ok inputs := by
  rcases encodeFrames_calls s st feats with hnil | ⟨inputs', rest, hfeed, hcalls, hrest⟩
  · simp [hnil] at h
  rw [hcalls, List.mem_cons] at h
  rcases h with h | h
  · cases h
    exact hfeed
  · simp only [feedsOf, List.filterMap_eq_nil_iff] at hrest
    exact absurd (hrest _ h) (Option.some_ne_none inputs)

theorem joinCarried_numRows {st : StreamState} {feats joined : Tensor} (hf : feats.isBlank = false)
    (h : joinCarried st feats = .ok joined) : joined.numRows = st.carriedRows + feats.numRows := by
  unfold joinCarried at h
  cases hc : st.carried with
  | none =>
    simp only [hc, Except.ok.injEq] at h
    simp [StreamState.carriedRows, hc, h]
  | some c =>
    simp only [hc] at h
    split at h
    · rename_i hpos
      have hblank : c.isBlank = false := by
        by_contra hb
        simp only [Tensor.isBlank, Bool.not_eq_false, beq_iff_eq] at hb
        simp [Tensor.numRows, hb] at hpos
      obtain ⟨first, rest, hcons, -, rfl⟩ := Tensor.cat_ok (by simp [hblank, hf]) h
      simp only [List.cons.injEq] at hcons
      obtain ⟨rfl, rfl⟩ := hcons
      simp [Tensor.numRows, StreamState.carriedRows, hc]
    · cases h
      simp only [StreamState.carriedRows, hc, Option.map_some, Option.getD_some]
      omega

theorem forward_encoder_call {s : Stream} {st : StreamState} (hs : s.state = some st) {feats : Tensor}
    {inputs : Feed} (h : Call.encoder inputs ∈ (s.forward feats).calls) :
    ∃ joined, joinCarried st feats = .ok joined ∧ s.feed st joined = .ok inputs := by
  unfold forward at h
  simp only [current, hs] at h
  cases hj : joinCarried st feats with
  | error f => simp [hj] at h
  | ok joined =>
    simp only [hj] at h
    exact ⟨joined, rfl, feed_of_encoder_call h⟩

variable {m : Network.Model} {mb md : Metadata} (hw : md.LeftWindow m.encoder)
include hw

theorem encode_window {s : Stream} (hb : s.backend = m.toBackend mb) (hmd : s.metadata = md)
    {st : StreamState} (hst : st.Window md m.encoder) {feats : Tensor} {inputs : Feed}
    {enc : EncoderOutput} {produced : Nat} (hfeed : s.feed st feats = .ok inputs)
    (henc : s.backend.encode inputs = .ok enc) (hsize : enc.out.size? 1 = .ok produced) (c : Option Tensor) :
    ({ st with attCache := enc.attCache, cnnCache := enc.cnnCache, offset := st.offset + produced,
               outputs := st.outputs ++ [enc.out], carried := c } : StreamState).Window md m.encoder := by
  have hoffset := hst.padded.offset
  obtain ⟨hidden, -, -, -, hmask⟩ := mask_window (s := s) (hmd ▸ hw.chunk) (hmd ▸ hw.left)
    (hmd ▸ hw.fits) (o := st.offset) (by rw [hmd]; omega)
  rw [feed_masked (by rw [hb]; rfl) hmask] at hfeed
  cases hfeed
  rw [hb, show (m.toBackend mb).encode = m.encodeFeed from rfl, Network.Model.encodeFeed_masked] at henc
  cases hfc : m.encoder.forwardChunk feats.unsqueeze st.offset s.metadata.requiredCacheSize
      st.attCache st.cnnCache (some (prefixMask
        (s.metadata.requiredCacheSize + s.metadata.chunkSize).toNat hidden)) with
  | error f => simp [hfc, Except.map] at henc
  | ok r =>
    obtain ⟨y, att, cnn⟩ := r
    simp only [hfc, Except.map, Except.ok.injEq] at henc
    subst henc
    have hproduced : produced = y.rows := by
      simp [Matrix.batch, Tensor.size?, Tensor.rank] at hsize
      omega
    subst hproduced
    rw [hmd] at hfc
    exact hst.encode hw hfc c

theorem encodeFrames_window {s : Stream} (hb : s.backend = m.toBackend mb) (hmd : s.metadata = md)
    {st : StreamState} (hs : s.state = some st) (hst : st.Window md m.encoder)
    (hcar : st.carriedRows ≤ md.rightContext.toNat) (feats : Tensor) :
    ∃ st', (s.encodeFrames st feats).next.state = some st' ∧ st'.Window md m.encoder ∧
      st'.carriedRows ≤ md.rightContext.toNat ∧
      ((s.encodeFrames st feats).out.isOk = false → st'.carriedRows = st.carriedRows) := by
  cases hout : (s.encodeFrames st feats).out with
  | error f =>
    rcases encodeFrames_of_error hout with ⟨-, hnext⟩ | ⟨inputs, enc, henc, hsize, -⟩ |
        ⟨inputs, enc, produced, henc, hsize, hcall, hnext⟩
    · exact ⟨st, by rw [hnext, hs], hst, hcar, fun _ => rfl⟩
    · -- the network's encoder output always has a time axis
      rw [hb] at henc
      obtain ⟨y, hy⟩ := Network.Model.encodeFeed_batch henc
      rw [hy] at hsize
      simp [Matrix.batch, Tensor.size?, Tensor.rank] at hsize
    · have hfeed := feed_of_encoder_call (List.mem_of_head? hcall)
      exact ⟨_, by rw [hnext]; rfl, encode_window hw hb hmd hst hfeed henc hsize st.carried, hcar, fun _ => rfl⟩
  | ok lp =>
    rcases encodeFrames_cases s st feats with ⟨f, he⟩ | ⟨n, hrows, hpos, hshort, he⟩ |
        ⟨inputs, enc, f, -, -, -, he⟩ | ⟨n, -, -, -, hrows, hpos, hctx, -, -, -⟩
    · rw [he] at hout
      cases hout
    · rw [he]
      refine ⟨_, rfl, hst.carry _, ?_, fun h => by simp [Except.isOk, Except.toBool] at h⟩
      simp only [StreamState.carriedRows, Option.map_some, Option.getD_some, Tensor.numRows_of_rows? hrows]
      rw [hmd] at hshort
      omega
    · rw [he] at hout
      cases hout
    · obtain ⟨inputs, enc, produced, v, hfeed, henc, hsize, -, hnext⟩ :=
        encodeFrames_of_ok hrows hpos hctx hout
      refine ⟨_, by rw [hnext], encode_window hw hb hmd hst hfeed henc hsize _, ?_, fun h => by simp [Except.isOk, Except.toBool] at h⟩
      rw [hmd]
      exact carriedAfter_rows hw.describes feats n

theorem forward_window {s : Stream} (hb : s.backend = m.toBackend mb) (hmd : s.metadata = md)
    {st : StreamState} (hs : s.state = some st) (hst : st.Window md m.encoder)
    (hcar : st.carriedRows ≤ md.rightContext.toNat) (feats : Tensor) :
    ∃ st', (s.forward feats).next.state = some st' ∧ st'.Window md m.encoder ∧
      st'.carriedRows ≤ md.rightContext.toNat ∧
      ((s.forward feats).out.isOk = false → st'.carriedRows = st.carriedRows) := by
  unfold forward
  simp only [current, hs]
  cases hj : joinCarried st feats with
  | error f => exact ⟨st, hs, hst, hcar, fun _ => rfl⟩
  | ok joined => exact encodeFrames_window hw hb hmd hs hst hcar joined

end Stream

end SpeechStream
