import SpeechStream.Proofs.FrameCounts
import Mathlib.Tactic.Ring
/-!
The attention cache slides.

The attention cache of a stream is a tensor `[blocks, heads, frames, 2·dk]`. For a chunk the
encoder hands each block its slice of the cache; the block's attention appends the keys and
values of the chunk's frames below the cached ones (`Attention.apply_cache`), the encoder keeps
the last frames of each block's grown cache, as many as the required cache size
(`getD_dropCached`), and joins the blocks again (`Tensor.cat_blocks`). When the cache holds
exactly the required size, a chunk that leaves `n` frames for the blocks slides every block's
cache by `n` frames: frame `i` of the new cache is frame `n + i` of the old one, and the last
`n` frames hold the keys and values that the block's attention gave the chunk's frames
(`Attention.Holds`, `Network.Encoder.forwardChunk_slides`).
-/

set_option autoImplicit false

namespace SpeechStream

/-- The flat position of entry `(b, h, i, c)` of a tensor `[_, H, T, W]`. -/
def entryPos (H T W b h i c : Nat) : Nat := ((b * H + h) * T + i) * W + c

theorem entryPos_block (H T W b h i c : Nat) :
    entryPos H T W b h i c = b * (H * T * W) + entryPos H T W 0 h i c := by
  unfold entryPos
  ring

theorem entryPos_head (H T W h i c : Nat) : entryPos H T W 0 h i c = h * (T * W) + (i * W + c) := by
  unfold entryPos
  ring

theorem mul_add_lt {x X y Y : Nat} (hx : x < X) (hy : y < Y) : x * Y + y < X * Y :=
  calc x * Y + y < x * Y + Y := Nat.add_lt_add_left hy _
    _ = (x + 1) * Y := (Nat.succ_mul x Y).symm
    _ ≤ X * Y := Nat.mul_le_mul_right Y hx

theorem entryPos_lt {B H T W b h i c : Nat} (hb : b < B) (hh : h < H) (hi : i < T) (hc : c < W) :
    entryPos H T W b h i c < B * H * T * W :=
  mul_add_lt (mul_add_lt (mul_add_lt hb hh) hi) hc

theorem div_mod_of_lt {q m r : Nat} (hr : r < m) : (q * m + r) / m = q ∧ (q * m + r) % m = r := by
  have hm : 0 < m := Nat.lt_of_le_of_lt (Nat.zero_le r) hr
  refine ⟨?_, ?_⟩
  · rw [Nat.add_comm, Nat.mul_comm, Nat.add_mul_div_left r q hm, Nat.div_eq_of_lt hr, Nat.zero_add]
  · rw [Nat.add_comm, Nat.mul_comm, Nat.add_mul_mod_self_left, Nat.mod_eq_of_lt hr]

/-! Arrays made of blocks of one size. -/

section Blocks

variable {α β : Type} (f : α → Array β)

theorem getD_foldl_append_of_lt (l : List α) (init : Array β) {k : Nat} (hk : k < init.size) (d : β) :
    (l.foldl (fun acc a => acc ++ f a) init).getD k d = init.getD k d := by
  induction l generalizing init with
  | nil => rfl
  | cons a l ih =>
    rw [List.foldl_cons, ih _ (by rw [Array.size_append]; omega)]
    simp [Array.getElem?_append_left hk]

theorem size_foldl_append {n : Nat} (l : List α) (hsize : ∀ a ∈ l, (f a).size = n) (init : Array β) :
    (l.foldl (fun acc a => acc ++ f a) init).size = init.size + l.length * n := by
  induction l generalizing init with
  | nil => simp
  | cons a l ih =>
    rw [List.foldl_cons, ih (fun b hb => hsize b (List.mem_cons_of_mem _ hb)), Array.size_append,
      hsize a List.mem_cons_self, List.length_cons, Nat.succ_mul]
    omega

theorem getD_foldl_append {n : Nat} (l : List α) (hsize : ∀ a ∈ l, (f a).size = n)
    (init : Array β) (i : Nat) (hi : i < l.length) {r : Nat} (hr : r < n) (d : β) :
    (l.foldl (fun acc a => acc ++ f a) init).getD (init.size + i * n + r) d = (f l[i]).getD r d := by
  induction l generalizing init i with
  | nil => cases hi
  | cons a l ih =>
    have ha : (f a).size = n := hsize a List.mem_cons_self
    rw [List.foldl_cons]
    cases i with
    | zero =>
      rw [getD_foldl_append_of_lt f l _ (by rw [Array.size_append]; omega)]
      simp [Array.getElem?_append_right]
    | succ i =>
      have hidx : init.size + (i + 1) * n + r = (init ++ f a).size + i * n + r := by
        rw [Array.size_append, ha, Nat.succ_mul]
        omega
      rw [hidx, ih (fun b hb => hsize b (List.mem_cons_of_mem _ hb)) (init ++ f a) i
        (by simpa using hi)]
      rfl

end Blocks

/-! Slicing, trimming and joining four-axis caches. -/

namespace Tensor

theorem count_three (H T W : Nat) : count [H, T, W] = H * T * W := by
  simp [count]

theorem shape_sliceRows_one {t : Tensor} {B H T W : Nat} (hs : t.shape = [B, H, T, W]) {j : Nat}
    (hj : j < B) : (t.sliceRows j (j + 1)).shape = [1, H, T, W] := by
  simp only [sliceRows, numRows, hs, List.headD_cons, List.tail_cons, List.cons.injEq, and_true]
  omega

theorem getD_sliceRows {t : Tensor} {B H T W : Nat} (hs : t.shape = [B, H, T, W])
    (hsize : t.data.size = B * H * T * W) {j h i c : Nat} (hj : j < B) (hh : h < H) (hi : i < T)
    (hc : c < W) :
    (t.sliceRows j (j + 1)).data.getD (entryPos H T W 0 h i c) 0 =
      t.data.getD (entryPos H T W j h i c) 0 := by
  have hw : t.rowWidth = H * T * W := by rw [rowWidth, hs, List.tail_cons, count_three]
  have hend : (j + 1) * (H * T * W) ≤ t.data.size :=
    calc (j + 1) * (H * T * W) ≤ B * (H * T * W) := Nat.mul_le_mul_right _ hj
      _ = t.data.size := by rw [hsize]; ring
  have hslice : (t.sliceRows j (j + 1)).data =
      t.data.extract (j * (H * T * W)) ((j + 1) * (H * T * W)) := by
    simp only [sliceRows, numRows, hs, List.headD_cons, hw]
    rw [Nat.min_eq_left (Nat.succ_le_of_lt hj), Nat.min_eq_left (Nat.le_succ j)]
  have hin : entryPos H T W 0 h i c < H * T * W := by
    simpa using entryPos_lt (Nat.zero_lt_one) hh hi hc
  have hk : entryPos H T W 0 h i c < min ((j + 1) * (H * T * W)) t.data.size - j * (H * T * W) := by
    rw [Nat.min_eq_left hend, Nat.succ_mul]
    omega
  have hlt : j * (H * T * W) + entryPos H T W 0 h i c < t.data.size := by
    rw [← entryPos_block, hsize]
    exact entryPos_lt hj hh hi hc
  rw [hslice, Array.getD_eq_getD_getElem?, Array.getElem?_extract_of_lt hk, Option.getD_some,
    entryPos_block H T W j h i c, Array.getD_eq_getD_getElem?, Array.getElem?_eq_getElem hlt,
    Option.getD_some]

end Tensor

namespace Matrix

theorem get_ofFn {r c : Nat} {f : Nat → Nat → Float32} {i j : Nat} (hi : i < r) (hj : j < c) :
    (ofFn r c f).get i j = f i j := by
  obtain ⟨hdiv, hmod⟩ := div_mod_of_lt (q := i) hj
  unfold get ofFn
  rw [Array.getD_eq_getD_getElem?, Array.getElem?_ofFn, dif_pos (mul_add_lt hi hj),
    Option.getD_some]
  simp only [hdiv, hmod]

theorem get_appendRows_left {a b : Matrix} {i j : Nat} (ha : a.data.size = a.rows * a.cols)
    (hi : i < a.rows) (hj : j < a.cols) : (a.appendRows b).get i j = a.get i j := by
  have hlt : i * a.cols + j < a.data.size := ha ▸ mul_add_lt hi hj
  unfold get appendRows
  simp [Array.getElem?_append_left hlt]

theorem get_appendRows_right {a b : Matrix} {r : Nat} (ha : a.data.size = r * a.cols)
    (hcols : b.cols = a.cols) (i j : Nat) : (a.appendRows b).get (r + i) j = b.get i j := by
  have hpos : (r + i) * a.cols + j = a.data.size + (i * b.cols + j) := by
    rw [ha, hcols, Nat.add_mul, Nat.add_assoc]
  unfold get appendRows
  simp only [hpos, Array.getD_eq_getD_getElem?, Array.getElem?_append_right (Nat.le_add_right _ _),
    Nat.add_sub_cancel_left]

theorem get_sliceCols {m : Matrix} {lo n i j : Nat} (hi : i < m.rows) (hj : j < n) :
    (m.sliceCols lo n).get i j = m.get i (lo + j) :=
  get_ofFn hi hj

end Matrix

namespace Tensor

theorem cat_ok {ts : List Tensor} {u : Tensor} (hblank : ∀ t ∈ ts, t.isBlank = false)
    (h : cat ts = .ok u) : ∃ first rest, ts = first :: rest ∧
      (∀ t ∈ rest, t.shape.tail = first.shape.tail) ∧
      u = ⟨ts.foldl (fun acc t => acc + t.numRows) 0 :: first.shape.tail,
        ts.foldl (fun acc t => acc ++ t.data) #[]⟩ := by
  have hfilter : ts.filter (fun t => !t.isBlank) = ts := List.filter_eq_self.2 (by simpa using hblank)
  unfold cat at h
  rw [hfilter] at h
  match ts, h with
  | first :: rest, h =>
    simp only at h
    split at h
    · cases h
    · split at h
      · rename_i hall
        cases h
        refine ⟨first, rest, rfl, ?_, rfl⟩
        intro t ht
        have := List.all_eq_true.1 hall t ht
        simp only [Bool.and_eq_true, beq_iff_eq] at this
        exact this.2
      · cases h

theorem foldl_numRows {ts : List Tensor} (hts : ∀ t ∈ ts, t.numRows = 1) (k : Nat) :
    ts.foldl (fun acc t => acc + t.numRows) k = k + ts.length := by
  induction ts generalizing k with
  | nil => rfl
  | cons t ts ih =>
    rw [List.foldl_cons, ih (fun u hu => hts u (List.mem_cons_of_mem _ hu)),
      hts t List.mem_cons_self, List.length_cons]
    omega

theorem cat_blocks {ts : List Tensor} {H T W : Nat}
    (hts : ∀ t ∈ ts, t.shape = [1, H, T, W] ∧ t.data.size = H * T * W) {u : Tensor}
    (h : cat ts = .ok u) :
    u.shape = [ts.length, H, T, W] ∧ u.data.size = ts.length * H * T * W ∧
      ∀ b hh i c (hb : b < ts.length), hh < H → i < T → c < W →
        u.data.getD (entryPos H T W b hh i c) 0 = ts[b].data.getD (entryPos H T W 0 hh i c) 0 := by
  obtain ⟨first, rest, rfl, -, rfl⟩ :=
    cat_ok (fun t ht => by simp [isBlank, (hts t ht).1]) h
  have hsize : ∀ t ∈ first :: rest, t.data.size = H * T * W := fun t ht => (hts t ht).2
  refine ⟨?_, ?_, ?_⟩
  · rw [foldl_numRows (fun t ht => by simp [numRows, (hts t ht).1])]
    simp [(hts first List.mem_cons_self).1]
  · show ((first :: rest).foldl (fun acc t => acc ++ t.data) #[]).size = _
    rw [size_foldl_append (fun t : Tensor => t.data) _ hsize]
    simp only [Array.size_empty, Nat.zero_add]
    ring
  · intro b hh i c hb hhh hi hc
    have hin : entryPos H T W 0 hh i c < H * T * W := by
      simpa using entryPos_lt (Nat.zero_lt_one) hhh hi hc
    have := getD_foldl_append (fun t : Tensor => t.data) _ hsize #[] b hb hin 0
    rw [Array.size_empty, Nat.zero_add] at this
    show ((first :: rest).foldl (fun acc t => acc ++ t.data) #[]).getD _ 0 = _
    rw [entryPos_block, this]

end Tensor

namespace Network

theorem shape_dropCached {t : Tensor} {b h n w : Nat} (hs : t.shape = [b, h, n, w]) (s : Nat) :
    (dropCached t s).shape = [b, h, n - min s n, w] := by
  simp [dropCached, hs]

theorem size_dropCached {t : Tensor} {b h n w : Nat} (hs : t.shape = [b, h, n, w]) (s : Nat) :
    (dropCached t s).data.size = b * h * (n - min s n) * w := by
  simp [dropCached, hs]

theorem getD_dropCached {t : Tensor} {b h n w : Nat} (hs : t.shape = [b, h, n, w]) {s : Nat}
    (hsn : s ≤ n) {bb hh i c : Nat} (hbb : bb < b) (hhh : hh < h) (hi : i < n - s) (hc : c < w) :
    (dropCached t s).data.getD (entryPos h (n - s) w bb hh i c) 0 =
      t.data.getD (entryPos h n w bb hh (s + i) c) 0 := by
  have hmin : min s n = s := Nat.min_eq_left hsn
  have hk : entryPos h (n - s) w bb hh i c < b * h * (n - s) * w := entryPos_lt hbb hhh hi hc
  have hsplit : entryPos h (n - s) w bb hh i c = (bb * h + hh) * ((n - s) * w) + (i * w + c) := by
    unfold entryPos
    ring
  have hinner : i * w + c < (n - s) * w := mul_add_lt hi hc
  obtain ⟨hdiv, hmod⟩ := div_mod_of_lt (q := bb * h + hh) hinner
  obtain ⟨hdiv', hmod'⟩ := div_mod_of_lt (q := i) hc
  simp only [dropCached, hs]
  rw [Array.getD_eq_getD_getElem?, Array.getElem?_ofFn, dif_pos (by rw [hmin]; exact hk),
    Option.getD_some]
  simp only [hmin]
  rw [hsplit, hdiv, hmod, hdiv', hmod']
  congr 1
  unfold entryPos
  ring

/-! Attention appends the keys and values of the current frames below the cached ones. -/

theorem Attention.size_grow (a : Attention) (k v : Matrix) (cached : Option (Array (Matrix × Matrix))) :
    (a.grow k v cached).size = a.heads :=
  Array.size_ofFn

theorem Attention.grow_some (a : Attention) (k v : Matrix) (cs : Array (Matrix × Matrix)) {hh : Nat}
    (hhh : hh < a.heads) :
    (a.grow k v (some cs))[hh]? = some ((cs.getD hh default).1.appendRows (k.sliceCols (hh * a.dk) a.dk),
      (cs.getD hh default).2.appendRows (v.sliceCols (hh * a.dk) a.dk)) := by
  simp only [grow, Array.getElem?_ofFn, dif_pos hhh]

theorem Attention.shape_pack (a : Attention) (heads : Array (Matrix × Matrix)) :
    (a.pack heads).shape = [1, a.heads, (heads[0]?.map (fun p => p.1.rows)).getD 0, 2 * a.dk] :=
  rfl

theorem Attention.size_pack (a : Attention) (heads : Array (Matrix × Matrix)) :
    (a.pack heads).data.size =
      heads.size * ((heads[0]?.map (fun p => p.1.rows)).getD 0 * (2 * a.dk)) := by
  show (heads.foldl (fun acc p => acc ++ (Matrix.ofFn _ (2 * a.dk) fun i j =>
    if j < a.dk then p.1.get i j else p.2.get i (j - a.dk)).data) #[]).size = _
  rw [← Array.foldl_toList, size_foldl_append _ _ (fun p _ => Matrix.size_ofFn _ _ _), Array.size_empty, Nat.zero_add,
    Array.length_toList]

theorem Attention.getD_pack (a : Attention) (heads : Array (Matrix × Matrix)) {t : Nat}
    (ht : (heads[0]?.map (fun p => p.1.rows)).getD 0 = t) {hh i c : Nat} (hhh : hh < heads.size)
    (hi : i < t) (hc : c < 2 * a.dk) :
    (a.pack heads).data.getD (entryPos a.heads t (2 * a.dk) 0 hh i c) 0 =
      if c < a.dk then heads[hh].1.get i c else heads[hh].2.get i (c - a.dk) := by
  subst ht
  have hin : i * (2 * a.dk) + c < _ * (2 * a.dk) := mul_add_lt hi hc
  have := getD_foldl_append (fun p : Matrix × Matrix => (Matrix.ofFn _ (2 * a.dk) fun i j =>
    if j < a.dk then p.1.get i j else p.2.get i (j - a.dk)).data) heads.toList
    (fun p _ => Matrix.size_ofFn _ _ _) #[] hh (by simpa using hhh) hin 0
  rw [Array.size_empty, Nat.zero_add] at this
  show (heads.foldl (fun acc p => acc ++ (Matrix.ofFn _ (2 * a.dk) fun i j =>
    if j < a.dk then p.1.get i j else p.2.get i (j - a.dk)).data) #[]).getD _ 0 = _
  rw [← Array.foldl_toList, entryPos_head, this]
  exact Matrix.get_ofFn hi hc

theorem Attention.unpackCache_some {a : Attention} {c : Tensor} {H T W : Nat}
    (hc : c.shape = [1, H, T, W]) (hT : 0 < T) {cached : Option (Array (Matrix × Matrix))}
    (h : a.unpackCache (some c) = .ok cached) :
    H = a.heads ∧ W = 2 * a.dk ∧ ∃ cs, cached = some cs ∧ ∀ hh, hh < H → cs.getD hh default =
      (Matrix.ofFn T a.dk fun i j => c.data.getD (entryPos H T W 0 hh i j) 0,
        Matrix.ofFn T a.dk fun i j => c.data.getD (entryPos H T W 0 hh i (a.dk + j)) 0) := by
  unfold unpackCache at h
  simp only [hc] at h
  rw [if_neg (by simpa using Nat.pos_iff_ne_zero.1 hT)] at h
  split at h
  · cases h
  · rename_i hok
    simp only [bne_iff_ne, ne_eq, Bool.or_eq_true, not_or, Decidable.not_not] at hok
    obtain ⟨⟨-, rfl⟩, rfl⟩ := hok
    cases h
    refine ⟨rfl, rfl, _, rfl, fun hh hhh => ?_⟩
    simp only [Array.getD_eq_getD_getElem?, Array.getElem?_ofFn, dif_pos hhh, Option.getD_some]
    congr 1 <;> (congr 1; funext i j; congr 2; unfold entryPos; ring)

/-- Frame `i` of head `hh` in block `b` of a packed cache `[_, H, T, 2·dk]` holds the key and the
value that the attention gives frame `j` of `memory`: the head's key columns, then its value
columns. -/
def Attention.Holds (a : Attention) (t : Tensor) (H T b hh i : Nat) (memory : Matrix) (j : Nat) : Prop :=
  ∃ k v, a.key.apply memory = .ok k ∧ a.value.apply memory = .ok v ∧ ∀ c, c < a.dk →
    t.data.getD (entryPos H T (2 * a.dk) b hh i c) 0 = k.get j (hh * a.dk + c) ∧
      t.data.getD (entryPos H T (2 * a.dk) b hh i (a.dk + c)) 0 = v.get j (hh * a.dk + c)

theorem Attention.Holds.of_entries {a : Attention} {t u : Tensor} {H T T' b b' hh i i' : Nat}
    {memory : Matrix} {j : Nat} (h : a.Holds t H T b hh i memory j)
    (heq : ∀ c, c < 2 * a.dk → u.data.getD (entryPos H T' (2 * a.dk) b' hh i' c) 0 =
      t.data.getD (entryPos H T (2 * a.dk) b hh i c) 0) :
    a.Holds u H T' b' hh i' memory j := by
  obtain ⟨k, v, hk, hv, hkv⟩ := h
  refine ⟨k, v, hk, hv, fun c hc => ⟨?_, ?_⟩⟩
  · rw [heq c (by omega)]
    exact (hkv c hc).1
  · rw [heq (a.dk + c) (by omega)]
    exact (hkv c hc).2

theorem Attention.apply_cache {a : Attention} {x memory y : Matrix} {vis : Visibility}
    {c grown : Tensor} {H T W : Nat} (hc : c.shape = [1, H, T, W]) (hT : 0 < T)
    (h : a.apply x memory vis (some c) = .ok (y, grown)) :
    grown.shape = [1, H, T + memory.rows, W] ∧ grown.data.size = H * (T + memory.rows) * W ∧
      (∀ hh i cc, hh < H → i < T → cc < W →
        grown.data.getD (entryPos H (T + memory.rows) W 0 hh i cc) 0 =
          c.data.getD (entryPos H T W 0 hh i cc) 0) ∧
      W = 2 * a.dk ∧ ∀ hh j, hh < H → j < memory.rows →
        a.Holds grown H (T + memory.rows) 0 hh (T + j) memory j := by
  obtain ⟨hpos, -, k, v, cached, hk, hv, hcached, rfl⟩ := Attention.apply_ok h
  obtain ⟨rfl, rfl, cs, rfl, hcs⟩ := Attention.unpackCache_some hc hT hcached
  have hrows : ((a.grow k v (some cs))[0]?.map (fun p => p.1.rows)).getD 0 = T + memory.rows := by
    rw [Attention.grow_some _ _ _ _ hpos, hcs 0 hpos]
    simp [Matrix.appendRows, Matrix.sliceCols, Affine.rows_apply hk]
  have hhead : ∀ hh (hhh : hh < (a.grow k v (some cs)).size), (a.grow k v (some cs))[hh] =
      ((Matrix.ofFn T a.dk fun i j => c.data.getD (entryPos a.heads T (2 * a.dk) 0 hh i j) 0).appendRows
        (k.sliceCols (hh * a.dk) a.dk),
      (Matrix.ofFn T a.dk fun i j => c.data.getD (entryPos a.heads T (2 * a.dk) 0 hh i (a.dk + j)) 0).appendRows
        (v.sliceCols (hh * a.dk) a.dk)) := fun hh hhh => by
    rw [Attention.size_grow] at hhh
    obtain ⟨_, hget⟩ := Array.getElem?_eq_some_iff.1 (Attention.grow_some a k v cs hhh)
    rw [hget, hcs hh hhh]
  have hgrown : ∀ hh, hh < a.heads → hh < (a.grow k v (some cs)).size := fun hh hhh => by
    rwa [Attention.size_grow]
  refine ⟨by rw [Attention.shape_pack, hrows], ?_, ?_, rfl, ?_⟩
  · rw [Attention.size_pack, hrows, Attention.size_grow]
    ring
  · intro hh i cc hhh hi hcc
    have hlt : i < T + memory.rows := by omega
    rw [Attention.getD_pack a _ hrows (hgrown hh hhh) hlt hcc, hhead hh (hgrown hh hhh)]
    split
    · rename_i hlo
      rw [Matrix.get_appendRows_left (Matrix.size_ofFn _ _ _) hi hlo, Matrix.get_ofFn hi hlo]
    · rename_i hlo
      have hsub : cc - a.dk < a.dk := by omega
      rw [Matrix.get_appendRows_left (Matrix.size_ofFn _ _ _) hi hsub, Matrix.get_ofFn hi hsub,
        Nat.add_sub_cancel' (Nat.le_of_not_lt hlo)]
  · intro hh j hhh hj
    have hk' : j < k.rows := by rw [Affine.rows_apply hk]; exact hj
    have hv' : j < v.rows := by rw [Affine.rows_apply hv]; exact hj
    refine ⟨k, v, hk, hv, fun cc hcc => ⟨?_, ?_⟩⟩
    · rw [Attention.getD_pack a _ hrows (hgrown hh hhh) (by omega) (by omega),
        if_pos hcc, hhead hh (hgrown hh hhh),
        Matrix.get_appendRows_right (b := k.sliceCols (hh * a.dk) a.dk) (Matrix.size_ofFn T a.dk _) rfl,
        Matrix.get_sliceCols hk' hcc]
    · rw [Attention.getD_pack a _ hrows (hgrown hh hhh) (by omega) (by omega),
        if_neg (by omega), hhead hh (hgrown hh hhh), Nat.add_sub_cancel_left,
        Matrix.get_appendRows_right (b := v.sliceCols (hh * a.dk) a.dk) (Matrix.size_ofFn T a.dk _) rfl,
        Matrix.get_sliceCols hv' hcc]

theorem Attention.unpackCache_batch {a : Attention} {c : Tensor} {b h t w : Nat}
    (hc : c.shape = [b, h, t, w]) (ht : 0 < t) {cached : Option (Array (Matrix × Matrix))}
    (hu : a.unpackCache (some c) = .ok cached) : b = 1 := by
  unfold unpackCache at hu
  simp only [hc] at hu
  rw [if_neg (by simpa using Nat.pos_iff_ne_zero.1 ht)] at hu
  split at hu
  · cases hu
  · rename_i hok
    simp only [bne_iff_ne, ne_eq, Bool.or_eq_true, not_or, Decidable.not_not] at hok
    exact hok.1.1

/-! One block over its slice of the caches, then all blocks. -/

theorem fits_cnnSlice {cnn : Tensor} {Bc D : Nat} {c : ConvModule} (hcnn : cnn.shape = [Bc, 1, D, c.lorder])
    {i : Nat} {cnnI : Option Tensor}
    (h : (if cnn.shape.headD 0 > 0 then some <$> cnn.index? i else pure none) = .ok cnnI) :
    c.Fits cnnI := by
  intro t ht
  split at h
  · unfold Tensor.index? at h
    split at h
    · cases h
      cases ht
      exact ⟨D, by simp [Tensor.row, hcnn]⟩
    · cases h
  · cases h
    cases ht

theorem blockStep_ok {att cnn : Tensor} {vis : Visibility} {B H T W L Bc D : Nat}
    (hatt : att.shape = [B, H, T, W]) (hsize : att.data.size = B * H * T * W) (hT : 0 < T)
    (hB : 0 < B) (hcnn : cnn.shape = [Bc, 1, D, L]) {acc acc' : Matrix × List Tensor × List Tensor}
    {b : EncoderBlock} {i : Nat} (hL : b.conv.lorder = L)
    (h : blockStep att cnn vis acc.1.rows acc (b, i) = .ok acc') :
    i < B ∧ acc'.1.rows = acc.1.rows ∧
      (∃ a, acc'.2.1 = acc.2.1 ++ [a] ∧ a.shape = [1, H, T, W] ∧ a.data.size = H * T * W ∧
        (∀ hh r c, hh < H → c < W → acc.1.rows + r < T →
          a.data.getD (entryPos H T W 0 hh r c) 0 =
            att.data.getD (entryPos H T W i hh (acc.1.rows + r) c) 0) ∧
        W = 2 * b.attention.dk ∧ ∃ memory : Matrix, memory.rows = acc.1.rows ∧
          ∀ hh r, hh < H → r < T → T ≤ acc.1.rows + r →
            b.attention.Holds a H T 0 hh r memory (acc.1.rows + r - T)) ∧
      ∃ c d, acc'.2.2 = acc.2.2 ++ [c] ∧ c.shape = [1, 1, d, L] := by
  unfold blockStep at h
  obtain ⟨attI, hattI, h⟩ := Except.ite_bind_eq_ok h
  rw [if_pos (by simp [hatt, hB]), Except.pure_eq_ok] at hattI
  subst hattI
  obtain ⟨cnnI, hcnnI, h⟩ := Except.ite_bind_eq_ok h
  obtain ⟨⟨y, a, c⟩, hblock, h⟩ := Except.bind_eq_ok.1 h
  rw [Except.pure_eq_ok] at h
  subst h
  obtain ⟨hrows, hfits, input, out, hin, happ⟩ :=
    EncoderBlock.rows_apply (fits_cnnSlice (hL ▸ hcnn) hcnnI) hblock
  obtain ⟨-, -, k, v, cached, -, -, hcached, -⟩ := Attention.apply_ok happ
  have hslice : (att.sliceRows i (i + 1)).shape =
      [min (i + 1) B - min i (min (i + 1) B), H, T, W] := by
    simp [Tensor.sliceRows, Tensor.numRows, hatt]
  have hi : i < B := by
    have := Attention.unpackCache_batch hslice hT hcached
    omega
  obtain ⟨hshape, hgsize, hentries, hW, hnew⟩ :=
    Attention.apply_cache (Tensor.shape_sliceRows_one hatt hi) hT happ
  have hkeep : T + input.rows - input.rows = T := Nat.add_sub_cancel T input.rows
  have hkept : ∀ hh r cc, hh < H → r < T → cc < W →
      (dropCached a input.rows).data.getD (entryPos H T W 0 hh r cc) 0 =
        a.data.getD (entryPos H (T + input.rows) W 0 hh (input.rows + r) cc) 0 := by
    intro hh r cc hhh hr hcc
    have hdrop := getD_dropCached hshape (Nat.le_add_left input.rows T) (Nat.zero_lt_one) hhh
      (show r < T + input.rows - input.rows by omega) hcc
    rwa [hkeep] at hdrop
  refine ⟨hi, hrows, ⟨dropCached a acc.1.rows, rfl, ?_, ?_, ?_, hW, input, hin, ?_⟩, ?_⟩
  · rw [← hin, shape_dropCached hshape, Nat.min_eq_left (Nat.le_add_left _ _), hkeep]
  · rw [← hin, size_dropCached hshape, Nat.min_eq_left (Nat.le_add_left _ _), hkeep, Nat.one_mul]
  · intro hh r cc hhh hcc hr
    rw [← hin, hkept hh r cc hhh (by omega) hcc, hentries hh (input.rows + r) cc hhh (by omega) hcc,
      Tensor.getD_sliceRows hatt hsize hi hhh (by omega) hcc]
  · intro hh r hhh hr hle
    refine (hnew hh (acc.1.rows + r - T) hhh (by omega)).of_entries fun cc hcc => ?_
    rw [← hW] at hcc ⊢
    rw [← hin, hkept hh r cc hhh hr hcc, Nat.add_sub_cancel' (show T ≤ input.rows + r by omega)]
  · obtain ⟨d, hd⟩ := hfits c rfl
    exact ⟨c.unsqueeze, d, rfl, by simp [Tensor.unsqueeze, hd, hL]⟩

theorem foldlM_zipIdx_invariant {α β ε : Type} {f : β → α × Nat → Except ε β} (P : Nat → β → Prop)
    (l : List α) (n : Nat)
    (hstep : ∀ i acc acc' a, (a, i) ∈ l.zipIdx n → P i acc → f acc (a, i) = .ok acc' → P (i + 1) acc') :
    ∀ (init r : β), P n init → (l.zipIdx n).foldlM f init = .ok r → P (n + l.length) r := by
  induction l generalizing n with
  | nil =>
    intro init r hinit h
    cases h
    exact hinit
  | cons a l ih =>
    intro init r hinit h
    rw [List.zipIdx_cons, List.foldlM_cons] at h
    obtain ⟨mid, hmid, h⟩ := Except.bind_eq_ok.1 h
    have hhead : (a, n) ∈ (a :: l).zipIdx n := by
      rw [List.zipIdx_cons]
      exact List.mem_cons_self
    have htail : ∀ b i, (b, i) ∈ l.zipIdx (n + 1) → (b, i) ∈ (a :: l).zipIdx n := fun b i hb => by
      rw [List.zipIdx_cons]
      exact List.mem_cons_of_mem _ hb
    have := ih (n + 1) (fun i acc acc' b hb => hstep i acc acc' b (htail b i hb)) mid r
      (hstep n init mid a hhead hinit hmid) h
    rwa [List.length_cons, Nat.add_comm l.length 1, ← Nat.add_assoc]

/-- What the blocks `blks` keep after `i` of them ran over frames of `n` rows: each kept cache
holds the frames of its slice from `n` on and then the keys and values of its block. -/
structure Kept (att : Tensor) (blks : List EncoderBlock) (H T W L n i : Nat)
    (acc : Matrix × List Tensor × List Tensor) : Prop where
  rows : acc.1.rows = n
  atts : acc.2.1.length = i
  cnns : acc.2.2.length = i
  blocks : ∀ j a, acc.2.1[j]? = some a → a.shape = [1, H, T, W] ∧ a.data.size = H * T * W ∧
    ∀ hh r c, hh < H → c < W → n + r < T →
      a.data.getD (entryPos H T W 0 hh r c) 0 = att.data.getD (entryPos H T W j hh (n + r) c) 0
  keys : ∀ (j : Nat) a, acc.2.1[j]? = some a → ∃ blk : EncoderBlock, blks[j]? = some blk ∧ W = 2 * blk.attention.dk ∧
    ∃ memory : Matrix, memory.rows = n ∧ ∀ hh r, hh < H → r < T → T ≤ n + r →
      blk.attention.Holds a H T 0 hh r memory (n + r - T)
  convs : ∀ c ∈ acc.2.2, ∃ d, c.shape = [1, 1, d, L]
  present : ∀ j, j < i → j < att.shape.headD 0

theorem kept_step {att cnn : Tensor} {vis : Visibility} {blks : List EncoderBlock} {B H T W L Bc D n : Nat}
    (hatt : att.shape = [B, H, T, W]) (hsize : att.data.size = B * H * T * W) (hT : 0 < T)
    (hB : 0 < B) (hcnn : cnn.shape = [Bc, 1, D, L]) {i : Nat} {acc acc' : Matrix × List Tensor × List Tensor}
    {b : EncoderBlock} (hL : b.conv.lorder = L) (hblk : blks[i]? = some b) (hk : Kept att blks H T W L n i acc)
    (h : blockStep att cnn vis n acc (b, i) = .ok acc') : Kept att blks H T W L n (i + 1) acc' := by
  rw [← hk.rows] at h
  obtain ⟨hi, hrows, ⟨a, hatts, ha, hasize, hentries, hW, memory, hmem, hholds⟩, c, d, hcnns, hc⟩ :=
    blockStep_ok hatt hsize hT hB hcnn hL h
  simp only [hk.rows] at hentries hmem hholds
  have hcases : ∀ j a', acc'.2.1[j]? = some a' → acc.2.1[j]? = some a' ∨ (j = i ∧ a' = a) := by
    intro j a' hj
    rw [hatts] at hj
    by_cases hlt : j < acc.2.1.length
    · rw [List.getElem?_append_left hlt] at hj
      exact .inl hj
    · rw [List.getElem?_append_right (Nat.le_of_not_lt hlt)] at hj
      have hji : j = i := by
        have hlen := (List.getElem?_eq_some_iff.1 hj).1
        have hatts := hk.atts
        simp only [List.length_singleton] at hlen
        omega
      subst hji
      simp only [hk.atts, Nat.sub_self, List.getElem?_cons_zero, Option.some.injEq] at hj
      exact .inr ⟨rfl, hj.symm⟩
  refine ⟨hrows.trans hk.rows, by rw [hatts, List.length_append, hk.atts]; rfl,
    by rw [hcnns, List.length_append, hk.cnns]; rfl, ?_, ?_, ?_, ?_⟩
  · intro j a' hj
    rcases hcases j a' hj with hj | ⟨rfl, rfl⟩
    · exact hk.blocks j a' hj
    · exact ⟨ha, hasize, hentries⟩
  · intro j a' hj
    rcases hcases j a' hj with hj | ⟨rfl, rfl⟩
    · exact hk.keys j a' hj
    · exact ⟨b, hblk, hW, memory, hmem, hholds⟩
  · intro c' hc'
    rw [hcnns, List.mem_append, List.mem_singleton] at hc'
    rcases hc' with hc' | rfl
    · exact hk.convs c' hc'
    · exact ⟨d, hc⟩
  · intro j hj
    by_cases hji : j < i
    · exact hk.present j hji
    · rw [hatt]
      show j < B
      omega

theorem Kept.join {att : Tensor} {blks : List EncoderBlock} {B H T W L n i : Nat}
    (hatt : att.shape = [B, H, T, W]) {x : Matrix} {atts cnns : List Tensor}
    (hkept : Kept att blks H T W L n i (x, atts, cnns)) (hne : atts ≠ []) {a c : Tensor}
    (ha : Tensor.cat atts = .ok a) (hc : Tensor.cat cnns = .ok c) :
    0 < atts.length ∧ atts.length ≤ B ∧ a.shape = [atts.length, H, T, W] ∧
      a.data.size = atts.length * H * T * W ∧
      (∀ b hh r cc, b < atts.length → hh < H → cc < W → n + r < T →
        a.data.getD (entryPos H T W b hh r cc) 0 = att.data.getD (entryPos H T W b hh (n + r) cc) 0) ∧
      (∀ b hh r, b < atts.length → hh < H → r < T → T ≤ n + r → ∃ blk memory, blks[b]? = some blk ∧
        W = 2 * blk.attention.dk ∧ memory.rows = n ∧ blk.attention.Holds a H T b hh r memory (n + r - T)) ∧
      ∃ D', c.shape = [atts.length, 1, D', L] := by
  have hlen : 0 < atts.length := List.length_pos_iff.2 hne
  have hi : atts.length = i := hkept.atts
  obtain ⟨hshape, hasize, hentries⟩ := Tensor.cat_blocks (fun t ht => by
    obtain ⟨j, hj, rfl⟩ := List.getElem_of_mem ht
    exact ⟨(hkept.blocks j _ (List.getElem?_eq_getElem hj)).1,
      (hkept.blocks j _ (List.getElem?_eq_getElem hj)).2.1⟩) ha
  refine ⟨hlen, ?_, hshape, hasize, ?_, ?_, ?_⟩
  · have := hkept.present (atts.length - 1) (by omega)
    rw [hatt] at this
    simp only [List.headD_cons] at this
    omega
  · intro b hh r cc hb hhh hcc hr
    rw [hentries b hh r cc hb hhh (by omega) hcc]
    exact (hkept.blocks b _ (List.getElem?_eq_getElem hb)).2.2 hh r cc hhh hcc hr
  · intro b hh r hb hhh hr hle
    obtain ⟨blk, hblk, hW, memory, hmem, hholds⟩ := hkept.keys b _ (List.getElem?_eq_getElem hb)
    refine ⟨blk, memory, hblk, hW, hmem, (hholds hh r hhh hr hle).of_entries fun cc hcc => ?_⟩
    rw [← hW] at hcc ⊢
    exact hentries b hh r cc hb hhh hr hcc
  · obtain ⟨first, rest, hcons, -, rfl⟩ := Tensor.cat_ok (fun t ht => by
      obtain ⟨d, hd⟩ := hkept.convs t ht
      simp [Tensor.isBlank, hd]) hc
    obtain ⟨d, hd⟩ := hkept.convs first (by rw [hcons]; exact List.mem_cons_self)
    refine ⟨d, ?_⟩
    rw [Tensor.foldl_numRows (fun t ht => by
      obtain ⟨d', hd'⟩ := hkept.convs t ht
      simp [Tensor.numRows, hd']), hd, hkept.cnns, ← hkept.atts]
    simp

theorem cacheStart_required (T n : Nat) (hT : 0 < T) : cacheStart (T + n) (T : Int) = n := by
  unfold cacheStart
  rw [if_neg (by omega), if_neg (by simpa using Nat.pos_iff_ne_zero.1 hT)]
  omega

theorem Encoder.forwardChunk_slides {e : Encoder} {L : Nat} (hL : ∀ b ∈ e.blocks, b.conv.lorder = L)
    {xs att cnn : Tensor} {offset : Int} {mask : Option Mask} {B H T W Bc D : Nat}
    (hatt : att.shape = [B, H, T, W]) (hsize : att.data.size = B * H * T * W) (hT : 0 < T)
    (hB : 0 < B) (hcnn : cnn.shape = [Bc, 1, D, L]) {y : Matrix} {att' cnn' : Tensor}
    (h : e.forwardChunk xs offset T att cnn mask = .ok (y, att', cnn')) :
    ∃ x, e.embed xs offset = .ok x ∧ y.rows = x.rows ∧ ∃ B', 0 < B' ∧ B' ≤ B ∧
      att'.shape = [B', H, T, W] ∧ att'.data.size = B' * H * T * W ∧
      (∀ b hh i c, b < B' → hh < H → c < W → x.rows + i < T →
        att'.data.getD (entryPos H T W b hh i c) 0 =
          att.data.getD (entryPos H T W b hh (x.rows + i) c) 0) ∧
      (∀ b hh i, b < B' → hh < H → i < T → T ≤ x.rows + i → ∃ blk memory, e.blocks[b]? = some blk ∧
        W = 2 * blk.attention.dk ∧ memory.rows = x.rows ∧
        blk.attention.Holds att' H T b hh i memory (x.rows + i - T)) ∧
      ∃ D', cnn'.shape = [B', 1, D', L] := by
  unfold forwardChunk at h
  obtain ⟨x, hx, h⟩ := Except.bind_eq_ok.1 h
  obtain ⟨vis, -, h⟩ := Except.bind_eq_ok.1 h
  obtain ⟨⟨x', atts, cnns⟩, hfold, h⟩ := Except.bind_eq_ok.1 h
  rw [hatt] at hfold
  simp only [List.getD_cons_succ, List.getD_cons_zero] at hfold
  rw [cacheStart_required T x.rows hT] at hfold
  have hkept : Kept att e.blocks H T W L x.rows e.blocks.length (x', atts, cnns) := by
    have := foldlM_zipIdx_invariant (fun i acc => Kept att e.blocks H T W L x.rows i acc) e.blocks 0
      (fun i acc acc' b hb hk hs =>
        have hblk : e.blocks[i]? = some b := List.mem_zipIdx_iff_getElem?.1 hb
        kept_step hatt hsize hT hB hcnn (hL b (List.mem_of_getElem? hblk)) hblk hk hs) (x, [], [])
      _ ⟨rfl, rfl, rfl, by simp, by simp, by simp, by simp⟩ hfold
    rwa [Nat.zero_add] at this
  dsimp only at h
  split at h <;> obtain ⟨x'', hx'', h⟩ := Except.bind_eq_ok.1 h
  on_goal 1 => replace hx'' : x''.rows = x'.rows := Norm.rows_apply hx''
  on_goal 2 => replace hx'' : x''.rows = x'.rows := by cases hx''; rfl
  all_goals
    obtain ⟨hne, h⟩ := Except.ite_throw_eq_ok h
    obtain ⟨a, ha, h⟩ := Except.bind_eq_ok.1 h
    obtain ⟨c, hc, h⟩ := Except.bind_eq_ok.1 h
    rw [Except.pure_eq_ok, Prod.mk.injEq, Prod.mk.injEq] at h
    obtain ⟨rfl, rfl, rfl⟩ := h
    exact ⟨x, hx, hx''.trans hkept.rows, atts.length, hkept.join hatt (by simpa using hne) ha hc⟩

end Network

end SpeechStream
