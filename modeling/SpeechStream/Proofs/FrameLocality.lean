import SpeechStream.Proofs.EncoderContract
/-!
Layers that work frame by frame.

Most layers of the network compute each output frame from one input frame alone. A layer
normalization reads the numbers of the frame it normalizes (`Norm.sameRow_apply`); a linear map
and a pointwise convolution form each output number as a chain over the numbers of one frame
(`Affine.sameRow_apply`, `Affine.sameRow_applyPointwise`). So frames that hold the same numbers,
in one matrix or in two, are mapped to frames that hold the same numbers (`Matrix.SameRow`),
whatever the other frames hold. The kernels read nothing past the range they are given
(`Kernel.dotAt_congr` and its kin), and a normalization sees a frame as the slice of the array
that holds it, which is the frame itself for a matrix whose array holds exactly its rows
(`Matrix.Dense`).
-/

set_option autoImplicit false

namespace SpeechStream

namespace Matrix

/-- A matrix whose array holds exactly its rows times its columns numbers, as every matrix the
layers build does. -/
def Dense (m : Matrix) : Prop := m.data.size = m.rows * m.cols

/-- Row `i` of `a` and row `j` of `b` hold the same numbers in their first `w` columns. -/
def SameRow (w : Nat) (a : Matrix) (i : Nat) (b : Matrix) (j : Nat) : Prop :=
  ∀ k, k < w → a.get i k = b.get j k

theorem SameRow.symm {w i j : Nat} {a b : Matrix} (h : SameRow w a i b j) : SameRow w b j a i :=
  fun k hk => (h k hk).symm

theorem SameRow.trans {w i j l : Nat} {a b c : Matrix} (h₁ : SameRow w a i b j)
    (h₂ : SameRow w b j c l) : SameRow w a i c l :=
  fun k hk => (h₁ k hk).trans (h₂ k hk)

theorem dense_ofFn (r c : Nat) (f : Nat → Nat → Float32) : (ofFn r c f).Dense :=
  size_ofFn r c f

theorem ofFn_congr {r c : Nat} {f g : Nat → Nat → Float32}
    (h : ∀ i j, i < r → j < c → f i j = g i j) : ofFn r c f = ofFn r c g := by
  unfold ofFn
  congr 1
  apply Array.ext (by simp)
  intro k hk _
  have hk' : k < r * c := by simpa using hk
  have hc : 0 < c := Nat.pos_of_ne_zero fun hc => by simp [hc] at hk'
  simp only [Array.getElem_ofFn]
  exact h _ _ (Nat.div_lt_of_lt_mul (by rwa [Nat.mul_comm])) (Nat.mod_lt k hc)

theorem ext_get {a b : Matrix} (ha : a.Dense) (hb : b.Dense) (hr : a.rows = b.rows)
    (hc : a.cols = b.cols) (h : ∀ i j, i < a.rows → j < a.cols → a.get i j = b.get i j) :
    a = b := by
  obtain ⟨r, c, da⟩ := a
  obtain ⟨r', c', db⟩ := b
  dsimp only at hr hc
  subst hr hc
  unfold Dense at ha hb
  dsimp only at ha hb h
  congr 1
  apply Array.ext (by rw [ha, hb])
  intro n hn hn'
  have hc0 : 0 < c := Nat.pos_of_ne_zero fun hc => by simp [hc, ha] at hn
  have hentry := h (n / c) (n % c) (Nat.div_lt_of_lt_mul (by rw [Nat.mul_comm, ← ha]; exact hn))
    (Nat.mod_lt n hc0)
  simp only [get, Nat.div_add_mod', Array.getD_eq_getD_getElem?, Array.getElem?_eq_getElem hn,
    Array.getElem?_eq_getElem hn', Option.getD_some] at hentry
  exact hentry

theorem dense_appendRows {a b : Matrix} (ha : a.Dense) (hb : b.Dense) (hc : b.cols = a.cols) :
    (a.appendRows b).Dense := by
  unfold Dense at *
  simp only [appendRows, Array.size_append, ha, hb, hc, Nat.add_mul]

theorem dense_sliceRows {m : Matrix} (hm : m.Dense) (lo hi : Nat) : (m.sliceRows lo hi).Dense := by
  unfold Dense at *
  simp only [sliceRows, Array.size_extract, hm]
  rw [Nat.min_eq_left (Nat.mul_le_mul_right _ (Nat.min_le_right hi m.rows)), Nat.sub_mul]

theorem size_row {m : Matrix} (hm : m.Dense) {i : Nat} (hi : i < m.rows) : (m.row i).size = m.cols := by
  unfold Dense at hm
  have hend : i * m.cols + m.cols ≤ m.rows * m.cols := by
    rw [← Nat.succ_mul]; exact Nat.mul_le_mul_right _ hi
  simp only [row, Array.size_extract, hm, Nat.succ_mul, Nat.min_eq_left hend, Nat.add_sub_cancel_left]

theorem row_eq_of_sameRow {a b : Matrix} (ha : a.Dense) (hb : b.Dense) (hcols : a.cols = b.cols)
    {i j : Nat} (hi : i < a.rows) (hj : j < b.rows) (h : SameRow a.cols a i b j) :
    a.row i = b.row j := by
  apply Array.ext (by rw [size_row ha hi, size_row hb hj, hcols])
  intro k hk hk'
  have hka : k < a.cols := by rwa [size_row ha hi] at hk
  have hentry := h k hka
  have hina : i * a.cols + k < a.data.size := by rw [ha]; exact mul_add_lt hi hka
  have hinb : j * b.cols + k < b.data.size := by rw [hb]; exact mul_add_lt hj (hcols ▸ hka)
  unfold get at hentry
  rw [Array.getD_eq_getD_getElem?, Array.getElem?_eq_getElem hina, Option.getD_some,
    Array.getD_eq_getD_getElem?, Array.getElem?_eq_getElem hinb, Option.getD_some] at hentry
  simp only [row, Array.getElem_extract]
  exact hentry

/-- `a` holds the frames `s .. s + a.rows - 1` of `b`, in order: a window of `b`'s frames. -/
structure Window (a b : Matrix) (s : Nat) : Prop where
  cols : a.cols = b.cols
  fits : s + a.rows ≤ b.rows
  same : ∀ r, r < a.rows → SameRow a.cols a r b (s + r)

theorem Window.refl (m : Matrix) : Window m m 0 :=
  ⟨rfl, by omega, fun r _ k _ => by rw [Nat.zero_add]⟩

theorem Window.trans {a b c : Matrix} {s s' : Nat} (h₁ : Window a b s) (h₂ : Window b c s') :
    Window a c (s' + s) where
  cols := h₁.cols.trans h₂.cols
  fits := by have := h₁.fits; have := h₂.fits; omega
  same r hr k hk := by
    rw [h₁.same r hr k hk, Nat.add_assoc]
    exact h₂.same (s + r) (by have := h₁.fits; omega) k (h₁.cols ▸ hk)

theorem Window.cast {a b : Matrix} {s s' : Nat} (h : Window a b s) (e : s = s') : Window a b s' :=
  e ▸ h

theorem window_sliceRows {m : Matrix} {lo hi : Nat} (hlo : lo ≤ hi) (hhi : hi ≤ m.rows) :
    Window (m.sliceRows lo hi) m lo where
  cols := rfl
  fits := by simp only [sliceRows, Nat.min_eq_left hhi, Nat.min_eq_left hlo]; omega
  same r hr k hk := by
    simp only [sliceRows, Nat.min_eq_left hhi, Nat.min_eq_left hlo] at hr
    exact get_sliceRows (by omega) hhi hk

theorem window_appendRows_left {a : Matrix} (b : Matrix) (ha : a.Dense) :
    Window a (a.appendRows b) 0 where
  cols := rfl
  fits := by simp only [appendRows]; omega
  same r hr k hk := by rw [Nat.zero_add]; exact (get_appendRows_left ha hr hk).symm

theorem window_appendRows_right {a b : Matrix} (ha : a.Dense) (hc : b.cols = a.cols) :
    Window b (a.appendRows b) a.rows where
  cols := hc
  fits := by simp only [appendRows]; omega
  same r _ k _ := (get_appendRows_right ha hc r k).symm

theorem Window.appendRows {a b c : Matrix} {s : Nat} (ha : a.Dense) (h₁ : Window a c s)
    (h₂ : Window b c (s + a.rows)) : Window (a.appendRows b) c s where
  cols := h₁.cols
  fits := by have := h₂.fits; simp only [Matrix.appendRows]; omega
  same r hr k hk := by
    have hbc : b.cols = a.cols := h₂.cols.trans h₁.cols.symm
    by_cases hra : r < a.rows
    · rw [get_appendRows_left ha hra hk]
      exact h₁.same r hra k hk
    · obtain ⟨i, rfl⟩ := Nat.exists_eq_add_of_le (Nat.le_of_not_lt hra)
      simp only [Matrix.appendRows] at hr
      rw [get_appendRows_right ha hbc i k, ← Nat.add_assoc]
      exact h₂.same i (by omega) k (hbc ▸ hk)

theorem Window.eq {a b c : Matrix} {s : Nat} (ha : a.Dense) (hb : b.Dense) (h₁ : Window a c s)
    (h₂ : Window b c s) (hr : a.rows = b.rows) : a = b :=
  ext_get ha hb hr (h₁.cols.trans h₂.cols.symm) fun i j hi hj =>
    (h₁.same i hi j hj).trans (h₂.same i (hr ▸ hi) j (by rw [h₂.cols, ← h₁.cols]; exact hj)).symm

theorem Window.appendRows_eq {a b c : Matrix} (ha : a.Dense) (hb : b.Dense) (hc : c.Dense)
    (h₁ : Window a c 0) (h₂ : Window b c a.rows) (hr : a.rows + b.rows = c.rows) :
    a.appendRows b = c :=
  Window.eq (dense_appendRows ha hb (h₂.cols.trans h₁.cols.symm)) hc
    (h₁.appendRows ha (h₂.cast (Nat.zero_add _).symm)) (Window.refl c) hr

/-! Rows mapped one by one. -/

theorem get_mapRows {f : Array Float32 → Array Float32} (hf : ∀ row, (f row).size = row.size)
    {m : Matrix} (hm : m.Dense) {i k : Nat} (hi : i < m.rows) (hk : k < m.cols) :
    (m.mapRows f).get i k = (f (m.row i)).getD k 0 := by
  have hsize : ∀ r ∈ List.range m.rows, (f (m.row r)).size = m.cols := fun r hr => by
    rw [hf, size_row hm (List.mem_range.1 hr)]
  have := getD_foldl_append (fun r => f (m.row r)) (List.range m.rows) hsize #[] i
    (by rwa [List.length_range]) hk 0
  rw [Array.size_empty, Nat.zero_add, List.getElem_range] at this
  exact this

theorem dense_mapRows {f : Array Float32 → Array Float32} (hf : ∀ row, (f row).size = row.size)
    {m : Matrix} (hm : m.Dense) : (m.mapRows f).Dense := by
  have hsize : ∀ r ∈ List.range m.rows, (f (m.row r)).size = m.cols := fun r hr => by
    rw [hf, size_row hm (List.mem_range.1 hr)]
  unfold Dense mapRows
  rw [size_foldl_append (fun r => f (m.row r)) _ hsize, Array.size_empty, Nat.zero_add,
    List.length_range]

theorem sameRow_mapRows {f : Array Float32 → Array Float32} (hf : ∀ row, (f row).size = row.size)
    {a b : Matrix} (ha : a.Dense) (hb : b.Dense) (hcols : a.cols = b.cols) {i j : Nat}
    (hi : i < a.rows) (hj : j < b.rows) (h : SameRow a.cols a i b j) :
    SameRow a.cols (a.mapRows f) i (b.mapRows f) j := fun k hk => by
  rw [get_mapRows hf ha hi hk, get_mapRows hf hb hj (hcols ▸ hk),
    row_eq_of_sameRow ha hb hcols hi hj h]

theorem Window.mapRows {f : Array Float32 → Array Float32} (hf : ∀ row, (f row).size = row.size)
    {a b : Matrix} {s : Nat} (ha : a.Dense) (hb : b.Dense) (h : Window a b s) :
    Window (a.mapRows f) (b.mapRows f) s where
  cols := h.cols
  fits := h.fits
  same r hr := sameRow_mapRows hf ha hb h.cols hr (by have := h.fits; change r < a.rows at hr; omega)
    (h.same r hr)

theorem sameRow_ofFn_frames (dot : Array Float32 → Nat → Array Float32 → Nat → Nat → Float32)
    (hdot : ∀ x x' i i' w j n, (∀ k, k < n → x.getD (i + k) 0 = x'.getD (i' + k) 0) →
      dot x i w j n = dot x' i' w j n)
    (w : Array Float32) (bias : Nat → Float32) (m : Nat) {a b : Matrix} (hcols : a.cols = b.cols)
    {i j : Nat} (hi : i < a.rows) (hj : j < b.rows) (h : SameRow a.cols a i b j) :
    SameRow m (ofFn a.rows m fun i o => dot a.data (i * a.cols) w (o * a.cols) a.cols + bias o) i
      (ofFn b.rows m fun i o => dot b.data (i * b.cols) w (o * b.cols) b.cols + bias o) j := by
  intro o ho
  have hrow : ∀ k, k < a.cols → a.data.getD (i * a.cols + k) 0 = b.data.getD (j * b.cols + k) 0 := h
  rw [get_ofFn hi ho, get_ofFn hj ho]
  rw [hcols] at hrow ⊢
  rw [hdot _ _ _ _ _ _ _ hrow]

end Matrix

namespace Kernel

theorem dotAt_congr {a a' b b' : Array Float32} {i i' j j' n : Nat}
    (ha : ∀ k, k < n → a.getD (i + k) 0 = a'.getD (i' + k) 0)
    (hb : ∀ k, k < n → b.getD (j + k) 0 = b'.getD (j' + k) 0) :
    dotAt a i b j n = dotAt a' i' b' j' n := by
  unfold dotAt
  congr 1
  funext k hk acc
  rw [ha k hk, hb k hk]

theorem chainAt_congr {a a' b b' : Array Float32} {i i' j j' n : Nat}
    (ha : ∀ k, k < n → a.getD (i + k) 0 = a'.getD (i' + k) 0)
    (hb : ∀ k, k < n → b.getD (j + k) 0 = b'.getD (j' + k) 0) :
    chainAt a i b j n = chainAt a' i' b' j' n := by
  unfold chainAt
  congr 1
  funext k hk acc
  rw [ha k hk, hb k hk]

theorem pairedChainAt_congr {a a' b b' : Array Float32} {i i' j j' n : Nat}
    (ha : ∀ k, k < n → a.getD (i + k) 0 = a'.getD (i' + k) 0)
    (hb : ∀ k, k < n → b.getD (j + k) 0 = b'.getD (j' + k) 0) :
    pairedChainAt a i b j n = pairedChainAt a' i' b' j' n := by
  unfold pairedChainAt
  dsimp only
  congr 1
  · congr 1
    funext k hk acc
    rw [ha (2 * k) (by omega), hb (2 * k) (by omega)]
  · congr 1
    funext k hk acc
    simp only [Nat.add_assoc, ha (2 * k + 1) (by omega), hb (2 * k + 1) (by omega)]

end Kernel

open SpeechStream.Matrix Network

theorem Affine.sameRow_apply {f : Affine} {a b a' b' : Matrix} (hcols : a.cols = b.cols) {i j : Nat}
    (hi : i < a.rows) (hj : j < b.rows) (h : SameRow a.cols a i b j) (ha : f.apply a = .ok a')
    (hb : f.apply b = .ok b') : SameRow a'.cols a' i b' j := by
  unfold Affine.apply at ha hb
  split at ha
  · cases ha
  split at hb
  · cases hb
  cases ha
  cases hb
  by_cases hsmall : f.weight.rows < 8
  · simp only [if_pos hsmall]
    exact sameRow_ofFn_frames Kernel.pairedChainAt
      (fun _ _ _ _ _ _ _ hx => Kernel.pairedChainAt_congr hx fun _ _ => rfl) f.weight.data
      (fun o => f.bias.getD o 0) f.weight.rows hcols hi hj h
  · simp only [if_neg hsmall]
    exact sameRow_ofFn_frames Kernel.chainAt
      (fun _ _ _ _ _ _ _ hx => Kernel.chainAt_congr hx fun _ _ => rfl) f.weight.data
      (fun o => f.bias.getD o 0) f.weight.rows hcols hi hj h

theorem Affine.sameRow_applyPointwise {f : Affine} {a b a' b' : Matrix} (hcols : a.cols = b.cols)
    {i j : Nat} (hi : i < a.rows) (hj : j < b.rows) (h : SameRow a.cols a i b j)
    (ha : f.applyPointwise a = .ok a') (hb : f.applyPointwise b = .ok b') :
    SameRow a'.cols a' i b' j := by
  unfold Affine.applyPointwise at ha hb
  split at ha
  · cases ha
  split at hb
  · cases hb
  cases ha
  cases hb
  exact sameRow_ofFn_frames Kernel.chainAt
    (fun _ _ _ _ _ _ _ hx => Kernel.chainAt_congr hx fun _ _ => rfl) f.weight.data
    (fun o => f.bias.getD o 0) f.weight.rows hcols hi hj h

theorem Affine.window_apply {f : Affine} {a b a' b' : Matrix} {s : Nat} (h : Window a b s)
    (ha : f.apply a = .ok a') (hb : f.apply b = .ok b') : Window a' b' s where
  cols := (Affine.cols_apply ha).trans (Affine.cols_apply hb).symm
  fits := by rw [Affine.rows_apply ha, Affine.rows_apply hb]; exact h.fits
  same r hr := by
    rw [Affine.rows_apply ha] at hr
    exact Affine.sameRow_apply h.cols hr (by have := h.fits; omega) (h.same r hr) ha hb

theorem Affine.window_applyPointwise {f : Affine} {a b a' b' : Matrix} {s : Nat} (h : Window a b s)
    (ha : f.applyPointwise a = .ok a') (hb : f.applyPointwise b = .ok b') : Window a' b' s where
  cols := (Affine.cols_applyPointwise ha).trans (Affine.cols_applyPointwise hb).symm
  fits := by rw [Affine.rows_applyPointwise ha, Affine.rows_applyPointwise hb]; exact h.fits
  same r hr := by
    rw [Affine.rows_applyPointwise ha] at hr
    exact Affine.sameRow_applyPointwise h.cols hr (by have := h.fits; omega) (h.same r hr) ha hb

theorem Affine.width_of_apply {f : Affine} {x y : Matrix} (h : f.apply x = .ok y) :
    x.cols = f.weight.cols := by
  by_contra hne
  rw [Affine.apply_of_cols_ne hne] at h
  cases h

theorem Affine.dense_apply {f : Affine} {x y : Matrix} (h : f.apply x = .ok y) : y.Dense := by
  unfold Affine.apply at h
  split at h
  · cases h
  · cases h
    exact dense_ofFn _ _ _

theorem Affine.dense_applyPointwise {f : Affine} {x y : Matrix} (h : f.applyPointwise x = .ok y) :
    y.Dense := by
  unfold Affine.applyPointwise at h
  split at h
  · cases h
  · cases h
    exact dense_ofFn _ _ _

theorem Affine.apply_appendRows {f : Affine} {a b a' b' : Matrix} (ha : a.Dense)
    (hc : b.cols = a.cols) (ha' : f.apply a = .ok a') (hb' : f.apply b = .ok b') :
    f.apply (a.appendRows b) = .ok (a'.appendRows b') := by
  have hw : a.cols = f.weight.cols := Affine.width_of_apply ha'
  obtain ⟨y, hy, -, -⟩ := Affine.apply_ok (show (a.appendRows b).cols = f.weight.cols from hw)
  have hup := Affine.window_apply (window_appendRows_left b ha) ha' hy
  have hdown := Affine.window_apply (window_appendRows_right ha hc) hb' hy
  rw [hy, Window.appendRows_eq (Affine.dense_apply ha') (Affine.dense_apply hb') (Affine.dense_apply hy)
    hup (by rwa [Affine.rows_apply ha']) (by rw [Affine.rows_apply ha', Affine.rows_apply hb',
      Affine.rows_apply hy, rows_appendRows])]

@[simp] theorem Norm.size_normalizeRow (n : Norm) (row : Array Float32) :
    (n.normalizeRow row).size = row.size := by
  simp only [Norm.normalizeRow, Array.size_ofFn]

theorem Norm.eq_mapRows_of_apply {n : Norm} {x y : Matrix} (h : n.apply x = .ok y) :
    y = x.mapRows n.normalizeRow := by
  unfold Norm.apply at h
  split at h
  · cases h
  · cases h
    rfl

theorem Norm.dense_apply {n : Norm} {x y : Matrix} (hx : x.Dense) (h : n.apply x = .ok y) :
    y.Dense := by
  rw [Norm.eq_mapRows_of_apply h]
  exact dense_mapRows n.size_normalizeRow hx

theorem Norm.window_apply {n : Norm} {a b a' b' : Matrix} {s : Nat} (ha : a.Dense) (hb : b.Dense)
    (h : Window a b s) (ha' : n.apply a = .ok a') (hb' : n.apply b = .ok b') : Window a' b' s := by
  rw [Norm.eq_mapRows_of_apply ha', Norm.eq_mapRows_of_apply hb']
  exact h.mapRows n.size_normalizeRow ha hb

end SpeechStream
