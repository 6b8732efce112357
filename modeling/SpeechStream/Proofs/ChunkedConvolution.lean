import SpeechStream.Proofs.FrameLocality
/-!
The causal convolution runs chunk by chunk as over the whole input.

The convolution module normalizes its frames and joins them behind a left context of `lorder`
frames: zeros before the first chunk (`ConvModule.join_none`), the frames its cache keeps
afterwards (`ConvModule.join_cached`). The layers after the join work frame by frame, except the
channel-wise convolution, which reads a window of `lorder + 1` joined frames. When the logistic
function of the gate is applied entry by entry, every one of these layers maps a window of joined
frames to the window of outputs it determines (`ConvModule.window_mix`). The cache a chunk leaves
is its last `lorder` joined frames, so the joined frames of the next chunk are a window of the
joined frames of the whole input, and the outputs of two chunks, one after the other, are the
output over the whole input (`ConvModule.chunked_conv_matches_whole`).
-/

set_option autoImplicit false

namespace SpeechStream

namespace Matrix

theorem dense_zeros (r c : Nat) : (zeros r c).Dense := Array.size_replicate

theorem appendRows_of_rows_eq_zero {m : Matrix} (x : Matrix) (hm : m.Dense) (h0 : m.rows = 0)
    (hc : m.cols = x.cols) : m.appendRows x = x := by
  obtain ⟨r, c, data⟩ := m
  unfold Dense at hm
  dsimp only at h0 hc hm
  subst h0 hc
  rw [Nat.zero_mul, Array.size_eq_zero_iff] at hm
  subst hm
  simp [appendRows]

theorem sliceRows_end (m : Matrix) : m.sliceRows m.rows (0 + m.rows) = empty m.cols := by
  simp [sliceRows, empty]

end Matrix

namespace Network

open SpeechStream.Matrix

/-- The layer sizes of a convolution module over frames of `d` channels: both normalizations and
both pointwise convolutions read `d` channels, and the first pointwise convolution writes the
`2·d` channels that the gate halves. -/
structure ConvModule.Shaped (c : ConvModule) (d : Nat) : Prop where
  inNorm : c.inNorm.gain.size = d
  expandIn : c.expand.weight.cols = d
  expandOut : c.expand.weight.rows = 2 * d
  outNorm : c.outNorm.gain.size = d
  projectIn : c.project.weight.cols = d

/-! The frames the module joins. -/

theorem ConvModule.join_none (c : ConvModule) (xn : Matrix) :
    c.join xn none = .ok ((zeros c.lorder xn.cols).appendRows xn,
      ((zeros c.lorder xn.cols).appendRows xn).sliceRows xn.rows (c.lorder + xn.rows)) := by
  unfold ConvModule.join
  split
  · rename_i hzero
    rw [beq_iff_eq] at hzero
    rw [hzero, appendRows_of_rows_eq_zero xn (dense_zeros 0 xn.cols) rfl rfl, sliceRows_end]
    rfl
  · have hrows : ((zeros c.lorder xn.cols).appendRows xn).rows = c.lorder + xn.rows := rfl
    simp only [ConvModule.context, bind, Except.bind, pure, Except.pure, Option.getD_none, hrows,
      Nat.add_sub_cancel_left]

theorem ConvModule.join_cached (c : ConvModule) {xn m : Matrix} {w : Nat} (hm : m.Dense)
    (hrows : m.rows = c.lorder) (hcols : m.cols = xn.cols) (hd : xn.cols = c.inNorm.gain.size)
    (hw : w = c.inNorm.gain.size) :
    c.join xn (some ⟨[1, w, m.rows], m.transpose.data⟩) =
      .ok (m.appendRows xn, (m.appendRows xn).sliceRows xn.rows (c.lorder + xn.rows)) := by
  unfold ConvModule.join
  split
  · rename_i hzero
    rw [beq_iff_eq] at hzero
    rw [hzero, appendRows_of_rows_eq_zero xn hm (hrows.trans hzero) hcols, sliceRows_end]
    rfl
  · rename_i hzero
    have hL : c.lorder ≠ 0 := by simpa using hzero
    have hback : ofFn c.lorder c.inNorm.gain.size
        (fun i j => m.transpose.data.getD (j * c.lorder + i) 0) = m := by
      refine ext_get (dense_ofFn _ _ _) hm hrows.symm (by rw [cols_ofFn, hcols, hd]) ?_
      intro i j hi hj
      rw [rows_ofFn] at hi
      rw [cols_ofFn] at hj
      rw [get_ofFn hi hj, ← hrows, getD_transpose (hrows ▸ hi) (by rw [hcols, hd]; exact hj)]
    have hshape : (⟨[1, w, m.rows], m.transpose.data⟩ : Tensor).shape =
        [1, c.inNorm.gain.size, c.lorder] := by rw [hw, hrows]
    have hrows' : (m.appendRows xn).rows = c.lorder + xn.rows := by rw [rows_appendRows, hrows]
    simp only [ConvModule.context_some xn.rows hshape hL, hback, bind, Except.bind, pure,
      Except.pure, Option.getD_some, hrows', Nat.add_sub_cancel_left]

theorem window_kept {P xn J : Matrix} {s L : Nat} (hP : P.rows = L) (h : Window (P.appendRows xn) J s) :
    Window ((P.appendRows xn).sliceRows xn.rows (L + xn.rows)) J (s + xn.rows) :=
  (window_sliceRows (by omega) (by rw [rows_appendRows, hP])).trans h

theorem ConvModule.Shaped.applyWith_succeeds (σ : Nat → Nat → Float32 → Float32) {c : ConvModule}
    {d : Nat} (hc : c.Shaped d) {x : Matrix} (hx : x.cols = d) (cache : Option Tensor)
    (hcache : ∀ t ∈ cache, t.shape = [1, d, c.lorder]) (hrows : 0 < x.rows) :
    ∃ y out, c.applyWith σ x cache = .ok (y, out) ∧ y.rows = x.rows ∧ out.shape = [1, d, c.lorder] := by
  obtain ⟨y, out, hrun, hy, -, hout⟩ := ConvModule.applyWith_succeeds σ (hx.trans hc.inNorm.symm)
    (hc.expandIn.trans hx.symm) (hc.outNorm.trans hx.symm) (hc.projectIn.trans hx.symm)
    (fun t ht => (hcache t ht).trans (by rw [hc.inNorm])) hrows
  exact ⟨y, out, hrun, hy, hout.trans (by rw [hx])⟩

/-! The layers after the join map windows of joined frames to windows of outputs. -/

theorem ConvModule.window_gate (φ : Float32 → Float32) {g g' : Matrix} {d s : Nat}
    (h : Window g g' s) (hd : d + d ≤ g.cols) :
    Window (ConvModule.gate (fun _ _ => φ) g d) (ConvModule.gate (fun _ _ => φ) g' d) s where
  -- through the width lemma: the kernel, comparing the two gates, unfolds their entries first
  cols := by rw [ConvModule.cols_gate, ConvModule.cols_gate]
  fits := h.fits
  same r hr j hj := by
    change r < g.rows at hr
    change j < d at hj
    rw [ConvModule.gate, ConvModule.gate, get_ofFn hr hj, get_ofFn (by have := h.fits; omega) hj,
      h.same r hr j (by omega), h.same r hr (d + j) (by omega)]

theorem ConvModule.dense_depthwiseConv (c : ConvModule) (m : Matrix) : (c.depthwiseConv m).Dense :=
  dense_ofFn _ _ _

theorem ConvModule.window_depthwiseConv (c : ConvModule) {a b : Matrix} {s : Nat}
    (h : Window a b s) (hlong : c.lorder ≤ a.rows) :
    Window (c.depthwiseConv a) (c.depthwiseConv b) s where
  cols := h.cols
  fits := by have := h.fits; simp only [rows_depthwiseConv]; omega
  same t ht ch hch := by
    simp only [rows_depthwiseConv] at ht
    change ch < a.cols at hch
    have hwin : (Array.ofFn (n := c.lorder + 1) fun i => a.get (t + i.val) ch) =
        Array.ofFn (n := c.lorder + 1) fun i => b.get (s + t + i.val) ch := by
      congr 1
      funext i
      have := i.isLt
      rw [Nat.add_assoc]
      exact h.same (t + i.val) (by omega) ch hch
    unfold ConvModule.depthwiseConv
    dsimp only
    rw [get_ofFn ht hch, get_ofFn (by have := h.fits; omega) (h.cols ▸ hch), hwin]

theorem get_swishBlock (φ : Float32 → Float32) {m : Matrix} (hm : m.Dense) {i k : Nat}
    (hi : i < m.rows) (hk : k < m.cols) :
    (⟨m.rows, m.cols, Activation.swishBlock (fun _ _ => φ) m.data⟩ : Matrix).get i k =
      m.get i k * φ (m.get i k) := by
  have hin : i * m.cols + k < m.data.size := by rw [hm]; exact mul_add_lt hi hk
  unfold Matrix.get Activation.swishBlock
  simp only [Array.getD_eq_getD_getElem?, Array.getElem?_mapIdx, Array.getElem?_eq_getElem hin,
    Option.map_some, Option.getD_some]

theorem window_swishBlock (φ : Float32 → Float32) {a b : Matrix} {s : Nat} (ha : a.Dense)
    (hb : b.Dense) (h : Window a b s) :
    Window ⟨a.rows, a.cols, Activation.swishBlock (fun _ _ => φ) a.data⟩
      ⟨b.rows, b.cols, Activation.swishBlock (fun _ _ => φ) b.data⟩ s where
  cols := h.cols
  fits := h.fits
  same r hr k hk := by
    change r < a.rows at hr
    change k < a.cols at hk
    rw [get_swishBlock φ ha hr hk, get_swishBlock φ hb (by have := h.fits; omega) (h.cols ▸ hk),
      h.same r hr k hk]

theorem ConvModule.window_mix (φ : Float32 → Float32) {c : ConvModule} {d : Nat}
    (hexp : c.expand.weight.rows = 2 * d) {J J' y y' : Matrix} {s : Nat} (h : Window J J' s)
    (hy : c.mix (fun _ _ => φ) J d = .ok y) (hy' : c.mix (fun _ _ => φ) J' d = .ok y') :
    Window y y' s := by
  obtain ⟨g, normed, hg, hlong, hnormed, hout⟩ := ConvModule.steps_of_mix hy
  obtain ⟨g', normed', hg', -, hnormed', hout'⟩ := ConvModule.steps_of_mix hy'
  have hgw : Window g g' s := Affine.window_applyPointwise h hg hg'
  have hgc : g.cols = 2 * d := (Affine.cols_applyPointwise hg).trans hexp
  have hgate : Window (ConvModule.gate (fun _ _ => φ) g d) (ConvModule.gate (fun _ _ => φ) g' d) s :=
    ConvModule.window_gate φ hgw (by omega)
  have hconv := c.window_depthwiseConv hgate (by rw [ConvModule.rows_gate]; omega)
  have hnorm := Norm.window_apply (c.dense_depthwiseConv _) (c.dense_depthwiseConv _) hconv
    hnormed hnormed'
  have hdense := Norm.dense_apply (c.dense_depthwiseConv _) hnormed
  have hdense' := Norm.dense_apply (c.dense_depthwiseConv _) hnormed'
  exact Affine.window_applyPointwise (window_swishBlock φ hdense hdense' hnorm) hout hout'

theorem ConvModule.dense_mix {σ : Nat → Nat → Float32 → Float32} {c : ConvModule}
    {joined y : Matrix} {d : Nat} (h : c.mix σ joined d = .ok y) : y.Dense := by
  obtain ⟨_, _, _, _, _, hout⟩ := ConvModule.steps_of_mix h
  exact Affine.dense_applyPointwise hout

theorem ConvModule.applyWith_window (φ : Float32 → Float32) {c : ConvModule} {d : Nat}
    (hexp : c.expand.weight.rows = 2 * d) {X XN Y : Matrix} (hX : X.Dense) (hXd : X.cols = d)
    (hXN : c.inNorm.apply X = .ok XN)
    (hY : c.mix (fun _ _ => φ) ((zeros c.lorder d).appendRows XN) d = .ok Y)
    {x : Matrix} {s : Nat} (hx : x.Dense) (hw : Window x X s) {cache : Option Tensor}
    {P : Matrix} (hP : P.Dense) (hPr : P.rows = c.lorder)
    (hPw : Window P ((zeros c.lorder d).appendRows XN) s)
    (hjoin : ∀ xn : Matrix, xn.cols = d → c.join xn cache =
      .ok (P.appendRows xn, (P.appendRows xn).sliceRows xn.rows (c.lorder + xn.rows)))
    {y : Matrix} {out : Tensor} (hrun : c.applyWith (fun _ _ => φ) x cache = .ok (y, out)) :
    y.Dense ∧ Window y Y s ∧ ∃ K : Matrix, K.Dense ∧ K.rows = c.lorder ∧
      Window K ((zeros c.lorder d).appendRows XN) (s + x.rows) ∧
      out = ⟨[1, d, K.rows], K.transpose.data⟩ := by
  obtain ⟨xn, J, next, hxn, hj, hmix, rfl⟩ := ConvModule.steps_of_applyWith hrun
  have hxnc : xn.cols = d := (Norm.cols_apply hxn).trans (hw.cols.trans hXd)
  have hXNc : XN.cols = d := (Norm.cols_apply hXN).trans hXd
  obtain ⟨rfl, rfl⟩ := Prod.mk.inj (Except.ok.inj ((hjoin xn hxnc).symm.trans hj))
  have hnw : Window xn ((zeros c.lorder d).appendRows XN) (s + P.rows) :=
    ((Norm.window_apply hx hX hw hxn hXN).trans (window_appendRows_right (dense_zeros _ _) hXNc)).cast
      (by rw [hPr]; exact Nat.add_comm _ _)
  have hJw := hPw.appendRows hP hnw
  have hKr : ((P.appendRows xn).sliceRows xn.rows (c.lorder + xn.rows)).rows = c.lorder := by
    simp only [rows_sliceRows, rows_appendRows]
    omega
  rw [hxnc] at hmix ⊢
  refine ⟨ConvModule.dense_mix hmix, ConvModule.window_mix φ hexp hJw hmix hY, _, ?_, hKr,
    (window_kept hPr hJw).cast (by rw [Norm.rows_apply hxn]), rfl⟩
  exact dense_sliceRows (dense_appendRows hP (Norm.dense_apply hx hxn) (hxnc.trans hPw.cols.symm)) _ _

/-- The causal convolution is chunk-consistent: with the logistic function of the gate applied
entry by entry, a shaped module run over the first `t` frames of an input without a cache and
then over the rest with the cache it returned succeeds, the two outputs one after the other are
the output over the whole input, and the second run leaves the cache that the whole run leaves. -/
theorem ConvModule.chunked_conv_matches_whole (φ : Float32 → Float32) {c : ConvModule} {d : Nat}
    (hc : c.Shaped d) {x : Matrix} (hx : x.Dense) (hxd : x.cols = d) {t : Nat} (ht : 0 < t)
    (htx : t < x.rows) :
    ∃ y₁ c₁ y₂ c₂ y cw,
      c.applyWith (fun _ _ => φ) (x.sliceRows 0 t) none = .ok (y₁, c₁) ∧
      c.applyWith (fun _ _ => φ) (x.sliceRows t x.rows) (some c₁) = .ok (y₂, c₂) ∧
      c.applyWith (fun _ _ => φ) x none = .ok (y, cw) ∧
      y₁.appendRows y₂ = y ∧ c₂ = cw := by
  have hw₁ : Window (x.sliceRows 0 t) x 0 := window_sliceRows (Nat.zero_le t) htx.le
  have hw₂ : Window (x.sliceRows t x.rows) x t := window_sliceRows htx.le (Nat.le_refl _)
  have hr₁ : (x.sliceRows 0 t).rows = t := by
    simp only [rows_sliceRows, Nat.min_eq_left htx.le, Nat.zero_min, Nat.sub_zero]
  have hr₂ : (x.sliceRows t x.rows).rows = x.rows - t := by
    simp only [rows_sliceRows, Nat.min_self, Nat.min_eq_left htx.le]
  obtain ⟨y₁, c₁, hrun₁, hy₁, hc₁⟩ := hc.applyWith_succeeds (fun _ _ => φ)
    (show (x.sliceRows 0 t).cols = d from hxd) none (by simp) (by omega)
  obtain ⟨y₂, c₂, hrun₂, hy₂, -⟩ := hc.applyWith_succeeds (fun _ _ => φ)
    (show (x.sliceRows t x.rows).cols = d from hxd) (some c₁)
    (fun u hu => by cases hu; exact hc₁) (by omega)
  obtain ⟨y, cw, hrun, hy, -⟩ := hc.applyWith_succeeds (fun _ _ => φ) hxd none (by simp)
    (by omega)
  refine ⟨y₁, c₁, y₂, c₂, y, cw, hrun₁, hrun₂, hrun, ?_⟩
  obtain ⟨XN, J, next, hXN, hjoin, hY, -⟩ := ConvModule.steps_of_applyWith hrun
  have hXNc : XN.cols = d := (Norm.cols_apply hXN).trans hxd
  rw [ConvModule.join_none, hXNc, Except.ok.injEq, Prod.mk.injEq] at hjoin
  obtain ⟨rfl, -⟩ := hjoin
  rw [hXNc] at hY
  have hZ : (zeros c.lorder d).Dense := dense_zeros _ _
  have hstart := window_appendRows_left XN hZ
  have hnone : ∀ xn : Matrix, xn.cols = d → c.join xn none = .ok ((zeros c.lorder d).appendRows xn,
      ((zeros c.lorder d).appendRows xn).sliceRows xn.rows (c.lorder + xn.rows)) := by
    intro xn hxn
    rw [ConvModule.join_none, hxn]
  obtain ⟨hd₁, hy₁w, K₁, hK₁, hK₁r, hK₁w, rfl⟩ := ConvModule.applyWith_window φ hc.expandOut hx
    hxd hXN hY (dense_sliceRows hx 0 t) hw₁ hZ rfl hstart hnone hrun₁
  obtain ⟨hd₂, hy₂w, K₂, hK₂, hK₂r, hK₂w, rfl⟩ := ConvModule.applyWith_window φ hc.expandOut hx
    hxd hXN hY (dense_sliceRows hx t x.rows) hw₂ hK₁ hK₁r (hK₁w.cast (by rw [hr₁, Nat.zero_add]))
    (fun xn hxn => ConvModule.join_cached c hK₁ hK₁r (hK₁w.cols.trans hxn.symm)
      (hxn.trans hc.inNorm.symm) hc.inNorm.symm) hrun₂
  obtain ⟨hd, -, K, hK, hKr, hKw, rfl⟩ := ConvModule.applyWith_window φ hc.expandOut hx hxd hXN
    hY hx (Window.refl x) hZ rfl hstart hnone hrun
  refine ⟨Window.appendRows_eq hd₁ hd₂ hd hy₁w (hy₂w.cast (by rw [hy₁, hr₁]))
    (by rw [hy₁, hy₂, hy, hr₁, hr₂]; omega), ?_⟩
  rw [Window.eq hK₂ hK (hK₂w.cast (by rw [hr₂]; omega)) (hKw.cast (Nat.zero_add _))
    (hK₂r.trans hKr.symm)]

/-- The convolution module of four channels and kernel three with the reference weights, over
five frames split after the first: the first run's cache still holds a frame of padding. -/
theorem chunked_conv_matches_whole_within_the_context :
    let c := Weights.reference.convModule "encoder.encoders.0.conv_module" 4 3
    let x := ofFn 5 4 fun i j => Float32.ofNat (4 * i + j)
    c.Shaped 4 ∧ x.Dense ∧
    ∃ y₁ c₁ y₂ c₂ y cw,
      c.applyWith (fun _ _ => Activation.sigmoid) (x.sliceRows 0 1) none = .ok (y₁, c₁) ∧
      c.applyWith (fun _ _ => Activation.sigmoid) (x.sliceRows 1 x.rows) (some c₁) = .ok (y₂, c₂) ∧
      c.applyWith (fun _ _ => Activation.sigmoid) x none = .ok (y, cw) ∧
      y₁.appendRows y₂ = y ∧ c₂ = cw := by
  intro c x
  have hc : c.Shaped 4 :=
    ⟨by simp [c, Weights.convModule, Weights.norm, Weights.reference, formula], rfl, rfl,
      by simp [c, Weights.convModule, Weights.norm, Weights.reference, formula], rfl⟩
  have hx : x.Dense := dense_ofFn 5 4 _
  exact ⟨hc, hx, ConvModule.chunked_conv_matches_whole Activation.sigmoid hc hx rfl (by decide)
    (by decide)⟩

end Network

end SpeechStream
