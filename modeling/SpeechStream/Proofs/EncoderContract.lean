import SpeechStream.Proofs.AttentionCache
import SpeechStream.Proofs.SubsamplingGeometry
/-!
The contract of one encoder chunk.

Every layer of an encoder block runs on frames of the width it reads and keeps their count:
the normalizations, the linear maps, the attention over its cache and the causal convolution
over its cache. A block built with weights of the sizes asked for, from a configuration whose
heads divide the width, is such a layer stack (`Encoder.build_ok`). So a chunk of frames that
holds the front end's context, with caches of the blocks' shapes, runs through every block
(`Encoder.blocks_run`, with the invariant `Trimmed`): it leaves the frames the front end keeps,
each block's attention cache keeps the last frames of its cached and new keys and values as the
required cache size says (`KeptCache`), and each convolution cache keeps the last `kernel - 1`
frames of the block's cached and normalized convolution input (`KeptConv`). An encoder without
blocks has no caches to join and fails on every chunk.
-/

set_option autoImplicit false

namespace SpeechStream

theorem Except.ite_bind_of_ok {ε α β : Type} {c : Prop} [Decidable c] {a b : Except ε α}
    {k : α → Except ε β} {v : α} {r : β} (hv : (if c then a else b) = .ok v) (hk : k v = .ok r) :
    (if c then a >>= k else b >>= k) = .ok r := by
  by_cases hc : c
  · rw [if_pos hc] at hv ⊢
    rw [hv]
    exact hk
  · rw [if_neg hc] at hv ⊢
    rw [hv]
    exact hk

theorem foldlM_zipIdx_ok {α β ε : Type} {f : β → α × Nat → Except ε β} (P : Nat → β → Prop)
    (l : List α) (n : Nat)
    (hstep : ∀ i acc a, (a, i) ∈ l.zipIdx n → P i acc → ∃ acc', f acc (a, i) = .ok acc' ∧ P (i + 1) acc') :
    ∀ init, P n init → ∃ r, (l.zipIdx n).foldlM f init = .ok r ∧ P (n + l.length) r := by
  induction l generalizing n with
  | nil =>
    intro init hinit
    exact ⟨init, rfl, hinit⟩
  | cons a l ih =>
    intro init hinit
    have hhead : (a, n) ∈ (a :: l).zipIdx n := by
      rw [List.zipIdx_cons]
      exact List.mem_cons_self
    have htail : ∀ b i, (b, i) ∈ l.zipIdx (n + 1) → (b, i) ∈ (a :: l).zipIdx n := fun b i hb => by
      rw [List.zipIdx_cons]
      exact List.mem_cons_of_mem _ hb
    obtain ⟨mid, hmid, hP⟩ := hstep n init a hhead hinit
    obtain ⟨r, hr, hPr⟩ := ih (n + 1) (fun i acc b hb => hstep i acc b (htail b i hb)) mid hP
    refine ⟨r, ?_, ?_⟩
    · rw [List.zipIdx_cons, List.foldlM_cons, hmid]
      exact hr
    · rwa [List.length_cons, Nat.add_comm l.length 1, ← Nat.add_assoc]

theorem getD_extract {α : Type} (xs : Array α) {start stop k : Nat} (hk : start + k < stop)
    (d : α) : (xs.extract start stop).getD k d = xs.getD (start + k) d := by
  rw [Array.getD_eq_getD_getElem?, Array.getElem?_extract, Array.getD_eq_getD_getElem?]
  split
  · rfl
  · rw [Array.getElem?_eq_none (by omega)]

namespace Matrix

theorem cols_zipWith {f : Float32 → Float32 → Float32} {a b c : Matrix}
    (h : zipWith f a b = .ok c) : c.cols = a.cols := by
  unfold zipWith at h
  split at h
  · cases h
    rfl
  · cases h

theorem get_sliceRows {m : Matrix} {lo hi i j : Nat} (hlt : lo + i < hi) (hhi : hi ≤ m.rows)
    (hj : j < m.cols) : (m.sliceRows lo hi).get i j = m.get (lo + i) j := by
  unfold get sliceRows
  simp only [Nat.min_eq_left hhi, Nat.min_eq_left (show lo ≤ hi by omega)]
  have hpos : lo * m.cols + (i * m.cols + j) = (lo + i) * m.cols + j := by ring
  rw [getD_extract _ (by rw [hpos]; exact mul_add_lt hlt hj), hpos]

theorem getD_transpose {m : Matrix} {i j : Nat} (hi : i < m.rows) (hj : j < m.cols) :
    m.transpose.data.getD (j * m.rows + i) 0 = m.get i j :=
  get_ofFn hj hi

end Matrix

namespace Tensor

theorem cat_of_shape {ts : List Tensor} {rest : List Nat} (hne : ts ≠ [])
    (hts : ∀ t ∈ ts, t.shape = 1 :: rest) :
    ∃ u, cat ts = .ok u ∧ u.shape = ts.length :: rest := by
  have hfilter : ts.filter (fun t => !t.isBlank) = ts :=
    List.filter_eq_self.2 (fun t ht => by simp [isBlank, hts t ht])
  obtain ⟨first, others, rfl⟩ := List.exists_cons_of_ne_nil hne
  have hfirst := hts first List.mem_cons_self
  unfold cat
  rw [hfilter]
  dsimp only
  rw [if_neg (by simp [rank, hfirst]), if_pos (List.all_eq_true.2 fun t ht => by
    simp [rank, hfirst, hts t (List.mem_cons_of_mem _ ht)])]
  refine ⟨_, rfl, ?_⟩
  rw [foldl_numRows (fun t ht => by simp [numRows, hts t ht])]
  simp [hfirst]

theorem getD_row {t : Tensor} {B d L : Nat} (hs : t.shape = [B, 1, d, L]) {i j k : Nat}
    (hj : j < d) (hk : k < L) : (t.row i).data.getD (j * L + k) 0 = t.data.getD (entryPos 1 d L i 0 j k) 0 := by
  have hw : t.rowWidth = d * L := by simp [rowWidth, hs, count]
  have hin : j * L + k < d * L := mul_add_lt hj hk
  simp only [row, hw]
  rw [getD_extract _ (by rw [Nat.succ_mul]; exact Nat.add_lt_add_left hin _)]
  congr 1
  unfold entryPos
  ring

end Tensor

end SpeechStream

namespace SpeechStream.Network

/-- Weights that give every tensor the count of numbers asked for. -/
def Weights.Sized (w : Weights) : Prop := ∀ name n, (w.values name n).size = n

theorem Weights.reference_sized : Weights.reference.Sized := fun name n => by
  simp [Weights.reference, formula]

/-! Each layer runs on frames of the width it reads. -/

theorem Norm.apply_ok {n : Norm} {x : Matrix} (h : x.cols = n.gain.size) :
    ∃ y, n.apply x = .ok y ∧ y.rows = x.rows ∧ y.cols = x.cols := by
  unfold Norm.apply
  rw [if_neg (by simp [h])]
  exact ⟨_, rfl, rfl, rfl⟩

theorem Norm.apply_error {n : Norm} {x : Matrix} {e : Fault} (h : n.apply x = .error e) :
    x.cols ≠ n.gain.size := by
  unfold Norm.apply at h
  split at h
  · rename_i hne
    simpa using hne
  · cases h

theorem Norm.width_of_apply {n : Norm} {x y : Matrix} (h : n.apply x = .ok y) :
    x.cols = n.gain.size := by
  by_contra hne
  rw [Norm.apply, if_pos (by simpa using hne)] at h
  cases h

theorem Norm.cols_apply {n : Norm} {x y : Matrix} (h : n.apply x = .ok y) : y.cols = x.cols := by
  unfold Norm.apply at h
  split at h
  · cases h
  · cases h
    rfl

theorem Affine.apply_ok {f : Affine} {x : Matrix} (h : x.cols = f.weight.cols) :
    ∃ y, f.apply x = .ok y ∧ y.rows = x.rows ∧ y.cols = f.weight.rows := by
  unfold Affine.apply
  rw [if_neg (by simp [h])]
  exact ⟨_, rfl, rfl, rfl⟩

theorem Affine.applyPointwise_ok {f : Affine} {x : Matrix} (h : x.cols = f.weight.cols) :
    ∃ y, f.applyPointwise x = .ok y ∧ y.rows = x.rows ∧ y.cols = f.weight.rows := by
  unfold Affine.applyPointwise
  rw [if_neg (by simp [h])]
  exact ⟨_, rfl, rfl, rfl⟩

theorem Affine.applyPointwise_error {f : Affine} {x : Matrix} {e : Fault}
    (h : f.applyPointwise x = .error e) : x.cols ≠ f.weight.cols := by
  unfold Affine.applyPointwise at h
  split at h
  · rename_i hne
    simpa using hne
  · cases h

theorem Affine.cols_applyPointwise {f : Affine} {x y : Matrix} (h : f.applyPointwise x = .ok y) :
    y.cols = f.weight.rows := by
  unfold Affine.applyPointwise at h
  split at h
  · cases h
  · cases h
    rfl

theorem Cmvn.apply_ok {c : Cmvn} {x : Matrix} (h : c.mean.size = x.cols ∨ c.mean.size = 1) :
    ∃ y, c.apply x = .ok y ∧ y.rows = x.rows ∧ y.cols = x.cols := by
  unfold Cmvn.apply
  rw [if_neg (by rcases h with h | h <;> simp [h])]
  exact ⟨_, rfl, rfl, rfl⟩

theorem addFrames_ok {x y : Matrix} (hr : y.rows = x.rows) (hc : y.cols = x.cols) :
    ∃ z, addFrames x y = .ok z ∧ z.rows = x.rows ∧ z.cols = x.cols := by
  unfold addFrames Matrix.add Matrix.zipWith
  simp only [hr, hc, beq_self_eq_true, Bool.and_self, ↓reduceIte]
  exact ⟨_, rfl, rfl, rfl⟩

theorem FeedForward.apply_ok {f : FeedForward} {x : Matrix} (hin : x.cols = f.widen.weight.cols)
    (hmid : f.widen.weight.rows = f.narrow.weight.cols) :
    ∃ y, f.apply x = .ok y ∧ y.rows = x.rows ∧ y.cols = f.narrow.weight.rows := by
  obtain ⟨h, hh, hrows, hcols⟩ := Affine.apply_ok hin
  obtain ⟨y, hy, hyr, hyc⟩ := Affine.apply_ok (f := f.narrow)
    (x := ⟨h.rows, h.cols, f.activation.applyBlock h.data⟩) (by rw [← hmid, ← hcols])
  refine ⟨y, ?_, by rw [hyr, ← hrows], hyc⟩
  simp only [FeedForward.apply, hh, bind, Except.bind]
  exact hy

theorem residual_ok {pre : Bool} {norm : Norm} {x : Matrix} {branch : Matrix → Except Fault Matrix}
    (hnorm : x.cols = norm.gain.size)
    (hbranch : ∀ u, u.rows = x.rows → u.cols = x.cols →
      ∃ v, branch u = .ok v ∧ v.rows = u.rows ∧ v.cols = u.cols) :
    ∃ y, residual pre norm x branch = .ok y ∧ y.rows = x.rows ∧ y.cols = x.cols := by
  cases pre with
  | false =>
    obtain ⟨v, hv, hvr, hvc⟩ := hbranch x rfl rfl
    obtain ⟨z, hz, hzr, hzc⟩ := addFrames_ok hvr hvc
    obtain ⟨y, hy, hyr, hyc⟩ := Norm.apply_ok (hzc.trans hnorm)
    refine ⟨y, ?_, hyr.trans hzr, hyc.trans hzc⟩
    simp [residual, hv, hz, hy, bind, Except.bind, pure, Except.pure]
  | true =>
    obtain ⟨u, hu, hur, huc⟩ := Norm.apply_ok hnorm
    obtain ⟨v, hv, hvr, hvc⟩ := hbranch u hur huc
    obtain ⟨z, hz, hzr, hzc⟩ := addFrames_ok (hvr.trans hur) (hvc.trans huc)
    refine ⟨z, ?_, hzr, hzc⟩
    simp [residual, hu, hv, hz, bind, Except.bind, pure, Except.pure]

theorem Attention.unpackCache_ok {a : Attention} {cache : Option Tensor}
    (h : ∀ t ∈ cache, ∃ T, t.shape = [1, a.heads, T, 2 * a.dk]) :
    ∃ cached, a.unpackCache cache = .ok cached := by
  cases cache with
  | none => exact ⟨none, rfl⟩
  | some t =>
    obtain ⟨T, hT⟩ := h t rfl
    unfold unpackCache
    simp only [hT]
    split
    · exact ⟨none, rfl⟩
    · rw [if_neg (by simp)]
      exact ⟨_, rfl⟩

theorem Attention.applyWith_succeeds
    (valueDot : Bool → Array Float32 → Nat → Array Float32 → Nat → Nat → Float32) {a : Attention}
    {x memory : Matrix} {vis : Visibility} {cache : Option Tensor} (hheads : 0 < a.heads)
    (hq : x.cols = a.query.weight.cols) (hk : memory.cols = a.key.weight.cols)
    (hv : memory.cols = a.value.weight.cols) (hout : a.out.weight.cols = a.heads * a.dk)
    (hcache : ∀ t ∈ cache, ∃ T, t.shape = [1, a.heads, T, 2 * a.dk]) :
    ∃ y grown, a.applyWith valueDot x memory vis cache = .ok (y, grown) ∧ y.rows = x.rows ∧
      y.cols = a.out.weight.rows := by
  obtain ⟨q, hq', -, -⟩ := Affine.apply_ok hq
  obtain ⟨k, hk', -, -⟩ := Affine.apply_ok hk
  obtain ⟨v, hv', -, -⟩ := Affine.apply_ok hv
  obtain ⟨cached, hcached⟩ := Attention.unpackCache_ok hcache
  unfold Attention.applyWith
  rw [if_neg (by simpa using Nat.pos_iff_ne_zero.1 hheads)]
  simp only [hq', hk', hv', hcached, bind, Except.bind]
  split
  · rename_i e he
    exact absurd (by simp [hout]) (Affine.apply_error he)
  · rename_i y hy
    refine ⟨y, _, rfl, ?_, Affine.cols_apply hy⟩
    rw [Affine.rows_apply hy, Attention.rows_attendHeads]

theorem Attention.apply_succeeds {a : Attention} {x : Matrix} {vis : Visibility}
    {cache : Option Tensor} (hheads : 0 < a.heads) (hq : x.cols = a.query.weight.cols)
    (hk : x.cols = a.key.weight.cols) (hv : x.cols = a.value.weight.cols)
    (hout : a.out.weight.cols = a.heads * a.dk)
    (hcache : ∀ t ∈ cache, ∃ T, t.shape = [1, a.heads, T, 2 * a.dk]) :
    ∃ y grown, a.apply x x vis cache = .ok (y, grown) ∧ y.rows = x.rows ∧
      y.cols = a.out.weight.rows :=
  Attention.applyWith_succeeds (fun large => if large then Kernel.chainAt else Kernel.dotAt) hheads
    hq hk hv hout hcache

theorem ConvModule.context_ok {c : ConvModule} {cache : Option Tensor} (frames : Nat)
    (hc : ∀ t ∈ cache, t.shape = [1, c.inNorm.gain.size, c.lorder]) :
    ∃ ctx, c.context cache frames = .ok ctx ∧ ∀ m ∈ ctx, m.cols = c.inNorm.gain.size := by
  cases cache with
  | none => exact ⟨none, rfl, by simp⟩
  | some t =>
    unfold ConvModule.context
    simp only [hc t rfl]
    split
    · exact ⟨none, rfl, by simp⟩
    · rw [if_neg (by simp)]
      exact ⟨_, rfl, by simp⟩

theorem ConvModule.join_ok {c : ConvModule} {xn : Matrix} {cache : Option Tensor}
    (hx : xn.cols = c.inNorm.gain.size)
    (hc : ∀ t ∈ cache, t.shape = [1, c.inNorm.gain.size, c.lorder]) :
    ∃ joined next, c.join xn cache = .ok (joined, next) ∧ joined.cols = xn.cols := by
  unfold ConvModule.join
  split
  · exact ⟨_, _, rfl, rfl⟩
  · obtain ⟨ctx, hctx, hcols⟩ := ConvModule.context_ok xn.rows hc
    simp only [hctx, bind, Except.bind, pure, Except.pure]
    refine ⟨_, _, rfl, ?_⟩
    cases ctx with
    | none => rfl
    | some m => exact (hcols m rfl).trans hx.symm

theorem ConvModule.mix_ok (σ : Nat → Nat → Float32 → Float32) {c : ConvModule} {joined : Matrix}
    {d : Nat} (hj : joined.cols = d) (hexp : c.expand.weight.cols = d)
    (hout : c.outNorm.gain.size = d) (hproj : c.project.weight.cols = d)
    (hrows : c.lorder < joined.rows) :
    ∃ y, c.mix σ joined d = .ok y ∧ y.rows = joined.rows - c.lorder ∧
      y.cols = c.project.weight.rows := by
  obtain ⟨g, hg, hgr, -⟩ := Affine.applyPointwise_ok (f := c.expand) (x := joined) (hj.trans hexp.symm)
  unfold ConvModule.mix
  simp only [hg, bind, Except.bind]
  rw [if_neg (by simp only [ConvModule.rows_gate, hgr]; omega)]
  split
  · rename_i e he
    exact absurd (by simp [hout]) (Norm.apply_error he)
  · rename_i normed hnormed
    have hnc : normed.cols = d := by
      rw [Norm.cols_apply hnormed, ConvModule.cols_depthwiseConv, ConvModule.cols_gate]
    obtain ⟨y, hy, hyr, hyc⟩ := Affine.applyPointwise_ok (f := c.project)
      (x := ⟨normed.rows, normed.cols, Activation.swishBlock σ normed.data⟩) (hnc.trans hproj.symm)
    refine ⟨y, hy, ?_, hyc⟩
    rw [hyr]
    show normed.rows = _
    rw [Norm.rows_apply hnormed, ConvModule.rows_depthwiseConv, ConvModule.rows_gate, hgr]

theorem ConvModule.applyWith_succeeds (σ : Nat → Nat → Float32 → Float32) {c : ConvModule}
    {x : Matrix} {cache : Option Tensor}
    (hx : x.cols = c.inNorm.gain.size) (hexp : c.expand.weight.cols = x.cols)
    (hout : c.outNorm.gain.size = x.cols) (hproj : c.project.weight.cols = x.cols)
    (hc : ∀ t ∈ cache, t.shape = [1, c.inNorm.gain.size, c.lorder]) (hrows : 0 < x.rows) :
    ∃ y out, c.applyWith σ x cache = .ok (y, out) ∧ y.rows = x.rows ∧
      y.cols = c.project.weight.rows ∧ out.shape = [1, x.cols, c.lorder] := by
  obtain ⟨xn, hxn, hxnr, hxnc⟩ := Norm.apply_ok hx
  obtain ⟨joined, next, hjoin, hjc⟩ := ConvModule.join_ok (hxnc.trans hx) hc
  have hfits : c.Fits cache := fun t ht => ⟨_, hc t ht⟩
  obtain ⟨hjr, hnr⟩ := ConvModule.rows_join hfits hjoin
  obtain ⟨y, hy, hyr, hyc⟩ := ConvModule.mix_ok σ hjc (hexp.trans hxnc.symm)
    (hout.trans hxnc.symm) (hproj.trans hxnc.symm) (by omega)
  refine ⟨y, ⟨[1, xn.cols, next.rows], next.transpose.data⟩, ?_, by rw [hyr, hjr, hxnr]; omega,
    hyc, by rw [hnr, hxnc]⟩
  simp only [ConvModule.applyWith, hxn, hjoin, hy, bind, Except.bind, pure, Except.pure]

theorem ConvModule.apply_succeeds {c : ConvModule} {x : Matrix} {cache : Option Tensor}
    (hx : x.cols = c.inNorm.gain.size) (hexp : c.expand.weight.cols = x.cols)
    (hout : c.outNorm.gain.size = x.cols) (hproj : c.project.weight.cols = x.cols)
    (hc : ∀ t ∈ cache, t.shape = [1, c.inNorm.gain.size, c.lorder]) (hrows : 0 < x.rows) :
    ∃ y out, c.apply x cache = .ok (y, out) ∧ y.rows = x.rows ∧ y.cols = c.project.weight.rows ∧
      out.shape = [1, x.cols, c.lorder] :=
  ConvModule.applyWith_succeeds Activation.sigmoidAt hx hexp hout hproj hc hrows

theorem ConvModule.context_some {c : ConvModule} {t : Tensor} (frames : Nat)
    (ht : t.shape = [1, c.inNorm.gain.size, c.lorder]) (hL : c.lorder ≠ 0) :
    c.context (some t) frames = .ok (some (Matrix.ofFn c.lorder c.inNorm.gain.size
      fun i j => t.data.getD (j * c.lorder + i) 0)) := by
  unfold ConvModule.context
  simp only [ht]
  rw [if_neg (by simpa using hL), if_neg (by simp)]

theorem ConvModule.join_cache {c : ConvModule} {xn joined next : Matrix} {t : Tensor}
    (ht : t.shape = [1, c.inNorm.gain.size, c.lorder]) (hx : xn.cols = c.inNorm.gain.size)
    (h : c.join xn (some t) = .ok (joined, next)) :
    next.rows = c.lorder ∧ next.cols = xn.cols ∧ ∀ i j, i < c.lorder → j < xn.cols →
      next.get i j = if xn.rows + i < c.lorder then t.data.getD (j * c.lorder + (xn.rows + i)) 0
        else xn.get (xn.rows + i - c.lorder) j := by
  unfold ConvModule.join at h
  split at h
  · rename_i hzero
    cases h
    simp only [beq_iff_eq] at hzero
    refine ⟨by simp [hzero, Matrix.empty], rfl, fun i j hi => absurd hi (by omega)⟩
  · rename_i hzero
    obtain ⟨ctx, hctx, h⟩ := Except.bind_eq_ok.1 h
    rw [ConvModule.context_some xn.rows ht (by simpa using hzero), Except.ok.injEq] at hctx
    subst hctx
    rw [Except.pure_eq_ok, Prod.mk.injEq] at h
    obtain ⟨rfl, rfl⟩ := h
    simp only [Option.getD_some]
    refine ⟨by simp [Matrix.rows_sliceRows], hx.symm, fun i j hi hj => ?_⟩
    rw [Matrix.get_sliceRows (by simp; omega) (by simp) (by simpa [Matrix.appendRows, hx] using hj)]
    simp only [Matrix.rows_appendRows, Matrix.rows_ofFn, Nat.add_sub_cancel_left]
    split
    · rename_i hlt
      rw [Matrix.get_appendRows_left (Matrix.size_ofFn _ _ _) hlt (by simpa [hx] using hj),
        Matrix.get_ofFn hlt (by omega)]
    · rename_i hge
      have hsplit : xn.rows + i = c.lorder + (xn.rows + i - c.lorder) := by omega
      rw [hsplit, Matrix.get_appendRows_right (Matrix.size_ofFn _ _ _) (by rw [hx]; rfl),
        ← hsplit]

theorem ConvModule.applyWith_cache {σ : Nat → Nat → Float32 → Float32} {c : ConvModule}
    {x y : Matrix} {t out : Tensor} (ht : t.shape = [1, c.inNorm.gain.size, c.lorder])
    (h : c.applyWith σ x (some t) = .ok (y, out)) :
    ∃ xn, c.inNorm.apply x = .ok xn ∧ out.shape = [1, x.cols, c.lorder] ∧
      out.data.size = x.cols * c.lorder ∧ ∀ j i, j < x.cols → i < c.lorder →
        out.data.getD (j * c.lorder + i) 0 = if x.rows + i < c.lorder
          then t.data.getD (j * c.lorder + (x.rows + i)) 0 else xn.get (x.rows + i - c.lorder) j := by
  obtain ⟨xn, joined, next, hxn, hjoin, -, rfl⟩ := ConvModule.steps_of_applyWith h
  have hxr : xn.rows = x.rows := Norm.rows_apply hxn
  have hxc : xn.cols = x.cols := Norm.cols_apply hxn
  obtain ⟨hnr, hnc, hget⟩ := ConvModule.join_cache ht (hxc.trans (Norm.width_of_apply hxn)) hjoin
  refine ⟨xn, hxn, by rw [hxc, hnr], by simp [Matrix.transpose, hnr, hnc, hxc], ?_⟩
  intro j i hj hi
  have := Matrix.getD_transpose (m := next) (hnr ▸ hi) (by rw [hnc, hxc]; exact hj)
  rw [hnr] at this
  show next.transpose.data.getD (j * c.lorder + i) 0 = _
  rw [this, hget i j hi (by rw [hxc]; exact hj), hxr]

theorem ConvModule.apply_cache {c : ConvModule} {x y : Matrix} {t out : Tensor}
    (ht : t.shape = [1, c.inNorm.gain.size, c.lorder]) (h : c.apply x (some t) = .ok (y, out)) :
    ∃ xn, c.inNorm.apply x = .ok xn ∧ out.shape = [1, x.cols, c.lorder] ∧
      out.data.size = x.cols * c.lorder ∧ ∀ j i, j < x.cols → i < c.lorder →
        out.data.getD (j * c.lorder + i) 0 = if x.rows + i < c.lorder
          then t.data.getD (j * c.lorder + (x.rows + i)) 0 else xn.get (x.rows + i - c.lorder) j :=
  ConvModule.applyWith_cache ht h

/-! An encoder block of the built sizes runs on every chunk of frames of its width. -/

/-- The layer sizes of an encoder block on frames of width `d` whose convolution caches `L`
frames: every map reads and writes `d` features, and the attention's heads fill them. -/
structure EncoderBlock.Shaped (b : EncoderBlock) (d L : Nat) : Prop where
  heads : 0 < b.attention.heads
  width : b.attention.heads * b.attention.dk = d
  query : b.attention.query.weight.cols = d
  key : b.attention.key.weight.cols = d
  value : b.attention.value.weight.cols = d
  attIn : b.attention.out.weight.cols = d
  attOut : b.attention.out.weight.rows = d
  widen : b.feedForward.widen.weight.cols = d
  units : b.feedForward.widen.weight.rows = b.feedForward.narrow.weight.cols
  narrow : b.feedForward.narrow.weight.rows = d
  convNorm : b.conv.inNorm.gain.size = d
  expand : b.conv.expand.weight.cols = d
  convOutNorm : b.conv.outNorm.gain.size = d
  project : b.conv.project.weight.cols = d
  projectOut : b.conv.project.weight.rows = d
  lorder : b.conv.lorder = L
  normAttention : b.normAttention.gain.size = d
  normFeedForward : b.normFeedForward.gain.size = d
  normFinal : b.normFinal.gain.size = d

theorem Norm.applyIf_ok {n : Norm} (p : Bool) {x : Matrix} (h : x.cols = n.gain.size) :
    (∃ y, (if p then n.apply x else pure x) = .ok y ∧ y.rows = x.rows ∧ y.cols = x.cols) ∧
      ∃ y, (if p then pure x else n.apply x) = .ok y ∧ y.rows = x.rows ∧ y.cols = x.cols := by
  cases p with
  | false => exact ⟨⟨x, rfl, rfl, rfl⟩, Norm.apply_ok h⟩
  | true => exact ⟨Norm.apply_ok h, ⟨x, rfl, rfl, rfl⟩⟩

theorem EncoderBlock.apply_succeeds {b : EncoderBlock} {d L : Nat} (hb : b.Shaped d L)
    {x : Matrix} (hx : x.cols = d) (hrows : 0 < x.rows) (vis : Visibility)
    {attCache cnnCache : Option Tensor}
    (hatt : ∀ t ∈ attCache, ∃ T, t.shape = [1, b.attention.heads, T, 2 * b.attention.dk])
    (hcnn : ∀ t ∈ cnnCache, t.shape = [1, d, L]) :
    ∃ y grown out, b.apply x vis attCache cnnCache = .ok (y, grown, out) ∧ y.rows = x.rows ∧
      y.cols = d ∧ out.shape = [1, d, L] ∧
      ∃ u conv, u.rows = x.rows ∧ b.conv.apply u cnnCache = .ok (conv, out) := by
  obtain ⟨input, hinput, hir, hic⟩ := (Norm.applyIf_ok b.preNorm (hx.trans hb.normAttention.symm)).1
  have hin : input.cols = d := hic.trans hx
  obtain ⟨att, grown, hatt', har, hac⟩ := @Attention.apply_succeeds _ _ vis _ hb.heads
    (by rw [hin, hb.query]) (by rw [hin, hb.key]) (by rw [hin, hb.value]) (by rw [hb.attIn, hb.width])
    hatt
  obtain ⟨y₁, hy₁, h₁r, h₁c⟩ := addFrames_ok (x := x) (by rw [har, hir]) (by rw [hac, hb.attOut, hx])
  obtain ⟨y₂, hy₂, h₂r, h₂c⟩ :=
    (Norm.applyIf_ok b.preNorm (by rw [h₁c, hx, hb.normAttention])).2
  have hc₂ : y₂.cols = d := by rw [h₂c, h₁c, hx]
  obtain ⟨conv, out, hconv, hcr, hcc, hout⟩ := ConvModule.apply_succeeds (by rw [hc₂, hb.convNorm])
    (by rw [hb.expand, hc₂]) (by rw [hb.convOutNorm, hc₂]) (by rw [hb.project, hc₂])
    (by rwa [hb.convNorm, hb.lorder]) (by omega)
  obtain ⟨y₃, hy₃, h₃r, h₃c⟩ := addFrames_ok hcr (by rw [hcc, hb.projectOut, hc₂])
  obtain ⟨y₄, hy₄, h₄r, h₄c⟩ := @residual_ok b.preNorm b.normFeedForward y₃ b.feedForward.apply
    (by rw [h₃c, hc₂, hb.normFeedForward]) fun u _ huc => by
      obtain ⟨v, hv, hvr, hvc⟩ := FeedForward.apply_ok (by rw [huc, h₃c, hc₂, hb.widen]) hb.units
      exact ⟨v, hv, hvr, by rw [hvc, huc, h₃c, hc₂, hb.narrow]⟩
  obtain ⟨y₅, hy₅, h₅r, h₅c⟩ := Norm.apply_ok (n := b.normFinal) (x := y₄)
    (by rw [h₄c, h₃c, hc₂, hb.normFinal])
  refine ⟨y₅, grown, out, ?_, by omega, by omega, by rw [hout, hc₂, hb.lorder], y₂, conv,
    by omega, hconv⟩
  unfold EncoderBlock.apply
  refine Except.ite_bind_of_ok hinput ?_
  simp only [bind, Except.bind, hatt', hy₁]
  refine Except.ite_bind_of_ok hy₂ ?_
  simp only [hconv, hy₃, hy₄, hy₅, pure, Except.pure]

theorem heads_mul_div {d h : Int} (hh : 0 < h) (hd : 0 ≤ d) (hdiv : d % h = 0) :
    h.toNat * (d.toNat / h.toNat) = d.toNat := by
  have hdvd : (h.toNat : Int) ∣ (d.toNat : Int) := by
    rw [Int.toNat_of_nonneg hd, Int.toNat_of_nonneg hh.le]
    exact Int.dvd_of_emod_eq_zero hdiv
  exact Nat.mul_div_cancel' (Int.natCast_dvd_natCast.1 hdvd)

theorem Encoder.build_ok {w : Weights} (hw : w.Sized) {plan : Plan} {inputDim : Int}
    {cmvn : Option Cmvn} {e : Encoder} (h : Encoder.build w plan inputDim cmvn = .ok e)
    (hheads : 0 < plan.encoder.heads) (hdiv : plan.encoder.outputSize % plan.encoder.heads = 0) :
    Front.build w "encoder.embed" inputDim plan.encoder.outputSize [3, 3] [2, 2] = .ok e.front ∧
      e.cmvn = cmvn ∧ e.config = plan.encoder ∧ e.blocks.length = plan.encoder.numBlocks.toNat ∧
      (∀ n ∈ e.afterNorm, n.gain.size = plan.encoder.outputSize.toNat) ∧
      ∀ b ∈ e.blocks, b.Shaped plan.encoder.outputSize.toNat (plan.encoder.kernel - 1).toNat ∧
        b.attention.heads = plan.encoder.heads.toNat := by
  unfold Encoder.build at h
  obtain ⟨fe, hfe, h⟩ := Except.bind_eq_ok.1 h
  rw [Except.pure_eq_ok] at h
  subst h
  obtain ⟨-, hd, -⟩ := Front.build_ok hfe
  refine ⟨hfe, rfl, rfl, by simp, ?_, ?_⟩
  · intro n hn
    cases hp : plan.encoder.preNorm <;> simp only [hp, Bool.false_eq_true, ↓reduceIte,
      Option.mem_def, reduceCtorEq, Option.some.injEq] at hn
    subst hn
    exact hw _ _
  · intro b hb
    simp only [List.mem_map, List.mem_range] at hb
    obtain ⟨i, -, rfl⟩ := hb
    have hh : 0 < plan.encoder.heads.toNat := by omega
    exact ⟨⟨hh, heads_mul_div hheads hd.le hdiv, rfl, rfl, rfl, rfl, rfl, rfl, rfl, rfl,
      hw _ _, rfl, hw _ _, rfl, rfl, by simp [Weights.convModule], hw _ _, hw _ _, hw _ _⟩, rfl⟩

/-! The attention cache of a block grows by the keys and values of its input, from no frames on. -/

theorem Attention.grow_none (a : Attention) (k v : Matrix) {hh : Nat} (hhh : hh < a.heads) :
    (a.grow k v none)[hh]? = some (k.sliceCols (hh * a.dk) a.dk, v.sliceCols (hh * a.dk) a.dk) := by
  simp only [grow, Array.getElem?_ofFn, dif_pos hhh]

theorem Attention.apply_fresh {a : Attention} {x memory y : Matrix} {vis : Visibility}
    {cache : Option Tensor} {grown : Tensor} (hc : a.unpackCache cache = .ok none)
    (h : a.apply x memory vis cache = .ok (y, grown)) :
    grown.shape = [1, a.heads, memory.rows, 2 * a.dk] ∧
      grown.data.size = a.heads * memory.rows * (2 * a.dk) ∧
      ∀ hh j, hh < a.heads → j < memory.rows → a.Holds grown a.heads memory.rows 0 hh j memory j := by
  obtain ⟨hpos, -, k, v, cached, hk, hv, hcached, rfl⟩ := Attention.apply_ok h
  obtain rfl : cached = none := Except.ok.inj (hcached.symm.trans hc)
  have hrows : ((a.grow k v none)[0]?.map (fun p => p.1.rows)).getD 0 = memory.rows := by
    rw [Attention.grow_none _ _ _ hpos]
    simp [Matrix.sliceCols, Affine.rows_apply hk]
  have hgrown : ∀ hh, hh < a.heads → hh < (a.grow k v none).size := fun hh hhh => by
    rwa [Attention.size_grow]
  have hhead : ∀ hh (hhh : hh < (a.grow k v none).size), (a.grow k v none)[hh] =
      (k.sliceCols (hh * a.dk) a.dk, v.sliceCols (hh * a.dk) a.dk) := fun hh hhh =>
    (Array.getElem?_eq_some_iff.1 (Attention.grow_none a k v (by rwa [Attention.size_grow] at hhh))).2
  refine ⟨by rw [Attention.shape_pack, hrows], ?_, ?_⟩
  · rw [Attention.size_pack, hrows, Attention.size_grow]
    ring
  · intro hh j hhh hj
    have hk' : j < k.rows := by rw [Affine.rows_apply hk]; exact hj
    have hv' : j < v.rows := by rw [Affine.rows_apply hv]; exact hj
    refine ⟨k, v, hk, hv, fun cc hcc => ⟨?_, ?_⟩⟩
    · rw [Attention.getD_pack a _ hrows (hgrown hh hhh) hj (by omega), if_pos hcc, hhead hh (hgrown hh hhh),
        Matrix.get_sliceCols hk' hcc]
    · rw [Attention.getD_pack a _ hrows (hgrown hh hhh) hj (by omega), if_neg (by omega),
        hhead hh (hgrown hh hhh), Nat.add_sub_cancel_left, Matrix.get_sliceCols hv' hcc]

theorem Attention.apply_grown {a : Attention} {x memory y : Matrix} {vis : Visibility}
    {c grown : Tensor} {T : Nat} (hc : c.shape = [1, a.heads, T, 2 * a.dk])
    (h : a.apply x memory vis (some c) = .ok (y, grown)) :
    grown.shape = [1, a.heads, T + memory.rows, 2 * a.dk] ∧
      grown.data.size = a.heads * (T + memory.rows) * (2 * a.dk) ∧
      (∀ hh i cc, hh < a.heads → i < T → cc < 2 * a.dk →
        grown.data.getD (entryPos a.heads (T + memory.rows) (2 * a.dk) 0 hh i cc) 0 =
          c.data.getD (entryPos a.heads T (2 * a.dk) 0 hh i cc) 0) ∧
      ∀ hh j, hh < a.heads → j < memory.rows →
        a.Holds grown a.heads (T + memory.rows) 0 hh (T + j) memory j := by
  rcases Nat.eq_zero_or_pos T with rfl | hT
  · -- a cache without frames is read as none
    have hnone : a.unpackCache (some c) = .ok none := by simp [unpackCache, hc]
    obtain ⟨hshape, hsize, hholds⟩ := Attention.apply_fresh hnone h
    simp only [Nat.zero_add]
    exact ⟨hshape, hsize, fun _ _ _ _ hi => absurd hi (Nat.not_lt_zero _), hholds⟩
  · obtain ⟨hshape, hsize, hold, -, hnew⟩ := Attention.apply_cache hc hT h
    exact ⟨hshape, hsize, hold, hnew⟩

/-! The blocks one after another, each keeping its grown attention cache from a start frame on. -/

theorem getElem?_append_singleton {α : Type} {l : List α} {x a : α} {j : Nat}
    (h : (l ++ [x])[j]? = some a) : l[j]? = some a ∨ (j = l.length ∧ a = x) := by
  rw [List.getElem?_append] at h
  split at h
  · exact .inl h
  · have hlt := (List.getElem?_eq_some_iff.1 h).1
    simp only [List.length_singleton] at hlt
    refine .inr ⟨by omega, ?_⟩
    rw [show j - l.length = 0 by omega, List.getElem?_cons_zero, Option.some.injEq] at h
    exact h.symm

/-- What the blocks `blks` keep after `i` of them ran over frames of `n` rows and width `d`:
each kept attention cache `[1, H, K, W]` holds its grown cache from frame `s` on, the frames of
its slice of the old cache `[_, H, T, W]` and then the keys and values its block's attention
gave its input frames; each next convolution cache `[1, 1, d, L]` holds frame `n + t` of its
slice of the old cache `[_, 1, d, L]` followed by its block's normalized convolution input. -/
structure Trimmed (att cnn : Tensor) (blks : List EncoderBlock) (H T W d L n s K i : Nat)
    (acc : Matrix × List Tensor × List Tensor) : Prop where
  rows : acc.1.rows = n
  cols : acc.1.cols = d
  atts : acc.2.1.length = i
  cnns : acc.2.2.length = i
  blocks : ∀ j a, acc.2.1[j]? = some a → a.shape = [1, H, K, W] ∧ a.data.size = H * K * W ∧
    ∀ hh r c, hh < H → c < W → r < K → s + r < T →
      a.data.getD (entryPos H K W 0 hh r c) 0 = att.data.getD (entryPos H T W j hh (s + r) c) 0
  keys : ∀ (j : Nat) a, acc.2.1[j]? = some a → ∃ blk : EncoderBlock, blks[j]? = some blk ∧
    W = 2 * blk.attention.dk ∧ ∃ memory : Matrix, memory.rows = n ∧ ∀ hh r, hh < H → r < K → T ≤ s + r →
      blk.attention.Holds a H K 0 hh r memory (s + r - T)
  convs : ∀ c ∈ acc.2.2, c.shape = [1, 1, d, L] ∧ c.data.size = 1 * d * L
  convKeys : ∀ (j : Nat) c, acc.2.2[j]? = some c → ∃ blk : EncoderBlock, blks[j]? = some blk ∧
    ∃ input xn : Matrix, input.rows = n ∧ blk.conv.inNorm.apply input = .ok xn ∧
      ∀ ch t, ch < d → t < L → c.data.getD (entryPos 1 d L 0 0 ch t) 0 =
        if n + t < L then cnn.data.getD (entryPos 1 d L j 0 ch (n + t)) 0
        else xn.get (n + t - L) ch

section Step

variable {att cnn : Tensor} {vis : Visibility} {B H T W Bc d L : Nat}

theorem blockStep_runs (hatt : att.shape = [B, H, T, W]) (hcnn : cnn.shape = [Bc, 1, d, L])
    {s : Nat} {acc : Matrix × List Tensor × List Tensor} {b : EncoderBlock} {i : Nat}
    (hb : b.Shaped d L) (hH : b.attention.heads = H) (hW : W = 2 * b.attention.dk) (hi : i < B)
    (hic : i < Bc) (hrows : 0 < acc.1.rows) (hcols : acc.1.cols = d) :
    ∃ y grown out, b.apply acc.1 vis (some (att.sliceRows i (i + 1))) (some (cnn.row i)) =
        .ok (y, grown, out) ∧
      blockStep att cnn vis s acc (b, i) =
        .ok (y, acc.2.1 ++ [dropCached grown s], acc.2.2 ++ [out.unsqueeze]) ∧
      y.rows = acc.1.rows ∧ y.cols = d ∧ out.shape = [1, d, L] ∧
      ∃ u conv, u.rows = acc.1.rows ∧ b.conv.apply u (some (cnn.row i)) = .ok (conv, out) := by
  have hslice : (att.sliceRows i (i + 1)).shape = [1, b.attention.heads, T, 2 * b.attention.dk] := by
    rw [Tensor.shape_sliceRows_one hatt hi, hH, hW]
  have hrow : (cnn.row i).shape = [1, d, L] := by simp [Tensor.row, hcnn]
  obtain ⟨y, grown, out, happ, hyr, hyc, hout, hconv⟩ := EncoderBlock.apply_succeeds hb hcols hrows vis
    (show ∀ t ∈ some (att.sliceRows i (i + 1)), ∃ T', t.shape = [1, b.attention.heads, T', 2 * b.attention.dk]
      from fun t ht => ⟨T, by cases ht; exact hslice⟩)
    (show ∀ t ∈ some (cnn.row i), t.shape = [1, d, L] from fun t ht => by cases ht; exact hrow)
  have hattI : (if att.shape.headD 0 > 0 then pure (some (att.sliceRows i (i + 1)))
      else pure none : Except Fault (Option Tensor)) = .ok (some (att.sliceRows i (i + 1))) := by
    rw [if_pos (by simp only [hatt, List.headD_cons]; omega)]
    rfl
  have hcnnI : (if cnn.shape.headD 0 > 0 then some <$> cnn.index? i else pure none) =
      .ok (some (cnn.row i)) := by
    rw [if_pos (by simp only [hcnn, List.headD_cons]; omega)]
    simp only [Tensor.index?, Tensor.numRows, hcnn, List.headD_cons, if_pos hic]
    rfl
  refine ⟨y, grown, out, happ, ?_, hyr, hyc, hout, hconv⟩
  unfold blockStep
  refine Except.ite_bind_of_ok hattI ?_
  refine Except.ite_bind_of_ok hcnnI ?_
  simp only [happ, bind, Except.bind, pure, Except.pure]

theorem dropCached_grown (hatt : att.shape = [B, H, T, W]) (hsize : att.data.size = B * H * T * W)
    {a : Attention} (hH : a.heads = H) (hW : W = 2 * a.dk) {i : Nat} (hi : i < B)
    {input y : Matrix} {grown : Tensor}
    (happ : a.apply input input vis (some (att.sliceRows i (i + 1))) = .ok (y, grown))
    {n s K : Nat} (hn : input.rows = n) (hs : s ≤ T + n) (hK : K = T + n - s) :
    (dropCached grown s).shape = [1, H, K, W] ∧ (dropCached grown s).data.size = H * K * W ∧
      (∀ hh r c, hh < H → c < W → r < K → s + r < T →
        (dropCached grown s).data.getD (entryPos H K W 0 hh r c) 0 =
          att.data.getD (entryPos H T W i hh (s + r) c) 0) ∧
      ∀ hh r, hh < H → r < K → T ≤ s + r → a.Holds (dropCached grown s) H K 0 hh r input (s + r - T) := by
  have hslice : (att.sliceRows i (i + 1)).shape = [1, a.heads, T, 2 * a.dk] := by
    rw [Tensor.shape_sliceRows_one hatt hi, hH, hW]
  obtain ⟨hgshape, -, hold, hnew⟩ := Attention.apply_grown hslice happ
  rw [hn, hH, ← hW] at hgshape hold
  rw [hn, hH] at hnew
  have hkept : ∀ hh r cc, hh < H → r < K → cc < W →
      (dropCached grown s).data.getD (entryPos H K W 0 hh r cc) 0 =
        grown.data.getD (entryPos H (T + n) W 0 hh (s + r) cc) 0 := by
    intro hh r cc hhh hr hcc
    rw [hK]
    exact getD_dropCached hgshape hs Nat.zero_lt_one hhh (by omega) hcc
  refine ⟨by rw [shape_dropCached hgshape, Nat.min_eq_left hs, hK],
    by rw [size_dropCached hgshape, Nat.min_eq_left hs, hK, Nat.one_mul], ?_, ?_⟩
  · intro hh r cc hhh hcc hr hsr
    rw [hkept hh r cc hhh hr hcc, hold hh (s + r) cc hhh hsr hcc,
      Tensor.getD_sliceRows hatt hsize hi hhh hsr hcc]
  · intro hh r hhh hr hle
    refine (hnew hh (s + r - T) hhh (by omega)).of_entries fun cc hcc => ?_
    rw [← hW] at hcc ⊢
    rw [hkept hh r cc hhh hr hcc, Nat.add_sub_cancel' hle]

theorem unsqueeze_convCache (hcnn : cnn.shape = [Bc, 1, d, L]) {c : ConvModule}
    (hd : c.inNorm.gain.size = d) (hL : c.lorder = L) {i : Nat} {u y : Matrix} {out : Tensor}
    (happ : c.apply u (some (cnn.row i)) = .ok (y, out)) :
    out.unsqueeze.shape = [1, 1, d, L] ∧ out.unsqueeze.data.size = 1 * d * L ∧
      ∃ xn, c.inNorm.apply u = .ok xn ∧ ∀ ch t, ch < d → t < L →
        out.unsqueeze.data.getD (entryPos 1 d L 0 0 ch t) 0 = if u.rows + t < L
          then cnn.data.getD (entryPos 1 d L i 0 ch (u.rows + t)) 0 else xn.get (u.rows + t - L) ch := by
  have hrow : (cnn.row i).shape = [1, c.inNorm.gain.size, c.lorder] := by
    simp [Tensor.row, hcnn, hd, hL]
  obtain ⟨xn, hxn, hshape, hsize, hget⟩ := ConvModule.apply_cache hrow happ
  have hu : u.cols = d := (Norm.width_of_apply hxn).trans hd
  rw [hu, hL] at hshape hsize hget
  refine ⟨by simp [Tensor.unsqueeze, hshape], by simp [Tensor.unsqueeze, hsize], xn, hxn,
    fun ch t hch ht => ?_⟩
  have hpos : entryPos 1 d L 0 0 ch t = ch * L + t := by simp [entryPos]
  show out.data.getD _ 0 = _
  rw [hpos, hget ch t hch ht]
  split
  · rw [Tensor.getD_row hcnn hch (by omega)]
  · rfl

theorem trimmed_step (hatt : att.shape = [B, H, T, W]) (hsize : att.data.size = B * H * T * W)
    (hcnn : cnn.shape = [Bc, 1, d, L]) {blks : List EncoderBlock} {n s K : Nat} (hn : 0 < n)
    (hs : s ≤ T + n) (hK : K = T + n - s) {i : Nat} (hi : i < B) (hic : i < Bc)
    {b : EncoderBlock} (hblk : blks[i]? = some b) (hb : b.Shaped d L) (hH : b.attention.heads = H)
    (hW : W = 2 * b.attention.dk) {acc : Matrix × List Tensor × List Tensor}
    (hk : Trimmed att cnn blks H T W d L n s K i acc) :
    ∃ acc', blockStep att cnn vis s acc (b, i) = .ok acc' ∧
      Trimmed att cnn blks H T W d L n s K (i + 1) acc' := by
  obtain ⟨y, grown, out, happ, hstep, hyr, hyc, -, u, conv, hur, hconv⟩ :=
    blockStep_runs hatt hcnn hb hH hW hi hic (by rw [hk.rows]; exact hn) hk.cols
  have hfits : b.conv.Fits (some (cnn.row i)) := fun t ht => ⟨d, by
    cases ht
    simp [Tensor.row, hcnn, hb.lorder]⟩
  obtain ⟨-, -, input, att', hin, hattn⟩ := EncoderBlock.rows_apply hfits happ
  obtain ⟨hashape, hasize, haold, hanew⟩ :=
    dropCached_grown hatt hsize hH hW hi hattn (hin.trans hk.rows) hs hK
  obtain ⟨hcshape, hcsize, xn, hxn, hcget⟩ := unsqueeze_convCache hcnn hb.convNorm hb.lorder hconv
  rw [hur, hk.rows] at hcget
  refine ⟨_, hstep, ⟨hyr.trans hk.rows, hyc, by simp [hk.atts], by simp [hk.cnns], ?_, ?_, ?_, ?_⟩⟩
  · intro j a hj
    rcases getElem?_append_singleton hj with hj | ⟨rfl, rfl⟩
    · exact hk.blocks j a hj
    · rw [hk.atts]
      exact ⟨hashape, hasize, haold⟩
  · intro j a hj
    rcases getElem?_append_singleton hj with hj | ⟨rfl, rfl⟩
    · exact hk.keys j a hj
    · exact ⟨b, by rw [hk.atts]; exact hblk, hW, input, hin.trans hk.rows, hanew⟩
  · intro c hc
    rw [List.mem_append, List.mem_singleton] at hc
    rcases hc with hc | rfl
    · exact hk.convs c hc
    · exact ⟨hcshape, hcsize⟩
  · intro j c hj
    rcases getElem?_append_singleton hj with hj | ⟨rfl, rfl⟩
    · exact hk.convKeys j c hj
    · rw [hk.cnns]
      exact ⟨b, hblk, u, xn, hur.trans hk.rows, hxn, hcget⟩

end Step

/-! The chunk through the front end, and what the encoder asks of its mask. -/

theorem encodePositions_cols {t : PositionTable} {x y pos : Matrix} {offset : Int} {t' : PositionTable}
    (h : encodePositions t x offset = .ok (y, pos, t')) : y.cols = x.cols := by
  rcases hq : t.query offset x.rows with ⟨t₁, p₁⟩
  simp only [encodePositions, hq] at h
  obtain ⟨z, hz, h⟩ := Except.bind_eq_ok.1 h
  simp only [Except.pure_eq_ok, Prod.mk.injEq] at h
  obtain ⟨rfl, -, -⟩ := h
  rw [Matrix.cols_zipWith (show Matrix.zipWith (· + ·) _ p₁ = .ok z from hz)]
  rfl

theorem Front.cols_apply {fe : Front} {x y pos : Matrix} {offset : Int} {fe' : Front}
    (h : fe.apply x offset = .ok (y, pos, fe')) : y.cols = fe.project.weight.rows := by
  unfold Front.apply at h
  obtain ⟨planes, -, h⟩ := Except.bind_eq_ok.1 h
  obtain ⟨z, hz, h⟩ := Except.bind_eq_ok.1 h
  obtain ⟨⟨y', pos', t'⟩, henc, h⟩ := Except.bind_eq_ok.1 h
  simp only [Except.pure_eq_ok, Prod.mk.injEq] at h
  obtain ⟨rfl, -, -⟩ := h
  rw [encodePositions_cols henc, Affine.cols_apply hz]

theorem frontLength_pos {layers : List (Int × Int)} (h : PositiveLayers layers) {n : Int}
    (hn : frontContext layers + 1 ≤ n) : 0 < frontLength layers n := by
  have hR := frontRate_pos h
  have hC := frontContext_nonneg h
  have hq := Int.ediv_nonneg (show 0 ≤ n - frontContext layers - 1 by omega) hR.le
  rw [frontLength_eq h (by omega), Int.fdiv_eq_ediv_of_nonneg _ hR.le]
  omega

theorem Encoder.embed_ok {e : Encoder} {w : Weights} {inputDim d : Int}
    (hfront : Front.build w "encoder.embed" inputDim d [3, 3] [2, 2] = .ok e.front)
    (hcmvn : ∀ c ∈ e.cmvn, c.mean.size = inputDim.toNat ∨ c.mean.size = 1)
    (hin : frontContext [(3, 2), (3, 2)] + 1 ≤ inputDim) {xs : Tensor} {T : Nat}
    (hxs : xs.shape = [1, T, inputDim.toNat]) (hT : frontContext [(3, 2), (3, 2)] + 1 ≤ T)
    {offset : Int} (ho : 0 ≤ offset) :
    ∃ x, e.embed xs offset = .ok x ∧ (x.rows : Int) = frontLength [(3, 2), (3, 2)] T ∧
      x.cols = d.toNat := by
  obtain ⟨-, -, -, -, -, -, -, hwr, -⟩ := Front.build_ok hfront
  have hpos : PositiveLayers ([3, 3].zip [2, 2]) := by unfold PositiveLayers; decide
  have hctx : frontContext [(3, 2), (3, 2)] = 6 := by decide
  obtain ⟨x₁, hx₁, hx₁r, hx₁c⟩ : ∃ x₁, (e.cmvn.elim (pure ⟨T, inputDim.toNat, xs.data⟩)
      fun c => c.apply ⟨T, inputDim.toNat, xs.data⟩) = .ok x₁ ∧ x₁.rows = T ∧
      x₁.cols = inputDim.toNat := by
    cases hc : e.cmvn with
    | none => exact ⟨_, rfl, rfl, rfl⟩
    | some c => exact Cmvn.apply_ok (hcmvn c hc)
  obtain ⟨y, pos, fe', hy, hyr⟩ := Front.apply_frames hfront hpos (by decide) (x := x₁)
    (by rw [hx₁c]; omega) hin (by rw [hx₁r]; exact hT) ho
  refine ⟨y, ?_, by rw [hyr, hx₁r]; rfl, by rw [Front.cols_apply hy, hwr]⟩
  unfold Encoder.embed
  simp only [hxs, List.headD_cons, bne_self_eq_false, Bool.false_eq_true, ↓reduceIte]
  cases hc : e.cmvn with
  | none =>
    simp only [hc, Option.elim_none, Except.pure_eq_ok] at hx₁
    subst hx₁
    simp only [bind, Except.bind, pure, Except.pure, hy]
  | some c =>
    simp only [hc, Option.elim_some] at hx₁
    simp only [bind, Except.bind, pure, Except.pure, hx₁, hy]

/-! All blocks, and the caches they leave. -/

/-- The frames an attention cache of `keys` frames keeps for the required cache size `r`: all of
them for a negative size, none for zero, and at most `r` otherwise. -/
def keptFrames (keys : Nat) (r : Int) : Nat :=
  if r < 0 then keys else if r = 0 then 0 else min keys r.toNat

theorem cacheStart_le (keys : Nat) (r : Int) : cacheStart keys r ≤ keys := by
  unfold cacheStart
  split_ifs <;> omega

theorem sub_cacheStart (keys : Nat) (r : Int) : keys - cacheStart keys r = keptFrames keys r := by
  unfold cacheStart keptFrames
  simp only [beq_iff_eq]
  split_ifs <;> omega

theorem maskVisibility_ok {mask : Option Mask} {queries keys : Nat}
    (h : ∀ m ∈ mask, ∃ L, m.shape = [1, 1, L] ∧ keys ≤ L) :
    ∃ vis, maskVisibility mask queries keys = .ok vis := by
  cases mask with
  | none => exact ⟨none, rfl⟩
  | some m =>
    obtain ⟨L, hL, hk⟩ := h m rfl
    unfold maskVisibility
    simp only [hL]
    split
    · exact ⟨none, rfl⟩
    · rw [if_neg (by simp; omega)]
      exact ⟨_, rfl⟩

/-- An attention cache `[B, H, K, W]` left by a chunk of `n` frames over a cache `[B, H, c, W]`:
frame `i` of every block and head is frame `c + n - K + i` of the cached frames followed by the
new ones, so a cached frame or the key and value that the block's attention gave frame
`c + n - K + i - c` of its `n` input frames. -/
structure KeptCache (blks : List EncoderBlock) (att att' : Tensor) (B H c W n K : Nat) : Prop where
  shape : att'.shape = [B, H, K, W]
  size : att'.data.size = B * H * K * W
  cached : ∀ b hh i cc, b < B → hh < H → cc < W → i < K → c + n - K + i < c →
    att'.data.getD (entryPos H K W b hh i cc) 0 =
      att.data.getD (entryPos H c W b hh (c + n - K + i) cc) 0
  fresh : ∀ b, b < B → ∃ blk memory, blks[b]? = some blk ∧ W = 2 * blk.attention.dk ∧
    memory.rows = n ∧ ∀ hh i, hh < H → i < K → c ≤ c + n - K + i →
      blk.attention.Holds att' H K b hh i memory (c + n - K + i - c)

/-- A convolution cache `[B, 1, d, L]` left by a chunk of `n` frames over a cache of that shape:
frame `t` of every block and channel is frame `n + t` of the cached frames followed by the
block's normalized convolution input, so a cached frame while the chunk is shorter than `L`, and
otherwise frame `n + t - L` of that input, one of its last `L`. -/
structure KeptConv (blks : List EncoderBlock) (cnn cnn' : Tensor) (B d L n : Nat) : Prop where
  shape : cnn'.shape = [B, 1, d, L]
  size : cnn'.data.size = B * 1 * d * L
  frames : ∀ b, b < B → ∃ blk input xn, blks[b]? = some blk ∧ input.rows = n ∧
    blk.conv.inNorm.apply input = .ok xn ∧ ∀ ch t, ch < d → t < L →
      cnn'.data.getD (entryPos 1 d L b 0 ch t) 0 =
        if n + t < L then cnn.data.getD (entryPos 1 d L b 0 ch (n + t)) 0 else xn.get (n + t - L) ch

section Join

variable {att cnn : Tensor} {blks : List EncoderBlock} {H T W d L n s K B : Nat} {x : Matrix}
  {atts cnns : List Tensor}

theorem Trimmed.joinAttention (hk : Trimmed att cnn blks H T W d L n s K B (x, atts, cnns))
    (hB : 0 < B) (hs : s ≤ T + n) (hK : K = T + n - s) :
    ∃ a, Tensor.cat atts = .ok a ∧ KeptCache blks att a B H T W n K := by
  have hlen : atts.length = B := hk.atts
  have hstart : T + n - K = s := by omega
  have hshape : ∀ t ∈ atts, t.shape = [1, H, K, W] ∧ t.data.size = H * K * W := fun t ht => by
    obtain ⟨j, hj, rfl⟩ := List.getElem_of_mem ht
    exact ⟨(hk.blocks j _ (List.getElem?_eq_getElem hj)).1, (hk.blocks j _ (List.getElem?_eq_getElem hj)).2.1⟩
  obtain ⟨a, ha, -⟩ := Tensor.cat_of_shape (List.ne_nil_of_length_pos (by omega))
    fun t ht => (hshape t ht).1
  obtain ⟨hashape, hasize, hentries⟩ := Tensor.cat_blocks hshape ha
  refine ⟨a, ha, by rw [hashape, hlen], by rw [hasize, hlen], ?_, ?_⟩
  · intro b hh i cc hb hhh hcc hi hlt
    rw [hstart] at hlt ⊢
    rw [← hlen] at hb
    rw [hentries b hh i cc hb hhh hi hcc]
    exact (hk.blocks b _ (List.getElem?_eq_getElem hb)).2.2 hh i cc hhh hcc hi hlt
  · intro b hb
    rw [hstart]
    rw [← hlen] at hb
    obtain ⟨blk, hblk, hW, memory, hmem, hholds⟩ := hk.keys b _ (List.getElem?_eq_getElem hb)
    refine ⟨blk, memory, hblk, hW, hmem, fun hh i hhh hi hle =>
      (hholds hh i hhh hi hle).of_entries fun cc hcc => ?_⟩
    rw [← hW] at hcc ⊢
    exact hentries b hh i cc hb hhh hi hcc

theorem Trimmed.joinConv (hk : Trimmed att cnn blks H T W d L n s K B (x, atts, cnns))
    (hB : 0 < B) : ∃ c, Tensor.cat cnns = .ok c ∧ KeptConv blks cnn c B d L n := by
  have hlen : cnns.length = B := hk.cnns
  obtain ⟨c, hc, -⟩ := Tensor.cat_of_shape (show cnns ≠ [] from List.ne_nil_of_length_pos (by omega))
    fun t ht => (hk.convs t ht).1
  obtain ⟨hcshape, hcsize, hentries⟩ := Tensor.cat_blocks hk.convs hc
  refine ⟨c, hc, by rw [hcshape, hlen], by rw [hcsize, hlen], fun b hb => ?_⟩
  rw [← hlen] at hb
  obtain ⟨blk, hblk, input, xn, hin, hxn, hget⟩ := hk.convKeys b _ (List.getElem?_eq_getElem hb)
  refine ⟨blk, input, xn, hblk, hin, hxn, fun ch t hch ht => ?_⟩
  rw [hentries b 0 ch t hb Nat.zero_lt_one hch ht, hget ch t hch ht]

end Join

theorem Encoder.blocks_run {e : Encoder} {B H dk L : Nat} (hH0 : 0 < H)
    (hBn : e.blocks.length = B)
    (hblocks : ∀ b ∈ e.blocks, b.Shaped (H * dk) L ∧ b.attention.heads = H)
    {att cnn : Tensor} {c : Nat} (hatt : att.shape = [B, H, c, 2 * dk])
    (hsize : att.data.size = B * H * c * (2 * dk)) (hcnn : cnn.shape = [B, 1, H * dk, L])
    {x : Matrix} (hn : 0 < x.rows) (hxc : x.cols = H * dk) (vis : Visibility) {s : Nat}
    (hs : s ≤ c + x.rows) :
    ∃ x' atts cnns, (e.blocks.zipIdx).foldlM (blockStep att cnn vis s) (x, [], []) =
        .ok (x', atts, cnns) ∧
      Trimmed att cnn e.blocks H c (2 * dk) (H * dk) L x.rows s (c + x.rows - s) B (x', atts, cnns) := by
  obtain ⟨⟨x', atts, cnns⟩, hfold, hkept⟩ :=
    @foldlM_zipIdx_ok _ _ _ (blockStep att cnn vis s)
      (fun i acc => Trimmed att cnn e.blocks H c (2 * dk) (H * dk) L x.rows s (c + x.rows - s) i acc)
      e.blocks 0 (fun i acc b hb hk => by
        have hblk : e.blocks[i]? = some b := List.mem_zipIdx_iff_getElem?.1 hb
        have hi : i < B := hBn ▸ (List.getElem?_eq_some_iff.1 hblk).1
        obtain ⟨hshaped, hbh⟩ := hblocks b (List.mem_of_getElem? hblk)
        have hdk : b.attention.dk = dk :=
          Nat.eq_of_mul_eq_mul_left hH0 (by rw [← hshaped.width, hbh])
        exact trimmed_step hatt hsize hcnn hn hs rfl hi hi hblk hshaped hbh (by rw [hdk]) hk)
      (x, [], []) ⟨rfl, hxc, rfl, rfl, by simp, by simp, by simp, by simp⟩
  rw [Nat.zero_add, hBn] at hkept
  exact ⟨x', atts, cnns, hfold, hkept⟩

theorem Encoder.forwardChunk_without_blocks {e : Encoder} (he : e.blocks = []) {xs : Tensor}
    {offset r : Int} {att cnn : Tensor} {mask : Option Mask} {x : Matrix}
    (hx : e.embed xs offset = .ok x) {vis : Visibility}
    (hvis : maskVisibility mask x.rows (att.shape.getD 2 0 + x.rows) = .ok vis)
    (hafter : ∀ n ∈ e.afterNorm, x.cols = n.gain.size) :
    e.forwardChunk xs offset r att cnn mask = .error .nothingToJoin := by
  unfold Encoder.forwardChunk
  simp only [hx, hvis, he, List.zipIdx_nil, List.foldlM_nil, bind, Except.bind, pure, Except.pure]
  cases hn : e.afterNorm with
  | none => rfl
  | some n =>
    obtain ⟨y, hy, -⟩ := Norm.apply_ok (hafter n hn)
    simp only [hy]
    rfl

end SpeechStream.Network

namespace SpeechStream

open Network

/-- The contract of one encoder chunk. An encoder built from weights of the sizes asked for, of
`B ≥ 1` blocks whose `H` heads of width `dk` fill its width and whose convolutions have kernel
`L + 1`, with statistics of the input's width or none, runs on every chunk `[1, T, features]`
that holds the front end's context, from any position `≥ 0`, with caches `[B, H, c, 2·dk]` and
`[B, 1, H·dk, L]`, for every required cache size `r` and with a mask of at least the keys'
length or none. It returns the `frontLength T` frames the front end keeps, an attention cache
that holds, for every block, the last `keptFrames (c + frames) r` of its cached and new keys and
values, and a convolution cache of the shape it was given that holds, for every block, the last
`L` of its cached and normalized convolution input frames. -/
theorem encoder_chunk_contract {w : Weights} (hw : w.Sized) {plan : Plan} {inputDim : Int}
    {cmvn : Option Cmvn} {e : Encoder} (hbuild : Encoder.build w plan inputDim cmvn = .ok e)
    {B H dk L : Nat} (hB : plan.encoder.numBlocks = B) (hB0 : 0 < B) (hH : plan.encoder.heads = H)
    (hH0 : 0 < H) (hd : plan.encoder.outputSize = H * dk) (hL : plan.encoder.kernel = L + 1)
    (hin : frontContext [(3, 2), (3, 2)] + 1 ≤ inputDim)
    (hcmvn : ∀ c ∈ cmvn, c.mean.size = inputDim.toNat ∨ c.mean.size = 1)
    {xs : Tensor} {T : Nat} (hxs : xs.shape = [1, T, inputDim.toNat])
    (hT : frontContext [(3, 2), (3, 2)] + 1 ≤ T) {offset : Int} (ho : 0 ≤ offset) (r : Int)
    {att cnn : Tensor} {c : Nat} (hatt : att.shape = [B, H, c, 2 * dk])
    (hsize : att.data.size = B * H * c * (2 * dk)) (hcnn : cnn.shape = [B, 1, H * dk, L])
    {mask : Option Mask}
    (hmask : ∀ m ∈ mask, ∃ len, m.shape = [1, 1, len] ∧ c + frontLength [(3, 2), (3, 2)] T ≤ len) :
    ∃ y att' cnn', e.forwardChunk xs offset r att cnn mask = .ok (y, att', cnn') ∧
      (y.rows : Int) = frontLength [(3, 2), (3, 2)] T ∧ y.cols = H * dk ∧
      KeptCache e.blocks att att' B H c (2 * dk) y.rows (keptFrames (c + y.rows) r) ∧
      KeptConv e.blocks cnn cnn' B (H * dk) L y.rows := by
  have hdiv : plan.encoder.outputSize % plan.encoder.heads = 0 := by
    rw [hd, hH]
    exact Int.mul_emod_right _ _
  obtain ⟨hfront, hcm, -, hlen, hafter, hblocks⟩ := Encoder.build_ok hw hbuild (by omega) hdiv
  have hdn : plan.encoder.outputSize.toNat = H * dk := by rw [hd]; rfl
  have hHn : plan.encoder.heads.toNat = H := by rw [hH]; rfl
  have hLn : (plan.encoder.kernel - 1).toNat = L := by omega
  have hBn : e.blocks.length = B := by rw [hlen, hB]; rfl
  obtain ⟨x, hx, hxr, hxc⟩ := Encoder.embed_ok hfront (hcm ▸ hcmvn) hin hxs hT ho
  rw [hdn] at hxc
  have hn : 0 < x.rows := by
    have := frontLength_pos (by unfold PositiveLayers; decide) hT
    omega
  have hs : cacheStart (c + x.rows) r ≤ c + x.rows := cacheStart_le _ _
  have hK : keptFrames (c + x.rows) r = c + x.rows - cacheStart (c + x.rows) r :=
    (sub_cacheStart _ _).symm
  obtain ⟨vis, hvis⟩ := @maskVisibility_ok mask x.rows (c + x.rows) fun m hm => by
    obtain ⟨len, hl, hle⟩ := hmask m hm
    exact ⟨len, hl, by omega⟩
  obtain ⟨x', atts, cnns, hfold, hkept⟩ := Encoder.blocks_run hH0 hBn (fun b hb => by
      obtain ⟨hshaped, hbh⟩ := hblocks b hb
      rw [hdn, hLn] at hshaped
      exact ⟨hshaped, hbh.trans hHn⟩) hatt hsize hcnn hn hxc vis hs
  rw [← hK] at hkept
  obtain ⟨a, ha, hkc⟩ := hkept.joinAttention hB0 hs hK
  obtain ⟨cc, hc, hcs⟩ := hkept.joinConv hB0
  obtain ⟨y, hy, hyr, hyc⟩ : ∃ y, (e.afterNorm.elim (pure x') fun n => n.apply x') = .ok y ∧
      y.rows = x'.rows ∧ y.cols = x'.cols := by
    cases hn : e.afterNorm with
    | none => exact ⟨x', rfl, rfl, rfl⟩
    | some n => exact Norm.apply_ok (by rw [hkept.cols, hafter n hn, hdn])
  have hyn : y.rows = x.rows := hyr.trans hkept.rows
  refine ⟨y, a, cc, ?_, by rw [hyn, hxr], by rw [hyc, hkept.cols], by rwa [hyn], by rwa [hyn]⟩
  have hne : atts.isEmpty = false := by
    rw [List.isEmpty_eq_false_iff]
    exact List.ne_nil_of_length_pos (by rw [hkept.atts]; exact hB0)
  unfold Encoder.forwardChunk
  simp only [hx, hatt, List.getD_cons_succ, List.getD_cons_zero, hvis, hfold, bind, Except.bind, hne,
    Bool.false_eq_true, ↓reduceIte, ha, hc]
  cases hn : e.afterNorm with
  | none =>
    simp only [hn, Option.elim_none, Except.pure_eq_ok] at hy
    subst hy
    rfl
  | some n =>
    simp only [hn, Option.elim_some] at hy
    simp only [hy]
    rfl

/-- A one-block encoder of width 4 with two heads and kernel 3 encodes a first chunk of seven
frames into one frame, and keeps that frame's keys and values as its attention cache. -/
theorem encoder_chunk_contract_first_chunk :
    ∃ e, Encoder.build Weights.reference { (default : Plan) with
        encoder := { outputSize := 4, heads := 2, linearUnits := 8, numBlocks := 1, kernel := 3 } }
        8 none = .ok e ∧
      ∃ y att' cnn', e.forwardChunk (Tensor.zeros [1, 7, 8]) 0 (-1) (Tensor.zeros [1, 2, 0, 4])
        (Tensor.zeros [1, 1, 4, 2]) none = .ok (y, att', cnn') ∧ y.rows = 1 ∧
        att'.shape = [1, 2, 1, 4] ∧ cnn'.shape = [1, 1, 4, 2] := by
  obtain ⟨e, hb⟩ : ∃ e, Encoder.build Weights.reference { (default : Plan) with
      encoder := { outputSize := 4, heads := 2, linearUnits := 8, numBlocks := 1, kernel := 3 } }
      8 none = .ok e := ⟨_, rfl⟩
  obtain ⟨y, att', cnn', h, hyr, -, hkc, hcs⟩ := encoder_chunk_contract Weights.reference_sized hb
    (show _ = ((1 : Nat) : Int) from rfl) Nat.one_pos (show _ = ((2 : Nat) : Int) from rfl)
    Nat.two_pos (show _ = ((2 : Nat) : Int) * ((2 : Nat) : Int) from rfl)
    (show _ = ((2 : Nat) : Int) + 1 from rfl) (by decide) (by simp)
    (show (Tensor.zeros [1, 7, 8]).shape = [1, 7, (8 : Int).toNat] from rfl) (by decide) le_rfl (-1)
    (show (Tensor.zeros [1, 2, 0, 4]).shape = [1, 2, 0, 2 * 2] from rfl) rfl
    (show (Tensor.zeros [1, 1, 4, 2]).shape = [1, 1, 2 * 2, 2] from rfl)
    (show ∀ m ∈ (none : Option Mask), ∃ len, m.shape = [1, 1, len] ∧
      ((0 : Nat) : Int) + frontLength [(3, 2), (3, 2)] ((7 : Nat) : Int) ≤ len from by simp)
  have hone : y.rows = 1 := by
    have : frontLength [(3, 2), (3, 2)] ((7 : Nat) : Int) = 1 := by decide
    omega
  refine ⟨e, hb, y, att', cnn', h, hone, ?_, hcs.shape⟩
  rw [hkc.shape, hone]
  rfl

/-- An encoder without blocks embeds a chunk of seven frames and then has no caches to join. -/
theorem encoder_without_blocks_fails :
    ∃ e, Encoder.build Weights.reference { (default : Plan) with
        encoder := { outputSize := 4, heads := 2, linearUnits := 8, numBlocks := 0, kernel := 3 } }
        8 none = .ok e ∧
      e.forwardChunk (Tensor.zeros [1, 7, 8]) 0 (-1) (Tensor.zeros [0, 2, 0, 4])
        (Tensor.zeros [0, 1, 4, 2]) none = .error .nothingToJoin := by
  obtain ⟨e, hb⟩ : ∃ e, Encoder.build Weights.reference { (default : Plan) with
      encoder := { outputSize := 4, heads := 2, linearUnits := 8, numBlocks := 0, kernel := 3 } }
      8 none = .ok e := ⟨_, rfl⟩
  obtain ⟨hfront, hcm, -, hlen, hafter, -⟩ :=
    Encoder.build_ok Weights.reference_sized hb (by decide) (by decide)
  obtain ⟨x, hx, -, hxc⟩ := Encoder.embed_ok hfront (by simp [hcm]) (by decide)
    (show (Tensor.zeros [1, 7, 8]).shape = [1, 7, (8 : Int).toNat] from rfl) (by decide) le_rfl
  refine ⟨e, hb, Encoder.forwardChunk_without_blocks (List.eq_nil_of_length_eq_zero hlen) hx rfl
    fun n hn => ?_⟩
  rw [hxc, hafter n hn]

end SpeechStream
