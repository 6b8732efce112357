import SpeechStream.Network.Model
import SpeechStream.Proofs.ExceptSteps
/-!
Frame counts through the network.

Every layer of an encoder block maps frames to as many frames: the normalizations, the affine
maps, attention over the block's own frames, the residual additions, the feed-forward layer, and
the convolution module as long as its cache holds `kernel - 1` frames (or none). The front end
lowers the frame count: a layer of kernel `k` and stride `s` leaves at most `(n - k) / s + 1`
of `n` frames. A built encoder has two front layers of kernel 3 and stride 2, and the
convolution caches of all its blocks have the length its configuration gives.
-/

set_option autoImplicit false

namespace SpeechStream

namespace Matrix

@[simp] theorem rows_ofFn (r c : Nat) (f : Nat → Nat → Float32) : (ofFn r c f).rows = r := rfl

@[simp] theorem cols_ofFn (r c : Nat) (f : Nat → Nat → Float32) : (ofFn r c f).cols = c := rfl

@[simp] theorem size_ofFn (r c : Nat) (f : Nat → Nat → Float32) : (ofFn r c f).data.size = r * c :=
  Array.size_ofFn

@[simp] theorem rows_appendRows (a b : Matrix) : (a.appendRows b).rows = a.rows + b.rows := rfl

theorem rows_sliceRows (m : Matrix) (lo hi : Nat) :
    (m.sliceRows lo hi).rows = min hi m.rows - min lo (min hi m.rows) := rfl

theorem rows_zipWith {f : Float32 → Float32 → Float32} {a b c : Matrix} (h : zipWith f a b = .ok c) :
    c.rows = a.rows := by
  unfold zipWith at h
  split at h
  · cases h
    rfl
  · cases h

end Matrix

/-! The layers that keep the frame count. -/

theorem Norm.rows_apply {n : Norm} {x y : Matrix} (h : n.apply x = .ok y) : y.rows = x.rows := by
  unfold Norm.apply at h
  split at h
  · cases h
  · cases h
    rfl

theorem Norm.rows_applyIf {n : Norm} {p : Bool} {x y : Matrix}
    (h : (if p then n.apply x else pure x) = .ok y) : y.rows = x.rows := by
  split at h
  · exact Norm.rows_apply h
  · cases h
    rfl

theorem Affine.rows_apply {f : Affine} {x y : Matrix} (h : f.apply x = .ok y) : y.rows = x.rows := by
  unfold Affine.apply at h
  split at h
  · cases h
  · cases h
    rfl

theorem Affine.rows_applyPointwise {f : Affine} {x y : Matrix} (h : f.applyPointwise x = .ok y) :
    y.rows = x.rows := by
  unfold Affine.applyPointwise at h
  split at h
  · cases h
  · cases h
    rfl

namespace Network

theorem Cmvn.rows_apply {c : Cmvn} {x y : Matrix} (h : c.apply x = .ok y) : y.rows = x.rows := by
  unfold Cmvn.apply at h
  dsimp only at h
  split at h
  · cases h
  · cases h
    rfl

theorem rows_addFrames {x y z : Matrix} (hxy : y.rows = x.rows) (h : addFrames x y = .ok z) :
    z.rows = x.rows := by
  unfold addFrames at h
  rw [if_pos (by simp [hxy])] at h
  exact Matrix.rows_zipWith h

theorem rows_residual {pre : Bool} {norm : Norm} {x y : Matrix} {branch : Matrix → Except Fault Matrix}
    (hbranch : ∀ u v, branch u = .ok v → v.rows = u.rows) (h : residual pre norm x branch = .ok y) :
    y.rows = x.rows := by
  unfold residual at h
  obtain ⟨input, hinput, h⟩ := Except.ite_bind_eq_ok h
  obtain ⟨z, hz, h⟩ := Except.bind_eq_ok.1 h
  obtain ⟨w, hw, h⟩ := Except.bind_eq_ok.1 h
  have hw' : w.rows = x.rows :=
    rows_addFrames (by rw [hbranch _ _ hz, Norm.rows_applyIf hinput]) hw
  rw [← hw']
  split at h
  · cases h
    rfl
  · exact Norm.rows_apply h

@[simp] theorem Attention.rows_attendHeads
    (valueDot : Bool → Array Float32 → Nat → Array Float32 → Nat → Nat → Float32) (a : Attention)
    (vis : Visibility) (q : Matrix) (heads : Array (Matrix × Matrix)) (rows : Nat) :
    (a.attendHeads valueDot vis q heads rows).rows = rows := rfl

@[simp] theorem Attention.cols_attendHeads
    (valueDot : Bool → Array Float32 → Nat → Array Float32 → Nat → Nat → Float32) (a : Attention)
    (vis : Visibility) (q : Matrix) (heads : Array (Matrix × Matrix)) (rows : Nat) :
    (a.attendHeads valueDot vis q heads rows).cols = a.heads * a.dk := rfl

theorem Attention.apply_ok {a : Attention} {x memory : Matrix} {vis : Visibility}
    {cache : Option Tensor} {y : Matrix} {grown : Tensor}
    (h : a.apply x memory vis cache = .ok (y, grown)) :
    0 < a.heads ∧ y.rows = x.rows ∧ ∃ k v cached, a.key.apply memory = .ok k ∧
      a.value.apply memory = .ok v ∧ a.unpackCache cache = .ok cached ∧
      grown = a.pack (a.grow k v cached) := by
  unfold Attention.apply Attention.applyWith at h
  obtain ⟨hheads, h⟩ := Except.ite_throw_eq_ok h
  obtain ⟨q, -, h⟩ := Except.bind_eq_ok.1 h
  obtain ⟨k, hk, h⟩ := Except.bind_eq_ok.1 h
  obtain ⟨v, hv, h⟩ := Except.bind_eq_ok.1 h
  obtain ⟨cached, hcached, h⟩ := Except.bind_eq_ok.1 h
  obtain ⟨y', hy', h⟩ := Except.bind_eq_ok.1 h
  rw [Except.pure_eq_ok, Prod.mk.injEq] at h
  obtain ⟨rfl, rfl⟩ := h
  refine ⟨by simpa [Nat.pos_iff_ne_zero] using hheads, ?_, k, v, cached, hk, hv, hcached, rfl⟩
  rw [Affine.rows_apply hy', Attention.rows_attendHeads]

theorem FeedForward.rows_apply {f : FeedForward} {x y : Matrix} (h : f.apply x = .ok y) :
    y.rows = x.rows := by
  unfold FeedForward.apply at h
  obtain ⟨w, hw, hy⟩ := Except.bind_eq_ok.1 h
  rw [Affine.rows_apply hy, ← Affine.rows_apply hw]

/-! The convolution module keeps the frame count when its cache holds `kernel - 1` frames. -/

/-- A convolution cache `[1, channels, kernel - 1]`, if any. -/
def ConvModule.Fits (c : ConvModule) (cache : Option Tensor) : Prop :=
  ∀ t ∈ cache, ∃ d, t.shape = [1, d, c.lorder]

theorem ConvModule.rows_context {c : ConvModule} {cache : Option Tensor} (hc : c.Fits cache)
    {frames : Nat} {ctx : Option Matrix} (h : c.context cache frames = .ok ctx) :
    ∀ m ∈ ctx, m.rows = c.lorder := by
  intro m hm
  cases cache with
  | none =>
    cases h
    cases hm
  | some t =>
    obtain ⟨d, hd⟩ := hc t rfl
    unfold ConvModule.context at h
    simp only [hd] at h
    split at h
    · cases h
      cases hm
    · split at h
      · cases h
      · cases h
        cases hm
        rfl

theorem ConvModule.rows_join {c : ConvModule} {xn joined next : Matrix} {cache : Option Tensor}
    (hc : c.Fits cache) (h : c.join xn cache = .ok (joined, next)) :
    joined.rows = c.lorder + xn.rows ∧ next.rows = c.lorder := by
  unfold ConvModule.join at h
  split at h
  · rename_i hzero
    cases h
    simp only [beq_iff_eq] at hzero
    simp [hzero, Matrix.empty]
  · obtain ⟨ctx, hctx, h⟩ := Except.bind_eq_ok.1 h
    cases h
    have hrows : (ctx.getD (Matrix.zeros c.lorder xn.cols)).rows = c.lorder := by
      cases hm : ctx with
      | none => rfl
      | some m => exact ConvModule.rows_context hc hctx m (by simp [hm])
    simp only [Matrix.rows_appendRows, Matrix.rows_sliceRows, hrows, true_and]
    omega

@[simp] theorem ConvModule.rows_gate (σ : Nat → Nat → Float32 → Float32) (g : Matrix) (d : Nat) :
    (ConvModule.gate σ g d).rows = g.rows := rfl

@[simp] theorem ConvModule.cols_gate (σ : Nat → Nat → Float32 → Float32) (g : Matrix) (d : Nat) :
    (ConvModule.gate σ g d).cols = d := rfl

@[simp] theorem ConvModule.rows_depthwiseConv (c : ConvModule) (m : Matrix) :
    (c.depthwiseConv m).rows = m.rows - c.lorder := rfl

@[simp] theorem ConvModule.cols_depthwiseConv (c : ConvModule) (m : Matrix) :
    (c.depthwiseConv m).cols = m.cols := rfl

theorem ConvModule.steps_of_mix {σ : Nat → Nat → Float32 → Float32} {c : ConvModule}
    {joined y : Matrix} {d : Nat} (h : c.mix σ joined d = .ok y) :
    ∃ g normed, c.expand.applyPointwise joined = .ok g ∧ c.lorder < g.rows ∧
      c.outNorm.apply (c.depthwiseConv (ConvModule.gate σ g d)) = .ok normed ∧
      c.project.applyPointwise ⟨normed.rows, normed.cols, Activation.swishBlock σ normed.data⟩ =
        .ok y := by
  unfold ConvModule.mix at h
  obtain ⟨g, hg, h⟩ := Except.bind_eq_ok.1 h
  obtain ⟨hlong, h⟩ := Except.ite_throw_eq_ok h
  obtain ⟨normed, hnormed, hy⟩ := Except.bind_eq_ok.1 h
  exact ⟨g, normed, hg, by rw [ConvModule.rows_gate] at hlong; omega, hnormed, hy⟩

theorem ConvModule.rows_mix {σ : Nat → Nat → Float32 → Float32} {c : ConvModule}
    {joined y : Matrix} {d : Nat} (h : c.mix σ joined d = .ok y) :
    y.rows = joined.rows - c.lorder ∧ c.lorder < joined.rows := by
  obtain ⟨g, normed, hg, hlong, hnormed, hy⟩ := ConvModule.steps_of_mix h
  have hgr : g.rows = joined.rows := Affine.rows_applyPointwise hg
  refine ⟨?_, by omega⟩
  rw [Affine.rows_applyPointwise hy]
  show normed.rows = _
  rw [Norm.rows_apply hnormed, ConvModule.rows_depthwiseConv, ConvModule.rows_gate, hgr]

theorem ConvModule.steps_of_applyWith {σ : Nat → Nat → Float32 → Float32} {c : ConvModule}
    {x y : Matrix} {cache : Option Tensor} {out : Tensor} (h : c.applyWith σ x cache = .ok (y, out)) :
    ∃ xn joined next, c.inNorm.apply x = .ok xn ∧ c.join xn cache = .ok (joined, next) ∧
      c.mix σ joined xn.cols = .ok y ∧ out = ⟨[1, xn.cols, next.rows], next.transpose.data⟩ := by
  unfold ConvModule.applyWith at h
  obtain ⟨xn, hxn, h⟩ := Except.bind_eq_ok.1 h
  obtain ⟨⟨joined, next⟩, hjoin, h⟩ := Except.bind_eq_ok.1 h
  obtain ⟨z, hz, h⟩ := Except.bind_eq_ok.1 h
  rw [Except.pure_eq_ok, Prod.mk.injEq] at h
  obtain ⟨rfl, rfl⟩ := h
  exact ⟨xn, joined, next, hxn, hjoin, hz, rfl⟩

theorem ConvModule.rows_applyWith {σ : Nat → Nat → Float32 → Float32} {c : ConvModule}
    {x y : Matrix} {cache : Option Tensor} {out : Tensor} (hc : c.Fits cache)
    (h : c.applyWith σ x cache = .ok (y, out)) : y.rows = x.rows ∧ c.Fits (some out) := by
  obtain ⟨xn, joined, next, hxn, hjoin, hz, rfl⟩ := ConvModule.steps_of_applyWith h
  obtain ⟨hjoined, hnext⟩ := ConvModule.rows_join hc hjoin
  refine ⟨?_, ?_⟩
  · rw [(ConvModule.rows_mix hz).1, hjoined, Norm.rows_apply hxn]
    omega
  · intro t ht
    cases ht
    exact ⟨xn.cols, by rw [hnext]⟩

theorem ConvModule.rows_apply {c : ConvModule} {x y : Matrix} {cache : Option Tensor}
    {out : Tensor} (hc : c.Fits cache) (h : c.apply x cache = .ok (y, out)) :
    y.rows = x.rows ∧ c.Fits (some out) :=
  ConvModule.rows_applyWith hc h

theorem EncoderBlock.rows_apply {b : EncoderBlock} {x y : Matrix} {vis : Visibility}
    {attCache cnnCache : Option Tensor} {grown out : Tensor} (hc : b.conv.Fits cnnCache)
    (h : b.apply x vis attCache cnnCache = .ok (y, grown, out)) :
    y.rows = x.rows ∧ b.conv.Fits (some out) ∧ ∃ input att, input.rows = x.rows ∧
      b.attention.apply input input vis attCache = .ok (att, grown) := by
  unfold EncoderBlock.apply at h
  obtain ⟨input, hinput, h⟩ := Except.ite_bind_eq_ok h
  obtain ⟨⟨att, attOut⟩, hatt, h⟩ := Except.bind_eq_ok.1 h
  obtain ⟨y₁, hy₁, h⟩ := Except.bind_eq_ok.1 h
  obtain ⟨y₂, hy₂, h⟩ := Except.ite_bind_eq_ok h
  obtain ⟨⟨conv, cnnOut⟩, hconv, h⟩ := Except.bind_eq_ok.1 h
  obtain ⟨y₃, hy₃, h⟩ := Except.bind_eq_ok.1 h
  obtain ⟨y₄, hy₄, h⟩ := Except.bind_eq_ok.1 h
  obtain ⟨y₅, hy₅, h⟩ := Except.bind_eq_ok.1 h
  rw [Except.pure_eq_ok, Prod.mk.injEq, Prod.mk.injEq] at h
  obtain ⟨rfl, rfl, rfl⟩ := h
  have hin : input.rows = x.rows := Norm.rows_applyIf hinput
  have h₁ : y₁.rows = x.rows := rows_addFrames (by rw [(Attention.apply_ok hatt).2.1, hin]) hy₁
  have h₂ : y₂.rows = x.rows := by
    rw [← h₁]
    split at hy₂
    · cases hy₂
      rfl
    · exact Norm.rows_apply hy₂
  obtain ⟨hcr, hfits⟩ := ConvModule.rows_apply hc hconv
  have h₃ : y₃.rows = x.rows := by rw [rows_addFrames hcr hy₃, h₂]
  have h₄ : y₄.rows = x.rows := by
    rw [rows_residual (fun _ _ hv => FeedForward.rows_apply hv) hy₄, h₃]
  exact ⟨by rw [Norm.rows_apply hy₅, h₄], hfits, input, att, hin, hatt⟩

/-! The front end lowers the frame count. -/

/-- The frames of the first channel plane, none for no plane. -/
def planeRows (p : Planes) : Nat := (p[0]?.map Matrix.rows).getD 0

theorem ConvLayer.planeRows_apply {c : ConvLayer} {p q : Planes} (h : c.apply p = .ok q) :
    planeRows q ≤ (planeRows p - c.kernel) / c.stride + 1 := by
  unfold planeRows
  unfold ConvLayer.apply at h
  obtain ⟨-, h⟩ := Except.ite_throw_eq_ok h
  obtain ⟨h', hh', h⟩ := Except.bind_eq_ok.1 h
  obtain ⟨w', -, h⟩ := Except.bind_eq_ok.1 h
  rw [Except.pure_eq_ok] at h
  subst h
  have hout : h' = ((p[0]?.map Matrix.rows).getD 0 - c.kernel) / c.stride + 1 := by
    unfold convOut at hh'
    split at hh'
    · cases hh'
    · cases hh'
      rfl
  by_cases hc : 0 < c.outChannels
  · simp [hc, hout]
  · simp [hc]

/-- The frames left by the front layers from at most `n` frames. -/
def frontFrames (layers : List ConvLayer) (n : Nat) : Nat :=
  layers.foldl (fun n c => (n - c.kernel) / c.stride + 1) n

theorem planeRows_layers (layers : List ConvLayer) :
    ∀ (p q : Planes) (n : Nat), planeRows p ≤ n →
      layers.foldlM (fun p c => c.apply p) p = .ok q → planeRows q ≤ frontFrames layers n := by
  induction layers with
  | nil =>
    intro p q n hp h
    cases h
    exact hp
  | cons c cs ih =>
    intro p q n hp h
    rw [List.foldlM_cons] at h
    obtain ⟨p', hp', hq⟩ := Except.bind_eq_ok.1 h
    apply ih p' q _ _ hq
    calc planeRows p' ≤ (planeRows p - c.kernel) / c.stride + 1 := ConvLayer.planeRows_apply hp'
      _ ≤ (n - c.kernel) / c.stride + 1 :=
        Nat.add_le_add_right (Nat.div_le_div_right (Nat.sub_le_sub_right hp _)) 1

theorem rows_encodePositions {t : PositionTable} {x y pos : Matrix} {offset : Int}
    {t' : PositionTable} (h : encodePositions t x offset = .ok (y, pos, t')) : y.rows = x.rows := by
  unfold encodePositions at h
  obtain ⟨z, hz, h⟩ := Except.bind_eq_ok.1 h
  rw [Except.pure_eq_ok, Prod.mk.injEq] at h
  rw [← h.1, Matrix.rows_zipWith hz]
  rfl

theorem Front.rows_apply {fe fe' : Front} {x y pos : Matrix} {offset : Int}
    (h : fe.apply x offset = .ok (y, pos, fe')) : y.rows ≤ frontFrames fe.layers x.rows := by
  unfold Front.apply at h
  obtain ⟨planes, hplanes, h⟩ := Except.bind_eq_ok.1 h
  obtain ⟨z, hz, h⟩ := Except.bind_eq_ok.1 h
  obtain ⟨⟨y', pos', table⟩, henc, h⟩ := Except.bind_eq_ok.1 h
  rw [Except.pure_eq_ok, Prod.mk.injEq] at h
  obtain ⟨rfl, -⟩ := h
  rw [rows_encodePositions henc, Affine.rows_apply hz, Matrix.rows_ofFn]
  exact planeRows_layers fe.layers #[x] planes x.rows (by simp [planeRows]) hplanes

theorem Encoder.rows_embed {e : Encoder} {xs : Tensor} {offset : Int} {x : Matrix}
    (h : e.embed xs offset = .ok x) :
    ∃ b n f, xs.shape = [b, n, f] ∧ x.rows ≤ frontFrames e.front.layers n := by
  unfold Encoder.embed at h
  obtain ⟨-, h⟩ := Except.ite_throw_eq_ok h
  dsimp only at h
  split at h
  · rename_i b n f hshape
    obtain ⟨m, hm, h⟩ := Except.bind_eq_ok.1 h
    rw [Except.pure_eq_ok] at hm
    subst hm
    refine ⟨b, n, f, hshape, ?_⟩
    split at h
    · obtain ⟨m', hm', h⟩ := Except.bind_eq_ok.1 h
      have hrows : m'.rows = n := Cmvn.rows_apply hm'
      obtain ⟨⟨y, pos, fe⟩, hfront, h⟩ := Except.bind_eq_ok.1 h
      cases Except.pure_eq_ok.1 h
      exact hrows ▸ Front.rows_apply hfront
    · obtain ⟨m', hm', h⟩ := Except.bind_eq_ok.1 h
      cases Except.pure_eq_ok.1 hm'
      obtain ⟨⟨y, pos, fe⟩, hfront, h⟩ := Except.bind_eq_ok.1 h
      cases Except.pure_eq_ok.1 h
      exact Front.rows_apply hfront
  · cases h

/-! The layout of a built encoder. -/

/-- The layout every built encoder has: two front layers of kernel 3 and stride 2, and blocks
whose convolution caches hold `kernel - 1` frames. -/
structure Encoder.Conformer (e : Encoder) : Prop where
  front : e.front.layers.map (fun c => (c.kernel, c.stride)) = [(3, 2), (3, 2)]
  lorder : ∀ b ∈ e.blocks, b.conv.lorder = (e.config.kernel - 1).toNat

theorem frontFrames_conformer {layers : List ConvLayer}
    (h : layers.map (fun c => (c.kernel, c.stride)) = [(3, 2), (3, 2)]) (n : Nat) :
    frontFrames layers n = ((n - 3) / 2 + 1 - 3) / 2 + 1 := by
  rcases layers with _ | ⟨c₁, _ | ⟨c₂, _ | ⟨c₃, rest⟩⟩⟩
  · simp at h
  · simp at h
  · simp only [List.map_cons, List.map_nil, List.cons.injEq, Prod.mk.injEq] at h
    obtain ⟨⟨hk₁, hs₁⟩, ⟨hk₂, hs₂⟩, -⟩ := h
    simp [frontFrames, hk₁, hs₁, hk₂, hs₂]
  · simp at h

theorem Front.build_layers {w : Weights} {name : String} {input d : Int} {fe : Front}
    (h : Front.build w name input d [3, 3] [2, 2] = .ok fe) :
    fe.layers.map (fun c => (c.kernel, c.stride)) = [(3, 2), (3, 2)] := by
  unfold Front.build at h
  obtain ⟨-, h⟩ := Except.ite_throw_eq_ok h
  obtain ⟨ps, -, h⟩ := Except.bind_eq_ok.1 h
  obtain ⟨width, -, h⟩ := Except.bind_eq_ok.1 h
  obtain ⟨table, -, h⟩ := Except.bind_eq_ok.1 h
  rw [Except.pure_eq_ok] at h
  subst h
  rfl

theorem Encoder.build_conformer {w : Weights} {plan : Plan} {inputDim : Int} {cmvn : Option Cmvn}
    {e : Encoder} (h : Encoder.build w plan inputDim cmvn = .ok e) : e.Conformer := by
  unfold Encoder.build at h
  obtain ⟨fe, hfe, h⟩ := Except.bind_eq_ok.1 h
  rw [Except.pure_eq_ok] at h
  subst h
  refine ⟨Front.build_layers hfe, ?_⟩
  intro b hb
  simp only [List.mem_map, List.mem_range] at hb
  obtain ⟨i, -, rfl⟩ := hb
  show plan.encoder.kernel.toNat - 1 = (plan.encoder.kernel - 1).toNat
  omega

theorem Model.build_encoder {c : Config} {w : Weights} {cmvn : Option Cmvn} {m : Model}
    (h : Model.build c w cmvn = .ok m) : Encoder.build w m.plan c.inputDim cmvn = .ok m.encoder := by
  unfold Model.build at h
  obtain ⟨⟨plan, params⟩, -, h⟩ := Except.bind_eq_ok.1 h
  obtain ⟨enc, henc, h⟩ := Except.bind_eq_ok.1 h
  dsimp only at h
  split at h
  · obtain ⟨l, -, h⟩ := Except.bind_eq_ok.1 h
    obtain ⟨r, -, h⟩ := Except.bind_eq_ok.1 h
    cases Except.pure_eq_ok.1 h
    exact henc
  · obtain ⟨l, -, h⟩ := Except.bind_eq_ok.1 h
    cases Except.pure_eq_ok.1 h
    exact henc

theorem Model.build_conformer {c : Config} {w : Weights} {cmvn : Option Cmvn} {m : Model}
    (h : Model.build c w cmvn = .ok m) : m.encoder.Conformer :=
  Encoder.build_conformer (Model.build_encoder h)

end Network

end SpeechStream
