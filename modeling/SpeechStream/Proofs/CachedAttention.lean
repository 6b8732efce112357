import SpeechStream.Proofs.ChunkedConvolution
import Mathlib.Data.List.Basic
/-!
Attention over a cache is attention over the whole history.

Attention keeps the keys and values of the frames it attended to, packed head by head, keys then
values, as its cache. Read back, such a cache gives every head the keys and values of the history
(`Attention.unpackCache_pack_grow`). A linear map of frames one above the other is the maps of each
one above the other (`Affine.apply_appendRows`), so the keys and values grown from the cache are
those of the history and the chunk together (`Attention.grow_history`), and attention to a chunk
over the cache computes what attention to the chunk over the history and the chunk computes, the
output and the grown cache alike (`Attention.apply_after_history`).

A query's mask hides keys from it. A hidden key's score is replaced before the softmax and its
weight after it, so the query's weights do not depend on what the hidden keys hold; when a value
under a zero weight counts for nothing, as in exact arithmetic (`Kernel.ZeroWeightsVanish`), the
query's output does not depend on the hidden values either (`Attention.sameRow_applyWith`).
-/

set_option autoImplicit false

namespace SpeechStream

namespace Matrix

theorem dense_sliceCols (m : Matrix) (lo n : Nat) : (m.sliceCols lo n).Dense := dense_ofFn _ _ _

theorem sliceCols_appendRows {a b : Matrix} (ha : a.Dense) (hc : b.cols = a.cols) {lo n : Nat}
    (hlo : lo + n ≤ a.cols) :
    (a.appendRows b).sliceCols lo n = (a.sliceCols lo n).appendRows (b.sliceCols lo n) := by
  have hsa := dense_sliceCols a lo n
  refine ext_get (dense_sliceCols _ lo n) (dense_appendRows hsa (dense_sliceCols b lo n) rfl) rfl
    rfl ?_
  intro i j hi hj
  change i < a.rows + b.rows at hi
  change j < n at hj
  rw [get_sliceCols hi hj]
  by_cases hia : i < a.rows
  · rw [get_appendRows_left ha hia (by omega), get_appendRows_left hsa hia hj, get_sliceCols hia hj]
  · obtain ⟨r, rfl⟩ := Nat.exists_eq_add_of_le (Nat.le_of_not_lt hia)
    rw [get_appendRows_right ha hc r (lo + j),
      show a.rows + r = (a.sliceCols lo n).rows + r from rfl,
      get_appendRows_right hsa (show (b.sliceCols lo n).cols = (a.sliceCols lo n).cols from rfl) r j,
      get_sliceCols (by omega) hj]

end Matrix

namespace Network

open SpeechStream.Matrix

/-- The layer sizes of an attention over frames of `d` features: the three input maps read `d`
features, the key and value maps write the columns of every head, and the output map reads
them. -/
structure Attention.Shaped (a : Attention) (d : Nat) : Prop where
  heads : 0 < a.heads
  query : a.query.weight.cols = d
  key : a.key.weight.cols = d
  value : a.value.weight.cols = d
  keyOut : a.key.weight.rows = a.heads * a.dk
  valueOut : a.value.weight.rows = a.heads * a.dk
  out : a.out.weight.cols = a.heads * a.dk

/-! The cache law. -/

theorem Attention.unpackCache_pack_grow {a : Attention} {k v : Matrix} (hpos : 0 < a.heads)
    (hT : 0 < k.rows) (hv : v.rows = k.rows) :
    ∃ cs, a.unpackCache (some (a.pack (a.grow k v none))) = .ok (some cs) ∧ ∀ hh, hh < a.heads →
      cs.getD hh default = (k.sliceCols (hh * a.dk) a.dk, v.sliceCols (hh * a.dk) a.dk) := by
  have hrows : ((a.grow k v none)[0]?.map (fun p => p.1.rows)).getD 0 = k.rows := by
    rw [Attention.grow_none _ _ _ hpos]
    rfl
  have hshape : (a.pack (a.grow k v none)).shape = [1, a.heads, k.rows, 2 * a.dk] := by
    rw [Attention.shape_pack, hrows]
  obtain ⟨cached, hcached⟩ := Attention.unpackCache_ok
    (show ∀ t ∈ some (a.pack (a.grow k v none)), ∃ T, t.shape = [1, a.heads, T, 2 * a.dk] from
      fun t ht => ⟨k.rows, by cases ht; exact hshape⟩)
  obtain ⟨-, -, cs, rfl, hcs⟩ := Attention.unpackCache_some hshape hT hcached
  refine ⟨cs, hcached, fun hh hhh => ?_⟩
  have hsize : hh < (a.grow k v none).size := by rwa [Attention.size_grow]
  have hhead : (a.grow k v none)[hh] =
      (k.sliceCols (hh * a.dk) a.dk, v.sliceCols (hh * a.dk) a.dk) :=
    (Array.getElem?_eq_some_iff.1 (Attention.grow_none a k v hhh)).2
  rw [hcs hh hhh]
  refine Prod.ext ?_ ?_ <;> dsimp only <;> unfold Matrix.sliceCols
  · refine ofFn_congr fun i j hi hj => ?_
    rw [Attention.getD_pack a _ hrows hsize hi (by omega), if_pos hj, hhead]
    exact get_sliceCols hi hj
  · rw [hv]
    refine ofFn_congr fun i j hi hj => ?_
    rw [Attention.getD_pack a _ hrows hsize hi (by omega), if_neg (by omega), hhead,
      Nat.add_sub_cancel_left]
    exact get_sliceCols (hv ▸ hi) hj

theorem Attention.grow_history {a : Attention} {kh vh k v : Matrix} {cs : Array (Matrix × Matrix)}
    (hcs : ∀ hh, hh < a.heads →
      cs.getD hh default = (kh.sliceCols (hh * a.dk) a.dk, vh.sliceCols (hh * a.dk) a.dk))
    (hkh : kh.Dense) (hvh : vh.Dense) (hk : k.cols = kh.cols) (hv : v.cols = vh.cols)
    (hkw : a.heads * a.dk ≤ kh.cols) (hvw : a.heads * a.dk ≤ vh.cols) :
    a.grow k v (some cs) = a.grow (kh.appendRows k) (vh.appendRows v) none := by
  unfold Attention.grow
  dsimp only
  congr 1
  funext hh
  have hcol : hh.val * a.dk + a.dk ≤ a.heads * a.dk := by
    rw [← Nat.succ_mul]
    exact Nat.mul_le_mul_right _ hh.isLt
  simp only [hcs hh.val hh.isLt]
  rw [sliceCols_appendRows hkh hk (by omega), sliceCols_appendRows hvh hv (by omega)]

theorem Attention.apply_after_history {a : Attention} {d : Nat} (ha : a.Shaped d) {h c : Matrix}
    (hh : h.Dense) (hhd : h.cols = d) (hcd : c.cols = d) (hT : 0 < h.rows) {vis₀ : Visibility}
    {y₀ : Matrix} {cache : Tensor} (h₀ : a.apply h h vis₀ none = .ok (y₀, cache))
    (vis : Visibility) :
    a.apply c c vis (some cache) = a.apply c (h.appendRows c) vis none := by
  obtain ⟨-, -, kh, vh, cached, hkh, hvh, hcached, rfl⟩ := Attention.apply_ok h₀
  have hnone : a.unpackCache none = .ok none := rfl
  obtain rfl : cached = none := Except.ok.inj (hcached.symm.trans hnone)
  have hkhr : kh.rows = h.rows := Affine.rows_apply hkh
  have hvhr : vh.rows = h.rows := Affine.rows_apply hvh
  obtain ⟨cs, hunpack, hcs⟩ :=
    Attention.unpackCache_pack_grow ha.heads (by omega) (hvhr.trans hkhr.symm)
  obtain ⟨k, hk, -, hkc⟩ := Affine.apply_ok (show c.cols = a.key.weight.cols by rw [hcd, ha.key])
  obtain ⟨v, hv, -, hvc⟩ :=
    Affine.apply_ok (show c.cols = a.value.weight.cols by rw [hcd, ha.value])
  have hkhc : kh.cols = a.heads * a.dk := (Affine.cols_apply hkh).trans ha.keyOut
  have hvhc : vh.cols = a.heads * a.dk := (Affine.cols_apply hvh).trans ha.valueOut
  have hgrow := Attention.grow_history hcs (Affine.dense_apply hkh) (Affine.dense_apply hvh)
    (hkc.trans (Affine.cols_apply hkh).symm) (hvc.trans (Affine.cols_apply hvh).symm) hkhc.ge
    hvhc.ge
  have hchunk : c.cols = h.cols := hcd.trans hhd.symm
  unfold Attention.apply Attention.applyWith
  simp only [hk, hv, hunpack, hnone, Affine.apply_appendRows hh hchunk hkh hk,
    Affine.apply_appendRows hh hchunk hvh hv, hgrow, bind, Except.bind]

theorem Attention.steps_of_applyWith
    {valueDot : Bool → Array Float32 → Nat → Array Float32 → Nat → Nat → Float32} {a : Attention}
    {x memory y : Matrix} {vis : Visibility} {cache : Option Tensor} {grown : Tensor}
    (h : a.applyWith valueDot x memory vis cache = .ok (y, grown)) :
    ∃ q k v cached, a.query.apply x = .ok q ∧ a.key.apply memory = .ok k ∧
      a.value.apply memory = .ok v ∧ a.unpackCache cache = .ok cached ∧
      a.out.apply (a.attendHeads valueDot vis q (a.grow k v cached) x.rows) = .ok y ∧
      grown = a.pack (a.grow k v cached) := by
  unfold Attention.applyWith at h
  obtain ⟨-, h⟩ := Except.ite_throw_eq_ok h
  obtain ⟨q, hq, h⟩ := Except.bind_eq_ok.1 h
  obtain ⟨k, hk, h⟩ := Except.bind_eq_ok.1 h
  obtain ⟨v, hv, h⟩ := Except.bind_eq_ok.1 h
  obtain ⟨cached, hcached, h⟩ := Except.bind_eq_ok.1 h
  obtain ⟨y', hy', h⟩ := Except.bind_eq_ok.1 h
  rw [Except.pure_eq_ok, Prod.mk.injEq] at h
  obtain ⟨rfl, rfl⟩ := h
  exact ⟨q, k, v, cached, hq, hk, hv, hcached, hy', rfl⟩

theorem Attention.get_attendHeads
    (valueDot : Bool → Array Float32 → Nat → Array Float32 → Nat → Nat → Float32) (a : Attention)
    (vis : Visibility) (q : Matrix) {heads : Array (Matrix × Matrix)} (hsize : heads.size = a.heads)
    {rows i j : Nat} (hi : i < rows) (hj : j < a.heads * a.dk) :
    (a.attendHeads valueDot vis q heads rows).get i j =
      (attendHead valueDot vis a.dk (Float.sqrt (Float.ofNat a.dk)).toFloat32
        (q.sliceCols (j / a.dk * a.dk) a.dk) (heads.getD (j / a.dk) default).1
        (heads.getD (j / a.dk) default).2).get i (j % a.dk) := by
  have hdk : 0 < a.dk := Nat.pos_of_ne_zero fun h0 => by simp [h0] at hj
  have hh : j / a.dk < heads.size := by
    rw [hsize]
    exact Nat.div_lt_of_lt_mul (by rwa [Nat.mul_comm] at hj)
  unfold Attention.attendHeads
  dsimp only
  rw [get_ofFn hi hj, Array.getD_eq_getD_getElem?, Array.getElem?_mapIdx,
    Array.getElem?_eq_getElem hh, Option.map_some, Option.getD_some]
  simp only [Array.getD_eq_getD_getElem?, Array.getElem?_eq_getElem hh, Option.getD_some]

end Network

namespace Kernel

@[simp] theorem size_softmaxRow (row : Array Float32) : (softmaxRow row).size = row.size := by
  simp [softmaxRow]

/-- A weighted sum of `n` values that reads `n` weights and `n` values from its positions, and in
which a value under a zero weight counts for nothing, as in exact arithmetic. -/
def ZeroWeightsVanish (dot : Array Float32 → Nat → Array Float32 → Nat → Nat → Float32) : Prop :=
  ∀ w w' v v' i i' j j' n, (∀ k, k < n → w.getD (i + k) 0 = w'.getD (i' + k) 0) →
    (∀ k, k < n → w.getD (i + k) 0 ≠ 0 → v.getD (j + k) 0 = v'.getD (j' + k) 0) →
    dot w i v j n = dot w' i' v' j' n

/-- A weighted sum that skips the terms under a zero weight. -/
def skipZeroDot (w : Array Float32) (i : Nat) (v : Array Float32) (j n : Nat) : Float32 :=
  (List.range n).foldl (fun acc k =>
    if w.getD (i + k) 0 == 0 then acc else acc + w.getD (i + k) 0 * v.getD (j + k) 0) 0

theorem zeroWeightsVanish_skipZeroDot : ZeroWeightsVanish skipZeroDot := by
  intro w w' v v' i i' j j' n hw hv
  unfold skipZeroDot
  refine List.foldl_ext _ _ _ fun acc k hk => ?_
  have hkn : k < n := List.mem_range.1 hk
  rw [hw k hkn]
  by_cases hz : (w'.getD (i' + k) 0 == 0) = true
  · rw [if_pos hz, if_pos hz]
  · -- a term that is kept has a weight other than zero, so its values agree
    have hne : w.getD (i + k) 0 ≠ 0 := fun h0 => hz (by rw [← hw k hkn, h0]; decide)
    rw [if_neg hz, if_neg hz, hv k hkn hne]

end Kernel

namespace Network

open SpeechStream.Matrix

/-! The mask law. -/

@[simp] theorem rows_headScores (dk : Nat) (scale : Float32) (qh kh : Matrix) :
    (headScores dk scale qh kh).rows = qh.rows := rfl

@[simp] theorem cols_headScores (dk : Nat) (scale : Float32) (qh kh : Matrix) :
    (headScores dk scale qh kh).cols = kh.rows := rfl

theorem headScores_congr {dk : Nat} {scale : Float32} {qh kh kh' : Matrix} (hk : kh.cols = dk)
    (hk' : kh'.cols = dk) (hkr : kh'.rows = kh.rows) {i j : Nat} (hi : i < qh.rows)
    (hj : j < kh.rows) (h : SameRow dk kh j kh' j) :
    (headScores dk scale qh kh).get i j = (headScores dk scale qh kh').get i j := by
  have hkey : ∀ c, c < dk → kh.data.getD (j * dk + c) 0 = kh'.data.getD (j * dk + c) 0 := by
    intro c hc
    have hentry := h c hc
    unfold Matrix.get at hentry
    rwa [hk, hk'] at hentry
  unfold headScores
  rw [hkr]
  dsimp only
  rw [get_ofFn hi hj, get_ofFn hi hj]
  congr 1
  split
  · exact Kernel.dotAt_congr (fun _ _ => rfl) hkey
  · split
    · exact Kernel.pairedChainAt_congr (fun _ _ => rfl) hkey
    · exact Kernel.chainAt_congr (fun _ _ => rfl) hkey

theorem get_attentionWeights_some (scores : Matrix) (seen : Nat → Nat → Bool) {i j : Nat}
    (hi : i < scores.rows) (hj : j < scores.cols) :
    (attentionWeights scores (some seen)).get i j =
      if seen i j then ((ofFn scores.rows scores.cols fun i j =>
        if seen i j then scores.get i j else lowestScore).mapRows Kernel.softmaxRow).get i j
      else 0 :=
  get_ofFn hi hj

theorem sameRow_attentionWeights (scores scores' : Matrix) (hr : scores'.rows = scores.rows)
    (hc : scores'.cols = scores.cols) (seen : Nat → Nat → Bool) {i : Nat} (hi : i < scores.rows)
    (h : ∀ j, j < scores.cols → seen i j = true → scores.get i j = scores'.get i j) :
    SameRow scores.cols (attentionWeights scores (some seen)) i
      (attentionWeights scores' (some seen)) i := by
  intro j hj
  rw [get_attentionWeights_some scores seen hi hj,
    get_attentionWeights_some scores' seen (hr ▸ hi) (hc ▸ hj), hr, hc]
  by_cases hs : seen i j = true
  · rw [if_pos hs, if_pos hs]
    have hmasked : SameRow scores.cols
        (ofFn scores.rows scores.cols fun i j => if seen i j then scores.get i j else lowestScore) i
        (ofFn scores.rows scores.cols fun i j => if seen i j then scores'.get i j else lowestScore)
        i := by
      intro l hl
      rw [get_ofFn hi hl, get_ofFn hi hl]
      by_cases hsl : seen i l = true
      · rw [if_pos hsl, if_pos hsl, h l hl hsl]
      · rw [if_neg hsl, if_neg hsl]
    exact @sameRow_mapRows Kernel.softmaxRow Kernel.size_softmaxRow
      (ofFn scores.rows scores.cols fun i j => if seen i j then scores.get i j else lowestScore)
      (ofFn scores.rows scores.cols fun i j => if seen i j then scores'.get i j else lowestScore)
      (dense_ofFn _ _ _) (dense_ofFn _ _ _) rfl i i hi hi hmasked j hj
  · rw [if_neg hs, if_neg hs]

theorem sameRow_attendHead
    {valueDot : Bool → Array Float32 → Nat → Array Float32 → Nat → Nat → Float32}
    (hvd : ∀ large, Kernel.ZeroWeightsVanish (valueDot large)) (seen : Nat → Nat → Bool)
    {dk : Nat} {scale : Float32} {qh kh kh' vh vh' : Matrix} (hk : kh.cols = dk)
    (hk' : kh'.cols = dk) (hkr : kh'.rows = kh.rows) (hvc : vh.cols = dk) (hvc' : vh'.cols = dk)
    (hvr : vh.rows = kh.rows) (hvr' : vh'.rows = kh.rows) {i : Nat} (hi : i < qh.rows)
    (hseen : ∀ j, j < kh.rows → seen i j = true → SameRow dk kh j kh' j ∧ SameRow dk vh j vh' j) :
    SameRow dk (attendHead valueDot (some seen) dk scale qh kh vh) i
      (attendHead valueDot (some seen) dk scale qh kh' vh') i := by
  intro e he
  -- the sizes of the two score matrices agree through their lemmas: the kernel, left to compare
  -- the two `headScores` terms, unfolds their entries first
  have hsr : (headScores dk scale qh kh').rows = (headScores dk scale qh kh).rows := by
    rw [rows_headScores, rows_headScores]
  have hsc : (headScores dk scale qh kh').cols = (headScores dk scale qh kh).cols := by
    rw [cols_headScores, cols_headScores, hkr]
  have hw := sameRow_attentionWeights (headScores dk scale qh kh) (headScores dk scale qh kh') hsr
    hsc seen hi (fun j hj hs => headScores_congr hk hk' hkr hi hj (hseen j hj hs).1)
  have hzero : ∀ l, l < kh.rows → seen i l = false →
      (attentionWeights (headScores dk scale qh kh) (some seen)).get i l = 0 := by
    intro l hl hs
    rw [get_attentionWeights_some (headScores dk scale qh kh) seen hi hl, if_neg (by simp [hs])]
  unfold attendHead
  dsimp only
  rw [hkr, get_ofFn hi he, get_ofFn hi he]
  refine hvd _ _ _ _ _ _ _ _ _ _ (fun l hl => hw l hl) (fun l hl hne => ?_)
  have hs : seen i l = true := by
    cases hsl : seen i l
    · exact absurd (hzero l hl hsl) hne
    · rfl
  have hleft : vh.transpose.data.getD (e * vh.transpose.cols + l) 0 = vh.get l e :=
    getD_transpose (hvr ▸ hl) (hvc ▸ he)
  have hright : vh'.transpose.data.getD (e * vh'.transpose.cols + l) 0 = vh'.get l e :=
    getD_transpose (hvr' ▸ hl) (hvc' ▸ he)
  rw [hleft, hright]
  exact (hseen l hl hs).2 e he

theorem Attention.getD_grow_none (a : Attention) (k v : Matrix) {hh : Nat} (hhh : hh < a.heads) :
    (a.grow k v none).getD hh default = (k.sliceCols (hh * a.dk) a.dk, v.sliceCols (hh * a.dk) a.dk) := by
  rw [Array.getD_eq_getD_getElem?, Attention.grow_none a k v hhh, Option.getD_some]

theorem Attention.sameRow_attendHeads
    {valueDot : Bool → Array Float32 → Nat → Array Float32 → Nat → Nat → Float32}
    (hvd : ∀ large, Kernel.ZeroWeightsVanish (valueDot large)) (a : Attention)
    (seen : Nat → Nat → Bool) {q k v k' v' : Matrix} (hkc : k.cols = a.heads * a.dk)
    (hvc : v.cols = a.heads * a.dk) (hkr : k'.rows = k.rows) (hvr : v.rows = k.rows)
    (hvr' : v'.rows = k.rows) {rows i : Nat} (hi : i < rows) (hqi : i < q.rows)
    (hseen : ∀ l, l < k.rows → seen i l = true →
      SameRow k.cols k l k' l ∧ SameRow v.cols v l v' l) :
    SameRow (a.heads * a.dk) (a.attendHeads valueDot (some seen) q (a.grow k v none) rows) i
      (a.attendHeads valueDot (some seen) q (a.grow k' v' none) rows) i := by
  intro j hj
  have hdk : 0 < a.dk := Nat.pos_of_ne_zero fun h0 => by simp [h0] at hj
  have hhd : j / a.dk < a.heads := Nat.div_lt_of_lt_mul (by rwa [Nat.mul_comm] at hj)
  rw [Attention.get_attendHeads _ _ _ _ (Attention.size_grow a k v none) hi hj,
    Attention.get_attendHeads _ _ _ _ (Attention.size_grow a k' v' none) hi hj,
    Attention.getD_grow_none a k v hhd, Attention.getD_grow_none a k' v' hhd]
  refine (@sameRow_attendHead valueDot hvd seen a.dk _ _ _ _ _ _ ?_ ?_ ?_ ?_ ?_ ?_ ?_ i ?_ ?_)
    (j % a.dk) (Nat.mod_lt j hdk)
  any_goals rfl
  · exact hkr
  · exact hvr
  · exact hvr'
  · exact hqi
  intro l hl hs
  have hlk : l < k.rows := hl
  refine ⟨fun c hc => ?_, fun c hc => ?_⟩
  · rw [get_sliceCols hlk hc, get_sliceCols (hkr ▸ hlk) hc]
    exact (hseen l hlk hs).1 _ (by rw [hkc]; exact mul_add_lt hhd hc)
  · rw [get_sliceCols (hvr ▸ hlk) hc, get_sliceCols (hvr' ▸ hlk) hc]
    exact (hseen l hlk hs).2 _ (by rw [hvc]; exact mul_add_lt hhd hc)

theorem Attention.sameRow_applyWith
    {valueDot : Bool → Array Float32 → Nat → Array Float32 → Nat → Nat → Float32}
    (hvd : ∀ large, Kernel.ZeroWeightsVanish (valueDot large)) {a : Attention} {d : Nat}
    (ha : a.Shaped d) {x m m' y y' : Matrix} {grown grown' : Tensor} (seen : Nat → Nat → Bool)
    (hm : m.cols = d) (hm' : m'.cols = d) (hr : m'.rows = m.rows)
    (hy : a.applyWith valueDot x m (some seen) none = .ok (y, grown))
    (hy' : a.applyWith valueDot x m' (some seen) none = .ok (y', grown')) {i : Nat}
    (hi : i < x.rows) (hseen : ∀ j, j < m.rows → seen i j = true → SameRow d m j m' j) :
    SameRow y.cols y i y' i := by
  obtain ⟨q, k, v, cached, hq, hk, hv, hcached, hout, -⟩ := Attention.steps_of_applyWith hy
  obtain ⟨q', k', v', cached', hq', hk', hv', hcached', hout', -⟩ := Attention.steps_of_applyWith hy'
  obtain rfl : q = q' := Except.ok.inj (hq.symm.trans hq')
  obtain rfl : cached = none := Except.ok.inj hcached.symm
  obtain rfl : cached' = none := Except.ok.inj hcached'.symm
  have hkr : k.rows = m.rows := Affine.rows_apply hk
  have hkv : ∀ j, j < k.rows → seen i j = true →
      SameRow k.cols k j k' j ∧ SameRow v.cols v j v' j := by
    intro j hj hs
    have hj' : j < m.rows := hkr ▸ hj
    have hframe : SameRow m.cols m j m' j := hm ▸ hseen j hj' hs
    exact ⟨Affine.sameRow_apply (hm.trans hm'.symm) hj' (hr ▸ hj') hframe hk hk',
      Affine.sameRow_apply (hm.trans hm'.symm) hj' (hr ▸ hj') hframe hv hv'⟩
  have hjoined := Attention.sameRow_attendHeads hvd a seen
    ((Affine.cols_apply hk).trans ha.keyOut) ((Affine.cols_apply hv).trans ha.valueOut)
    ((Affine.rows_apply hk').trans (hr.trans hkr.symm)) ((Affine.rows_apply hv).trans hkr.symm)
    ((Affine.rows_apply hv').trans (hr.trans hkr.symm)) hi (by rwa [Affine.rows_apply hq]) hkv
  refine Affine.sameRow_apply ?_ ?_ ?_ ?_ hout hout'
  exacts [by rw [Attention.cols_attendHeads, Attention.cols_attendHeads], hi, hi, hjoined]

theorem Attention.cache_matches_history {a : Attention} {d : Nat} (ha : a.Shaped d)
    {h c : Matrix} (hh : h.Dense) (hhd : h.cols = d) (hcd : c.cols = d) (hT : 0 < h.rows)
    (vis₀ vis : Visibility) :
    ∃ y₀ cache y grown, a.apply h h vis₀ none = .ok (y₀, cache) ∧
      a.apply c c vis (some cache) = .ok (y, grown) ∧
      a.apply c (h.appendRows c) vis none = .ok (y, grown) ∧
      ∀ hd j, hd < a.heads → j < h.rows + c.rows →
        a.Holds grown a.heads (h.rows + c.rows) 0 hd j (h.appendRows c) j := by
  obtain ⟨y₀, cache, h₀, -, -⟩ := @Attention.apply_succeeds a h vis₀ none ha.heads
    (hhd.trans ha.query.symm) (hhd.trans ha.key.symm) (hhd.trans ha.value.symm) ha.out (by simp)
  obtain ⟨hshape, -, -⟩ := Attention.apply_fresh rfl h₀
  obtain ⟨y, grown, hrun, -, -⟩ := @Attention.apply_succeeds a c vis (some cache) ha.heads
    (hcd.trans ha.query.symm) (hcd.trans ha.key.symm) (hcd.trans ha.value.symm) ha.out
    (fun t ht => ⟨h.rows, by cases ht; exact hshape⟩)
  have hfull : a.apply c (h.appendRows c) vis none = .ok (y, grown) :=
    (Attention.apply_after_history ha hh hhd hcd hT h₀ vis).symm.trans hrun
  obtain ⟨-, -, hholds⟩ := Attention.apply_fresh rfl hfull
  exact ⟨y₀, cache, y, grown, h₀, hrun, hfull, hholds⟩

/-- Cached attention is attention over the concatenated history, and a masked query does not see
the frames it hides. Attention to a chunk `c` over the cache that attention to a history `h` left
returns the output and the grown cache of attention to the chunk over `h` and `c` together, a cache
holding the keys and values of every frame of `h` and `c`. Under a mask, when a value under a zero
weight counts for nothing, each query's output is the same over two memories that agree on the
frames the query sees. -/
theorem Attention.cached_attention_matches_history {a : Attention} {d : Nat} (ha : a.Shaped d)
    {h c : Matrix} (hh : h.Dense) (hhd : h.cols = d) (hcd : c.cols = d) (hT : 0 < h.rows)
    (vis₀ vis : Visibility)
    (valueDot : Bool → Array Float32 → Nat → Array Float32 → Nat → Nat → Float32)
    (hvd : ∀ large, Kernel.ZeroWeightsVanish (valueDot large)) {x m m' : Matrix}
    (hxd : x.cols = d) (hm : m.cols = d) (hm' : m'.cols = d) (hr : m'.rows = m.rows)
    (seen : Nat → Nat → Bool) :
    (∃ y₀ cache y grown, a.apply h h vis₀ none = .ok (y₀, cache) ∧
      a.apply c c vis (some cache) = .ok (y, grown) ∧
      a.apply c (h.appendRows c) vis none = .ok (y, grown) ∧
      ∀ hd j, hd < a.heads → j < h.rows + c.rows →
        a.Holds grown a.heads (h.rows + c.rows) 0 hd j (h.appendRows c) j) ∧
    ∃ y y' grown grown', a.applyWith valueDot x m (some seen) none = .ok (y, grown) ∧
      a.applyWith valueDot x m' (some seen) none = .ok (y', grown') ∧
      ∀ i, i < x.rows → (∀ j, j < m.rows → seen i j = true → SameRow d m j m' j) →
        SameRow y.cols y i y' i := by
  refine ⟨Attention.cache_matches_history ha hh hhd hcd hT vis₀ vis, ?_⟩
  obtain ⟨y, grown, hy, -, -⟩ := Attention.applyWith_succeeds valueDot ha.heads
    (hxd.trans ha.query.symm) (hm.trans ha.key.symm) (hm.trans ha.value.symm) ha.out
    (show ∀ t ∈ (none : Option Tensor), ∃ T, t.shape = [1, a.heads, T, 2 * a.dk] by simp)
  obtain ⟨y', grown', hy', -, -⟩ := Attention.applyWith_succeeds valueDot ha.heads
    (hxd.trans ha.query.symm) (hm'.trans ha.key.symm) (hm'.trans ha.value.symm) ha.out
    (show ∀ t ∈ (none : Option Tensor), ∃ T, t.shape = [1, a.heads, T, 2 * a.dk] by simp)
  exact ⟨y, y', grown, grown', hy, hy', fun i hi hseen =>
    Attention.sameRow_applyWith hvd ha seen hm hm' hr hy hy' hi hseen⟩

theorem cached_attention_matches_history_after_two_frames :
    (Weights.reference.attention "self_attn" 1 1).Shaped 1 ∧ (ofFn 2 1 fun i _ => Float32.ofNat i).Dense ∧
    Kernel.ZeroWeightsVanish Kernel.skipZeroDot ∧
    (∃ y₀ cache y grown,
      (Weights.reference.attention "self_attn" 1 1).apply (ofFn 2 1 fun i _ => Float32.ofNat i) (ofFn 2 1 fun i _ => Float32.ofNat i) none none = .ok (y₀, cache) ∧
      (Weights.reference.attention "self_attn" 1 1).apply (zeros 1 1) (zeros 1 1) none (some cache) = .ok (y, grown) ∧
      (Weights.reference.attention "self_attn" 1 1).apply (zeros 1 1) ((ofFn 2 1 fun i _ => Float32.ofNat i).appendRows (zeros 1 1)) none none =
        .ok (y, grown) ∧
      ∀ hd j, hd < (Weights.reference.attention "self_attn" 1 1).heads → j < (ofFn 2 1 fun i _ => Float32.ofNat i).rows + (zeros 1 1).rows →
        (Weights.reference.attention "self_attn" 1 1).Holds grown (Weights.reference.attention "self_attn" 1 1).heads
          ((ofFn 2 1 fun i _ => Float32.ofNat i).rows + (zeros 1 1).rows) 0 hd j ((ofFn 2 1 fun i _ => Float32.ofNat i).appendRows (zeros 1 1)) j) ∧
    ∃ y y' grown grown',
      (Weights.reference.attention "self_attn" 1 1).applyWith (fun _ => Kernel.skipZeroDot) (zeros 1 1) (zeros 2 1)
        (some fun _ j => j == 0) none = .ok (y, grown) ∧
      (Weights.reference.attention "self_attn" 1 1).applyWith (fun _ => Kernel.skipZeroDot) (zeros 1 1) (ofFn 2 1 fun i _ => Float32.ofNat i)
        (some fun _ j => j == 0) none = .ok (y', grown') ∧
      ∀ i, i < (zeros 1 1).rows →
        (∀ j, j < (zeros 2 1).rows → (j == 0) = true → SameRow 1 (zeros 2 1) j (ofFn 2 1 fun i _ => Float32.ofNat i) j) →
        SameRow y.cols y i y' i := by
  have ha : (Weights.reference.attention "self_attn" 1 1).Shaped 1 := ⟨by decide, rfl, rfl, rfl, rfl, rfl, rfl⟩
  have hh := dense_ofFn 2 1 fun i _ => Float32.ofNat i
  have hT : 0 < (ofFn 2 1 fun i _ => Float32.ofNat i).rows := by decide
  exact ⟨ha, hh, Kernel.zeroWeightsVanish_skipZeroDot,
    @Attention.cached_attention_matches_history _ 1 ha _ (zeros 1 1) hh rfl rfl hT none none
      (fun _ => Kernel.skipZeroDot) (fun _ => Kernel.zeroWeightsVanish_skipZeroDot) (zeros 1 1)
      (zeros 2 1) (ofFn 2 1 fun i _ => Float32.ofNat i) rfl rfl rfl rfl fun _ j => j == 0⟩

end Network

end SpeechStream
