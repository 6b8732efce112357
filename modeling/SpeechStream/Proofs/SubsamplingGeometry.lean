import SpeechStream.Proofs.FrameCounts
import SpeechStream.Proofs.ChunkWindows
import Mathlib.Tactic.Ring
/-!
Subsampling geometry.

A front end of strided convolutions with kernels `kᵢ` and strides `sᵢ` lowers the frame rate by
`rate = ∏ sᵢ` and looks `context = Σ (kᵢ - 1) · ∏_{j<i} sⱼ` frames ahead. Layer by layer it keeps
`max ((n - k) // s + 1) 0` of `n` frames; with positive kernels and strides the floor divisions
nest into one, and a layer that is left without frames leaves none at the end, so all layers keep
`max 0 ((n - context - 1) // rate + 1)` frames (`Network.frontLength_eq`).
-/

set_option autoImplicit false

namespace SpeechStream.Network

/-- Layers whose kernels and strides are positive. -/
def PositiveLayers (layers : List (Int × Int)) : Prop := ∀ l ∈ layers, 0 < l.1 ∧ 0 < l.2

theorem PositiveLayers.tail {l : Int × Int} {rest : List (Int × Int)}
    (h : PositiveLayers (l :: rest)) : PositiveLayers rest :=
  fun l' hl' => h l' (List.mem_cons_of_mem _ hl')

theorem PositiveLayers.head {k s : Int} {rest : List (Int × Int)}
    (h : PositiveLayers ((k, s) :: rest)) : 0 < k ∧ 0 < s :=
  h (k, s) List.mem_cons_self

theorem frontRate_foldl (layers : List (Int × Int)) (a : Int) :
    layers.foldl (fun acc (_, s) => acc * s) a = a * frontRate layers := by
  induction layers generalizing a with
  | nil => simp [frontRate]
  | cons l rest ih =>
    simp only [frontRate, List.foldl_cons, Int.one_mul]
    rw [ih, ih l.2, Int.mul_assoc]

theorem frontRate_cons (k s : Int) (rest : List (Int × Int)) :
    frontRate ((k, s) :: rest) = s * frontRate rest := by
  simp only [frontRate, List.foldl_cons, Int.one_mul]
  exact frontRate_foldl rest s

theorem frontContext_foldl (layers : List (Int × Int)) (c p : Int) :
    layers.foldl (fun (acc : Int × Int) (k, s) => (acc.1 + (k - 1) * acc.2, acc.2 * s)) (c, p) =
      (c + p * frontContext layers, p * frontRate layers) := by
  induction layers generalizing c p with
  | nil => simp [frontContext, frontRate]
  | cons l rest ih =>
    obtain ⟨k, s⟩ := l
    have hctx : frontContext ((k, s) :: rest) = (k - 1) + s * frontContext rest := by
      rw [frontContext]
      simp only [List.foldl_cons]
      rw [ih]
      simp
    simp only [List.foldl_cons]
    rw [ih, hctx, frontRate_cons, Prod.mk.injEq]
    constructor <;> ring

theorem frontContext_cons (k s : Int) (rest : List (Int × Int)) :
    frontContext ((k, s) :: rest) = (k - 1) + s * frontContext rest := by
  rw [frontContext, List.foldl_cons, frontContext_foldl]
  simp

theorem frontLength_cons (k s : Int) (rest : List (Int × Int)) (n : Int) :
    frontLength ((k, s) :: rest) n =
      frontLength rest (max (if s == 0 then 0 else Int.fdiv (n - k) s + 1) 0) := rfl

theorem frontRate_pos {layers : List (Int × Int)} (h : PositiveLayers layers) :
    0 < frontRate layers := by
  induction layers with
  | nil => simp [frontRate]
  | cons l rest ih =>
    obtain ⟨k, s⟩ := l
    rw [frontRate_cons]
    exact Int.mul_pos h.head.2 (ih h.tail)

theorem frontContext_nonneg {layers : List (Int × Int)} (h : PositiveLayers layers) :
    0 ≤ frontContext layers := by
  induction layers with
  | nil => simp [frontContext]
  | cons l rest ih =>
    obtain ⟨k, s⟩ := l
    have hks := h.head
    have hmul : 0 ≤ s * frontContext rest := Int.mul_nonneg (by omega) (ih h.tail)
    rw [frontContext_cons]
    omega

theorem max_zero_ediv_of_neg {a b : Int} (ha : a < 0) (hb : 0 < b) : max 0 (a / b + 1) = 0 := by
  have := Int.ediv_neg_of_neg_of_pos ha hb
  omega

theorem frontLength_cons_pos {k s : Int} (hs : 0 < s) (rest : List (Int × Int)) (n : Int) :
    frontLength ((k, s) :: rest) n = frontLength rest (max ((n - k) / s + 1) 0) := by
  rw [frontLength_cons, if_neg (by simp [Int.ne_of_gt hs]), Int.fdiv_eq_ediv_of_nonneg _ (Int.le_of_lt hs)]

theorem frontLength_eq {layers : List (Int × Int)} (h : PositiveLayers layers) {n : Int}
    (hn : 0 ≤ n) :
    frontLength layers n =
      max 0 (Int.fdiv (n - frontContext layers - 1) (frontRate layers) + 1) := by
  rw [Int.fdiv_eq_ediv_of_nonneg _ (Int.le_of_lt (frontRate_pos h))]
  induction layers generalizing n with
  | nil => simp [frontLength, frontContext, frontRate]; omega
  | cons l rest ih =>
    obtain ⟨k, s⟩ := l
    obtain ⟨-, hs⟩ := h.head
    have hR := frontRate_pos h.tail
    have hC := frontContext_nonneg h.tail
    rw [frontLength_cons_pos hs, ih h.tail (le_max_right _ _), frontContext_cons, frontRate_cons]
    -- the two floor divisions nest into one: `⌊⌊a / s⌋ - C) / R⌋ = ⌊(a - s·C) / (s·R)⌋`
    have hnest : (n - (k - 1 + s * frontContext rest) - 1) / (s * frontRate rest) =
        ((n - k) / s - frontContext rest) / frontRate rest := by
      rw [← Int.ediv_ediv_of_nonneg (Int.le_of_lt hs), ← Int.sub_mul_ediv_right _ _ (Int.ne_of_gt hs)]
      congr 2
      ring
    rw [hnest]
    by_cases hq : 0 ≤ (n - k) / s + 1
    · rw [max_eq_left hq]
      congr 3
      omega
    · rw [max_eq_right (show (n - k) / s + 1 ≤ 0 by omega),
        max_zero_ediv_of_neg (show 0 - frontContext rest - 1 < 0 by omega) hR,
        max_zero_ediv_of_neg (show (n - k) / s - frontContext rest < 0 by omega) hR]

/-! The read sizes of a stream whose rate and look-ahead are the front end's. -/

theorem frontLength_of_window {layers : List (Int × Int)} (h : PositiveLayers layers)
    {cs n : Int} (hcs : 0 < cs)
    (hlo : (cs - 1) * frontRate layers + frontContext layers + 1 ≤ n)
    (hhi : n ≤ cs * frontRate layers + frontContext layers) :
    frontLength layers n = cs := by
  have hR := frontRate_pos h
  have hC := frontContext_nonneg h
  have hmul : (cs - 1) * frontRate layers = cs * frontRate layers - frontRate layers := by ring
  have hpos : 0 ≤ (cs - 1) * frontRate layers := Int.mul_nonneg (by omega) (Int.le_of_lt hR)
  have hq : (n - frontContext layers - 1) / frontRate layers = cs - 1 := by
    apply le_antisymm
    · have := Int.ediv_lt_of_lt_mul hR (show n - frontContext layers - 1 < cs * frontRate layers by
        omega)
      omega
    · exact Int.le_ediv_of_mul_le hR (by omega)
  rw [frontLength_eq h (by omega), Int.fdiv_eq_ediv_of_nonneg _ (Int.le_of_lt hR), hq]
  omega

theorem frontLength_le_of_le {layers : List (Int × Int)} (h : PositiveLayers layers)
    {cs n : Int} (hcs : 0 < cs) (hn : 0 ≤ n) (hhi : n ≤ cs * frontRate layers + frontContext layers) :
    frontLength layers n ≤ cs := by
  have hR := frontRate_pos h
  have hq := Int.ediv_lt_of_lt_mul hR
    (show n - frontContext layers - 1 < cs * frontRate layers by omega)
  rw [frontLength_eq h hn, Int.fdiv_eq_ediv_of_nonneg _ (Int.le_of_lt hR)]
  omega

/-! The convolutions of a built front end, plane by plane. -/

/-- Channel planes: `c` of them, each `h` frames by `w` features. -/
def Uniform (p : Planes) (c h w : Nat) : Prop := p.size = c ∧ ∀ m ∈ p, m.rows = h ∧ m.cols = w

theorem Uniform.first {p : Planes} {c h w : Nat} (hp : Uniform p c h w) (hc : 0 < c) :
    (p[0]?.map Matrix.rows).getD 0 = h ∧ (p[0]?.map Matrix.cols).getD 0 = w := by
  have h0 : 0 < p.size := hp.1 ▸ hc
  have hm := hp.2 p[0] (Array.getElem_mem h0)
  simp [Array.getElem?_eq_getElem h0, hm.1, hm.2]

theorem convOut_ok {n k s : Nat} (hk : 0 < k) (hs : 0 < s) (hn : k ≤ n) :
    convOut n k s = .ok ((n - k) / s + 1) := by
  simp [convOut, Nat.pos_iff_ne_zero.1 hk, Nat.pos_iff_ne_zero.1 hs, Nat.not_lt.2 hn]

theorem convOut_error {n k s : Nat} {f : Fault} (h : convOut n k s = .error f) :
    f = .shapeMismatch := by
  unfold convOut at h
  split at h
  · cases h
    rfl
  · cases h

theorem ConvLayer.apply_error {c : ConvLayer} {p : Planes} {f : Fault} (h : c.apply p = .error f) :
    f = .shapeMismatch := by
  unfold ConvLayer.apply at h
  simp only [bind, Except.bind] at h
  split at h
  · cases h
    rfl
  · split at h
    · rename_i heq
      cases h
      exact convOut_error heq
    · split at h
      · rename_i heq
        cases h
        exact convOut_error heq
      · cases h

theorem ConvLayer.apply_of_short {c : ConvLayer} {p : Planes} (h : planeRows p < c.kernel) :
    c.apply p = .error .shapeMismatch := by
  unfold ConvLayer.apply
  simp only [bind, Except.bind]
  split
  · rfl
  · unfold planeRows at h
    rw [show convOut _ c.kernel c.stride = .error .shapeMismatch by simp [convOut, h]]

theorem ConvLayer.apply_uniform {c : ConvLayer} {p : Planes} {h w : Nat}
    (hp : Uniform p c.inChannels h w) (hin : 0 < c.inChannels) (hk : 0 < c.kernel)
    (hs : 0 < c.stride) (hh : c.kernel ≤ h) (hw : c.kernel ≤ w) :
    ∃ q, c.apply p = .ok q ∧
      Uniform q c.outChannels ((h - c.kernel) / c.stride + 1) ((w - c.kernel) / c.stride + 1) := by
  obtain ⟨hrows, hcols⟩ := hp.first hin
  unfold ConvLayer.apply
  simp only [hrows, hcols, hp.1, bne_self_eq_false, Bool.false_eq_true, ↓reduceIte,
    convOut_ok hk hs hh, convOut_ok hk hs hw, bind, Except.bind, pure, Except.pure]
  refine ⟨_, rfl, by simp, ?_⟩
  intro m hm
  obtain ⟨i, rfl⟩ := Array.mem_ofFn.1 hm
  simp

/-- Convolution layers with the kernels and strides of `ps`: the first reads `c` planes and each
makes the `d` planes the next one reads. -/
def Stacked : List ConvLayer → List (Int × Int) → Nat → Nat → Prop
  | [], [], _, _ => True
  | l :: ls, (k, s) :: ps, c, d =>
    l.kernel = k.toNat ∧ l.stride = s.toNat ∧ l.inChannels = c ∧ l.outChannels = d ∧ Stacked ls ps d d
  | _, _, _, _ => False

theorem cast_convFrames {n : Nat} {k s : Int} (hk : 0 < k) (hs : 0 < s) (hn : k ≤ n) :
    (((n - k.toNat) / s.toNat + 1 : Nat) : Int) = ((n : Int) - k) / s + 1 := by
  have hsub : ((n - k.toNat : Nat) : Int) = n - k := by omega
  have hstride : ((s.toNat : Nat) : Int) = s := by omega
  rw [Nat.cast_add, Int.natCast_div, hsub, hstride, Nat.cast_one]

theorem context_le_ediv {k s C n : Int} (hs : 0 < s) (h : (k - 1) + s * C + 1 ≤ n) :
    C ≤ (n - k) / s :=
  Int.le_ediv_of_mul_le hs (by rw [Int.mul_comm]; omega)

theorem Stacked.apply_ok {ps : List (Int × Int)} (hpos : PositiveLayers ps) :
    ∀ {ls : List ConvLayer} {c d : Nat} {p : Planes} {h w : Nat}, Stacked ls ps c d → 0 < c →
      0 < d → Uniform p c h w → frontContext ps + 1 ≤ h → frontContext ps + 1 ≤ w →
      ∃ q, ls.foldlM (fun p l => l.apply p) p = .ok q ∧
        Uniform q (if ps = [] then c else d) (frontLength ps h).toNat (frontLength ps w).toNat := by
  induction ps with
  | nil =>
    intro ls c d p h w hst _ _ hp _ _
    cases ls with
    | nil => exact ⟨p, rfl, by simpa [frontLength] using hp⟩
    | cons l ls => exact hst.elim
  | cons kp ps ih =>
    obtain ⟨k, s⟩ := kp
    intro ls c d p h w hst hc hd hp hh hw
    cases ls with
    | nil => exact hst.elim
    | cons l ls =>
      obtain ⟨hk, hs, hin, hout, hrest⟩ := hst
      obtain ⟨hk0, hs0⟩ := hpos.head
      have hC := frontContext_nonneg hpos.tail
      have hmul : 0 ≤ s * frontContext ps := Int.mul_nonneg (Int.le_of_lt hs0) hC
      rw [frontContext_cons] at hh hw
      obtain ⟨q₁, hq₁, hu₁⟩ := ConvLayer.apply_uniform (hin ▸ hp) (by omega) (by omega) (by omega)
        (by omega) (by omega)
      have hnext : ∀ n : Nat, (k - 1) + s * frontContext ps + 1 ≤ n →
          frontContext ps + 1 ≤ (((n - l.kernel) / l.stride + 1 : Nat) : Int) ∧
            frontLength ((k, s) :: ps) n = frontLength ps (((n - l.kernel) / l.stride + 1 : Nat) : Int) := by
        intro n hn
        have hdiv := context_le_ediv hs0 hn
        rw [hk, hs, cast_convFrames hk0 hs0 (by omega), frontLength_cons_pos hs0,
          max_eq_left (by omega)]
        exact ⟨by omega, rfl⟩
      obtain ⟨hh', hlen⟩ := hnext h hh
      obtain ⟨hw', hwid⟩ := hnext w hw
      obtain ⟨q, hq, hu⟩ := ih hpos.tail hrest hd hd (hout ▸ hu₁) hh' hw'
      refine ⟨q, ?_, ?_⟩
      · rw [List.foldlM_cons, hq₁]
        exact hq
      · rw [hlen, hwid, if_neg (List.cons_ne_nil _ _)]
        simpa using hu

theorem Stacked.apply_short {ps : List (Int × Int)} (hpos : PositiveLayers ps) (hne : ps ≠ []) :
    ∀ {ls : List ConvLayer} {c d : Nat} {p : Planes}, Stacked ls ps c d →
      (planeRows p : Int) < frontContext ps + 1 →
      ls.foldlM (fun p l => l.apply p) p = .error .shapeMismatch := by
  induction ps with
  | nil => exact absurd rfl hne
  | cons kp ps ih =>
    obtain ⟨k, s⟩ := kp
    intro ls c d p hst hp
    cases ls with
    | nil => exact hst.elim
    | cons l ls =>
      obtain ⟨hk, hs, -, -, hrest⟩ := hst
      obtain ⟨hk0, hs0⟩ := hpos.head
      have hC := frontContext_nonneg hpos.tail
      rw [frontContext_cons] at hp
      rw [List.foldlM_cons]
      by_cases hshort : planeRows p < l.kernel
      · rw [ConvLayer.apply_of_short hshort]
        rfl
      · cases happ : l.apply p with
        | error f =>
          rw [ConvLayer.apply_error happ]
          rfl
        | ok q =>
          have hps : ps ≠ [] := by
            rintro rfl
            simp [frontContext, hk] at hp hshort
            omega
          have hbound := ConvLayer.planeRows_apply happ
          rw [hk, hs] at hbound
          have hlt : planeRows p - k.toNat < s.toNat * (frontContext ps).toNat := by
            have : (planeRows p : Int) - k < s * frontContext ps := by omega
            have hprod : ((s.toNat * (frontContext ps).toNat : Nat) : Int) = s * frontContext ps := by
              rw [Nat.cast_mul, Int.toNat_of_nonneg (Int.le_of_lt hs0), Int.toNat_of_nonneg hC]
            omega
          have hdiv : (planeRows p - k.toNat) / s.toNat < (frontContext ps).toNat :=
            Nat.div_lt_of_lt_mul hlt
          exact ih hpos.tail hps hrest (by omega)

theorem stacked_zipIdx (g : (Int × Int) × Nat → ConvLayer) (dn : Nat)
    (hk : ∀ k s i, (g ((k, s), i)).kernel = k.toNat) (hs : ∀ k s i, (g ((k, s), i)).stride = s.toNat)
    (hin : ∀ k s i, (g ((k, s), i)).inChannels = if i = 0 then 1 else dn)
    (hout : ∀ k s i, (g ((k, s), i)).outChannels = dn) :
    ∀ (ps : List (Int × Int)) (i : Nat), Stacked ((ps.zipIdx i).map g) ps (if i = 0 then 1 else dn) dn
  | [], _ => trivial
  | (k, s) :: ps, i => by
    rw [List.zipIdx_cons, List.map_cons]
    refine ⟨hk k s i, hs k s i, hin k s i, hout k s i, ?_⟩
    simpa using stacked_zipIdx g dn hk hs hin hout ps (i + 1)

theorem stacked_map_zipIdx (g : (Int × Int) × Nat → ConvLayer) (dn : Nat)
    (hk : ∀ k s i, (g ((k, s), i)).kernel = k.toNat) (hs : ∀ k s i, (g ((k, s), i)).stride = s.toNat)
    (hin : ∀ k s i, (g ((k, s), i)).inChannels = if i = 0 then 1 else dn)
    (hout : ∀ k s i, (g ((k, s), i)).outChannels = dn) (ps : List (Int × Int)) :
    Stacked (ps.zipIdx.map g) ps 1 dn := by
  simpa using stacked_zipIdx g dn hk hs hin hout ps 0

theorem size_ok {n : Int} {m : Nat} (h : size n = .ok m) : 0 ≤ n ∧ m = n.toNat := by
  unfold size at h
  split at h
  · cases h
  · cases h
    exact ⟨by omega, rfl⟩

theorem frontParams_width {name : String} {input d : Int} {layers : List (Int × Int)}
    {ps : List Parameter} (h : frontParams name input d layers = .ok ps) : 0 < d ∧ d % 2 = 0 := by
  unfold frontParams at h
  obtain ⟨convs, -, h⟩ := Except.bind_eq_ok.1 h
  obtain ⟨w, -, h⟩ := Except.bind_eq_ok.1 h
  obtain ⟨linIn, -, h⟩ := Except.bind_eq_ok.1 h
  obtain ⟨dn, hdn, h⟩ := Except.bind_eq_ok.1 h
  obtain ⟨hzero, h⟩ := Except.ite_throw_eq_ok h
  obtain ⟨hodd, -⟩ := Except.ite_throw_eq_ok h
  have := (size_ok hdn).1
  simp only [beq_iff_eq, bne_iff_ne, ne_eq, Decidable.not_not] at hzero hodd
  omega

theorem PositionTable.create_ok {d : Nat} {n : Int} {t : PositionTable}
    (h : PositionTable.create d n = .ok t) : t = ⟨d, n.toNat⟩ := by
  unfold PositionTable.create at h
  split at h
  · cases h
  · split at h
    · cases h
    · split at h
      · cases h
      · cases h
        rfl

theorem Front.build_ok {w : Weights} {name : String} {input d : Int} {kernels strides : List Int}
    {fe : Front} (h : Front.build w name input d kernels strides = .ok fe) :
    kernels.length = strides.length ∧ 0 < d ∧ d % 2 = 0 ∧
      Stacked fe.layers (kernels.zip strides) 1 d.toNat ∧
      ∃ width, reducedWidthAll input (kernels.zip strides) = .ok width ∧
        fe.project.weight.cols = d.toNat * width.toNat ∧ fe.project.weight.rows = d.toNat ∧
        fe.table.width = d.toNat := by
  unfold Front.build at h
  obtain ⟨hlen, h⟩ := Except.ite_throw_eq_ok h
  obtain ⟨ps, hps, h⟩ := Except.bind_eq_ok.1 h
  obtain ⟨width, hwidth, h⟩ := Except.bind_eq_ok.1 h
  obtain ⟨table, htable, h⟩ := Except.bind_eq_ok.1 h
  rw [Except.pure_eq_ok] at h
  subst h
  refine ⟨by simpa using hlen, (frontParams_width hps).1, (frontParams_width hps).2, ?_, width,
    hwidth, rfl, rfl,
    by rw [PositionTable.create_ok htable]⟩
  exact stacked_map_zipIdx _ d.toNat (fun _ _ _ => rfl) (fun _ _ _ => rfl) (fun _ _ _ => by simp)
    (fun _ _ _ => rfl) _

theorem reducedWidthAll_eq {ps : List (Int × Int)} (h : PositiveLayers ps) :
    ∀ {n : Int}, frontContext ps + 1 ≤ n → reducedWidthAll n ps = .ok (frontLength ps n) := by
  induction ps with
  | nil => intro n _; rfl
  | cons kp ps ih =>
    obtain ⟨k, s⟩ := kp
    intro n hn
    obtain ⟨-, hs⟩ := h.head
    have hC := frontContext_nonneg h.tail
    rw [frontContext_cons] at hn
    have hdiv := context_le_ediv hs hn
    have hstep : reducedWidth n k s = .ok ((n - k) / s + 1) := by
      rw [reducedWidth, if_neg (by simp [Int.ne_of_gt hs]),
        Int.fdiv_eq_ediv_of_nonneg _ (Int.le_of_lt hs),
        show n - k + s = n - k + 1 * s by ring, Int.add_mul_ediv_right _ _ (Int.ne_of_gt hs)]
    unfold reducedWidthAll
    simp only [List.foldlM_cons, hstep, bind, Except.bind]
    rw [frontLength_cons_pos hs, max_eq_left (by omega)]
    exact ih h.tail (by omega)

theorem PositionTable.query_shape (t : PositionTable) {offset : Int} (ho : 0 ≤ offset) (n : Nat) :
    (t.query offset n).2.rows = n ∧ (t.query offset n).2.cols = t.width := by
  have hlo : ¬ offset < 0 := by omega
  have hhi : ¬ offset + (n : Int) < 0 := by omega
  unfold PositionTable.query PositionTable.extend PositionTable.sliceRange
  split <;> simp only [hlo, hhi, if_false, Matrix.rows_ofFn, Matrix.cols_ofFn, and_true] <;> omega

theorem encodePositions_ok (t : PositionTable) {x : Matrix} (hx : x.cols = t.width) {offset : Int}
    (ho : 0 ≤ offset) :
    ∃ y pos t', encodePositions t x offset = .ok (y, pos, t') ∧ y.rows = x.rows := by
  obtain ⟨hrows, hcols⟩ := PositionTable.query_shape t ho x.rows
  unfold encodePositions Matrix.add Matrix.zipWith
  simp only [Matrix.map, hrows, hcols, hx, beq_self_eq_true, Bool.and_self, ↓reduceIte, bind,
    Except.bind, pure, Except.pure]
  exact ⟨_, _, _, rfl, rfl⟩

theorem Affine.cols_apply {f : Affine} {x y : Matrix} (h : f.apply x = .ok y) :
    y.cols = f.weight.rows := by
  unfold Affine.apply at h
  split at h
  · cases h
  · cases h
    rfl

theorem Affine.apply_error {f : Affine} {x : Matrix} {e : Fault} (h : f.apply x = .error e) :
    x.cols ≠ f.weight.cols := by
  unfold Affine.apply at h
  split at h
  · rename_i hne
    simpa using hne
  · cases h

theorem Front.apply_frames {w : Weights} {name : String} {input d : Int}
    {kernels strides : List Int} {fe : Front} (hb : Front.build w name input d kernels strides = .ok fe)
    (hpos : PositiveLayers (kernels.zip strides)) (hne : kernels.zip strides ≠ []) {x : Matrix}
    (hcols : (x.cols : Int) = input) (hin : frontContext (kernels.zip strides) + 1 ≤ input)
    (hrows : frontContext (kernels.zip strides) + 1 ≤ x.rows) {offset : Int} (ho : 0 ≤ offset) :
    ∃ y pos fe', fe.apply x offset = .ok (y, pos, fe') ∧
      (y.rows : Int) = frontLength (kernels.zip strides) x.rows := by
  obtain ⟨-, hd, -, hst, width, hwidth, hwc, hwr, htw⟩ := Front.build_ok hb
  obtain ⟨q, hq, hu⟩ := Stacked.apply_ok hpos hst Nat.one_pos (by omega)
    (show Uniform #[x] 1 x.rows x.cols from ⟨rfl, by simp⟩) hrows (by omega)
  rw [if_neg hne] at hu
  obtain ⟨hT, hF⟩ := hu.first (by omega)
  have hw : width = frontLength (kernels.zip strides) x.cols := by
    rw [reducedWidthAll_eq hpos hin] at hwidth
    rw [hcols]
    exact (Except.ok.inj hwidth).symm
  unfold Front.apply
  rw [hq]
  simp only [bind, Except.bind, hT, hF, hu.1]
  split
  · rename_i e he
    exact absurd (by simp [hwc, hw]) (Affine.apply_error he)
  · rename_i y hy
    obtain ⟨y', pos, t', henc, hy'⟩ :=
      encodePositions_ok fe.table (by rw [Affine.cols_apply hy, hwr, htw]) ho
    refine ⟨y', pos, { fe with table := t' }, by rw [henc]; rfl, ?_⟩
    have hlen := frontLength_eq hpos (n := x.rows) (by omega)
    rw [hy', Affine.rows_apply hy, Matrix.rows_ofFn]
    omega

theorem Front.apply_short {w : Weights} {name : String} {input d : Int}
    {kernels strides : List Int} {fe : Front} (hb : Front.build w name input d kernels strides = .ok fe)
    (hpos : PositiveLayers (kernels.zip strides)) (hne : kernels.zip strides ≠ []) {x : Matrix}
    (hrows : (x.rows : Int) < frontContext (kernels.zip strides) + 1) (offset : Int) :
    fe.apply x offset = .error .shapeMismatch := by
  obtain ⟨-, -, -, hst, -⟩ := Front.build_ok hb
  unfold Front.apply
  rw [Stacked.apply_short hpos hne hst (p := #[x]) (by simpa [planeRows] using hrows)]
  rfl

theorem Affine.apply_of_cols_ne {f : Affine} {x : Matrix} (h : x.cols ≠ f.weight.cols) :
    f.apply x = .error .shapeMismatch := by
  simp [Affine.apply, h]

theorem Front.apply_without_layers {w : Weights} {name : String} {input d : Int} {fe : Front}
    (hb : Front.build w name input d [] [] = .ok fe) {x : Matrix} (hcols : (x.cols : Int) = input)
    (hin : 1 ≤ input) (offset : Int) : fe.apply x offset = .error .shapeMismatch := by
  obtain ⟨-, hd, heven, hst, width, hwidth, hwc, -⟩ := Front.build_ok hb
  have hlayers : fe.layers = [] := by
    cases h : fe.layers with
    | nil => rfl
    | cons l ls =>
      rw [h] at hst
      exact hst.elim
  have hw : width = input := (Except.ok.inj hwidth).symm
  have hwide : x.cols < d.toNat * x.cols :=
    (Nat.lt_mul_iff_one_lt_left (by omega)).2 (by omega)
  unfold Front.apply
  rw [hlayers]
  simp only [List.foldlM_nil, pure, Except.pure, bind, Except.bind]
  rw [Affine.apply_of_cols_ne (by simp [hwc, hw, ← hcols]; omega)]

end SpeechStream.Network

namespace SpeechStream

open Network

variable {layers : List (Int × Int)} {s : Stream}

theorem Stream.frontLength_reads (h : PositiveLayers layers)
    (hrate : s.metadata.subsamplingRate = frontRate layers)
    (hctx : s.metadata.rightContext = frontContext layers) (hcs : 0 < s.metadata.chunkSize) :
    frontLength layers (s.framesForChunk false) = s.metadata.chunkSize ∧
      frontLength layers (s.metadata.overlap + s.framesForChunk true) = s.metadata.chunkSize ∧
      ∀ n, 0 ≤ n → n ≤ s.metadata.chunkSize * s.metadata.subsamplingRate + s.metadata.rightContext →
        frontLength layers n ≤ s.metadata.chunkSize := by
  have hR := frontRate_pos h
  have hC := frontContext_nonneg h
  have hmul : (s.metadata.chunkSize - 1) * frontRate layers =
      s.metadata.chunkSize * frontRate layers - frontRate layers := by ring
  have hfirst : s.framesForChunk false =
      (s.metadata.chunkSize - 1) * frontRate layers + frontContext layers + 1 := by
    simp [Stream.framesForChunk, hrate, hctx, Int.not_le.2 hcs]
  have hlater : s.framesForChunk true = s.metadata.chunkSize * frontRate layers := by
    simp [Stream.framesForChunk, hrate, Int.not_le.2 hcs]
  refine ⟨?_, ?_, ?_⟩
  · rw [hfirst]
    exact frontLength_of_window h hcs le_rfl (by omega)
  · rw [hlater]
    apply frontLength_of_window h hcs <;> simp only [Metadata.overlap, hrate, hctx] <;> omega
  · intro n hn hhi
    rw [hrate, hctx] at hhi
    exact frontLength_le_of_le h hcs hn hhi

/-- A front end built with positive kernels and strides keeps `max 0 ((n - context - 1) // rate + 1)`
of `n ≥ 0` frames, and a stream reading with its rate and context gets whole chunks from its
reads. With layers it runs over every chunk that holds its context in time and in the features
and keeps exactly that many, and fails on shorter chunks, which is why a stream buffers them;
without layers it fails on every chunk with features. -/
theorem subsampling_matches_read_sizes {w : Weights} {name : String} {input d : Int}
    {kernels strides : List Int} {fe : Front}
    (hb : Front.build w name input d kernels strides = .ok fe)
    (hk : ∀ k ∈ kernels, 0 < k) (hs : ∀ s ∈ strides, 0 < s) :
    (∀ n, 0 ≤ n → frontLength (kernels.zip strides) n =
      max 0 (Int.fdiv (n - frontContext (kernels.zip strides) - 1) (frontRate (kernels.zip strides)) + 1)) ∧
    (kernels ≠ [] → ∀ x offset, (x.cols : Int) = input → frontContext (kernels.zip strides) + 1 ≤ input →
      frontContext (kernels.zip strides) + 1 ≤ x.rows → 0 ≤ offset →
      ∃ y pos fe', fe.apply x offset = .ok (y, pos, fe') ∧
        (y.rows : Int) = frontLength (kernels.zip strides) x.rows) ∧
    (kernels ≠ [] → ∀ x offset, (x.rows : Int) < frontContext (kernels.zip strides) + 1 →
      fe.apply x offset = .error .shapeMismatch) ∧
    (kernels = [] → ∀ x offset, (x.cols : Int) = input → 1 ≤ input →
      fe.apply x offset = .error .shapeMismatch) ∧
    ∀ s : Stream, s.metadata.subsamplingRate = frontRate (kernels.zip strides) →
      s.metadata.rightContext = frontContext (kernels.zip strides) → 0 < s.metadata.chunkSize →
      frontLength (kernels.zip strides) (s.framesForChunk false) = s.metadata.chunkSize ∧
      frontLength (kernels.zip strides) (s.metadata.overlap + s.framesForChunk true) =
        s.metadata.chunkSize ∧
      ∀ n, 0 ≤ n → n ≤ s.metadata.chunkSize * s.metadata.subsamplingRate + s.metadata.rightContext →
        frontLength (kernels.zip strides) n ≤ s.metadata.chunkSize := by
  have hpos : PositiveLayers (kernels.zip strides) := fun l hl =>
    ⟨hk _ (List.of_mem_zip hl).1, hs _ (List.of_mem_zip hl).2⟩
  have hlen := (Front.build_ok hb).1
  have hzip : kernels ≠ [] → kernels.zip strides ≠ [] := by
    intro hne
    rw [Ne, List.zip_eq_nil_iff]
    rintro (h | h)
    · exact hne h
    · exact hne (List.eq_nil_of_length_eq_zero (by rw [hlen, h]; rfl))
  refine ⟨fun n hn => frontLength_eq hpos hn, ?_, ?_, ?_, ?_⟩
  · intro hne x offset hcols hin hrows ho
    exact Front.apply_frames hb hpos (hzip hne) hcols hin hrows ho
  · intro hne x offset hrows
    exact Front.apply_short hb hpos (hzip hne) hrows offset
  · intro hnil x offset hcols hin
    subst hnil
    have hstrides : strides = [] := List.eq_nil_of_length_eq_zero (by rw [← hlen]; rfl)
    subst hstrides
    exact Front.apply_without_layers hb hcols hin offset
  · intro s hrate hctx hcs
    exact Stream.frontLength_reads hpos hrate hctx hcs

/-- The front end of two halving layers of kernel 3 keeps one frame of seven and fails on six; a
stream with its rate and context and chunks of one frame first reads the seven; and the front end
without layers fails on a frame. -/
theorem subsampling_keeps_one_of_seven_frames :
    let md : Metadata := ⟨4, 1, 2, 3, 4, 6, 4, 4, false, 1, 0⟩
    ∃ fe, Front.build Weights.reference "embed" 8 4 [3, 3] [2, 2] = .ok fe ∧
      (∃ y pos fe', fe.apply (Matrix.ofFn 7 8 fun _ _ => 0) 0 = .ok (y, pos, fe') ∧ y.rows = 1) ∧
      fe.apply (Matrix.ofFn 6 8 fun _ _ => 0) 0 = .error .shapeMismatch ∧
      frontLength [(3, 2), (3, 2)] ((Stream.new ⟨md, [], fun _ => .error .backendFailed,
        fun _ => .error .backendFailed, fun _ => .error .backendFailed⟩ md).framesForChunk false) = 1 ∧
      ∃ fe₀, Front.build Weights.reference "embed" 8 4 [] [] = .ok fe₀ ∧
        fe₀.apply (Matrix.ofFn 1 8 fun _ _ => 0) 0 = .error .shapeMismatch := by
  intro md
  obtain ⟨fe, hb⟩ : ∃ fe, Front.build Weights.reference "embed" 8 4 [3, 3] [2, 2] = .ok fe :=
    ⟨_, rfl⟩
  obtain ⟨fe₀, hb₀⟩ : ∃ fe, Front.build Weights.reference "embed" 8 4 [] [] = .ok fe := ⟨_, rfl⟩
  obtain ⟨-, happly, hshort, -, hreads⟩ := subsampling_matches_read_sizes hb (by decide) (by decide)
  obtain ⟨-, -, -, hbare, -⟩ := subsampling_matches_read_sizes hb₀ (by decide) (by decide)
  obtain ⟨y, pos, fe', hy, hrows⟩ :=
    happly (by decide) (Matrix.ofFn 7 8 fun _ _ => 0) 0 rfl (by decide) (by decide) le_rfl
  have hseven : frontLength [(3, 2), (3, 2)] ((7 : Nat) : Int) = 1 := by decide
  refine ⟨fe, hb, ⟨y, pos, fe', hy, ?_⟩, hshort (by decide) _ 0 (by decide),
    (hreads _ rfl rfl (by decide)).1, fe₀, hb₀, hbare rfl _ 0 rfl (by decide)⟩
  rw [Matrix.rows_ofFn, List.zip_cons_cons, List.zip_cons_cons, List.zip_nil_left, hseven] at hrows
  omega

/-- A front end without layers is built, its frame count is the identity, and it fails on a
chunk of one frame. -/
theorem subsampling_without_layers_fails :
    ∃ fe, Front.build Weights.reference "embed" 8 4 [] [] = .ok fe ∧
      frontLength [] 1 = 1 ∧ fe.apply (Matrix.ofFn 1 8 fun _ _ => 0) 0 = .error .shapeMismatch := by
  obtain ⟨fe, hb⟩ : ∃ fe, Front.build Weights.reference "embed" 8 4 [] [] = .ok fe := ⟨_, rfl⟩
  exact ⟨fe, hb, rfl, Front.apply_without_layers hb rfl (by decide) 0⟩

end SpeechStream
