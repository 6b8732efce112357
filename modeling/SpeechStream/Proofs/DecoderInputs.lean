import SpeechStream.Network.Model
import SpeechStream.Rescoring.Rescorer
/-!
Decoder inputs of hypotheses and the positions their scores read.

Hypotheses go to the attention decoder padded to one width `L`, one more than the longest: the
start symbol, the tokens, and zeros (`padHypotheses`); a right-to-left decoder reads them reversed
behind the start symbol and padded with the end symbol (`Network.reverseHyps`), and the padding
mask hides every position from the length on (`Network.padMask`). The score of a hypothesis reads
its `j`-th token at position `j` and the end symbol after the last token (`attentionReads`,
`attentionScore_eq_reads`). So every position a score reads lies inside the width, and each
predicted token is the next token of the decoder input row, in either direction: position `j`
of a row predicts what stands at `j + 1`, and the position after the last token predicts the end.
-/

set_option autoImplicit false

namespace SpeechStream

theorem mapM_eq_ok_map {α β ε : Type} {g : α → Except ε β} {f : α → β} {l : List α}
    (h : ∀ x ∈ l, g x = .ok (f x)) : l.mapM g = .ok (l.map f) := by
  induction l with
  | nil => rfl
  | cons a l ih =>
    rw [List.mapM_cons, h a (by simp), ih (fun x hx => h x (by simp [hx]))]
    rfl

theorem foldl_max_spec (l : List Nat) (acc : Nat) :
    (∀ x ∈ l, x ≤ l.foldl max acc) ∧ acc ≤ l.foldl max acc ∧
      (l.foldl max acc = acc ∨ l.foldl max acc ∈ l) := by
  induction l generalizing acc with
  | nil => simp
  | cons a l ih =>
    obtain ⟨hall, hacc, hmem⟩ := ih (max acc a)
    simp only [List.foldl_cons, List.mem_cons, forall_eq_or_imp]
    refine ⟨⟨by omega, hall⟩, by omega, ?_⟩
    rcases hmem with h | h
    · rw [h]
      rcases Nat.le_total acc a with hle | hle
      · exact .inr (.inl (Nat.max_eq_right hle))
      · exact .inl (Nat.max_eq_left hle)
    · exact .inr (.inr h)

/-! The entries an attention score reads. -/

/-- The entry of a matrix of log-probabilities at a position and a token, both counted from the
end when negative; a position or token outside the matrix is a fault. -/
def scoreEntry (prob : Tensor) (j : Nat) (tok : Int) : Except Fault Float :=
  match prob.shape with
  | [rows, cols] => do
    let j ← Tensor.wrapIndex j rows
    let t ← Tensor.wrapIndex tok cols
    match prob.get? [j, t] with
    | some x => pure x.toFloat
    | none => throw Fault.indexOutOfRange
  | _ => throw Fault.indexOutOfRange

/-- The positions and tokens the score of a hypothesis reads, in order: the `j`-th token at
position `j`, then the end symbol at the position after the last token. -/
def attentionReads (hyp : List Int) (eos : Int) : List (Nat × Int) :=
  (hyp ++ [eos]).zipIdx.map (fun e => (e.2, e.1))

theorem attentionReads_eq (hyp : List Int) (eos : Int) :
    attentionReads hyp eos = hyp.zipIdx.map (fun e => (e.2, e.1)) ++ [(hyp.length, eos)] := by
  simp [attentionReads, List.zipIdx_append]

theorem attentionScore_eq_reads (prob : Tensor) (hyp : List Int) (eos : Int) :
    attentionScore prob hyp eos =
      (attentionReads hyp eos).foldlM (fun acc e => do pure (acc + (← scoreEntry prob e.1 e.2))) 0.0 := by
  rw [attentionReads_eq, List.foldlM_append, List.foldlM_map]
  unfold attentionScore scoreEntry
  cases hs : prob.shape with
  | nil => cases hyp <;> rfl
  | cons r rest =>
    cases rest with
    | nil => cases hyp <;> rfl
    | cons c rest =>
      cases rest with
      | cons _ _ => cases hyp <;> rfl
      | nil =>
        simp only [List.foldlM_cons, List.foldlM_nil, bind_pure]
        rfl

theorem reads_shifted (g : List Int) (sos pad eos : Int) (k : Nat) :
    ∀ e ∈ attentionReads g eos, e.1 ≤ g.length ∧
      (e.1 < g.length → (sos :: g ++ List.replicate k pad)[e.1 + 1]? = some e.2) ∧
      (e.1 = g.length → e.2 = eos) := by
  intro e he
  obtain ⟨⟨t, j⟩, hmem, rfl⟩ := List.mem_map.1 he
  obtain ⟨hj, ht⟩ := List.mem_zipIdx' hmem
  simp only [List.length_append, List.length_singleton] at hj
  refine ⟨by dsimp only; omega, fun hlt => ?_, fun heq => ?_⟩
  · dsimp only at hlt ⊢
    rw [List.cons_append, List.getElem?_cons_succ, List.getElem?_append_left hlt, ht,
      List.getElem_append_left hlt, List.getElem?_eq_getElem hlt]
  · dsimp only at heq ⊢
    subst heq
    rw [ht]
    simp

/-! Padding, reversal and masks of a batch of hypotheses. -/

section Batch

variable (hyps : List (List Int)) (sos eos : Int)

/-- The width of the padded batch: one more than the longest hypothesis. -/
def padWidth : Nat := (hyps.map (fun h => h.length + 1)).foldl max 0

theorem lt_padWidth {h : List Int} (hh : h ∈ hyps) : h.length < padWidth hyps := by
  have := (foldl_max_spec (hyps.map (fun h => h.length + 1)) 0).1 (h.length + 1)
    (List.mem_map_of_mem hh)
  unfold padWidth
  omega

theorem exists_padWidth (hne : hyps ≠ []) : ∃ h ∈ hyps, h.length + 1 = padWidth hyps := by
  obtain ⟨-, -, hmem⟩ := foldl_max_spec (hyps.map (fun h => h.length + 1)) 0
  rcases hmem with h0 | hmem
  · obtain ⟨h, hh⟩ := List.exists_mem_of_ne_nil hyps hne
    have := lt_padWidth hyps hh
    unfold padWidth at this
    omega
  · obtain ⟨h, hh, heq⟩ := List.mem_map.1 hmem
    exact ⟨h, hh, heq⟩

/-- The padded row of a hypothesis: the start symbol, the tokens, and zeros to the width. -/
def paddedRow (h : List Int) : List Int := sos :: h ++ List.replicate (padWidth hyps - 1 - h.length) 0

/-- The reversed row of a hypothesis: the start symbol, the tokens in reverse order, and end
symbols to the width. -/
def reversedRow (h : List Int) : List Int :=
  sos :: h.reverse ++ List.replicate (padWidth hyps - 1 - h.length) eos

theorem length_paddedRow {h : List Int} (hh : h ∈ hyps) : (paddedRow hyps sos h).length = padWidth hyps := by
  have := lt_padWidth hyps hh
  simp [paddedRow]
  omega

theorem padHypotheses_ok (hne : hyps ≠ []) (hsos : fitsInt64 sos = true)
    (htok : ∀ h ∈ hyps, ∀ t ∈ h, fitsInt64 t = true) :
    padHypotheses hyps sos =
      .ok ⟨hyps.map (paddedRow hyps sos), hyps.map (fun h => (h.length : Int) + 1)⟩ := by
  have hempty : hyps.isEmpty = false := by simpa using hne
  have hrow : ∀ h ∈ hyps, ∀ x ∈ paddedRow hyps sos h, fitsInt64 x = true := by
    intro h hh x hx
    simp only [paddedRow, List.cons_append, List.mem_cons, List.mem_append, List.mem_replicate] at hx
    rcases hx with rfl | hx | ⟨-, rfl⟩
    · exact hsos
    · exact htok h hh x hx
    · decide
  have hfit : (hyps.map (paddedRow hyps sos)).any (fun r => r.any (fun x => !fitsInt64 x)) = false := by
    rw [List.any_eq_false]
    rintro r hr
    obtain ⟨h, hh, rfl⟩ := List.mem_map.1 hr
    rw [List.any_eq_true]
    rintro ⟨x, hx, hbad⟩
    simp [hrow h hh x hx] at hbad
  have hrows : hyps.map (fun h => (sos :: h) ++ List.replicate (padWidth hyps - (h.length + 1)) 0) =
      hyps.map (paddedRow hyps sos) := by
    apply List.map_congr_left
    intro h _
    simp [paddedRow, Nat.sub_sub, Nat.add_comm 1]
  simp only [padHypotheses, hempty, Bool.false_eq_true, ↓reduceIte]
  rw [show (hyps.map (fun h => h.length + 1)).foldl max 0 = padWidth hyps from rfl, hrows, hfit]
  rfl

theorem map_range_reversed {h : List Int} (hh : h ∈ hyps) :
    (List.range (padWidth hyps - 1)).map (fun j => if j < h.length then h[h.length - 1 - j]! else eos) =
      h.reverse ++ List.replicate (padWidth hyps - 1 - h.length) eos := by
  have hlt := lt_padWidth hyps hh
  apply List.ext_getElem
  · simp only [List.length_map, List.length_range, List.length_append, List.length_reverse,
      List.length_replicate]
    omega
  · intro j h1 h2
    simp only [List.getElem_map, List.getElem_range]
    split
    · rename_i hj
      rw [List.getElem_append_left (by simpa using hj), List.getElem_reverse,
        getElem!_pos h _ (by omega)]
    · rename_i hj
      rw [List.getElem_append_right (by simp; omega)]
      simp

theorem reverseHyps_ok (hne : hyps ≠ []) :
    Network.reverseHyps sos eos (hyps.map (paddedRow hyps sos)) (hyps.map (fun h => (h.length : Int) + 1)) =
      .ok (hyps.map (reversedRow hyps sos eos)) := by
  have hwidth : ((hyps.map (paddedRow hyps sos)).headD []).length - 1 = padWidth hyps - 1 := by
    obtain ⟨h, t, rfl⟩ := List.exists_cons_of_ne_nil hne
    simp [length_paddedRow _ _ (List.mem_cons_self : h ∈ h :: t)]
  unfold Network.reverseHyps
  simp only [List.length_map, bne_self_eq_false, Bool.false_eq_true, ↓reduceIte, hwidth,
    List.zip_map', List.mapM_map]
  apply mapM_eq_ok_map
  intro h hh
  have hlt := lt_padWidth hyps hh
  have hbody : (paddedRow hyps sos h).drop 1 = h ++ List.replicate (padWidth hyps - 1 - h.length) 0 := rfl
  simp only [Function.comp_apply]
  rw [mapM_eq_ok_map (f := fun j => if j < h.length then h[h.length - 1 - j]! else eos)]
  · rw [map_range_reversed hyps eos hh]
    rfl
  · intro j _
    by_cases hjh : j < h.length
    · have hidx : (((h.length : Int) + 1 - 1) - 1 - j).toNat = h.length - 1 - j := by omega
      rw [if_pos (show ((h.length : Int) + 1 - 1) > j by omega), if_pos hjh, hidx, hbody,
        List.getElem?_append_left (by omega), List.getElem?_eq_getElem (by omega),
        getElem!_pos h _ (by omega)]
      simp only [if_pos (show h.length - 1 - j < padWidth hyps - 1 by omega)]
      rfl
    · rw [if_neg (show ¬ ((h.length : Int) + 1 - 1) > j by omega), if_neg hjh]
      rfl

theorem padMask_ok (hne : hyps ≠ []) :
    Network.padMask (hyps.map (fun h => (h.length : Int) + 1)) none =
      .ok (hyps.map (fun h => (List.range (padWidth hyps)).map (fun (j : Nat) => (j : Int) ≥ h.length + 1))) := by
  have hmax : (hyps.map (fun h => (h.length : Int) + 1)).max? = some (padWidth hyps : Int) := by
    obtain ⟨h, hh, heq⟩ := exists_padWidth hyps hne
    refine List.max?_eq_some_iff.2 ⟨List.mem_map.2 ⟨h, hh, by omega⟩, ?_⟩
    intro b hb
    obtain ⟨g, hg, rfl⟩ := List.mem_map.1 hb
    have := lt_padWidth hyps hg
    omega
  have hnonneg : ¬ (padWidth hyps : Int) < 0 := by omega
  simp only [Network.padMask, hmax, pure_bind, hnonneg, ↓reduceIte, List.map_map, Int.toNat_natCast]
  rfl

end Batch

theorem rescore_decoder_rows {b : Backend} {sos eos : Int} {bidirectional : Bool}
    {hyps : List (List Int)} {outs : List Tensor} {w : Float} {input : DecoderInput}
    (h : Call.decoder input ∈ (SpeechStream.rescore b sos eos bidirectional hyps outs w).1) :
    padHypotheses hyps sos = .ok ⟨input.hyps, input.lens⟩ := by
  unfold SpeechStream.rescore at h
  split at h
  · cases h
  · split at h
    · cases h
    · split at h
      · cases h
      · split at h
        · cases h
        · rename_i p hp
          dsimp only at h
          split at h
          · cases h
          · split at h <;>
              (simp only [List.mem_singleton, Call.decoder.injEq] at h; subst h; exact hp)

/-- Decoder inputs and scoring positions agree. Pad a non-empty batch of hypotheses whose tokens,
like the start symbol, fit in 64 bits, to the width `L`, one more than the longest. Each padded row
is the start symbol, the hypothesis and zeros to `L`, with the hypothesis' length plus one as its
length, and the rescorer hands the decoder exactly these rows and lengths; reversing them gives
the start symbol, the reversed hypothesis and end symbols to `L`; the padding mask hides exactly
the positions from the length plus one on. The attention score of a hypothesis adds up the entries
`attentionReads` names, and for every hypothesis, read forwards against its padded row or reversed
against its reversed row, each position read is below `L`, each position before the hypothesis'
length reads the token one place further on in the row, and the position at its length reads the
end symbol. -/
theorem decoder_inputs_match_scores (hyps : List (List Int)) (sos eos : Int) (hne : hyps ≠ [])
    (hsos : fitsInt64 sos = true) (htok : ∀ h ∈ hyps, ∀ t ∈ h, fitsInt64 t = true) :
    let L := padWidth hyps
    let rows := hyps.map (fun h => sos :: h ++ List.replicate (L - 1 - h.length) 0)
    let lens := hyps.map (fun h => (h.length : Int) + 1)
    (∀ h ∈ hyps, h.length < L) ∧ (∃ h ∈ hyps, h.length + 1 = L) ∧
      padHypotheses hyps sos = .ok ⟨rows, lens⟩ ∧
      Network.reverseHyps sos eos rows lens =
        .ok (hyps.map (fun h => sos :: h.reverse ++ List.replicate (L - 1 - h.length) eos)) ∧
      Network.padMask lens none = .ok (hyps.map (fun h => (List.range L).map (fun (j : Nat) => (j : Int) ≥ h.length + 1))) ∧
      (∀ b bidirectional outs w (input : DecoderInput),
        Call.decoder input ∈ (SpeechStream.rescore b sos eos bidirectional hyps outs w).1 →
        input.hyps = rows ∧ input.lens = lens) ∧
      (∀ prob hyp, attentionScore prob hyp eos =
        (attentionReads hyp eos).foldlM (fun acc e => do pure (acc + (← scoreEntry prob e.1 e.2))) 0.0) ∧
      ∀ h ∈ hyps,
        (∀ e ∈ attentionReads h eos, e.1 < L ∧
          (e.1 < h.length → (sos :: h ++ List.replicate (L - 1 - h.length) 0)[e.1 + 1]? = some e.2) ∧
          (e.1 = h.length → e.2 = eos)) ∧
        (∀ e ∈ attentionReads h.reverse eos, e.1 < L ∧
          (e.1 < h.length → (sos :: h.reverse ++ List.replicate (L - 1 - h.length) eos)[e.1 + 1]? = some e.2) ∧
          (e.1 = h.length → e.2 = eos)) := by
  intro L rows lens
  have hpad := padHypotheses_ok hyps sos hne hsos htok
  refine ⟨fun h hh => lt_padWidth hyps hh, exists_padWidth hyps hne, hpad, reverseHyps_ok hyps sos eos hne,
    padMask_ok hyps hne, fun b bd outs w input hin => ?_, fun prob hyp => attentionScore_eq_reads prob hyp eos,
    fun h hh => ⟨?_, ?_⟩⟩
  · have hrows := (rescore_decoder_rows hin).symm.trans hpad
    simp only [Except.ok.injEq, Padded.mk.injEq] at hrows
    exact hrows
  · intro e he
    obtain ⟨hle, hnext, hend⟩ := reads_shifted h sos 0 eos (L - 1 - h.length) e he
    exact ⟨by have := lt_padWidth hyps hh; omega, hnext, hend⟩
  · intro e he
    obtain ⟨hle, hnext, hend⟩ := reads_shifted h.reverse sos eos eos (L - 1 - h.length) e he
    rw [List.length_reverse] at hle hnext hend
    exact ⟨by have := lt_padWidth hyps hh; omega, hnext, hend⟩

/-- Three hypotheses of different lengths, one of them empty. -/
def sampleHyps : List (List Int) := [[5, 6, 7], [], [5, 6, 7, 8, 9]]

theorem decoder_inputs_match_scores_ragged :
    sampleHyps ≠ [] ∧ fitsInt64 2 = true ∧ (∀ h ∈ sampleHyps, ∀ t ∈ h, fitsInt64 t = true) ∧
      let L := padWidth sampleHyps
      let rows := sampleHyps.map (fun h => 2 :: h ++ List.replicate (L - 1 - h.length) 0)
      let lens := sampleHyps.map (fun h => (h.length : Int) + 1)
      (∀ h ∈ sampleHyps, h.length < L) ∧ (∃ h ∈ sampleHyps, h.length + 1 = L) ∧
        padHypotheses sampleHyps 2 = .ok ⟨rows, lens⟩ ∧
        Network.reverseHyps 2 3 rows lens =
          .ok (sampleHyps.map (fun h => 2 :: h.reverse ++ List.replicate (L - 1 - h.length) 3)) ∧
        Network.padMask lens none =
          .ok (sampleHyps.map (fun h => (List.range L).map (fun (j : Nat) => (j : Int) ≥ h.length + 1))) ∧
        (∀ b bidirectional outs w (input : DecoderInput),
          Call.decoder input ∈ (SpeechStream.rescore b 2 3 bidirectional sampleHyps outs w).1 →
          input.hyps = rows ∧ input.lens = lens) ∧
        (∀ prob hyp, attentionScore prob hyp 3 =
          (attentionReads hyp 3).foldlM (fun acc e => do pure (acc + (← scoreEntry prob e.1 e.2))) 0.0) ∧
        ∀ h ∈ sampleHyps,
          (∀ e ∈ attentionReads h 3, e.1 < L ∧
            (e.1 < h.length → (2 :: h ++ List.replicate (L - 1 - h.length) 0)[e.1 + 1]? = some e.2) ∧
            (e.1 = h.length → e.2 = 3)) ∧
          (∀ e ∈ attentionReads h.reverse 3, e.1 < L ∧
            (e.1 < h.length → (2 :: h.reverse ++ List.replicate (L - 1 - h.length) 3)[e.1 + 1]? = some e.2) ∧
            (e.1 = h.length → e.2 = 3)) := by
  have hne : sampleHyps ≠ [] := by simp [sampleHyps]
  have hsos : fitsInt64 2 = true := by decide
  have htok : ∀ h ∈ sampleHyps, ∀ t ∈ h, fitsInt64 t = true := by decide
  exact ⟨hne, hsos, htok, decoder_inputs_match_scores sampleHyps 2 3 hne hsos htok⟩

end SpeechStream
