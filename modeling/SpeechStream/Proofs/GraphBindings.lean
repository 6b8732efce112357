import SpeechStream.Proofs.ChunkFaults
import SpeechStream.Proofs.StreamArithmetic
import SpeechStream.Backend.Graphs
/-!
Exported graphs are fed by name.

A stream filters the encoder inputs it supplies down to the roles its backend accepts, and a
backend over exported graphs accepts exactly the roles its encoder declares an input for, and
feeds each value under its role's name. The two filters agree: the encoder graph receives the
supplied values, in role order, under those of their names that it declares, and nothing else
(`GraphSet.encoderFeed_filter_roles`, `Stream.feed_eq_ok`). A chunk supplies the frames, the
offset, the cache size and both caches, and the attention mask exactly when left chunks are
kept (`Stream.mask_isSome`).

The encoder's first three outputs are the chunk's output and the new caches
(`GraphSet.encode_eq_ok_iff`), and a chunk step keeps them in the stream once the encoder has
returned (`Stream.encodeFrames_of_encoded`). The decoder is fed by position, and its second
output, when there is one, is the right-to-left score (`GraphSet.decode_of_run`).
-/

set_option autoImplicit false

namespace SpeechStream

namespace Role

/-- The element type exported graphs expect for each role. -/
def dtype : Role → String
  | .chunk | .attCache | .cnnCache => "float32"
  | .offset | .requiredCacheSize => "int64"
  | .attMask => "bool"

theorem mem_all (r : Role) : r ∈ all := by
  cases r <;> simp [all]

end Role

namespace GraphSet

theorem mem_roles (g : GraphSet) (r : Role) : r ∈ g.roles ↔ r.name ∈ g.encoder.inputs := by
  simp [roles, Role.mem_all]

/-- The inputs the encoder graph declares, each under its role's name, with its value
unconverted. -/
def named (g : GraphSet) (l : Feed) : List (String × Input) :=
  (l.map (fun p => (p.1.name, p.2))).filter (fun q => g.encoder.inputs.contains q.1)

theorem convert_of_fits {v : Input} (h : ∀ n, v = .int n → fitsInt64 n = true) :
    convert v = .ok v := by
  cases v with
  | int n => simp [convert, h n rfl]
  | _ => rfl

theorem convert_int_of_not_fits {n : Int} (h : fitsInt64 n = false) :
    convert (.int n) = .error .conversionOverflow := by
  simp [convert, h]

theorem convert_eq_error {v : Input} {f : Fault} (h : convert v = .error f) :
    f = .conversionOverflow := by
  cases v with
  | int n =>
    by_cases hn : fitsInt64 n = true <;> simp [convert, hn] at h
    exact h.symm
  | _ => cases h

theorem encoderFeed_filter_roles (g : GraphSet) (l : Feed) :
    g.encoderFeed (l.filter (fun p => g.roles.contains p.1)) = g.encoderFeed l := by
  simp only [encoderFeed, List.filter_filter]
  congr 1
  exact List.filter_congr (fun p _ => by simp [mem_roles])

theorem encoderFeed_of_fits (g : GraphSet) {l : Feed} (h : ∀ p ∈ l, convert p.2 = .ok p.2) :
    g.encoderFeed l = .ok (g.named l) := by
  induction l with
  | nil => rfl
  | cons p l ih =>
    have hl := ih (fun q hq => h q (List.mem_cons_of_mem p hq))
    simp [encoderFeed, named] at hl ⊢
    by_cases hp : p.1.name ∈ g.encoder.inputs
    · simp [hp, h p List.mem_cons_self, hl]
    · simp [hp, hl]

theorem encoderFeed_eq_error (g : GraphSet) {l : Feed} {p : Role × Input} (hp : p ∈ l)
    (hdecl : p.1.name ∈ g.encoder.inputs) {f : Fault} (hf : convert p.2 = .error f) :
    g.encoderFeed l = .error .conversionOverflow := by
  induction l with
  | nil => cases hp
  | cons q l ih =>
    simp [encoderFeed] at ih ⊢
    rcases List.mem_cons.1 hp with rfl | hp
    · simp [hdecl, hf, convert_eq_error hf]
    · by_cases hq : q.1.name ∈ g.encoder.inputs
      · cases hc : convert q.2 with
        | error f' => simp [hq, hc, convert_eq_error hc]
        | ok v => simp [hq, hc, ih hp]
      · simp [hq, ih hp]

theorem encode_eq_ok_iff (g : GraphSet) (feed : Feed) (o : EncoderOutput) :
    g.toBackend.encode feed = .ok o ↔ ∃ named rest, g.encoderFeed feed = .ok named ∧
      g.encoder.run named = .ok (o.out :: o.attCache :: o.cnnCache :: rest) := by
  simp only [toBackend]
  cases hfeed : g.encoderFeed feed with
  | error f => simp [bind, Except.bind]
  | ok named =>
    cases hrun : g.encoder.run named with
    | error f => simp [bind, Except.bind, hrun]
    | ok outs =>
      rcases outs with _ | ⟨out, _ | ⟨att, _ | ⟨cnn, rest⟩⟩⟩
      · simp [bind, Except.bind, hrun, throw, throwThe, MonadExceptOf.throw]
      · simp [bind, Except.bind, hrun, throw, throwThe, MonadExceptOf.throw]
      · simp [bind, Except.bind, hrun, throw, throwThe, MonadExceptOf.throw]
      · cases o
        simp [bind, Except.bind, hrun, pure, Except.pure]

theorem encode_of_feed_error {g : GraphSet} {feed : Feed} {f : Fault}
    (h : g.encoderFeed feed = .error f) : g.toBackend.encode feed = .error f := by
  simp [toBackend, h, bind, Except.bind]

theorem encode_of_run_error {g : GraphSet} {feed : Feed} {named : List (String × Input)}
    (h : g.encoderFeed feed = .ok named) {f : Fault} (hrun : g.encoder.run named = .error f) :
    g.toBackend.encode feed = .error f := by
  simp [toBackend, h, hrun, bind, Except.bind]

theorem decoderFeed_of_inputs (g : GraphSet) (d : DecoderInput) {a b c : String} {more : List String}
    (h : g.decoder.inputs = a :: b :: c :: more) :
    g.decoderFeed d = .ok [(a, .ints [d.hyps.length, (d.hyps.headD []).length] d.hyps.flatten),
      (b, .ints [d.lens.length] d.lens), (c, .tensor d.enc)] := by
  simp [decoderFeed, h]

theorem decode_eq_ok_iff (g : GraphSet) (d : DecoderInput) (o : DecoderOutput) :
    g.toBackend.decode d = .ok o ↔ ∃ feed outs, g.decoderFeed d = .ok feed ∧
      g.decoder.run feed = .ok outs ∧ outs.head? = some o.forward ∧ o.backward = outs[1]? := by
  simp only [toBackend]
  cases hfeed : g.decoderFeed d with
  | error f => simp [bind, Except.bind]
  | ok feed =>
    cases hrun : g.decoder.run feed with
    | error f => simp [bind, Except.bind, hrun]
    | ok outs =>
      cases outs with
      | nil => simp [bind, Except.bind, firstOutput, hrun]
      | cons t rest =>
        cases o
        simp [bind, Except.bind, firstOutput, pure, Except.pure, eq_comm, hrun]

theorem decode_of_run (g : GraphSet) (d : DecoderInput) {a b c : String} {more : List String}
    (h : g.decoder.inputs = a :: b :: c :: more) {outs : List Tensor}
    (hrun : g.decoder.run [(a, .ints [d.hyps.length, (d.hyps.headD []).length] d.hyps.flatten),
      (b, .ints [d.lens.length] d.lens), (c, .tensor d.enc)] = .ok outs) (o : DecoderOutput) :
    g.toBackend.decode d = .ok o ↔ outs.head? = some o.forward ∧ o.backward = outs[1]? := by
  rw [decode_eq_ok_iff, decoderFeed_of_inputs g d h]
  constructor
  · rintro ⟨feed, outs', hfeed, hrun', hhead, hback⟩
    cases hfeed
    rw [hrun] at hrun'
    cases hrun'
    exact ⟨hhead, hback⟩
  · rintro ⟨hhead, hback⟩
    exact ⟨_, outs, rfl, hrun, hhead, hback⟩

end GraphSet

namespace Stream

/-- The encoder inputs a chunk supplies, in role order, before they are narrowed to the roles
the backend accepts: the frames, the offset, the cache size, both caches and the mask when
there is one. -/
def supplied (s : Stream) (st : StreamState) (feats : Tensor) (mo : Option Mask) : Feed :=
  [(.chunk, .tensor feats.unsqueeze), (.offset, .int st.offset),
    (.requiredCacheSize, .int s.metadata.requiredCacheSize), (.attCache, .tensor st.attCache),
    (.cnnCache, .tensor st.cnnCache)] ++ mo.toList.map (fun mk => (.attMask, .mask mk))

/-- The roles a chunk supplies: the attention mask only when left chunks are kept. -/
def suppliedRoles (m : Metadata) : List Role :=
  [.chunk, .offset, .requiredCacheSize, .attCache, .cnnCache] ++
    if 0 < m.leftChunks then [.attMask] else []

theorem feed_eq_ok {s : Stream} {st : StreamState} {mo : Option Mask}
    (hmask : s.mask st.offset = .ok mo) (feats : Tensor) :
    s.feed st feats = .ok ((s.supplied st feats mo).filter (fun p => s.backend.roles.contains p.1)) := by
  cases mo <;> simp only [feed, hmask, bind, Except.bind, pure, Except.pure] <;> rfl

theorem mask_isSome {s : Stream} {offset : Int} {mo : Option Mask} (h : s.mask offset = .ok mo) :
    mo.isSome ↔ 0 < s.metadata.leftChunks := by
  unfold mask at h
  by_cases hl : s.metadata.leftChunks ≤ 0
  · simp only [hl, if_true] at h
    cases h
    simp only [Option.isSome_none, Bool.false_eq_true, false_iff]
    omega
  · simp only [show 0 < s.metadata.leftChunks by omega, iff_true]
    simp only [hl, if_false, bind, Except.bind, throw, throwThe, MonadExceptOf.throw, pure,
      Except.pure] at h
    split at h
    · cases h
    · split at h
      · cases h
      · cases h
        rfl

theorem map_fst_supplied {s : Stream} {st : StreamState} {feats : Tensor} {mo : Option Mask}
    (h : mo.isSome ↔ 0 < s.metadata.leftChunks) :
    (s.supplied st feats mo).map Prod.fst = suppliedRoles s.metadata := by
  cases mo <;> by_cases hl : 0 < s.metadata.leftChunks <;> simp_all [supplied, suppliedRoles]

theorem supplied_dtype (s : Stream) (st : StreamState) (feats : Tensor) (mo : Option Mask) :
    ∀ p ∈ s.supplied st feats mo, p.2.dtype = p.1.dtype ∧
      (p.1 = .offset ∨ p.1 = .requiredCacheSize → p.2.shape = []) := by
  cases mo <;> simp [supplied, Input.dtype, Input.shape, Role.dtype]

theorem convert_supplied {s : Stream} {st : StreamState} (feats : Tensor) (mo : Option Mask)
    (hoff : fitsInt64 st.offset = true) (hreq : fitsInt64 s.metadata.requiredCacheSize = true) :
    ∀ p ∈ s.supplied st feats mo, GraphSet.convert p.2 = .ok p.2 := by
  intro p hp
  apply GraphSet.convert_of_fits
  intro n hn
  cases mo <;> simp only [supplied, List.cons_append, List.nil_append, Option.toList,
    List.map_cons, List.map_nil, List.mem_cons, List.not_mem_nil, or_false] at hp <;>
    rcases hp with rfl | rfl | rfl | rfl | rfl | rfl <;> cases hn <;> assumption

theorem offset_mem_supplied (s : Stream) (st : StreamState) (feats : Tensor) (mo : Option Mask) :
    ((.offset, .int st.offset) : Role × Input) ∈ s.supplied st feats mo := by
  simp [supplied]

theorem requiredCacheSize_mem_supplied (s : Stream) (st : StreamState) (feats : Tensor)
    (mo : Option Mask) :
    ((.requiredCacheSize, .int s.metadata.requiredCacheSize) : Role × Input) ∈
      s.supplied st feats mo := by
  simp [supplied]

theorem encodeFrames_of_encoded {s : Stream} {st : StreamState} {feats : Tensor} {n : Nat}
    (hrows : feats.rows? = .ok n) (hpos : 0 < n) (hctx : s.metadata.rightContext + 1 ≤ n)
    {inputs : Feed} (hfeed : s.feed st feats = .ok inputs) {enc : EncoderOutput}
    (henc : s.backend.encode inputs = .ok enc) {produced : Nat} (hsize : enc.out.size? 1 = .ok produced) :
    (s.encodeFrames st feats).calls.head? = some (.encoder inputs) ∧
      ∃ c, (s.encodeFrames st feats).next.state = some { st with
        attCache := enc.attCache, cnnCache := enc.cnnCache, offset := st.offset + produced,
        outputs := st.outputs ++ [enc.out], carried := c } := by
  rcases encodeFrames_of_returned hrows hpos hctx hfeed henc hsize with
    ⟨f, calls, rfl | rfl, he⟩ | ⟨v, lp, he⟩
  · rw [he]
    exact ⟨rfl, _, rfl⟩
  · rw [he]
    exact ⟨rfl, _, rfl⟩
  · rw [he]
    exact ⟨rfl, _, rfl⟩

theorem encodeFrames_of_encode_error {s : Stream} {st : StreamState} {feats : Tensor} {n : Nat}
    (hrows : feats.rows? = .ok n) (hpos : 0 < n) (hctx : s.metadata.rightContext + 1 ≤ n)
    {inputs : Feed} (hfeed : s.feed st feats = .ok inputs) {f : Fault}
    (henc : s.backend.encode inputs = .error f) : s.encodeFrames st feats = ⟨s, [], .error f⟩ := by
  have hn : (n == 0) = false := by simp; omega
  have hlong : ¬ (n : Int) < s.metadata.rightContext + 1 := by omega
  simp [encodeFrames, hrows, hn, hlong, hfeed, henc]

end Stream

open SpeechStream.Stream in
/-- Exported graphs are bound to a stream by name. On a chunk that reaches the encoder (a reset
stream, frames that hold the look-ahead, and a chunking whose mask can be built), when the
offset and the cache size fit in 64 bits, the encoder graph receives the supplied values
unchanged under the names of their roles, in role order, exactly for the names it declares:
the frames, the offset, the cache size and both caches, and the mask when left chunks are
kept. Every value has its role's element type, the offset and the cache size as scalars. A
fault of the graph is the chunk's fault with nothing changed; otherwise its first three outputs
become the chunk's output and the new caches. A declared offset or cache size outside 64 bits
is an overflow before the graph runs, with nothing changed. The decoder graph is fed by
position and yields right-to-left scores exactly when it returns a second output. -/
theorem encoder_inputs_bound_by_name {g : GraphSet} {s : Stream} (hb : s.backend = g.toBackend)
    {st : StreamState} (hst : s.current = .ok st) {features feats : Tensor}
    (hjoin : joinCarried st features = .ok feats) {n : Nat} (hrows : feats.rows? = .ok n)
    (hpos : 0 < n) (hctx : s.metadata.rightContext + 1 ≤ n)
    (hchunk : s.metadata.leftChunks ≤ 0 ∨
      0 < s.metadata.chunkSize ∧ s.metadata.requiredCacheSize + s.metadata.chunkSize < 2 ^ 63) :
    (∃ mo inputs, s.mask st.offset = .ok mo ∧ (mo.isSome ↔ 0 < s.metadata.leftChunks) ∧
      s.feed st feats = .ok inputs ∧
      (fitsInt64 st.offset = true → fitsInt64 s.metadata.requiredCacheSize = true →
        g.encoderFeed inputs = .ok (g.named (s.supplied st feats mo)) ∧
        (g.named (s.supplied st feats mo)).map Prod.fst =
          ((suppliedRoles s.metadata).map Role.name).filter (fun x => g.encoder.inputs.contains x) ∧
        (∀ q ∈ g.named (s.supplied st feats mo), ∃ r : Role, q.1 = r.name ∧ q.2.dtype = r.dtype ∧
          (r = .offset ∨ r = .requiredCacheSize → q.2.shape = [])) ∧
        (∀ f, g.encoder.run (g.named (s.supplied st feats mo)) = .error f →
          s.forward features = ⟨s, [], .error f⟩) ∧
        (∀ out att cnn rest produced,
          g.encoder.run (g.named (s.supplied st feats mo)) = .ok (out :: att :: cnn :: rest) →
          out.size? 1 = .ok produced →
          (s.forward features).calls.head? = some (.encoder inputs) ∧
          ∃ c, (s.forward features).next.state = some { st with
            attCache := att, cnnCache := cnn, offset := st.offset + produced,
            outputs := st.outputs ++ [out], carried := c })) ∧
      ((Role.offset.name ∈ g.encoder.inputs ∧ fitsInt64 st.offset = false) ∨
        (Role.requiredCacheSize.name ∈ g.encoder.inputs ∧
          fitsInt64 s.metadata.requiredCacheSize = false) →
        s.forward features = ⟨s, [], .error .conversionOverflow⟩)) ∧
    ∀ (d : DecoderInput) (a b c : String) (more : List String), g.decoder.inputs = a :: b :: c :: more →
      ∀ outs, g.decoder.run [(a, .ints [d.hyps.length, (d.hyps.headD []).length] d.hyps.flatten),
        (b, .ints [d.lens.length] d.lens), (c, .tensor d.enc)] = .ok outs →
      ∀ o, (g.toBackend.decode d = .ok o ↔ outs.head? = some o.forward ∧ o.backward = outs[1]?) ∧
        (g.toBackend.decode d = .ok o → (o.backward.isSome ↔ 1 < outs.length)) := by
  have hfwd : s.forward features = s.encodeFrames st feats := by simp [forward, hst, hjoin]
  obtain ⟨mo, hmask⟩ := (mask_ok_iff s st.offset).2 hchunk
  have hsome := mask_isSome hmask
  have hfeed := feed_eq_ok hmask feats
  have hbound : g.encoderFeed ((s.supplied st feats mo).filter (fun p => s.backend.roles.contains p.1)) =
      g.encoderFeed (s.supplied st feats mo) := by
    rw [hb]
    exact GraphSet.encoderFeed_filter_roles g _
  generalize (s.supplied st feats mo).filter (fun p => s.backend.roles.contains p.1) = inputs
    at hfeed hbound
  have hfault : ∀ f, g.toBackend.encode inputs = .error f → s.forward features = ⟨s, [], .error f⟩ := by
    intro f henc
    rw [hfwd]
    exact encodeFrames_of_encode_error hrows hpos hctx hfeed (hb ▸ henc)
  refine ⟨⟨mo, inputs, hmask, hsome, hfeed, fun hoff hreq => ?fits, ?overflow⟩, ?decoder⟩
  case fits =>
    have hnamed : g.encoderFeed inputs = .ok (g.named (s.supplied st feats mo)) := by
      rw [hbound]
      exact GraphSet.encoderFeed_of_fits g (convert_supplied feats mo hoff hreq)
    refine ⟨hnamed, ?keys, ?dtype, ?fault, ?encoded⟩
    case keys =>
      rw [GraphSet.named, ← map_fst_supplied hsome]
      simp only [List.filter_map, List.map_map]
      rfl
    case dtype =>
      intro q hq
      obtain ⟨p, hp, rfl⟩ := List.mem_map.1 (List.mem_filter.1 hq).1
      exact ⟨p.1, rfl, supplied_dtype s st feats mo p hp⟩
    case fault =>
      intro f hrun
      exact hfault f (GraphSet.encode_of_run_error hnamed hrun)
    case encoded =>
      intro out att cnn rest produced hrun hsize
      have henc : s.backend.encode inputs = .ok ⟨out, att, cnn⟩ := by
        rw [hb]
        exact (GraphSet.encode_eq_ok_iff g inputs ⟨out, att, cnn⟩).2 ⟨_, rest, hnamed, hrun⟩
      rw [hfwd]
      exact encodeFrames_of_encoded hrows hpos hctx hfeed henc hsize
  case overflow =>
    intro hbad
    have hover : g.encoderFeed inputs = .error .conversionOverflow := by
      rw [hbound]
      rcases hbad with ⟨hdecl, hfit⟩ | ⟨hdecl, hfit⟩
      · exact GraphSet.encoderFeed_eq_error g (offset_mem_supplied s st feats mo) hdecl
          (GraphSet.convert_int_of_not_fits hfit)
      · exact GraphSet.encoderFeed_eq_error g (requiredCacheSize_mem_supplied s st feats mo) hdecl
          (GraphSet.convert_int_of_not_fits hfit)
    exact hfault _ (GraphSet.encode_of_feed_error hover)
  case decoder =>
    intro d a b c more hin outs hrun o
    have hdec := GraphSet.decode_of_run g d hin hrun o
    refine ⟨hdec, fun h => ?_⟩
    rw [(hdec.1 h).2]
    simp

/-- An encoder graph that declares its inputs out of role order, with a name of no role and
without the caches: with one left chunk the first chunk feeds the frames, the offset and the
mask, unchanged. Declaring the cache size instead, a chunking of `2^40` frames and `-2^40` left
chunks, which keeps no cache, makes the first chunk an overflow. -/
theorem encoder_inputs_bound_with_unknown_name :
    let md : Metadata := ⟨4, 1, 2, 3, 1, 0, 1, 1, false, 2, 1⟩
    let g : GraphSet := ⟨md, ⟨["offset", "speaker_id", "att_mask", "chunk"], ["output"],
        fun _ => .ok []⟩, ⟨["encoder_out"], ["ctc_log_probs"], fun _ => .ok []⟩,
      ⟨["hyps", "hyps_lens", "encoder_out"], ["score"], fun _ => .ok []⟩⟩
    let st : StreamState := ⟨2, Tensor.zeros [1, 2, 2, 2], Tensor.zeros [1, 1, 4, 2], [], none⟩
    let s : Stream := ⟨g.toBackend, md, some st, 0⟩
    let md' : Metadata := md.withChunking (2 ^ 40) (-2 ^ 40)
    let g' : GraphSet := { g with encoder := ⟨["chunk", "required_cache_size"], ["output"],
        fun _ => .ok []⟩ }
    let st' : StreamState := ⟨0, Tensor.zeros [1, 2, 0, 4], Tensor.zeros [1, 1, 4, 2], [], none⟩
    let s' : Stream := ⟨g'.toBackend, md', some st', 0⟩
    (∃ mo inputs, s.feed st (Tensor.zeros [1, 4]) = .ok inputs ∧
      (g.named (s.supplied st (Tensor.zeros [1, 4]) mo)).map Prod.fst =
        ["chunk", "offset", "att_mask"] ∧
      g.encoderFeed inputs = .ok (g.named (s.supplied st (Tensor.zeros [1, 4]) mo))) ∧
    (Stream.new g'.toBackend md').reset = .ok s' ∧
    s'.forward (Tensor.zeros [1, 4]) = ⟨s', [], .error .conversionOverflow⟩ := by
  intro md g st s md' g' st' s'
  obtain ⟨⟨mo, inputs, -, -, hfeed, hfits, -⟩, -⟩ := encoder_inputs_bound_by_name (g := g)
    (s := s) rfl (show s.current = .ok st from rfl)
    (show Stream.joinCarried st (Tensor.zeros [1, 4]) = .ok (Tensor.zeros [1, 4]) from rfl)
    (n := 1) rfl Nat.one_pos (by decide) (Or.inr ⟨by decide, by decide⟩)
  obtain ⟨hnamed, hkeys, -⟩ := hfits (by decide) (by decide)
  obtain ⟨⟨-, -, -, -, -, -, hover⟩, -⟩ := encoder_inputs_bound_by_name (g := g') (s := s')
    rfl (show s'.current = .ok st' from rfl)
    (show Stream.joinCarried st' (Tensor.zeros [1, 4]) = .ok (Tensor.zeros [1, 4]) from rfl)
    (n := 1) rfl Nat.one_pos (by decide) (Or.inl (by decide))
  refine ⟨⟨mo, inputs, hfeed, ?_, hnamed⟩, rfl, hover (Or.inr ⟨by decide, by decide⟩)⟩
  rw [hkeys]
  rfl

end SpeechStream
