import SpeechStream.Decoding.Recognizer
import SpeechStream.Proofs.ExceptSteps
/-!
Decode steps of a session, one at a time.

A step either waits, and then leaves the session as it was, or reads its request from the queue
and hands the frames to `Session.consume`, which never looks at the queue. A step is therefore
fixed by the frames it reads, and a step whose request is covered by frames already queued reads
the same frames whatever arrives behind them and whether or not the input has ended
(`Session.decode_extend`). What the chunk step and the end of a step can do is said once
(`Session.searchChunk_cases`, `Session.consume_cases`). A reset gives the stream a fresh state for
its metadata and empties the queue (`Session.reset_eq_ok`).
-/

set_option autoImplicit false

namespace SpeechStream

namespace FrameQueue

theorem ext_parts {q r : FrameQueue} (hd : q.dim = r.dim) (hp : q.pending = r.pending)
    (ht : q.total = r.total) (hf : q.finished = r.finished) : q = r := by
  obtain ⟨d, p, t, f, n, hn⟩ := q
  obtain ⟨d', p', t', f', n', hn'⟩ := r
  simp only at hd hp ht hf
  subst hd hp ht hf hn hn'
  rfl

variable (q : FrameQueue) (n : Int)

@[simp] theorem pending_dropFront (k : Nat) : (q.dropFront k).pending = q.pending.drop k := rfl

@[simp] theorem queued_dropFront (k : Nat) : (q.dropFront k).queued = q.queued - k := by
  simp [dropFront, q.queued_eq]

@[simp] theorem total_dropFront (k : Nat) : (q.dropFront k).total = q.total := rfl

@[simp] theorem dropFront_zero : q.dropFront 0 = q :=
  ext_parts rfl List.drop_zero rfl rfl

section Push

variable (ys : List Frame)

@[simp] theorem dim_push : (q.push ys).dim = q.dim := rfl
@[simp] theorem pending_push : (q.push ys).pending = q.pending ++ ys := rfl
@[simp] theorem total_push : (q.push ys).total = q.total + ys.length := rfl
@[simp] theorem finished_push : (q.push ys).finished = q.finished := rfl
@[simp] theorem queued_push : (q.push ys).queued = q.queued + ys.length := rfl

end Push

theorem read_eq : q.read n = (Tensor.ofRows (q.dim.getD 0) (q.pending.take (q.takes n)), q.filled n,
    q.dropFront (q.takes n)) := rfl

theorem takes_le_queued : q.takes n ≤ q.queued := by
  unfold takes
  split <;> omega

theorem takes_of_fits (h0 : 0 ≤ n) (hq : n ≤ q.queued) : q.takes n = n.toNat := by
  unfold takes
  split <;> omega

theorem filled_eq_false_iff : q.filled n = false ↔ q.finished = true ∧ (n < 0 ∨ q.queued < n) := by
  unfold filled
  split <;> cases q.finished <;> simp <;> omega

theorem filled_of_finished (h : q.finished = true) : q.filled n = true ↔ 0 ≤ n ∧ n ≤ q.queued := by
  simp only [filled, h]
  split <;> simp <;> omega

/-- The queue with frames appended behind the waiting ones and the end of input set to `fin`. -/
def extend (ys : List Frame) (fin : Bool) : FrameQueue := { q.push ys with finished := fin }

section Extend

variable (ys : List Frame) (fin : Bool)

@[simp] theorem dim_extend : (q.extend ys fin).dim = q.dim := rfl
@[simp] theorem pending_extend : (q.extend ys fin).pending = q.pending ++ ys := rfl
@[simp] theorem total_extend : (q.extend ys fin).total = q.total + ys.length := rfl
@[simp] theorem finished_extend : (q.extend ys fin).finished = fin := rfl
@[simp] theorem queued_extend : (q.extend ys fin).queued = q.queued + ys.length := rfl

end Extend

theorem extend_of_open (ys : List Frame) (h : q.finished = false) : q.extend ys false = q.push ys :=
  ext_parts rfl rfl rfl h.symm

theorem extend_extend (xs ys : List Frame) (f g : Bool) :
    (q.extend xs f).extend ys g = q.extend (xs ++ ys) g :=
  ext_parts rfl (by simp) (by simp [Nat.add_assoc]) rfl

theorem read_extend (ys : List Frame) (fin : Bool) (h0 : 0 ≤ n) (hq : n ≤ q.queued) :
    (q.extend ys fin).read n = ((q.read n).1, true, (q.read n).2.2.extend ys fin) := by
  have hn : q.takes n ≤ q.pending.length := q.queued_eq ▸ q.takes_le_queued n
  have htakes : (q.extend ys fin).takes n = q.takes n := by
    unfold takes
    rw [queued_extend]
    split <;> omega
  have hfilled : (q.extend ys fin).filled n = true := by
    have hn0 : ¬ n < 0 := by omega
    have hle : n ≤ (q.queued : Int) + ys.length := by omega
    simp [filled, hn0, hle]
  rw [read_eq, read_eq, htakes, hfilled]
  refine Prod.ext ?_ (Prod.ext rfl (ext_parts rfl ?_ rfl rfl))
  · simp only [dim_extend, pending_extend, List.take_append_of_le_length hn]
  · simp only [pending_dropFront, pending_extend, List.drop_append_of_le_length hn]

end FrameQueue

@[simp] theorem Tensor.numRows_ofRows (w : Nat) (rows : List (Array Float32)) :
    (Tensor.ofRows w rows).numRows = rows.length := rfl

namespace Stream

theorem forward_metadata (s : Stream) (feats : Tensor) :
    (s.forward feats).next.metadata = s.metadata := by
  unfold Stream.forward Stream.encodeFrames
  dsimp only
  repeat' split
  all_goals rfl

theorem rescore_next (s : Stream) (hyps : List (List Int)) (w : Float) :
    (s.rescore hyps w).next = s := by
  unfold Stream.rescore
  split <;> rfl

/-- Every request of the stream reads frames: no chunk asks for none. -/
def Reads (s : Stream) : Prop := ∀ started, s.framesForChunk started ≠ 0

theorem reads_of_metadata {s t : Stream} (h : t.metadata = s.metadata) (hs : s.Reads) : t.Reads := by
  intro b
  simpa [framesForChunk, h] using hs b

theorem reset_eq_ok {s s' : Stream} (h : s.reset = .ok s') :
    ∃ st, freshState s.metadata = .ok st ∧ s' = { s with state := some st } := by
  unfold reset at h
  obtain ⟨st, hst, h⟩ := Except.bind_eq_ok.1 h
  exact ⟨st, hst, (Except.pure_eq_ok.1 h).symm⟩

end Stream

/-- The end of a step as a caller that takes an endpoint for the end of a chunk sees it. -/
def DecodeState.asChunk : DecodeState → DecodeState
  | .endpoint => .endBatch
  | st => st

namespace Session

/-! The n-best list, the chunk step and the end of a step never read the queue. -/

variable (s : Session) (q : FrameQueue) (feats : Tensor) (st : DecodeState)

theorem candidates_queue : candidates { s with queue := q } = s.candidates := rfl

@[simp] theorem candidates_results (rs : List Candidate) :
    { s with results := rs }.candidates = s.candidates := rfl

@[simp] theorem request_queue : { s with queue := q }.request = s.request := rfl

theorem updateResults_of_ok {t : Session} {cs : List Candidate} (h : t.candidates = .ok cs) :
    t.updateResults = .ok { t with results := cs } := by
  simp [updateResults, h, bind, Except.bind, pure, Except.pure]

theorem updateResults_of_error {t : Session} {f : Fault} (h : t.candidates = .error f) :
    t.updateResults = .error f := by
  simp [updateResults, h, bind, Except.bind]

theorem searchChunk_queue :
    searchChunk { s with queue := q } feats =
      ⟨{ (s.searchChunk feats).next with queue := q }, (s.searchChunk feats).calls,
        (s.searchChunk feats).out⟩ := by
  by_cases hrows : feats.numRows > 0
  · cases hf : (s.stream.forward feats).out with
    | error f => simp [searchChunk, hrows, hf]
    | ok probs =>
      cases hs : s.searcher.search probs with
      | mk g fault => cases fault <;> simp [searchChunk, hrows, hf, hs]
  · simp [searchChunk, hrows]

theorem consume_queue_next :
    (consume { s with queue := q } feats st).next = { (s.consume feats st).next with queue := q } := by
  unfold consume
  rw [searchChunk_queue]
  cases hout : (s.searchChunk feats).out with
  | error f => simp [hout]
  | ok u =>
    cases hc : (s.searchChunk feats).next.candidates with
    | error f =>
      have hq : candidates { (s.searchChunk feats).next with queue := q } = .error f := hc
      simp [hout, updateResults_of_error hc, updateResults_of_error hq]
    | ok cs =>
      have hq : candidates { (s.searchChunk feats).next with queue := q } = .ok cs := hc
      simp [hout, updateResults_of_ok hc, updateResults_of_ok hq]

theorem consume_queue_eq : (s.consume feats st).next.queue = s.queue :=
  congrArg (fun t => t.queue) (consume_queue_next s s.queue feats st)

/-! What the chunk step does. -/

theorem searchChunk_of_empty (h : feats.numRows = 0) : s.searchChunk feats = ⟨s, [], .ok ()⟩ := by
  simp [searchChunk, h]

theorem searchChunk_cases :
    (feats.numRows = 0 ∧ s.searchChunk feats = ⟨s, [], .ok ()⟩) ∨
    (0 < feats.numRows ∧ ∃ f, (s.stream.forward feats).out = .error f ∧
      s.searchChunk feats =
        ⟨{ s with stream := (s.stream.forward feats).next }, (s.stream.forward feats).calls, .error f⟩) ∨
    (0 < feats.numRows ∧ ∃ probs g fault, (s.stream.forward feats).out = .ok probs ∧
      s.searcher.search probs = (g, fault) ∧
      s.searchChunk feats =
        ⟨{ s with
            stream := (s.stream.forward feats).next, started := true,
            frames := s.frames + feats.numRows, searcher := g },
          (s.stream.forward feats).calls, fault.elim (.ok ()) Except.error⟩) := by
  by_cases hrows : 0 < feats.numRows
  · cases hf : (s.stream.forward feats).out with
    | error f => exact .inr (.inl ⟨hrows, f, rfl, by simp [searchChunk, hrows, hf]⟩)
    | ok probs =>
      cases hs : s.searcher.search probs with
      | mk g fault =>
        refine .inr (.inr ⟨hrows, probs, g, fault, rfl, hs, ?_⟩)
        cases fault <;> simp [searchChunk, hrows, hf, hs]
  · exact .inl ⟨by omega, searchChunk_of_empty s feats (by omega)⟩

theorem searchChunk_of_rows (h : 0 < feats.numRows) :
    (s.searchChunk feats).calls = (s.stream.forward feats).calls ∧
      (s.searchChunk feats).next.stream = (s.stream.forward feats).next := by
  rcases searchChunk_cases s feats with ⟨h0, -⟩ | ⟨-, f, -, hsc⟩ | ⟨-, probs, g, fault, -, -, hsc⟩
  · omega
  · rw [hsc]
    exact ⟨rfl, rfl⟩
  · rw [hsc]
    exact ⟨rfl, rfl⟩

theorem searchChunk_frames (h : (s.searchChunk feats).out = .ok ()) :
    (s.searchChunk feats).next.frames = s.frames + feats.numRows := by
  rcases searchChunk_cases s feats with ⟨h0, hsc⟩ | ⟨-, f, -, hsc⟩ | ⟨-, probs, g, fault, -, -, hsc⟩
  · rw [hsc, h0]
    rfl
  · rw [hsc] at h
    cases h
  · rw [hsc]

theorem searchChunk_metadata : (s.searchChunk feats).next.stream.metadata = s.stream.metadata := by
  by_cases hrows : 0 < feats.numRows
  · rw [(searchChunk_of_rows s feats hrows).2, Stream.forward_metadata]
  · rw [searchChunk_of_empty s feats (by omega)]

/-! What the end of a step does: it rebuilds the n-best list on top of the chunk step. -/

/-- The end a step reports once its n-best list is rebuilt: the end of a chunk becomes an endpoint
when the endpoint detector fires on the session, and every other end stays. -/
def endAfter (s : Session) (st : DecodeState) : DecodeState :=
  match st, s.detector with
  | .endBatch, some d => if d s.toSessionCore then .endpoint else .endBatch
  | st, _ => st

theorem endAfter_endBatch : s.endAfter .endBatch = .endBatch ∨ s.endAfter .endBatch = .endpoint := by
  cases he : s.detector with
  | none => exact .inl (by simp [endAfter, he])
  | some d =>
    cases hd : d s.toSessionCore
    · exact .inl (by simp [endAfter, he, hd])
    · exact .inr (by simp [endAfter, he, hd])

theorem endAfter_of_ne (h : st ≠ .endBatch) : s.endAfter st = st := by
  cases st with
  | endBatch => exact absurd rfl h
  | _ => rfl

theorem out_of_asChunk {x y : Except Fault DecodeState}
    (h : x.map DecodeState.asChunk = y.map DecodeState.asChunk) :
    (∀ f, y = .error f → x = .error f) ∧
      ∀ st, y = .ok st → ∃ st', x = .ok st' ∧ st'.asChunk = st.asChunk := by
  constructor
  · rintro f rfl
    cases x with
    | error g => simpa [Except.map] using h
    | ok st' => simp [Except.map] at h
  · rintro st rfl
    cases x with
    | error g => simp [Except.map] at h
    | ok st' => exact ⟨st', rfl, by simpa [Except.map] using h⟩

@[simp] theorem asChunk_endAfter : (s.endAfter st).asChunk = st.asChunk := by
  by_cases h : st = .endBatch
  · subst h
    rcases endAfter_endBatch s with he | he <;> rw [he] <;> rfl
  · rw [endAfter_of_ne s st h]

theorem endAfter_eq_endFeats_iff : s.endAfter st = .endFeats ↔ st = .endFeats := by
  by_cases h : st = .endBatch
  · subst h
    rcases endAfter_endBatch s with he | he <;> simp [he]
  · rw [endAfter_of_ne s st h]

theorem endAfter_eq_waitFeats_iff : s.endAfter st = .waitFeats ↔ st = .waitFeats := by
  by_cases h : st = .endBatch
  · subst h
    rcases endAfter_endBatch s with he | he <;> simp [he]
  · rw [endAfter_of_ne s st h]

theorem consume_cases :
    (∃ f, (s.searchChunk feats).out = .error f ∧
      s.consume feats st = ⟨(s.searchChunk feats).next, (s.searchChunk feats).calls, .error f⟩) ∨
    (∃ f, (s.searchChunk feats).out = .ok () ∧ (s.searchChunk feats).next.candidates = .error f ∧
      s.consume feats st = ⟨(s.searchChunk feats).next, (s.searchChunk feats).calls, .error f⟩) ∨
    (∃ cs, (s.searchChunk feats).out = .ok () ∧ (s.searchChunk feats).next.candidates = .ok cs ∧
      s.consume feats st = ⟨{ (s.searchChunk feats).next with results := cs },
        (s.searchChunk feats).calls, .ok ({ (s.searchChunk feats).next with results := cs }.endAfter st)⟩) := by
  unfold consume
  cases hout : (s.searchChunk feats).out with
  | error f => exact .inl ⟨f, rfl, by simp [hout]⟩
  | ok u =>
    cases hc : (s.searchChunk feats).next.candidates with
    | error f => exact .inr (.inl ⟨f, rfl, rfl, by simp [hout, updateResults_of_error hc]⟩)
    | ok cs =>
      refine .inr (.inr ⟨cs, rfl, rfl, ?_⟩)
      simp only [hout, updateResults_of_ok hc]
      cases st <;> rfl

theorem consume_of_empty_ok (h : feats.numRows = 0) {cs : List Candidate} (hcs : s.candidates = .ok cs) :
    s.consume feats st = ⟨{ s with results := cs }, [], .ok ({ s with results := cs }.endAfter st)⟩ := by
  have hsc := searchChunk_of_empty s feats h
  rcases consume_cases s feats st with ⟨f, hout, -⟩ | ⟨f, -, hf, -⟩ | ⟨cs', -, hcs', hc⟩
  · rw [hsc] at hout
    cases hout
  · rw [hsc, hcs] at hf
    cases hf
  · rw [hsc, hcs] at hcs'
    cases hcs'
    rw [hc, hsc]

theorem consume_of_empty_error (h : feats.numRows = 0) {f : Fault} (hf : s.candidates = .error f) :
    s.consume feats st = ⟨s, [], .error f⟩ := by
  have hsc := searchChunk_of_empty s feats h
  rcases consume_cases s feats st with ⟨g, hout, -⟩ | ⟨g, -, hg, hc⟩ | ⟨cs, -, hcs, -⟩
  · rw [hsc] at hout
    cases hout
  · rw [hsc, hf] at hg
    cases hg
    rw [hc, hsc]
  · rw [hsc, hf] at hcs
    cases hcs

theorem consume_out_asChunk :
    (s.consume feats st).out.map DecodeState.asChunk =
      ((s.searchChunk feats).out.bind fun _ => (s.searchChunk feats).next.candidates).map
        (fun _ => st.asChunk) := by
  rcases consume_cases s feats st with ⟨f, hout, hc⟩ | ⟨f, hout, hcs, hc⟩ | ⟨cs, hout, hcs, hc⟩
  · rw [hc, hout]
    rfl
  · rw [hc, hout, hcs]
    rfl
  · rw [hc, hout, hcs]
    simp [Except.map, Except.bind]

theorem consume_queue_out :
    (consume { s with queue := q } feats st).out.map DecodeState.asChunk =
      (s.consume feats st).out.map DecodeState.asChunk := by
  rw [consume_out_asChunk, consume_out_asChunk, searchChunk_queue]
  rfl

theorem consume_calls : (s.consume feats st).calls = (s.searchChunk feats).calls := by
  rcases consume_cases s feats st with ⟨f, -, h⟩ | ⟨f, -, -, h⟩ | ⟨cs, -, -, h⟩ <;> rw [h]

theorem consume_queue_calls :
    (consume { s with queue := q } feats st).calls = (s.consume feats st).calls := by
  rw [consume_calls, consume_calls, searchChunk_queue]

theorem consume_next :
    ∃ rs, (s.consume feats st).next = { (s.searchChunk feats).next with results := rs } := by
  rcases consume_cases s feats st with ⟨f, -, h⟩ | ⟨f, -, -, h⟩ | ⟨cs, -, -, h⟩
  · exact ⟨(s.searchChunk feats).next.results, by rw [h]⟩
  · exact ⟨(s.searchChunk feats).next.results, by rw [h]⟩
  · exact ⟨cs, by rw [h]⟩

theorem consume_candidates :
    (s.consume feats st).next.candidates = (s.searchChunk feats).next.candidates := by
  obtain ⟨rs, h⟩ := consume_next s feats st
  rw [h, candidates_results]

theorem consume_ok {st' : DecodeState} (h : (s.consume feats st).out = .ok st') :
    (s.searchChunk feats).out = .ok () ∧ (s.searchChunk feats).next.candidates.isOk ∧
      (st' = .endFeats ↔ st = .endFeats) ∧ (st' = .waitFeats ↔ st = .waitFeats) := by
  rcases consume_cases s feats st with ⟨f, -, hc⟩ | ⟨f, -, -, hc⟩ | ⟨cs, hout, hcs, hc⟩
  · rw [hc] at h
    cases h
  · rw [hc] at h
    cases h
  · rw [hc] at h
    cases h
    exact ⟨hout, by rw [hcs]; rfl, endAfter_eq_endFeats_iff _ _, endAfter_eq_waitFeats_iff _ _⟩

/-! A decode step. -/

variable (b : Bool)

theorem waits_iff : s.waits b = true ↔
    b = false ∧ s.queue.finished = false ∧ (s.request < 0 ∨ s.queue.queued < s.request) := by
  simp [waits, and_assoc]

theorem decode_of_waits (h : s.waits b = true) : s.decode b = ⟨s, [], .ok .waitFeats⟩ := by
  simp [decode, h]

theorem decode_of_read {feats : Tensor} {filled : Bool} {q : FrameQueue} (h : s.waits b = false)
    (hr : s.queue.read s.request = (feats, filled, q)) :
    s.decode b = { s with queue := q }.consume feats (if filled then .endBatch else .endFeats) := by
  simp only [decode, h, hr, Bool.false_eq_true, ↓reduceIte]

theorem decode_of_not_waits (h : s.waits b = false) :
    s.decode b = { s with queue := (s.queue.read s.request).2.2 }.consume (s.queue.read s.request).1
      (if (s.queue.read s.request).2.1 then .endBatch else .endFeats) :=
  decode_of_read s b h rfl

section Reading

variable {s b} (h : s.waits b = false)
include h

theorem decode_queue_eq : (s.decode b).next.queue = (s.queue.read s.request).2.2 := by
  rw [decode_of_not_waits s b h, consume_queue_next]

theorem decode_calls_eq : (s.decode b).calls = (s.searchChunk (s.queue.read s.request).1).calls := by
  rw [decode_of_not_waits s b h, consume_queue_calls, consume_calls]

theorem decode_next_eq : ∃ rs, (s.decode b).next =
    { (s.searchChunk (s.queue.read s.request).1).next with
        queue := (s.queue.read s.request).2.2, results := rs } := by
  obtain ⟨rs, hrs⟩ := consume_next s (s.queue.read s.request).1
    (if (s.queue.read s.request).2.1 then .endBatch else .endFeats)
  refine ⟨rs, ?_⟩
  rw [decode_of_not_waits s b h, consume_queue_next, hrs]

theorem decode_ok {st' : DecodeState} (hout : (s.decode b).out = .ok st') :
    (s.searchChunk (s.queue.read s.request).1).out = .ok () ∧ (s.decode b).next.candidates.isOk ∧
      st' ≠ .waitFeats ∧ (st' = .endFeats ↔ s.queue.filled s.request = false) := by
  rw [decode_of_not_waits s b h] at hout ⊢
  obtain ⟨hchunk, hcands, hend, hwait⟩ := consume_ok _ _ _ hout
  refine ⟨?_, ?_, ?_, ?_⟩
  · rw [searchChunk_queue] at hchunk
    exact hchunk
  · simpa only [consume_candidates] using hcands
  · rw [Ne, hwait]
    cases (s.queue.read s.request).2.1 <;> simp
  · rw [hend]
    change (if s.queue.filled s.request = true then DecodeState.endBatch else .endFeats) = .endFeats ↔ _
    cases s.queue.filled s.request <;> simp

end Reading

theorem request_fits (h : s.waits false = false) (hopen : s.queue.finished = false) :
    0 ≤ s.request ∧ s.request ≤ s.queue.queued := by
  simp only [waits, hopen] at h
  simp at h
  omega

theorem filled_of_fits (h0 : 0 ≤ s.request) (h : s.request ≤ s.queue.queued) :
    s.queue.filled s.request = true := by
  have hn : ¬ s.request < 0 := by omega
  simp [FrameQueue.filled, hn, h]

theorem decode_extend (ys : List Frame) (fin : Bool) (hw : s.waits false = false)
    (hopen : s.queue.finished = false) :
    (({ s with queue := s.queue.extend ys fin }).decode b).next =
        { (s.decode false).next with queue := (s.decode false).next.queue.extend ys fin } ∧
      (({ s with queue := s.queue.extend ys fin }).decode b).calls = (s.decode false).calls ∧
      (({ s with queue := s.queue.extend ys fin }).decode b).out.map DecodeState.asChunk =
        (s.decode false).out.map DecodeState.asChunk := by
  obtain ⟨h0, hq⟩ := request_fits s hw hopen
  have hw' : ({ s with queue := s.queue.extend ys fin }).waits b = false := by
    have hneg : ¬ s.request < 0 := by omega
    have hshort : ¬ (s.queue.queued : Int) + ys.length < s.request := by omega
    simp [waits, hneg, hshort]
  have hread : s.queue.read s.request =
      ((s.queue.read s.request).1, true, (s.queue.read s.request).2.2) := by
    rw [← filled_of_fits s h0 hq]
    rfl
  rw [decode_of_read _ _ hw' (s.queue.read_extend s.request ys fin h0 hq), decode_of_read _ _ hw hread]
  refine ⟨?_, ?_, ?_⟩
  · simp only [consume_queue_next]
  · simp only [consume_queue_calls]
  · simp only [consume_queue_out]

theorem decode_queue_flags :
    (s.decode b).next.queue.finished = s.queue.finished ∧ (s.decode b).next.queue.dim = s.queue.dim := by
  cases h : s.waits b
  · rw [decode_queue_eq h]
    exact ⟨rfl, rfl⟩
  · rw [decode_of_waits s b h]
    exact ⟨rfl, rfl⟩

theorem decode_metadata : (s.decode b).next.stream.metadata = s.stream.metadata := by
  cases h : s.waits b
  · obtain ⟨rs, hn⟩ := decode_next_eq h
    rw [hn]
    exact searchChunk_metadata _ _
  · rw [decode_of_waits s b h]

theorem decode_endFeats_finished (h : (s.decode b).out = .ok .endFeats) : s.queue.finished = true := by
  cases hw : s.waits b
  · exact ((s.queue.filled_eq_false_iff s.request).1 ((decode_ok hw h).2.2.2.1 rfl)).1
  · rw [decode_of_waits s b hw] at h
    cases h

theorem request_fits_of_filled (hw : s.waits false = false) (hfilled : s.queue.filled s.request = true) :
    0 ≤ s.request ∧ s.request ≤ s.queue.queued := by
  cases hfin : s.queue.finished
  · exact request_fits s hw hfin
  · exact (s.queue.filled_of_finished s.request hfin).1 hfilled

theorem decode_shrinks {st : DecodeState} (hr : s.stream.Reads) (hout : (s.decode false).out = .ok st)
    (hend : st ≠ .endFeats) (hwait : st ≠ .waitFeats) :
    (s.decode false).next.queue.queued < s.queue.queued := by
  have hw : s.waits false = false := by
    cases h : s.waits false
    · rfl
    · rw [decode_of_waits s false h] at hout
      cases hout
      exact absurd rfl hwait
  obtain ⟨-, -, -, hfill⟩ := decode_ok hw hout
  have hfilled : s.queue.filled s.request = true := by
    cases h : s.queue.filled s.request
    · exact absurd (hfill.2 h) hend
    · rfl
  obtain ⟨h0, hq⟩ := request_fits_of_filled s hw hfilled
  have hnz : s.request ≠ 0 := hr s.started
  have htakes : s.queue.takes s.request = s.request.toNat := s.queue.takes_of_fits _ h0 hq
  rw [decode_queue_eq hw, FrameQueue.read_eq, FrameQueue.queued_dropFront, htakes]
  omega

theorem rescoring_next : ∃ rs, s.rescoring.next = { s with results := rs } := by
  unfold rescoring
  cases hc : s.candidates with
  | error f => exact ⟨s.results, by simp [updateResults_of_error hc]⟩
  | ok cs =>
    simp only [updateResults_of_ok hc]
    split
    · exact ⟨cs, rfl⟩
    · split <;> simp [Stream.rescore_next]

theorem reset_eq_ok {s t : Session} (h : s.reset = .ok t) :
    ∃ st, Stream.freshState s.stream.metadata = .ok st ∧
      t = { s with
        started := false, results := [], frames := 0, queue := s.queue.reset,
        stream := { s.stream with state := some st }, searcher := s.searcher.reset } := by
  unfold reset at h
  obtain ⟨stream, hstream, h⟩ := Except.bind_eq_ok.1 h
  obtain ⟨st, hst, rfl⟩ := Stream.reset_eq_ok hstream
  exact ⟨st, hst, (Except.pure_eq_ok.1 h).symm⟩

end Session

theorem Recognizer.reset_eq_ok {r r' : Recognizer} (h : r.reset = .ok r') :
    ∃ t, r.session.reset = .ok t ∧ r' = ⟨t, "", [], false⟩ := by
  unfold Recognizer.reset at h
  obtain ⟨t, ht, h⟩ := Except.bind_eq_ok.1 h
  exact ⟨t, ht, (Except.pure_eq_ok.1 h).symm⟩

end SpeechStream
