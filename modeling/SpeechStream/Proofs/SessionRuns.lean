import SpeechStream.Proofs.BlockFeeding
/-!
Runs of a decoding session under a client's operations.

A client queues frames, ends the input, runs decode steps, rescores and starts new utterances, in
any order (`Session.Op`, `Session.run`); an operation that raises a fault ends the run. Every
frame accepted since the last reset is then either decoded or still queued (`Session.FramesKept`),
and once a step has ended the input the session stays drained (`Session.Drained`): later steps
read nothing, call nothing and end the input again, until a reset.
-/

set_option autoImplicit false

namespace SpeechStream

namespace FrameQueue

theorem accept_ok {q q' : FrameQueue} {t : Tensor} (h : q.accept t = .ok q') :
    ∃ k, q'.queued = q.queued + k ∧ q'.total = q.total + k ∧ q'.finished = q.finished := by
  unfold accept at h
  split at h
  · cases h
  · split at h
    · rename_i rows width _
      split at h
      · split at h
        · cases h
        · cases h
          exact ⟨rows, by simp, by simp, rfl⟩
      · cases h
        exact ⟨rows, by simp, by simp, rfl⟩
    · cases h

theorem numRows_read (q : FrameQueue) (n : Int) : (q.read n).1.numRows = q.takes n := by
  rw [read_eq, Tensor.numRows_ofRows, List.length_take]
  exact Nat.min_eq_left (q.queued_eq ▸ q.takes_le_queued n)

theorem accept_of_finished (q : FrameQueue) (t : Tensor) (h : q.finished = true) :
    q.accept t = .error .acceptAfterFinish := by
  simp [accept, h]

end FrameQueue

namespace Session

/-- What a client does with a decoding session: queues frames, ends the input, runs a decode
step (taking whatever is queued when told to), rescores, or starts a new utterance. -/
inductive Op where
  | accept (t : Tensor)
  | finish
  | decode (block : Bool)
  | rescore
  | reset

/-- The session after an operation, or nothing when the operation raises a fault. -/
def step? (s : Session) : Op → Option Session
  | .accept t => match s.queue.accept t with
    | .ok q => some { s with queue := q }
    | .error _ => none
  | .finish => some { s with queue := s.queue.finish }
  | .decode b => match (s.decode b).out with
    | .ok _ => some (s.decode b).next
    | .error _ => none
  | .rescore => match s.rescoring.out with
    | .ok () => some s.rescoring.next
    | .error _ => none
  | .reset => match s.reset with
    | .ok s' => some s'
    | .error _ => none

/-- The session after operations, or nothing when one of them raises a fault. -/
def run (s : Session) (ops : List Op) : Option Session := ops.foldlM step? s

@[simp] theorem run_nil (s : Session) : s.run [] = some s := rfl

theorem run_cons (s : Session) (op : Op) (ops : List Op) :
    s.run (op :: ops) = (s.step? op).bind (fun t => t.run ops) := rfl

theorem step?_eq_some {s s' : Session} {op : Op} (h : s.step? op = some s') :
    (∃ t q, op = .accept t ∧ s.queue.accept t = .ok q ∧ s' = { s with queue := q }) ∨
    (op = .finish ∧ s' = { s with queue := s.queue.finish }) ∨
    (∃ b st, op = .decode b ∧ (s.decode b).out = .ok st ∧ s' = (s.decode b).next) ∨
    (op = .rescore ∧ s.rescoring.out = .ok () ∧ s' = s.rescoring.next) ∨
    (op = .reset ∧ s.reset = .ok s') := by
  cases op with
  | accept t =>
    cases hq : s.queue.accept t with
    | error f => simp [step?, hq] at h
    | ok q =>
      simp only [step?, hq, Option.some.injEq] at h
      exact .inl ⟨t, q, rfl, hq, h.symm⟩
  | finish => exact .inr (.inl ⟨rfl, (Option.some.inj h).symm⟩)
  | decode b =>
    cases hout : (s.decode b).out with
    | error f => simp [step?, hout] at h
    | ok st =>
      simp only [step?, hout, Option.some.injEq] at h
      exact .inr (.inr (.inl ⟨b, st, rfl, hout, h.symm⟩))
  | rescore =>
    cases hout : s.rescoring.out with
    | error f => simp [step?, hout] at h
    | ok u =>
      simp only [step?, hout, Option.some.injEq] at h
      exact .inr (.inr (.inr (.inl ⟨rfl, rfl, h.symm⟩)))
  | reset =>
    cases hr : s.reset with
    | error f => simp [step?, hr] at h
    | ok t =>
      simp only [step?, hr, Option.some.injEq] at h
      exact .inr (.inr (.inr (.inr ⟨rfl, by rw [h]⟩)))

theorem run_invariant (P : Session → Prop) (allowed : Op → Prop)
    (hstep : ∀ s op s', P s → allowed op → s.step? op = some s' → P s') :
    ∀ (ops : List Op) (s s' : Session), P s → (∀ op ∈ ops, allowed op) → s.run ops = some s' → P s'
  | [], s, s', hs, _, h => by
    cases h
    exact hs
  | op :: ops, s, s', hs, hops, h => by
    rw [run_cons] at h
    cases hop : s.step? op with
    | none =>
      rw [hop] at h
      cases h
    | some t =>
      rw [hop] at h
      exact run_invariant P allowed hstep ops t s'
        (hstep s op t hs (hops op List.mem_cons_self) hop)
        (fun o ho => hops o (List.mem_cons_of_mem _ ho)) h

/-! Frames are kept: every frame accepted since the last reset was either decoded or still waits. -/

/-- Every frame accepted since the last reset has been decoded or still waits in the queue. -/
def FramesKept (s : Session) : Prop := s.frames + s.queue.queued = s.queue.total

theorem decode_frames {s : Session} {b : Bool} (hw : s.waits b = false) {st : DecodeState}
    (hout : (s.decode b).out = .ok st) :
    (s.decode b).next.frames = s.frames + s.queue.takes s.request ∧
      (s.decode b).next.queue.queued = s.queue.queued - s.queue.takes s.request := by
  obtain ⟨hchunk, -, -, -⟩ := decode_ok hw hout
  obtain ⟨rs, hrs⟩ := decode_next_eq hw
  rw [hrs]
  refine ⟨?_, ?_⟩
  · show (s.searchChunk (s.queue.read s.request).1).next.frames = _
    rw [searchChunk_frames _ _ hchunk, FrameQueue.numRows_read]
  · show (s.queue.read s.request).2.2.queued = _
    rw [FrameQueue.read_eq, FrameQueue.queued_dropFront]

theorem framesKept_step {s s' : Session} {op : Op} (hs : s.FramesKept) (h : s.step? op = some s') :
    s'.FramesKept := by
  unfold FramesKept at hs ⊢
  rcases step?_eq_some h with ⟨t, q, -, hq, rfl⟩ | ⟨-, rfl⟩ | ⟨b, st, -, hout, rfl⟩ | ⟨-, -, rfl⟩ |
      ⟨-, hreset⟩
  · obtain ⟨k, hqueued, htotal, -⟩ := FrameQueue.accept_ok hq
    show s.frames + q.queued = q.total
    omega
  · exact hs
  · cases hw : s.waits b
    · obtain ⟨hframes, hqueued⟩ := decode_frames hw hout
      have hle := s.queue.takes_le_queued s.request
      have htotal : (s.decode b).next.queue.total = s.queue.total := by
        rw [decode_queue_eq hw, FrameQueue.read_eq, FrameQueue.total_dropFront]
      rw [hframes, hqueued, htotal]
      omega
    · rw [decode_of_waits s b hw]
      exact hs
  · obtain ⟨rs, hrs⟩ := rescoring_next s
    rw [hrs]
    exact hs
  · obtain ⟨st, -, rfl⟩ := reset_eq_ok hreset
    rfl

/-! The input once drained stays drained: later steps end it again and call nothing. -/

/-- The input has ended and every frame was read, and the n-best list can be rebuilt. -/
structure Drained (s : Session) : Prop where
  finished : s.queue.finished = true
  empty : s.queue.pending = []
  candidates : s.candidates.isOk

theorem drained_of_endFeats {s : Session} {b : Bool} (h : (s.decode b).out = .ok .endFeats) :
    (s.decode b).next.Drained := by
  have hfin := decode_endFeats_finished s b h
  cases hw : s.waits b
  · obtain ⟨-, hcands, -, hend⟩ := decode_ok hw h
    obtain ⟨-, hshort⟩ := (s.queue.filled_eq_false_iff s.request).1 (hend.1 rfl)
    have htakes : s.queue.takes s.request = s.queue.queued := by
      unfold FrameQueue.takes
      split <;> omega
    refine ⟨(decode_queue_flags s b).1.trans hfin, ?_, hcands⟩
    rw [decode_queue_eq hw, FrameQueue.read_eq]
    show s.queue.pending.drop (s.queue.takes s.request) = []
    rw [htakes, s.queue.queued_eq]
    exact List.drop_length
  · rw [decode_of_waits s b hw] at h
    cases h

section Drained

variable {s : Session} (hs : s.Drained) (hr : s.stream.Reads)
include hs hr

theorem decode_of_drained (b : Bool) :
    ∃ cs, s.decode b = ⟨{ s with results := cs }, [], .ok .endFeats⟩ := by
  have hw : s.waits b = false := by simp [waits, hs.finished]
  have hnz : s.request ≠ 0 := hr s.started
  have hread : s.queue.read s.request = (Tensor.ofRows (s.queue.dim.getD 0) [], false, s.queue) := by
    have hfilled : s.queue.filled s.request = false := by
      unfold FrameQueue.filled
      split
      · simp [hs.finished]
      · simp [hs.finished, s.queue.queued_eq, hs.empty]
        omega
    have hq : s.queue.dropFront (s.queue.takes s.request) = s.queue :=
      FrameQueue.ext_parts rfl (by rw [FrameQueue.pending_dropFront, hs.empty, List.drop_nil]) rfl rfl
    rw [FrameQueue.read_eq, hfilled, hq, hs.empty, List.take_nil]
  obtain ⟨cs, hcs⟩ : ∃ cs, s.candidates = .ok cs := by
    have := hs.candidates
    revert this
    cases s.candidates <;> simp [Except.isOk, Except.toBool]
  refine ⟨cs, ?_⟩
  rw [decode_of_read s b hw hread, if_neg Bool.false_ne_true, consume_of_empty_ok s _ _ rfl hcs]
  rfl

theorem drained_step {op : Op} {s' : Session} (hop : op ≠ .reset) (h : s.step? op = some s') :
    s'.Drained ∧ s'.stream.Reads := by
  rcases step?_eq_some h with ⟨t, q, -, hq, -⟩ | ⟨-, rfl⟩ | ⟨b, st, -, -, rfl⟩ | ⟨-, -, rfl⟩ |
      ⟨rfl, -⟩
  · rw [FrameQueue.accept_of_finished _ t hs.finished] at hq
    cases hq
  · exact ⟨⟨rfl, hs.empty, hs.candidates⟩, hr⟩
  · obtain ⟨cs, hcs⟩ := decode_of_drained hs hr b
    rw [hcs]
    exact ⟨⟨hs.finished, hs.empty, hs.candidates⟩, hr⟩
  · obtain ⟨rs, hrs⟩ := rescoring_next s
    rw [hrs]
    exact ⟨⟨hs.finished, hs.empty, hs.candidates⟩, hr⟩
  · exact absurd rfl hop

end Drained

theorem decode_searches {s : Session} {b : Bool} (hw : s.waits b = false) :
    (s.decode b).calls = (s.searchChunk (s.queue.read s.request).1).calls ∧
      (s.decode b).next.stream = (s.searchChunk (s.queue.read s.request).1).next.stream := by
  obtain ⟨rs, hrs⟩ := decode_next_eq hw
  exact ⟨decode_calls_eq hw, by rw [hrs]⟩

end Session

/-- A decode step waits exactly when it was not told to take what is queued, the input is open,
and the chunk is unbounded or not yet queued, and then changes nothing. Otherwise it takes the
chunk's frames off the queue (all of them for an unbounded chunk), forwards them through the
stream once if there are any, and ends the input exactly when the input is finished and the
chunk could not be filled. After a step that ends the input the queue is empty, and as long as
no chunk asks for zero frames every later step up to a reset ends the input again without a
call. Every frame accepted since a reset has been decoded or is still queued, after every
operation. -/
theorem decode_step_relation :
    (∀ (s : Session) (b : Bool), (s.decode b).out = .ok .waitFeats ↔
      b = false ∧ s.queue.finished = false ∧ (s.request < 0 ∨ s.queue.queued < s.request)) ∧
    (∀ (s : Session) (b : Bool), s.waits b = true → s.decode b = ⟨s, [], .ok .waitFeats⟩) ∧
    (∀ (s : Session) (b : Bool), s.waits b = false →
      (s.decode b).next.queue = s.queue.dropFront (s.queue.takes s.request) ∧
      (0 < s.queue.takes s.request →
        (s.decode b).calls = (s.stream.forward (Tensor.ofRows (s.queue.dim.getD 0)
          (s.queue.pending.take (s.queue.takes s.request)))).calls ∧
        (s.decode b).next.stream = (s.stream.forward (Tensor.ofRows (s.queue.dim.getD 0)
          (s.queue.pending.take (s.queue.takes s.request)))).next) ∧
      (s.queue.takes s.request = 0 → (s.decode b).calls = [] ∧ (s.decode b).next.stream = s.stream) ∧
      (∀ st, (s.decode b).out = .ok st →
        (st = .endFeats ↔ s.queue.finished = true ∧ (s.request < 0 ∨ s.queue.queued < s.request)))) ∧
    (∀ (s : Session) (b : Bool), s.stream.Reads → (s.decode b).out = .ok .endFeats →
      ∀ (ops : List Session.Op) (s' : Session), Session.Op.reset ∉ ops →
        (s.decode b).next.run ops = some s' →
        s'.queue.pending = [] ∧ ∀ b', (s'.decode b').calls = [] ∧ (s'.decode b').out = .ok .endFeats) ∧
    (∀ (s₀ s : Session) (ops : List Session.Op), s₀.frames + s₀.queue.queued = s₀.queue.total →
      s₀.run ops = some s → s.frames + s.queue.queued = s.queue.total) := by
  refine ⟨fun s b => ?_, fun s b hw => Session.decode_of_waits s b hw, fun s b hw => ?_,
    fun s b hr hend ops s' hops hrun => ?_, fun s₀ s ops h₀ hrun => ?_⟩
  · rw [← Session.waits_iff]
    constructor
    · intro h
      cases hw : s.waits b
      · exact absurd rfl (Session.decode_ok hw h).2.2.1
      · rfl
    · intro hw
      rw [Session.decode_of_waits s b hw]
  · have hrows := s.queue.numRows_read s.request
    obtain ⟨hcalls, hstream⟩ := Session.decode_searches hw
    refine ⟨by rw [Session.decode_queue_eq hw, FrameQueue.read_eq], fun hpos => ?_, fun hzero => ?_,
      fun st hout => ?_⟩
    · obtain ⟨hc, hn⟩ := Session.searchChunk_of_rows s (s.queue.read s.request).1 (by omega)
      rw [hcalls, hstream, hc, hn, FrameQueue.read_eq]
      exact ⟨rfl, rfl⟩
    · rw [hcalls, hstream, Session.searchChunk_of_empty s (s.queue.read s.request).1 (by omega)]
      exact ⟨rfl, rfl⟩
    · rw [(Session.decode_ok hw hout).2.2.2, FrameQueue.filled_eq_false_iff]
  · have hr' : (s.decode b).next.stream.Reads :=
      Stream.reads_of_metadata (Session.decode_metadata s b) hr
    obtain ⟨hd, hr''⟩ := Session.run_invariant (fun t => t.Drained ∧ t.stream.Reads) (· ≠ .reset)
      (fun _ _ _ ht hop hstep => Session.drained_step ht.1 ht.2 hop hstep) ops _ s'
      ⟨Session.drained_of_endFeats hend, hr'⟩ (fun op hop heq => hops (heq ▸ hop)) hrun
    refine ⟨hd.empty, fun b' => ?_⟩
    obtain ⟨cs, hcs⟩ := Session.decode_of_drained hd hr'' b'
    rw [hcs]
    exact ⟨rfl, rfl⟩
  · exact Session.run_invariant Session.FramesKept (fun _ => True)
      (fun _ _ _ ht _ hstep => Session.framesKept_step ht hstep) ops s₀ s h₀ (fun _ _ => trivial) hrun

/-- A session over the synthetic backend with chunks of two frames, at the start of an utterance,
with a fixed n-best list and the frames `xs`, two wide, queued; the input is finished when `fin`. -/
def Session.queuedWith (xs : List Frame) (fin : Bool) : Session :=
  { Recognizer.synthetic.session with
    queue := (FrameQueue.empty (some 2)).extend xs fin,
    searcher := .fixed [[1]] [-1.0] 0, initialSearcher := .fixed [[1]] [-1.0] 0 }

/-- One frame of a two-frame chunk waits; with three frames queued a step takes two and forwards
them; one frame with the input finished is forwarded and ends the input, and every later step
ends it again without a call; and a run that accepts three frames, decodes, ends the input and
decodes again keeps every frame counted. -/
theorem decode_step_relation_on_synthetic_frames :
    (Session.queuedWith [#[1, 2]] false).decode false =
        ⟨Session.queuedWith [#[1, 2]] false, [], .ok .waitFeats⟩ ∧
      ((Session.queuedWith [#[1, 2], #[3, 4], #[5, 6]] false).decode false).next.queue =
        (Session.queuedWith [#[1, 2], #[3, 4], #[5, 6]] false).queue.dropFront 2 ∧
      ((Session.queuedWith [#[1, 2], #[3, 4], #[5, 6]] false).decode false).calls =
        ((Session.queuedWith [#[1, 2], #[3, 4], #[5, 6]] false).stream.forward
          (Tensor.ofRows 2 [#[1, 2], #[3, 4]])).calls ∧
      (((Session.queuedWith [#[1, 2]] true).decode false).out = .ok .endFeats ∧
        ∀ b, (((Session.queuedWith [#[1, 2]] true).decode false).next.decode b).calls = [] ∧
          (((Session.queuedWith [#[1, 2]] true).decode false).next.decode b).out = .ok .endFeats) ∧
      ∃ s, (Session.queuedWith [] false).run [.accept ⟨[3, 2], #[1, 2, 3, 4, 5, 6]⟩, .decode false, .finish,
          .decode false] = some s ∧ s.frames + s.queue.queued = s.queue.total := by
  obtain ⟨hqueue, hforward, -, -⟩ :=
    decode_step_relation.2.2.1 (Session.queuedWith [#[1, 2], #[3, 4], #[5, 6]] false) false rfl
  have hend : ((Session.queuedWith [#[1, 2]] true).decode false).out = .ok .endFeats := rfl
  obtain ⟨s, hrun⟩ := Option.isSome_iff_exists.1 (by decide +kernel : ((Session.queuedWith [] false).run
    [.accept ⟨[3, 2], #[1, 2, 3, 4, 5, 6]⟩, .decode false, .finish, .decode false]).isSome = true)
  refine ⟨decode_step_relation.2.1 _ false rfl, hqueue, (hforward (by decide)).1, ⟨hend, fun b => ?_⟩,
    s, hrun, decode_step_relation.2.2.2.2 (Session.queuedWith [] false) s _ rfl hrun⟩
  exact (decode_step_relation.2.2.2.1 (Session.queuedWith [#[1, 2]] true) false Recognizer.synthetic_reads
    hend [] _ (by simp) rfl).2 b

end SpeechStream
