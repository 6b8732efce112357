import SpeechStream.Proofs.SessionRuns
/-!
The decoding loop of a recogniser, and when it ends.

A recogniser decodes a block by stepping its session until a step waits for frames, ends the
input or faults; a step that ends the input is followed by the rescoring that concludes the
utterance (`Recognizer.conclude`). `Recognizer.Loop` is that loop with no bound on its steps:
`r.Loop os d` when the loop from `r` observes the outcomes `os`, one per step, and ends as `d`.
The recogniser's own loop is bounded by fuel, and agrees with `Loop` whenever the fuel covers its
steps (`Recognizer.Loop.drain`).

When no chunk asks for zero frames, every chunk step takes a whole request off the queue, so
with `s` the smallest request the loop ends within `q / s + 1` steps of a queue of `q` frames
(`Recognizer.loop_within`), and within one step when whole utterances are decoded. A chunk that
asks for zero frames takes nothing and changes nothing, and the loop from it never ends
(`Recognizer.no_loop_of_zero_request`).
-/

set_option autoImplicit false

namespace SpeechStream

theorem Except.exists_ok_of_isOk {ε α : Type} {x : Except ε α} (h : x.isOk = true) : ∃ a, x = .ok a := by
  cases x with
  | error e => simp [Except.isOk, Except.toBool] at h
  | ok a => exact ⟨a, rfl⟩

theorem Stream.framesForChunk_of_metadata {s t : Stream} (h : t.metadata = s.metadata) (b : Bool) :
    t.framesForChunk b = s.framesForChunk b := by
  simp [framesForChunk, h]

namespace Session

variable {s : Session}

theorem decode_takes_request {st : DecodeState} (hr : s.stream.Reads) (hout : (s.decode false).out = .ok st)
    (hend : st ≠ .endFeats) (hwait : st ≠ .waitFeats) :
    0 < s.request ∧ s.request ≤ s.queue.queued ∧
      (s.decode false).next.queue.queued = s.queue.queued - s.request.toNat := by
  have hw : s.waits false = false := by
    cases h : s.waits false
    · rfl
    · rw [decode_of_waits s false h] at hout
      cases hout
      exact absurd rfl hwait
  have hfilled : s.queue.filled s.request = true := by
    cases h : s.queue.filled s.request
    · exact absurd ((decode_ok hw hout).2.2.2.2 h) hend
    · rfl
  obtain ⟨h0, hq⟩ := request_fits_of_filled s hw hfilled
  have hnz : s.request ≠ 0 := hr s.started
  refine ⟨by omega, hq, ?_⟩
  rw [(decode_frames hw hout).2, s.queue.takes_of_fits _ h0 hq]

theorem decode_of_unbounded {st : DecodeState} (hneg : s.request < 0) (hout : (s.decode false).out = .ok st) :
    st = .waitFeats ∨ st = .endFeats := by
  cases hw : s.waits false
  · obtain ⟨-, -, -, hend⟩ := decode_ok hw hout
    have hfilled : s.queue.filled s.request = false := by
      have hfin : s.queue.finished = true := by
        cases h : s.queue.finished
        · simp [waits, h, hneg] at hw
        · rfl
      simp [FrameQueue.filled, hneg, hfin]
    exact .inr (hend.2 hfilled)
  · rw [decode_of_waits s false hw] at hout
    cases hout
    exact .inl rfl

theorem decode_of_zero_request (h : s.request = 0) (b : Bool) :
    (∀ cs, s.candidates = .ok cs → ∃ st, s.decode b = ⟨{ s with results := cs }, [], .ok st⟩ ∧
      (st = .endBatch ∨ st = .endpoint) ∧ (s.detector = none → st = .endBatch)) ∧
    (∀ f, s.candidates = .error f → s.decode b = ⟨s, [], .error f⟩) := by
  have hw : s.waits b = false := by simp [waits, h]
  have hread : s.queue.read s.request = (Tensor.ofRows (s.queue.dim.getD 0) [], true, s.queue) := by
    rw [FrameQueue.read_eq, h]
    simp [FrameQueue.takes, FrameQueue.filled]
  have hempty : (Tensor.ofRows (s.queue.dim.getD 0) []).numRows = 0 := rfl
  refine ⟨fun cs hcs => ?_, fun f hf => ?_⟩
  · refine ⟨{ s with results := cs }.endAfter .endBatch, ?_, endAfter_endBatch _,
      fun hnone => by simp [endAfter, hnone]⟩
    rw [decode_of_read s b hw hread, if_pos rfl, consume_of_empty_ok s _ _ hempty hcs]
  · rw [decode_of_read s b hw hread, consume_of_empty_error s _ _ hempty hf]

end Session

namespace Recognizer

/-- The recogniser after one decode step of its session. -/
def stepped (r : Recognizer) : Recognizer := { r with session := (r.session.decode false).next }

/-- How the loop ends once a step has ended the input: the partial result is refreshed, the
n-best list is rescored and, when rescoring succeeds, kept as the final result, and the
utterance is finished. -/
def conclude (r : Recognizer) : Step Recognizer Unit :=
  let r := r.refreshPartial
  let rs := r.session.rescoring
  let r := { r with session := rs.next }
  match rs.out with
  | .error f => ⟨r, rs.calls, .error f⟩
  | .ok () =>
    let r := { r with final := r.session.results }
    ⟨{ r.refreshPartial with finished := true }, rs.calls, .ok ()⟩

/-- The decoding loop run to its end, with no bound on its steps: `r.Loop os d` when stepping the
session from `r` observes the outcomes `os`, one per step, and ends as `d` (the recogniser, the
calls of the loop, and how it ended). A chunk step goes on with the partial result refreshed; a
step that ends the input concludes the utterance. -/
inductive Loop : Recognizer → List (Except Fault DecodeState) → Step Recognizer Unit → Prop
  | fault {r : Recognizer} {f : Fault} (h : (r.session.decode false).out = .error f) :
      Loop r [.error f] ⟨r.stepped, (r.session.decode false).calls, .error f⟩
  | wait {r : Recognizer} (h : (r.session.decode false).out = .ok .waitFeats) :
      Loop r [.ok .waitFeats] ⟨r.stepped, (r.session.decode false).calls, .ok ()⟩
  | chunk {r : Recognizer} {st : DecodeState} {os : List (Except Fault DecodeState)}
      {d : Step Recognizer Unit} (h : (r.session.decode false).out = .ok st)
      (hst : st = .endBatch ∨ st = .endpoint) (rest : Loop r.stepped.refreshPartial os d) :
      Loop r (.ok st :: os) ⟨d.next, (r.session.decode false).calls ++ d.calls, d.out⟩
  | finish {r : Recognizer} (h : (r.session.decode false).out = .ok .endFeats) :
      Loop r [.ok .endFeats]
        ⟨r.stepped.conclude.next, (r.session.decode false).calls ++ r.stepped.conclude.calls,
          r.stepped.conclude.out⟩

theorem drain_succ (n : Nat) (r : Recognizer) (calls : List Call) :
    Recognizer.drain (n + 1) r calls =
      match (r.session.decode false).out with
      | .error f => ⟨r.stepped, calls ++ (r.session.decode false).calls, .error f⟩
      | .ok .waitFeats => ⟨r.stepped, calls ++ (r.session.decode false).calls, .ok ()⟩
      | .ok .endBatch | .ok .endpoint =>
        Recognizer.drain n r.stepped.refreshPartial (calls ++ (r.session.decode false).calls)
      | .ok .endFeats =>
        ⟨r.stepped.conclude.next, calls ++ (r.session.decode false).calls ++ r.stepped.conclude.calls,
          r.stepped.conclude.out⟩ := by
  simp only [Recognizer.drain]
  cases (r.session.decode false).out with
  | error f => rfl
  | ok st =>
    cases st with
    | waitFeats | endBatch | endpoint => rfl
    | endFeats =>
      simp only [conclude, stepped]
      split <;> simp_all

namespace Loop

theorem drain {r : Recognizer} {os : List (Except Fault DecodeState)} {d : Step Recognizer Unit}
    (hl : r.Loop os d) {n : Nat} (hn : os.length ≤ n) (calls : List Call) :
    Recognizer.drain n r calls = ⟨d.next, calls ++ d.calls, d.out⟩ := by
  induction hl generalizing n calls with
  | fault h =>
    obtain ⟨n, rfl⟩ : ∃ k, n = k + 1 := ⟨n - 1, by simp at hn; omega⟩
    simp [drain_succ, h]
  | wait h =>
    obtain ⟨n, rfl⟩ : ∃ k, n = k + 1 := ⟨n - 1, by simp at hn; omega⟩
    simp [drain_succ, h]
  | @chunk r st os d h hst rest ih =>
    obtain ⟨n, rfl⟩ : ∃ k, n = k + 1 := ⟨n - 1, by simp at hn; omega⟩
    have hrest := ih (n := n) (by simpa using hn) (calls ++ (r.session.decode false).calls)
    rcases hst with rfl | rfl <;> simp [drain_succ, h, hrest]
  | finish h =>
    obtain ⟨n, rfl⟩ : ∃ k, n = k + 1 := ⟨n - 1, by simp at hn; omega⟩
    simp [drain_succ, h]

theorem unique {r : Recognizer} {os os' : List (Except Fault DecodeState)} {d d' : Step Recognizer Unit}
    (hl : r.Loop os d) (hl' : r.Loop os' d') : os = os' ∧ d = d' := by
  induction hl generalizing os' d' with
  | fault h => cases hl' <;> simp_all
  | wait h => cases hl' <;> simp_all
  | chunk h hst rest ih =>
    cases hl' with
    | chunk h' hst' rest' =>
      rw [h] at h'
      cases h'
      obtain ⟨rfl, rfl⟩ := ih rest'
      exact ⟨rfl, rfl⟩
    | fault h' | wait h' | finish h' => rw [h] at h'; cases h' <;> rcases hst with hst | hst <;> cases hst
  | finish h => cases hl' <;> simp_all

end Loop

/-- A chunk step refreshes only the partial result; the stream, its requests and the queue's flags
are the session's after the step. -/
@[simp] theorem stepped_refreshPartial_session (r : Recognizer) :
    r.stepped.refreshPartial.session = (r.session.decode false).next := rfl

theorem loop_within {s : Nat} (hs : 0 < s) :
    ∀ (q : Nat) (r : Recognizer), r.session.queue.queued = q → r.session.stream.Reads →
      (∀ b, 0 < r.session.stream.framesForChunk b → (s : Int) ≤ r.session.stream.framesForChunk b) →
      ∃ os d, r.Loop os d ∧ os.length ≤ q / s + 1 := by
  intro q
  induction q using Nat.strongRecOn with
  | _ q ih =>
    intro r hq hr hmin
    cases hout : (r.session.decode false).out with
    | error f => exact ⟨_, _, .fault hout, by simp⟩
    | ok st =>
      cases st with
      | waitFeats => exact ⟨_, _, .wait hout, by simp⟩
      | endFeats => exact ⟨_, _, .finish hout, by simp⟩
      | endBatch | endpoint =>
        -- the step took a whole request, at least `s` frames, so the rest of the loop is shorter
        obtain ⟨hpos, hle, hnext⟩ := Session.decode_takes_request hr hout (by simp) (by simp)
        have hbig : (s : Int) ≤ r.session.request := hmin r.session.started hpos
        have hmeta := Session.decode_metadata r.session false
        obtain ⟨os, d, hl, hlen⟩ := ih (q - r.session.request.toNat) (by omega)
          r.stepped.refreshPartial (by simp [hnext, hq])
          (Stream.reads_of_metadata hmeta hr)
          (fun b => by simpa [Stream.framesForChunk_of_metadata hmeta b] using hmin b)
        refine ⟨_, _, .chunk hout (by simp) hl, ?_⟩
        have hdiv : q / s = (q - s) / s + 1 := Nat.div_eq_sub_div hs (by omega)
        have hmono : (q - r.session.request.toNat) / s ≤ (q - s) / s :=
          Nat.div_le_div_right (by omega)
        simp only [List.length_cons]
        omega

theorem loop_of_unbounded (r : Recognizer) (hcs : r.session.stream.metadata.chunkSize ≤ 0) :
    ∃ os d, r.Loop os d ∧ os.length = 1 := by
  have hneg : r.session.request < 0 := by
    simp [Session.request, Stream.framesForChunk, hcs]
  cases hout : (r.session.decode false).out with
  | error f => exact ⟨_, _, .fault hout, rfl⟩
  | ok st =>
    rcases Session.decode_of_unbounded hneg hout with rfl | rfl
    · exact ⟨_, _, .wait hout, rfl⟩
    · exact ⟨_, _, .finish hout, rfl⟩

section ZeroRequest

variable {r : Recognizer}

theorem zero_request_stepped (h : r.session.request = 0) {cs : List Candidate}
    (hcs : r.session.candidates = .ok cs) :
    r.stepped.refreshPartial.session.request = 0 ∧ r.stepped.refreshPartial.session.candidates = .ok cs ∧
      r.stepped.refreshPartial.session.queue = r.session.queue := by
  obtain ⟨st, hst, -, -⟩ := (Session.decode_of_zero_request h false).1 cs hcs
  have hnext : r.stepped.refreshPartial.session = { r.session with results := cs } := by
    rw [stepped_refreshPartial_session, hst]
  rw [hnext]
  exact ⟨h, (Session.candidates_results _ _).trans hcs, rfl⟩

theorem no_loop_of_zero_request {os : List (Except Fault DecodeState)} {d : Step Recognizer Unit}
    (hl : r.Loop os d) (h : r.session.request = 0) : ¬ r.session.candidates.isOk := by
  induction hl with
  | fault hf =>
    intro hok
    obtain ⟨cs, hcs⟩ : ∃ cs, _ := Except.exists_ok_of_isOk hok
    obtain ⟨st, hst, -, -⟩ := (Session.decode_of_zero_request h false).1 cs hcs
    rw [hst] at hf
    cases hf
  | wait hw =>
    intro hok
    obtain ⟨cs, hcs⟩ : ∃ cs, _ := Except.exists_ok_of_isOk hok
    obtain ⟨st, hst, hchunk, -⟩ := (Session.decode_of_zero_request h false).1 cs hcs
    rw [hst] at hw
    cases hw
    rcases hchunk with hc | hc <;> cases hc
  | chunk hc hst rest ih =>
    intro hok
    obtain ⟨cs, hcs⟩ : ∃ cs, _ := Except.exists_ok_of_isOk hok
    obtain ⟨h', hcs', -⟩ := zero_request_stepped h hcs
    exact ih h' (by rw [hcs']; rfl)
  | finish he =>
    intro hok
    obtain ⟨cs, hcs⟩ : ∃ cs, _ := Except.exists_ok_of_isOk hok
    obtain ⟨st, hst, hchunk, -⟩ := (Session.decode_of_zero_request h false).1 cs hcs
    rw [hst] at he
    cases he
    rcases hchunk with hc | hc <;> cases hc

theorem drain_of_zero_request (h : r.session.request = 0) {cs : List Candidate}
    (hcs : r.session.candidates = .ok cs) (n : Nat) (calls : List Call) :
    (Recognizer.drain n r calls).out = .error .stalled ∧ (Recognizer.drain n r calls).calls = calls ∧
      (Recognizer.drain n r calls).next.session.queue = r.session.queue := by
  induction n generalizing r with
  | zero => exact ⟨rfl, rfl, rfl⟩
  | succ n ih =>
    obtain ⟨st, hst, hchunk, -⟩ := (Session.decode_of_zero_request h false).1 cs hcs
    obtain ⟨h', hcs', hq⟩ := zero_request_stepped h hcs
    obtain ⟨hout, hcalls, hnext⟩ := ih h' hcs'
    have hout₀ : (r.session.decode false).out = .ok st := by rw [hst]
    have hcalls₀ : (r.session.decode false).calls = [] := by rw [hst]
    rw [drain_succ, hout₀]
    rcases hchunk with rfl | rfl <;> simp only [hcalls₀, List.append_nil] <;>
      exact ⟨hout, hcalls, hnext.trans hq⟩

theorem no_loop_iff_zero_request (h : r.session.request = 0) :
    (∀ os d, ¬ r.Loop os d) ↔ r.session.candidates.isOk := by
  constructor
  · intro hnone
    cases hcs : r.session.candidates with
    | ok cs => rfl
    | error f =>
      have hdec := (Session.decode_of_zero_request h false).2 f hcs
      exact absurd (Loop.fault (by rw [hdec])) (hnone _ _)
  · intro hok os d hl
    exact no_loop_of_zero_request hl h hok

end ZeroRequest

theorem decode_of_loop {r : Recognizer} {t : Tensor} {last : Bool} {q : FrameQueue}
    (hfin : r.finished = false) (hacc : r.session.queue.accept t = .ok q)
    {os : List (Except Fault DecodeState)} {d : Step Recognizer Unit} (hl : (r.accepted q last).Loop os d)
    (hlen : os.length ≤ q.queued + 2) :
    r.decode t last = ⟨d.next, d.calls, d.out.map (fun _ => d.next.partialText)⟩ := by
  rw [decode_eq_drain last hfin hacc, hl.drain hlen []]
  rfl

theorem decode_eq_loop {r : Recognizer} {t : Tensor} {q : FrameQueue} (last : Bool)
    (hr : r.session.stream.Reads) (hfin : r.finished = false) (hacc : r.session.queue.accept t = .ok q) :
    ∃ os d, (r.accepted q last).Loop os d ∧
      r.decode t last = ⟨d.next, d.calls, d.out.map (fun _ => d.next.partialText)⟩ := by
  obtain ⟨os, d, hl, hlen⟩ := loop_within Nat.one_pos q.queued (r.accepted q last) (by simp) hr
    (fun _ hb => by omega)
  rw [Nat.div_one] at hlen
  exact ⟨os, d, hl, decode_of_loop hfin hacc hl (by omega)⟩

end Recognizer

/-- The decoding loop of a recogniser ends when no chunk asks for zero frames. With every positive
request at least `s`, the loop of a decode call ends within `q / s + 1` steps, `q` being the frames
queued once the block is accepted, and within one step when whole utterances are decoded; the
call returns how that loop ended. At a request for zero frames a step takes no frame and makes no
call, and reports the end of a chunk; the loop then never ends while the n-best list can be
rebuilt, and the fuelled loop runs out of fuel. The metadata reader accepts metadata whose later
chunks ask for zero frames. -/
theorem decoding_loop_terminates :
    (∀ (r : Recognizer) (t : Tensor) (last : Bool) (q : FrameQueue) (s : Nat),
      r.finished = false → r.session.queue.accept t = .ok q → r.session.stream.Reads → 0 < s →
      (∀ b, 0 < r.session.stream.framesForChunk b → (s : Int) ≤ r.session.stream.framesForChunk b) →
      ∃ os d, (r.accepted q last).Loop os d ∧ os.length ≤ q.queued / s + 1 ∧
        (r.session.stream.metadata.chunkSize ≤ 0 → os.length = 1) ∧
        r.decode t last = ⟨d.next, d.calls, d.out.map (fun _ => d.next.partialText)⟩) ∧
    (∀ r : Recognizer, r.session.request = 0 →
      (r.session.decode false).calls = [] ∧ (r.session.decode false).next.queue = r.session.queue ∧
      (r.session.candidates.isOk → r.session.detector = none →
        (r.session.decode false).out = .ok .endBatch) ∧
      ((∀ os d, ¬ r.Loop os d) ↔ r.session.candidates.isOk) ∧
      (r.session.candidates.isOk → ∀ n calls, (Recognizer.drain n r calls).out = .error .stalled ∧
        (Recognizer.drain n r calls).calls = calls ∧
        (Recognizer.drain n r calls).next.session.queue = r.session.queue)) ∧
    (∃ md : Metadata, Metadata.ofDocument md.toDocument = .ok md ∧ 0 < md.chunkSize ∧
      ∀ b : Backend, (Stream.new b md).framesForChunk true = 0) := by
  refine ⟨fun r t last q s hfin hacc hr hs hmin => ?_, fun r h => ?_,
    ⟨⟨8, 2, 2, 3, 0, 6, 9, 9, true, 4, 2⟩, rfl, by decide, fun _ => rfl⟩⟩
  · obtain ⟨os, d, hl, hlen⟩ := Recognizer.loop_within hs q.queued (r.accepted q last) (by simp) hr hmin
    have hone : r.session.stream.metadata.chunkSize ≤ 0 → os.length = 1 := fun hcs => by
      obtain ⟨os', d', hl', hlen'⟩ := Recognizer.loop_of_unbounded (r.accepted q last) hcs
      rw [(hl.unique hl').1, hlen']
    have hfuel : os.length ≤ q.queued + 2 :=
      Nat.le_trans hlen (Nat.add_le_add (Nat.div_le_self _ _) (by decide))
    exact ⟨os, d, hl, hlen, hone, Recognizer.decode_of_loop hfin hacc hl hfuel⟩
  · have hcases := Session.decode_of_zero_request h false (s := r.session)
    have hstep : (r.session.decode false).calls = [] ∧ (r.session.decode false).next.queue = r.session.queue := by
      cases hcs : r.session.candidates with
      | ok cs =>
        obtain ⟨st, hst, -, -⟩ := hcases.1 cs hcs
        rw [hst]
        exact ⟨rfl, rfl⟩
      | error f =>
        rw [hcases.2 f hcs]
        exact ⟨rfl, rfl⟩
    refine ⟨hstep.1, hstep.2, fun hok hnone => ?_, Recognizer.no_loop_iff_zero_request h, fun hok n calls => ?_⟩
    · obtain ⟨cs, hcs⟩ := Except.exists_ok_of_isOk hok
      obtain ⟨st, hst, -, hbatch⟩ := hcases.1 cs hcs
      rw [hst, hbatch hnone]
    · obtain ⟨cs, hcs⟩ := Except.exists_ok_of_isOk hok
      exact Recognizer.drain_of_zero_request h hcs n calls

/-- The synthetic recogniser after a first chunk, with three frames queued, on metadata whose
later chunks ask for no frames. -/
def Recognizer.stalling : Recognizer :=
  { Recognizer.synthetic with
    session := { Recognizer.synthetic.session with
      queue := (FrameQueue.empty (some 2)).push [#[5, 6], #[7, 8], #[9, 10]]
      stream := { Recognizer.synthetic.session.stream with
        metadata := { Metadata.single 2 with subsamplingRate := 0 } }
      searcher := .fixed [[1]] [-1.0] 2
      started := true
      frames := 2 } }

/-- Five frames over chunks of two end the synthetic recogniser's loop within three steps; the
stalling recogniser's steps take none of its three queued frames, its loop never ends, and the
fuelled loop runs out of fuel with the frames still queued. -/
theorem decoding_loop_terminates_on_synthetic_blocks :
    Recognizer.synthetic.session.queue.accept ⟨[5, 2], #[1, 2, 3, 4, 5, 6, 7, 8, 9, 10]⟩ =
      .ok ((FrameQueue.empty (some 2)).push [#[1, 2], #[3, 4], #[5, 6], #[7, 8], #[9, 10]]) ∧
    (∃ os d, (Recognizer.synthetic.accepted
        ((FrameQueue.empty (some 2)).push [#[1, 2], #[3, 4], #[5, 6], #[7, 8], #[9, 10]]) false).Loop os d ∧
      os.length ≤ 5 / 2 + 1 ∧
      Recognizer.synthetic.decode ⟨[5, 2], #[1, 2, 3, 4, 5, 6, 7, 8, 9, 10]⟩ false =
        ⟨d.next, d.calls, d.out.map (fun _ => d.next.partialText)⟩) ∧
    Recognizer.stalling.session.request = 0 ∧
    (Recognizer.stalling.session.decode false).calls = [] ∧
    (Recognizer.stalling.session.decode false).next.queue = Recognizer.stalling.session.queue ∧
    (Recognizer.stalling.session.decode false).out = .ok .endBatch ∧
    (∀ os d, ¬ Recognizer.stalling.Loop os d) ∧
    (Recognizer.drain 5 Recognizer.stalling []).out = .error .stalled ∧
    (Recognizer.drain 5 Recognizer.stalling []).next.session.queue = Recognizer.stalling.session.queue := by
  have hacc : Recognizer.synthetic.session.queue.accept ⟨[5, 2], #[1, 2, 3, 4, 5, 6, 7, 8, 9, 10]⟩ =
      .ok ((FrameQueue.empty (some 2)).push [#[1, 2], #[3, 4], #[5, 6], #[7, 8], #[9, 10]]) := rfl
  obtain ⟨os, d, hl, hlen, -, hdec⟩ := decoding_loop_terminates.1 Recognizer.synthetic
    ⟨[5, 2], #[1, 2, 3, 4, 5, 6, 7, 8, 9, 10]⟩ false _ 2 rfl hacc Recognizer.synthetic_reads
    (by decide) (fun b _ => by cases b <;> decide)
  have hzero : Recognizer.stalling.session.request = 0 := by decide
  have hok : Recognizer.stalling.session.candidates.isOk := by decide
  obtain ⟨hcalls, hqueue, hbatch, hloop, hdrain⟩ := decoding_loop_terminates.2.1 Recognizer.stalling hzero
  exact ⟨hacc, ⟨os, d, hl, hlen, hdec⟩, hzero, hcalls, hqueue, hbatch hok rfl, hloop.2 hok,
    (hdrain hok 5 []).1, (hdrain hok 5 []).2.2⟩

end SpeechStream
