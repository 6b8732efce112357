import SpeechStream.Proofs.ChunkWindows
import SpeechStream.Proofs.SessionRuns
import Mathlib.Data.List.Induction
/-!
Frame queues as lossless first-in first-out buffers.

A queue appends the rows of every batch it accepts behind the rows already waiting, and a read
hands out rows from the front. So along every sequence of calls, the rows handed out by the reads
since the last reset, followed by the rows still waiting, are the rows of the batches accepted
since the last reset, in order, and the queue counts exactly those rows
(`FrameQueue.run_accounted`).

A read joins the rows it takes into a matrix as wide as the queue's feature width, so the rows
come back as they went in only when each of them has that width (`FrameQueue.Uniform`). A batch
holding as many numbers as its shape says (`Tensor.Dense`, true of every real array) gives its
rows that width, and every accepted batch has the queue's width.
-/

set_option autoImplicit false

namespace SpeechStream

/-- A tensor whose data holds exactly as many numbers as its shape calls for. -/
def Tensor.Dense (t : Tensor) : Prop := t.data.size = Tensor.count t.shape

theorem Tensor.wellFormed_of_dense {t : Tensor} {rows width : Nat} (hshape : t.shape = [rows, width])
    (hdense : t.Dense) : t.WellFormed width := by
  have hrows : t.numRows = rows := by simp [numRows, hshape]
  refine ⟨by rw [IsMatrix, hshape, hrows], ?_⟩
  rw [hdense, hshape, hrows]
  simp [count]

namespace FrameQueue

/-- A call on a frame queue. -/
inductive Op where
  | accept (batch : Tensor)
  | finish
  | read (n : Int)
  | reset

/-- Whether a call is a reset. -/
def Op.isReset : Op → Bool
  | .reset => true
  | _ => false

/-- Whether a call ends the input. -/
def Op.isFinish : Op → Bool
  | .finish => true
  | _ => false

/-- What a call answers: a fault, or for a read the frames read and whether it was filled. -/
abbrev Answer := Except Fault (Option (Tensor × Bool))

/-- Runs one call: the queue after it and its answer. A call that faults leaves the queue as it
was. -/
def exec (q : FrameQueue) : Op → FrameQueue × Answer
  | .accept t =>
    match q.accept t with
    | .ok q' => (q', .ok none)
    | .error f => (q, .error f)
  | .finish => (q.finish, .ok none)
  | .read n => ((q.read n).2.2, .ok (some ((q.read n).1, (q.read n).2.1)))
  | .reset => (q.reset, .ok none)

/-- Runs calls in order: the last queue and every call with its answer. -/
def run (q : FrameQueue) : List Op → FrameQueue × List (Op × Answer)
  | [] => (q, [])
  | op :: ops =>
    let r := (q.exec op).1.run ops
    (r.1, (op, (q.exec op).2) :: r.2)

/-- The rows a call put in the queue: those of a batch it accepted. -/
def taken : Op × Answer → List Frame
  | (.accept t, .ok _) => t.frames
  | _ => []

/-- The rows a call handed out: those of the frames a read returned. -/
def handed : Op × Answer → List Frame
  | (_, .ok (some (t, _))) => t.frames
  | _ => []

/-- The calls of a run after its last reset, with their answers. -/
def sinceReset (tr : List (Op × Answer)) : List (Op × Answer) :=
  (tr.reverse.takeWhile (fun e => !e.1.isReset)).reverse

/-- Every waiting row is as wide as the queue's feature width, which is known once a row
waits. -/
def Uniform (q : FrameQueue) : Prop := ∀ x ∈ q.pending, some x.size = q.dim

/-- What the calls `seg` account for in a queue: its rows are uniform, the rows the calls
handed out followed by the waiting rows are the rows they put in, the queue counts the rows
put in, and the input is finished exactly when one of the calls finished it. -/
structure Accounted (q : FrameQueue) (seg : List (Op × Answer)) : Prop where
  uniform : q.Uniform
  rows : seg.flatMap handed ++ q.pending = seg.flatMap taken
  total : q.total = (seg.flatMap taken).length
  finished : q.finished = seg.any (fun e => e.1.isFinish)

theorem run_append (q : FrameQueue) (ops ops' : List Op) :
    q.run (ops ++ ops') = (((q.run ops).1.run ops').1, (q.run ops).2 ++ ((q.run ops).1.run ops').2) := by
  induction ops generalizing q with
  | nil => rfl
  | cons op ops ih => simp [run, ih]

theorem sinceReset_append_single (tr : List (Op × Answer)) (e : Op × Answer) :
    sinceReset (tr ++ [e]) = if e.1.isReset then [] else sinceReset tr ++ [e] := by
  unfold sinceReset
  cases h : e.1.isReset <;> simp [h]

theorem admits_dim {q q₀ : FrameQueue} {d : Nat} (h : q.admits d = .ok q₀) :
    q.dim = none ∨ q.dim = some d := by
  unfold admits at h
  split at h
  · cases h
  · cases hd : q.dim with
    | none => exact .inl rfl
    | some e =>
      simp only [hd] at h
      split at h
      · cases h
      · rename_i hde
        simp at hde
        exact .inr (by rw [hde])

theorem accept_eq_ok {q q' : FrameQueue} {t : Tensor} (h : q.accept t = .ok q') :
    ∃ rows width, t.shape = [rows, width] ∧ (q.dim = none ∨ q.dim = some width) ∧
      q.finished = false ∧ q' = { q with dim := some width }.extend t.frames false := by
  have hshape : ∃ rows width, t.shape = [rows, width] := by
    unfold accept at h
    split at h
    · cases h
    · split at h
      · rename_i rows width hs
        exact ⟨rows, width, hs⟩
      · cases h
  obtain ⟨rows, width, hs⟩ := hshape
  have hm : t.IsMatrix width := by simp [Tensor.IsMatrix, Tensor.numRows, hs]
  rw [accept_matrix q hm] at h
  cases hadm : q.admits width with
  | error f => rw [hadm] at h; cases h
  | ok q₀ =>
    rw [hadm] at h
    cases h
    obtain ⟨rfl, hopen⟩ := admits_ok hadm
    exact ⟨rows, width, hs, admits_dim hadm, hopen, rfl⟩

theorem accept_eq_error_iff (q : FrameQueue) (t : Tensor) (f : Fault) :
    q.accept t = .error f ↔ (q.finished = true ∧ f = .acceptAfterFinish) ∨
      (q.finished = false ∧ (∀ rows width, t.shape ≠ [rows, width]) ∧ f = .notAMatrix t.shape) ∨
      (q.finished = false ∧ ∃ rows width e, t.shape = [rows, width] ∧ q.dim = some e ∧
        width ≠ e ∧ f = .dimMismatch e width) := by
  unfold accept
  cases hf : q.finished
  · rcases hs : t.shape with _ | ⟨a, _ | ⟨b, _ | ⟨c, l⟩⟩⟩
    · simpa using eq_comm
    · simpa using eq_comm
    · cases hd : q.dim with
      | none => simp
      | some e =>
        by_cases hb : b = e
        · simp [hb]
        · simpa [hb] using eq_comm
    · simpa using eq_comm
  · simpa using eq_comm

/-! What one call does to the queue. -/

section Step

variable {q : FrameQueue} {op : Op}

theorem exec_uniform (hq : q.Uniform) (hdense : ∀ t, op = .accept t → t.Dense) :
    (q.exec op).1.Uniform := by
  cases op with
  | accept t =>
    simp only [exec]
    cases h : q.accept t with
    | error f => exact hq
    | ok q' =>
      obtain ⟨rows, width, hshape, hdim, -, rfl⟩ := accept_eq_ok h
      have hwf := Tensor.wellFormed_of_dense hshape (hdense t rfl)
      intro x hx
      show some x.size = some width
      rw [pending_extend, List.mem_append] at hx
      rcases hx with hold | hnew
      · rcases hdim with hnone | hsome
        · simpa [hnone] using hq x hold
        · simpa [hsome] using hq x hold
      · rw [Tensor.frames_size hwf x hnew]
  | finish => exact hq
  | read n => exact fun x hx => hq x (List.mem_of_mem_drop hx)
  | reset => intro x hx; cases hx

theorem frames_read (hq : q.Uniform) (n : Int) :
    (q.read n).1.frames = q.pending.take (q.takes n) := by
  rw [read_eq]
  apply Tensor.frames_ofRows
  intro x hx
  rw [← hq x (List.mem_of_mem_take hx)]
  rfl

theorem exec_conserves (hq : q.Uniform) (hop : op.isReset = false) :
    q.pending ++ taken (op, (q.exec op).2) = handed (op, (q.exec op).2) ++ (q.exec op).1.pending ∧
      (q.exec op).1.total = q.total + (taken (op, (q.exec op).2)).length ∧
      (q.exec op).1.finished = (q.finished || op.isFinish) := by
  cases op with
  | accept t =>
    simp only [exec]
    cases h : q.accept t with
    | error f => simp [taken, handed, Op.isFinish]
    | ok q' =>
      obtain ⟨rows, width, -, -, hopen, rfl⟩ := accept_eq_ok h
      simp [taken, handed, hopen, Op.isFinish]
  | finish => simp [exec, taken, handed, finish, Op.isFinish]
  | read n =>
    simp only [exec, taken, handed, frames_read hq n, List.append_nil, List.length_nil, Nat.add_zero]
    rw [read_eq]
    exact ⟨(List.take_append_drop _ _).symm, rfl, by simp only [Op.isFinish, Bool.or_false]; rfl⟩
  | reset => cases hop

theorem Accounted.exec {seg : List (Op × Answer)} (h : q.Accounted seg)
    (hop : op.isReset = false) (hdense : ∀ t, op = .accept t → t.Dense) :
    (q.exec op).1.Accounted (seg ++ [(op, (q.exec op).2)]) := by
  obtain ⟨hcons, hcount, hfin⟩ := exec_conserves h.uniform hop
  refine ⟨exec_uniform h.uniform hdense, ?_, ?_, ?_⟩
  · simp only [List.flatMap_append, List.flatMap_cons, List.flatMap_nil, List.append_nil]
    rw [List.append_assoc, ← hcons, ← List.append_assoc, h.rows]
  · simp only [List.flatMap_append, List.flatMap_cons, List.flatMap_nil, List.append_nil,
      List.length_append]
    rw [hcount, h.total]
  · rw [hfin, h.finished, List.any_append]
    simp

theorem accounted_empty (d : Option Nat) : (empty d).Accounted [] :=
  ⟨(fun x hx => by cases hx), rfl, rfl, rfl⟩

theorem run_accounted (d : Option Nat) (ops : List Op) (hdense : ∀ t, Op.accept t ∈ ops → t.Dense) :
    ((empty d).run ops).1.Accounted (sinceReset ((empty d).run ops).2) := by
  -- Induction from the end of the run: the last call either resets, which empties the queue
  -- and the segment, or extends the segment by one accounted step.
  induction ops using List.reverseRecOn with
  | nil => exact accounted_empty d
  | append_singleton ops op ih =>
    have h := ih (fun t ht => hdense t (List.mem_append_left _ ht))
    have hop : ∀ t, op = .accept t → t.Dense := fun t ht => hdense t (by simp [ht])
    rw [run_append]
    simp only [run]
    rw [sinceReset_append_single]
    cases hr : op.isReset
    · exact h.exec hr hop
    · cases op <;> simp [Op.isReset] at hr
      exact accounted_empty _

theorem exec_read (hq : q.Uniform) (n : Int) :
    ∃ t, q.exec (.read n) = (q.dropFront (q.takes n), .ok (some (t, q.filled n))) ∧
      t.frames = q.pending.take (if n < 0 then q.queued else min n.toNat q.queued) ∧
      (t.numRows : Int) = (if n < 0 then (q.queued : Int) else min n (q.queued : Int)) ∧
      q.filled n = (decide (0 ≤ n ∧ n ≤ q.queued) || !q.finished) := by
  refine ⟨(q.read n).1, ?_, ?_, ?_, ?_⟩
  · rw [exec, read_eq]
  · rw [frames_read hq n]
    rfl
  · rw [numRows_read]
    unfold takes
    by_cases hn : n < 0
    · simp [hn]
    · simp only [hn, ↓reduceIte]
      omega
  · unfold filled
    by_cases hn : n < 0
    · have h0 : ¬ 0 ≤ n := by omega
      simp [hn, h0]
    · have h0 : 0 ≤ n := by omega
      simp [hn, h0]

end Step

/-- The frame queue is a lossless first-in first-out buffer. Along every sequence of calls from a
new queue, faulting ones included, in which every batch holds the numbers its shape calls for,
write `A` for the rows of the batches accepted since the last reset and `H` for the rows handed
out by the reads since then. The rows handed out followed by the rows still waiting are `A`, in
order; the queue counts `|A| - |H|` waiting frames, and `|A|` frames in all; and the input is
finished exactly when a finish came since the last reset. The next read of `n` frames hands out
the `min n (|A| - |H|)` rows of `A` after `H` (all of them for negative `n`) and is filled
exactly when `0 ≤ n ≤ |A| - |H|` or the input is open. The next batch is refused exactly when
the input is finished, it is not a matrix, or its width is not the queue's, and a refused batch
leaves the queue, its counts, its finished flag and its width as they were. -/
theorem frame_queue_lossless_fifo (d : Option Nat) (ops : List Op)
    (hdense : ∀ t, Op.accept t ∈ ops → t.Dense) :
    let q := ((empty d).run ops).1
    let seg := sinceReset ((empty d).run ops).2
    let waiting := (seg.flatMap taken).length - (seg.flatMap handed).length
    seg.flatMap handed ++ q.pending = seg.flatMap taken ∧
      q.queued = waiting ∧ q.queued = q.pending.length ∧ q.total = (seg.flatMap taken).length ∧
      q.finished = seg.any (fun e => e.1.isFinish) ∧
      (∀ n : Int, ∃ t, (q.exec (.read n)).2 = .ok (some (t, decide (0 ≤ n ∧ n ≤ waiting) || !q.finished)) ∧
        t.frames = ((seg.flatMap taken).drop (seg.flatMap handed).length).take
          (if n < 0 then waiting else min n.toNat waiting) ∧
        (t.numRows : Int) = (if n < 0 then (waiting : Int) else min n (waiting : Int))) ∧
      (∀ t f, (q.exec (.accept t)).2 = .error f ↔ q.exec (.accept t) = (q, .error f)) ∧
      (∀ t f, q.exec (.accept t) = (q, .error f) ↔ (q.finished = true ∧ f = .acceptAfterFinish) ∨
        (q.finished = false ∧ (∀ rows width, t.shape ≠ [rows, width]) ∧ f = .notAMatrix t.shape) ∨
        (q.finished = false ∧ ∃ rows width e, t.shape = [rows, width] ∧ q.dim = some e ∧
          width ≠ e ∧ f = .dimMismatch e width)) := by
  intro q seg waiting
  have h := run_accounted d ops hdense
  have hpending : q.pending = (seg.flatMap taken).drop (seg.flatMap handed).length := by
    rw [← h.rows, List.drop_left]
  have hqueued : q.queued = waiting := by
    rw [q.queued_eq, hpending, List.length_drop]
  have hexec : ∀ t f, q.exec (.accept t) = (q, .error f) ↔ q.accept t = .error f := by
    intro t f
    simp only [exec]
    cases q.accept t <;> simp
  refine ⟨h.rows, hqueued, q.queued_eq, h.total, h.finished, fun n => ?_, fun t f => ?_,
    fun t f => (hexec t f).trans (accept_eq_error_iff q t f)⟩
  · obtain ⟨t, hex, hframes, hrows, hfilled⟩ := exec_read h.uniform n
    refine ⟨t, by rw [hex, hfilled, hqueued], ?_, by rw [hrows, hqueued]⟩
    rw [hframes, hpending, hqueued]
  · rw [hexec]
    simp only [exec]
    cases q.accept t <;> simp

/-- Two rows accepted and one read, a reset, three rows accepted, the input finished, a batch
refused after the end, and a read of everything. -/
def sampleCalls : List Op :=
  [.accept ⟨[2, 1], #[1, 2]⟩, .read 1, .reset, .accept ⟨[3, 1], #[3, 4, 5]⟩, .finish,
    .accept ⟨[1, 1], #[6]⟩, .read (-1)]

theorem frame_queue_lossless_fifo_on_sample_calls :
    (∀ t, Op.accept t ∈ sampleCalls → t.Dense) ∧
      let q := ((empty none).run sampleCalls).1
      let seg := sinceReset ((empty none).run sampleCalls).2
      let waiting := (seg.flatMap taken).length - (seg.flatMap handed).length
      seg.flatMap handed ++ q.pending = seg.flatMap taken ∧
        q.queued = waiting ∧ q.queued = q.pending.length ∧ q.total = (seg.flatMap taken).length ∧
        q.finished = seg.any (fun e => e.1.isFinish) ∧
        (∀ n : Int, ∃ t, (q.exec (.read n)).2 =
            .ok (some (t, decide (0 ≤ n ∧ n ≤ waiting) || !q.finished)) ∧
          t.frames = ((seg.flatMap taken).drop (seg.flatMap handed).length).take
            (if n < 0 then waiting else min n.toNat waiting) ∧
          (t.numRows : Int) = (if n < 0 then (waiting : Int) else min n (waiting : Int))) ∧
        (∀ t f, (q.exec (.accept t)).2 = .error f ↔ q.exec (.accept t) = (q, .error f)) ∧
        (∀ t f, q.exec (.accept t) = (q, .error f) ↔ (q.finished = true ∧ f = .acceptAfterFinish) ∨
          (q.finished = false ∧ (∀ rows width, t.shape ≠ [rows, width]) ∧ f = .notAMatrix t.shape) ∨
          (q.finished = false ∧ ∃ rows width e, t.shape = [rows, width] ∧ q.dim = some e ∧
            width ≠ e ∧ f = .dimMismatch e width)) := by
  have hdense : ∀ t, Op.accept t ∈ sampleCalls → t.Dense := by
    intro t ht
    simp [sampleCalls] at ht
    rcases ht with rfl | rfl | rfl <;> rfl
  exact ⟨hdense, frame_queue_lossless_fifo none sampleCalls hdense⟩

end FrameQueue

end SpeechStream
