import SpeechStream.Tensor.Basic
/-!
Frame queues: feature frames between the front end and the decoder.

Frames arrive as matrices of frames by features. The first matrix fixes the feature width
unless it was given in advance; later ones must match it. Reads take frames from the front,
in arrival order. Once the input is declared finished, no more frames are accepted, and a
read that cannot be filled reports that it drained the stream.
-/

set_option autoImplicit false

namespace SpeechStream

/-- One feature frame. -/
abbrev Frame := Array Float32

/-- A queue of feature frames. It counts the waiting frames as it goes, and the count is always
the number of waiting frames. -/
structure FrameQueue where
  /-- Feature width, once known. -/
  dim : Option Nat
  /-- Frames waiting to be read, oldest first. -/
  pending : List Frame
  /-- Frames accepted since the last reset. -/
  total : Nat
  /-- Whether the input was declared finished. -/
  finished : Bool
  /-- Frames waiting to be read, as counted. -/
  queued : Nat
  queued_eq : queued = pending.length

namespace FrameQueue

/-- An empty queue, with the feature width if it is known in advance. -/
def empty (dim : Option Nat) : FrameQueue := ⟨dim, [], 0, false, 0, rfl⟩

instance : Inhabited FrameQueue := ⟨empty none⟩

/-- The queue with frames appended behind the waiting ones, counted as waiting and accepted. -/
def push (q : FrameQueue) (frames : List Frame) : FrameQueue :=
  { q with pending := q.pending ++ frames, total := q.total + frames.length,
           queued := q.queued + frames.length,
           queued_eq := by rw [q.queued_eq, List.length_append] }

/-- Appends a matrix of frames. Faults: the input is finished, the frames are not a matrix,
or their width differs from the known one. An empty matrix only fixes the width. -/
def accept (q : FrameQueue) (t : Tensor) : Except Fault FrameQueue :=
  if q.finished then .error .acceptAfterFinish
  else match t.shape with
    | [rows, width] =>
      match q.dim with
      | some d =>
        if width != d then .error (.dimMismatch d width)
        else .ok (q.push ((List.range rows).map (fun i => (t.row i).data)))
      | none => .ok ({ q with dim := some width }.push ((List.range rows).map (fun i => (t.row i).data)))
    | shape => .error (.notAMatrix shape)

/-- Declares the input finished. -/
def finish (q : FrameQueue) : FrameQueue := { q with finished := true }

/-- Empties the queue and reopens it; the feature width stays known. -/
def reset (q : FrameQueue) : FrameQueue := empty q.dim

/-- Whether a read of `n` frames counts as filled: a negative `n` asks for everything and is
filled only while the input is open; otherwise it is filled when enough frames wait or the
input is still open. -/
def filled (q : FrameQueue) (n : Int) : Bool :=
  if n < 0 then !q.finished else decide (n ≤ q.queued) || !q.finished

/-- How many frames a read of `n` takes. -/
def takes (q : FrameQueue) (n : Int) : Nat :=
  if n < 0 then q.queued else min n.toNat q.queued

/-- The queue without its first `k` waiting frames, counting the frames left. -/
def dropFront (q : FrameQueue) (k : Nat) : FrameQueue :=
  { q with pending := q.pending.drop k, queued := (q.pending.drop k).length, queued_eq := rfl }

/-- Reads up to `n` frames from the front (all when `n` is negative): the frames as a matrix,
whether the read was filled, and the queue after it. -/
def read (q : FrameQueue) (n : Int) : Tensor × Bool × FrameQueue :=
  let k := q.takes n
  let width := q.dim.getD 0
  (Tensor.ofRows width (q.pending.take k), q.filled n, q.dropFront k)

end FrameQueue

end SpeechStream
