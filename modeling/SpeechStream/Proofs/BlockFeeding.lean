import SpeechStream.Proofs.SessionSteps
import SpeechStream.Cli.Run
import SpeechStream.Backend.Synthetic
/-!
Feeding an utterance block by block.

A recogniser drains its session after every block: it steps until a step waits or ends the input.
While the input is open a step waits exactly when the frames for the next chunk have not all
arrived, so every chunk it takes is taken the same way when more frames arrive behind it
(`Session.decode_extend`). Draining, then queueing more frames and draining again is therefore
draining once with all the frames queued (`Recognizer.settle_extend`), and an utterance split into
blocks anywhere issues the backend calls, and ends with the results, of the whole utterance fed at
once (`Recognizer.decodeBlocks_agrees`).

Draining is bounded by fuel; it never runs out when every request of the stream reads frames,
since each chunk step then takes a frame off the queue.
-/

set_option autoImplicit false

namespace SpeechStream

namespace Tensor

/-- The frames of a matrix, row by row, as a queue takes them. -/
def frames (t : Tensor) : List Frame := (List.range t.numRows).map (fun i => (t.row i).data)

/-- A matrix of frames `d` features wide. -/
def IsMatrix (t : Tensor) (d : Nat) : Prop := t.shape = [t.numRows, d]

@[simp] theorem length_frames (t : Tensor) : t.frames.length = t.numRows := by simp [frames]

theorem rowWidth_of_isMatrix {t : Tensor} {d : Nat} (h : t.IsMatrix d) : t.rowWidth = d := by
  rw [rowWidth, h]
  simp [count]

theorem numRows_sliceRows (t : Tensor) (lo hi : Nat) :
    (t.sliceRows lo hi).numRows = min hi t.numRows - lo := by
  simp only [sliceRows, numRows, List.headD_cons]
  omega

theorem isMatrix_sliceRows {t : Tensor} {d : Nat} (h : t.IsMatrix d) (lo hi : Nat) :
    (t.sliceRows lo hi).IsMatrix d := by
  unfold IsMatrix at h ⊢
  simp only [sliceRows, numRows, List.headD_cons]
  rw [h]
  rfl

theorem frames_sliceRows (t : Tensor) (lo hi : Nat) :
    (t.sliceRows lo hi).frames = (t.frames.take hi).drop lo := by
  apply List.ext_getElem
  · simp [numRows_sliceRows]
  · intro i h1 _
    have hin : lo + i < min hi t.numRows := by simp [numRows_sliceRows] at h1; omega
    have hw : (t.sliceRows lo hi).rowWidth = t.rowWidth := rfl
    have hlo : min lo (min hi t.numRows) = lo := by omega
    have hle : (lo + i + 1) * t.rowWidth ≤ min hi t.numRows * t.rowWidth :=
      Nat.mul_le_mul_right _ hin
    simp only [frames, List.getElem_map, List.getElem_range, List.getElem_drop, List.getElem_take]
    simp only [row]
    rw [hw]
    simp only [sliceRows, hlo, Array.extract_extract]
    congr 2
    · rw [Nat.add_mul]
    · rw [Nat.add_mul, Nat.add_mul, Nat.add_mul, Nat.one_mul] at *
      omega

end Tensor

/-- The checks a queue makes before it takes frames `d` wide: the input is open and the width is
the known one, or becomes it. -/
def FrameQueue.admits (q : FrameQueue) (d : Nat) : Except Fault FrameQueue :=
  if q.finished then .error .acceptAfterFinish
  else match q.dim with
    | some e => if d != e then .error (.dimMismatch e d) else .ok q
    | none => .ok { q with dim := some d }

theorem FrameQueue.accept_matrix (q : FrameQueue) {t : Tensor} {d : Nat} (ht : t.IsMatrix d) :
    q.accept t = (q.admits d).map (fun q₀ => q₀.extend t.frames false) := by
  unfold accept admits
  rw [ht]
  cases hf : q.finished
  · cases hd : q.dim with
    | none => simp [Tensor.frames, Except.map, extend_of_open]
    | some e =>
      simp only [Bool.false_eq_true, ↓reduceIte]
      split <;> simp [Tensor.frames, Except.map, extend_of_open _ _ hf]
  · simp [Except.map]

theorem FrameQueue.admits_of_open (q : FrameQueue) (d : Nat) (hopen : q.finished = false)
    (hd : q.dim = some d) : q.admits d = .ok q := by
  simp [admits, hopen, hd]

theorem FrameQueue.admits_ok {q q₀ : FrameQueue} {d : Nat} (h : q.admits d = .ok q₀) :
    q₀ = { q with dim := some d } ∧ q.finished = false := by
  unfold admits at h
  cases hf : q.finished
  · cases hd : q.dim with
    | none => simp [hf, hd] at h; exact ⟨h.symm, rfl⟩
    | some e =>
      simp only [hf, hd, Bool.false_eq_true, ↓reduceIte] at h
      split at h
      · cases h
      · cases h
        rename_i hde
        simp at hde
        cases q
        simp_all
  · simp [hf] at h

theorem FrameQueue.accept_of_admits_error {q : FrameQueue} {t : Tensor} {d : Nat} {f : Fault}
    (ht : t.IsMatrix d) (h : q.admits d = .error f) : q.accept t = .error f := by
  rw [accept_matrix q ht, h]
  rfl

theorem FrameQueue.accept_of_admits_ok {q q₀ : FrameQueue} {t : Tensor} {d : Nat}
    (ht : t.IsMatrix d) (h : q.admits d = .ok q₀) : q.accept t = .ok (q₀.extend t.frames false) := by
  rw [accept_matrix q ht, h]
  rfl

/-- A drain as decoding reports it: its partial result once it ends without a fault. -/
def Step.reported (d : Step Recognizer Unit) : Step Recognizer String :=
  ⟨d.next, d.calls, d.out.map fun _ => d.next.partialText⟩

@[simp] theorem Step.next_reported (d : Step Recognizer Unit) : d.reported.next = d.next := rfl

@[simp] theorem Step.calls_reported (d : Step Recognizer Unit) : d.reported.calls = d.calls := rfl

@[simp] theorem Step.isOk_reported (d : Step Recognizer Unit) :
    d.reported.out.isOk = d.out.isOk := by
  cases h : d.out <;> simp [reported, h, Except.map, Except.isOk, Except.toBool]

theorem Step.reported_of_error {d : Step Recognizer Unit} {f : Fault} (h : d.out = .error f) :
    d.reported.out = .error f := by
  simp [reported, h, Except.map]

namespace Recognizer

theorem drain_calls (n : Nat) (r : Recognizer) (calls : List Call) :
    drain n r calls = ⟨(drain n r []).next, calls ++ (drain n r []).calls, (drain n r []).out⟩ := by
  induction n generalizing r calls with
  | zero => simp [drain]
  | succ n ih =>
    simp only [drain]
    cases h : (r.session.decode false).out with
    | error f => simp
    | ok st =>
      cases st with
      | endBatch | endpoint =>
        simp only
        rw [ih _ (calls ++ _), ih _ ([] ++ _)]
        simp
      | waitFeats => simp
      | endFeats => simp only; split <;> simp

theorem drain_fuel (n : Nat) (r : Recognizer) (calls : List Call) (hr : r.session.stream.Reads)
    (hn : r.session.queue.queued < n) :
    drain n r calls = drain (r.session.queue.queued + 1) r calls := by
  induction n using Nat.strongRecOn generalizing r calls with
  | _ n ih =>
    obtain ⟨k, rfl⟩ : ∃ k, n = k + 1 := ⟨n - 1, by omega⟩
    simp only [drain]
    cases hout : (r.session.decode false).out with
    | error f => rfl
    | ok st =>
      cases st with
      | waitFeats | endFeats => rfl
      | endBatch | endpoint =>
        simp only
        have hshrink : ({ r with session := (r.session.decode false).next }.refreshPartial).session.queue.queued <
            r.session.queue.queued := Session.decode_shrinks _ hr hout (by simp) (by simp)
        -- stated of the refreshed recogniser the hypothesis is applied to: elaboration then
        -- never has to see through `Stream.Reads` to match the two streams
        have hr' : ({ r with session := (r.session.decode false).next }.refreshPartial).session.stream.Reads :=
          Stream.reads_of_metadata (Session.decode_metadata _ _) hr
        rw [ih k (by omega) _ _ hr' (by omega), ih r.session.queue.queued (by omega) _ _ hr' hshrink]

/-- Draining with one step of fuel more than frames are queued: enough when every request of the
stream reads frames. -/
def settle (r : Recognizer) (calls : List Call) : Step Recognizer Unit :=
  drain (r.session.queue.queued + 1) r calls

/-- The recogniser with frames queued behind the waiting ones and the end of input set to `fin`. -/
def extend (r : Recognizer) (ys : List Frame) (fin : Bool) : Recognizer :=
  { r with session := { r.session with queue := r.session.queue.extend ys fin } }

theorem extend_extend (r : Recognizer) (xs ys : List Frame) (f g : Bool) :
    (r.extend xs f).extend ys g = r.extend (xs ++ ys) g := by
  simp only [extend, FrameQueue.extend_extend]

section Settle

variable {r : Recognizer} {calls : List Call}

theorem settle_of_error {f : Fault} (h : (r.session.decode false).out = .error f) :
    settle r calls = ⟨{ r with session := (r.session.decode false).next },
      calls ++ (r.session.decode false).calls, .error f⟩ := by
  simp [settle, drain, h]

theorem settle_of_wait (h : (r.session.decode false).out = .ok .waitFeats) :
    settle r calls = ⟨r, calls, .ok ()⟩ := by
  have hw : r.session.waits false = true := by
    cases hw : r.session.waits false
    · exact absurd rfl (Session.decode_ok hw h).2.2.1
    · rfl
  simp [settle, drain, Session.decode_of_waits _ _ hw]

theorem settle_of_chunk {st : DecodeState} (hr : r.session.stream.Reads)
    (h : (r.session.decode false).out = .ok st) (hend : st ≠ .endFeats) (hwait : st ≠ .waitFeats) :
    settle r calls = settle { r with session := (r.session.decode false).next }.refreshPartial
      (calls ++ (r.session.decode false).calls) := by
  have hshrink : ({ r with session := (r.session.decode false).next }.refreshPartial).session.queue.queued <
      r.session.queue.queued := Session.decode_shrinks _ hr h hend hwait
  have hr' : ({ r with session := (r.session.decode false).next }.refreshPartial).session.stream.Reads :=
    Stream.reads_of_metadata (Session.decode_metadata _ _) hr
  unfold settle
  rw [← drain_fuel _ _ _ hr' hshrink]
  cases st with
  | waitFeats => exact absurd rfl hwait
  | endFeats => exact absurd rfl hend
  | endBatch | endpoint => simp [drain, h]

theorem settle_extend (r : Recognizer) (calls : List Call) (ys : List Frame) (fin : Bool)
    (hr : r.session.stream.Reads) (hopen : r.session.queue.finished = false) :
    ((settle r calls).out = .ok () →
      settle (r.extend ys fin) calls =
        settle ((settle r calls).next.extend ys fin) (settle r calls).calls) ∧
    (∀ f, (settle r calls).out = .error f →
      settle (r.extend ys fin) calls =
        ⟨(settle r calls).next.extend ys fin, (settle r calls).calls, .error f⟩) := by
  cases hw : r.session.waits false
  · obtain ⟨hnext, hcalls, hmap⟩ := Session.decode_extend r.session false ys fin hw hopen
    have hcalls' : ((r.extend ys fin).session.decode false).calls = (r.session.decode false).calls := hcalls
    obtain ⟨herr, hok⟩ := Session.out_of_asChunk hmap
    cases hout : (r.session.decode false).out with
    | error f =>
      have hout' : ((r.extend ys fin).session.decode false).out = .error f := herr f hout
      rw [settle_of_error hout, settle_of_error hout']
      refine ⟨by simp, fun _ h => ?_⟩
      cases h
      simp only [extend, hnext, hcalls]
    | ok st =>
      have hwait : st ≠ .waitFeats := (Session.decode_ok hw hout).2.2.1
      have hfin : st ≠ .endFeats := by
        rintro rfl
        have := Session.decode_endFeats_finished _ _ hout
        rw [hopen] at this
        cases this
      obtain ⟨st', hout', hsame⟩ := hok st hout
      have hwait' : st' ≠ .waitFeats := by
        rintro rfl
        cases st <;> simp [DecodeState.asChunk] at hsame hwait
      have hfin' : st' ≠ .endFeats := by
        rintro rfl
        cases st <;> simp [DecodeState.asChunk] at hsame hfin
      have hr' : (r.extend ys fin).session.stream.Reads := hr
      have hshrink : ({ r with session := (r.session.decode false).next }.refreshPartial).session.queue.queued <
          r.session.queue.queued := Session.decode_shrinks _ hr hout hfin hwait
      have hnext' : { r.extend ys fin with
            session := ((r.extend ys fin).session.decode false).next }.refreshPartial =
          ({ r with session := (r.session.decode false).next }.refreshPartial).extend ys fin := by
        simp only [extend, hnext]
        rfl
      rw [settle_of_chunk hr hout hfin hwait, settle_of_chunk hr' hout' hfin' hwait', hnext', hcalls']
      exact settle_extend _ _ ys fin (Stream.reads_of_metadata (Session.decode_metadata _ _) hr)
        ((Session.decode_queue_flags _ _).1.trans hopen)
  · have hout : (r.session.decode false).out = .ok .waitFeats := by
      rw [Session.decode_of_waits _ _ hw]
    rw [settle_of_wait hout]
    exact ⟨fun _ => rfl, fun _ h => by cases h⟩
termination_by r.session.queue.queued
decreasing_by exact hshrink

end Settle

theorem drain_metadata (n : Nat) (r : Recognizer) (calls : List Call) :
    (drain n r calls).next.session.stream.metadata = r.session.stream.metadata := by
  induction n generalizing r calls with
  | zero => rfl
  | succ n ih =>
    have hmeta := Session.decode_metadata r.session false
    simp only [drain]
    cases hout : (r.session.decode false).out with
    | error f => exact hmeta
    | ok st =>
      cases st with
      | waitFeats => exact hmeta
      | endBatch | endpoint => exact (ih _ _).trans hmeta
      | endFeats =>
        obtain ⟨rs, hrs⟩ := Session.rescoring_next (r.session.decode false).next
        simp only
        split <;> simp only [refreshPartial] <;> rw [hrs] <;> exact hmeta

theorem drain_keeps (n : Nat) (r : Recognizer) (calls : List Call)
    (hopen : r.session.queue.finished = false) :
    (drain n r calls).next.finished = r.finished ∧
      (drain n r calls).next.session.queue.finished = false ∧
      (drain n r calls).next.session.queue.dim = r.session.queue.dim := by
  induction n generalizing r calls with
  | zero => exact ⟨rfl, hopen, rfl⟩
  | succ n ih =>
    have hflags := Session.decode_queue_flags r.session false
    simp only [drain]
    cases hout : (r.session.decode false).out with
    | error f => exact ⟨rfl, hflags.1.trans hopen, hflags.2⟩
    | ok st =>
      cases st with
      | waitFeats => exact ⟨rfl, hflags.1.trans hopen, hflags.2⟩
      | endBatch | endpoint =>
        obtain ⟨h1, h2, h3⟩ :=
          ih ({ r with session := (r.session.decode false).next }.refreshPartial) _ (hflags.1.trans hopen)
        exact ⟨h1, h2, h3.trans hflags.2⟩
      | endFeats =>
        have := Session.decode_endFeats_finished _ _ hout
        rw [hopen] at this
        cases this

theorem settle_keeps (r : Recognizer) (calls : List Call) (hopen : r.session.queue.finished = false) :
    (settle r calls).next.finished = r.finished ∧
      (settle r calls).next.session.queue.finished = false ∧
      (settle r calls).next.session.queue.dim = r.session.queue.dim :=
  drain_keeps _ r calls hopen

theorem settle_calls (r : Recognizer) (calls : List Call) :
    settle r calls = ⟨(settle r []).next, calls ++ (settle r []).calls, (settle r []).out⟩ :=
  drain_calls _ _ _

/-- The recogniser a decode call steps: the block accepted, and the input ended when it is the
last block. -/
def accepted (r : Recognizer) (q : FrameQueue) (last : Bool) : Recognizer :=
  { r with session := { r.session with queue := if last then q.finish else q } }

@[simp] theorem accepted_queued (r : Recognizer) (q : FrameQueue) (last : Bool) :
    (r.accepted q last).session.queue.queued = q.queued := by
  cases last <;> rfl

theorem decode_eq_drain {r : Recognizer} {t : Tensor} {q : FrameQueue} (last : Bool)
    (hfin : r.finished = false) (hacc : r.session.queue.accept t = .ok q) :
    r.decode t last = (drain (q.queued + 2) (r.accepted q last) []).reported := by
  have hq : (if last then q.finish else q).queued = q.queued := by
    cases last <;> rfl
  unfold decode
  rw [if_neg (by simp [hfin])]
  simp only [hacc]
  rw [← accepted, hq, Step.reported]
  cases (drain (q.queued + 2) (r.accepted q last) []).out <;> rfl

theorem decode_of_accept {r : Recognizer} {t : Tensor} {q : FrameQueue} (last : Bool)
    (hr : r.session.stream.Reads) (hfin : r.finished = false) (hacc : r.session.queue.accept t = .ok q) :
    r.decode t last = (settle (r.accepted q last) []).reported := by
  have hr' : (r.accepted q last).session.stream.Reads := hr
  rw [decode_eq_drain last hfin hacc, drain_fuel _ _ _ hr' (by rw [accepted_queued]; omega)]
  rfl

theorem decode_of_admits {r : Recognizer} {t : Tensor} {d : Nat} {q₀ : FrameQueue} (last : Bool)
    (hr : r.session.stream.Reads) (hfin : r.finished = false) (ht : t.IsMatrix d)
    (h : r.session.queue.admits d = .ok q₀) :
    r.decode t last =
      (settle ({ r with session := { r.session with queue := q₀ } }.extend t.frames last) []).reported := by
  -- the two recognisers agree field by field; comparing the drains instead would run them
  have hR : r.accepted (q₀.extend t.frames false) last =
      { r with session := { r.session with queue := q₀ } }.extend t.frames last := by
    cases last <;> rfl
  rw [decode_of_accept last hr hfin (FrameQueue.accept_of_admits_ok ht h), hR]

theorem decode_congr (r : Recognizer) (last : Bool) {d : Nat} {t x : Tensor} (ht : t.IsMatrix d)
    (hx : x.IsMatrix d) (hframes : x.frames = t.frames) : r.decode x last = r.decode t last := by
  unfold decode
  rw [FrameQueue.accept_matrix _ hx, FrameQueue.accept_matrix _ ht, hframes]

/-- An utterance decoded block by block: every block but the last leaves the input open, and the
first fault ends the run. -/
def decodeBlocks (r : Recognizer) : List Tensor → Step Recognizer String
  | [] => ⟨r, [], .ok r.partialText⟩
  | [t] => r.decode t true
  | t :: u :: rest =>
    let first := r.decode t false
    match first.out with
    | .error f => ⟨first.next, first.calls, .error f⟩
    | .ok _ =>
      let later := first.next.decodeBlocks (u :: rest)
      ⟨later.next, first.calls ++ later.calls, later.out⟩

theorem decode_append (r : Recognizer) {d : Nat} {a b c : Tensor} (ha : a.IsMatrix d)
    (hb : b.IsMatrix d) (hc : c.IsMatrix d) (hframes : c.frames = a.frames ++ b.frames)
    (hr : r.session.stream.Reads) :
    let first := r.decode a false
    let second := first.next.decode b true
    let whole := r.decode c true
    (∀ f, first.out = .error f → whole.calls = first.calls ∧ whole.out = .error f) ∧
    (∀ p, first.out = .ok p → whole = ⟨second.next, first.calls ++ second.calls, second.out⟩) := by
  intro first second whole
  cases hfin : r.finished
  · cases hadm : r.session.queue.admits d with
    | error f =>
      have hfirst : first = ⟨r, [], .error f⟩ := by
        simp [first, decode, hfin, FrameQueue.accept_of_admits_error ha hadm]
      have hwhole : whole = ⟨r, [], .error f⟩ := by
        simp [whole, decode, hfin, FrameQueue.accept_of_admits_error hc hadm]
      rw [hfirst, hwhole]
      exact ⟨fun _ h => by cases h; exact ⟨rfl, rfl⟩, fun _ h => by cases h⟩
    | ok q₀ =>
      obtain ⟨hq₀, hopen⟩ := FrameQueue.admits_ok hadm
      let R₁ : Recognizer := { r with session := { r.session with queue := q₀ } }.extend a.frames false
      have hfirst : first = (settle R₁ []).reported := decode_of_admits false hr hfin ha hadm
      have hwhole : whole = (settle (R₁.extend b.frames true) []).reported := by
        rw [Recognizer.extend_extend, ← hframes]
        exact decode_of_admits true hr hfin hc hadm
      obtain ⟨hok, herr⟩ := settle_extend R₁ [] b.frames true hr rfl
      cases hD : (settle R₁ []).out with
      | error f =>
        rw [hwhole, herr f hD, hfirst]
        refine ⟨fun _ h => ?_, fun _ h => ?_⟩ <;> rw [Step.reported_of_error hD] at h <;> cases h
        exact ⟨rfl, Step.reported_of_error rfl⟩
      | ok u =>
        obtain ⟨hfin', hopen', hdim'⟩ := settle_keeps R₁ [] rfl
        have hr' : (settle R₁ []).next.session.stream.Reads :=
          Stream.reads_of_metadata (drain_metadata _ R₁ []) hr
        have hdim : (settle R₁ []).next.session.queue.dim = some d := by
          rw [hdim']
          show q₀.dim = some d
          rw [hq₀]
        have hsecond : second = (settle ((settle R₁ []).next.extend b.frames true) []).reported := by
          have hnext : first.next = (settle R₁ []).next := by rw [hfirst]; rfl
          simp only [second, hnext]
          exact decode_of_admits true hr' (hfin'.trans hfin) hb
            (FrameQueue.admits_of_open _ _ hopen' hdim)
        refine ⟨fun _ h => ?_, fun _ _ => ?_⟩
        · rw [hfirst] at h
          simp [Step.reported, hD, Except.map] at h
        · rw [hwhole, hok hD, settle_calls _ (settle R₁ []).calls, hsecond, hfirst]
          rfl
  · have hfirst : first = ⟨r, [], .error .utteranceFinished⟩ := by simp [first, decode, hfin]
    have hwhole : whole = ⟨r, [], .error .utteranceFinished⟩ := by simp [whole, decode, hfin]
    rw [hfirst, hwhole]
    exact ⟨fun _ h => by cases h; exact ⟨rfl, rfl⟩, fun _ h => by cases h⟩

theorem decode_metadata (r : Recognizer) (t : Tensor) (last : Bool) :
    (r.decode t last).next.session.stream.metadata = r.session.stream.metadata := by
  unfold decode
  split
  · rfl
  · split
    · rfl
    · simp only
      split <;> exact drain_metadata _ _ _

theorem decodeBlocks_agrees (r : Recognizer) {d : Nat} (blocks : List Tensor) {x : Tensor}
    (hne : blocks ≠ []) (hblocks : ∀ t ∈ blocks, t.IsMatrix d) (hx : x.IsMatrix d)
    (hframes : x.frames = (blocks.map Tensor.frames).flatten) (hr : r.session.stream.Reads) :
    (r.decodeBlocks blocks).calls = (r.decode x true).calls ∧
      (r.decodeBlocks blocks).out = (r.decode x true).out ∧
      ((r.decode x true).out.isOk → (r.decodeBlocks blocks).next = (r.decode x true).next) := by
  induction blocks generalizing r x with
  | nil => exact absurd rfl hne
  | cons t rest ih =>
    cases rest with
    | nil =>
      have hx' : x.frames = t.frames := by simpa using hframes
      simp [decodeBlocks, decode_congr r true (hblocks t (by simp)) hx hx']
    | cons u rest =>
      let y := x.sliceRows t.numRows x.numRows
      have ht : t.IsMatrix d := hblocks t (by simp)
      have hrest : ∀ v ∈ u :: rest, v.IsMatrix d := fun v hv => hblocks v (List.mem_cons_of_mem t hv)
      have hsplit : x.frames = t.frames ++ ((u :: rest).map Tensor.frames).flatten := by
        rw [hframes, List.map_cons, List.flatten_cons]
      have hy : y.frames = ((u :: rest).map Tensor.frames).flatten := by
        have hlen : x.frames.length = x.numRows := Tensor.length_frames x
        rw [Tensor.frames_sliceRows, List.take_of_length_le (Nat.le_of_eq hlen), hsplit,
          List.drop_left' (Tensor.length_frames t)]
      obtain ⟨herr, hok⟩ := decode_append r ht (Tensor.isMatrix_sliceRows hx _ _) hx
        (hsplit.trans (by rw [hy])) hr
      cases hfirst : (r.decode t false).out with
      | error f =>
        obtain ⟨hcalls, hout⟩ := herr f hfirst
        simp only [decodeBlocks, hfirst, hcalls, hout]
        exact ⟨trivial, trivial, fun h => by simp [Except.isOk, Except.toBool] at h⟩
      | ok p =>
        have hwhole := hok p hfirst
        have hr' : (r.decode t false).next.session.stream.Reads :=
          Stream.reads_of_metadata (decode_metadata _ _ _) hr
        obtain ⟨hc, ho, hn⟩ := ih (r.decode t false).next (by simp) hrest
          (Tensor.isMatrix_sliceRows hx _ _) hy hr'
        simp only [decodeBlocks, hfirst, hwhole, hc, ho]
        exact ⟨trivial, trivial, hn⟩

end Recognizer

/-! A feature file decoded in blocks of a fixed size: the blocks start at every multiple of the
size below the frame count, and the one reaching the end is the last. -/

theorem flatten_slices {α : Type} (xs : List α) (b m : Nat) :
    ((List.range m).map (fun k => (xs.take (k * b + b)).drop (k * b))).flatten = xs.take (m * b) := by
  induction m with
  | zero => simp
  | succ m ih =>
    rw [List.range_succ, List.map_append, List.flatten_append, ih, List.map_singleton,
      List.flatten_singleton, List.drop_take, Nat.add_sub_cancel_left, ← List.take_add, Nat.succ_mul]

theorem ceil_blocks {n b : Nat} (hb : 0 < b) (hn : 0 < n) :
    0 < (n + b - 1) / b ∧ n ≤ (n + b - 1) / b * b ∧ ((n + b - 1) / b - 1) * b < n := by
  have hdiv := Nat.div_add_mod (n + b - 1) b
  have hmod := Nat.mod_lt (n + b - 1) hb
  rw [Nat.mul_comm] at hdiv
  rw [Nat.sub_one_mul]
  refine ⟨?_, by omega, by omega⟩
  rcases Nat.eq_zero_or_pos ((n + b - 1) / b) with h | h
  · rw [h, Nat.zero_mul] at hdiv; omega
  · exact h

theorem dropLast_starts (m b : Nat) :
    ((List.range m).map (· * b)).dropLast = (List.range (m - 1)).map (· * b) := by
  rw [List.dropLast_eq_take, List.length_map, List.length_range, ← List.map_take, List.take_range,
    Nat.min_eq_left (Nat.sub_le m 1)]

theorem getLast?_starts {m : Nat} (b : Nat) (h : 0 < m) :
    ((List.range m).map (· * b)).getLast? = some ((m - 1) * b) := by
  rw [List.getLast?_map, List.getLast?_range, if_neg (Nat.pos_iff_ne_zero.1 h)]
  rfl

theorem Tensor.isMatrix_of_rank {t : Tensor} (h : t.rank = 2) : ∃ d, t.IsMatrix d := by
  unfold Tensor.rank at h
  match hs : t.shape, h with
  | [n, d], _ => exact ⟨d, by simp [Tensor.IsMatrix, Tensor.numRows, hs]⟩

namespace Recognizer

theorem reset_metadata {r r' : Recognizer} (h : r.reset = .ok r') :
    r'.session.stream.metadata = r.session.stream.metadata := by
  obtain ⟨t, ht, rfl⟩ := reset_eq_ok h
  obtain ⟨st, -, rfl⟩ := Session.reset_eq_ok ht
  rfl

theorem foldlM_decodeBlocks {α : Type} (g : Recognizer × String → α → Except Fault (Recognizer × String))
    (block : α → Tensor) (last : α → Bool)
    (hg : ∀ acc x, (g acc x).map Prod.fst =
      (acc.1.decode (block x) (last x)).out.map (fun _ => (acc.1.decode (block x) (last x)).next))
    (blocks : List α) (r : Recognizer) (e : String)
    (hmid : ∀ x ∈ blocks.dropLast, last x = false) (hend : ∀ x ∈ blocks.getLast?, last x = true) :
    (blocks.foldlM g (r, e)).map Prod.fst =
      (r.decodeBlocks (blocks.map block)).out.map (fun _ => (r.decodeBlocks (blocks.map block)).next) := by
  induction blocks generalizing r e with
  | nil => rfl
  | cons x rest ih =>
    have hx := hg (r, e) x
    cases rest with
    | nil =>
      rw [hend x (by simp)] at hx
      simp only [List.foldlM_cons, List.foldlM_nil, List.map_cons, List.map_nil, decodeBlocks]
      cases hgx : g (r, e) x <;> (rw [hgx] at hx; simpa [Except.map] using hx)
    | cons y rest =>
      rw [hmid x (by simp)] at hx
      have hmid' : ∀ z ∈ (y :: rest).dropLast, last z = false :=
        fun z hz => hmid z (by rw [List.dropLast_cons_of_ne_nil (by simp)]; exact List.mem_cons_of_mem x hz)
      have hend' : ∀ z ∈ (y :: rest).getLast?, last z = true :=
        fun z hz => hend z (by rw [List.getLast?_cons_cons]; exact hz)
      rw [List.foldlM_cons]
      simp only [List.map_cons, decodeBlocks]
      cases hfirst : (r.decode (block x) false).out with
      | error f =>
        rw [hfirst] at hx
        cases hgx : g (r, e) x <;> (rw [hgx] at hx; simp [Except.map] at hx)
        simpa [bind, Except.bind, Except.map] using hx
      | ok p =>
        rw [hfirst] at hx
        cases hgx : g (r, e) x with
        | error f => rw [hgx] at hx; simp [Except.map] at hx
        | ok acc =>
          obtain ⟨r₁, e₁⟩ := acc
          rw [hgx] at hx
          have hr₁ : r₁ = (r.decode (block x) false).next := by simpa [Except.map] using hx
          have := ih r₁ e₁ hmid' hend'
          simp only [List.map_cons] at this
          simp only [bind, Except.bind]
          rw [this, hr₁]

end Recognizer

namespace Cli

theorem decodeBlockAt_fst (feats : Tensor) (b : Nat) (quiet : Bool) (acc : Recognizer × String)
    (start : Nat) :
    (decodeBlockAt feats b quiet acc start).map Prod.fst =
      (acc.1.decode (feats.sliceRows start (start + b)) (decide (start + b ≥ feats.numRows))).out.map
        (fun _ => (acc.1.decode (feats.sliceRows start (start + b))
          (decide (start + b ≥ feats.numRows))).next) := by
  unfold decodeBlockAt decodeBlock
  dsimp only
  cases (acc.1.decode (feats.sliceRows start (start + b)) (decide (start + b ≥ feats.numRows))).out <;> rfl

theorem decodeFile_fold (feats : Tensor) {d : Nat} (hx : feats.IsMatrix d) (b : Nat) (quiet : Bool)
    (r : Recognizer) (hb : 0 < b) (hn : 0 < feats.numRows) (hr : r.session.stream.Reads) :
    (((List.range ((feats.numRows + b - 1) / b)).map (· * b)).foldlM (decodeBlockAt feats b quiet)
        (r, "")).map Prod.fst = (r.decode feats true).out.map (fun _ => (r.decode feats true).next) := by
  obtain ⟨hm, hcover, hlast⟩ := ceil_blocks hb hn
  have hmid : ∀ x ∈ ((List.range ((feats.numRows + b - 1) / b)).map (· * b)).dropLast,
      decide (x + b ≥ feats.numRows) = false := by
    rw [dropLast_starts]
    intro x hx
    obtain ⟨k, hk, rfl⟩ := List.mem_map.1 hx
    have hk' : (k + 1) * b ≤ ((feats.numRows + b - 1) / b - 1) * b :=
      Nat.mul_le_mul_right b (by simp at hk; omega)
    rw [Nat.succ_mul] at hk'
    simp only [decide_eq_false_iff_not]
    omega
  have hend : ∀ x ∈ ((List.range ((feats.numRows + b - 1) / b)).map (· * b)).getLast?,
      decide (x + b ≥ feats.numRows) = true := by
    rw [getLast?_starts b hm]
    intro x hx
    cases hx
    rw [Nat.sub_one_mul]
    simp only [decide_eq_true_iff]
    have : b ≤ (feats.numRows + b - 1) / b * b := Nat.le_mul_of_pos_left b hm
    omega
  have hframes : feats.frames = ((((List.range ((feats.numRows + b - 1) / b)).map (· * b)).map
      (fun start => feats.sliceRows start (start + b))).map Tensor.frames).flatten := by
    simp only [List.map_map, Function.comp_def, Tensor.frames_sliceRows]
    rw [flatten_slices, List.take_of_length_le (by rw [Tensor.length_frames]; exact hcover)]
  obtain ⟨-, hout, hnext⟩ := Recognizer.decodeBlocks_agrees r _ (by simp; omega)
    (fun t ht => by
      obtain ⟨start, -, rfl⟩ := List.mem_map.1 ht
      exact Tensor.isMatrix_sliceRows hx _ _) hx hframes hr
  rw [Recognizer.foldlM_decodeBlocks (decodeBlockAt feats b quiet) _ _ (decodeBlockAt_fst feats b quiet) _ r ""
    hmid hend, hout]
  cases hw : (r.decode feats true).out with
  | error f => rfl
  | ok p =>
    rw [hnext (by simp [hw, Except.isOk, Except.toBool])]

theorem decodeFile_blocks (fs : FileSystem) (r : Recognizer) (path : String) (b : Int) (quiet : Bool)
    (hr : r.session.stream.Reads) :
    (decodeFile fs r path b quiet).map (fun o => (o.1, o.2.2)) =
      (decodeFile fs r path 0 quiet).map (fun o => (o.1, o.2.2)) := by
  unfold decodeFile
  cases hf : fs.readFeatures path with
  | error f => rfl
  | ok feats =>
    simp only [bind, Except.bind]
    by_cases hrank : feats.rank = 2
    · have hne : (feats.rank != 2) = false := by simp [hrank]
      simp only [hne, Bool.false_eq_true, ↓reduceIte]
      cases hreset : r.reset with
      | error f => rfl
      | ok r₀ =>
        simp only
        rw [if_pos (Int.le_refl 0)]
        by_cases hb : b ≤ 0
        · rw [if_pos hb]
        · rw [if_neg hb]
          have hb' : 0 < b.toNat := by omega
          obtain ⟨d, hx⟩ := Tensor.isMatrix_of_rank hrank
          have hr₀ : r₀.session.stream.Reads := Stream.reads_of_metadata (Recognizer.reset_metadata hreset) hr
          by_cases hn : feats.numRows = 0
          · -- no block starts: the empty matrix is decoded whole afterwards
            have hm : (feats.numRows + b.toNat - 1) / b.toNat = 0 := by
              rw [hn]
              exact Nat.div_eq_of_lt (by omega)
            have hz : (feats.numRows == 0) = true := by simp [hn]
            rw [hm]
            simp only [hz, List.range_zero, List.map_nil, List.foldlM_nil, pure, Except.pure, ↓reduceIte]
            cases decodeBlock r₀ feats true <;> rfl
          · have hfold := decodeFile_fold feats hx b.toNat quiet r₀ hb' (by omega) hr₀
            revert hfold
            generalize List.foldlM (decodeBlockAt feats b.toNat quiet) (r₀, "")
              (List.map (fun x => x * b.toNat) (List.range ((feats.numRows + b.toNat - 1) / b.toNat))) = F
            intro hfold
            have hn' : (feats.numRows == 0) = false := by simp [hn]
            simp only [hn', Bool.false_eq_true, ↓reduceIte, decodeBlock]
            cases hD : (r₀.decode feats true).out with
            | error f =>
              rw [hD] at hfold
              cases F with
              | error f' => simp [Except.map] at hfold; simp [hfold, Except.map]
              | ok v => simp [Except.map] at hfold
            | ok p =>
              rw [hD] at hfold
              cases F with
              | error f' => simp [Except.map] at hfold
              | ok v =>
                simp [Except.map] at hfold
                simp [hfold, Except.map, pure, Except.pure]
    · have hne : (feats.rank != 2) = true := by simp [hrank]
      simp only [hne, ↓reduceIte]
      rfl

end Cli

/-- Metadata of one block, one head and width two, one input frame per output frame with no
look-ahead, chunks of `chunk` frames and one left chunk. -/
def Metadata.single (chunk : Int) : Metadata := ⟨2, 1, 1, 1, 1, 0, 1, 1, false, chunk, 1⟩

/-- The synthetic backend of ten labels over `Metadata.single chunk`. -/
def Backend.synthetic (chunk : Int) : Backend :=
  (Synthetic.mk (Metadata.single chunk) 10 Role.all true).toBackend

/-- A recogniser at the start of an utterance over the synthetic backend with chunks of two
frames, as a new recogniser over that backend starts. -/
def Recognizer.synthetic : Recognizer :=
  ⟨{ queue := FrameQueue.empty none,
     stream := ⟨Backend.synthetic 2, Metadata.single 2,
       some ⟨2, Tensor.zeros [1, 1, 2, 4], Tensor.zeros [1, 1, 2, 0], [], none⟩, 0⟩,
     searcher := .greedy (GreedySearch.init 0), initialSearcher := .greedy (GreedySearch.init 0),
     options := {}, vocabulary := none, started := false, results := [], frames := 0,
     detector := none },
    "", [], false⟩

theorem Recognizer.synthetic_reads : Recognizer.synthetic.session.stream.Reads := by
  intro started
  cases started <;> decide

/-- Splitting an utterance into blocks changes nothing a run observes: fed block by block, the
last block ending the input, it issues the calls and ends as when fed whole, and a feature file
decodes to the same recogniser and results for every block size. -/
theorem decode_blocks_as_whole :
    (∀ (r : Recognizer) (d : Nat) (blocks : List Tensor) (x : Tensor), blocks ≠ [] →
      (∀ t ∈ blocks, t.IsMatrix d) → x.IsMatrix d → x.frames = (blocks.map Tensor.frames).flatten →
      r.session.stream.Reads →
      (r.decodeBlocks blocks).calls = (r.decode x true).calls ∧
      (r.decodeBlocks blocks).out = (r.decode x true).out ∧
      ((r.decode x true).out.isOk → (r.decodeBlocks blocks).next = (r.decode x true).next)) ∧
    (∀ (fs : FileSystem) (r : Recognizer) (path : String) (b : Int) (quiet : Bool),
      r.session.stream.Reads →
      (Cli.decodeFile fs r path b quiet).map (fun o => (o.1, o.2.2)) =
        (Cli.decodeFile fs r path 0 quiet).map (fun o => (o.1, o.2.2))) :=
  ⟨fun r _ blocks _ hne hblocks hx hframes hr =>
    Recognizer.decodeBlocks_agrees r blocks hne hblocks hx hframes hr, Cli.decodeFile_blocks⟩

/-- A new recogniser with chunks of two frames, fed a frame, an empty block and two frames, so
that its first chunk joins the first block to the third. -/
theorem decode_blocks_as_whole_across_blocks :
    Recognizer.create (Backend.synthetic 2) {} none = .ok Recognizer.synthetic ∧
      (Recognizer.synthetic.decodeBlocks [⟨[1, 2], #[1, 2]⟩, ⟨[0, 2], #[]⟩, ⟨[2, 2], #[3, 4, 5, 6]⟩]).calls =
        (Recognizer.synthetic.decode ⟨[3, 2], #[1, 2, 3, 4, 5, 6]⟩ true).calls ∧
      (Recognizer.synthetic.decodeBlocks [⟨[1, 2], #[1, 2]⟩, ⟨[0, 2], #[]⟩, ⟨[2, 2], #[3, 4, 5, 6]⟩]).out =
        (Recognizer.synthetic.decode ⟨[3, 2], #[1, 2, 3, 4, 5, 6]⟩ true).out ∧
      (Cli.decodeFile ⟨[("a", .features ⟨[3, 2], #[1, 2, 3, 4, 5, 6]⟩)]⟩ Recognizer.synthetic "a" 2 true).map
          (fun o => (o.1, o.2.2)) =
        (Cli.decodeFile ⟨[("a", .features ⟨[3, 2], #[1, 2, 3, 4, 5, 6]⟩)]⟩ Recognizer.synthetic "a" 0 true).map
          (fun o => (o.1, o.2.2)) := by
  obtain ⟨hcalls, hout, -⟩ := decode_blocks_as_whole.1 Recognizer.synthetic 2
    [⟨[1, 2], #[1, 2]⟩, ⟨[0, 2], #[]⟩, ⟨[2, 2], #[3, 4, 5, 6]⟩] ⟨[3, 2], #[1, 2, 3, 4, 5, 6]⟩
    (by simp) (by simp [Tensor.IsMatrix, Tensor.numRows]) rfl
    (by simp [Tensor.frames, Tensor.row, Tensor.rowWidth, Tensor.count, Tensor.numRows, List.range_succ])
    Recognizer.synthetic_reads
  exact ⟨rfl, hcalls, hout, decode_blocks_as_whole.2 _ _ _ _ _ Recognizer.synthetic_reads⟩

end SpeechStream
