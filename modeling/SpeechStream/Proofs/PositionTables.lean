import SpeechStream.Proofs.FrameCounts
/-!
Position encodings do not depend on the length of the table.

A position table keeps only its width and the number of positions it covers: the numbers of a
position (`PositionTable.entry`) are a function of the position and the column alone. A request
for the positions `offset .. offset + size - 1`, asked directly or by encoding `size` frames,
grows the table when it runs past the end and then cuts the rows out of it like a slice. For
requests at positions `≥ 0` the cut is exact: the answer is the `size` rows of its positions
(`PositionTable.query_eq`), whatever the length of the table was. Over a run of requests each
table covers the request it served, is never shorter than the table before, and when it grows it
grows to the larger of the request's end and twice the old length (`PositionTable.Grows`,
`PositionTable.streamed_positions_ignore_table_length`).
-/

set_option autoImplicit false

namespace SpeechStream.Network

namespace PositionTable

/-- The encodings of the positions `offset .. offset + size - 1` at width `d`, one row per
position: the rows that every table covering them holds. -/
def encodings (d offset size : Nat) : Matrix :=
  Matrix.ofFn size d fun i j => entry d (offset + i) j

/-- What a request for `needed` positions does to a table: the width stays, the table covers
the request afterwards, it never shrinks, and when it grows it grows to the larger of `needed`
and twice its old length. -/
structure Grows (before after : PositionTable) (needed : Nat) : Prop where
  width : after.width = before.width
  covers : needed ≤ after.length
  monotone : before.length ≤ after.length
  doubles : after.length ≠ before.length → after.length = max needed (2 * before.length)

theorem extend_ofNat (t : PositionTable) (needed : Nat) :
    t.extend needed =
      if needed ≤ t.length then t else { t with length := max needed (2 * t.length) } := by
  unfold extend
  by_cases h : needed ≤ t.length
  · rw [if_pos (by exact_mod_cast h), if_pos h]
  · rw [if_neg (by exact_mod_cast h), if_neg h, Int.toNat_natCast]

theorem extend_grows (t : PositionTable) (needed : Nat) : Grows t (t.extend needed) needed := by
  rw [extend_ofNat]
  by_cases h : needed ≤ t.length
  · rw [if_pos h]
    exact ⟨rfl, h, Nat.le_refl _, fun hne => absurd rfl hne⟩
  · rw [if_neg h]
    have hgt : t.length < needed := Nat.lt_of_not_le h
    exact ⟨rfl, Nat.le_max_left _ _, Nat.le_trans (Nat.le_of_lt hgt) (Nat.le_max_left _ _),
      fun _ => rfl⟩

example : (⟨16, 10⟩ : PositionTable).extend 14 = ⟨16, 20⟩ := rfl

theorem sliceRange_of_le {n lo hi : Nat} (hlo : lo ≤ hi) (hhi : hi ≤ n) :
    sliceRange n lo hi = (lo, hi) := by
  unfold sliceRange
  simp only [Int.natCast_nonneg, Int.not_lt.2, if_false, Int.toNat_natCast,
    Nat.min_eq_left (Nat.le_trans hlo hhi), Nat.min_eq_left hhi, Nat.max_eq_right hlo]

theorem query_eq (t : PositionTable) (offset size : Nat) :
    t.query offset size = (t.extend (offset + size : Nat), encodings t.width offset size) := by
  have hgrows := t.extend_grows (offset + size)
  have hend : ((offset : Int) + size) = ((offset + size : Nat) : Int) := by push_cast; rfl
  unfold query
  dsimp only
  rw [hend, sliceRange_of_le (Nat.le_add_right offset size) hgrows.covers]
  simp only [hgrows.width, Nat.add_sub_cancel_left]
  rfl

end PositionTable

theorem encodePositions_eq {t : PositionTable} {x : Matrix} (hx : x.cols = t.width) (offset : Nat) :
    ∃ y, encodePositions t x offset =
      .ok (y, PositionTable.encodings t.width offset x.rows, t.extend (offset + x.rows : Nat)) := by
  unfold encodePositions
  rw [PositionTable.query_eq]
  simp only [Matrix.add, Matrix.zipWith, Matrix.map, PositionTable.encodings, Matrix.rows_ofFn,
    Matrix.cols_ofFn, hx, beq_self_eq_true, Bool.and_self, if_true, bind, Except.bind, pure,
    Except.pure]
  exact ⟨_, rfl⟩

namespace PositionTable

/-- A call on a position table: the encodings of `size` positions from `offset`, or the encoding
of frames from position `offset`. -/
inductive Call where
  | encodings (offset size : Nat)
  | frames (x : Matrix) (offset : Nat)

/-- The first position a call asks for. -/
def Call.offset : Call → Nat
  | .encodings o _ => o
  | .frames _ o => o

/-- The number of positions a call asks for: one per frame when it encodes frames. -/
def Call.size : Call → Nat
  | .encodings _ n => n
  | .frames x _ => x.rows

/-- One call: the encodings it returns and the table it leaves. -/
def step (t : PositionTable) : Call → Except Fault (Matrix × PositionTable)
  | .encodings o n =>
    let (t', pos) := t.query o n
    .ok (pos, t')
  | .frames x o => do
    let (_, pos, t') ← encodePositions t x o
    pure (pos, t')

/-- Calls served in order, each by the table the call before left: the encodings and the table
after each call. -/
def serve (t : PositionTable) : List Call → Except Fault (List (Matrix × PositionTable))
  | [] => .ok []
  | c :: cs => do
    let (pos, t') ← t.step c
    let rest ← t'.serve cs
    pure ((pos, t') :: rest)

/-- The answers to a run of calls: each call gets the encodings of its positions, and the table
after it grows from the table before as `Grows` says. -/
inductive Served : PositionTable → List Call → List (Matrix × PositionTable) → Prop
  | nil (t : PositionTable) : Served t [] []
  | cons {t t' : PositionTable} {c : Call} {cs : List Call} {rest : List (Matrix × PositionTable)} :
      Grows t t' (c.offset + c.size) → Served t' cs rest →
      Served t (c :: cs) ((encodings t.width c.offset c.size, t') :: rest)

theorem step_eq {t : PositionTable} {c : Call} (hc : ∀ x o, c = .frames x o → x.cols = t.width) :
    t.step c = .ok (encodings t.width c.offset c.size, t.extend (c.offset + c.size : Nat)) := by
  cases c with
  | encodings o n =>
    simp only [step, query_eq, Call.offset, Call.size]
  | frames x o =>
    obtain ⟨y, hy⟩ := encodePositions_eq (hc x o rfl) o
    simp only [step, hy, Call.offset, Call.size, bind, Except.bind, pure, Except.pure]

/-- Streaming positions do not depend on the length of the table: every run of calls at positions
`≥ 0`, with frames as wide as the table, is served, each call gets exactly the encodings of its
positions, and each table covers its call, never shrinks, and grows by doubling. -/
theorem streamed_positions_ignore_table_length (t : PositionTable) (calls : List Call)
    (hwidth : ∀ x o, Call.frames x o ∈ calls → x.cols = t.width) :
    ∃ answers, t.serve calls = .ok answers ∧ Served t calls answers := by
  induction calls generalizing t with
  | nil => exact ⟨[], rfl, .nil t⟩
  | cons c cs ih =>
    have hgrows := t.extend_grows (c.offset + c.size)
    have hrest : ∀ x o, Call.frames x o ∈ cs → x.cols = (t.extend (c.offset + c.size : Nat)).width :=
      fun x o hmem => (hwidth x o (List.mem_cons_of_mem c hmem)).trans hgrows.width.symm
    obtain ⟨rest, hserve, hserved⟩ := ih (t.extend (c.offset + c.size : Nat)) hrest
    have hstep := step_eq (t := t) (c := c) fun x o hc => hwidth x o (hc ▸ List.mem_cons_self)
    refine ⟨_, ?_, .cons hgrows hserved⟩
    simp only [serve, hstep, hserve, bind, Except.bind, pure, Except.pure]

theorem streamed_positions_ignore_table_length_past_the_table :
    (∀ x o, Call.frames x o ∈ [.encodings 0 3, .frames (Matrix.zeros 2 4) 5, .encodings 2 1] →
      x.cols = (⟨4, 1⟩ : PositionTable).width) ∧
    ∃ answers, (⟨4, 1⟩ : PositionTable).serve
        [.encodings 0 3, .frames (Matrix.zeros 2 4) 5, .encodings 2 1] = .ok answers ∧
      Served ⟨4, 1⟩ [.encodings 0 3, .frames (Matrix.zeros 2 4) 5, .encodings 2 1] answers := by
  have hwidth : ∀ x o, Call.frames x o ∈
      [.encodings 0 3, .frames (Matrix.zeros 2 4) 5, .encodings 2 1] →
      x.cols = (⟨4, 1⟩ : PositionTable).width := by
    intro x o hmem
    simp only [List.mem_cons, reduceCtorEq, Call.frames.injEq, List.not_mem_nil, or_false,
      false_or] at hmem
    rw [hmem.1]
    rfl
  exact ⟨hwidth, streamed_positions_ignore_table_length _ _ hwidth⟩

end PositionTable

end SpeechStream.Network
