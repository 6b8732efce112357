import SpeechStream.Decoding.Options
/-!
Ranking candidates by score, best first, keeping ties in their order.

The ranking is the stable ascending sort of the reversed list, reversed back. The ascending
sort takes the longest run at the front that is strictly descending (reversed in place) or
non-descending, and inserts every later element after the last element it is not smaller
than, found by binary search. With scores that are all comparable this is the stable order by
descending score. A NaN score compares neither smaller nor larger than anything, and then the
order is fixed by this procedure.
-/

set_option autoImplicit false

namespace SpeechStream.Ranking

/-- Whether the first candidate sorts before the second in ascending order. -/
def before (a b : Candidate) : Bool := a.score < b.score

/-- Length of the run at the front and whether it is strictly descending. -/
def runLength (xs : List Candidate) : Nat × Bool :=
  match xs with
  | a :: b :: rest =>
    if before b a then
      let step := fun (acc : Nat × Candidate × Bool) (c : Candidate) =>
        let (n, prev, going) := acc
        if going && before c prev then (n + 1, c, true) else (n, prev, false)
      ((rest.foldl step (2, b, true)).1, true)
    else
      let step := fun (acc : Nat × Candidate × Bool) (c : Candidate) =>
        let (n, prev, going) := acc
        if going && !before c prev then (n + 1, c, true) else (n, prev, false)
      ((rest.foldl step (2, b, true)).1, false)
  | _ => (xs.length, false)

/-- The place where a pivot goes in a sorted prefix: after every element it is not smaller
than, by binary search between `lo` and `hi`; the fuel halves the window. -/
def place (sorted : Array Candidate) (pivot : Candidate) : Nat → Nat → Nat → Nat
  | 0, lo, _ => lo
  | fuel + 1, lo, hi =>
    if lo < hi then
      let p := lo + (hi - lo) / 2
      match sorted[p]? with
      | some x => if before pivot x then place sorted pivot fuel lo p
                  else place sorted pivot fuel (p + 1) hi
      | none => lo
    else lo

/-- Inserts elements one by one into a sorted prefix. -/
def insertAll (sorted : Array Candidate) (rest : List Candidate) : Array Candidate :=
  rest.foldl (fun acc c =>
    let i := place acc c (acc.size + 1) 0 acc.size
    (acc.extract 0 i).push c ++ acc.extract i acc.size) sorted

/-- Ascending stable sort as described above. -/
def ascending (xs : List Candidate) : List Candidate :=
  let (n, descending) := runLength xs
  let run := xs.take n
  let run := if descending then run.reverse else run
  (insertAll run.toArray (xs.drop n)).toList

/-- Candidates by descending score, ties in their given order. -/
def byScore (xs : List Candidate) : List Candidate :=
  (ascending xs.reverse).reverse

end SpeechStream.Ranking
