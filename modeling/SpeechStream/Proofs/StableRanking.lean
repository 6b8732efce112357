import SpeechStream.Decoding.Ranking
import Mathlib.Data.List.Perm.Basic
import Mathlib.Data.List.Chain
/-!
Ranking by score is a stable sort.

`Ranking.byScore` sorts ascending the reversed list and reverses the result; the ascending sort
takes the run at the front (reversed when strictly descending) and inserts every later candidate
after the last one it is not smaller than, found by binary search. Whatever the scores, the
ranking is a permutation of its input (`Ranking.byScore_perm`). When the scores compare as
numbers do, with no NaN among them (`Ranking.Comparable`: `<` is irreflexive and transitive on
them, and so is being neither smaller nor larger), the ranking is by non-increasing score and
keeps the candidates of equal score in their given order (`Ranking.byScore_sorted`,
`Ranking.byScore_stable`).

Stability is stated through tie classes: the candidates tied with any one candidate come out in
the order they went in.
-/

set_option autoImplicit false

namespace SpeechStream.Ranking

open scoped List

/-- Scores that compare as numbers do: `<` is irreflexive and transitive on them, and so is being
neither smaller nor larger. Floating-point scores do when none of them is NaN. -/
structure Comparable (U : List Candidate) : Prop where
  irrefl : ∀ a ∈ U, ¬ a.score < a.score
  trans : ∀ a ∈ U, ∀ b ∈ U, ∀ c ∈ U, a.score < b.score → b.score < c.score → a.score < c.score
  incomp : ∀ a ∈ U, ∀ b ∈ U, ∀ c ∈ U, ¬ a.score < b.score → ¬ b.score < c.score → ¬ a.score < c.score

/-- Whether two candidates tie: neither sorts before the other. -/
def ties (a b : Candidate) : Bool := !before a b && !before b a

/-- A list in ascending order: no candidate sorts before one ahead of it. -/
def Ascending (l : List Candidate) : Prop := l.Pairwise (fun a b => before b a = false)

theorem before_iff (a b : Candidate) : before a b = true ↔ a.score < b.score := by
  simp [before]

theorem before_eq_false_iff (a b : Candidate) : before a b = false ↔ ¬ a.score < b.score := by
  simp [before]

section Laws

variable {U : List Candidate} (hU : Comparable U)
include hU

theorem before_asymm {a b : Candidate} (ha : a ∈ U) (hb : b ∈ U) (h : before a b = true) :
    before b a = false := by
  rw [before_iff] at h
  rw [before_eq_false_iff]
  exact fun h' => hU.irrefl a ha (hU.trans a ha b hb a ha h h')

theorem before_trans {a b c : Candidate} (ha : a ∈ U) (hb : b ∈ U) (hc : c ∈ U)
    (h1 : before a b = true) (h2 : before b c = true) : before a c = true := by
  rw [before_iff] at *
  exact hU.trans a ha b hb c hc h1 h2

theorem not_before_trans {a b c : Candidate} (ha : a ∈ U) (hb : b ∈ U) (hc : c ∈ U)
    (h1 : before a b = false) (h2 : before b c = false) : before a c = false := by
  rw [before_eq_false_iff] at *
  exact hU.incomp a ha b hb c hc h1 h2

theorem ties_of_ties {c a b : Candidate} (hc : c ∈ U) (ha : a ∈ U) (hb : b ∈ U)
    (h1 : ties c a = true) (h2 : ties c b = true) : ties a b = true := by
  simp only [ties, Bool.and_eq_true, Bool.not_eq_true'] at *
  exact ⟨not_before_trans hU ha hc hb h1.2 h2.1, not_before_trans hU hb hc ha h2.2 h1.1⟩

end Laws

theorem pairwise_of_isChain {U : List Candidate} {R : Candidate → Candidate → Prop}
    (htrans : ∀ a ∈ U, ∀ b ∈ U, ∀ c ∈ U, R a b → R b c → R a c) :
    ∀ {l : List Candidate}, (∀ x ∈ l, x ∈ U) → l.IsChain R → l.Pairwise R
  | [], _, _ => .nil
  | [_], _, _ => List.pairwise_singleton _ _
  | a :: b :: l, hl, hc => by
    rw [List.isChain_cons_cons] at hc
    have hrest := pairwise_of_isChain htrans (fun x hx => hl x (List.mem_cons_of_mem a hx)) hc.2
    refine List.Pairwise.cons (fun y hy => ?_) hrest
    rcases List.mem_cons.1 hy with rfl | hy
    · exact hc.1
    · exact htrans a (hl a (by simp)) b (hl b (by simp)) y (hl y (by simp [hy])) hc.1
        (List.rel_of_pairwise_cons hrest hy)

/-! The run at the front. -/

section Run

variable (t : Candidate → Candidate → Bool)

theorem foldl_run_stopped (rest : List Candidate) (n : Nat) (prev : Candidate) :
    (rest.foldl (fun (acc : Nat × Candidate × Bool) (c : Candidate) =>
      let (n, prev, going) := acc
      if going && t c prev then (n + 1, c, true) else (n, prev, false)) (n, prev, false)).1 = n := by
  induction rest generalizing n prev with
  | nil => rfl
  | cons c rest ih => simpa using ih n prev

theorem foldl_run (rest : List Candidate) (n : Nat) (prev : Candidate) :
    ∃ k, (rest.foldl (fun (acc : Nat × Candidate × Bool) (c : Candidate) =>
      let (n, prev, going) := acc
      if going && t c prev then (n + 1, c, true) else (n, prev, false)) (n, prev, true)).1 = n + k ∧
      (prev :: rest.take k).IsChain (fun a b => t b a = true) := by
  induction rest generalizing n prev with
  | nil => exact ⟨0, rfl, List.isChain_singleton _⟩
  | cons c rest ih =>
    by_cases hc : t c prev = true
    · obtain ⟨k, hk, hchain⟩ := ih (n + 1) c
      refine ⟨k + 1, ?_, ?_⟩
      · simp only [List.foldl_cons, Bool.true_and, hc, ↓reduceIte]
        rw [hk]
        omega
      · simpa [List.isChain_cons_cons, hc] using hchain
    · refine ⟨0, ?_, List.isChain_singleton _⟩
      simp only [List.foldl_cons, Bool.true_and, hc, Bool.false_eq_true, ↓reduceIte]
      exact foldl_run_stopped t rest n prev

end Run

theorem runLength_chain (xs : List Candidate) :
    ((runLength xs).2 = true ∧ (xs.take (runLength xs).1).IsChain (fun a b => before b a = true)) ∨
      ((runLength xs).2 = false ∧ (xs.take (runLength xs).1).IsChain (fun a b => before b a = false)) := by
  match xs with
  | [] => exact .inr ⟨rfl, List.isChain_nil⟩
  | [a] => exact .inr ⟨rfl, List.isChain_singleton a⟩
  | a :: b :: rest =>
    by_cases hba : before b a = true
    · obtain ⟨k, hk, hchain⟩ := foldl_run (fun c p => before c p) rest 2 b
      left
      simp only [runLength, hba, ↓reduceIte]
      refine ⟨trivial, ?_⟩
      rw [hk, show 2 + k = k + 1 + 1 by omega, List.take_succ_cons, List.take_succ_cons,
        List.isChain_cons_cons]
      exact ⟨hba, hchain⟩
    · obtain ⟨k, hk, hchain⟩ := foldl_run (fun c p => !before c p) rest 2 b
      right
      simp only [runLength, hba, Bool.false_eq_true, ↓reduceIte]
      refine ⟨trivial, ?_⟩
      rw [hk, show 2 + k = k + 1 + 1 by omega, List.take_succ_cons, List.take_succ_cons,
        List.isChain_cons_cons]
      exact ⟨by simpa using hba, by simpa using hchain⟩

theorem reverse_eq_self_of_pairwise {R : Candidate → Candidate → Prop} {l : List Candidate}
    (hl : l.Pairwise R) (hnot : ∀ a ∈ l, ∀ b ∈ l, ¬ R a b) : l.reverse = l := by
  match l, hl with
  | [], _ => rfl
  | [_], _ => rfl
  | a :: b :: _, hl => exact absurd (List.rel_of_pairwise_cons hl (by simp)) (hnot a (by simp) b (by simp))

/-- Where the ascending sort inserts `c` into `acc`: the place the binary search finds. -/
def insertPos (acc : Array Candidate) (c : Candidate) : Nat := place acc c (acc.size + 1) 0 acc.size

/-- One insertion step of the ascending sort. -/
def insertOne (acc : Array Candidate) (c : Candidate) : Array Candidate :=
  (acc.extract 0 (insertPos acc c)).push c ++ acc.extract (insertPos acc c) acc.size

theorem insertAll_cons (acc : Array Candidate) (c : Candidate) (rest : List Candidate) :
    insertAll acc (c :: rest) = insertAll (insertOne acc c) rest := rfl

theorem toList_insertOne (acc : Array Candidate) (c : Candidate) :
    (insertOne acc c).toList = acc.toList.take (insertPos acc c) ++ c :: acc.toList.drop (insertPos acc c) := by
  simp [insertOne, Array.toList_extract, List.extract_eq_take_drop, List.take_of_length_le]

theorem insertOne_perm (acc : Array Candidate) (c : Candidate) :
    (insertOne acc c).toList.Perm (acc.toList ++ [c]) := by
  rw [toList_insertOne]
  calc acc.toList.take (insertPos acc c) ++ c :: acc.toList.drop (insertPos acc c)
      _ ~ c :: (acc.toList.take (insertPos acc c) ++ acc.toList.drop (insertPos acc c)) := List.perm_middle
      _ = [c] ++ acc.toList := by rw [List.take_append_drop]; rfl
      _ ~ acc.toList ++ [c] := @List.perm_append_comm _ [c] acc.toList

theorem insertAll_perm (sorted : Array Candidate) (rest : List Candidate) :
    (insertAll sorted rest).toList.Perm (sorted.toList ++ rest) := by
  induction rest generalizing sorted with
  | nil => simp [insertAll]
  | cons c rest ih =>
    rw [insertAll_cons]
    calc (insertAll (insertOne sorted c) rest).toList
        _ ~ (insertOne sorted c).toList ++ rest := ih _
        _ ~ (sorted.toList ++ [c]) ++ rest := (insertOne_perm sorted c).append_right rest
        _ = sorted.toList ++ c :: rest := by simp

theorem ascending_eq (xs : List Candidate) :
    ascending xs = (insertAll (if (runLength xs).2 then (xs.take (runLength xs).1).reverse
      else xs.take (runLength xs).1).toArray (xs.drop (runLength xs).1)).toList := rfl

section Sorted

variable {U : List Candidate} (hU : Comparable U)
include hU

theorem run_ascending (xs : List Candidate) (hxs : ∀ x ∈ xs, x ∈ U) :
    Ascending (if (runLength xs).2 then (xs.take (runLength xs).1).reverse else xs.take (runLength xs).1) ∧
      ∀ c ∈ U, (if (runLength xs).2 then (xs.take (runLength xs).1).reverse
        else xs.take (runLength xs).1).filter (ties c) = (xs.take (runLength xs).1).filter (ties c) := by
  have hmem : ∀ x ∈ xs.take (runLength xs).1, x ∈ U := fun x hx => hxs x (List.mem_of_mem_take hx)
  rcases runLength_chain xs with ⟨hd, hc⟩ | ⟨hd, hc⟩
  · rw [hd, if_pos rfl]
    have hpair := pairwise_of_isChain (fun a ha b hb c hc h1 h2 => before_trans hU hc hb ha h2 h1) hmem hc
    refine ⟨List.pairwise_reverse.2 (hpair.imp_of_mem fun ha hb h => before_asymm hU (hmem _ hb) (hmem _ ha) h),
      fun c hcU => ?_⟩
    rw [List.filter_reverse]
    apply reverse_eq_self_of_pairwise (hpair.filter _)
    intro a ha b hb hab
    obtain ⟨ha', hta⟩ := List.mem_filter.1 ha
    obtain ⟨hb', htb⟩ := List.mem_filter.1 hb
    have htie := ties_of_ties hU hcU (hmem a ha') (hmem b hb') hta htb
    simp [ties, hab] at htie
  · rw [hd, if_neg Bool.false_ne_true]
    exact ⟨pairwise_of_isChain (fun a ha b hb c hc h1 h2 => not_before_trans hU hc hb ha h2 h1) hmem hc,
      fun _ _ => rfl⟩

theorem place_spec (acc : Array Candidate) (pivot : Candidate) (hacc : Ascending acc.toList)
    (hmem : ∀ x ∈ acc.toList, x ∈ U) (hp : pivot ∈ U) :
    ∀ fuel lo hi, lo ≤ hi → hi ≤ acc.size → hi - lo < fuel →
      (∀ k (hk : k < acc.size), k < lo → before pivot acc[k] = false) →
      (∀ k (hk : k < acc.size), hi ≤ k → before pivot acc[k] = true) →
      place acc pivot fuel lo hi ≤ hi ∧
        (∀ k (hk : k < acc.size), k < place acc pivot fuel lo hi → before pivot acc[k] = false) ∧
        (∀ k (hk : k < acc.size), place acc pivot fuel lo hi ≤ k → before pivot acc[k] = true) := by
  have hsorted : ∀ i j (hij : i < j) (hj : j < acc.size), before acc[j] acc[i] = false := by
    intro i j hij hj
    have := List.pairwise_iff_getElem.1 hacc i j (by simp; omega) (by simpa using hj) hij
    simpa using this
  have hin : ∀ k (hk : k < acc.size), acc[k] ∈ U := fun k hk => hmem _ (by simp)
  intro fuel
  -- The window `[lo, hi)` of undecided positions shrinks at every step; the fuel outlasts it.
  induction fuel with
  | zero => intro lo hi _ _ hlt; omega
  | succ fuel ih =>
    intro lo hi hle hhi hlt hlo hhigh
    rw [place]
    split
    · rename_i hlohi
      have hmid : lo + (hi - lo) / 2 < acc.size := by omega
      simp only [Array.getElem?_eq_getElem hmid]
      split
      · rename_i hpiv
        obtain ⟨hle', h1, h2⟩ := ih lo (lo + (hi - lo) / 2) (by omega) (by omega) (by omega) hlo
          (fun k hk hpk => by
            rcases Nat.eq_or_lt_of_le hpk with rfl | hpk
            · exact hpiv
            · cases hk' : before pivot acc[k] with
              | true => rfl
              | false =>
                have := not_before_trans hU hp (hin k hk) (hin _ hmid) hk' (hsorted _ k hpk hk)
                rw [hpiv] at this
                cases this)
        exact ⟨by omega, h1, h2⟩
      · rename_i hpiv
        rw [Bool.not_eq_true] at hpiv
        exact ih (lo + (hi - lo) / 2 + 1) hi (by omega) hhi (by omega)
          (fun k hk hkp => by
            rcases Nat.lt_or_ge k lo with hklo | hklo
            · exact hlo k hk hklo
            · rcases Nat.lt_or_eq_of_le (Nat.le_of_lt_succ hkp) with hkp | rfl
              · exact not_before_trans hU hp (hin _ hmid) (hin k hk) hpiv (hsorted k _ hkp hmid)
              · exact hpiv)
          hhigh
    · exact ⟨hle, hlo, fun k hk hk' => hhigh k hk (by omega)⟩

theorem insert_sorted (acc : Array Candidate) (pivot : Candidate) (hacc : Ascending acc.toList)
    (hmem : ∀ x ∈ acc.toList, x ∈ U) (hp : pivot ∈ U) :
    Ascending (insertOne acc pivot).toList ∧
      ∀ c ∈ U, (insertOne acc pivot).toList.filter (ties c) =
        acc.toList.filter (ties c) ++ [pivot].filter (ties c) := by
  obtain ⟨-, hbelow, habove⟩ := place_spec hU acc pivot hacc hmem hp (acc.size + 1) 0 acc.size
    (Nat.zero_le _) le_rfl (by omega) (fun k _ hk => absurd hk (Nat.not_lt_zero k))
    (fun k hk hk' => absurd hk (by omega))
  rw [toList_insertOne]
  set i := insertPos acc pivot
  have hi : place acc pivot (acc.size + 1) 0 acc.size = i := rfl
  rw [hi] at hbelow habove
  have hleft : ∀ x ∈ acc.toList.take i, before pivot x = false := by
    intro x hx
    obtain ⟨k, hk, rfl⟩ := List.getElem_of_mem hx
    rw [List.getElem_take]
    simp only [List.length_take, Array.length_toList] at hk
    simpa using hbelow k (by omega) (by omega)
  have hright : ∀ y ∈ acc.toList.drop i, before pivot y = true := by
    intro y hy
    obtain ⟨k, hk, rfl⟩ := List.getElem_of_mem hy
    rw [List.getElem_drop]
    simp only [List.length_drop, Array.length_toList] at hk
    simpa using habove (i + k) (by omega) (by omega)
  have hsplit : acc.toList = acc.toList.take i ++ acc.toList.drop i := (List.take_append_drop _ _).symm
  have hacc' : Ascending (acc.toList.take i ++ acc.toList.drop i) := by rw [← hsplit]; exact hacc
  unfold Ascending at hacc' ⊢
  rw [List.pairwise_append] at hacc'
  refine ⟨List.pairwise_append.2 ⟨hacc'.1, List.pairwise_cons.2 ⟨fun y hy => ?_, hacc'.2.1⟩, ?_⟩, ?_⟩
  · exact before_asymm hU hp (hmem y (List.mem_of_mem_drop hy)) (hright y hy)
  · intro x hx y hy
    rcases List.mem_cons.1 hy with rfl | hy
    · exact hleft x hx
    · exact hacc'.2.2 x hx y hy
  · intro c hc
    have hnone : ties c pivot = true → (acc.toList.drop i).filter (ties c) = [] := by
      intro hpc
      rw [List.filter_eq_nil_iff]
      intro y hy hyc
      have := ties_of_ties hU hc hp (hmem y (List.mem_of_mem_drop hy)) hpc hyc
      simp [ties, hright y hy] at this
    have hf : acc.toList.filter (ties c) =
        (acc.toList.take i).filter (ties c) ++ (acc.toList.drop i).filter (ties c) := by
      rw [← List.filter_append, List.take_append_drop]
    rw [hf]
    cases hpc : ties c pivot
    · simp [List.filter_append, hpc]
    · simp [List.filter_append, hpc, hnone hpc]

theorem insertAll_sorted (sorted : Array Candidate) (rest : List Candidate) (hs : Ascending sorted.toList)
    (hmem : ∀ x ∈ sorted.toList ++ rest, x ∈ U) :
    Ascending (insertAll sorted rest).toList ∧
      ∀ c ∈ U, (insertAll sorted rest).toList.filter (ties c) = (sorted.toList ++ rest).filter (ties c) := by
  induction rest generalizing sorted with
  | nil => exact ⟨by simpa [insertAll] using hs, fun c _ => by simp [insertAll]⟩
  | cons p rest ih =>
    have hsU : ∀ x ∈ sorted.toList, x ∈ U := fun x hx => hmem x (by simp [hx])
    have hpU : p ∈ U := hmem p (by simp)
    obtain ⟨hasc, hfilter⟩ := insert_sorted hU sorted p hs hsU hpU
    have hmem' : ∀ x ∈ (insertOne sorted p).toList ++ rest, x ∈ U := by
      intro x hx
      apply hmem x
      simpa using ((insertOne_perm sorted p).append_right rest).mem_iff.1 hx
    obtain ⟨hasc', hfilter'⟩ := ih _ hasc hmem'
    refine ⟨by rwa [insertAll_cons], fun c hc => ?_⟩
    rw [insertAll_cons, hfilter' c hc, List.filter_append, hfilter c hc]
    simp only [List.filter_append, List.filter_cons, List.filter_nil, List.append_assoc]
    cases ties c p <;> rfl

theorem ascending_sorted (xs : List Candidate) (hxs : ∀ x ∈ xs, x ∈ U) :
    Ascending (ascending xs) ∧ ∀ c ∈ U, (ascending xs).filter (ties c) = xs.filter (ties c) := by
  obtain ⟨hrun, hrunf⟩ := run_ascending hU xs hxs
  have hmem : ∀ x ∈ (if (runLength xs).2 then (xs.take (runLength xs).1).reverse
      else xs.take (runLength xs).1).toArray.toList ++ xs.drop (runLength xs).1, x ∈ U := by
    intro x hx
    apply hxs
    rcases List.mem_append.1 hx with hrun | hrest
    · have hx' : x ∈ xs.take (runLength xs).1 := by
        split at hrun <;> simpa using hrun
      exact List.mem_of_mem_take hx'
    · exact List.mem_of_mem_drop hrest
  obtain ⟨hasc, hf⟩ := insertAll_sorted hU _ (xs.drop (runLength xs).1) (by simpa using hrun) hmem
  rw [ascending_eq]
  refine ⟨hasc, fun c hc => ?_⟩
  rw [hf c hc, List.filter_append, List.toList_toArray, hrunf c hc, ← List.filter_append,
    List.take_append_drop]

end Sorted

theorem ascending_perm (xs : List Candidate) : (ascending xs).Perm xs := by
  rw [ascending_eq]
  refine (insertAll_perm _ _).trans ?_
  rw [List.toList_toArray]
  split
  · exact (List.reverse_perm _).append_right _ |>.trans (by rw [List.take_append_drop])
  · rw [List.take_append_drop]

theorem byScore_perm (xs : List Candidate) : (byScore xs).Perm xs :=
  (List.reverse_perm _).trans ((ascending_perm _).trans (List.reverse_perm _))

theorem byScore_sorted {xs : List Candidate} (hU : Comparable xs) :
    (byScore xs).Pairwise (fun a b => ¬ a.score < b.score) := by
  have h := (ascending_sorted hU xs.reverse (fun x hx => List.mem_reverse.1 hx)).1
  unfold byScore
  rw [List.pairwise_reverse]
  exact h.imp fun hab => (before_eq_false_iff _ _).1 hab

theorem byScore_stable {xs : List Candidate} (hU : Comparable xs) :
    ∀ c ∈ xs, (byScore xs).filter (ties c) = xs.filter (ties c) := by
  intro c hc
  have h := (ascending_sorted hU xs.reverse (fun x hx => List.mem_reverse.1 hx)).2 c hc
  unfold byScore
  rw [List.filter_reverse, h, List.filter_reverse, List.reverse_reverse]

end SpeechStream.Ranking
