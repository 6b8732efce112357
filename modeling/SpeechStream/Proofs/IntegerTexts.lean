import SpeechStream.Text.Integer
import SpeechStream.Document.Json
import Mathlib.Data.List.DropRight
import Mathlib.Data.Nat.Digits.Defs
import Mathlib.Tactic.Ring
/-!
Integer texts: the grammar that reading accepts, and decimal writing read back.

Reading an integer text drops the blank characters at both ends and then accepts exactly
`[+|-] d (_? d)*`, where `d` is a decimal digit of any script: an optional sign, then digits
with single underscores allowed between two of them (`SignedRun`). The digits, most
significant first, are the value in base ten; leading zeros count as digits, and a text of
more than `digitLimit` digits is refused as too long (`readInt_eq_value_iff`,
`readInt_eq_tooLong_iff`, `readInt_eq_invalid_iff`).

Decimal writing gives such a text without blanks, so every integer of at most `digitLimit`
digits reads back as itself (`readInt_intText`).
-/

set_option autoImplicit false

namespace SpeechStream.Text

open Nat (ofDigits)

/-- The tail `(_? d)*` of a digit run, with the values of its digits in reading order. -/
inductive DigitTail : List Char → List Nat → Prop
  | nil : DigitTail [] []
  | digit {c : Char} {d : Nat} {cs : List Char} {ds : List Nat} :
      digitValue? c = some d → DigitTail cs ds → DigitTail (c :: cs) (d :: ds)
  | sep {c : Char} {d : Nat} {cs : List Char} {ds : List Nat} :
      digitValue? c = some d → DigitTail cs ds → DigitTail ('_' :: c :: cs) (d :: ds)

/-- A digit run `d (_? d)*`: a digit, then a tail. -/
inductive DigitRun : List Char → List Nat → Prop
  | mk {c : Char} {d : Nat} {cs : List Char} {ds : List Nat} :
      digitValue? c = some d → DigitTail cs ds → DigitRun (c :: cs) (d :: ds)

/-- An integer text `[+|-] d (_? d)*`: whether it is negative, and its digits. -/
inductive SignedRun : List Char → Bool → List Nat → Prop
  | plain {cs : List Char} {ds : List Nat} : DigitRun cs ds → SignedRun cs false ds
  | plus {cs : List Char} {ds : List Nat} : DigitRun cs ds → SignedRun ('+' :: cs) false ds
  | minus {cs : List Char} {ds : List Nat} : DigitRun cs ds → SignedRun ('-' :: cs) true ds

/-- The integer that a sign and decimal digits, most significant first, stand for. -/
def signedValue (neg : Bool) (ds : List Nat) : Int :=
  let v : Nat := ofDigits 10 ds.reverse
  if neg then -v else v

theorem digitValue_underscore : digitValue? '_' = none := by decide

theorem ne_underscore_of_digitValue {c : Char} {d : Nat} (h : digitValue? c = some d) :
    c ≠ '_' := by
  rintro rfl
  simp [digitValue_underscore] at h

theorem digitValue_digitChar_all : ∀ d, d < 10 → digitValue? (Nat.digitChar d) = some d := by
  decide

theorem isBlank_digitChar_all : ∀ d, d < 10 → isBlank (Nat.digitChar d) = false := by
  decide

theorem ofDigits_reverse_cons (d : Nat) (ds : List Nat) :
    ofDigits 10 (d :: ds).reverse = d * 10 ^ ds.length + ofDigits 10 ds.reverse := by
  rw [List.reverse_cons, Nat.ofDigits_append, Nat.ofDigits_singleton, List.length_reverse]
  ring

/-! ### Reading digit runs -/

theorem readDigits_of_tail {cs : List Char} {ds : List Nat} (h : DigitTail cs ds) (a k : Nat) :
    readDigits cs (a, k) true =
      some (a * 10 ^ ds.length + ofDigits 10 ds.reverse, k + ds.length) := by
  induction h generalizing a k with
  | nil => simp [readDigits]
  | @digit c d cs ds hc _ ih =>
    rw [readDigits.eq_3 _ _ _ _ (ne_underscore_of_digitValue hc)]
    simp only [hc, ih, ofDigits_reverse_cons, List.length_cons, Option.some.injEq, Prod.mk.injEq]
    constructor <;> ring
  | @sep c d cs ds hc _ ih =>
    rw [readDigits.eq_2, if_pos rfl, readDigits.eq_3 _ _ _ _ (ne_underscore_of_digitValue hc)]
    simp only [hc, ih, ofDigits_reverse_cons, List.length_cons, Option.some.injEq, Prod.mk.injEq]
    constructor <;> ring

theorem readDigits_of_run {cs : List Char} {ds : List Nat} (h : DigitRun cs ds) (a k : Nat) :
    readDigits cs (a, k) false =
      some (a * 10 ^ ds.length + ofDigits 10 ds.reverse, k + ds.length) := by
  cases h with
  | @mk c d cs ds hc ht =>
    rw [readDigits.eq_3 _ _ _ _ (ne_underscore_of_digitValue hc)]
    simp only [hc, readDigits_of_tail ht, ofDigits_reverse_cons, List.length_cons,
      Option.some.injEq, Prod.mk.injEq]
    constructor <;> ring

theorem readDigits_sound {cs : List Char} {acc : Nat × Nat} {last : Bool} {r : Nat × Nat}
    (h : readDigits cs acc last = some r) :
    ∃ ds, (if last then DigitTail cs ds else DigitRun cs ds) ∧
      r = (acc.1 * 10 ^ ds.length + ofDigits 10 ds.reverse, acc.2 + ds.length) := by
  fun_induction readDigits cs acc last generalizing r with
  | case1 acc =>
    simp only [Option.some.injEq] at h
    exact ⟨[], DigitTail.nil, by simp [h]⟩
  | case2 acc last hlast => simp at h
  | case3 rest acc ih =>
    obtain ⟨ds, hrun, rfl⟩ := ih h
    simp only [Bool.false_eq_true, ↓reduceIte] at hrun
    cases hrun with
    | mk hc ht => exact ⟨_, DigitTail.sep hc ht, rfl⟩
  | case4 rest acc last hlast => simp at h
  | case5 c rest acc last _ d hc ih =>
    obtain ⟨ds, htail, rfl⟩ := ih h
    simp only [↓reduceIte] at htail
    refine ⟨d :: ds, ?_, ?_⟩
    · cases last
      · exact DigitRun.mk hc htail
      · exact DigitTail.digit hc htail
    · simp only [ofDigits_reverse_cons, List.length_cons, Prod.mk.injEq]
      constructor <;> ring
  | case6 c rest acc last _ hc => simp at h

/-! ### Reading integer texts -/

theorem readInt_of_signedRun {s : String} {neg : Bool} {ds : List Nat}
    (h : SignedRun (stripBlank s).toList neg ds) :
    readInt s = if digitLimit < ds.length then .tooLong else .value (signedValue neg ds) := by
  unfold readInt
  generalize (stripBlank s).toList = cs at h ⊢
  cases h with
  | plain hrun =>
    cases hrun with
    | @mk c d cs ds hc ht =>
      have hminus : c ≠ '-' := by rintro rfl; simp [show digitValue? '-' = none by decide] at hc
      have hplus : c ≠ '+' := by rintro rfl; simp [show digitValue? '+' = none by decide] at hc
      split
      rename_i neg rest hsign
      split at hsign
      · simp_all
      · simp_all
      · obtain ⟨rfl, rfl⟩ := Prod.mk.inj hsign
        simp [readDigits_of_run (DigitRun.mk hc ht), signedValue]
  | plus hrun => simp [readDigits_of_run hrun, signedValue, gt_iff_lt]
  | minus hrun => simp [readDigits_of_run hrun, signedValue, gt_iff_lt]

theorem readInt_sound {s : String} (h : readInt s ≠ .invalid) :
    ∃ neg ds, SignedRun (stripBlank s).toList neg ds := by
  unfold readInt at h
  generalize (stripBlank s).toList = cs at h ⊢
  split at h
  rename_i neg rest hsign
  obtain ⟨r, hr⟩ : ∃ r, readDigits rest (0, 0) false = some r := by
    cases hread : readDigits rest (0, 0) false with
    | none => simp [hread] at h
    | some r => exact ⟨r, rfl⟩
  obtain ⟨ds, hrun, -⟩ := readDigits_sound hr
  simp only [Bool.false_eq_true, ↓reduceIte] at hrun
  split at hsign
  · obtain ⟨rfl, rfl⟩ := Prod.mk.inj hsign
    exact ⟨true, ds, .minus hrun⟩
  · obtain ⟨rfl, rfl⟩ := Prod.mk.inj hsign
    exact ⟨false, ds, .plus hrun⟩
  · obtain ⟨rfl, rfl⟩ := Prod.mk.inj hsign
    exact ⟨false, ds, .plain hrun⟩

theorem readInt_eq_value_iff {s : String} {n : Int} :
    readInt s = .value n ↔ ∃ neg ds, SignedRun (stripBlank s).toList neg ds ∧
      ds.length ≤ digitLimit ∧ n = signedValue neg ds := by
  constructor
  · intro h
    have hne : readInt s ≠ .invalid := by simp [h]
    obtain ⟨neg, ds, hrun⟩ := readInt_sound hne
    rw [readInt_of_signedRun hrun] at h
    split at h
    · cases h
    · rename_i hlen
      cases h
      exact ⟨neg, ds, hrun, by omega, rfl⟩
  · rintro ⟨neg, ds, hrun, hlen, rfl⟩
    rw [readInt_of_signedRun hrun, if_neg (by omega)]

theorem readInt_eq_tooLong_iff {s : String} :
    readInt s = .tooLong ↔ ∃ neg ds, SignedRun (stripBlank s).toList neg ds ∧
      digitLimit < ds.length := by
  constructor
  · intro h
    have hne : readInt s ≠ .invalid := by simp [h]
    obtain ⟨neg, ds, hrun⟩ := readInt_sound hne
    rw [readInt_of_signedRun hrun] at h
    split at h
    · exact ⟨neg, ds, hrun, ‹_›⟩
    · cases h
  · rintro ⟨neg, ds, hrun, hlen⟩
    rw [readInt_of_signedRun hrun, if_pos hlen]

theorem readInt_eq_invalid_iff {s : String} :
    readInt s = .invalid ↔ ∀ neg ds, ¬ SignedRun (stripBlank s).toList neg ds := by
  constructor
  · intro h neg ds hrun
    rw [readInt_of_signedRun hrun] at h
    split at h <;> cases h
  · intro h
    by_contra hne
    obtain ⟨neg, ds, hrun⟩ := readInt_sound hne
    exact h neg ds hrun

/-! ### Blanks around a text -/

theorem toList_stripBlank (s : String) :
    (stripBlank s).toList = (s.toList.dropWhile isBlank).rdropWhile isBlank := by
  simp [stripBlank, List.rdropWhile]

theorem stripBlank_stripBlank (s : String) : stripBlank (stripBlank s) = stripBlank s := by
  apply String.ext
  rw [toList_stripBlank, toList_stripBlank]
  have hfront : ((s.toList.dropWhile isBlank).rdropWhile isBlank).dropWhile isBlank =
      (s.toList.dropWhile isBlank).rdropWhile isBlank := by
    obtain ⟨t, ht⟩ := List.rdropWhile_prefix isBlank (s.toList.dropWhile isBlank)
    cases hkept : (s.toList.dropWhile isBlank).rdropWhile isBlank with
    | nil => rfl
    | cons c kept =>
      have hL : s.toList.dropWhile isBlank = c :: (kept ++ t) := by
        rw [← ht, hkept, List.cons_append]
      have hne : s.toList.dropWhile isBlank ≠ [] := by simp [hL]
      have hc := List.head_dropWhile_not isBlank hne
      simp only [hL, List.head_cons] at hc
      simp [hc]
  rw [hfront, List.rdropWhile_idempotent]

theorem stripBlank_of_not_blank {s : String} (h : ∀ c ∈ s.toList, isBlank c = false) :
    stripBlank s = s := by
  apply String.ext
  have hfront : s.toList.dropWhile isBlank = s.toList :=
    List.dropWhile_eq_self_iff.2 fun hl => by simp [h _ (List.getElem_mem hl)]
  rw [toList_stripBlank, hfront, List.rdropWhile_eq_self_iff]
  intro hne
  simp [h _ (List.getLast_mem hne)]

theorem readInt_stripBlank (s : String) : readInt (stripBlank s) = readInt s := by
  simp only [readInt, stripBlank_stripBlank]

/-! ### Decimal writing -/

theorem toDigits_ten (m : Nat) : ∃ ds, Nat.toDigits 10 m = ds.map Nat.digitChar ∧ ds ≠ [] ∧
    (∀ d ∈ ds, d < 10) ∧ ofDigits 10 ds.reverse = m := by
  induction m using Nat.strong_induction_on with
  | _ m ih =>
    rw [Nat.toDigits_eq_if (by norm_num)]
    split
    · exact ⟨[m], rfl, by simp, by simpa, by simp⟩
    · obtain ⟨ds, hds, -, hlt, hval⟩ := ih (m / 10) (by omega)
      refine ⟨ds ++ [m % 10], by simp [hds], by simp, ?_, ?_⟩
      · intro d hd
        simp only [List.mem_append, List.mem_singleton] at hd
        rcases hd with hd | rfl
        · exact hlt d hd
        · omega
      · simp only [List.reverse_append, List.reverse_singleton, List.singleton_append,
          Nat.ofDigits_cons, hval]
        omega

theorem digitTail_map_digitChar {ds : List Nat} (h : ∀ d ∈ ds, d < 10) :
    DigitTail (ds.map Nat.digitChar) ds := by
  induction ds with
  | nil => exact .nil
  | cons d ds ih =>
    exact .digit (digitValue_digitChar_all d (h d (by simp))) (ih fun x hx => h x (by simp [hx]))

theorem digitRun_map_digitChar {ds : List Nat} (hne : ds ≠ []) (h : ∀ d ∈ ds, d < 10) :
    DigitRun (ds.map Nat.digitChar) ds := by
  cases ds with
  | nil => contradiction
  | cons d ds =>
    exact .mk (digitValue_digitChar_all d (h d (by simp)))
      (digitTail_map_digitChar fun x hx => h x (by simp [hx]))

theorem toList_intText (n : Int) :
    (Json.intText n).toList = (if n < 0 then ['-'] else []) ++ Nat.toDigits 10 n.natAbs := by
  unfold Json.intText Decimal.natText
  split <;> simp [String.toList_append, String.toList_ofList]

theorem isBlank_intText (n : Int) : ∀ c ∈ (Json.intText n).toList, isBlank c = false := by
  obtain ⟨ds, hds, -, hlt, -⟩ := toDigits_ten n.natAbs
  intro c hc
  rw [toList_intText, hds] at hc
  simp only [List.mem_append, List.mem_map] at hc
  rcases hc with hc | ⟨d, hd, rfl⟩
  · split at hc <;> simp_all
    decide
  · exact isBlank_digitChar_all d (hlt d hd)

theorem intText_ne_empty (n : Int) : Json.intText n ≠ "" := by
  obtain ⟨ds, hds, hne, -, -⟩ := toDigits_ten n.natAbs
  intro h
  have := congrArg String.toList h
  rw [toList_intText, hds] at this
  simp_all

theorem readInt_intText {n : Int} (h : n.natAbs < 10 ^ digitLimit) :
    readInt (Json.intText n) = .value n := by
  obtain ⟨ds, hds, hne, hlt, hval⟩ := toDigits_ten n.natAbs
  have hlen : ds.length ≤ digitLimit := by
    simpa [hds] using Nat.toDigits_length 10 n.natAbs digitLimit (by decide) h
  rw [readInt_eq_value_iff, stripBlank_of_not_blank (isBlank_intText n), toList_intText, hds]
  refine ⟨decide (n < 0), ds, ?_, hlen, ?_⟩
  · by_cases hn : n < 0
    · simpa [hn] using SignedRun.minus (digitRun_map_digitChar hne hlt)
    · simpa [hn] using SignedRun.plain (digitRun_map_digitChar hne hlt)
  · simp only [signedValue, hval, decide_eq_true_eq]
    omega

end SpeechStream.Text
