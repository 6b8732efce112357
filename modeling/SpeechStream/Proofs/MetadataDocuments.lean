import Mathlib
import SpeechStream.Metadata
import SpeechStream.Proofs.IntegerTexts
import SpeechStream.Proofs.NbestRescoring
/-!
Metadata documents: what reading accepts, and the round trips through documents.

Reading a mapping settles its outcome in three stages (`ofDocument_map`). When table keys are
absent, all of them are reported in table order (`ofDocument_of_absent`). Otherwise the values
are read in table order and the first that is no integer is reported with its key
(`ofDocument_of_rejected`); a truth value counts as `0` or `1`, and a text as the integer its
grammar writes (`fieldValue_eq_ok_iff`). Otherwise the geometry is checked and the metadata of
the values is returned (`ofDocument_of_parsed`). Only the table keys are ever looked at
(`ofDocument_congr`), and every fault is a metadata fault (`ofDocument_fault`).

Writing the metadata as a document of integers, or of their decimal texts, reads back as the
same metadata whenever its geometry is one that reading accepts (`ofDocument_toDocument`,
`ofDocument_toTextDocument`).
-/

set_option autoImplicit false

namespace SpeechStream

@[simp] theorem Except.ok_bind {ε α β : Type} (a : α) (f : α → Except ε β) :
    (Except.ok a >>= f) = f a := rfl

@[simp] theorem Except.error_bind {ε α β : Type} (e : ε) (f : α → Except ε β) :
    (Except.error e >>= f) = .error e := rfl

theorem mapM_eq_error {α β ε : Type} {g : α → Except ε β} {l : List α} {e : ε}
    (h : l.mapM g = .error e) :
    ∃ pre a post, l = pre ++ a :: post ∧ (∀ x ∈ pre, ∃ y, g x = .ok y) ∧ g a = .error e := by
  induction l with
  | nil => cases h
  | cons a l ih =>
    rw [List.mapM_cons] at h
    cases ha : g a with
    | error e' =>
      rw [ha] at h
      cases h
      exact ⟨[], a, l, rfl, by simp, ha⟩
    | ok y =>
      rw [ha] at h
      cases hl : l.mapM g with
      | error e' =>
        rw [hl] at h
        cases h
        obtain ⟨pre, b, post, rfl, hpre, hb⟩ := ih hl
        refine ⟨a :: pre, b, post, rfl, ?_, hb⟩
        intro x hx
        rcases List.mem_cons.1 hx with rfl | hx
        · exact ⟨y, ha⟩
        · exact hpre x hx
      | ok ys =>
        rw [hl] at h
        cases h

theorem mapM_append_cons_error {α β ε : Type} {g : α → Except ε β} {pre post : List α} {a : α}
    {e : ε} (hpre : ∀ x ∈ pre, ∃ y, g x = .ok y) (ha : g a = .error e) :
    (pre ++ a :: post).mapM g = .error e := by
  induction pre with
  | nil =>
    rw [List.nil_append, List.mapM_cons, ha]
    rfl
  | cons x pre ih =>
    obtain ⟨y, hy⟩ := hpre x (by simp)
    rw [List.cons_append, List.mapM_cons, hy, ih fun x hx => hpre x (by simp [hx])]
    rfl

theorem mapM_of_forall₂ {α β ε : Type} {g : α → Except ε β} {l : List α} {r : List β}
    (h : List.Forall₂ (fun a b => g a = .ok b) l r) : l.mapM g = .ok r := by
  induction h with
  | nil => rfl
  | cons hab _ ih =>
    rw [List.mapM_cons, hab, ih]
    rfl

theorem mapM_congr_of_mem {α β ε : Type} {f g : α → Except ε β} {l : List α}
    (h : ∀ x ∈ l, f x = g x) : l.mapM f = l.mapM g := by
  induction l with
  | nil => rfl
  | cons a l ih =>
    rw [List.mapM_cons, List.mapM_cons, h a (by simp), ih fun x hx => h x (by simp [hx])]

theorem forall₂_and_mem_right {α β : Type} {R : α → β → Prop} {p : β → Prop} {l : List α}
    {r : List β} (h : List.Forall₂ R l r) (hp : ∀ b ∈ r, p b) :
    List.Forall₂ (fun a b => R a b ∧ p b) l r := by
  induction h with
  | nil => exact .nil
  | cons hab _ ih =>
    exact .cons ⟨hab, hp _ (by simp)⟩ (ih fun b hb => hp b (by simp [hb]))

theorem forall₂_of_zipWith {α β γ : Type} {R : α → γ → Prop} {f : α → β → γ} :
    ∀ {l : List α} {r : List β}, l.length = r.length →
      List.Forall₂ R l (List.zipWith f l r) → List.Forall₂ (fun a b => R a (f a b)) l r
  | [], [], _, _ => .nil
  | a :: l, b :: r, hlen, h => by
    rw [List.zipWith_cons_cons, List.forall₂_cons] at h
    exact .cons h.1 (forall₂_of_zipWith (by simpa using hlen) h.2)

theorem forall₂_and {α β : Type} {R S : α → β → Prop} {l : List α} {r : List β}
    (hR : List.Forall₂ R l r) (hS : List.Forall₂ S l r) :
    List.Forall₂ (fun a b => R a b ∧ S a b) l r := by
  induction hR with
  | nil => exact .nil
  | cons hab _ ih =>
    cases hS with
    | cons hs hS => exact .cons ⟨hab, hs⟩ (ih hS)

theorem exists_of_forall₂_of_mem {α β : Type} {R : α → β → Prop} {l : List α} {r : List β}
    (h : List.Forall₂ R l r) : ∀ a ∈ l, ∃ b, R a b := by
  induction h with
  | nil => simp
  | cons hab _ ih =>
    intro x hx
    rcases List.mem_cons.1 hx with rfl | hx
    · exact ⟨_, hab⟩
    · exact ih x hx

namespace Value

theorem get?_map (es : List (Value × Value)) (k : String) :
    (Value.map es).get? k = (es.find? (fun e => e.1.isText k)).map Prod.snd := rfl

theorem get?_record_cons_of_ne {k k' : String} {v : Value} {fields : List (String × Value)}
    (h : k' ≠ k) : (record ((k, v) :: fields)).get? k' = (record fields).get? k' := by
  simp [record, get?_map, isText, Ne.symm h]

theorem get?_record_zip {ks : List String} {vs : List Value} (hks : ks.Nodup)
    (hlen : ks.length = vs.length) :
    List.Forall₂ (fun k v => (Value.record (ks.zip vs)).get? k = some v) ks vs := by
  induction ks generalizing vs with
  | nil =>
    cases vs with
    | nil => exact .nil
    | cons _ _ => simp at hlen
  | cons k ks ih =>
    cases vs with
    | nil => simp at hlen
    | cons v vs =>
      obtain ⟨hk, hks⟩ := List.nodup_cons.1 hks
      refine .cons (by simp [record, get?_map, isText]) ?_
      have hlater : ∀ k' ∈ ks, k' ≠ k := fun k' hk' h => hk (h ▸ hk')
      refine ((List.forall₂_and_left _ _).2 ⟨hlater, ih hks (by simpa using hlen)⟩).imp ?_
      rintro k' v' ⟨hne, hget⟩
      rw [List.zip_cons_cons, get?_record_cons_of_ne hne]
      exact hget

theorem get?_record_of_not_mem {fields : List (String × Value)} {k : String}
    (h : k ∉ fields.map Prod.fst) : (record fields).get? k = none := by
  induction fields with
  | nil => rfl
  | cons f fields ih =>
    simp only [List.map_cons, List.mem_cons, not_or] at h
    rw [show f = (f.1, f.2) from rfl, get?_record_cons_of_ne h.1]
    exact ih h.2

end Value

namespace Metadata

/-- The table keys a document lacks, in table order. -/
def absentKeys (doc : Value) : List String := keys.filter (fun k => !doc.has k)

/-- The metadata as a document of decimal texts, as a store that keeps only texts holds it. -/
def toTextDocument (m : Metadata) : Value :=
  Value.record (keys.zip (m.values.map (fun n => Value.str (Json.intText n))))

theorem keys_nodup : keys.Nodup := by decide

theorem length_values (m : Metadata) : m.values.length = keys.length := rfl

theorem ofValues_values (m : Metadata) : ofValues m.values = m := by
  cases m with
  | mk a b c d e f g h i j k => cases i <;> rfl

theorem values_ofValues {ns : List Int} (h : ns.length = keys.length) :
    (ofValues ns).values = List.zipWith
      (fun k n => if k = "is_bidirectional_decoder" then (if n = 0 then 0 else 1) else n) keys ns := by
  match ns, h with
  | [a, b, c, d, e, f, g, h, i, j, k], _ =>
    by_cases hi : i = 0 <;> simp [ofValues, values, keys, hi]

theorem contains_map (es : List (Value × Value)) (k : String) :
    contains (.map es) k = .ok ((Value.map es).has k) := rfl

theorem lookup_map {es : List (Value × Value)} {k : String} {v : Value}
    (h : (Value.map es).get? k = some v) : lookup (.map es) k = .ok v := by
  simp [lookup, h]

theorem lookup_bind_fieldValue {es : List (Value × Value)} {k : String} {v : Value}
    (h : (Value.map es).get? k = some v) : lookup (.map es) k >>= fieldValue k = fieldValue k v := by
  rw [lookup_map h]
  rfl

theorem lookup_map_eq_ok {es : List (Value × Value)} {k : String} {v : Value} :
    lookup (.map es) k = .ok v ↔ (Value.map es).get? k = some v := by
  constructor
  · intro h
    cases hk : (Value.map es).get? k with
    | none => simp [lookup, hk] at h
    | some w => simpa [lookup, hk] using h
  · exact lookup_map

theorem filterMap_zip_map_eq_filter {α : Type} (l : List α) (p : α → Bool) :
    (l.zip (l.map p)).filterMap (fun q => if q.2 then none else some q.1) =
      l.filter (fun a => !p a) := by
  induction l with
  | nil => rfl
  | cons a l ih => cases h : p a <;> simp [h, ih]

theorem absentKeys_eq_nil {doc : Value} :
    absentKeys doc = [] ↔ ∀ k ∈ keys, ∃ v, doc.get? k = some v := by
  simp [absentKeys, List.filter_eq_nil_iff, Value.has, Option.ne_none_iff_exists']

theorem ofDocument_map (es : List (Value × Value)) :
    ofDocument (.map es) =
      if absentKeys (.map es) ≠ [] then .error (.missingKeys (absentKeys (.map es)))
      else keys.mapM (fun k => lookup (.map es) k >>= fieldValue k) >>= fun vs =>
        if (ofValues vs).heads ≤ 0 ∨ (ofValues vs).numBlocks < 0 then
          .error (.badGeometry (ofValues vs).heads (ofValues vs).numBlocks)
        else .ok (ofValues vs) := by
  rw [ofDocument, mapM_eq_ok_map (fun k _ => contains_map es k)]
  simp only [bind, Except.bind, filterMap_zip_map_eq_filter]
  rw [show keys.filter (fun a => !(Value.map es).has a) = absentKeys (.map es) from rfl]
  by_cases habs : absentKeys (.map es) = []
  · simp only [habs, List.isEmpty_nil, Bool.not_true, Bool.false_eq_true, ↓reduceIte, ne_eq,
      not_true_eq_false, Bool.or_eq_true, decide_eq_true_eq]
    rfl
  · have hne : (absentKeys (.map es)).isEmpty = false := List.isEmpty_eq_false_iff.2 habs
    simp only [hne, Bool.not_false, ↓reduceIte, ne_eq, habs, not_false_eq_true]
    rfl

/-! ### Values -/

theorem fieldValue_str_eq_ok {k s : String} {n : Int} :
    fieldValue k (.str s) = .ok n ↔ Text.readInt s = .value n := by
  unfold fieldValue
  dsimp only
  rw [Text.readInt_stripBlank]
  cases Text.readInt s <;> simp

theorem fieldValue_eq_ok_iff {k : String} {v : Value} {n : Int} :
    fieldValue k v = .ok n ↔ (∃ b, v = .bool b ∧ n = if b then 1 else 0) ∨ v = .int n ∨
      ∃ s neg ds, v = .str s ∧ Text.SignedRun (Text.stripBlank s).toList neg ds ∧
        ds.length ≤ Text.digitLimit ∧ n = Text.signedValue neg ds := by
  cases v with
  | str s => simp [fieldValue_str_eq_ok, Text.readInt_eq_value_iff]
  | _ =>
    unfold fieldValue
    simp [eq_comm]

theorem fieldValue_eq_error {k : String} {v : Value} {f : Fault} (h : fieldValue k v = .error f) :
    f = .notAnInteger k v := by
  unfold fieldValue at h
  split at h
  · cases h
  · cases h
  · split at h
    · cases h
    · cases h
      rfl
  · cases h
    rfl

theorem fieldValue_of_rejected {k : String} {v : Value} (h : ∀ n, fieldValue k v ≠ .ok n) :
    fieldValue k v = .error (.notAnInteger k v) := by
  cases hv : fieldValue k v with
  | error f => rw [fieldValue_eq_error hv]
  | ok n => exact absurd hv (h n)

/-! ### The outcomes of reading a mapping -/

theorem ofDocument_of_absent {es : List (Value × Value)} (h : absentKeys (.map es) ≠ []) :
    ofDocument (.map es) = .error (.missingKeys (absentKeys (.map es))) := by
  rw [ofDocument_map, if_pos h]

theorem ofDocument_of_rejected {es : List (Value × Value)} {pre post : List String} {k : String}
    {v : Value} (hkeys : keys = pre ++ k :: post) (hall : absentKeys (.map es) = [])
    (hpre : ∀ k' ∈ pre, ∃ v' n, (Value.map es).get? k' = some v' ∧ fieldValue k' v' = .ok n)
    (hk : (Value.map es).get? k = some v) (hbad : ∀ n, fieldValue k v ≠ .ok n) :
    ofDocument (.map es) = .error (.notAnInteger k v) := by
  have hread : keys.mapM (fun k => lookup (.map es) k >>= fieldValue k) =
      .error (.notAnInteger k v) := by
    rw [hkeys]
    refine mapM_append_cons_error (fun k' hk' => ?_) ?_
    · obtain ⟨v', n, hget, hn⟩ := hpre k' hk'
      exact ⟨n, by rw [lookup_bind_fieldValue hget, hn]⟩
    · rw [lookup_bind_fieldValue hk, fieldValue_of_rejected hbad]
  rw [ofDocument_map, if_neg (by simp [hall]), hread, Except.error_bind]

theorem ofDocument_of_parsed {es : List (Value × Value)} {ns : List Int}
    (h : List.Forall₂ (fun k n => ∃ v, (Value.map es).get? k = some v ∧ fieldValue k v = .ok n)
      keys ns) :
    ofDocument (.map es) =
      if (ofValues ns).heads ≤ 0 ∨ (ofValues ns).numBlocks < 0 then
        .error (.badGeometry (ofValues ns).heads (ofValues ns).numBlocks)
      else .ok (ofValues ns) := by
  have hall : absentKeys (.map es) = [] := by
    rw [absentKeys_eq_nil]
    intro k hk
    obtain ⟨n, v, hget, -⟩ := exists_of_forall₂_of_mem h k hk
    exact ⟨v, hget⟩
  have hread : keys.mapM (fun k => lookup (.map es) k >>= fieldValue k) = .ok ns :=
    mapM_of_forall₂ (h.imp fun _ _ ⟨_, hget, hn⟩ => by rw [lookup_bind_fieldValue hget, hn])
  rw [ofDocument_map, if_neg (by simp [hall]), hread, Except.ok_bind]

theorem ofDocument_fault {es : List (Value × Value)} {f : Fault}
    (h : ofDocument (.map es) = .error f) :
    f = .missingKeys (absentKeys (.map es)) ∨ (∃ k v, f = .notAnInteger k v) ∨
      ∃ heads blocks, f = .badGeometry heads blocks := by
  rw [ofDocument_map] at h
  split at h
  · cases h
    exact .inl rfl
  · rename_i hpresent
    cases hread : keys.mapM (fun k => lookup (.map es) k >>= fieldValue k) with
    | error e =>
      rw [hread] at h
      cases h
      obtain ⟨pre, k, post, hkeys, -, hk⟩ := mapM_eq_error hread
      have hmem : k ∈ keys := by simp [hkeys]
      obtain ⟨v, hget⟩ := absentKeys_eq_nil.1 (not_not.1 hpresent) k hmem
      rw [lookup_bind_fieldValue hget] at hk
      exact .inr (.inl ⟨k, v, fieldValue_eq_error hk⟩)
    | ok vs =>
      rw [hread, Except.ok_bind] at h
      split at h
      · cases h
        exact .inr (.inr ⟨_, _, rfl⟩)
      · cases h

theorem eq_map_of_ofDocument_eq_ok {s : Value} {m : Metadata} (h : ofDocument s = .ok m) :
    ∃ es, s = .map es := by
  unfold ofDocument at h
  obtain ⟨present, -, h⟩ := Except.bind_eq_ok.1 h
  obtain ⟨-, h⟩ := Except.ite_throw_eq_ok h
  obtain ⟨vs, hvs, -⟩ := Except.bind_eq_ok.1 h
  have hread := mapM_forall₂_of_ok hvs
  unfold keys at hread
  cases hread with
  | cons hfirst _ =>
    obtain ⟨v, hlookup, -⟩ := Except.bind_eq_ok.1 hfirst
    cases s with
    | map es => exact ⟨es, rfl⟩
    | _ => cases hlookup

theorem ofDocument_eq_ok {s : Value} {m : Metadata} (h : ofDocument s = .ok m) :
    ∃ es ns, s = .map es ∧
      List.Forall₂ (fun k n => ∃ v, s.get? k = some v ∧ fieldValue k v = .ok n) keys ns ∧
      m = ofValues ns ∧ 0 < m.heads ∧ 0 ≤ m.numBlocks := by
  obtain ⟨es, rfl⟩ := eq_map_of_ofDocument_eq_ok h
  rw [ofDocument_map] at h
  split at h
  · cases h
  · cases hread : keys.mapM (fun k => lookup (.map es) k >>= fieldValue k) with
    | error e =>
      rw [hread] at h
      cases h
    | ok vs =>
      rw [hread, Except.ok_bind] at h
      split at h
      · cases h
      · rename_i hgeom
        cases h
        refine ⟨es, vs, rfl, (mapM_forall₂_of_ok hread).imp fun _ _ hk => ?_, rfl, by omega, by omega⟩
        obtain ⟨v, hv, hn⟩ := Except.bind_eq_ok.1 hk
        exact ⟨v, lookup_map_eq_ok.1 hv, hn⟩

theorem ofDocument_congr {es es' : List (Value × Value)}
    (h : ∀ k ∈ keys, (Value.map es).get? k = (Value.map es').get? k) :
    ofDocument (.map es) = ofDocument (.map es') := by
  have habsent : absentKeys (.map es) = absentKeys (.map es') :=
    List.filter_congr fun k hk => by simp [Value.has, h k hk]
  have hread : keys.mapM (fun k => lookup (.map es) k >>= fieldValue k) =
      keys.mapM (fun k => lookup (.map es') k >>= fieldValue k) :=
    mapM_congr_of_mem fun k hk => by simp only [lookup, h k hk]
  rw [ofDocument_map, ofDocument_map, habsent, hread]

/-! ### Writing metadata -/

theorem withChunking_self (m : Metadata) : m.withChunking m.chunkSize m.leftChunks = m := by
  cases m
  rfl

theorem get?_toDocument (m : Metadata) :
    List.Forall₂ (fun k n => m.toDocument.get? k = some (.int n)) keys m.values := by
  have h : List.Forall₂ (fun k v => m.toDocument.get? k = some v) keys (m.values.map Value.int) :=
    Value.get?_record_zip keys_nodup (by simp [length_values])
  rwa [List.forall₂_map_right_iff] at h

theorem get?_toTextDocument (m : Metadata) :
    List.Forall₂ (fun k n => m.toTextDocument.get? k = some (.str (Json.intText n))) keys
      m.values := by
  have h : List.Forall₂ (fun k v => m.toTextDocument.get? k = some v) keys
      (m.values.map fun n => .str (Json.intText n)) :=
    Value.get?_record_zip keys_nodup (by simp [length_values])
  rwa [List.forall₂_map_right_iff] at h

theorem get?_toDocument_of_not_mem (m : Metadata) {k : String} (hk : k ∉ keys) :
    m.toDocument.get? k = none :=
  Value.get?_record_of_not_mem (by rwa [List.map_fst_zip (by simp [length_values])])

theorem ofDocument_toDocument_eq (m : Metadata) :
    ofDocument m.toDocument =
      if m.heads ≤ 0 ∨ m.numBlocks < 0 then .error (.badGeometry m.heads m.numBlocks)
      else .ok m := by
  have hparsed : List.Forall₂ (fun k n => ∃ v, m.toDocument.get? k = some v ∧
      fieldValue k v = .ok n) keys m.values :=
    (get?_toDocument m).imp fun _ n hget => ⟨.int n, hget, rfl⟩
  unfold toDocument Value.record at hparsed ⊢
  rw [ofDocument_of_parsed hparsed, ofValues_values]

theorem ofDocument_toDocument {m : Metadata} (hheads : 0 < m.heads) (hblocks : 0 ≤ m.numBlocks) :
    ofDocument m.toDocument = .ok m := by
  rw [ofDocument_toDocument_eq, if_neg (by omega)]

theorem ofDocument_toTextDocument {m : Metadata} (hheads : 0 < m.heads)
    (hblocks : 0 ≤ m.numBlocks) (hdigits : ∀ n ∈ m.values, n.natAbs < 10 ^ Text.digitLimit) :
    ofDocument m.toTextDocument = .ok m := by
  have hparsed : List.Forall₂ (fun k n => ∃ v, m.toTextDocument.get? k = some v ∧
      fieldValue k v = .ok n) keys m.values :=
    (forall₂_and_mem_right (get?_toTextDocument m) hdigits).imp fun _ _ ⟨hget, hn⟩ =>
      ⟨_, hget, fieldValue_str_eq_ok.2 (Text.readInt_intText hn)⟩
  unfold toTextDocument Value.record at hparsed ⊢
  rw [ofDocument_of_parsed hparsed, ofValues_values, if_neg (by omega)]

theorem toDocument_of_ofDocument {s : Value} {m : Metadata} (h : ofDocument s = .ok m) :
    ∀ k ∈ keys, ∃ v n, s.get? k = some v ∧ fieldValue k v = .ok n ∧
      m.toDocument.get? k =
        some (.int (if k = "is_bidirectional_decoder" then (if n = 0 then 0 else 1) else n)) := by
  obtain ⟨es, ns, rfl, hparsed, rfl, -, -⟩ := ofDocument_eq_ok h
  have hwritten := get?_toDocument (ofValues ns)
  rw [values_ofValues hparsed.length_eq.symm] at hwritten
  have hboth := forall₂_and hparsed (forall₂_of_zipWith hparsed.length_eq hwritten)
  intro k hk
  obtain ⟨n, ⟨v, hget, hn⟩, hw⟩ := exists_of_forall₂_of_mem hboth k hk
  exact ⟨v, n, hget, hn, hw⟩

/-! ### YAML files -/

theorem ofYaml_of_mapping {text : String} {es : List (Value × Value)}
    (h : Yaml.parse text = .ok (.map es)) :
    ofYaml text = ofDocument (((Value.map es).get? "metadata").getD (.map es)) := by
  unfold ofYaml
  rw [h]
  by_cases hes : es = []
  · subst hes
    rfl
  · have htruthy : (Value.map es).truthy = true := by simp [Value.truthy, hes]
    cases hget : (Value.map es).get? "metadata" with
    | none => simp [htruthy, contains, Value.has, hget]
    | some v => simp [htruthy, contains, Value.has, hget, lookup]

theorem ofYaml_of_empty {text : String} {doc : Value} (h : Yaml.parse text = .ok doc)
    (hempty : doc.truthy = false) : ofYaml text = ofDocument (.map []) := by
  unfold ofYaml
  rw [h]
  simp [hempty, contains, Value.has, Value.get?]

/-- Reading metadata accepts exactly the documented mappings. When table keys are absent, all of
them are reported, in table order. Otherwise the first value in table order that is no integer
is reported with its key: a truth value counts as `0` or `1`, an integer as itself, and a text
as the integer it writes when, without the blanks at its ends, it is an integer text of at most
`digitLimit` digits. Otherwise an encoder without heads or with a negative block count is
refused, and the metadata of the values is returned. Keys outside the table never matter, and
every fault is a metadata fault. A YAML file reads as its top-level mapping, or as that
mapping's `metadata` section when it has one, and an empty one as an empty mapping. -/
theorem metadata_reading_contract (es : List (Value × Value)) :
    let doc := Value.map es
    (absentKeys doc ≠ [] →
      ofDocument doc = .error (.missingKeys (absentKeys doc)) ∧
        (Fault.missingKeys (absentKeys doc)).message? =
          some ("Missing metadata keys: " ++ Literal.texts (absentKeys doc))) ∧
    (∀ pre k post v, keys = pre ++ k :: post → absentKeys doc = [] →
      (∀ k' ∈ pre, ∃ v' n, doc.get? k' = some v' ∧ fieldValue k' v' = .ok n) →
      doc.get? k = some v → (∀ n, fieldValue k v ≠ .ok n) →
      ofDocument doc = .error (.notAnInteger k v)) ∧
    (∀ k v n, fieldValue k v = .ok n ↔ (∃ b, v = .bool b ∧ n = if b then 1 else 0) ∨
      v = .int n ∨ ∃ s neg ds, v = .str s ∧ Text.SignedRun (Text.stripBlank s).toList neg ds ∧
        ds.length ≤ Text.digitLimit ∧ n = Text.signedValue neg ds) ∧
    (∀ ns, List.Forall₂ (fun k n => ∃ v, doc.get? k = some v ∧ fieldValue k v = .ok n) keys ns →
      ofDocument doc =
        (if (ofValues ns).heads ≤ 0 ∨ (ofValues ns).numBlocks < 0 then
          .error (.badGeometry (ofValues ns).heads (ofValues ns).numBlocks)
        else .ok (ofValues ns)) ∧
      (Fault.badGeometry (ofValues ns).heads (ofValues ns).numBlocks).message? =
        some ("Invalid encoder geometry: head=" ++ Json.intText (ofValues ns).heads ++
          ", num_blocks=" ++ Json.intText (ofValues ns).numBlocks)) ∧
    (∀ es', (∀ k ∈ keys, doc.get? k = (Value.map es').get? k) →
      ofDocument (.map es') = ofDocument doc) ∧
    (∀ f, ofDocument doc = .error f → f.kind = "MetadataError") ∧
    (∀ text, Yaml.parse text = .ok doc →
      ofYaml text = ofDocument ((doc.get? "metadata").getD doc)) ∧
    (∀ text d, Yaml.parse text = .ok d → d.truthy = false → ofYaml text = ofDocument (.map [])) := by
  intro doc
  refine ⟨fun h => ⟨ofDocument_of_absent h, rfl⟩,
    fun _ _ _ _ hkeys hall hpre hk hbad => ofDocument_of_rejected hkeys hall hpre hk hbad,
    fun _ _ _ => fieldValue_eq_ok_iff, fun _ h => ⟨ofDocument_of_parsed h, rfl⟩,
    fun _ h => (ofDocument_congr h).symm, fun f h => ?_, fun _ h => ofYaml_of_mapping h,
    fun _ _ h hempty => ofYaml_of_empty h hempty⟩
  rcases ofDocument_fault h with rfl | ⟨k, v, rfl⟩ | ⟨heads, blocks, rfl⟩ <;> rfl

/-- The fields of a model's metadata, as the test data writes them. -/
def sampleFields : List (String × Value) :=
  [("output_size", .int 256), ("num_blocks", .int 12), ("head", .int 4),
    ("cnn_module_kernel", .int 15), ("subsampling_rate", .int 4), ("right_context", .int 6),
    ("sos_symbol", .int 2), ("eos_symbol", .int 2), ("is_bidirectional_decoder", .bool false),
    ("chunk_size", .int 16), ("left_chunks", .int 4)]

/-- Each stage of reading on the sample fields: with only the first field every other key is
missing, a metadata fault; a first value that is no integer is reported under its key; with no
head the geometry is refused; the fields in reverse order read as the model's metadata; a
`metadata` section is read in place of the file; and an empty file is an empty mapping. -/
theorem metadata_reading_contract_stages :
    ofDocument (Value.record (sampleFields.take 1)) = .error (.missingKeys (keys.drop 1)) ∧
    (∃ f, ofDocument (Value.record (sampleFields.take 1)) = .error f ∧ f.kind = "MetadataError") ∧
    ofDocument (Value.record (("output_size", .str "wide") :: sampleFields.drop 1)) =
      .error (.notAnInteger "output_size" (.str "wide")) ∧
    ofDocument (Value.record (sampleFields.set 2 ("head", .int 0))) = .error (.badGeometry 0 12) ∧
    ofDocument (Value.record sampleFields.reverse) = .ok ⟨256, 12, 4, 15, 4, 6, 2, 2, false, 16, 4⟩ ∧
    ofYaml "metadata:\n  output_size: 256\n" = ofDocument (Value.record (sampleFields.take 1)) ∧
    ofYaml "" = ofDocument (.map []) := by
  obtain ⟨hmissing, -, -, -, -, hkind, -, -⟩ :=
    metadata_reading_contract ((sampleFields.take 1).map (fun f => (.str f.1, f.2)))
  obtain ⟨-, hrejected, -⟩ := metadata_reading_contract
    ((("output_size", .str "wide") :: sampleFields.drop 1).map (fun f => (.str f.1, f.2)))
  obtain ⟨-, -, -, hheadless, -⟩ := metadata_reading_contract
    ((sampleFields.set 2 ("head", .int 0)).map (fun f => (.str f.1, f.2)))
  obtain ⟨-, -, -, hparsed, hcongr, -⟩ :=
    metadata_reading_contract (sampleFields.map (fun f => (.str f.1, f.2)))
  obtain ⟨-, -, -, -, -, -, hsection, -⟩ :=
    metadata_reading_contract [(.str "metadata", Value.record (sampleFields.take 1))]
  obtain ⟨-, -, -, -, -, -, -, hempty⟩ := metadata_reading_contract []
  have hmiss := (hmissing (by decide)).1
  refine ⟨hmiss, ⟨_, hmiss, hkind _ hmiss⟩, ?_, ?_, ?_, ?_, ?_⟩
  · exact hrejected [] "output_size" keys.tail _ rfl (by decide) (by simp) rfl
      (fun n h => by cases h)
  · refine (hheadless [256, 12, 0, 15, 4, 6, 2, 2, 0, 16, 4] ?_).1.trans rfl
    unfold keys
    repeat (first | exact .nil | refine .cons ⟨_, rfl, rfl⟩ ?_)
  · have hsame : ∀ k ∈ keys, (Value.record sampleFields).get? k =
        (Value.record sampleFields.reverse).get? k := by
      intro k hk
      simp only [keys, List.mem_cons, List.not_mem_nil, or_false] at hk
      rcases hk with h | h | h | h | h | h | h | h | h | h | h <;> subst h <;> rfl
    refine (hcongr _ hsame).trans ((hparsed [256, 12, 4, 15, 4, 6, 2, 2, 0, 16, 4] ?_).1.trans rfl)
    unfold keys
    repeat (first | exact .nil | refine .cons ⟨_, rfl, rfl⟩ ?_)
  · have hparse : Yaml.parse "metadata:\n  output_size: 256\n" =
        .ok (.map [(.str "metadata", Value.record (sampleFields.take 1))]) := by cbv
    exact (hsection _ hparse).trans rfl
  · exact hempty "" _ rfl rfl

/-- Metadata that reading returns, and the same metadata with any other chunking, read back from
their document of integers, and from their document of decimal texts when every value has at
most `digitLimit` digits, and rechunking them with their own chunking changes nothing. What
reading returns writes back, key by key, the integer each value was read as, the flag as `0` or
`1`, and nothing under other keys. -/
theorem metadata_round_trips {s : Value} {m : Metadata} (hs : ofDocument s = .ok m) :
    (∀ m', (m' = m ∨ ∃ c l, m' = m.withChunking c l) →
      ofDocument m'.toDocument = .ok m' ∧
        ((∀ n ∈ m'.values, n.natAbs < 10 ^ Text.digitLimit) →
          ofDocument m'.toTextDocument = .ok m') ∧
        m'.withChunking m'.chunkSize m'.leftChunks = m') ∧
    (∀ k ∈ keys, ∃ v n, s.get? k = some v ∧ fieldValue k v = .ok n ∧
      m.toDocument.get? k =
        some (.int (if k = "is_bidirectional_decoder" then (if n = 0 then 0 else 1) else n))) ∧
    (∀ k, k ∉ keys → m.toDocument.get? k = none) := by
  obtain ⟨-, -, -, -, -, hheads, hblocks⟩ := ofDocument_eq_ok hs
  refine ⟨fun m' hm' => ?_, toDocument_of_ofDocument hs,
    fun _ hk => get?_toDocument_of_not_mem m hk⟩
  have hgeom : 0 < m'.heads ∧ 0 ≤ m'.numBlocks := by
    rcases hm' with rfl | ⟨c, l, rfl⟩
    · exact ⟨hheads, hblocks⟩
    · exact ⟨hheads, hblocks⟩
  exact ⟨ofDocument_toDocument hgeom.1 hgeom.2, ofDocument_toTextDocument hgeom.1 hgeom.2,
    withChunking_self m'⟩

/-- A mapping in the form of the test data, with an underscore, blanks, a truth value, a flag
other than `1`, a negative value and a key outside the table. -/
theorem metadata_round_trips_on_mixed_values :
    let s := Value.record [("output_size", .str "2_56"), ("num_blocks", .int 12),
      ("head", .str " 4\n"), ("cnn_module_kernel", .int 15), ("subsampling_rate", .bool true),
      ("right_context", .int 6), ("sos_symbol", .int 2), ("eos_symbol", .str "-2"),
      ("is_bidirectional_decoder", .int 7), ("chunk_size", .int 16), ("left_chunks", .int (-1)),
      ("extra", .null)]
    let m : Metadata := ⟨256, 12, 4, 15, 1, 6, 2, -2, true, 16, -1⟩
    ofDocument s = .ok m ∧
    (∀ m', (m' = m ∨ ∃ c l, m' = m.withChunking c l) →
      ofDocument m'.toDocument = .ok m' ∧
        ((∀ n ∈ m'.values, n.natAbs < 10 ^ Text.digitLimit) →
          ofDocument m'.toTextDocument = .ok m') ∧
        m'.withChunking m'.chunkSize m'.leftChunks = m') ∧
    (∀ k ∈ keys, ∃ v n, s.get? k = some v ∧ fieldValue k v = .ok n ∧
      m.toDocument.get? k =
        some (.int (if k = "is_bidirectional_decoder" then (if n = 0 then 0 else 1) else n))) ∧
    (∀ k, k ∉ keys → m.toDocument.get? k = none) :=
  ⟨rfl, metadata_round_trips rfl⟩

end Metadata

end SpeechStream
