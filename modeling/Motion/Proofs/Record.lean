import Mathlib.Data.List.Forall2
import Motion.Decode
import Motion.Proofs.Outcome

namespace Motion.Decode
open Motion.Json (Value)

theorem forall₂_of_mapM {ε α β : Type} {f : α → Except ε β} {xs : List α} {ys : List β}
    (h : xs.mapM f = .ok ys) : List.Forall₂ (fun x y => f x = .ok y) xs ys := by
  induction xs generalizing ys with
  | nil =>
    cases h
    exact .nil
  | cons x xs ih =>
    rw [List.mapM_cons] at h
    obtain ⟨y, hy, h⟩ := bind_eq_ok_iff.mp h
    obtain ⟨rest, hrest, h⟩ := bind_eq_ok_iff.mp h
    cases h
    exact .cons hy (ih hrest)

theorem mapM_of_forall₂ {ε α β : Type} {f : α → Except ε β} {xs : List α} {ys : List β}
    (h : List.Forall₂ (fun x y => f x = .ok y) xs ys) : xs.mapM f = .ok ys := by
  induction h with
  | nil => rfl
  | cons hfirst _ ih =>
    rw [List.mapM_cons, hfirst, ih]
    rfl

namespace Shape

variable {σ : Type} {s : Shape} {set : σ → String → Value → Except Error σ} {name : String}
  {P : Value → σ → Prop} {seen seen' : List String} {r r' : σ} {es : List (String × Value)}

/-- The entries of a record; the items of an array stand for its fields in order. -/
def entriesOf (s : Shape) : Value → List (String × Value)
  | .object es => es
  | .array vs => (s.fields.map (·.name)).zip vs
  | _ => []

/-- The first of some entries that is for a field. -/
def firstFor? (s : Shape) (name : String) (es : List (String × Value)) : Option (String × Value) :=
  es.find? fun e => s.field? e.1 == some name

/-- What a document says about a field. -/
def value? (s : Shape) (name : String) (v : Value) : Option Value :=
  (s.firstFor? name (s.entriesOf v)).map (·.2)

/-- Setting a field establishes a property of the record, and setting another one keeps it. -/
structure Settles (set : σ → String → Value → Except Error σ) (name : String)
    (P : Value → σ → Prop) : Prop where
  sets : ∀ r v r', set r name v = .ok r' → P v r'
  keeps : ∀ r other v w r', other ≠ name → set r other w = .ok r' → P v r → P v r'

theorem readFields_cons_ok {e : String × Value}
    (h : s.readFields set seen r (e :: es) = .ok (seen', r')) :
    (s.field? e.1 = none ∧ s.readFields set seen r es = .ok (seen', r')) ∨
      ∃ name r₁, s.field? e.1 = some name ∧ name ∉ seen ∧ set r name e.2 = .ok r₁ ∧
        s.readFields set (name :: seen) r₁ es = .ok (seen', r') := by
  obtain ⟨key, v⟩ := e
  rw [readFields] at h
  cases hkey : s.field? key with
  | none =>
    rw [hkey] at h
    exact Or.inl ⟨rfl, h⟩
  | some name =>
    rw [hkey] at h
    by_cases hseen : seen.contains name
    · simp only [hseen, if_true] at h
      cases h
    · simp only [hseen] at h
      obtain ⟨r₁, hset, h⟩ := bind_eq_ok_iff.mp h
      refine Or.inr ⟨name, r₁, rfl, ?_, hset, h⟩
      simpa using hseen

/-- A field that has been read is left alone. -/
theorem readFields_of_mem_seen (hP : Settles set name P) {v : Value} (hseen : name ∈ seen)
    (hr : P v r) (h : s.readFields set seen r es = .ok (seen', r')) : P v r' := by
  induction es generalizing seen r with
  | nil =>
    cases h
    exact hr
  | cons e es ih =>
    rcases readFields_cons_ok h with ⟨-, h⟩ | ⟨other, r₁, -, hnew, hset, h⟩
    · exact ih hseen hr h
    · have hother : other ≠ name := by
        intro heq
        rw [heq] at hnew
        exact hnew hseen
      exact ih (List.mem_cons_of_mem _ hseen) (hP.keeps r other v e.2 r₁ hother hset hr) h

/-- The first entry for a field settles it, and a field without one is not read. -/
theorem readFields_of_not_mem_seen (hP : Settles set name P) (hseen : name ∉ seen)
    (h : s.readFields set seen r es = .ok (seen', r')) :
    (∀ e, s.firstFor? name es = some e → P e.2 r') ∧ (s.firstFor? name es = none → name ∉ seen') := by
  induction es generalizing seen r with
  | nil =>
    cases h
    refine ⟨?_, fun _ => hseen⟩
    intro e he
    cases he
  | cons e es ih =>
    rcases readFields_cons_ok h with ⟨hkey, h⟩ | ⟨other, r₁, hkey, -, hset, h⟩
    · have hentry : s.firstFor? name (e :: es) = s.firstFor? name es := by
        rw [firstFor?, List.find?_cons, hkey]
        rfl
      rw [hentry]
      exact ih hseen h
    · by_cases hother : other = name
      · subst hother
        have hentry : s.firstFor? other (e :: es) = some e := by
          rw [firstFor?, List.find?_cons, hkey, beq_self_eq_true]
        rw [hentry]
        constructor
        · intro e' he'
          cases he'
          exact readFields_of_mem_seen hP List.mem_cons_self (hP.sets r e.2 r₁ hset) h
        · intro hnone
          cases hnone
      · have hentry : s.firstFor? name (e :: es) = s.firstFor? name es := by
          have hkey' : (s.field? e.1 == some name) = false := by
            rw [hkey]
            simpa using hother
          rw [firstFor?, List.find?_cons, hkey']
          rfl
        rw [hentry]
        apply ih _ h
        rw [List.mem_cons, not_or]
        exact ⟨Ne.symm hother, hseen⟩

theorem mem_seen_of_missing?_eq_none {f : Field} (hf : f ∈ s.fields) (hneeded : f.required = true)
    (h : s.missing? seen = none) : f.name ∈ seen := by
  rw [missing?, Option.map_eq_none_iff, List.find?_eq_none] at h
  have hnot := h f hf
  rw [hneeded, Bool.true_and, Bool.not_eq_true, Bool.not_eq_false', List.contains_iff_mem] at hnot
  exact hnot

/-- An array that is not too short for a record has an item for each needed field. -/
theorem mem_zip_of_shortage?_eq_none {f : Field} (hf : f ∈ s.fields) (hneeded : f.required = true)
    {vs : List Value} (h : s.shortage? vs.length = none) :
    ∃ w, (f.name, w) ∈ (s.fields.map (·.name)).zip vs := by
  rw [shortage?, Option.map_eq_none_iff, List.findIdx?_eq_none_iff] at h
  obtain ⟨i, hi, rfl⟩ := List.mem_iff_getElem.mp hf
  have hlt : i < vs.length := by
    by_contra hge
    have hdrop : s.fields[i] ∈ s.fields.drop vs.length := by
      rw [List.mem_iff_getElem]
      refine ⟨i - vs.length, by rw [List.length_drop]; omega, ?_⟩
      rw [List.getElem_drop]
      congr 1
      omega
    rw [h _ hdrop] at hneeded
    cases hneeded
  refine ⟨vs[i], ?_⟩
  rw [List.mem_iff_getElem]
  refine ⟨i, by rw [List.length_zip, List.length_map]; omega, ?_⟩
  rw [List.getElem_zip, List.getElem_map]

theorem exists_firstFor?_of_mem {f : Field} (hkey : s.field? f.name = some f.name) {w : Value}
    (h : (f.name, w) ∈ es) : ∃ e, s.firstFor? f.name es = some e := by
  apply Option.isSome_iff_exists.mp
  rw [firstFor?, List.find?_isSome]
  exact ⟨(f.name, w), h, by rw [hkey, beq_self_eq_true]⟩

/-- A record that can be read has what its document says about each field it cannot do without. -/
theorem of_record {f : Field} (hf : f ∈ s.fields) (hneeded : f.required = true)
    (hkey : s.field? f.name = some f.name) (hP : Settles set f.name P) {blank : σ} {v : Value}
    (h : s.record set blank v = .ok r) : ∃ w, s.value? f.name v = some w ∧ P w r := by
  cases v with
  | object es =>
    obtain ⟨⟨seen, r₁⟩, hread, h⟩ := bind_eq_ok_iff.mp h
    obtain ⟨hsome, hnone⟩ := readFields_of_not_mem_seen hP List.not_mem_nil hread
    dsimp only at h
    cases hmissing : s.missing? seen with
    | some name =>
      rw [hmissing] at h
      cases h
    | none =>
      rw [hmissing] at h
      cases h
      have hseen := mem_seen_of_missing?_eq_none hf hneeded hmissing
      obtain ⟨e, he⟩ : ∃ e, s.firstFor? f.name es = some e := by
        apply Option.ne_none_iff_exists'.mp
        intro hentry
        exact hnone hentry hseen
      refine ⟨e.2, ?_, hsome e he⟩
      rw [value?, entriesOf, he]
      rfl
  | array vs =>
    obtain ⟨⟨seen, r₁⟩, hread, h⟩ := bind_eq_ok_iff.mp h
    obtain ⟨hsome, -⟩ := readFields_of_not_mem_seen hP List.not_mem_nil hread
    dsimp only at h
    cases hshort : s.shortage? vs.length with
    | some e =>
      rw [hshort] at h
      cases h
    | none =>
      rw [hshort] at h
      obtain ⟨w, hw⟩ := mem_zip_of_shortage?_eq_none hf hneeded hshort
      obtain ⟨e, he⟩ := exists_firstFor?_of_mem hkey hw
      by_cases hlong : s.fields.length < vs.length
      · simp only [hlong, if_true] at h
        cases h
      · simp only [hlong, if_false] at h
        cases h
        refine ⟨e.2, ?_, hsome e he⟩
        rw [value?, entriesOf, he]
        rfl
  | _ => cases h

end Shape

end Motion.Decode
