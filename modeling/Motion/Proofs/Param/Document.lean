import Motion.Proofs.Dictionary
import Motion.Proofs.Document

namespace Motion.Param
open Motion.Decode

namespace Value

/-- All numbers in a value are finite. -/
inductive Storable : Value → Prop
  | number {x : Float} (h : x.isFinite = true) : Storable (.number x)
  | text (s : String) : Storable (.text s)
  | list {items : List Value} (h : ∀ v ∈ items, Storable v) : Storable (.list items)

theorem itemsToJson_eq_map (items : List Value) : itemsToJson items = items.map toJson := by
  induction items with
  | nil => rfl
  | cons v vs ih => rw [itemsToJson, ih, List.map_cons]

theorem itemsOfJson?_cons_eq_some {w : Json.Value} {ws : List Json.Value} {vs : List Value} :
    itemsOfJson? (w :: ws) = some vs ↔
      ∃ x xs, ofJson? w = some x ∧ itemsOfJson? ws = some xs ∧ x :: xs = vs := by
  rw [itemsOfJson?]
  cases ofJson? w with
  | none => simp
  | some x => cases itemsOfJson? ws <;> simp

theorem forall_of_itemsOfJson? {P : Value → Prop} {ws : List Json.Value} {vs : List Value}
    (hP : ∀ w ∈ ws, ∀ v, ofJson? w = some v → P v) (h : itemsOfJson? ws = some vs) :
    ∀ v ∈ vs, P v := by
  induction ws generalizing vs with
  | nil =>
    cases h
    exact List.forall_mem_nil P
  | cons w ws ih =>
    obtain ⟨x, xs, hx, hxs, rfl⟩ := itemsOfJson?_cons_eq_some.mp h
    rw [List.forall_mem_cons] at hP ⊢
    exact ⟨hP.1 x hx, ih hP.2 hxs⟩

theorem itemsOfJson?_map {vs : List Value} (h : ∀ v ∈ vs, ofJson? v.toJson = some v) :
    itemsOfJson? (vs.map toJson) = some vs := by
  induction vs with
  | nil => rfl
  | cons v vs ih =>
    rw [List.forall_mem_cons] at h
    rw [List.map_cons, itemsOfJson?_cons_eq_some]
    exact ⟨v, vs, h.1, ih h.2, rfl⟩

theorem ofJson?_toJson {v : Value} (h : v.Storable) : ofJson? v.toJson = some v := by
  induction h with
  | number hx =>
    rw [toJson, Json.Value.ofDouble, if_pos hx]
    rfl
  | text s => rfl
  | list _ ih => rw [toJson, itemsToJson_eq_map, ofJson?, itemsOfJson?_map ih, Option.map_some]

theorem storable_of_ofJson? {w : Json.Value} (hw : w.InRange) {v : Value} (h : ofJson? w = some v) :
    v.Storable := by
  induction hw generalizing v with
  | integer hlow hhigh =>
    cases h
    exact .number (Number.isFinite_ofInt hlow hhigh)
  | float hx =>
    cases h
    exact .number hx
  | string s =>
    cases h
    exact .text s
  | array hitems ih =>
    obtain ⟨vs, hvs, rfl⟩ := Option.map_eq_some_iff.mp h
    exact .list (forall_of_itemsOfJson? (fun w hw _ => ih w hw) hvs)
  | _ => cases h

theorem decode_eq_ok_iff {w : Json.Value} {v : Value} : decode w = .ok v ↔ ofJson? w = some v := by
  unfold decode
  cases ofJson? w with
  | none => simp
  | some x => simp

theorem decode_toJson {v : Value} (h : v.Storable) : decode v.toJson = .ok v :=
  decode_eq_ok_iff.mpr (ofJson?_toJson h)

theorem storable_of_decode {w : Json.Value} (hw : w.InRange) {v : Value} (h : decode w = .ok v) :
    v.Storable := storable_of_ofJson? hw (decode_eq_ok_iff.mp h)

end Value

namespace Map

/-- All values are storable. -/
def Storable (m : Map) : Prop := ∀ e ∈ m.entries, e.2.Storable

theorem storable_empty : Storable .empty := List.forall_mem_nil _

theorem decode_toJson {m : Map} (h : m.Storable) : decode m.toJson = .ok m := by
  have hread : Decode.entries "a map of parameter names to numbers, formulas or lists" Value.decode
      m.toJson = .ok m.entries :=
    entries_object fun e he => Value.decode_toJson (h e he)
  unfold decode
  dsimp only
  rw [hread]
  exact congrArg Except.ok m.ofList_entries

theorem storable_of_decode {w : Json.Value} (hw : w.InRange) {m : Map} (h : decode w = .ok m) :
    m.Storable := by
  obtain ⟨declarations, hread, h⟩ := bind_eq_ok_iff.mp h
  cases h
  exact Dictionary.forall_mem_ofList
    (forall_of_entries (fun _ _ hw' => Value.storable_of_decode hw') hw hread)

end Map

end Motion.Param
