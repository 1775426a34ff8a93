import Motion.Json.Batch
import Motion.Proofs.Json.Range

namespace Motion.Json

/-- A batch is read as the items of an array are. -/
theorem readBatchItems_mapError {α : Type} (item : Reader α) (fuel : Nat) (seen : List α)
    (cs : List Char) :
    readBatchItems (fun cs => (item cs).mapError .malformed) fuel seen cs =
      (readItems item fuel seen cs).mapError .malformed := by
  induction fuel generalizing seen cs with
  | zero => rfl
  | succ fuel ih =>
    rw [readBatchItems, readItems]
    cases nextItem seen.isEmpty cs with
    | error f => rfl
    | ok next =>
      obtain ⟨more, r⟩ := next
      cases more with
      | false => rfl
      | true =>
        dsimp only
        cases item r with
        | error f => rfl
        | ok found =>
          obtain ⟨a, r⟩ := found
          exact ih (a :: seen) r

def Value.IsArray : Value → Prop
  | .array _ => True
  | _ => False

theorem not_isArray_of_readNumber {negative : Bool} {cs r : List Char} {v : Value}
    (h : readNumber negative cs = .ok (v, r)) : ¬v.IsArray := by
  obtain ⟨n, hvalue⟩ := yields_readNumber negative h
  rcases numeralValue_cases hvalue with ⟨k, rfl, -⟩ | ⟨x, rfl, -⟩
  · exact id
  · exact id

/-- Only a bracket begins an array. -/
theorem skipSpace_of_readValue_isArray {depth : Nat} {cs r : List Char} {v : Value}
    (h : readValue depth cs = .ok (v, r)) (hv : v.IsArray) : ∃ rest, skipSpace cs = '[' :: rest := by
  unfold readValue at h
  split at h
  · cases h
  · rw [yields_readWord _ _ h] at hv
    cases hv
  · rw [yields_readWord _ _ h] at hv
    cases hv
  · rw [yields_readWord _ _ h] at hv
    cases hv
  · exact absurd hv (not_isArray_of_readNumber h)
  · obtain ⟨⟨s, r'⟩, -, heq⟩ := map_eq_ok_iff.mp h
    cases heq
    cases hv
  · rename_i rest hbracket
    exact ⟨rest, hbracket⟩
  · split at h
    · cases h
    · obtain ⟨⟨es, r'⟩, -, heq⟩ := map_eq_ok_iff.mp h
      cases heq
      cases hv
  · split at h
    · exact absurd hv (not_isArray_of_readNumber h)
    · cases h

theorem readValue_of_bracket (depth : Nat) {cs rest : List Char}
    (h : skipSpace cs = '[' :: rest) :
    readValue (depth + 1) cs =
      (readItems (readValue depth) (rest.length + 1) [] rest).map fun (vs, r) => (.array vs, r) := by
  rw [readValue, h]
  rfl

theorem readBatch_of_bracket {text : String} {rest : List Char}
    (h : skipSpace text.toList = '[' :: rest) :
    readBatch .memory readAny text =
      ((readItems (readValue (maxDepth - 1)) (rest.length + 1) [] rest).bind fun (vs, r) =>
        readEnd vs r).mapError .malformed := by
  have hitems := readBatchItems_mapError (readValue (maxDepth - 1)) (rest.length + 1) [] rest
  simp only [readBatch, h]
  rw [show readBatchItems readAny (rest.length + 1) [] rest = _ from hitems]
  cases readItems (readValue (maxDepth - 1)) (rest.length + 1) [] rest with
  | error f => rfl
  | ok found => rfl

theorem readScalar_ne_ok {α : Type} {source : Source} {item : Decode.Decoder α} {cs : List Char}
    {found : α × List Char} (hitem : ∀ v, ∃ e, item v = .error e) :
    readScalar source item cs ≠ .ok found := by
  intro h
  unfold readScalar at h
  dsimp only at h
  split at h
  · cases h
  · rename_i v r _
    obtain ⟨e, he⟩ := hitem v
    rw [he] at h
    cases h

/-- What does not begin with a bracket is no batch. -/
theorem readBatch_ne_ok {text : String} (h : ¬∃ rest, skipSpace text.toList = '[' :: rest)
    (vs : List Value) : readBatch .memory readAny text ≠ .ok vs := by
  intro hread
  unfold readBatch at hread
  split at hread
  · rename_i rest hbracket
    exact h ⟨rest, hbracket⟩
  · obtain ⟨found, hfound, -⟩ := map_eq_ok_iff.mp hread
    exact readScalar_ne_ok (fun v => ⟨_, rfl⟩) hfound

theorem readDocument_of_bracket {text : String} {rest : List Char}
    (h : skipSpace text.toList = '[' :: rest) :
    readDocument text =
      ((readItems (readValue (maxDepth - 1)) (rest.length + 1) [] rest).bind fun (vs, r) =>
        readEnd (.array vs) r) := by
  have hvalue := readValue_of_bracket (maxDepth - 1) h
  rw [readDocument, show readValue maxDepth text.toList = _ from hvalue]
  cases readItems (readValue (maxDepth - 1)) (rest.length + 1) [] rest with
  | error f => rfl
  | ok found => rfl

/-- The texts that are batches of any values are the documents that are arrays. -/
theorem readBatch_readAny_iff (text : String) (vs : List Value) :
    readBatch .memory readAny text = .ok vs ↔ readDocument text = .ok (.array vs) := by
  by_cases hbracket : ∃ rest, skipSpace text.toList = '[' :: rest
  · obtain ⟨rest, hrest⟩ := hbracket
    rw [readBatch_of_bracket hrest, readDocument_of_bracket hrest, mapError_eq_ok_iff]
    cases readItems (readValue (maxDepth - 1)) (rest.length + 1) [] rest with
    | error f =>
      constructor
      · intro h
        cases h
      · intro h
        cases h
    | ok found =>
      obtain ⟨items, r⟩ := found
      change readEnd items r = .ok vs ↔ readEnd (Value.array items) r = .ok (Value.array vs)
      rw [readEnd_eq_ok_iff, readEnd_eq_ok_iff, Value.array.injEq]
  · constructor
    · intro h
      exact absurd h (readBatch_ne_ok hbracket vs)
    · intro h
      obtain ⟨⟨v, r⟩, hvalue, hend⟩ := bind_eq_ok_iff.mp h
      have harray : v.IsArray := by
        rw [(readEnd_eq_ok_iff.mp hend).2]
        trivial
      exact absurd (skipSpace_of_readValue_isArray hvalue harray) hbracket

end Motion.Json
