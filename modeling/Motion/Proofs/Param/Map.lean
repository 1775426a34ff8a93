import Mathlib.Data.Finset.Card
import Motion.Proofs.Param.Document

/-! Parameter maps as what is left of a row of declarations. -/
namespace Motion.Param.Map

variable {declarations : List (String × Value)} {m : Map} {key k a b : String} {value v : Value}

def declaredNames (declarations : List (String × Value)) : List String := declarations.map Prod.fst

/-- A name was declared with a value, and not again behind that. -/
def LastDeclared (declarations : List (String × Value)) (k : String) (v : Value) : Prop :=
  ∃ before after, declarations = before ++ (k, v) :: after ∧ k ∉ declaredNames after

/-- What a row of declarations makes of a map. -/
inductive Built : List (String × Value) → Map → Prop
  | empty : Built [] .empty
  | ofList (declarations : List (String × Value)) : Built declarations (.ofList declarations)
  | decoded {fields : List (String × Json.Value)} {declarations : List (String × Value)} {m : Map}
    (hfields : List.Forall₂ (fun f d => f.1 = d.1 ∧ Value.decode f.2 = .ok d.2) fields declarations)
    (h : decode (.object fields) = .ok m) : Built declarations m
  | insert {declarations : List (String × Value)} {m : Map} (h : Built declarations m) (key : String)
    (value : Value) : Built (declarations ++ [(key, value)]) (m.insert key value)

theorem declaredNames_append_singleton :
    declaredNames (declarations ++ [(key, value)]) = declaredNames declarations ++ [key] :=
  List.map_append

theorem mem_declaredNames_of_lastDeclared (h : LastDeclared declarations k v) :
    k ∈ declaredNames declarations := by
  obtain ⟨before, after, rfl, -⟩ := h
  exact List.mem_map_of_mem (List.mem_append_right before List.mem_cons_self)

/-- One more declaration has the last word about its name and says nothing about others. -/
theorem lastDeclared_append_singleton :
    LastDeclared (declarations ++ [(key, value)]) k v ↔
      if key = k then value = v else LastDeclared declarations k v := by
  constructor
  · rintro ⟨before, after, heq, hafter⟩
    rcases List.eq_nil_or_concat' after with rfl | ⟨after, last, rfl⟩
    · obtain ⟨-, hlast⟩ := List.append_inj' heq rfl
      cases hlast
      rw [if_pos rfl]
    · rw [← List.cons_append, ← List.append_assoc] at heq
      obtain ⟨hrest, hlast⟩ := List.append_inj' heq rfl
      cases hlast
      rw [declaredNames_append_singleton, List.mem_append, List.mem_singleton, not_or] at hafter
      rw [if_neg (Ne.symm hafter.2)]
      exact ⟨before, after, hrest, hafter.1⟩
  · intro h
    split at h
    · rename_i heq
      subst heq h
      exact ⟨declarations, [], rfl, List.not_mem_nil⟩
    · rename_i hne
      obtain ⟨before, after, rfl, hafter⟩ := h
      refine ⟨before, after ++ [(key, value)], by simp, ?_⟩
      rw [declaredNames_append_singleton, List.mem_append, List.mem_singleton, not_or]
      exact ⟨hafter, Ne.symm hne⟩

/-- The first of two names was declared earlier for the first time. -/
def FirstBefore (declarations : List (String × Value)) (a b : String) : Prop :=
  (declaredNames declarations).idxOf a < (declaredNames declarations).idxOf b

theorem FirstBefore.append_singleton (ha : a ∈ declaredNames declarations)
    (hb : b ∈ declaredNames declarations) (h : FirstBefore declarations a b) :
    FirstBefore (declarations ++ [(key, value)]) a b := by
  unfold FirstBefore at *
  rwa [declaredNames_append_singleton, List.idxOf_append_of_mem ha, List.idxOf_append_of_mem hb]

theorem firstBefore_of_new (ha : a ∈ declaredNames declarations)
    (hnew : key ∉ declaredNames declarations) :
    FirstBefore (declarations ++ [(key, value)]) a key := by
  unfold FirstBefore
  rw [declaredNames_append_singleton, List.idxOf_append_of_mem ha,
    List.idxOf_append_of_notMem hnew]
  calc (declaredNames declarations).idxOf a
      < (declaredNames declarations).length := List.idxOf_lt_length_iff.mpr ha
    _ ≤ (declaredNames declarations).length + [key].idxOf key := Nat.le_add_right _ _

structure Keeps (declarations : List (String × Value)) (m : Map) : Prop where
  mem : ∀ k, k ∈ m.keys ↔ k ∈ declaredNames declarations
  order : m.keys.Pairwise (FirstBefore declarations)
  value : ∀ k v, m.get? k = some v ↔ LastDeclared declarations k v

theorem keeps_empty : Keeps [] .empty where
  mem _ := Iff.rfl
  order := List.Pairwise.nil
  value k v := by
    constructor
    · intro h
      cases h
    · intro h
      exact absurd (mem_declaredNames_of_lastDeclared h) List.not_mem_nil

theorem Keeps.insert (h : Keeps declarations m) (key : String) (value : Value) :
    Keeps (declarations ++ [(key, value)]) (m.insert key value) where
  mem k := by
    rw [Dictionary.keys_insert, declaredNames_append_singleton, List.mem_append, List.mem_singleton,
      ← h.mem]
    split
    · rename_i hmem
      constructor
      · exact Or.inl
      · rintro (hk | rfl)
        · exact hk
        · exact hmem
    · rw [List.mem_append, List.mem_singleton]
  order := by
    have hold : m.keys.Pairwise (FirstBefore (declarations ++ [(key, value)])) := by
      apply h.order.imp_of_mem
      intro a b ha hb hab
      exact hab.append_singleton ((h.mem a).mp ha) ((h.mem b).mp hb)
    rw [Dictionary.keys_insert]
    split
    · exact hold
    · rename_i hnew
      rw [List.pairwise_append]
      refine ⟨hold, List.pairwise_singleton _ _, ?_⟩
      intro a ha b hb
      rw [List.mem_singleton.mp hb]
      exact firstBefore_of_new ((h.mem a).mp ha) fun hkey => hnew ((h.mem key).mpr hkey)
  value k v := by
    rw [Dictionary.get?_insert, lastDeclared_append_singleton, ← h.value]
    split
    · exact Option.some_inj
    · rfl

theorem keeps_ofList (declarations : List (String × Value)) :
    Keeps declarations (.ofList declarations) := by
  -- from the back, since the last declaration is inserted last
  induction declarations using List.reverseRecOn with
  | nil => exact keeps_empty
  | append_singleton declarations d ih =>
    rw [Dictionary.ofList_append_singleton]
    exact ih.insert d.1 d.2

theorem Keeps.size_eq (h : Keeps declarations m) :
    m.size = (declaredNames declarations).toFinset.card := by
  have hsame : m.keys.toFinset = (declaredNames declarations).toFinset := by
    ext k
    rw [List.mem_toFinset, List.mem_toFinset, h.mem]
  have hcard : m.keys.toFinset.card = m.keys.length := List.toFinset_card_of_nodup m.nodup
  rw [← hsame, hcard]
  exact (List.length_map _).symm

/-- The entries of an object are inserted in order. -/
theorem decode_object {fields : List (String × Json.Value)} {declarations : List (String × Value)}
    (h : List.Forall₂ (fun f d => f.1 = d.1 ∧ Value.decode f.2 = .ok d.2) fields declarations) :
    decode (.object fields) = .ok (.ofList declarations) := by
  have hread : Decode.entries "a map of parameter names to numbers, formulas or lists" Value.decode
      (.object fields) = .ok declarations := by
    apply Decode.mapM_of_forall₂
    apply h.imp
    rintro ⟨name, field⟩ ⟨name', value⟩ ⟨rfl, hvalue⟩
    change Value.decode field >>= _ = _
    rw [hvalue]
    rfl
  unfold decode
  dsimp only
  rw [hread]
  rfl

theorem keeps_of_built (h : Built declarations m) : Keeps declarations m := by
  induction h with
  | empty => exact keeps_empty
  | ofList declarations => exact keeps_ofList declarations
  | decoded hfields hdecode =>
    rw [decode_object hfields] at hdecode
    cases hdecode
    exact keeps_ofList _
  | insert _ key value ih => exact ih.insert key value

/-- A map has one entry for each declared name, in the order of the first declarations and with the
values of the last ones, and a document gives it back if all numbers in it are finite. -/
theorem ordered_of_built (h : Built declarations m) :
    m.keys.Nodup ∧
    (∀ k, k ∈ m.keys ↔ k ∈ declaredNames declarations) ∧
    m.keys.Pairwise (FirstBefore declarations) ∧
    (∀ k v, (k, v) ∈ m.entries ↔ LastDeclared declarations k v) ∧
    (∀ k v, m.get? k = some v ↔ LastDeclared declarations k v) ∧
    (∀ k, m.get? k = none ↔ k ∉ declaredNames declarations) ∧
    m.size = (declaredNames declarations).toFinset.card ∧
    ((∀ e ∈ m.entries, e.2.Storable) → decode m.toJson = .ok m) := by
  have hkeeps := keeps_of_built h
  refine ⟨m.nodup, hkeeps.mem, hkeeps.order, ?_, hkeeps.value, ?_, hkeeps.size_eq, ?_⟩
  · intro k v
    rw [Dictionary.mem_iff_get?, hkeeps.value]
  · intro k
    rw [← hkeeps.mem]
    exact m.get?_eq_none_iff k
  · exact decode_toJson

/-- A name that is declared again keeps its place and takes the new value. -/
theorem ordered_of_built_replaced :
    let m : Map :=
      (Dictionary.ofList [("turns", .number 1.0), ("size", .text "2")]).insert "turns" (.number 3.0)
    m.get? "turns" = some (.number 3.0) ∧ m.get? "spread" = none ∧ m.size = 2 ∧
      decode m.toJson = .ok m := by
  intro m
  have hbuilt : Built [("turns", .number 1.0), ("size", .text "2"), ("turns", .number 3.0)] m :=
    (Built.ofList [("turns", .number 1.0), ("size", .text "2")]).insert "turns" (.number 3.0)
  obtain ⟨-, -, -, -, hget, hnone, hsize, hdecode⟩ := ordered_of_built hbuilt
  refine ⟨?_, ?_, ?_, ?_⟩
  · rw [hget]
    exact ⟨[("turns", .number 1.0), ("size", .text "2")], [], rfl, List.not_mem_nil⟩
  · rw [hnone]
    decide
  · rw [hsize]
    decide
  · apply hdecode
    intro e he
    rcases List.mem_cons.mp he with rfl | he
    · exact .number (by decide +kernel)
    · rw [List.mem_singleton.mp he]
      exact .text "2"

end Motion.Param.Map
