import Motion.Proofs.Dictionary
import Motion.Proofs.Text.Lowercase
import Motion.Template.Library

/-! A library that stores templates in turn (`Library.ofAccepted`). -/
namespace Motion

namespace Template

/-- Whether a library takes a template in. -/
def isAccepted (t : Template) : Bool := !hasErrors t.check

theorem fst_claimWords (warning : String → String → Issue) (id : String) (owners : Dictionary String)
    (words : List String) :
    (claimWords warning id owners words).1 =
      words.foldl (fun owners word => owners.insert word id) owners := by
  induction words generalizing owners with
  | nil => rfl
  | cons word words ih => exact ih (owners.insert word id)

theorem get?_foldl_insert (id : String) (owners : Dictionary String) (words : List String)
    (word : String) :
    (words.foldl (fun owners word => owners.insert word id) owners).get? word =
      if word ∈ words then some id else owners.get? word := by
  induction words generalizing owners with
  | nil => simp
  | cons first words ih =>
    rw [List.foldl_cons, ih, Dictionary.get?_insert]
    by_cases hmem : word ∈ words
    · simp [hmem]
    · by_cases hfirst : first = word
      · simp [hfirst]
      · simp [hmem, hfirst, Ne.symm hfirst]

/-- A trigger word is looked up as it stands. -/
theorem normalizeWord_of_mem_triggerWords {t : Template} {word : String}
    (h : word ∈ t.triggerWords) : Text.normalizeWord word = word := by
  obtain ⟨hmem, _⟩ := List.mem_filter.mp h
  obtain ⟨verb, _, rfl⟩ := List.mem_map.mp hmem
  exact Text.normalizeWord_normalizeWord verb

end Template

namespace Library

/-- The library with one template more; the position in its batch shows in warnings only. -/
def store (lib : Library) (t : Template) : Library := (lib.insert 0 t).1

theorem fst_insert (lib : Library) (i : Nat) (t : Template) : (lib.insert i t).1 = lib.store t := by
  unfold store insert
  dsimp only
  rw [Template.fst_claimWords, Template.fst_claimWords]

/-- The index without the words of an id. -/
def wordsOfOthers (lib : Library) (id : String) : Dictionary String :=
  if lib.templates.contains id then lib.words.filter (· ≠ id) else lib.words

theorem words_store (lib : Library) (t : Template) :
    (lib.store t).words = t.triggerWords.foldl (fun owners word => owners.insert word t.id)
      (lib.wordsOfOthers t.id) := Template.fst_claimWords _ _ _ _

theorem get?_store (lib : Library) (t : Template) (id : String) :
    (lib.store t).get? id = if t.id = id then some t else lib.get? id :=
  lib.templates.get?_insert t.id t id

/-- Every indexed word leads to a stored template that declares it. -/
def Valid (lib : Library) : Prop :=
  ∀ word id, lib.words.get? word = some id → ∃ t, lib.get? id = some t ∧ word ∈ t.triggerWords

theorem valid_empty : empty.Valid := by
  intro word id h
  cases h

variable {lib : Library}

theorem get?_wordsOfOthers (h : lib.Valid) (id word : String) :
    (lib.wordsOfOthers id).get? word = (lib.words.get? word).filter (· ≠ id) := by
  unfold wordsOfOthers
  split
  · exact lib.words.get?_filter (fun owner => decide (owner ≠ id)) word
  · rename_i hnew
    cases howner : lib.words.get? word with
    | none => rfl
    | some owner =>
      obtain ⟨t, ht, _⟩ := h word owner howner
      have hne : owner ≠ id := by
        rintro rfl
        apply hnew
        rw [Dictionary.contains_eq_isSome]
        exact Option.isSome_of_eq_some ht
      rw [Option.filter_some, if_pos (decide_eq_true hne)]

/-- A template takes the words that it declares and gives up all others that its id had. -/
theorem get?_words_store (h : lib.Valid) (t : Template) (word : String) :
    (lib.store t).words.get? word =
      if word ∈ t.triggerWords then some t.id else (lib.words.get? word).filter (· ≠ t.id) := by
  rw [words_store, Template.get?_foldl_insert, get?_wordsOfOthers h]

theorem valid_store (h : lib.Valid) (t : Template) : (lib.store t).Valid := by
  intro word id hword
  rw [get?_words_store h] at hword
  rw [get?_store]
  by_cases hmem : word ∈ t.triggerWords
  · rw [if_pos hmem, Option.some_inj] at hword
    exact ⟨t, if_pos hword, hmem⟩
  · rw [if_neg hmem, Option.filter_eq_some_iff, decide_eq_true_eq] at hword
    obtain ⟨hold, hne⟩ := hword
    rw [if_neg hne.symm]
    exact h word id hold

def ofAccepted (accepted : List Template) : Library := accepted.foldl store empty

variable {accepted : List Template}

theorem ofAccepted_append (accepted more : List Template) :
    ofAccepted (accepted ++ more) = more.foldl store (ofAccepted accepted) := List.foldl_append

theorem ofAccepted_concat (accepted : List Template) (t : Template) :
    ofAccepted (accepted ++ [t]) = (ofAccepted accepted).store t := ofAccepted_append accepted [t]

theorem valid_ofAccepted (accepted : List Template) : (ofAccepted accepted).Valid := by
  induction accepted using List.reverseRecOn with
  | nil => exact valid_empty
  | append_singleton accepted t ih =>
    rw [ofAccepted_concat]
    exact valid_store ih t

theorem get?_ofAccepted (accepted : List Template) (id : String) :
    (ofAccepted accepted).get? id = (accepted.filter fun t => t.id = id).getLast? := by
  induction accepted using List.reverseRecOn with
  | nil => rfl
  | append_singleton accepted t ih =>
    rw [ofAccepted_concat, get?_store, List.filter_append, ih]
    by_cases h : t.id = id
    · simp [h]
    · simp [h]

theorem mem_ids_ofAccepted_iff (accepted : List Template) (id : String) :
    id ∈ (ofAccepted accepted).ids ↔ ∃ t ∈ accepted, t.id = id := by
  rw [ids, Table.mem_keys_sorted, ← Table.isSome_get?_iff]
  change ((ofAccepted accepted).get? id).isSome ↔ _
  rw [get?_ofAccepted, List.getLast?_isSome, ne_eq, List.filter_eq_nil_iff]
  simp

theorem mem_of_get?_ofAccepted {id : String} {t : Template}
    (h : (ofAccepted accepted).get? id = some t) : t ∈ accepted ∧ t.id = id := by
  rw [get?_ofAccepted] at h
  have hmem := List.mem_filter.mp (List.mem_of_getLast? h)
  exact ⟨hmem.1, of_decide_eq_true hmem.2⟩

theorem get?_words_ofAccepted_of_undeclared {word : String}
    (h : ∀ t ∈ accepted, word ∉ t.triggerWords) :
    (ofAccepted accepted).words.get? word = none := by
  cases howner : (ofAccepted accepted).words.get? word with
  | none => rfl
  | some id =>
    obtain ⟨t, ht, hmem⟩ := valid_ofAccepted accepted word id howner
    exact absurd hmem (h t (mem_of_get?_ofAccepted ht).1)

/-- A word belongs to the last template that declares it until the next one comes under the same
id. -/
theorem get?_words_ofAccepted {word : String} {earlier later : List Template} {t : Template}
    (ht : word ∈ t.triggerWords) (hlater : ∀ u ∈ later, word ∉ u.triggerWords) :
    (ofAccepted (earlier ++ t :: later)).words.get? word =
      if ∃ u ∈ later, u.id = t.id then none else some t.id := by
  induction later using List.reverseRecOn with
  | nil =>
    rw [ofAccepted_concat, get?_words_store (valid_ofAccepted earlier), if_pos ht]
    simp
  | append_singleton later u ih =>
    have hu : word ∉ u.triggerWords :=
      hlater u (List.mem_append_right _ (List.mem_singleton_self u))
    have hkept := ih fun v hv => hlater v (List.mem_append_left _ hv)
    rw [← List.cons_append, ← List.append_assoc, ofAccepted_concat,
      get?_words_store (valid_ofAccepted _), if_neg hu, hkept]
    by_cases hgone : ∃ v ∈ later, v.id = t.id
    · obtain ⟨v, hv, hid⟩ := hgone
      rw [if_pos ⟨v, hv, hid⟩, if_pos ⟨v, List.mem_append_left _ hv, hid⟩]
      rfl
    · rw [if_neg hgone]
      by_cases hid : u.id = t.id
      · rw [if_pos ⟨u, List.mem_append_right _ (List.mem_singleton_self u), hid⟩]
        simp [hid]
      · have hnone : ¬∃ v ∈ later ++ [u], v.id = t.id := by
          rintro ⟨v, hv, hv'⟩
          rcases List.mem_append.mp hv with hv | hv
          · exact hgone ⟨v, hv, hv'⟩
          · rw [List.mem_singleton.mp hv] at hv'
            exact hid hv'
        rw [if_neg hnone, Option.filter_some, if_pos (decide_eq_true (Ne.symm hid))]

theorem exists_last_declaring {word : String} (h : ∃ t ∈ accepted, word ∈ t.triggerWords) :
    ∃ earlier t later, accepted = earlier ++ t :: later ∧ word ∈ t.triggerWords ∧
      ∀ u ∈ later, word ∉ u.triggerWords := by
  induction accepted using List.reverseRecOn with
  | nil =>
    obtain ⟨t, ht, _⟩ := h
    cases ht
  | append_singleton accepted u ih =>
    by_cases hu : word ∈ u.triggerWords
    · refine ⟨accepted, u, [], rfl, hu, ?_⟩
      intro v hv
      cases hv
    · obtain ⟨t, ht, hmem⟩ := h
      have hold : t ∈ accepted := by
        rcases List.mem_append.mp ht with ht | ht
        · exact ht
        · rw [List.mem_singleton.mp ht] at hmem
          exact absurd hmem hu
      obtain ⟨earlier, t, later, rfl, hdeclared, hlater⟩ := ih ⟨t, hold, hmem⟩
      refine ⟨earlier, t, later ++ [u], by simp, hdeclared, ?_⟩
      intro v hv
      rcases List.mem_append.mp hv with hv | hv
      · exact hlater v hv
      · rw [List.mem_singleton.mp hv]
        exact hu

/-- A declared word that selects nothing has lost its last owner. -/
theorem exists_replaced_of_get?_words {word : String} (h : ∃ t ∈ accepted, word ∈ t.triggerWords)
    (hnone : (ofAccepted accepted).words.get? word = none) :
    ∃ earlier t later, accepted = earlier ++ t :: later ∧ word ∈ t.triggerWords ∧
      (∀ u ∈ later, word ∉ u.triggerWords) ∧ ∃ u ∈ later, u.id = t.id := by
  obtain ⟨earlier, t, later, rfl, ht, hlater⟩ := exists_last_declaring h
  refine ⟨earlier, t, later, rfl, ht, hlater, ?_⟩
  by_contra hkept
  rw [get?_words_ofAccepted ht hlater, if_neg hkept] at hnone
  cases hnone

theorem mem_later_of_get? {earlier later : List Template} {t u : Template}
    (h : (ofAccepted (earlier ++ t :: later)).get? t.id = some u)
    (hreplaced : ∃ v ∈ later, v.id = t.id) : u ∈ later := by
  obtain ⟨v, hv, hid⟩ := hreplaced
  have hne : later.filter (fun u => u.id = t.id) ≠ [] := by
    apply List.ne_nil_of_mem
    exact List.mem_filter.mpr ⟨hv, decide_eq_true hid⟩
  rw [get?_ofAccepted, List.filter_append, List.filter_cons, decide_eq_true rfl, if_pos rfl,
    List.getLast?_append_cons, List.getLast?_cons_of_ne_nil hne] at h
  exact (List.mem_filter.mp (List.mem_of_getLast? h)).1

end Library

end Motion
