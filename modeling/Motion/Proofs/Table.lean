import Mathlib.Data.List.Nodup
import Mathlib.Data.String.Basic
import Motion.Table

namespace Motion.Table

variable {α : Type}

theorem get?_cons (entry : String × α) (t : Table α) (key : String) :
    get? key (entry :: t) = if entry.1 = key then some entry.2 else get? key t := by
  unfold get?
  rw [List.find?_cons]
  by_cases h : entry.1 = key
  · simp [h]
  · simp [beq_eq_false_iff_ne.mpr h, h]

theorem isSome_get?_iff (t : Table α) (key : String) : (get? key t).isSome ↔ key ∈ keys t := by
  induction t with
  | nil => simp [get?, keys]
  | cons entry t ih =>
    rw [get?_cons, keys_cons, List.mem_cons, ← ih]
    by_cases h : entry.1 = key
    · simp [h]
    · simp [h, Ne.symm h]

theorem get?_eq_none_iff (t : Table α) (key : String) : get? key t = none ↔ key ∉ keys t := by
  rw [← isSome_get?_iff, Bool.not_eq_true, Option.isSome_eq_false_iff, Option.isNone_iff_eq_none]

theorem contains_eq_isSome (t : Table α) (key : String) : contains key t = (get? key t).isSome := by
  unfold contains get?
  rw [Option.isSome_map, Bool.eq_iff_iff, List.find?_isSome, List.any_eq_true]

theorem get?_of_mem {t : Table α} (h : (keys t).Nodup) {entry : String × α} (hmem : entry ∈ t) :
    get? entry.1 t = some entry.2 := by
  induction t with
  | nil => cases hmem
  | cons first t ih =>
    rw [keys_cons, List.nodup_cons] at h
    rw [get?_cons]
    rcases List.mem_cons.mp hmem with rfl | hmem
    · rw [if_pos rfl]
    · have hne : first.1 ≠ entry.1 := by
        intro heq
        apply h.1
        rw [heq]
        exact List.mem_map_of_mem hmem
      rw [if_neg hne, ih h.2 hmem]

/-- A table without a second entry for a key is told by what is looked up in it. -/
theorem mem_iff_get? {t : Table α} (h : (keys t).Nodup) {key : String} {value : α} :
    (key, value) ∈ t ↔ get? key t = some value := by
  constructor
  · exact get?_of_mem h
  · intro hget
    obtain ⟨entry, hentry, rfl⟩ := Option.map_eq_some_iff.mp hget
    obtain rfl : entry.1 = key := by simpa using List.find?_some hentry
    exact List.mem_of_find?_eq_some hentry

theorem get?_insert (t : Table α) (key : String) (value : α) (k : String) :
    get? k (insert key value t) = if key = k then some value else get? k t := by
  induction t with
  | nil => exact get?_cons _ _ _
  | cons entry t ih =>
    obtain ⟨first, v⟩ := entry
    rw [insert]
    by_cases h : first = key
    · rw [if_pos h, get?_cons, get?_cons]
      subst h
      by_cases hk : first = k
      · rw [if_pos hk, if_pos hk]
      · rw [if_neg hk, if_neg hk, if_neg hk]
    · rw [if_neg h, get?_cons, get?_cons, ih]
      by_cases hk : first = k
      · have hkey : ¬key = k := fun heq => h (hk.trans heq.symm)
        rw [if_pos hk, if_neg hkey, if_pos hk]
      · rw [if_neg hk, if_neg hk]

/-- Without a second entry for a key, nothing comes to light when the first one is left out. -/
theorem get?_filter {t : Table α} (h : (keys t).Nodup) (p : α → Bool) (key : String) :
    get? key (t.filter fun entry => p entry.2) = (get? key t).filter p := by
  induction t with
  | nil => rfl
  | cons entry t ih =>
    rw [keys_cons, List.nodup_cons] at h
    rw [get?_cons, List.filter_cons]
    by_cases hk : entry.1 = key
    · by_cases hp : p entry.2
      · rw [if_pos hp, get?_cons, if_pos hk, if_pos hk, Option.filter_some_pos hp]
      · have hnone : get? key t = none := by
          rw [get?_eq_none_iff, ← hk]
          exact h.1
        rw [if_neg hp, if_pos hk, ih h.2, hnone, Option.filter_some_neg (Bool.eq_false_iff.mpr hp)]
        rfl
    · by_cases hp : p entry.2
      · rw [if_pos hp, get?_cons, if_neg hk, if_neg hk, ih h.2]
      · rw [if_neg hp, if_neg hk, ih h.2]

theorem get?_insertSorted (t : Table α) (key : String) (value : α) (k : String) :
    get? k (insertSorted key value t) = if key = k then some value else get? k t := by
  induction t with
  | nil => exact get?_cons _ _ _
  | cons entry t ih =>
    obtain ⟨first, v⟩ := entry
    rw [insertSorted]
    by_cases heq : first = key
    · subst heq
      rw [if_pos rfl, get?_cons, get?_cons]
      by_cases hk : first = k
      · rw [if_pos hk, if_pos hk]
      · rw [if_neg hk, if_neg hk, if_neg hk]
    · rw [if_neg heq]
      by_cases hlt : key < first
      · rw [if_pos hlt, get?_cons]
      · rw [if_neg hlt, get?_cons, get?_cons, ih]
        by_cases hk : first = k
        · have hkey : ¬key = k := fun hkey => heq (hk.trans hkey.symm)
          rw [if_pos hk, if_neg hkey, if_pos hk]
        · rw [if_neg hk, if_neg hk]

theorem get?_foldl_insertSorted {entries : Table α} (h : (keys entries).Nodup) (s : Table α)
    (k : String) : get? k (entries.foldl (fun s e => insertSorted e.1 e.2 s) s) =
      (get? k entries).or (get? k s) := by
  induction entries generalizing s with
  | nil => rfl
  | cons entry entries ih =>
    rw [keys_cons, List.nodup_cons] at h
    rw [List.foldl_cons, ih h.2, get?_insertSorted, get?_cons]
    by_cases hk : entry.1 = k
    · have hnone : get? k entries = none := by
        rw [get?_eq_none_iff, ← hk]
        exact h.1
      rw [if_pos hk, if_pos hk, hnone]
      rfl
    · rw [if_neg hk, if_neg hk]

theorem get?_sorted {t : Table α} (h : (keys t).Nodup) (k : String) :
    get? k (sorted t) = get? k t := (get?_foldl_insertSorted h [] k).trans Option.or_none

theorem mem_keys_foldl_insertSorted (entries s : Table α) (k : String) :
    k ∈ keys (entries.foldl (fun s e => insertSorted e.1 e.2 s) s) ↔
      k ∈ keys entries ∨ k ∈ keys s := by
  induction entries generalizing s with
  | nil => simp [keys]
  | cons entry entries ih =>
    rw [List.foldl_cons, ih, mem_keys_insertSorted, keys_cons, List.mem_cons]
    tauto

theorem mem_keys_sorted (t : Table α) (k : String) : k ∈ keys (sorted t) ↔ k ∈ keys t := by
  rw [sorted, mem_keys_foldl_insertSorted]
  simp [keys]

theorem length_keys_sorted {t : Table α} (h : (keys t).Nodup) :
    (keys (sorted t)).length = t.length := by
  have hnodup : (keys (sorted t)).Nodup := (pairwise_keys_sorted t).imp ne_of_lt
  have hperm : (keys (sorted t)).Perm (keys t) :=
    (List.perm_ext_iff_of_nodup hnodup h).mpr (mem_keys_sorted t)
  rw [hperm.length_eq]
  exact List.length_map _

theorem insert_of_not_mem {t : Table α} {key : String} (h : ∀ k ∈ keys t, k ≠ key) (value : α) :
    insert key value t = t ++ [(key, value)] := by
  induction t with
  | nil => rfl
  | cons entry t ih =>
    obtain ⟨first, v⟩ := entry
    rw [keys_cons, List.forall_mem_cons] at h
    rw [insert, if_neg h.1, ih h.2, List.cons_append]

theorem insertSorted_of_lt {t : Table α} {key : String} (h : ∀ k ∈ keys t, k < key) (value : α) :
    insertSorted key value t = t ++ [(key, value)] := by
  induction t with
  | nil => rfl
  | cons entry t ih =>
    obtain ⟨first, v⟩ := entry
    rw [keys_cons, List.forall_mem_cons] at h
    have hlt : first < key := h.1
    rw [insertSorted, if_neg (ne_of_lt hlt), if_neg (not_lt_of_gt hlt), ih h.2, List.cons_append]

theorem mem_of_mem_insert {t : Table α} {key : String} {value : α} {entry : String × α}
    (h : entry ∈ insert key value t) : entry = (key, value) ∨ entry ∈ t := by
  induction t with
  | nil => exact Or.inl (List.mem_singleton.mp h)
  | cons first t ih =>
    rw [insert] at h
    split at h
    · rename_i heq
      rcases List.mem_cons.mp h with h | h
      · exact Or.inl (heq ▸ h)
      · exact Or.inr (List.mem_cons_of_mem _ h)
    · rcases List.mem_cons.mp h with rfl | h
      · exact Or.inr List.mem_cons_self
      · exact (ih h).imp_right (List.mem_cons_of_mem _)

theorem mem_of_mem_insertSorted {t : Table α} {key : String} {value : α} {entry : String × α}
    (h : entry ∈ insertSorted key value t) : entry = (key, value) ∨ entry ∈ t := by
  induction t with
  | nil => exact Or.inl (List.mem_singleton.mp h)
  | cons first t ih =>
    rw [insertSorted] at h
    split at h
    · rename_i heq
      rcases List.mem_cons.mp h with h | h
      · exact Or.inl (heq ▸ h)
      · exact Or.inr (List.mem_cons_of_mem _ h)
    · split at h
      · exact List.mem_cons.mp h
      · rcases List.mem_cons.mp h with rfl | h
        · exact Or.inr List.mem_cons_self
        · exact (ih h).imp_right (List.mem_cons_of_mem _)

section
variable {put : String → α → Table α → Table α} {entries s : Table α}

/-- Entries that each come behind the others are put into a table as they stand. -/
theorem foldl_eq_append {R : String → String → Prop}
    (hput : ∀ (t : Table α) key value, (∀ k ∈ keys t, R k key) → put key value t = t ++ [(key, value)])
    (h : (keys (s ++ entries)).Pairwise R) :
    entries.foldl (fun s e => put e.1 e.2 s) s = s ++ entries := by
  induction entries generalizing s with
  | nil => exact (List.append_nil s).symm
  | cons entry entries ih =>
    have hlast : ∀ k ∈ keys s, R k entry.1 := by
      intro k hk
      rw [keys, List.map_append, List.pairwise_append] at h
      exact h.2.2 k hk entry.1 List.mem_cons_self
    have hmove : s ++ entry :: entries = (s ++ [(entry.1, entry.2)]) ++ entries := by simp
    rw [hmove] at h
    rw [List.foldl_cons, hput s entry.1 entry.2 hlast, ih h, ← hmove]

theorem forall_mem_foldl {P : String × α → Prop}
    (hput : ∀ t key value (e : String × α), e ∈ put key value t → e = (key, value) ∨ e ∈ t)
    (hs : ∀ e ∈ s, P e) (h : ∀ e ∈ entries, P e) :
    ∀ e ∈ entries.foldl (fun s e => put e.1 e.2 s) s, P e := by
  induction entries generalizing s with
  | nil => exact hs
  | cons entry entries ih =>
    rw [List.forall_mem_cons] at h
    apply ih _ h.2
    intro e he
    rcases hput s entry.1 entry.2 e he with rfl | he
    · exact h.1
    · exact hs e he

end

/-- Sorting changes nothing about entries in order. -/
theorem sorted_of_pairwise {t : Table α} (h : (keys t).Pairwise (· < ·)) : sorted t = t :=
  foldl_eq_append (s := []) (fun _ _ value hlt => insertSorted_of_lt hlt value) h

theorem forall_mem_sorted {t : Table α} {P : String × α → Prop} (h : ∀ e ∈ t, P e) :
    ∀ e ∈ sorted t, P e :=
  forall_mem_foldl (fun _ _ _ _ => mem_of_mem_insertSorted) (List.forall_mem_nil P) h

end Motion.Table
