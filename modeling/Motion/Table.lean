/-! Values by key, as lists of entries. Both ways to insert replace the value of a key that is there
already. -/
namespace Motion

/-- Entries in order. -/
abbrev Table (α : Type) := List (String × α)

namespace Table

variable {α : Type}

def insert (key : String) (value : α) : Table α → Table α
  | [] => [(key, value)]
  -- a key that is there already keeps its place and takes the new value
  | (k, v) :: rest => if k = key then (k, value) :: rest else (k, v) :: insert key value rest

/-- The entries with one more at its place by key. -/
def insertSorted (key : String) (value : α) : Table α → Table α
  | [] => [(key, value)]
  | (k, v) :: rest =>
    if k = key then (k, value) :: rest
    else if key < k then (key, value) :: (k, v) :: rest
    else (k, v) :: insertSorted key value rest

def get? (key : String) (t : Table α) : Option α :=
  (t.find? (·.1 == key)).map (·.2)

def contains (key : String) (t : Table α) : Bool := t.any (·.1 == key)

def keys (t : Table α) : List String := t.map (·.1)

/-- The same entries by key, the last one of each. -/
def sorted (t : Table α) : Table α := t.foldl (fun s e => insertSorted e.1 e.2 s) []

theorem keys_cons (entry : String × α) (t : Table α) : keys (entry :: t) = entry.1 :: keys t := rfl

/-- A key that is there keeps its place, a new one comes last. -/
theorem keys_insert (t : Table α) (key : String) (value : α) :
    keys (insert key value t) = if key ∈ keys t then keys t else keys t ++ [key] := by
  induction t with
  | nil => rfl
  | cons entry t ih =>
    obtain ⟨first, v⟩ := entry
    rw [insert, keys_cons]
    by_cases h : first = key
    · subst h
      simp [keys_cons]
    · rw [if_neg h, keys_cons, ih]
      by_cases hmem : key ∈ keys t
      · simp [hmem]
      · simp [hmem, Ne.symm h]

theorem nodup_keys_insert {t : Table α} (h : (keys t).Nodup) (key : String) (value : α) :
    (keys (insert key value t)).Nodup := by
  rw [keys_insert]
  split
  · exact h
  · rename_i hmem
    rw [List.nodup_append]
    refine ⟨h, List.pairwise_singleton _ _, ?_⟩
    rintro k hk k' hk' rfl
    rw [List.mem_singleton.mp hk'] at hk
    exact hmem hk

theorem keys_filter_sublist (t : Table α) (p : String × α → Bool) :
    (keys (t.filter p)).Sublist (keys t) := List.filter_sublist.map Prod.fst

theorem mem_keys_insertSorted (t : Table α) (key : String) (value : α) (k : String) :
    k ∈ keys (insertSorted key value t) ↔ k = key ∨ k ∈ keys t := by
  induction t with
  | nil => simp [insertSorted, keys]
  | cons entry t ih =>
    obtain ⟨first, v⟩ := entry
    rw [insertSorted]
    by_cases h : first = key
    · subst h
      simp [keys_cons]
    · rw [if_neg h]
      by_cases hlt : key < first
      · rw [if_pos hlt]
        simp [keys_cons]
      · rw [if_neg hlt, keys_cons, keys_cons, List.mem_cons, List.mem_cons, ih]
        exact or_left_comm

theorem pairwise_keys_insertSorted {t : Table α} (h : (keys t).Pairwise (· < ·)) (key : String)
    (value : α) : (keys (insertSorted key value t)).Pairwise (· < ·) := by
  induction t with
  | nil => exact List.pairwise_singleton _ _
  | cons entry t ih =>
    obtain ⟨first, v⟩ := entry
    rw [keys_cons, List.pairwise_cons] at h
    obtain ⟨hfirst, hrest⟩ := h
    rw [insertSorted]
    by_cases heq : first = key
    · rw [if_pos heq, keys_cons, List.pairwise_cons]
      exact ⟨hfirst, hrest⟩
    · rw [if_neg heq]
      by_cases hlt : key < first
      · rw [if_pos hlt, keys_cons, keys_cons, List.pairwise_cons, List.pairwise_cons]
        refine ⟨?_, hfirst, hrest⟩
        intro k hk
        rcases List.mem_cons.mp hk with rfl | hk
        · exact hlt
        · exact String.lt_trans hlt (hfirst k hk)
      · have hgt : first < key := Std.lt_of_le_of_ne (String.not_lt.mp hlt) heq
        rw [if_neg hlt, keys_cons, List.pairwise_cons]
        refine ⟨?_, ih hrest⟩
        intro k hk
        rcases (mem_keys_insertSorted t key value k).mp hk with rfl | hk
        · exact hgt
        · exact hfirst k hk

theorem pairwise_keys_foldl_insertSorted (entries : Table α) {s : Table α}
    (h : (keys s).Pairwise (· < ·)) :
    (keys (entries.foldl (fun s e => insertSorted e.1 e.2 s) s)).Pairwise (· < ·) := by
  induction entries generalizing s with
  | nil => exact h
  | cons entry entries ih => exact ih (pairwise_keys_insertSorted h entry.1 entry.2)

theorem pairwise_keys_sorted (t : Table α) : (keys (sorted t)).Pairwise (· < ·) :=
  pairwise_keys_foldl_insertSorted t List.Pairwise.nil

end Table

end Motion
