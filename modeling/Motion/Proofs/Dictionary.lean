import Motion.Dictionary
import Motion.Proofs.Table

namespace Motion

namespace Dictionary

variable {α : Type} {d : Dictionary α}

theorem ext {d' : Dictionary α} (h : d.entries = d'.entries) : d = d' := by
  cases d
  cases h
  rfl

theorem keys_insert (d : Dictionary α) (key : String) (value : α) :
    (d.insert key value).keys = if key ∈ d.keys then d.keys else d.keys ++ [key] :=
  Table.keys_insert d.entries key value

theorem get?_insert (d : Dictionary α) (key : String) (value : α) (k : String) :
    (d.insert key value).get? k = if key = k then some value else d.get? k :=
  Table.get?_insert d.entries key value k

theorem get?_filter (d : Dictionary α) (p : α → Bool) (key : String) :
    (d.filter p).get? key = (d.get? key).filter p := Table.get?_filter d.nodup p key

/-- A dictionary is told by what is looked up in it. -/
theorem mem_iff_get? {key : String} {value : α} :
    (key, value) ∈ d.entries ↔ d.get? key = some value := Table.mem_iff_get? d.nodup

theorem get?_of_mem {entry : String × α} (h : entry ∈ d.entries) : d.get? entry.1 = some entry.2 :=
  Table.get?_of_mem d.nodup h

theorem get?_eq_none_iff (d : Dictionary α) (key : String) : d.get? key = none ↔ key ∉ d.keys :=
  Table.get?_eq_none_iff d.entries key

theorem contains_eq_isSome (d : Dictionary α) (key : String) :
    d.contains key = (d.get? key).isSome := Table.contains_eq_isSome d.entries key

theorem get?_sorted (d : Dictionary α) (key : String) : d.entries.sorted.get? key = d.get? key :=
  Table.get?_sorted d.nodup key

theorem entries_ofList (entries : List (String × α)) :
    (ofList entries).entries = entries.foldl (fun t e => Table.insert e.1 e.2 t) [] :=
  (List.foldl_hom Dictionary.entries fun _ _ => rfl).symm

theorem ofList_append_singleton (entries : List (String × α)) (entry : String × α) :
    ofList (entries ++ [entry]) = (ofList entries).insert entry.1 entry.2 := by
  rw [ofList, List.foldl_append]
  rfl

/-- The entries of a dictionary give it back. -/
theorem ofList_entries (d : Dictionary α) : ofList d.entries = d := by
  apply ext
  rw [entries_ofList]
  exact Table.foldl_eq_append (s := []) (fun _ _ value hnew => Table.insert_of_not_mem hnew value)
    d.nodup

theorem forall_mem_ofList {P : String × α → Prop} {entries : List (String × α)}
    (h : ∀ e ∈ entries, P e) : ∀ e ∈ (ofList entries).entries, P e := by
  rw [entries_ofList]
  exact Table.forall_mem_foldl (fun _ _ _ _ => Table.mem_of_mem_insert) (List.forall_mem_nil P) h

end Dictionary

namespace SortedDictionary

variable {α : Type}

theorem ext {d d' : SortedDictionary α} (h : d.entries = d'.entries) : d = d' := by
  cases d
  cases h
  rfl

theorem ofList_entries (d : SortedDictionary α) : ofList d.entries = d :=
  ext (Table.sorted_of_pairwise d.sorted)

end SortedDictionary

end Motion
