import Motion.Table

/-! Tables with one entry for each key, in the order of arrival or in that of the keys. -/
namespace Motion

/-- Entries in the order in which their keys came first. -/
structure Dictionary (α : Type) where
  entries : Table α
  nodup : entries.keys.Nodup

namespace Dictionary

variable {α : Type}

def empty : Dictionary α := ⟨[], List.Pairwise.nil⟩

def insert (d : Dictionary α) (key : String) (value : α) : Dictionary α :=
  ⟨d.entries.insert key value, Table.nodup_keys_insert d.nodup key value⟩

/-- The entries are inserted one after the other. -/
def ofList (entries : List (String × α)) : Dictionary α :=
  entries.foldl (fun d e => d.insert e.1 e.2) empty

def filter (p : α → Bool) (d : Dictionary α) : Dictionary α :=
  ⟨d.entries.filter fun e => p e.2, d.nodup.sublist (Table.keys_filter_sublist _ _)⟩

def get? (d : Dictionary α) (key : String) : Option α := d.entries.get? key

def contains (d : Dictionary α) (key : String) : Bool := d.entries.contains key

def keys (d : Dictionary α) : List String := d.entries.keys

def size (d : Dictionary α) : Nat := d.entries.length

def isEmpty (d : Dictionary α) : Bool := d.entries.isEmpty

end Dictionary

/-- Entries in the order of their keys. -/
structure SortedDictionary (α : Type) where
  entries : Table α
  sorted : entries.keys.Pairwise (· < ·)

namespace SortedDictionary

variable {α : Type}

def empty : SortedDictionary α := ⟨[], List.Pairwise.nil⟩

/-- Of several entries for one key the last one counts. -/
def ofList (entries : List (String × α)) : SortedDictionary α :=
  ⟨Table.sorted entries, Table.pairwise_keys_sorted entries⟩

def keys (d : SortedDictionary α) : List String := d.entries.keys

end SortedDictionary

end Motion
