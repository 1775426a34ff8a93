import Motion.Proofs.Program.Fingerprint

/-! The encoded buffer as an image of its program, row by row. -/
namespace Motion

/-- Two entries show the same motion, or neither of them shows one. -/
inductive SameShown : Option Assignment → Option Assignment → Prop
  | hidden {x y : Option Assignment} (hx : isShown x = false) (hy : isShown y = false) : SameShown x y
  | motion {a b : Assignment} (ha : a.active) (hb : b.active) (h : a.SameMotion b) :
    SameShown (some a) (some b)

namespace Buffer

theorem row_eq_iff_sameShown {x y : Option Assignment} : row x = row y ↔ SameShown x y := by
  constructor
  · intro h
    obtain ⟨hsame, hentry⟩ := shown_of_row_eq h
    cases hx : isShown x with
    | false => exact .hidden hx (hsame ▸ hx)
    | true =>
      obtain ⟨a, rfl, ha⟩ := isShown_iff.mp hx
      obtain ⟨b, rfl, hb⟩ := isShown_iff.mp (hsame ▸ hx)
      exact .motion ha hb ((sameEntry_some_iff a b).mp (hentry hx))
  · intro h
    cases h with
    | hidden hx hy => rw [row_of_not_isShown hx, row_of_not_isShown hy]
    | motion ha hb h => exact row_eq_of_sameEntry (.motion h)

/-- The numbers of a row. -/
def rowAt (buffer : Buffer) (i : Nat) : List Float32 := (buffer.drop (i * rowLength)).take rowLength

/-- In rows one after the other each one is found at its place. -/
theorem rowAt_flatten {rows : List (List Float32)} (h : ∀ r ∈ rows, r.length = rowLength) {i : Nat}
    {r : List Float32} (hi : rows[i]? = some r) : rowAt rows.flatten i = r := by
  induction rows generalizing i with
  | nil => cases hi
  | cons first rest ih =>
    have hfirst : first.length = rowLength := h first List.mem_cons_self
    cases i with
    | zero =>
      rw [List.getElem?_cons_zero] at hi
      cases hi
      rw [rowAt, Nat.zero_mul, List.drop_zero, List.flatten_cons, ← hfirst, List.take_left]
    | succ i =>
      rw [List.getElem?_cons_succ] at hi
      have hrest := ih (fun r hr => h r (List.mem_cons_of_mem first hr)) hi
      have hplace : (i + 1) * rowLength = first.length + i * rowLength := by
        rw [hfirst, Nat.succ_mul, Nat.add_comm]
      rw [rowAt, List.flatten_cons, hplace, List.drop_length_add_append]
      exact hrest

/-- The cells in front of the parameters of a row. -/
def headerLength : Nat := rowLength - paramCount

def clearRow (cells : List Float32) : List Float32 := (List.replicate cells.length 0.0).set 0 (-1.0)

/-- Writes an entry over the cells of a row, one after the other. -/
def writeRow (entry : Option Assignment) (cells : List Float32) : List Float32 :=
  match entry with
  | some a =>
    if a.active then
      let header := (((cells.set 0 (Float32.ofNat a.primitive.toNat)).set 1 a.phase).set 2 a.start).set
        3 a.duration
      header.take headerLength ++ a.params.toList
    else clearRow cells
  | none => clearRow cells

/-- Writes entries over the rows of a buffer in place, as far as there are whole rows. -/
def writeRows : List (Option Assignment) → Buffer → Buffer
  | [], buffer => buffer
  | entry :: entries, buffer =>
    if rowLength ≤ buffer.length then
      writeRow entry (buffer.take rowLength) ++ writeRows entries (buffer.drop rowLength)
    else buffer

theorem clearRow_eq_inactiveRow {cells : List Float32} (h : cells.length = rowLength) :
    clearRow cells = inactiveRow := by
  rw [clearRow, h]
  rfl

/-- None of the sixteen cells keeps what it held. -/
theorem writeRow_eq_row (entry : Option Assignment) {cells : List Float32}
    (h : cells.length = rowLength) : writeRow entry cells = row entry := by
  cases entry with
  | none => exact clearRow_eq_inactiveRow h
  | some a =>
    by_cases ha : a.active
    · obtain ⟨c₀, c₁, c₂, c₃, rest, rfl⟩ :
          ∃ c₀ c₁ c₂ c₃ rest, cells = c₀ :: c₁ :: c₂ :: c₃ :: rest := by
        match cells, h with
        | c₀ :: c₁ :: c₂ :: c₃ :: rest, _ => exact ⟨c₀, c₁, c₂, c₃, rest, rfl⟩
      rw [writeRow, if_pos ha, row_of_active ha]
      rfl
    · rw [writeRow, if_neg ha, row, if_neg ha]
      exact clearRow_eq_inactiveRow h

theorem writeRows_eq_overwrite (entries : List (Option Assignment)) (buffer : Buffer) :
    writeRows entries buffer = overwrite (entries.map row) buffer := by
  induction entries generalizing buffer with
  | nil => rfl
  | cons entry entries ih =>
    rw [writeRows, List.map_cons, overwrite]
    by_cases hroom : rowLength ≤ buffer.length
    · have hcells : (buffer.take rowLength).length = rowLength := List.length_take_of_le hroom
      rw [if_pos hroom, if_pos hroom, writeRow_eq_row entry hcells, ih]
    · rw [if_neg hroom, if_neg hroom]

end Buffer

namespace Program
open Buffer (rowLength fullLength rowAt)

/-- What a row of the buffer stands for. -/
def entryAt (p : Program) : Nat → Option Assignment
  | 0 => some p.wholeBody
  | slot + 1 => p.part? (slot + 1)

variable {p q : Program}

theorem encodeInto_eq_writeRows (p : Program) (buffer : Buffer) :
    p.encodeInto buffer = Buffer.writeRows p.entries (Buffer.resize fullLength buffer) := by
  rw [encodeInto, rows_eq_map, Buffer.writeRows_eq_overwrite]

theorem encode_eq_iff_sameShown :
    p.encode = q.encode ↔ ∀ i ≤ slotCount, SameShown (p.entryAt i) (q.entryAt i) := by
  rw [encode_eq_iff, forall₂_entries_iff]
  constructor
  · rintro ⟨hbody, hparts⟩ i hi
    cases i with
    | zero => exact Buffer.row_eq_iff_sameShown.mp hbody
    | succ slot => exact Buffer.row_eq_iff_sameShown.mp (hparts (slot + 1) (Nat.succ_pos slot) hi)
  · intro h
    refine ⟨Buffer.row_eq_iff_sameShown.mpr (h 0 (Nat.zero_le _)), ?_⟩
    intro slot hlow hhigh
    obtain ⟨slot, rfl⟩ : ∃ n, slot = n + 1 := ⟨slot - 1, by omega⟩
    exact Buffer.row_eq_iff_sameShown.mpr (h (slot + 1) hhigh)

theorem getElem?_entries {i : Nat} (hi : i ≤ slotCount) : p.entries[i]? = some (p.entryAt i) := by
  cases i with
  | zero => rfl
  | succ slot =>
    rw [entries, List.getElem?_cons_succ, List.getElem?_map, List.getElem?_range (by omega)]
    rfl

theorem rowAt_encode {i : Nat} (hi : i ≤ slotCount) :
    rowAt p.encode i = Buffer.row (p.entryAt i) := by
  rw [encode_eq_flatten, rows_eq_map]
  apply Buffer.rowAt_flatten
  · intro r hr
    obtain ⟨entry, -, rfl⟩ := List.mem_map.mp hr
    exact Buffer.length_row entry
  · rw [List.getElem?_map, getElem?_entries hi, Option.map_some]

/-- The buffer of a program does not depend on what it held before, however it is written. Two
programs have the same buffer exactly where each row shows the same motion of both or none of
either. A row without a motion is minus one and zeros; any other row names its primitive first,
which is never minus one. -/
theorem encode_faithful (p q : Program) (buffer : Buffer) :
    ((p.encodeInto buffer).length = 528 ∧
      (p.encodeInto buffer).map Float32.toBits = p.encode.map Float32.toBits ∧
      Buffer.writeRows p.entries (Buffer.resize fullLength buffer) = p.encode) ∧
    (p.encode.map Float32.toBits = q.encode.map Float32.toBits ↔
      ∀ i ≤ 32, SameShown (p.entryAt i) (q.entryAt i)) ∧
    ∀ i ≤ 32,
      (isShown (p.entryAt i) = false → rowAt p.encode i = -1.0 :: List.replicate 15 0.0) ∧
      ∀ a, p.entryAt i = some a → a.active →
        rowAt p.encode i =
            [Float32.ofNat a.primitive.toNat, a.phase, a.start, a.duration] ++ a.params.toList ∧
          (rowAt p.encode i).head? ≠ some (-1.0) := by
  refine ⟨⟨?_, ?_, ?_⟩, ?_, ?_⟩
  · rw [encodeInto_eq_encode]
    exact length_encode p
  · rw [encodeInto_eq_encode]
  · rw [← encodeInto_eq_writeRows, encodeInto_eq_encode]
  · rw [map_toBits_encode_eq_iff]
    exact encode_eq_iff_sameShown
  · intro i hi
    have hrow : rowAt p.encode i = Buffer.row (p.entryAt i) := rowAt_encode hi
    rw [hrow]
    refine ⟨Buffer.row_of_not_isShown, ?_⟩
    intro a hentry ha
    rw [hentry, Buffer.row_of_active ha]
    refine ⟨rfl, ?_⟩
    intro hhead
    exact ofNat_ne_inactive a.primitive (Option.some.inj hhead)

end Program

end Motion
