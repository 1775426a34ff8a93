import Motion.Program.Buffer

namespace Motion

namespace Buffer

theorem length_row (entry : Option Assignment) : (row entry).length = rowLength := by
  cases entry with
  | none => rfl
  | some a =>
    by_cases ha : a.active
    · simp only [row, ha, if_true, activeRow, List.length_append, Vector.length_toList]
      rfl
    · simp [row, ha, inactiveRow, rowLength]

theorem length_resize (n : Nat) (buffer : Buffer) : (resize n buffer).length = n := by
  simp only [resize, List.length_append, List.length_take, List.length_replicate]
  omega

theorem length_nil_ne : ([] : Buffer).length ≠ fullLength := by decide

/-- A buffer with room for just the rows holds nothing else afterwards. -/
theorem overwrite_eq_flatten (rows : List (List Float32)) (buffer : Buffer)
    (h : buffer.length = rows.length * rowLength) : overwrite rows buffer = rows.flatten := by
  induction rows generalizing buffer with
  | nil =>
    have hnil : buffer = [] := by
      apply List.length_eq_zero_iff.mp
      simpa using h
    rw [hnil]
    rfl
  | cons r rs ih =>
    have hlen : buffer.length = rs.length * rowLength + rowLength := by
      rw [h, List.length_cons, Nat.succ_mul]
    have hdrop : (buffer.drop rowLength).length = rs.length * rowLength := by
      rw [List.length_drop]
      omega
    have hroom : rowLength ≤ buffer.length := by omega
    rw [overwrite, if_pos hroom, ih _ hdrop, List.flatten_cons]

/-- A program without motions: every row inactive. -/
def blank : Buffer := (List.replicate tableSize inactiveRow).flatten

theorem length_flatten {rows : List (List Float32)} (h : ∀ r ∈ rows, r.length = rowLength) :
    rows.flatten.length = rows.length * rowLength := by
  induction rows with
  | nil => rfl
  | cons r rs ih =>
    have hr := h r List.mem_cons_self
    have hrs := ih fun r' hr' => h r' (List.mem_cons_of_mem r hr')
    rw [List.flatten_cons, List.length_append, hr, hrs, List.length_cons, Nat.succ_mul]
    omega

theorem length_blank : blank.length = fullLength := by
  have h : ∀ r ∈ List.replicate tableSize inactiveRow, r.length = rowLength := by
    intro r hr
    rw [List.eq_of_mem_replicate hr]
    exact length_row none
  rw [blank, length_flatten h, List.length_replicate]
  rfl

theorem reset_eq_blank (buffer : Buffer) : reset buffer = blank := by
  have hlen := length_resize fullLength buffer
  have hrows : fullLength / rowLength = tableSize := by decide
  rw [reset, fillInactive, hlen, hrows]
  apply overwrite_eq_flatten
  rw [hlen, List.length_replicate]
  rfl

end Buffer

namespace Program
open Buffer (rowLength fullLength)

theorem length_rows (p : Program) : p.rows.length = tableSize := by
  simp [rows, tableSize]

theorem encodeInto_eq_flatten (p : Program) (buffer : Buffer) :
    p.encodeInto buffer = p.rows.flatten := by
  apply Buffer.overwrite_eq_flatten
  rw [Buffer.length_resize, length_rows]
  rfl

theorem encode_eq_flatten (p : Program) : p.encode = p.rows.flatten := encodeInto_eq_flatten p []

/-- Nothing of what a buffer held before shows in an encoded program. -/
theorem encodeInto_eq_encode (p : Program) (buffer : Buffer) : p.encodeInto buffer = p.encode := by
  rw [encodeInto_eq_flatten, encode_eq_flatten]

theorem length_encode (p : Program) : p.encode.length = fullLength := by
  have h : ∀ r ∈ p.rows, r.length = rowLength := by
    intro r hr
    rw [rows, List.mem_cons, List.mem_map] at hr
    rcases hr with rfl | ⟨i, _, rfl⟩
    · exact Buffer.length_row _
    · exact Buffer.length_row _
  rw [encode_eq_flatten, Buffer.length_flatten h, length_rows]
  rfl

end Program
end Motion
