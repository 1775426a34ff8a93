import Mathlib.Data.List.GetD
import Motion.Program.Document
import Motion.Proofs.Compile.Motions
import Motion.Proofs.Record

namespace Motion
open Motion.Decode

namespace Program

variable {p q : Program} {first : Option Assignment}

theorem toList_slots (p : Program) : p.slots.toList = (List.range tableSize).map p.part? := by
  apply List.ext_getElem
  · simp
  · intro slot h _
    rw [Vector.length_toList] at h
    rw [Vector.getElem_toList, List.getElem_map, List.getElem_range, part?,
      Vector.getElem?_eq_getElem h, Option.join_some]

theorem part?_eq_none_of_le {slot : Nat} (h : tableSize ≤ slot) : p.part? slot = none := by
  rw [part?, Vector.getElem?_eq_none h, Option.join_none]

theorem zipIdx_slots (p : Program) :
    p.slots.toList.zipIdx = (List.range tableSize).map fun slot => (p.part? slot, slot) := by
  rw [toList_slots]
  apply List.ext_getElem
  · simp
  · intro slot _ _
    rw [List.getElem_zipIdx, List.getElem_map, List.getElem_map, List.getElem_range, Nat.zero_add]

theorem parts_eq (p : Program) :
    p.parts = (List.range tableSize).filterMap fun slot => (p.part? slot).map fun a => (slot, a) := by
  rw [parts, zipIdx_slots, List.filterMap_map]
  rfl

/-- The parts stand in the order of their slots. -/
theorem map_fst_parts (p : Program) :
    p.parts.map Prod.fst = (List.range tableSize).filter fun slot => (p.part? slot).isSome := by
  rw [parts_eq, List.map_filterMap, ← List.filterMap_eq_filter]
  congr 1
  funext slot
  rw [Option.guard]
  cases p.part? slot <;> rfl

theorem mem_parts_iff {slot : Nat} {a : Assignment} :
    (slot, a) ∈ p.parts ↔ p.part? slot = some a := by
  rw [parts_eq, List.mem_filterMap]
  constructor
  · rintro ⟨slot', -, h⟩
    obtain ⟨a', ha', heq⟩ := Option.map_eq_some_iff.mp h
    cases heq
    exact ha'
  · intro h
    have hslot : slot < tableSize := by
      by_contra hge
      rw [part?_eq_none_of_le (Nat.le_of_not_lt hge)] at h
      cases h
    refine ⟨slot, List.mem_range.mpr hslot, ?_⟩
    rw [h, Option.map_some]

theorem partCount_eq_length (p : Program) : p.partCount = p.parts.length := by
  rw [← List.length_map Prod.fst, map_fst_parts, partCount, toList_slots, List.countP_map,
    List.countP_eq_length_filter]
  rfl

/-- What is counted besides the slots that an executor gets to see is slot 0. -/
theorem partCount_eq_add (p : Program) :
    p.partCount = p.entries.tail.countP Option.isSome + (p.part? 0).toList.length := by
  rw [partCount, toList_slots, tableSize, List.range_succ_eq_map, List.map_cons, List.countP_cons,
    List.map_map, entries, List.tail_cons]
  cases p.part? 0 <;> rfl

theorem part?_zero_setPart? {slot : Nat} {a : Assignment} (h : p.setPart? slot a = some q) :
    q.part? 0 = p.part? 0 := by
  unfold setPart? at h
  split at h
  · rename_i hslot
    cases h
    have hne : slot ≠ 0 := by omega
    rw [part?, part?, Vector.getElem?_set_ne hslot.2 hne]
  · cases h

theorem part?_zero_new (body : Assignment) (speed scale : Float32) :
    (new body speed scale).part? 0 = none := by
  rw [part?, new, Vector.getElem?_replicate]
  rfl

theorem part?_zero_of_compile {t : Template} {engine : Pattern.Engine} {options : CompileOptions}
    {parts : List Part} {overrides : Overrides}
    (h : t.compile engine options parts overrides = .ok p) : p.part? 0 = none := by
  apply Template.kept_of_compile _ _ h
  · intro p slot a q _ hp hset
    rw [part?_zero_setPart? hset, hp]
  · intro body speed scale _
    exact part?_zero_new body speed scale

/-- The motion that a document puts at the head of its table. -/
def headMotion? (v : Json.Value) : Option Assignment :=
  match shape.value? "parts" v with
  | some (.array (w :: _)) => (optional Assignment.decode w).toOption.join
  | _ => none

theorem decodeSlots_ok {w : Json.Value} {slots : Vector (Option Assignment) tableSize}
    (h : decodeSlots w = .ok slots) :
    ∃ es, w = .array es ∧ es.length ≤ tableSize ∧
      ∀ slot, slot < tableSize →
        optional Assignment.decode (es.getD slot .null) = .ok (slots[slot]?).join := by
  obtain ⟨entries, hentries, hlimit⟩ := bind_eq_ok_iff.mp h
  cases w with
  | array es =>
    have hall := forall₂_of_mapM hentries
    have hlength := hall.length_eq
    refine ⟨es, rfl, ?_⟩
    by_cases hlong : tableSize < entries.length
    · rw [if_pos hlong] at hlimit
      cases hlimit
    · rw [if_neg hlong] at hlimit
      have hslots : (Vector.ofFn fun slot : Fin tableSize => (entries[slot.val]?).join) = slots :=
        Except.ok.inj hlimit
      refine ⟨by omega, ?_⟩
      intro slot hslot
      rw [← hslots, Vector.getElem?_ofFn, dif_pos hslot, Option.join_some]
      dsimp only
      by_cases hin : slot < es.length
      · have hentry := hall.get hin (by omega)
        rw [List.getD_eq_getElem _ _ hin, List.getElem?_eq_getElem (by omega), Option.join_some]
        exact hentry
      · rw [List.getD_eq_default _ _ (Nat.le_of_not_lt hin), List.getElem?_eq_none (by omega)]
        rfl
  | _ => cases hentries

/-- The table of a decoded program is that of its document, filled up with empty entries. -/
theorem table_of_decode {v : Json.Value} (h : Program.decode v = .ok p) :
    ∃ es, shape.value? "parts" v = some (.array es) ∧ es.length ≤ tableSize ∧
      ∀ slot, slot < tableSize →
        optional Assignment.decode (es.getD slot .null) = .ok (p.part? slot) := by
  have hsettles : Shape.Settles setField "parts" fun w p => decodeSlots w = .ok p.slots := by
    constructor
    · intro p w q hset
      obtain ⟨slots, hslots, hset⟩ := bind_eq_ok_iff.mp hset
      cases hset
      exact hslots
    · intro p field v w q hfield hset hp
      unfold setField at hset
      split at hset
      · obtain ⟨body, -, hset⟩ := bind_eq_ok_iff.mp hset
        cases hset
        exact hp
      · exact absurd rfl hfield
      · obtain ⟨speed, -, hset⟩ := bind_eq_ok_iff.mp hset
        cases hset
        exact hp
      · obtain ⟨scale, -, hset⟩ := bind_eq_ok_iff.mp hset
        cases hset
        exact hp
      · cases hset
        exact hp
  have hfield : Field.needed "parts" ∈ shape.fields := by simp [shape]
  obtain ⟨w, hw, hslots⟩ := Shape.of_record hfield rfl (by decide) hsettles h
  obtain ⟨es, rfl, hlength, hes⟩ := decodeSlots_ok hslots
  exact ⟨es, hw, hlength, hes⟩

theorem part?_zero_of_decode {v : Json.Value} (h : Program.decode v = .ok p) :
    p.part? 0 = headMotion? v := by
  obtain ⟨es, hes, -, hentries⟩ := table_of_decode h
  have hzero := hentries 0 (by decide)
  rw [headMotion?, hes]
  cases es with
  | nil => exact (Except.ok.inj hzero).symm
  | cons w es =>
    change optional Assignment.decode w = .ok (p.part? 0) at hzero
    simp only [hzero, Except.toOption, Option.join_some]

/-- Programs that can be obtained, with what a document has put in slot 0. -/
inductive Obtained : Option Assignment → Program → Prop where
  | new (body : Assignment) (speed amplitudeScale : Float32) :
    Obtained none (.new body speed amplitudeScale)
  | setPart {first : Option Assignment} {p q : Program} {slot : Nat} {a : Assignment} :
    Obtained first p → p.setPart? slot a = some q → Obtained first q
  | compile {t : Template} {engine : Pattern.Engine} {options : CompileOptions} {parts : List Part}
      {overrides : Overrides} {p : Program} :
      t.compile engine options parts overrides = .ok p → Obtained none p
  | decode {v : Json.Value} {p : Program} : Program.decode v = .ok p → Obtained (headMotion? v) p

theorem part?_zero_of_obtained (h : Obtained first p) : p.part? 0 = first := by
  induction h with
  | new body speed scale => exact part?_zero_new body speed scale
  | setPart _ hset ih => rw [part?_zero_setPart? hset, ih]
  | compile hrun => exact part?_zero_of_compile hrun
  | decode hdecode => exact part?_zero_of_decode hdecode

/-- Neither the buffer nor the fingerprint looks at slot 0. -/
theorem entries_set_zero (p : Program) (entry : Option Assignment) :
    { p with slots := p.slots.set 0 entry }.entries = p.entries := by
  have hpart (i : Nat) : (p.slots.set 0 entry)[i + 1]?.join = (p.slots[i + 1]?).join := by
    rw [Vector.getElem?_set_ne (by decide) (by omega)]
  simp only [entries, part?, hpart]

theorem encode_set_zero (p : Program) (entry : Option Assignment) :
    { p with slots := p.slots.set 0 entry }.encode = p.encode := by
  rw [encode, encode, encodeInto, encodeInto, rows_eq_map, rows_eq_map, entries_set_zero]

theorem stream_set_zero (p : Program) (entry : Option Assignment) :
    { p with slots := p.slots.set 0 entry }.stream = p.stream := by
  rw [stream_eq_append, stream_eq_append, entries_set_zero]

/-- The table of a program that can be obtained has 33 entries. Its parts are listed in the order of
their slots: the part slots that are assigned, which are what an executor gets to see, and before
them what a document has put in slot 0, which no executor gets to see. -/
theorem table_of_obtained (h : Obtained first p) :
    p.slots.toList.length = 33 ∧ p.part? 0 = first ∧
      (p.parts.map Prod.fst).Pairwise (· < ·) ∧
      (∀ slot a, (slot, a) ∈ p.parts ↔
        slot = 0 ∧ first = some a ∨ 1 ≤ slot ∧ slot ≤ 32 ∧ p.part? slot = some a) ∧
      p.partCount = p.parts.length ∧
      p.partCount = p.entries.tail.countP Option.isSome + first.toList.length ∧
      ∀ entry, { p with slots := p.slots.set 0 entry }.encode = p.encode ∧
        { p with slots := p.slots.set 0 entry }.stream = p.stream := by
  have hzero := part?_zero_of_obtained h
  refine ⟨p.slots.length_toList, hzero, ?_, ?_, p.partCount_eq_length, ?_, ?_⟩
  · rw [map_fst_parts]
    exact List.pairwise_lt_range.filter _
  · intro slot a
    rw [mem_parts_iff]
    constructor
    · intro hslot
      have hbound : slot < tableSize := by
        by_contra hge
        rw [part?_eq_none_of_le (Nat.le_of_not_lt hge)] at hslot
        cases hslot
      rcases Nat.eq_zero_or_pos slot with rfl | hpos
      · exact Or.inl ⟨rfl, hzero ▸ hslot⟩
      · exact Or.inr ⟨hpos, Nat.le_of_lt_succ hbound, hslot⟩
    · rintro (⟨rfl, hfirst⟩ | ⟨-, -, hslot⟩)
      · rw [hzero, hfirst]
      · exact hslot
  · rw [← hzero]
    exact p.partCount_eq_add
  · intro entry
    exact ⟨p.encode_set_zero entry, p.stream_set_zero entry⟩

def movingEntry (primitive : Primitive) : Json.Value :=
  .object [("primitive_id", .ofNat primitive.id.toNat),
    ("params", .array (List.replicate paramCount (.integer 0))), ("phase", .integer 0),
    ("start_time", .integer 0), ("duration", .integer 0), ("active", .bool true)]

/-- A document whose table has one entry, which stands in slot 0. -/
def headedDocument : Json.Value :=
  .object [("whole_body", movingEntry .bob), ("parts", .array [movingEntry .wave]),
    ("speed", .integer 1), ("amplitude_scale", .integer 1)]

def headedProgram : Program :=
  let p := new (.new .bob []) 1.0 1.0
  { p with slots := p.slots.set 0 (some (.new .wave [])) }

theorem decode_headedDocument : Program.decode headedDocument = .ok headedProgram := rfl

theorem table_of_obtained_headed :
    Obtained (headMotion? headedDocument) headedProgram ∧
      headedProgram.part? 0 = headMotion? headedDocument ∧
      headedProgram.partCount = headedProgram.parts.length := by
  have hobtained : Obtained (headMotion? headedDocument) headedProgram := .decode decode_headedDocument
  obtain ⟨-, hzero, -, -, hcount, -⟩ := table_of_obtained hobtained
  exact ⟨hobtained, hzero, hcount⟩

/-- A document can put a motion in slot 0, which is then listed and counted as a part, although no
part slot is assigned. -/
theorem exists_decode_part_zero :
    Program.decode headedDocument = .ok headedProgram ∧ (headedProgram.part? 0).isSome = true ∧
      headedProgram.parts.map Prod.fst = [0] ∧ headedProgram.partCount = 1 ∧
      headedProgram.entries.tail.countP Option.isSome = 0 :=
  ⟨decode_headedDocument, rfl, rfl, rfl, rfl⟩

end Program

end Motion
