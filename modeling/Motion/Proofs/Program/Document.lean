import Motion.Proofs.Document
import Motion.Proofs.Number.Widening
import Motion.Proofs.Program.SlotTable

namespace Motion
open Motion.Decode

/-- A value that is read back under a condition only; otherwise there is a null instead of it. -/
def readIf {α : Type} (finite : Bool) (x : α) : Except Decode.Error α :=
  if finite then .ok x else .error (.wrongType .null "f32")

section
variable {α β : Type}

theorem readIf_eq_ok_iff {finite : Bool} {x : α} : readIf finite x = .ok x ↔ finite = true := by
  cases finite with
  | false => simp [readIf]
  | true => simp [readIf]

theorem readIf_bind {b c : Bool} {x : α} {y : β} {f : α → Except Decode.Error β}
    (h : f x = readIf c y) : readIf b x >>= f = readIf (b && c) y := by
  cases b with
  | false => rfl
  | true => exact h

theorem readIf_bind_ok {b : Bool} {x : α} {y : β} {f : α → Except Decode.Error β} (h : f x = .ok y) :
    readIf b x >>= f = readIf b y := by
  cases b with
  | false => rfl
  | true => exact h

theorem mapM_map_eq_readIf {finite : α → Bool} {write : α → Json.Value} {read : Decoder α}
    (xs : List α) (h : ∀ x ∈ xs, read (write x) = readIf (finite x) x) :
    (xs.map write).mapM read = readIf (xs.all finite) xs := by
  induction xs with
  | nil => rfl
  | cons x xs ih =>
    rw [List.forall_mem_cons] at h
    rw [List.map_cons, List.mapM_cons, h.1, ih h.2, List.all_cons]
    apply readIf_bind
    exact readIf_bind_ok rfl

end

theorem single_ofSingle (x : Float32) : single (.ofSingle x) = readIf x.isFinite x := by
  have hwide := Number.isFinite_widen x
  unfold Json.Value.ofSingle
  dsimp only
  rw [hwide]
  cases hx : x.isFinite with
  | false => rfl
  | true =>
    change Except.ok (Number.narrow (Number.widen x)) = .ok x
    rw [Number.narrow_widen hx]

theorem natural_ofNat {bits n : Nat} (h : n < 1 <<< bits) : natural bits (.ofNat n) = .ok n := by
  have hin : (0 ≤ (n : Int) && decide ((n : Int).toNat < 1 <<< bits)) = true := by
    simpa using h
  change (if (0 ≤ (n : Int) && decide ((n : Int).toNat < 1 <<< bits)) = true then
    Except.ok (n : Int).toNat else _) = _
  rw [if_pos hin, Int.toNat_natCast]

theorem vector_ofSingle {n : Nat} (v : Vector Float32 n) :
    vector n single (.array (v.toList.map .ofSingle)) = readIf (v.toList.all Float32.isFinite) v := by
  have hlength : (v.toList.map Json.Value.ofSingle).length = n := by
    rw [List.length_map, Vector.length_toList]
  have hitems := mapM_map_eq_readIf v.toList fun x _ => single_ofSingle x
  unfold vector
  dsimp only
  rw [List.take_of_length_le hlength.le, hitems, hlength]
  apply readIf_bind_ok
  rw [dif_pos v.length_toList, if_neg (Nat.lt_irrefl n)]
  apply congrArg Except.ok
  apply Vector.toList_inj.mp
  rfl

namespace Assignment

def isFinite (a : Assignment) : Bool :=
  a.params.toList.all Float32.isFinite && a.phase.isFinite && a.start.isFinite && a.duration.isFinite

theorem plain_shape : shape.Plain := ⟨by decide, by decide⟩

theorem decode_toJson (a : Assignment) : decode a.toJson = readIf a.isFinite a := by
  have hprimitive : natural 8 (.ofNat a.primitive.toNat) = .ok a.primitive.toNat :=
    natural_ofNat a.primitive.toNat_lt
  change shape.ofEntries setField _ _ = _
  rw [Shape.ofEntries_eq_setAll plain_shape (List.Sublist.refl _) rfl, isFinite, Bool.and_assoc,
    Bool.and_assoc]
  simp only [Shape.setAll_cons, setField, hprimitive, vector_ofSingle, single_ofSingle,
    Attachment.decode_name, Decode.bool, bind_assoc, pure_bind]
  change readIf _ a.params >>= _ = _
  apply readIf_bind
  apply readIf_bind
  apply readIf_bind
  apply readIf_bind_ok
  have hback : a.primitive.toNat.toUInt8 = a.primitive := UInt8.ofNat_toNat
  change Except.ok { a with primitive := a.primitive.toNat.toUInt8 } = _
  rw [hback]

end Assignment

namespace Program

/-- Whether all numbers of a program are finite. -/
def isFinite (p : Program) : Bool :=
  p.wholeBody.isFinite && p.slots.toList.all (fun entry => entry.all Assignment.isFinite) &&
    p.speed.isFinite && p.amplitudeScale.isFinite

theorem plain_shape : shape.Plain := ⟨by decide, by decide⟩

theorem optional_toJson (entry : Option Assignment) :
    optional Assignment.decode (entry.elim .null Assignment.toJson) =
      readIf (entry.all Assignment.isFinite) entry := by
  cases entry with
  | none => rfl
  | some a =>
    change (Assignment.decode a.toJson).map some = readIf a.isFinite (some a)
    rw [Assignment.decode_toJson]
    cases a.isFinite <;> rfl

theorem decodeSlots_toJson (slots : Vector (Option Assignment) tableSize) :
    decodeSlots (.array (slots.toList.map fun entry => entry.elim .null Assignment.toJson)) =
      readIf (slots.toList.all fun entry => entry.all Assignment.isFinite) slots := by
  have hentries := mapM_map_eq_readIf slots.toList fun entry _ => optional_toJson entry
  have hfull : ¬tableSize < slots.toList.length := by
    rw [Vector.length_toList]
    exact Nat.lt_irrefl tableSize
  unfold decodeSlots Decode.sequence
  dsimp only
  rw [hentries]
  apply readIf_bind_ok
  rw [if_neg hfull]
  apply congrArg Except.ok
  apply Vector.ext
  intro slot hslot
  rw [Vector.getElem_ofFn, List.getElem?_eq_getElem (by rwa [Vector.length_toList]),
    Option.join_some, Vector.getElem_toList]

/-- A program is read back from its document exactly if all its numbers are finite. -/
theorem decode_toJson (p : Program) : decode p.toJson = readIf p.isFinite p := by
  change shape.ofEntries setField _ _ = _
  rw [Shape.ofEntries_eq_setAll plain_shape (List.Sublist.refl _) rfl, isFinite, Bool.and_assoc,
    Bool.and_assoc]
  simp only [Shape.setAll_cons, setField, Assignment.decode_toJson, decodeSlots_toJson,
    single_ofSingle, bind_assoc, pure_bind]
  apply readIf_bind
  apply readIf_bind
  apply readIf_bind
  apply readIf_bind_ok
  rfl

theorem part?_of_table {p : Program} {es : List Json.Value}
    (h : ∀ slot, slot < tableSize →
      optional Assignment.decode (es.getD slot .null) = .ok (p.part? slot))
    (hlength : es.length ≤ tableSize) :
    (∀ slot (hslot : slot < es.length),
      optional Assignment.decode es[slot] = .ok (p.part? slot)) ∧
      ∀ slot, es.length ≤ slot → p.part? slot = none := by
  constructor
  · intro slot hslot
    have hentry := h slot (by omega)
    rwa [List.getD_eq_getElem _ _ hslot] at hentry
  · intro slot hslot
    by_cases hin : slot < tableSize
    · have hentry := h slot hin
      rw [List.getD_eq_default _ _ hslot] at hentry
      exact (Except.ok.inj hentry).symm
    · exact part?_eq_none_of_le (Nat.le_of_not_lt hin)

/-- A program is read back from its document, bit by bit, exactly if all its numbers are finite;
otherwise its document is refused. A document with a table of more than 33 entries is refused as
well; any other table fills the slots in order and leaves those behind it empty, and is written in
full. -/
theorem round_trip (p : Program) :
    (decode p.toJson = .ok p ↔ p.isFinite = true) ∧
      (p.isFinite = false → decode p.toJson = .error (.wrongType .null "f32")) ∧
      ∀ v q, decode v = .ok q →
        ∃ es, shape.value? "parts" v = some (.array es) ∧ es.length ≤ 33 ∧
          (∀ slot (hslot : slot < es.length),
            optional Assignment.decode es[slot] = .ok (q.part? slot)) ∧
          (∀ slot, es.length ≤ slot → q.part? slot = none) ∧
          ∃ ws, shape.value? "parts" q.toJson = some (.array ws) ∧ ws.length = 33 := by
  refine ⟨?_, ?_, ?_⟩
  · rw [decode_toJson]
    exact readIf_eq_ok_iff
  · intro hp
    rw [decode_toJson, hp]
    rfl
  · intro v q h
    obtain ⟨es, hes, hlength, hentries⟩ := table_of_decode h
    obtain ⟨hgiven, hempty⟩ := part?_of_table hentries hlength
    refine ⟨es, hes, hlength, hgiven, hempty, _, rfl, ?_⟩
    rw [List.length_map, Vector.length_toList]
    rfl

theorem round_trip_headed :
    decode headedProgram.toJson = .ok headedProgram ∧
      decode { headedProgram with speed := 1.0 / 0.0 }.toJson = .error (.wrongType .null "f32") ∧
      headedProgram.part? 1 = none := by
  obtain ⟨hround, -, htable⟩ := round_trip headedProgram
  refine ⟨hround.mpr (by decide +kernel), ?_, ?_⟩
  · exact (round_trip { headedProgram with speed := 1.0 / 0.0 }).2.1 (by decide +kernel)
  · obtain ⟨es, hes, -, -, hempty, -⟩ := htable headedDocument headedProgram decode_headedDocument
    have hone : some (.array [movingEntry .wave]) = some (Json.Value.array es) := hes
    cases hone
    exact hempty 1 (Nat.le_refl 1)

end Program

end Motion
