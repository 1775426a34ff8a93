import Mathlib.Data.List.Forall2
import Motion.Program.Fingerprint
import Motion.Proofs.Program.Buffer

/-! Entries have different lengths and nothing stands between them, but a stream can be cut into
them in one way only. -/
namespace Motion

/-- Two codes with anything behind them are equal only where both halves are, the coded things up to
a relation. -/
def PrefixCode {α β : Type} (code : α → List β) (same : α → α → Prop) : Prop :=
  ∀ x y rest rest', code x ++ rest = code y ++ rest' ↔ same x y ∧ rest = rest'

namespace PrefixCode

variable {α β : Type} {code : α → List β} {same : α → α → Prop}

theorem of_length (hlength : ∀ x y, (code x).length = (code y).length)
    (h : ∀ x y, code x = code y ↔ same x y) : PrefixCode code same := by
  intro x y rest rest'
  rw [← h]
  constructor
  · intro heq
    exact List.append_inj heq (hlength x y)
  · rintro ⟨hcode, hrest⟩
    rw [hcode, hrest]

theorem eq_iff (h : PrefixCode code same) (x y : α) : code x = code y ↔ same x y := by
  have hnil := h x y [] []
  simpa only [List.append_nil, and_true] using hnil

/-- Lists of the same number of things are cut one after the other. -/
theorem flatMap (h : PrefixCode code same) {xs ys : List α} (hlength : xs.length = ys.length)
    (rest rest' : List β) :
    xs.flatMap code ++ rest = ys.flatMap code ++ rest' ↔
      List.Forall₂ same xs ys ∧ rest = rest' := by
  induction xs generalizing ys with
  | nil =>
    obtain rfl : ys = [] := List.length_eq_zero_iff.mp hlength.symm
    simp
  | cons x xs ih =>
    cases ys with
    | nil => cases hlength
    | cons y ys =>
      have htail : xs.length = ys.length := Nat.succ.inj hlength
      rw [List.flatMap_cons, List.flatMap_cons, List.append_assoc, List.append_assoc, h, ih htail,
        List.forall₂_cons, and_assoc]

theorem flatMap_eq_iff (h : PrefixCode code same) {xs ys : List α}
    (hlength : xs.length = ys.length) :
    xs.flatMap code = ys.flatMap code ↔ List.Forall₂ same xs ys := by
  have hnil := h.flatMap hlength [] []
  simpa only [List.append_nil, and_true] using hnil

end PrefixCode

theorem toBits_injective : Function.Injective Float32.toBits := by
  rintro ⟨⟨v, hv⟩⟩ ⟨⟨w, hw⟩⟩ h
  obtain rfl : v = w := h
  rfl

/-- A word is told by its four bytes. -/
theorem word_eq_of_bytes {v w : UInt32} (h₀ : v.toUInt8 = w.toUInt8)
    (h₁ : (v >>> 8).toUInt8 = (w >>> 8).toUInt8) (h₂ : (v >>> 16).toUInt8 = (w >>> 16).toUInt8)
    (h₃ : (v >>> 24).toUInt8 = (w >>> 24).toUInt8) : v = w := by
  have hv := v.toNat_lt
  have hw := w.toNat_lt
  apply UInt32.toNat_inj.mp
  rw [← UInt8.toNat_inj] at h₀ h₁ h₂ h₃
  simp only [UInt32.toNat_toUInt8, UInt32.toNat_shiftRight, UInt32.reduceToNat,
    Nat.shiftRight_eq_div_pow, Nat.reduceMod, Nat.reducePow] at h₀ h₁ h₂ h₃
  omega

theorem singleBytes_eq_iff (x y : Float32) : singleBytes x = singleBytes y ↔ x.toBits = y.toBits := by
  constructor
  · intro h
    simp only [singleBytes, List.cons.injEq, and_true] at h
    exact word_eq_of_bytes h.1 h.2.1 h.2.2.1 h.2.2.2
  · intro h
    rw [toBits_injective h]

theorem prefixCode_singleBytes : PrefixCode singleBytes fun x y => x.toBits = y.toBits :=
  .of_length (fun _ _ => rfl) singleBytes_eq_iff

/-- Two assignments are the same but for their attachment. -/
structure Assignment.SameMotion (a b : Assignment) : Prop where
  primitive : a.primitive = b.primitive
  active : a.active = b.active
  phase : a.phase.toBits = b.phase.toBits
  start : a.start.toBits = b.start.toBits
  duration : a.duration.toBits = b.duration.toBits
  params : ∀ (i : Nat) (h : i < paramCount), a.params[i].toBits = b.params[i].toBits

/-- Both entries are empty, or both hold the same motion. -/
inductive SameEntry : Option Assignment → Option Assignment → Prop
  | empty : SameEntry none none
  | motion {a b : Assignment} (h : a.SameMotion b) : SameEntry (some a) (some b)

theorem sameEntry_some_iff (a b : Assignment) : SameEntry (some a) (some b) ↔ a.SameMotion b := by
  constructor
  · rintro ⟨⟩
    assumption
  · exact SameEntry.motion

theorem boolByte_eq_iff (b c : Bool) : boolByte b = boolByte c ↔ b = c := by
  cases b <;> cases c <;> decide

theorem forall₂_params_iff (v w : Vector Float32 paramCount) :
    List.Forall₂ (fun x y : Float32 => x.toBits = y.toBits) v.toList w.toList ↔
      ∀ (i : Nat) (h : i < paramCount), v[i].toBits = w[i].toBits := by
  rw [List.forall₂_iff_get]
  simp

theorem prefixCode_assignment : PrefixCode Assignment.stream Assignment.SameMotion := by
  intro a b rest rest'
  have hparams : a.params.toList.length = b.params.toList.length := by simp
  simp only [Assignment.stream, List.cons_append, List.nil_append, List.append_assoc,
    List.cons.injEq, boolByte_eq_iff, prefixCode_singleBytes _ _ _ _,
    prefixCode_singleBytes.flatMap hparams, forall₂_params_iff]
  constructor
  · rintro ⟨hprimitive, hactive, hphase, hstart, hduration, hparams, hrest⟩
    exact ⟨⟨hprimitive, hactive, hphase, hstart, hduration, hparams⟩, hrest⟩
  · rintro ⟨⟨hprimitive, hactive, hphase, hstart, hduration, hparams⟩, hrest⟩
    exact ⟨hprimitive, hactive, hphase, hstart, hduration, hparams, hrest⟩

/-- The first byte of an entry says whether more follow. -/
theorem prefixCode_entry : PrefixCode entryStream SameEntry := by
  intro x y rest rest'
  cases x with
  | none =>
    cases y with
    | none => simp [entryStream, SameEntry.empty]
    | some b =>
      have hnot : ¬SameEntry none (some b) := by rintro ⟨⟩
      simp [entryStream, hnot]
  | some a =>
    cases y with
    | none =>
      have hnot : ¬SameEntry (some a) none := by rintro ⟨⟩
      simp [entryStream, hnot]
    | some b =>
      simp only [entryStream, List.cons_append, List.cons.injEq, true_and, sameEntry_some_iff]
      exact prefixCode_assignment a b rest rest'

theorem row_eq_of_sameEntry {x y : Option Assignment} (h : SameEntry x y) :
    Buffer.row x = Buffer.row y := by
  cases h with
  | empty => rfl
  | motion h =>
    rename_i a b
    have hparams : a.params = b.params := Vector.ext fun i hi => toBits_injective (h.params i hi)
    simp only [Buffer.row, Buffer.activeRow, h.primitive, h.active, toBits_injective h.phase,
      toBits_injective h.start, toBits_injective h.duration, hparams]

theorem prefixCode_row : PrefixCode Buffer.row fun x y => Buffer.row x = Buffer.row y := by
  apply PrefixCode.of_length
  · intro x y
    rw [Buffer.length_row, Buffer.length_row]
  · intro x y
    exact Iff.rfl

namespace Program

/-- The whole body and the part slots in order. -/
def entries (p : Program) : List (Option Assignment) :=
  some p.wholeBody :: (List.range slotCount).map fun i => p.part? (i + 1)

theorem length_entries (p : Program) : p.entries.length = tableSize := by
  simp [entries, tableSize]

theorem length_entries_eq (p q : Program) : p.entries.length = q.entries.length := by
  rw [length_entries, length_entries]

theorem rows_eq_map (p : Program) : p.rows = p.entries.map Buffer.row := by
  simp [rows, entries]

theorem stream_eq_append (p : Program) :
    p.stream = singleBytes p.speed ++
      (singleBytes p.amplitudeScale ++ p.entries.flatMap entryStream) := by
  simp [stream, entries, List.flatMap_map]

theorem forall₂_entries_iff (same : Option Assignment → Option Assignment → Prop)
    (p q : Program) :
    List.Forall₂ same p.entries q.entries ↔ same (some p.wholeBody) (some q.wholeBody) ∧
      ∀ slot, 1 ≤ slot → slot ≤ slotCount → same (p.part? slot) (q.part? slot) := by
  rw [entries, entries, List.forall₂_cons, List.forall₂_map_left_iff, List.forall₂_map_right_iff,
    List.forall₂_same]
  refine and_congr_right fun _ => ⟨?_, ?_⟩
  · intro h slot hlow hhigh
    have hslot := h (slot - 1) (List.mem_range.mpr (by omega))
    rwa [Nat.sub_add_cancel hlow] at hslot
  · intro h i hi
    exact h (i + 1) (by omega) (List.mem_range.mp hi)

/-- Two programs have the same multipliers, and the same motion or none at each place that an
executor gets to see. -/
structure SameContent (p q : Program) : Prop where
  speed : p.speed.toBits = q.speed.toBits
  amplitudeScale : p.amplitudeScale.toBits = q.amplitudeScale.toBits
  wholeBody : p.wholeBody.SameMotion q.wholeBody
  parts : ∀ slot, 1 ≤ slot → slot ≤ slotCount → SameEntry (p.part? slot) (q.part? slot)

theorem stream_eq_iff (p q : Program) : p.stream = q.stream ↔ p.SameContent q := by
  rw [stream_eq_append, stream_eq_append, prefixCode_singleBytes, prefixCode_singleBytes,
    prefixCode_entry.flatMap_eq_iff (length_entries_eq p q), forall₂_entries_iff, sameEntry_some_iff]
  constructor
  · rintro ⟨hspeed, hscale, hbody, hparts⟩
    exact ⟨hspeed, hscale, hbody, hparts⟩
  · rintro ⟨hspeed, hscale, hbody, hparts⟩
    exact ⟨hspeed, hscale, hbody, hparts⟩

theorem encode_eq_iff (p q : Program) :
    p.encode = q.encode ↔
      List.Forall₂ (fun x y => Buffer.row x = Buffer.row y) p.entries q.entries := by
  rw [encode_eq_flatten, encode_eq_flatten, rows_eq_map, rows_eq_map, ← List.flatMap_def,
    ← List.flatMap_def, prefixCode_row.flatMap_eq_iff (length_entries_eq p q)]

theorem map_toBits_encode_eq_iff (p q : Program) :
    p.encode.map Float32.toBits = q.encode.map Float32.toBits ↔ p.encode = q.encode :=
  toBits_injective.list_map.eq_iff

theorem encode_eq_of_sameContent {p q : Program} (h : p.SameContent q) : p.encode = q.encode := by
  rw [encode_eq_iff, forall₂_entries_iff]
  refine ⟨row_eq_of_sameEntry (.motion h.wholeBody), ?_⟩
  intro slot hlow hhigh
  exact row_eq_of_sameEntry (h.parts slot hlow hhigh)

/-- The streams of two programs are equal exactly where they have the same content, and then they
give the same buffer and the same multipliers. -/
theorem stream_eq_iff_sameContent (p q : Program) :
    (p.stream = q.stream ↔ p.SameContent q) ∧
      (p.stream = q.stream →
        p.encode.map Float32.toBits = q.encode.map Float32.toBits ∧
          p.speed.toBits = q.speed.toBits ∧
          p.amplitudeScale.toBits = q.amplitudeScale.toBits) := by
  refine ⟨stream_eq_iff p q, ?_⟩
  intro h
  have hsame := (stream_eq_iff p q).mp h
  refine ⟨?_, hsame.speed, hsame.amplitudeScale⟩
  rw [map_toBits_encode_eq_iff]
  exact encode_eq_of_sameContent hsame

end Program

end Motion
