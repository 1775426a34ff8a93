import Motion.Proofs.Program.Stream

/-! Where the stream of a program says more than its buffer: a row shows a motion only where it is
active. -/
namespace Motion

/-- The numbers of primitives differ from each other and from that of an inactive row. -/
theorem toUInt8_ofNat {n : Nat} (h : n < 256) : (Float32.ofNat n).toUInt8.toNat = n := by
  have hall : ∀ n < 256, (Float32.ofNat n).toUInt8.toNat = n := by decide +kernel
  exact hall n h

theorem primitive_eq_of_ofNat {a b : UInt8} (h : Float32.ofNat a.toNat = Float32.ofNat b.toNat) :
    a = b := by
  apply UInt8.toNat_inj.mp
  rw [← toUInt8_ofNat a.toNat_lt, ← toUInt8_ofNat b.toNat_lt, h]

theorem ofNat_ne_inactive (a : UInt8) : Float32.ofNat a.toNat ≠ -1.0 := by
  intro h
  have hnegative : (-1.0 : Float32).toUInt8.toNat = 0 := by decide +kernel
  have hzero : Float32.ofNat 0 ≠ -1.0 := by decide +kernel
  have ha := toUInt8_ofNat a.toNat_lt
  rw [h, hnegative] at ha
  rw [← ha] at h
  exact hzero h

/-- Whether a row shows the motion of an entry. -/
def isShown (entry : Option Assignment) : Bool := entry.any Assignment.active

theorem isShown_iff {x : Option Assignment} : isShown x = true ↔ ∃ a, x = some a ∧ a.active :=
  Option.any_eq_true _ _

namespace Buffer

theorem row_of_active {a : Assignment} (ha : a.active) : row (some a) = activeRow a := by
  rw [row, if_pos ha]

theorem row_of_not_isShown {x : Option Assignment} (hx : isShown x = false) : row x = inactiveRow := by
  cases x with
  | none => rfl
  | some a =>
    have ha : ¬a.active = true := Bool.eq_false_iff.mp hx
    rw [row, if_neg ha]

theorem activeRow_ne_inactiveRow (a : Assignment) : activeRow a ≠ inactiveRow := by
  intro h
  exact ofNat_ne_inactive a.primitive (List.cons.inj h).1

theorem sameMotion_of_activeRow_eq {a b : Assignment} (ha : a.active) (hb : b.active)
    (h : activeRow a = activeRow b) : a.SameMotion b := by
  simp only [activeRow, List.cons_append, List.nil_append, List.cons.injEq, Vector.toList_inj] at h
  obtain ⟨hprimitive, hphase, hstart, hduration, hparams⟩ := h
  exact {
    primitive := primitive_eq_of_ofNat hprimitive
    active := ha.trans hb.symm
    phase := by rw [hphase]
    start := by rw [hstart]
    duration := by rw [hduration]
    params := by
      intro i hi
      rw [hparams] }

/-- Equal rows show the same motion or none. -/
theorem shown_of_row_eq {x y : Option Assignment} (h : row x = row y) :
    isShown x = isShown y ∧ (isShown x → SameEntry x y) := by
  cases hx : isShown x with
  | false =>
    rw [row_of_not_isShown hx] at h
    cases hy : isShown y with
    | false => exact ⟨rfl, fun hf => absurd hf Bool.false_ne_true⟩
    | true =>
      obtain ⟨b, rfl, hb⟩ := isShown_iff.mp hy
      rw [row_of_active hb] at h
      exact absurd h.symm (activeRow_ne_inactiveRow b)
  | true =>
    obtain ⟨a, rfl, ha⟩ := isShown_iff.mp hx
    rw [row_of_active ha] at h
    cases hy : isShown y with
    | false =>
      rw [row_of_not_isShown hy] at h
      exact absurd h (activeRow_ne_inactiveRow a)
    | true =>
      obtain ⟨b, rfl, hb⟩ := isShown_iff.mp hy
      rw [row_of_active hb] at h
      exact ⟨rfl, fun _ => .motion (sameMotion_of_activeRow_eq ha hb h)⟩

end Buffer

namespace Program

/-- Two programs agree on what the rows of the first one do not show. -/
structure SameHidden (p q : Program) : Prop where
  wholeBody : p.wholeBody.active = false → p.wholeBody.SameMotion q.wholeBody
  parts : ∀ slot, 1 ≤ slot → slot ≤ slotCount → isShown (p.part? slot) = false →
    SameEntry (p.part? slot) (q.part? slot)

/-- Every motion that an executor could see is active. -/
structure AllActive (p : Program) : Prop where
  wholeBody : p.wholeBody.active
  parts : ∀ slot a, 1 ≤ slot → slot ≤ slotCount → p.part? slot = some a → a.active

variable {p q : Program}

theorem rows_eq_of_encode_eq (h : p.encode = q.encode) :
    Buffer.row (some p.wholeBody) = Buffer.row (some q.wholeBody) ∧
      ∀ slot, 1 ≤ slot → slot ≤ slotCount →
        Buffer.row (p.part? slot) = Buffer.row (q.part? slot) := by
  rw [encode_eq_iff] at h
  exact (forall₂_entries_iff _ p q).mp h

theorem sameContent_iff_of_encode_eq (hspeed : p.speed.toBits = q.speed.toBits)
    (hscale : p.amplitudeScale.toBits = q.amplitudeScale.toBits) (h : p.encode = q.encode) :
    p.SameContent q ↔ p.SameHidden q := by
  obtain ⟨hbody, hparts⟩ := rows_eq_of_encode_eq h
  constructor
  · intro hsame
    exact ⟨fun _ => hsame.wholeBody, fun slot hlow hhigh _ => hsame.parts slot hlow hhigh⟩
  · intro hhidden
    refine ⟨hspeed, hscale, ?_, ?_⟩
    · cases hactive : p.wholeBody.active with
      | false => exact hhidden.wholeBody hactive
      | true =>
        rw [← sameEntry_some_iff]
        exact (Buffer.shown_of_row_eq hbody).2 hactive
    · intro slot hlow hhigh
      cases hshown : isShown (p.part? slot) with
      | false => exact hhidden.parts slot hlow hhigh hshown
      | true => exact (Buffer.shown_of_row_eq (hparts slot hlow hhigh)).2 hshown

theorem part?_eq_none_of_allActive (hp : p.AllActive) {slot : Nat} (hlow : 1 ≤ slot)
    (hhigh : slot ≤ slotCount) (h : isShown (p.part? slot) = false) : p.part? slot = none := by
  cases hslot : p.part? slot with
  | none => rfl
  | some a =>
    have ha : a.active = true := hp.parts slot a hlow hhigh hslot
    rw [hslot] at h
    exact absurd ha (Bool.eq_false_iff.mp h)

theorem sameHidden_of_allActive (hp : p.AllActive) (hq : q.AllActive) (h : p.encode = q.encode) :
    p.SameHidden q where
  wholeBody hbody := absurd hp.wholeBody (Bool.eq_false_iff.mp hbody)
  parts slot hlow hhigh hshown := by
    have hrow := (rows_eq_of_encode_eq h).2 slot hlow hhigh
    have hshown' : isShown (q.part? slot) = false := by
      rw [← (Buffer.shown_of_row_eq hrow).1]
      exact hshown
    rw [part?_eq_none_of_allActive hp hlow hhigh hshown,
      part?_eq_none_of_allActive hq hlow hhigh hshown']
    exact SameEntry.empty

theorem fingerprint_eq_of_allActive (hspeed : p.speed.toBits = q.speed.toBits)
    (hscale : p.amplitudeScale.toBits = q.amplitudeScale.toBits) (h : p.encode = q.encode)
    (hp : p.AllActive) (hq : q.AllActive) : Fingerprint.of p = Fingerprint.of q := by
  have hstream : p.stream = q.stream := by
    rw [stream_eq_iff, sameContent_iff_of_encode_eq hspeed hscale h]
    exact sameHidden_of_allActive hp hq h
  rw [Fingerprint.of, hstream, Fingerprint.of]

/-- Programs with the same multipliers and the same buffer have the same stream exactly where they
agree on what no row shows, and the same fingerprint where all their motions are active. -/
theorem stream_eq_iff_sameHidden (hspeed : p.speed.toBits = q.speed.toBits)
    (hscale : p.amplitudeScale.toBits = q.amplitudeScale.toBits)
    (hencode : p.encode.map Float32.toBits = q.encode.map Float32.toBits) :
    (p.stream = q.stream ↔ p.SameHidden q) ∧
      (p.AllActive → q.AllActive → Fingerprint.of p = Fingerprint.of q) := by
  rw [map_toBits_encode_eq_iff] at hencode
  constructor
  · rw [stream_eq_iff, sameContent_iff_of_encode_eq hspeed hscale hencode]
  · exact fingerprint_eq_of_allActive hspeed hscale hencode

/-- A motion that has been switched off. -/
def resting : Assignment := { Assignment.new .sway [] with active := false }

/-- A program that bobs, with some entry in its first slot. -/
def bobbing (entry : Option Assignment) : Program :=
  { new (.new .bob []) 1.0 1.0 with slots := (Vector.replicate tableSize none).set 1 entry }

theorem part?_bobbing (entry : Option Assignment) (slot : Nat) :
    (bobbing entry).part? slot = if slot = 1 then entry else none := by
  rw [part?, bobbing, Vector.getElem?_set, Vector.getElem?_replicate]
  by_cases h : slot = 1
  · rw [if_pos h, if_pos h.symm]
    rfl
  · rw [if_neg h, if_neg (Ne.symm h)]
    split <;> rfl

theorem allActive_bobbing {a : Assignment} (ha : a.active) : (bobbing (some a)).AllActive where
  wholeBody := rfl
  parts slot b _ _ h := by
    rw [part?_bobbing] at h
    split at h
    · cases h
      exact ha
    · cases h

/-- An attachment is not part of a fingerprint. -/
theorem stream_eq_iff_sameHidden_attachment :
    Fingerprint.of (bobbing (some (.new .sway []))) =
      Fingerprint.of (bobbing (some { Assignment.new .sway [] with attachment := .uniform })) := by
  apply (stream_eq_iff_sameHidden _ _ _).2
  · exact allActive_bobbing rfl
  · exact allActive_bobbing rfl
  · rfl
  · rfl
  · decide +kernel

/-- A motion that is not active shows in the stream, but neither in the buffer nor in the
multipliers. -/
theorem exists_stream_ne_of_encode_eq :
    (bobbing none).speed.toBits = (bobbing (some resting)).speed.toBits ∧
      (bobbing none).amplitudeScale.toBits = (bobbing (some resting)).amplitudeScale.toBits ∧
      (bobbing none).encode.map Float32.toBits =
        (bobbing (some resting)).encode.map Float32.toBits ∧
      (bobbing none).stream ≠ (bobbing (some resting)).stream := by
  refine ⟨rfl, rfl, ?_, ?_⟩
  · decide +kernel
  · decide +kernel

end Program

end Motion
