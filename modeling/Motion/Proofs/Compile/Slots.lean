import Mathlib.Data.Nat.Find
import Motion.Proofs.Compile.Environment
import Motion.Proofs.Compile.Targets
import Motion.Proofs.Number.Natural

/-! Which rule each slot of a compiled program belongs to, said without the ids that the compiler
claims on its way. -/
namespace Motion

namespace Slots
open Targets

variable {engine : Pattern.Engine} {options : CompileOptions} {g : Globals} {total : Nat}
  {parts : List Part} {rules : List Rule}

/-- A spec yields a motion for the target of a rule at a position. -/
def YieldsAt (options : CompileOptions) (g : Globals) (parts : List Part) (rules : List Rule)
    (r : Rule) (i k : Nat) (a : Assignment) : Prop :=
  r.motion.Yields options (g.environment k (ofRule parts rules i).length) r.attachment a

/-- A slot holds the motion of a rule's last target with the id of the slot. -/
def Holds (options : CompileOptions) (g : Globals) (parts : List Part) (rules : List Rule)
    (p : Program) (s i : Nat) : Prop :=
  ∃ r k a, rules[i]? = some r ∧
    IsGreatest {k | ∃ q, (ofRule parts rules i)[k]? = some q ∧ q.id = s} k ∧
    YieldsAt options g parts rules r i k a ∧ p.part? s = some a

/-- What decides about a slot. -/
inductive Owned (options : CompileOptions) (g : Globals) (parts : List Part)
    (rules : List Rule) (p : Program) (s : Nat) : Prop
  | named {i : Nat} (hlast : IsGreatest {i | Named parts rules s i} i)
      (h : Holds options g parts rules p s i)
  | suggested {i : Nat} (hnamed : ∀ j, ¬Named parts rules s j)
      (hfirst : IsLeast {i | Suggested parts rules s i} i)
      (h : Holds options g parts rules p s i)
  | empty (hnamed : ∀ j, ¬Named parts rules s j) (hsuggested : ∀ j, ¬Suggested parts rules s j)
      (h : p.part? s = none)

theorem exists_isGreatest {P : Nat → Prop} {i bound : Nat} (hi : P i)
    (hbound : ∀ j, P j → j ≤ bound) : ∃ j, IsGreatest {j | P j} j := by
  classical
  refine ⟨Nat.findGreatest P bound, ?_, ?_⟩
  · exact Nat.findGreatest_spec (hbound i hi) hi
  · intro j hj
    exact Nat.le_findGreatest (hbound j hj) hj

theorem exists_isLeast {P : Nat → Prop} (h : ∃ i, P i) : ∃ i, IsLeast {i | P i} i := by
  classical
  refine ⟨Nat.find h, Nat.find_spec h, ?_⟩
  intro j hj
  exact Nat.find_min' h hj

theorem exists_last_position {s i : Nat} (h : Targeted parts rules s i) :
    ∃ k : Nat, IsGreatest {k | ∃ q, (ofRule parts rules i)[k]? = some q ∧ q.id = s} k := by
  obtain ⟨p, hp, hid⟩ := h
  obtain ⟨k, hk⟩ := List.getElem?_of_mem hp
  have hbound : ∀ k', (∃ q, (ofRule parts rules i)[k']? = some q ∧ q.id = s) →
      k' ≤ (ofRule parts rules i).length := by
    rintro k' ⟨q, hq, _⟩
    exact Nat.le_of_lt (List.getElem?_eq_some_iff.mp hq).1
  exact exists_isGreatest ⟨p, hk, hid⟩ hbound

theorem Holds.of_part?_eq {p p' : Program} {s i : Nat} (h : Holds options g parts rules p s i)
    (heq : p'.part? s = p.part? s) : Holds options g parts rules p' s i := by
  obtain ⟨r, k, a, hr, hk, ha, hslot⟩ := h
  exact ⟨r, k, a, hr, hk, ha, heq.trans hslot⟩

theorem part?_assign {p : Part} (hp : p.isEncodable) (c : Compilation) (a : Assignment) (s : Nat) :
    (c.assign p.id a).program.part? s = if s = p.id then some a else c.program.part? s := by
  have hid : 1 ≤ p.id ∧ p.id < tableSize := by
    have h : 1 ≤ p.id ∧ p.id ≤ slotCount := by
      simpa only [Part.isEncodable, Bool.and_eq_true, decide_eq_true_eq] using hp
    exact ⟨h.1, Nat.lt_succ_of_le h.2⟩
  have hset : (c.assign p.id a).program =
      { c.program with slots := c.program.slots.set p.id (some a) hid.2 } := by
    unfold Compilation.assign Program.setPart?
    rw [dif_pos hid]
    rfl
  rw [hset, Program.part?, Vector.getElem?_set]
  by_cases hs : s = p.id
  · rw [if_pos hs, if_pos hs.symm]
    rfl
  · rw [if_neg hs, if_neg (Ne.symm hs)]
    rfl

theorem wholeBody_assign (c : Compilation) (id : Nat) (a : Assignment) :
    (c.assign id a).program.wholeBody = c.program.wholeBody := by
  unfold Compilation.assign Program.setPart?
  split <;> rfl

/-- What has happened once the targets of a rule have got their motions. -/
structure Assigned (yields : Nat → Assignment → Prop) (targets : List Part)
    (c c' : Compilation) : Prop where
  resolved : ∀ k < targets.length, ∃ a, yields k a
  claimed : ∀ id, id ∈ c'.claimed ↔ id ∈ c.claimed ∨ ∃ p ∈ targets, p.id = id
  /-- A slot holds the motion of the last target with its id. -/
  filled : ∀ s k, IsGreatest {k | ∃ p, targets[k]? = some p ∧ p.id = s} k →
    ∃ a, yields k a ∧ c'.program.part? s = some a
  kept : ∀ s, (∀ p ∈ targets, p.id ≠ s) → c'.program.part? s = c.program.part? s
  wholeBody : c'.program.wholeBody = c.program.wholeBody

theorem assigned_nil (yields : Nat → Assignment → Prop) (c : Compilation) :
    Assigned yields [] c c where
  resolved k hk := absurd hk (Nat.not_lt_zero k)
  claimed id := by simp
  filled s k hk := by
    obtain ⟨p, hp, _⟩ := hk.1
    cases hp
  kept _ _ := rfl
  wholeBody := rfl

/-- The first target comes before the others: one of them with the same id has the last word. -/
theorem assigned_cons {yields : Nat → Assignment → Prop} {p : Part} {ps : List Part}
    {c c' : Compilation} {a : Assignment} (hp : p.isEncodable) (ha : yields 0 a)
    (h : Assigned (fun k => yields (k + 1)) ps (c.assign p.id a) c') :
    Assigned yields (p :: ps) c c' where
  resolved k hk := by
    cases k with
    | zero => exact ⟨a, ha⟩
    | succ k => exact h.resolved k (Nat.lt_of_succ_lt_succ hk)
  claimed id := by
    rw [h.claimed]
    change id ∈ p.id :: c.claimed ∨ _ ↔ _
    simp only [List.mem_cons, exists_eq_or_imp]
    rw [or_assoc, or_left_comm, eq_comm]
  filled s k hk := by
    obtain ⟨⟨q, hq, hid⟩, hlast⟩ := hk
    cases k with
    | zero =>
      obtain rfl : p = q := by simpa using hq
      have hnone : ∀ q ∈ ps, q.id ≠ s := by
        intro q hq hs
        obtain ⟨k, hk⟩ := List.getElem?_of_mem hq
        have hle : k + 1 ≤ 0 := hlast ⟨q, hk, hs⟩
        omega
      refine ⟨a, ha, ?_⟩
      rw [h.kept s hnone, part?_assign hp, if_pos hid.symm]
    | succ k =>
      apply h.filled s k
      refine ⟨⟨q, hq, hid⟩, ?_⟩
      rintro k' ⟨q', hq', hid'⟩
      have hle : k' + 1 ≤ k + 1 := hlast ⟨q', hq', hid'⟩
      omega
  kept s hs := by
    have hne : s ≠ p.id := Ne.symm (hs p List.mem_cons_self)
    rw [h.kept s fun q hq => hs q (List.mem_cons_of_mem p hq), part?_assign hp, if_neg hne]
  wholeBody := by rw [h.wholeBody, wholeBody_assign]

theorem assigned_of_applyTo {r : Rule} {context : String} {ps : List Part}
    (henc : ∀ p ∈ ps, p.isEncodable) {c c' : Compilation} {index : Nat}
    {count : Nat}
    (h : Compilation.applyTo options r (g.motionVars 0 count) context c index ps = .ok c') :
    Assigned (fun k => r.motion.Yields options (g.environment (index + k) count) r.attachment)
      ps c c' := by
  induction ps generalizing c index with
  | nil =>
    cases h
    exact assigned_nil _ _
  | cons p ps ih =>
    rw [Compilation.applyTo_cons] at h
    obtain ⟨a, ha, hrest⟩ := bind_eq_ok_iff.mp h
    have hyields := MotionSpec.resolveMotion_eq_ok_iff.mp ha
    change r.motion.Yields options (g.motionVars index count).lookup _ _ at hyields
    rw [Globals.lookup_motionVars] at hyields
    apply assigned_cons (henc p List.mem_cons_self) hyields
    have htail := ih (fun q hq => henc q (List.mem_cons_of_mem p hq)) hrest
    simpa only [Nat.add_assoc, Nat.add_comm 1] using htail

/-- What has happened once the rules before a position have been applied. -/
structure Applied (options : CompileOptions) (g : Globals) (parts : List Part)
    (rules : List Rule) (body : Assignment) (i : Nat) (c : Compilation) : Prop where
  claimed : ∀ id, id ∈ c.claimed ↔ ∃ j < i, Targeted parts rules id j
  resolved : ∀ j < i, ∀ r, rules[j]? = some r → ∀ k < (ofRule parts rules j).length,
    ∃ a, YieldsAt options g parts rules r j k a
  /-- The last rule that has a target in a slot holds it. -/
  filled : ∀ s j, j < i → Targeted parts rules s j →
    (∀ j', j < j' → j' < i → ¬Targeted parts rules s j') →
    Holds options g parts rules c.program s j
  empty : ∀ s, (∀ j < i, ¬Targeted parts rules s j) → c.program.part? s = none
  wholeBody : c.program.wholeBody = body

theorem applied_zero (body : Assignment) (speed amplitudeScale : Float32) :
    Applied options g parts rules body 0 ⟨.new body speed amplitudeScale, []⟩ where
  claimed id := by simp
  resolved j hj := absurd hj (Nat.not_lt_zero j)
  filled s j hj := absurd hj (Nat.not_lt_zero j)
  empty s _ := by
    rw [Program.part?, Program.new, Vector.getElem?_replicate]
    split <;> rfl
  wholeBody := rfl

theorem assigned_of_applyRule {body : Assignment} {i : Nat} {r : Rule} {c c' : Compilation}
    (henc : ∀ p ∈ parts, p.isEncodable) (h : Applied options g parts rules body i c)
    (hr : rules[i]? = some r)
    (hstep : Compilation.applyRule engine options (g.motionVars 0 total) parts c r i = .ok c') :
    Assigned (YieldsAt options g parts rules r i) (ofRule parts rules i) c c' := by
  obtain ⟨pattern, hp, -⟩ := bind_eq_ok_iff.mp hstep
  have hp := mapError_eq_ok_iff.mp hp
  rw [Compilation.applyRule_of_ok hp, parts_resolve_eq_ofRule hr hp h.claimed] at hstep
  have hassigned := assigned_of_applyTo (g := g) (fun p hp => henc p (mem_of_mem_ofRule hp)) hstep
  simp only [Nat.zero_add] at hassigned
  exact hassigned

theorem applied_succ {body : Assignment} {i : Nat} {r : Rule} {c c' : Compilation}
    (henc : ∀ p ∈ parts, p.isEncodable) (h : Applied options g parts rules body i c)
    (hr : rules[i]? = some r)
    (hstep : Compilation.applyRule engine options (g.motionVars 0 total) parts c r i = .ok c') :
    Applied options g parts rules body (i + 1) c' := by
  have hassigned := assigned_of_applyRule henc h hr hstep
  have hkeep : ∀ s, ¬Targeted parts rules s i → c'.program.part? s = c.program.part? s := by
    intro s hs
    exact hassigned.kept s fun p hp hid => hs ⟨p, hp, hid⟩
  constructor
  · intro id
    rw [hassigned.claimed, h.claimed, Nat.exists_lt_succ_right]
    rfl
  · intro j hj r' hr' k hk
    rcases Nat.lt_succ_iff_lt_or_eq.mp hj with hj | rfl
    · exact h.resolved j hj r' hr' k hk
    · obtain rfl : r = r' := Option.some.inj (hr.symm.trans hr')
      exact hassigned.resolved k hk
  · intro s j hj hs hlast
    rcases Nat.lt_succ_iff_lt_or_eq.mp hj with hj | rfl
    · have hholds := h.filled s j hj hs fun j' hj' hi => hlast j' hj' (Nat.lt_succ_of_lt hi)
      exact hholds.of_part?_eq (hkeep s (hlast i hj (Nat.lt_succ_self i)))
    · obtain ⟨last, hgreatest⟩ := exists_last_position hs
      obtain ⟨a, ha, hslot⟩ := hassigned.filled s last hgreatest
      exact ⟨r, last, a, hr, hgreatest, ha, hslot⟩
  · intro s hs
    rw [hkeep s (hs i (Nat.lt_succ_self i))]
    exact h.empty s fun j hj => hs j (Nat.lt_succ_of_lt hj)
  · rw [hassigned.wholeBody, h.wholeBody]

theorem applied_applyRules {body : Assignment} {rest : List Rule} {i : Nat} {c c' : Compilation}
    (henc : ∀ p ∈ parts, p.isEncodable) (hrest : rest = rules.drop i)
    (h : Applied options g parts rules body i c)
    (hrun : Compilation.applyRules engine options (g.motionVars 0 total) parts c (rest.zipIdx i) =
      .ok c') :
    Applied options g parts rules body (i + rest.length) c' := by
  -- `Applied` is the invariant: the rules before `i` are done and the rest is still to come
  induction rest generalizing i c with
  | nil =>
    cases hrun
    exact h
  | cons r rest ih =>
    have hr : rules[i]? = some r := by
      rw [← List.head?_drop, ← hrest]
      rfl
    have htail : rest = rules.drop (i + 1) := by
      rw [← List.tail_drop, ← hrest]
      rfl
    rw [List.zipIdx_cons, Compilation.applyRules_cons] at hrun
    obtain ⟨c₁, hstep, hrun⟩ := bind_eq_ok_iff.mp hrun
    have hdone := ih htail (applied_succ henc h hr hstep) hrun
    rw [List.length_cons, Nat.add_comm rest.length 1, ← Nat.add_assoc]
    exact hdone

theorem owned_of_applied {body : Assignment} {c : Compilation}
    (h : Applied options g parts rules body rules.length c) (s : Nat) :
    Owned options g parts rules c.program s := by
  by_cases hnamed : ∃ i, Named parts rules s i
  · obtain ⟨i, hi⟩ := hnamed
    have hbound : ∀ j, Named parts rules s j → j ≤ rules.length := by
      intro j hj
      exact Nat.le_of_lt (lt_length_of_targeted (targeted_of_named hj))
    obtain ⟨last, hlast⟩ := exists_isGreatest hi hbound
    have ht := targeted_of_named hlast.1
    apply Owned.named hlast
    apply h.filled s last (lt_length_of_targeted ht) ht
    intro j hj _
    exact not_targeted_of_isGreatest hlast hj
  · have hnone : ∀ j, ¬Named parts rules s j := fun j hj => hnamed ⟨j, hj⟩
    by_cases hsuggested : ∃ i, Suggested parts rules s i
    · obtain ⟨first, hfirst⟩ := exists_isLeast hsuggested
      have honly := fun j => targeted_iff_of_isLeast (j := j) hnone hfirst
      have ht : Targeted parts rules s first := (honly first).mpr rfl
      apply Owned.suggested hnone hfirst
      apply h.filled s first (lt_length_of_targeted ht) ht
      intro j hj _ htj
      have heq := (honly j).mp htj
      omega
    · have hfree : ∀ j, ¬Suggested parts rules s j := fun j hj => hsuggested ⟨j, hj⟩
      apply Owned.empty hnone hfree
      apply h.empty s
      intro j _ ht
      rcases targeted_cases ht with hn | ⟨hs, _⟩
      · exact hnone j hn
      · exact hfree j hs

/-- A compiled program is what a run of all rules has left behind. -/
theorem applied_of_compile {t : Template} {m : MotionSpec} (hm : t.wholeBody = some m)
    {parts : List Part} {overrides : Overrides} {p : Program}
    (h : t.compile engine options parts overrides = .ok p) :
    ∃ claimed,
      m.Yields options ((Globals.resolve t overrides).environment 0 parts.length) .uniform
        p.wholeBody ∧
      Applied options (Globals.resolve t overrides) (parts.filter Part.isEncodable) t.rules
        p.wholeBody t.rules.length ⟨p, claimed⟩ := by
  rw [Template.compile_eq hm] at h
  obtain ⟨body, hbody, h⟩ := bind_eq_ok_iff.mp h
  obtain ⟨c, hrun, h⟩ := bind_eq_ok_iff.mp h
  cases h
  have henc : ∀ p ∈ parts.filter Part.isEncodable, p.isEncodable := by
    intro p hp
    exact (List.mem_filter.mp hp).2
  have hyields := MotionSpec.resolveMotion_eq_ok_iff.mp hbody
  rw [Globals.lookup_motionVars] at hyields
  have happlied := applied_applyRules henc (List.drop_zero (l := t.rules)).symm
    (applied_zero body _ _) hrun
  rw [Nat.zero_add] at happlied
  have hwhole : c.program.wholeBody = body := happlied.wholeBody
  rw [← hwhole] at hyields happlied
  exact ⟨c.claimed, hyields, happlied⟩

theorem exists_holds_of_part? {body : Assignment} {c : Compilation}
    (h : Applied options g parts rules body rules.length c) {s : Nat} {a : Assignment}
    (hs : c.program.part? s = some a) : ∃ i, Holds options g parts rules c.program s i := by
  cases owned_of_applied h s with
  | named hlast hslot => exact ⟨_, hslot⟩
  | suggested hnamed hfirst hslot => exact ⟨_, hslot⟩
  | empty hnamed hsuggested hnone =>
    rw [hnone] at hs
    cases hs

end Slots

/-- Where a template compiles, every slot has the owner that names and categories give it, and every
rule yields a motion for each of its targets. The formulas of that motion see the multipliers, the
position of the target and the number of targets; positions are below this number, also as floating
point numbers up to 2^53 parts. The whole body is at position 0 among all parts. -/
theorem Template.owned_of_compile {t : Template} {engine : Pattern.Engine} {options : CompileOptions}
    {parts : List Part} {overrides : Overrides} {p : Program}
    (h : t.compile engine options parts overrides = .ok p) :
    (∀ s, Slots.Owned options (Globals.resolve t overrides) (parts.filter Part.isEncodable) t.rules
      p s) ∧
    (∀ i r k, t.rules[i]? = some r →
      k < (Targets.ofRule (parts.filter Part.isEncodable) t.rules i).length →
      (∃ a, Slots.YieldsAt options (Globals.resolve t overrides) (parts.filter Part.isEncodable)
        t.rules r i k a) ∧
      ∃ index count, (Globals.resolve t overrides).environment k
          (Targets.ofRule (parts.filter Part.isEncodable) t.rules i).length "index" = some index ∧
        (Globals.resolve t overrides).environment k
          (Targets.ofRule (parts.filter Part.isEncodable) t.rules i).length "count" = some count ∧
        index = Float.ofNat k ∧
        count = Float.ofNat (Targets.ofRule (parts.filter Part.isEncodable) t.rules i).length ∧
        (parts.length < 2 ^ 53 → 0.0 ≤ index ∧ index < count)) ∧
    (∀ index count, (Globals.resolve t overrides).environment index count "speed" =
        some (Globals.resolve t overrides).speed ∧
      (Globals.resolve t overrides).environment index count "amplitudeScale" =
        some (Globals.resolve t overrides).amplitudeScale) ∧
    ∃ m, t.wholeBody = some m ∧
      m.Yields options ((Globals.resolve t overrides).environment 0 parts.length) .uniform
        p.wholeBody ∧
      (Globals.resolve t overrides).environment 0 parts.length "index" = some 0.0 ∧
      (Globals.resolve t overrides).environment 0 parts.length "count" =
        some (Float.ofNat parts.length) := by
  cases hm : t.wholeBody with
  | none =>
    rw [compile_of_no_body hm] at h
    cases h
  | some m =>
    obtain ⟨claimed, hbody, happlied⟩ := Slots.applied_of_compile hm h
    refine ⟨Slots.owned_of_applied happlied, ?_, fun _ _ => ⟨rfl, rfl⟩, m, rfl, hbody, ?_, rfl⟩
    · intro i r k hr hk
      refine ⟨happlied.resolved i (List.getElem?_eq_some_iff.mp hr).1 r hr k hk, _, _, rfl, rfl, rfl,
        rfl, ?_⟩
      intro hparts
      have hlength : (Targets.ofRule (parts.filter Part.isEncodable) t.rules i).length < 2 ^ 53 :=
        calc
          _ ≤ (parts.filter Part.isEncodable).length := Targets.length_ofRule_le _ _ i
          _ ≤ parts.length := List.length_filter_le _ _
          _ < 2 ^ 53 := hparts
      exact ⟨Number.zero_le_ofNat (Nat.lt_trans hk hlength), Number.ofNat_lt_ofNat hk hlength⟩
    · rw [← ofNat_zero]
      rfl

/-- A template that moves wings in turn, and fins. -/
def Template.bird : Template :=
  ⟨"flap", [], some ⟨"sway", .empty, some (.text "\x7b\x7bcount + index\x7d\x7d"), none, none⟩,
    [⟨"*wing*", ⟨"rotate", .empty, some (.text "\x7b\x7bcount * speed\x7d\x7d"),
        some (.text "\x7b\x7bindex / count\x7d\x7d"),
        some (.text "\x7b\x7bindex * amplitudeScale\x7d\x7d")⟩, .gradient⟩,
      ⟨"fin", ⟨"bob", .empty, none, none, none⟩, .uniform⟩], none⟩

/-- The second of two wings starts half a turn behind the first one. -/
theorem Template.owned_of_compile_bird :
    ∃ p, Template.bird.compile .unlimited .standard
        [⟨1, "left wing", none⟩, ⟨2, "tail", none⟩, ⟨3, "right wing", none⟩] .none = .ok p ∧
      (∀ s, Slots.Owned .standard (Globals.resolve Template.bird .none)
        ([⟨1, "left wing", none⟩, ⟨2, "tail", none⟩, ⟨3, "right wing", none⟩] : List Part)
        Template.bird.rules p s) ∧
      p.wholeBody.duration = 3.0 ∧
      ∃ a, p.part? 3 = some a ∧ a.phase = 0.5 ∧ a.start = 1.0 ∧ a.duration = 2.0 := by
  have hok : ((Template.bird.compile .unlimited .standard
      [⟨1, "left wing", none⟩, ⟨2, "tail", none⟩, ⟨3, "right wing", none⟩] .none).toOption.any
        fun p => p.wholeBody.duration = 3.0 && (p.part? 3).any fun a =>
          a.phase = 0.5 && a.start = 1.0 && a.duration = 2.0) := by decide +kernel
  cases h : Template.bird.compile .unlimited .standard
      [⟨1, "left wing", none⟩, ⟨2, "tail", none⟩, ⟨3, "right wing", none⟩] .none with
  | error e =>
    rw [h] at hok
    cases hok
  | ok p =>
    simp only [h, Except.toOption, Option.any_some, Bool.and_eq_true, decide_eq_true_eq] at hok
    obtain ⟨hbody, hslot⟩ := hok
    obtain ⟨a, ha, hvalues⟩ := (Option.any_eq_true _ _).mp hslot
    simp only [Bool.and_eq_true, decide_eq_true_eq] at hvalues
    exact ⟨p, rfl, (Template.owned_of_compile h).1, hbody, a, ha, hvalues.1.1, hvalues.1.2, hvalues.2⟩

end Motion
