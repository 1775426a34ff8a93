import Mathlib.Order.Bounds.Basic
import Motion.Compile.Globals
import Motion.Proofs.Table
import Motion.Proofs.Text.Lowercase

/-! Which entry of the adverb map an adverb selects: of several keys with one normal form the least
hides the others. -/
namespace Motion

/-- The first entry that fits, in a table in order, has the least key that fits. -/
theorem Table.isLeast_of_find? {α : Type} {t : Table α} (hsorted : (keys t).Pairwise (· < ·))
    (fits : String → Bool) {e : String × α}
    (h : t.find? (fun e => fits e.1) = some e) : IsLeast {k | k ∈ keys t ∧ fits k} e.1 := by
  obtain ⟨hfits, before, after, rfl, hbefore⟩ := List.find?_eq_some_iff_append.mp h
  refine ⟨⟨List.mem_map_of_mem (List.mem_append_right before List.mem_cons_self), hfits⟩, ?_⟩
  rintro k ⟨hk, hkfits⟩
  rw [keys, List.map_append, List.map_cons, List.mem_append, List.mem_cons] at hk
  rcases hk with hk | rfl | hk
  · obtain ⟨other, hother, rfl⟩ := List.mem_map.mp hk
    have hnot := hbefore other hother
    rw [hkfits] at hnot
    cases hnot
  · exact le_rfl
  · rw [keys, List.map_append, List.map_cons, List.pairwise_append, List.pairwise_cons] at hsorted
    exact le_of_lt (hsorted.2.1.1 k hk)

namespace Defaults

/-- The key that stands for an adverb: the least one of those with its normal form. -/
def Selects (d : Defaults) (adverb key : String) : Prop :=
  IsLeast {k | k ∈ d.adverbs.keys ∧ Text.normalizeWord k = Text.normalizeWord adverb} key

variable {d : Defaults} {adverb k : String}

/-- A key with the normal form of an adverb makes sure that the adverb selects an entry. -/
theorem exists_selected (hk : k ∈ d.adverbs.keys)
    (hform : Text.normalizeWord k = Text.normalizeWord adverb) :
    ∃ key o, d.Selects adverb key ∧ (key, o) ∈ d.adverbs.entries ∧ d.adverb? adverb = some o := by
  obtain ⟨e, he, rfl⟩ := List.mem_map.mp hk
  have hsome : (d.adverbs.entries.find? fun e =>
      Text.normalizeWord e.1 == Text.normalizeWord adverb).isSome := by
    rw [List.find?_isSome]
    exact ⟨e, he, beq_iff_eq.mpr hform⟩
  obtain ⟨⟨key, o⟩, hfind⟩ := Option.isSome_iff_exists.mp hsome
  have hleast := Table.isLeast_of_find? d.adverbs.sorted
    (fun k => Text.normalizeWord k == Text.normalizeWord adverb) hfind
  simp only [beq_iff_eq] at hleast
  refine ⟨key, o, hleast, List.mem_of_find?_eq_some hfind, ?_⟩
  rw [adverb?, hfind]
  rfl

theorem Selects.congr {adverb' key : String} (h : d.Selects adverb key)
    (hform : Text.normalizeWord adverb = Text.normalizeWord adverb') : d.Selects adverb' key := by
  unfold Selects at *
  rwa [← hform]

/-- A key selects itself where no key before it has the same normal form, and only there. -/
theorem selects_self_iff (hk : k ∈ d.adverbs.keys) :
    d.Selects k k ↔
      ∀ k' ∈ d.adverbs.keys, k' < k → Text.normalizeWord k' ≠ Text.normalizeWord k := by
  constructor
  · intro h k' hk' hlt hform
    exact absurd hlt (not_lt_of_ge (h.2 ⟨hk', hform⟩))
  · intro h
    refine ⟨⟨hk, rfl⟩, ?_⟩
    rintro k' ⟨hk', hform⟩
    by_contra hlt
    exact h k' hk' (lt_of_not_ge hlt) hform

end Defaults

namespace Globals

/-- An adverb with the normal form of a key takes the values of the least key with this form, which
is the key itself unless a smaller one has the form. What the entry leaves open is as in the
template, and what the caller gives goes before both. -/
theorem resolve_of_key {t : Template} {d : Defaults} (hd : t.defaults = some d)
    {k adverb : String} (hk : k ∈ d.adverbs.keys)
    (hform : Text.normalizeWord adverb = Text.normalizeWord k) (speed amplitudeScale : Option Float) :
    ∃ key o, d.Selects k key ∧ (key, o) ∈ d.adverbs.entries ∧
      ((∀ k' ∈ d.adverbs.keys, k' < k → Text.normalizeWord k' ≠ Text.normalizeWord k) → key = k) ∧
      resolve t ⟨some adverb, speed, amplitudeScale⟩ =
        ⟨speed.getD (o.speed.getD d.speed),
          amplitudeScale.getD (o.amplitudeScale.getD d.amplitudeScale)⟩ := by
  obtain ⟨key, o, hkey, hmem, hfound⟩ := Defaults.exists_selected hk hform.symm
  have hkey : d.Selects k key := hkey.congr hform
  refine ⟨key, o, hkey, hmem, ?_, ?_⟩
  · intro hfirst
    exact hkey.unique ((Defaults.selects_self_iff hk).mpr hfirst)
  · simp only [resolve, hd, Option.getD_some, Option.bind_some, hfound]

/-- The multipliers of a template with two keys of one normal form. -/
def twoSlow : Defaults :=
  ⟨1.0, 1.0, ⟨[("Slowly", ⟨some 0.25, none⟩), ("slowly", ⟨some 0.5, none⟩)], by decide⟩⟩

theorem resolve_of_key_twoSlow :
    ∃ key o, twoSlow.Selects "slowly" key ∧ (key, o) ∈ twoSlow.adverbs.entries ∧
      resolve { Template.blank with defaults := some twoSlow } ⟨some " SLOWLY ", none, some 2.0⟩ =
        ⟨o.speed.getD 1.0, 2.0⟩ := by
  have hform : Text.normalizeWord " SLOWLY " = Text.normalizeWord "slowly" := by decide +kernel
  obtain ⟨key, o, hkey, hmem, -, hresolve⟩ := resolve_of_key
    (t := { Template.blank with defaults := some twoSlow }) rfl (k := "slowly")
    (by decide) hform none (some 2.0)
  exact ⟨key, o, hkey, hmem, hresolve⟩

/-- A key whose own entry it does not select: a smaller key has the same normal form. -/
theorem exists_key_not_selected :
    twoSlow.adverbs.keys.Pairwise (· < ·) ∧
      ("slowly", ⟨some 0.5, none⟩) ∈ twoSlow.adverbs.entries ∧
      (resolve { Template.blank with defaults := some twoSlow } (.ofAdverb "slowly")).speed ≠ 0.5 := by
  refine ⟨twoSlow.adverbs.sorted, List.mem_cons_of_mem _ List.mem_cons_self, ?_⟩
  decide +kernel

end Globals

end Motion
