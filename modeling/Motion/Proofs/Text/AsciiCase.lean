import Mathlib.Data.List.Forall2
import Motion.Text.Blank

namespace Motion.Text

/-- What holds of every ASCII character and of every character without ASCII case holds of all. -/
theorem forall_char {P : Char → Prop} (hascii : ∀ n < 128, P (Char.ofNat n))
    (hother : ∀ c : Char, c.toLower = c → c.toUpper = c → P c) (c : Char) : P c := by
  by_cases hc : c.toNat < 128
  · have hP := hascii c.toNat hc
    rwa [Char.ofNat_toNat] at hP
  · have hbound (last : Char) (hlast : last.toNat < 128) : ¬c.val ≤ last.val := by
      intro hle
      exact hc (Nat.lt_of_le_of_lt (UInt32.le_iff_toNat_le.mp hle) hlast)
    apply hother
    · exact dif_neg fun h => hbound 'Z' (by decide) h.2
    · exact dif_neg fun h => hbound 'z' (by decide) h.2

theorem isAlphanum_toLower (c : Char) : c.toLower.isAlphanum = c.isAlphanum := by
  revert c
  apply forall_char
  · decide +kernel
  · intro c hlower _
    rw [hlower]

theorem isBlank_toLower (c : Char) : isBlank c.toLower = isBlank c := by
  revert c
  apply forall_char
  · decide +kernel
  · intro c hlower _
    rw [hlower]

theorem toLower_toLower (c : Char) : c.toLower.toLower = c.toLower := by
  revert c
  apply forall_char
  · decide +kernel
  · intro c hlower _
    rw [hlower, hlower]

theorem toLower_toUpper (c : Char) : c.toUpper.toLower = c.toLower := by
  revert c
  apply forall_char
  · decide +kernel
  · intro c _ hupper
    rw [hupper]

theorem asciiLower_asciiLower (cs : List Char) : asciiLower (asciiLower cs) = asciiLower cs := by
  have hchar : Char.toLower ∘ Char.toLower = Char.toLower := funext toLower_toLower
  rw [asciiLower, asciiLower, List.map_map, hchar]

theorem trim_asciiLower (cs : List Char) : trim (asciiLower cs) = asciiLower (trim cs) := by
  have hchar : isBlank ∘ Char.toLower = isBlank := funext isBlank_toLower
  simp only [trim, trimStart, trimEnd, asciiLower, List.dropWhile_map, ← List.map_reverse, hchar]

/-- The second text is the first one with some of its letters in the other case. -/
def IsCaseVariant (cs ds : List Char) : Prop :=
  List.Forall₂ (fun c d => d = c ∨ d = c.toLower ∨ d = c.toUpper) cs ds

theorem IsCaseVariant.asciiLower_eq {cs ds : List Char} (h : IsCaseVariant cs ds) :
    asciiLower ds = asciiLower cs := by
  induction h with
  | nil => rfl
  | @cons c d cs ds hchar _ ih =>
    have hlower : d.toLower = c.toLower := by
      rcases hchar with rfl | rfl | rfl
      · rfl
      · exact toLower_toLower c
      · exact toLower_toUpper c
    calc
      asciiLower (d :: ds) = d.toLower :: asciiLower ds := rfl
      _ = c.toLower :: asciiLower cs := by rw [hlower, ih]

end Motion.Text
