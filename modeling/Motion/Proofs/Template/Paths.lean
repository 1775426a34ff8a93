import Motion.Template.Check

/-! Places in a batch, told from the paths of findings by the index in front. -/
namespace Motion

namespace Path

/-- The number that some digits stand for; there may be a plus before them. -/
def parseIndex? (digits : List Char) : Option Nat :=
  let digits := if digits.head? = some '+' then digits.tail else digits
  if digits ≠ [] ∧ digits.all Char.isDigit = true then some (Nat.ofDigitChars 10 digits 0) else none

/-- A path that begins with an index, moved to the position that stands at this index. -/
def reindex (positions : List Nat) (path : String) : String :=
  match path.toList with
  | '$' :: '[' :: rest =>
    match rest.dropWhile (· ≠ ']') with
    | ']' :: tail =>
      match (parseIndex? (rest.takeWhile (· ≠ ']'))).bind fun k => positions[k]? with
      | some position => "$[" ++ toString position ++ "]" ++ String.ofList tail
      | none => path
    | _ => path
  | _ => path

variable {positions : List Nat}

theorem isDigit_of_mem_toString {k : Nat} {c : Char} (h : c ∈ (toString k).toList) :
    c.isDigit = true := by
  rw [Nat.toString_eq_repr, Nat.toList_repr] at h
  exact Nat.isDigit_of_mem_toDigits (by decide) (by decide) h

theorem parseIndex?_toString (k : Nat) : parseIndex? (toString k).toList = some k := by
  have hdigits : (toString k).toList = Nat.toDigits 10 k := by
    rw [Nat.toString_eq_repr, Nat.toList_repr]
  have hall : (toString k).toList.all Char.isDigit = true := by
    rw [List.all_eq_true]
    intro c hc
    exact isDigit_of_mem_toString hc
  have hplus : (toString k).toList.head? ≠ some '+' := by
    intro h
    have hdigit : '+'.isDigit = true := isDigit_of_mem_toString (List.mem_of_mem_head? h)
    cases hdigit
  have hne : (toString k).toList ≠ [] := by
    rw [hdigits]
    exact Nat.toDigits_ne_nil
  simp only [parseIndex?, hplus, if_false, hall, ne_eq, hne, not_false_eq_true, and_self, if_true]
  rw [hdigits, Nat.ofDigitChars_ten_toDigits]

theorem render_key_cons (name : String) (p : Path) :
    render (.key name :: p) = "$." ++ (name ++ String.join (p.map renderStep)) := by
  have hroot : "$." = "$" ++ "." := rfl
  rw [render, List.map_cons, String.join_cons, renderStep, hroot, String.append_assoc,
    String.append_assoc]

theorem render_index_cons (k : Nat) (p : Path) :
    render (.index k :: p) = "$[" ++ toString k ++ "]" ++ String.join (p.map renderStep) := by
  have hroot : "$[" = "$" ++ "[" := rfl
  rw [render, List.map_cons, String.join_cons, renderStep, hroot]
  simp only [String.append_assoc]

theorem reindex_dot (tail : String) : reindex positions ("$." ++ tail) = "$." ++ tail := by
  have hlist : ("$." ++ tail).toList = '$' :: '.' :: tail.toList := by
    rw [String.toList_append]
    rfl
  unfold reindex
  split
  · rename_i rest hbracket
    rw [hlist] at hbracket
    cases (List.cons.inj (List.cons.inj hbracket).2).1
  · rfl

theorem reindex_index {k position : Nat} (h : positions[k]? = some position) (tail : String) :
    reindex positions ("$[" ++ toString k ++ "]" ++ tail) =
      "$[" ++ toString position ++ "]" ++ tail := by
  have hlist : ("$[" ++ toString k ++ "]" ++ tail).toList =
      '$' :: '[' :: ((toString k).toList ++ ']' :: tail.toList) := by
    rw [String.toList_append, String.toList_append, String.toList_append, List.append_assoc]
    rfl
  have hfree : ∀ c ∈ (toString k).toList, decide (c ≠ ']') = true := by
    intro c hc
    apply decide_eq_true
    rintro rfl
    have hdigit : ']'.isDigit = true := isDigit_of_mem_toString hc
    cases hdigit
  have htake : ((toString k).toList ++ ']' :: tail.toList).takeWhile (· ≠ ']') =
      (toString k).toList := by
    rw [List.takeWhile_append_of_pos hfree]
    simp
  have hdrop : ((toString k).toList ++ ']' :: tail.toList).dropWhile (· ≠ ']') =
      ']' :: tail.toList := by
    rw [List.dropWhile_append_of_pos hfree]
    simp
  rw [reindex, hlist]
  simp only [hdrop, htake, parseIndex?_toString, Option.bind_some, h, String.ofList_toList]

example : reindex [2, 5] "$[1].anchor_verbs" = "$[5].anchor_verbs" := by decide +kernel

end Path

/-- A finding of a batch, moved to where the templates of the batch stand. -/
def Issue.reindex (positions : List Nat) (i : Issue) : Issue :=
  { i with path := Path.reindex positions i.path }

/-- What becomes of a finding about a batch when it is moved to where the templates stand. -/
inductive Issue.Moved (positions : List Nat) : Issue → Issue → Prop where
  /-- A path that begins with a place in the batch begins with the position there, and goes on as
  before. -/
  | batch {i : Issue} {k position : Nat} {tail : String} (hposition : positions[k]? = some position)
      (hpath : i.path = "$[" ++ toString k ++ "]" ++ tail) :
      Moved positions i { i with path := "$[" ++ toString position ++ "]" ++ tail }
  /-- A path into a template stays, whatever comes after the dot. -/
  | inner {i : Issue} {tail : String} (hpath : i.path = "$." ++ tail) : Moved positions i i

namespace Template

/-- A finding whose path begins with a key. -/
def IsInner (i : Issue) : Prop := ∃ name rest, i.path = Path.render (.key name :: rest)

variable {id : Option String} {name : String} {base : Path} {t : Template} {i : Issue}

theorem isInner_of_mem_checkPrimitive {m : MotionSpec}
    (h : i ∈ checkPrimitive id (.key name :: base) m) : IsInner i := by
  unfold checkPrimitive at h
  dsimp only at h
  split at h
  · rw [List.mem_singleton.mp h]
    exact ⟨name, _, rfl⟩
  · split at h
    · rw [List.mem_singleton.mp h]
      exact ⟨name, _, rfl⟩
    · cases h

theorem isInner_of_mem_checkMultiplier {field : String} {x : Option Float}
    (h : i ∈ checkMultiplier id (.key name :: base) field x) : IsInner i := by
  unfold checkMultiplier at h
  split at h
  · cases h
  · split at h
    · rw [List.mem_singleton.mp h]
      exact ⟨name, _, rfl⟩
    · cases h

theorem isInner_of_mem_checkId (h : i ∈ t.checkId) : IsInner i := by
  unfold checkId at h
  split at h
  · rw [List.mem_singleton.mp h]
    exact ⟨_, _, rfl⟩
  · cases h

theorem isInner_of_mem_checkWholeBody (h : i ∈ t.checkWholeBody) : IsInner i := by
  unfold checkWholeBody at h
  split at h
  · exact isInner_of_mem_checkPrimitive h
  · rw [List.mem_singleton.mp h]
    exact ⟨_, _, rfl⟩

theorem isInner_of_mem_checkRule {k : Nat} {r : Rule} (h : i ∈ checkRule id k r) : IsInner i := by
  rcases List.mem_append.mp h with h | h
  · split at h
    · rw [List.mem_singleton.mp h]
      exact ⟨_, _, rfl⟩
    · cases h
  · exact isInner_of_mem_checkPrimitive h

theorem isInner_of_mem_checkVerbs (h : i ∈ t.checkVerbs) : IsInner i := by
  unfold checkVerbs at h
  split at h
  · rw [List.mem_singleton.mp h]
    exact ⟨_, _, rfl⟩
  · cases h

theorem isInner_of_mem_checkDefaults (h : i ∈ t.checkDefaults) : IsInner i := by
  unfold checkDefaults at h
  split at h
  · rw [List.mem_singleton.mp h]
    exact ⟨_, _, rfl⟩
  · rw [List.mem_append, List.mem_append] at h
    rcases h with (h | h) | h
    · exact isInner_of_mem_checkMultiplier h
    · exact isInner_of_mem_checkMultiplier h
    · obtain ⟨⟨adverb, o⟩, -, h⟩ := List.mem_flatMap.mp h
      rcases List.mem_append.mp h with h | h
      · exact isInner_of_mem_checkMultiplier h
      · exact isInner_of_mem_checkMultiplier h

/-- Whatever a template has in it, the paths of its own findings begin with a key. -/
theorem isInner_of_mem_check (h : i ∈ t.check) : IsInner i := by
  simp only [check, List.mem_append] at h
  rcases h with (((h | h) | h) | h) | h
  · exact isInner_of_mem_checkId h
  · exact isInner_of_mem_checkWholeBody h
  · obtain ⟨⟨r, k⟩, -, h⟩ := List.mem_flatMap.mp h
    exact isInner_of_mem_checkRule h
  · exact isInner_of_mem_checkVerbs h
  · exact isInner_of_mem_checkDefaults h

end Template

theorem Issue.reindex_of_isInner {positions : List Nat} {i : Issue} (h : Template.IsInner i) :
    i.reindex positions = i := by
  obtain ⟨name, rest, hpath⟩ := h
  rw [Path.render_key_cons] at hpath
  rw [Issue.reindex, hpath, Path.reindex_dot, ← hpath]

end Motion
