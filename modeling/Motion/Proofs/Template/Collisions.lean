import Motion.Proofs.Template.Batch

/-! What a batch is told when it is checked and when it is loaded. -/
namespace Motion

/-- A finding about a template in a batch, by its path. -/
def Issue.isCollision (i : Issue) : Bool := ['$', '['].isPrefixOf i.path.toList

namespace Template

/-- The library's warning about a word. -/
def reassigned (k : Nat) (t : Template) (word previous : String) : Issue :=
  Issue.warning t.id (verbsPath k)
    ("trigger word '" ++ word ++ "' reassigned from template '" ++ previous ++ "'")

/-- The check's warning about a word. -/
def alsoUsed (k : Nat) (t : Template) (word previous : String) : Issue :=
  Issue.warning t.id (verbsPath k)
    ("trigger word '" ++ word ++ "' also used by template '" ++ previous ++ "'")

/-- A template of a batch claims a word that belongs to another template. -/
structure Claims (ts : List Template) (k : Nat) (t : Template) (word previous : String) : Prop where
  stands : ts[k]? = some t
  declares : word ∈ t.triggerWords
  other : previous ≠ t.id

/-- Two warnings about the same claim, at the same place in the batch. -/
def SameClaim (ts : List Template) (a b : Issue) : Prop :=
  ∃ k t word previous, Claims ts k t word previous ∧ a = reassigned k t word previous ∧
    b = alsoUsed k t word previous ∧ a.path = "$[" ++ toString k ++ "].anchor_verbs" ∧
    b.path = "$[" ++ toString k ++ "].anchor_verbs"

theorem path_verbsPath (k : Nat) : (verbsPath k).render = "$[" ++ toString k ++ "].anchor_verbs" := by
  rw [verbsPath, Path.render_index_cons, String.append_assoc, String.append_assoc]
  rfl

theorem Claims.same {ts : List Template} {k : Nat} {t : Template} {word previous : String}
    (h : Claims ts k t word previous) :
    SameClaim ts (reassigned k t word previous) (alsoUsed k t word previous) :=
  ⟨k, t, word, previous, h, rfl, rfl, path_verbsPath k, path_verbsPath k⟩

theorem isCollision_warning (id : Option String) (k : Nat) (message : String) :
    (Issue.warning id (verbsPath k) message).isCollision = true := by
  change ['$', '['].isPrefixOf (verbsPath k).render.toList = true
  rw [path_verbsPath, String.toList_append, String.toList_append]
  rfl

theorem isCollision_of_mem_check (t : Template) : ∀ i ∈ t.check, i.isCollision = false := by
  intro i h
  obtain ⟨name, rest, hpath⟩ := isInner_of_mem_check h
  rw [Issue.isCollision, hpath, Path.render_key_cons, String.toList_append]
  rfl

theorem filter_of_own {issues : List Issue} (h : ∀ i ∈ issues, i.isCollision = false) :
    issues.filter (fun i => !i.isCollision) = issues ∧ issues.filter Issue.isCollision = [] := by
  constructor
  · apply List.filter_eq_self.mpr
    intro i hi
    simp [h i hi]
  · apply List.filter_eq_nil_iff.mpr
    intro i hi
    simp [h i hi]

theorem filter_of_collisions {issues : List Issue} (h : ∀ i ∈ issues, i.isCollision = true) :
    issues.filter (fun i => !i.isCollision) = [] ∧ issues.filter Issue.isCollision = issues := by
  constructor
  · apply List.filter_eq_nil_iff.mpr
    intro i hi
    simp [h i hi]
  · exact List.filter_eq_self.mpr h

theorem checkCollisions_cons (owners : Dictionary String) (t : Template) (k : Nat)
    (rest : List (Template × Nat)) :
    checkCollisions owners ((t, k) :: rest) =
      (claimWords (alsoUsed k t) t.id owners t.triggerWords).2 ++
        checkCollisions (t.triggerWords.foldl (fun owners word => owners.insert word t.id) owners)
          rest := by
  rw [← fst_claimWords (alsoUsed k t)]
  rfl

/-- Whatever the check says about words is a warning about a claim. -/
theorem exists_of_mem_checkCollisions {ts : List Template} {entries : List (Template × Nat)}
    (hentries : ∀ entry ∈ entries, ts[entry.2]? = some entry.1) {owners : Dictionary String} {i : Issue}
    (h : i ∈ checkCollisions owners entries) :
    ∃ k t word previous, Claims ts k t word previous ∧ i = alsoUsed k t word previous := by
  induction entries generalizing owners with
  | nil => cases h
  | cons entry rest ih =>
    obtain ⟨t, k⟩ := entry
    obtain ⟨hfirst, hrest⟩ := List.forall_mem_cons.mp hentries
    rw [checkCollisions_cons] at h
    rcases List.mem_append.mp h with h | h
    · obtain ⟨word, hword, previous, hother, rfl⟩ := exists_of_mem_claimWords h
      exact ⟨k, t, word, previous, ⟨hfirst, hword, hother⟩, rfl⟩
    · exact ih hrest h

theorem getElem?_of_mem_zipIdx (ts : List Template) :
    ∀ entry ∈ ts.zipIdx, ts[entry.2]? = some entry.1 := by
  intro entry hentry
  exact List.mem_zipIdx_iff_getElem?.mp hentry

theorem isCollision_of_mem_checkCollisions (ts : List Template) :
    ∀ i ∈ checkCollisions .empty ts.zipIdx, i.isCollision = true := by
  intro i h
  obtain ⟨k, t, word, previous, -, rfl⟩ :=
    exists_of_mem_checkCollisions (getElem?_of_mem_zipIdx ts) h
  exact isCollision_warning _ _ _

/-- Apart from what it says about words, the check reports what it finds in each template. -/
theorem filter_checkBatch (ts : List Template) :
    (checkBatch ts).filter (fun i => !i.isCollision) = ts.flatMap check ∧
      (checkBatch ts).filter Issue.isCollision = checkCollisions .empty ts.zipIdx := by
  have hown : ∀ i ∈ ts.flatMap check, i.isCollision = false := by
    intro i hi
    obtain ⟨t, -, hi⟩ := List.mem_flatMap.mp hi
    exact isCollision_of_mem_check t i hi
  have hwords := isCollision_of_mem_checkCollisions ts
  simp only [checkBatch, List.filter_append, filter_of_own hown, filter_of_collisions hwords,
    List.append_nil, List.nil_append, and_self]

end Template

namespace Library
open Template (Claims SameClaim reassigned alsoUsed checkCollisions checkBatch)

theorem snd_insert (lib : Library) (k : Nat) (t : Template) : (lib.insert k t).2 =
    (Template.claimWords (reassigned k t) t.id (lib.wordsOfOthers t.id) t.triggerWords).2 := rfl

theorem isCollision_of_mem_insert (lib : Library) (k : Nat) (t : Template) :
    ∀ i ∈ (lib.insert k t).2, i.isCollision = true := by
  intro i h
  obtain ⟨word, -, previous, -, rfl⟩ := Template.exists_of_mem_claimWords h
  exact Template.isCollision_warning _ _ _

/-- Apart from what it says about words, a load reports what it finds in each template. -/
theorem filter_loadAt (lib : Library) (entries : List (Nat × Template)) :
    (lib.loadAt entries).2.filter (fun i => !i.isCollision) =
      entries.flatMap fun entry => entry.2.check := by
  induction entries generalizing lib with
  | nil => rfl
  | cons entry rest ih =>
    obtain ⟨k, t⟩ := entry
    have hown := Template.filter_of_own (Template.isCollision_of_mem_check t)
    have hwords := Template.filter_of_collisions (isCollision_of_mem_insert lib k t)
    by_cases h : hasErrors t.check = true
    · rw [loadAt_of_errors h, List.filter_append, hown.1, ih]
      rfl
    · rw [loadAt_of_no_errors h, List.filter_append, List.filter_append, hown.1, hwords.1,
        List.append_nil, ih]
      rfl

theorem filter_load (lib : Library) (ts : List Template) :
    (lib.load ts).2.filter (fun i => !i.isCollision) = ts.flatMap Template.check := by
  rw [load, filter_loadAt, List.flatMap_map]
  conv_rhs => rw [← List.zipIdx_map_fst 0 ts, List.flatMap_map]

/-- Whatever a load says about words is a warning about a claim. -/
theorem exists_of_mem_loadAt {ts : List Template} {entries : List (Nat × Template)}
    (hentries : ∀ entry ∈ entries, ts[entry.1]? = some entry.2) {lib : Library} {i : Issue}
    (h : i ∈ (lib.loadAt entries).2) (hcollision : i.isCollision = true) :
    ∃ k t word previous, Claims ts k t word previous ∧ i = reassigned k t word previous := by
  induction entries generalizing lib with
  | nil => cases h
  | cons entry rest ih =>
    obtain ⟨k, t⟩ := entry
    obtain ⟨hfirst, hrest⟩ := List.forall_mem_cons.mp hentries
    have hnotOwn : i ∉ t.check := by
      intro hown
      rw [Template.isCollision_of_mem_check t i hown] at hcollision
      cases hcollision
    by_cases herrors : hasErrors t.check = true
    · rw [loadAt_of_errors herrors] at h
      rcases List.mem_append.mp h with h | h
      · exact absurd h hnotOwn
      · exact ih hrest h
    · rw [loadAt_of_no_errors herrors, List.mem_append, List.mem_append] at h
      rcases h with (h | h) | h
      · exact absurd h hnotOwn
      · obtain ⟨word, hword, previous, hother, rfl⟩ := Template.exists_of_mem_claimWords h
        exact ⟨k, t, word, previous, ⟨hfirst, hword, hother⟩, rfl⟩
      · exact ih hrest h

/-- Where nothing is left out or replaced, the library's words are the owners of the check. -/
theorem forall₂_loadAt {ts : List Template} {entries : List (Template × Nat)} {lib : Library}
    (hentries : ∀ entry ∈ entries, ts[entry.2]? = some entry.1)
    (hok : ∀ entry ∈ entries, ¬hasErrors entry.1.check = true)
    (hids : (entries.map fun entry => entry.1.id).Nodup)
    (hnew : ∀ entry ∈ entries, lib.get? entry.1.id = none) :
    List.Forall₂ (SameClaim ts)
      ((lib.loadAt (entries.map fun (t, k) => (k, t))).2.filter Issue.isCollision)
      (checkCollisions lib.words entries) := by
  induction entries generalizing lib with
  | nil => exact .nil
  | cons entry rest ih =>
    obtain ⟨t, k⟩ := entry
    obtain ⟨hstands, hentriesRest⟩ := List.forall_mem_cons.mp hentries
    obtain ⟨hokFirst, hokRest⟩ := List.forall_mem_cons.mp hok
    obtain ⟨hnewFirst, hnewRest⟩ := List.forall_mem_cons.mp hnew
    rw [List.map_cons, List.nodup_cons] at hids
    have hothers : lib.wordsOfOthers t.id = lib.words := by
      have hfree : ¬lib.templates.contains t.id = true := by
        rw [Dictionary.contains_eq_isSome]
        change ¬(lib.get? t.id).isSome = true
        rw [hnewFirst]
        exact Bool.false_ne_true
      rw [wordsOfOthers, if_neg hfree]
    have hwords := words_store lib t
    rw [hothers] at hwords
    have hnewRest' : ∀ entry ∈ rest, (lib.store t).get? entry.1.id = none := by
      intro entry hentry
      have hne : t.id ≠ entry.1.id := by
        intro heq
        apply hids.1
        rw [heq]
        exact List.mem_map_of_mem hentry
      rw [get?_store, if_neg hne]
      exact hnewRest entry hentry
    have hown := Template.filter_of_own (Template.isCollision_of_mem_check t)
    have hcollisions := Template.filter_of_collisions (isCollision_of_mem_insert lib k t)
    have hfirst : List.Forall₂ (SameClaim ts) (lib.insert k t).2
        (Template.claimWords (alsoUsed k t) t.id lib.words t.triggerWords).2 := by
      rw [snd_insert, hothers]
      apply Template.forall₂_claimWords
      intro word hword previous hother
      exact Claims.same ⟨hstands, hword, hother⟩
    have hrest := ih hentriesRest hokRest hids.2 hnewRest'
    rw [hwords] at hrest
    rw [List.map_cons, loadAt_of_no_errors hokFirst, List.filter_append, List.filter_append, hown.2,
      hcollisions.2, List.nil_append, fst_insert, Template.checkCollisions_cons]
    exact List.rel_append hfirst hrest

/-- A library with no template has no words either. -/
theorem eq_empty_of_isEmpty {lib : Library} (hvalid : lib.Valid) (h : lib.isEmpty = true) :
    lib = empty := by
  obtain ⟨templates, words⟩ := lib
  obtain rfl : templates = .empty := Dictionary.ext (List.isEmpty_iff.mp h)
  have hwords : words.entries = [] := by
    apply List.eq_nil_iff_forall_not_mem.mpr
    intro entry hentry
    obtain ⟨t, ht, -⟩ := hvalid _ _ (Dictionary.get?_of_mem hentry)
    cases ht
  obtain rfl : words = .empty := Dictionary.ext hwords
  rfl

/-- Checking a batch and loading it report the same findings, those of its templates in order, apart
from the warnings about words that belong to other templates. These are about the same claims in the
same order as well if the library is empty, no template has an error and no two have the same id. -/
theorem load_agrees_with_checkBatch :
    (∀ (lib : Library) (ts : List Template),
      (lib.load ts).2.filter (fun i => !i.isCollision) =
        (checkBatch ts).filter (fun i => !i.isCollision) ∧
      (checkBatch ts).filter (fun i => !i.isCollision) = ts.flatMap Template.check ∧
      (∀ i ∈ (lib.load ts).2, i.isCollision = true ↔
        ∃ k t word previous, Claims ts k t word previous ∧ i = reassigned k t word previous) ∧
      ∀ i ∈ checkBatch ts, i.isCollision = true ↔
        ∃ k t word previous, Claims ts k t word previous ∧ i = alsoUsed k t word previous) ∧
    ∀ (actions : List Action) (ts : List Template), (empty.run actions).isEmpty = true →
      (∀ t ∈ ts, hasErrors t.check = false) → (ts.map Template.id).Nodup →
      List.Forall₂ (SameClaim ts) (((empty.run actions).load ts).2.filter Issue.isCollision)
        ((checkBatch ts).filter Issue.isCollision) := by
  constructor
  · intro lib ts
    obtain ⟨hown, hcollisions⟩ := Template.filter_checkBatch ts
    refine ⟨by rw [filter_load, hown], hown, ?_, ?_⟩
    · intro i hi
      constructor
      · apply exists_of_mem_loadAt _ hi
        intro entry hentry
        obtain ⟨⟨t, k⟩, hmem, rfl⟩ := List.mem_map.mp hentry
        exact Template.getElem?_of_mem_zipIdx ts _ hmem
      · rintro ⟨k, t, word, previous, -, rfl⟩
        exact Template.isCollision_warning _ _ _
    · intro i hi
      constructor
      · intro hcollision
        have hmem := List.mem_filter.mpr ⟨hi, hcollision⟩
        rw [hcollisions] at hmem
        exact Template.exists_of_mem_checkCollisions (Template.getElem?_of_mem_zipIdx ts) hmem
      · rintro ⟨k, t, word, previous, -, rfl⟩
        exact Template.isCollision_warning _ _ _
  · intro actions ts hempty hok hids
    have hvalid : (empty.run actions).Valid := by
      rw [run_eq_ofAccepted]
      exact valid_ofAccepted _
    have hentries := Template.getElem?_of_mem_zipIdx ts
    rw [eq_empty_of_isEmpty hvalid hempty, (Template.filter_checkBatch ts).2]
    apply forall₂_loadAt hentries
    · intro entry hentry
      rw [hok entry.1 (List.mem_of_getElem? (hentries entry hentry))]
      exact Bool.false_ne_true
    · rw [← List.zipIdx_map_fst 0 ts, List.map_map] at hids
      exact hids
    · intro entry hentry
      rfl

/-- Two templates with a word in common, which the second one declares twice. -/
theorem load_agrees_with_checkBatch_turn :
    let ts := [turning "spin" ["turn"], turning "whirl" ["Turn", "turn"]]
    List.Forall₂ (SameClaim ts) (((empty.run []).load ts).2.filter Issue.isCollision)
        ((checkBatch ts).filter Issue.isCollision) ∧
      ((empty.run []).load ts).2.filter Issue.isCollision =
        [reassigned 1 (turning "whirl" ["Turn", "turn"]) "turn" "spin"] ∧
      (checkBatch ts).filter Issue.isCollision =
        [alsoUsed 1 (turning "whirl" ["Turn", "turn"]) "turn" "spin"] := by
  intro ts
  refine ⟨?_, by decide +kernel, by decide +kernel⟩
  exact load_agrees_with_checkBatch.2 [] ts rfl (by decide +kernel) (by decide)

end Library

end Motion
