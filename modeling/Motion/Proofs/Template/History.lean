import Motion.Proofs.Template.Library

/-! What a library says after a history of loads. A word that was taken over is not given back. -/
namespace Motion

namespace Library

/-- What a host does to a library. -/
inductive Action where
  | load (ts : List Template)
  | loadText (text : String)
  | clear

def step (lib : Library) : Action → Library
  | .load ts => (lib.load ts).1
  | .loadText text =>
    match lib.loadText text with
    | .ok (lib, _) => lib
    | .error _ => lib
  | .clear => empty

def run (lib : Library) (actions : List Action) : Library := actions.foldl step lib

/-- The templates in a text, in order; what does not read as one is left out. -/
def templatesOf (text : String) : List Template :=
  match Json.readBatch .memory Json.readAny text with
  | .ok vs => vs.filterMap fun v => (Template.decode v).toOption
  | .error _ => []

/-- What has been accepted after one action more. -/
def Action.extend (accepted : List Template) : Action → List Template
  | load ts => accepted ++ ts.filter Template.isAccepted
  | loadText text => accepted ++ (templatesOf text).filter Template.isAccepted
  | clear => []

/-- The templates without errors among those that have been loaded since the library was last
cleared, in order. -/
def acceptedBy (actions : List Action) : List Template := actions.foldl Action.extend []

theorem loadAt_of_errors {t : Template} (h : hasErrors t.check = true) (lib : Library) (i : Nat)
    (rest : List (Nat × Template)) :
    lib.loadAt ((i, t) :: rest) = ((lib.loadAt rest).1, t.check ++ (lib.loadAt rest).2) := by
  rw [loadAt, if_pos h]

theorem loadAt_of_no_errors {t : Template} (h : ¬hasErrors t.check = true) (lib : Library) (i : Nat)
    (rest : List (Nat × Template)) :
    lib.loadAt ((i, t) :: rest) =
      (((lib.insert i t).1.loadAt rest).1,
        t.check ++ (lib.insert i t).2 ++ ((lib.insert i t).1.loadAt rest).2) := by
  rw [loadAt, if_neg h]

theorem fst_loadAt (lib : Library) (ts : List (Nat × Template)) :
    (lib.loadAt ts).1 = ((ts.map Prod.snd).filter Template.isAccepted).foldl store lib := by
  induction ts generalizing lib with
  | nil => rfl
  | cons entry rest ih =>
    obtain ⟨i, t⟩ := entry
    by_cases h : hasErrors t.check = true
    · have hrefused : ¬t.isAccepted = true := by simp [Template.isAccepted, h]
      rw [loadAt_of_errors h, ih, List.map_cons, List.filter_cons_of_neg hrefused]
    · have haccepted : t.isAccepted = true := by simp [Template.isAccepted, h]
      rw [loadAt_of_no_errors h, ih, fst_insert, List.map_cons, List.filter_cons_of_pos haccepted,
        List.foldl_cons]

theorem fst_load (lib : Library) (ts : List Template) :
    (lib.load ts).1 = (ts.filter Template.isAccepted).foldl store lib := by
  rw [load, fst_loadAt, List.map_map]
  change ((ts.zipIdx.map Prod.fst).filter Template.isAccepted).foldl store lib = _
  rw [List.zipIdx_map_fst]

theorem map_snd_decodeBatch (vs : List (Json.Value × Nat)) :
    (decodeBatch vs).1.map Prod.snd =
      (vs.map Prod.fst).filterMap fun v => (Template.decode v).toOption := by
  induction vs with
  | nil => rfl
  | cons entry rest ih =>
    obtain ⟨v, i⟩ := entry
    rw [decodeBatch, List.map_cons, List.filterMap_cons, ← ih]
    cases Template.decode v <;> rfl

theorem step_loadText (lib : Library) (text : String) :
    lib.step (.loadText text) = ((templatesOf text).filter Template.isAccepted).foldl store lib := by
  simp only [step, loadText, templatesOf]
  cases Json.readBatch .memory Json.readAny text with
  | error e => rfl
  | ok vs =>
    change (lib.loadAt (decodeBatch vs.zipIdx).1).1 = _
    rw [fst_loadAt, map_snd_decodeBatch, List.zipIdx_map_fst]

theorem step_ofAccepted (accepted : List Template) (a : Action) :
    (ofAccepted accepted).step a = ofAccepted (a.extend accepted) := by
  cases a with
  | load ts =>
    rw [Action.extend, ofAccepted_append]
    exact fst_load _ ts
  | loadText text =>
    rw [Action.extend, ofAccepted_append]
    exact step_loadText _ text
  | clear => rfl

theorem run_ofAccepted (accepted : List Template) (actions : List Action) :
    (ofAccepted accepted).run actions = ofAccepted (actions.foldl Action.extend accepted) := by
  induction actions generalizing accepted with
  | nil => rfl
  | cons a rest ih =>
    rw [List.foldl_cons, ← ih, ← step_ofAccepted]
    rfl

theorem run_eq_ofAccepted (actions : List Action) :
    empty.run actions = ofAccepted (acceptedBy actions) := run_ofAccepted [] actions

/-- What a library answers, told by the templates that it has accepted. -/
structure Recalls (accepted : List Template) (lib : Library) : Prop where
  get?_eq : ∀ id, lib.get? id = (accepted.filter fun t => t.id = id).getLast?
  /-- In strict order, so that each stands there once. -/
  ids_sorted : lib.ids.Pairwise (· < ·)
  mem_ids_iff : ∀ id, id ∈ lib.ids ↔ ∃ t ∈ accepted, t.id = id
  size_eq : lib.size = lib.ids.length
  undeclared : ∀ word, (∀ t ∈ accepted, Text.normalizeWord word ∉ t.triggerWords) →
    lib.idForWord? word = none
  /-- The last template that declares a word has it, unless it has been replaced since. -/
  declared : ∀ word earlier t later, accepted = earlier ++ t :: later →
    Text.normalizeWord word ∈ t.triggerWords →
    (∀ u ∈ later, Text.normalizeWord word ∉ u.triggerWords) →
    lib.idForWord? word = if ∃ u ∈ later, u.id = t.id then none else some t.id
  /-- What is indexed leads to a stored template that declares it. -/
  indexed : ∀ entry ∈ lib.words.entries, ∃ t, lib.get? entry.2 = some t ∧ entry.1 ∈ t.triggerWords
  selected : ∀ word id, lib.idForWord? word = some id →
    ∃ t, lib.templateForWord? word = some t ∧ t.id = id ∧ Text.normalizeWord word ∈ t.triggerWords

theorem recalls_ofAccepted (accepted : List Template) : (ofAccepted accepted).Recalls accepted where
  get?_eq := get?_ofAccepted accepted
  ids_sorted := Table.pairwise_keys_sorted _
  mem_ids_iff := mem_ids_ofAccepted_iff accepted
  size_eq := (Table.length_keys_sorted (ofAccepted accepted).templates.nodup).symm
  undeclared _ h := get?_words_ofAccepted_of_undeclared h
  declared word earlier t later heq ht hlater := by
    rw [heq]
    exact get?_words_ofAccepted ht hlater
  indexed entry hentry := valid_ofAccepted accepted _ _ (Dictionary.get?_of_mem hentry)
  selected word id h := by
    obtain ⟨t, ht, hmem⟩ := valid_ofAccepted accepted _ _ h
    refine ⟨t, ?_, (mem_of_get?_ofAccepted ht).2, hmem⟩
    rw [templateForWord?, h]
    exact ht

/-- After any history a library answers as the templates without errors in it say, and how they were
spread over loads makes no difference. -/
theorem run_recalls (actions : List Action) :
    (empty.run actions).Recalls (acceptedBy actions) ∧
      ∀ others, acceptedBy others = acceptedBy actions → empty.run others = empty.run actions := by
  constructor
  · rw [run_eq_ofAccepted]
    exact recalls_ofAccepted _
  · intro others h
    rw [run_eq_ofAccepted, run_eq_ofAccepted, h]

/-- A word of a stored template selects nothing exactly where another template declared it last and
has been replaced since. Otherwise it selects a stored template that declares it. -/
theorem idForWord?_of_stored (actions : List Action) {id word : String} {t : Template}
    (ht : (empty.run actions).get? id = some t) (hword : word ∈ t.triggerWords) :
    ((empty.run actions).idForWord? word = none ↔
      ∃ earlier u later, acceptedBy actions = earlier ++ u :: later ∧ u.id ≠ id ∧
        word ∈ u.triggerWords ∧ (∀ v ∈ later, word ∉ v.triggerWords) ∧ ∃ v ∈ later, v.id = u.id) ∧
    ∀ owner, (empty.run actions).idForWord? word = some owner →
      ∃ u, (empty.run actions).get? owner = some u ∧ word ∈ u.triggerWords := by
  rw [run_eq_ofAccepted] at ht ⊢
  have hlookup : (ofAccepted (acceptedBy actions)).idForWord? word =
      (ofAccepted (acceptedBy actions)).words.get? word := by
    rw [idForWord?, Template.normalizeWord_of_mem_triggerWords hword]
  rw [hlookup]
  refine ⟨⟨?_, ?_⟩, valid_ofAccepted _ word⟩
  · intro hnone
    obtain ⟨earlier, u, later, heq, hu, hlater, hreplaced⟩ :=
      exists_replaced_of_get?_words ⟨t, (mem_of_get?_ofAccepted ht).1, hword⟩ hnone
    refine ⟨earlier, u, later, heq, ?_, hu, hlater, hreplaced⟩
    rintro rfl
    rw [heq] at ht
    exact hlater t (mem_later_of_get? ht hreplaced) hword
  · rintro ⟨earlier, u, later, heq, _, hu, hlater, hreplaced⟩
    rw [heq, get?_words_ofAccepted hu hlater, if_pos hreplaced]

/-- A template that turns the whole body. -/
def turning (id : String) (verbs : List String) : Template :=
  ⟨id, verbs, some ⟨"rotate", .empty, none, none, none⟩, [], none⟩

/-- The word of the first template is taken by a second one, which is then replaced without it. -/
def takeover : List Action :=
  [.load [turning "spin" ["turn"]], .load [turning "whirl" ["turn"]],
    .load [turning "whirl" ["roll"]]]

theorem acceptedBy_takeover : acceptedBy takeover =
    [turning "spin" ["turn"]] ++ turning "whirl" ["turn"] :: [turning "whirl" ["roll"]] := by
  have hspin : (turning "spin" ["turn"]).isAccepted = true := by decide +kernel
  have hwhirl : (turning "whirl" ["turn"]).isAccepted = true := by decide +kernel
  have hroll : (turning "whirl" ["roll"]).isAccepted = true := by decide +kernel
  simp [acceptedBy, takeover, Action.extend, hspin, hwhirl, hroll]

theorem get?_takeover : (empty.run takeover).get? "spin" = some (turning "spin" ["turn"]) := by
  rw [run_eq_ofAccepted, get?_ofAccepted, acceptedBy_takeover]
  rfl

theorem idForWord?_takeover : (empty.run takeover).idForWord? "turn" = none := by
  have hnormal : Text.normalizeWord "turn" = "turn" := by decide +kernel
  have hturn : "turn" ∈ (turning "whirl" ["turn"]).triggerWords := by decide +kernel
  have hroll : ∀ u ∈ [turning "whirl" ["roll"]], "turn" ∉ u.triggerWords := by decide +kernel
  rw [run_eq_ofAccepted, idForWord?, hnormal, acceptedBy_takeover, get?_words_ofAccepted hturn hroll]
  rfl

theorem mem_triggerWords_turning : "turn" ∈ (turning "spin" ["turn"]).triggerWords := by
  decide +kernel

/-- The word was declared last by a template that has been replaced. -/
theorem idForWord?_of_stored_takeover :
    (empty.run takeover).get? "spin" = some (turning "spin" ["turn"]) ∧
      "turn" ∈ (turning "spin" ["turn"]).triggerWords ∧
      ∃ earlier u later, acceptedBy takeover = earlier ++ u :: later ∧ u.id ≠ "spin" ∧
        "turn" ∈ u.triggerWords ∧ (∀ v ∈ later, "turn" ∉ v.triggerWords) ∧
        ∃ v ∈ later, v.id = u.id := by
  refine ⟨get?_takeover, mem_triggerWords_turning, ?_⟩
  exact (idForWord?_of_stored takeover get?_takeover mem_triggerWords_turning).1.mp
    idForWord?_takeover

/-- A stored template declares a word that selects nothing. -/
theorem exists_stored_word_lost :
    (empty.run takeover).get? "spin" = some (turning "spin" ["turn"]) ∧
      "turn" ∈ (turning "spin" ["turn"]).triggerWords ∧
      (empty.run takeover).idForWord? "turn" = none :=
  ⟨get?_takeover, mem_triggerWords_turning, idForWord?_takeover⟩

variable {lib : Library}

theorem Valid.normalizeWord_of_get? (h : lib.Valid) {word id : String}
    (hword : lib.words.get? word = some id) : Text.normalizeWord word = word := by
  obtain ⟨t, _, ht⟩ := h word id hword
  exact Template.normalizeWord_of_mem_triggerWords ht

theorem get?_triggerWords (lib : Library) (word : String) :
    lib.triggerWords.get? (Text.normalizeWord word) = lib.idForWord? word :=
  lib.words.get?_sorted _

/-- The snapshot has the words that select something, each in its normal form. -/
theorem Valid.mem_triggerWords_iff (h : lib.Valid) {word id : String} :
    (word, id) ∈ lib.triggerWords ↔
      Text.normalizeWord word = word ∧ lib.idForWord? word = some id := by
  have hnodup : lib.triggerWords.keys.Nodup := (Table.pairwise_keys_sorted _).imp ne_of_lt
  rw [Table.mem_iff_get? hnodup, ← get?_triggerWords]
  constructor
  · intro hget
    have hnormal : Text.normalizeWord word = word := by
      apply h.normalizeWord_of_get?
      rwa [triggerWords, Dictionary.get?_sorted] at hget
    rw [hnormal]
    exact ⟨rfl, hget⟩
  · rintro ⟨hnormal, hget⟩
    rwa [hnormal] at hget

/-- After any history the snapshot of the index and the look-up of words say the same: a pair of the
snapshot is looked up as it stands, and what a word selects stands there under its normal form.
Normal forms are their own, and every word of the index is in normal form. -/
theorem triggerWords_agree_with_lookup (actions : List Action) :
    (∀ word id, (word, id) ∈ (empty.run actions).triggerWords ↔
      Text.normalizeWord word = word ∧ (empty.run actions).idForWord? word = some id) ∧
    (∀ word, (empty.run actions).triggerWords.get? (Text.normalizeWord word) =
      (empty.run actions).idForWord? word) ∧
    (empty.run actions).triggerWords.keys.Pairwise (· < ·) ∧
    (∀ entry ∈ (empty.run actions).words.entries, Text.normalizeWord entry.1 = entry.1) ∧
    ∀ s, Text.normalizeWord (Text.normalizeWord s) = Text.normalizeWord s := by
  have hvalid : (empty.run actions).Valid := by
    rw [run_eq_ofAccepted]
    exact valid_ofAccepted _
  refine ⟨?_, get?_triggerWords _, Table.pairwise_keys_sorted _, ?_,
    Text.normalizeWord_normalizeWord⟩
  · intro word id
    exact hvalid.mem_triggerWords_iff
  · intro entry hentry
    exact hvalid.normalizeWord_of_get? (Dictionary.get?_of_mem hentry)

/-- The first word is gone from the index, the last one is there under its normal form. -/
theorem triggerWords_agree_with_lookup_roll :
    ("roll", "whirl") ∈ (empty.run takeover).words.entries ∧ Text.normalizeWord "roll" = "roll" ∧
      (empty.run takeover).idForWord? " Roll" = some "whirl" ∧
      (empty.run takeover).triggerWords.get? "roll" = some "whirl" ∧
      ("roll", "whirl") ∈ (empty.run takeover).triggerWords := by
  obtain ⟨hpair, hlookup, -, hindex, -⟩ := triggerWords_agree_with_lookup takeover
  have hmem : ("roll", "whirl") ∈ (empty.run takeover).words.entries := by
    rw [run_eq_ofAccepted, acceptedBy_takeover]
    decide +kernel
  have hroll : Text.normalizeWord " Roll" = "roll" := by decide +kernel
  have hselects : (empty.run takeover).idForWord? "roll" = some "whirl" := by
    rw [run_eq_ofAccepted, acceptedBy_takeover]
    decide +kernel
  have hnormal : Text.normalizeWord "roll" = "roll" := hindex ("roll", "whirl") hmem
  have hget : (empty.run takeover).triggerWords.get? "roll" = some "whirl" := by
    rw [← hlookup, hnormal] at hselects
    exact hselects
  refine ⟨hmem, hnormal, ?_, hget, (hpair _ _).mpr ⟨hnormal, hselects⟩⟩
  rw [← hlookup, hroll, hget]

end Library

end Motion
