import Motion.Proofs.Json.Batch
import Motion.Proofs.Template.History
import Motion.Proofs.Template.Paths

/-! To load a text is to load the templates in it and then to move the findings to where they stand
in the text. -/
namespace Motion

theorem Issue.reindex_warning {positions : List Nat} {k position : Nat}
    (h : positions[k]? = some position) (id : Option String) (message : String) :
    (Issue.warning id (Template.verbsPath k) message).reindex positions =
      Issue.warning id (Template.verbsPath position) message := by
  have hpath : Path.reindex positions (Path.render (Template.verbsPath k)) =
      Path.render (Template.verbsPath position) := by
    rw [Template.verbsPath, Template.verbsPath, Path.render_index_cons, Path.render_index_cons,
      Path.reindex_index h]
  change (⟨_, _, Path.reindex positions (Path.render (Template.verbsPath k)), _⟩ : Issue) = _
  rw [hpath]
  rfl

theorem Template.claimWords_map {warning warning' : String → String → Issue} {f : Issue → Issue}
    (h : ∀ word previous, warning' word previous = f (warning word previous)) (id : String)
    (owners : Dictionary String) (words : List String) :
    claimWords warning' id owners words =
      ((claimWords warning id owners words).1, (claimWords warning id owners words).2.map f) := by
  induction words generalizing owners with
  | nil => rfl
  | cons word words ih =>
    have hword : claimWord warning' id owners word =
        ((claimWord warning id owners word).1, (claimWord warning id owners word).2.map f) := by
      unfold claimWord
      cases owners.get? word with
      | none => rfl
      | some previous =>
        dsimp only
        split
        · rfl
        · rw [List.map_singleton, h]
    simp only [claimWords, hword, ih, List.map_append]

namespace Template

section
variable {warning warning' : String → String → Issue} {id : String} {words : List String}

/-- The claims to some words lead to one warning each, however it is worded. -/
theorem forall₂_claimWords {R : Issue → Issue → Prop}
    (h : ∀ word ∈ words, ∀ previous ≠ id, R (warning word previous) (warning' word previous))
    (owners : Dictionary String) :
    List.Forall₂ R (claimWords warning id owners words).2 (claimWords warning' id owners words).2 := by
  induction words generalizing owners with
  | nil => exact .nil
  | cons word words ih =>
    have hrest := ih (fun word' hword' => h word' (List.mem_cons_of_mem word hword'))
      (owners.insert word id)
    have hfirst : List.Forall₂ R (claimWord warning id owners word).2
        (claimWord warning' id owners word).2 := by
      unfold claimWord
      dsimp only
      split
      · next previous _ =>
        split
        · exact .nil
        · next hother => exact .cons (h word List.mem_cons_self previous hother) .nil
      · exact .nil
    exact List.rel_append hfirst hrest

theorem exists_of_mem_claimWords {owners : Dictionary String} {i : Issue}
    (h : i ∈ (claimWords warning id owners words).2) :
    ∃ word ∈ words, ∃ previous ≠ id, i = warning word previous := by
  let R (a _ : Issue) : Prop := ∃ word ∈ words, ∃ previous ≠ id, a = warning word previous
  have hsame : List.Forall₂ R (claimWords warning id owners words).2
      (claimWords warning id owners words).2 := by
    apply forall₂_claimWords
    intro word hword previous hother
    exact ⟨word, hword, previous, hother, rfl⟩
  exact List.forall₂_same.mp hsame i h

end

end Template

namespace Library

variable {positions : List Nat}

theorem insert_reindex {k position : Nat} (h : positions[k]? = some position) (lib : Library)
    (t : Template) :
    lib.insert position t =
      ((lib.insert k t).1, (lib.insert k t).2.map (Issue.reindex positions)) := by
  unfold insert
  dsimp only
  rw [Template.claimWords_map (f := Issue.reindex positions)
    fun word previous => (Issue.reindex_warning h _ _).symm]

/-- A template of a batch and the same one where it stands in a text. -/
def SameTemplate (positions : List Nat) (entry moved : Nat × Template) : Prop :=
  positions[entry.1]? = some moved.1 ∧ entry.2 = moved.2

/-- To load templates from other positions only moves the findings about the batch. -/
theorem loadAt_reindex {entries moved : List (Nat × Template)}
    (h : List.Forall₂ (SameTemplate positions) entries moved) (lib : Library) :
    lib.loadAt moved =
      ((lib.loadAt entries).1, (lib.loadAt entries).2.map (Issue.reindex positions)) := by
  induction h generalizing lib with
  | nil => rfl
  | @cons entry moved entries rest hentry _ ih =>
    obtain ⟨k, t⟩ := entry
    obtain ⟨position, t'⟩ := moved
    obtain ⟨hposition, rfl⟩ := hentry
    have hcheck : t.check.map (Issue.reindex positions) = t.check := by
      have hsame : t.check.map (Issue.reindex positions) = t.check.map id := by
        apply List.map_congr_left
        intro i hi
        exact Issue.reindex_of_isInner (Template.isInner_of_mem_check hi)
      rw [hsame, List.map_id]
    by_cases herrors : hasErrors t.check = true
    · rw [loadAt_of_errors herrors, loadAt_of_errors herrors, ih, List.map_append, hcheck]
    · rw [loadAt_of_no_errors herrors, loadAt_of_no_errors herrors, insert_reindex hposition, ih,
        List.map_append, List.map_append, hcheck]

/-- Whether a finding is about the inside of a template, or about the batch at an entry. -/
def IsPlaced (entries : List (Nat × Template)) (i : Issue) : Prop :=
  Template.IsInner i ∨ ∃ entry ∈ entries, i.path = Path.render (Template.verbsPath entry.1)

theorem path_of_mem_claimWords {k : Nat} {t : Template} {owners : Dictionary String} {i : Issue}
    {words : List String} {message : String → String → String}
    (h : i ∈ (Template.claimWords (fun word previous =>
      Issue.warning t.id (Template.verbsPath k) (message word previous)) t.id owners words).2) :
    i.path = Path.render (Template.verbsPath k) := by
  obtain ⟨word, -, previous, -, rfl⟩ := Template.exists_of_mem_claimWords h
  rfl

/-- The findings of a load are about the inside of a template or about its words in the batch. -/
theorem isPlaced_of_mem_loadAt {entries : List (Nat × Template)} {lib : Library} {i : Issue}
    (h : i ∈ (lib.loadAt entries).2) : IsPlaced entries i := by
  induction entries generalizing lib with
  | nil => cases h
  | cons entry entries ih =>
    obtain ⟨k, t⟩ := entry
    have hrest {lib : Library} (h : i ∈ (lib.loadAt entries).2) : IsPlaced ((k, t) :: entries) i := by
      rcases ih h with hinner | ⟨entry, hentry, hpath⟩
      · exact Or.inl hinner
      · exact Or.inr ⟨entry, List.mem_cons_of_mem _ hentry, hpath⟩
    by_cases herrors : hasErrors t.check = true
    · rw [loadAt_of_errors herrors] at h
      rcases List.mem_append.mp h with h | h
      · exact Or.inl (Template.isInner_of_mem_check h)
      · exact hrest h
    · rw [loadAt_of_no_errors herrors, List.mem_append, List.mem_append] at h
      rcases h with (h | h) | h
      · exact Or.inl (Template.isInner_of_mem_check h)
      · exact Or.inr ⟨(k, t), List.mem_cons_self, path_of_mem_claimWords h⟩
      · exact hrest h

/-- The templates among some documents, in order. -/
def templatesIn (vs : List Json.Value) : List Template :=
  vs.filterMap fun v => (Template.decode v).toOption

/-- Where the templates stand among some documents. -/
def positionsIn (vs : List Json.Value) : List Nat :=
  vs.zipIdx.filterMap fun (v, i) => (Template.decode v).toOption.map fun _ => i

/-- An error for each document that is no template, at its place. -/
def undecodedIn (vs : List Json.Value) : List Issue :=
  vs.zipIdx.filterMap fun (v, i) =>
    match Template.decode v with
    | .ok _ => none
    | .error e => some (.error none [.index i] e.message)

theorem map_fst_decodeBatch (vs : List (Json.Value × Nat)) :
    (decodeBatch vs).1.map Prod.fst =
      vs.filterMap fun (v, i) => (Template.decode v).toOption.map fun _ => i := by
  induction vs with
  | nil => rfl
  | cons entry rest ih =>
    obtain ⟨v, i⟩ := entry
    rw [List.filterMap_cons, ← ih, decodeBatch]
    dsimp only
    cases Template.decode v with
    | ok t => rfl
    | error e => rfl

theorem snd_decodeBatch (vs : List (Json.Value × Nat)) :
    (decodeBatch vs).2 = vs.filterMap fun (v, i) =>
      match Template.decode v with
      | .ok _ => none
      | .error e => some (Issue.error none [.index i] e.message) := by
  induction vs with
  | nil => rfl
  | cons entry rest ih =>
    obtain ⟨v, i⟩ := entry
    rw [List.filterMap_cons, ← ih, decodeBatch]
    dsimp only
    cases Template.decode v with
    | ok t => rfl
    | error e => rfl

theorem decode_of_mem_decodeBatch {vs : List (Json.Value × Nat)} {entry : Nat × Template}
    (h : entry ∈ (decodeBatch vs).1) :
    ∃ v, (v, entry.1) ∈ vs ∧ Template.decode v = .ok entry.2 := by
  induction vs with
  | nil => cases h
  | cons first rest ih =>
    obtain ⟨v, i⟩ := first
    have hrest (h : entry ∈ (decodeBatch rest).1) :
        ∃ v', (v', entry.1) ∈ (v, i) :: rest ∧ Template.decode v' = .ok entry.2 := by
      obtain ⟨v', hmem, hdecode⟩ := ih h
      exact ⟨v', List.mem_cons_of_mem _ hmem, hdecode⟩
    rw [decodeBatch] at h
    dsimp only at h
    cases hv : Template.decode v with
    | ok t =>
      rw [hv] at h
      rcases List.mem_cons.mp h with rfl | h
      · exact ⟨v, List.mem_cons_self, hv⟩
      · exact hrest h
    | error e =>
      rw [hv] at h
      exact hrest h

variable {lib : Library} {vs : List Json.Value}

theorem map_fst_decodeBatch_zipIdx : (decodeBatch vs.zipIdx).1.map Prod.fst = positionsIn vs :=
  map_fst_decodeBatch vs.zipIdx

theorem map_snd_decodeBatch_zipIdx : (decodeBatch vs.zipIdx).1.map Prod.snd = templatesIn vs := by
  rw [map_snd_decodeBatch, List.zipIdx_map_fst, templatesIn]

/-- At the positions of the templates there are the documents that read as these templates. -/
theorem forall₂_positionsIn_templatesIn :
    List.Forall₂ (fun position t => ∃ v, vs[position]? = some v ∧ Template.decode v = .ok t)
      (positionsIn vs) (templatesIn vs) := by
  rw [← map_fst_decodeBatch_zipIdx, ← map_snd_decodeBatch_zipIdx, List.forall₂_map_left_iff,
    List.forall₂_map_right_iff, List.forall₂_same]
  intro entry hentry
  obtain ⟨v, hmem, hdecode⟩ := decode_of_mem_decodeBatch hentry
  exact ⟨v, List.mem_zipIdx_iff_getElem?.mp hmem, hdecode⟩

theorem pairwise_positionsIn (vs : List Json.Value) : (positionsIn vs).Pairwise (· < ·) := by
  have hzip : vs.zipIdx.Pairwise fun a b => a.2 < b.2 := by
    rw [← List.pairwise_map, List.zipIdx_map_snd]
    exact List.pairwise_lt_range'
  apply List.Pairwise.filterMap _ _ hzip
  rintro ⟨v, i⟩ ⟨v', j⟩ hlt a ha b hb
  obtain ⟨-, -, rfl⟩ := Option.map_eq_some_iff.mp ha
  obtain ⟨-, -, rfl⟩ := Option.map_eq_some_iff.mp hb
  exact hlt

/-- The numbers of a batch lead to the positions of its templates. -/
theorem forall₂_sameTemplate (entries : List (Nat × Template)) :
    List.Forall₂ (SameTemplate (entries.map Prod.fst))
      ((entries.map Prod.snd).zipIdx.map fun (t, k) => (k, t)) entries := by
  rw [List.forall₂_iff_get]
  refine ⟨by simp, ?_⟩
  intro k h₁ h₂
  simp [SameTemplate, h₂]

/-- To load documents is to load the templates among them. -/
theorem loadDocuments_eq (lib : Library) (vs : List Json.Value) :
    lib.loadDocuments vs =
      ((lib.load (templatesIn vs)).1,
        undecodedIn vs ++ (lib.load (templatesIn vs)).2.map (Issue.reindex (positionsIn vs))) := by
  have hsame := forall₂_sameTemplate (decodeBatch vs.zipIdx).1
  rw [map_fst_decodeBatch_zipIdx, map_snd_decodeBatch_zipIdx] at hsame
  have hload : lib.loadAt (decodeBatch vs.zipIdx).1 =
      ((lib.load (templatesIn vs)).1,
        (lib.load (templatesIn vs)).2.map (Issue.reindex (positionsIn vs))) :=
    loadAt_reindex hsame lib
  have hundecoded : (decodeBatch vs.zipIdx).2 = undecodedIn vs := snd_decodeBatch vs.zipIdx
  simp only [loadDocuments, hload, hundecoded]

theorem moved_of_mem_load {i : Issue} (h : i ∈ (lib.load (templatesIn vs)).2) :
    Issue.Moved (positionsIn vs) i (i.reindex (positionsIn vs)) := by
  rcases isPlaced_of_mem_loadAt h with hinner | ⟨⟨k, t⟩, hentry, hpath⟩
  · rw [Issue.reindex_of_isInner hinner]
    obtain ⟨name, rest, hpath⟩ := hinner
    rw [Path.render_key_cons] at hpath
    exact Issue.Moved.inner hpath
  · obtain ⟨⟨t', k'⟩, hmem, heq⟩ := List.mem_map.mp hentry
    cases heq
    have hlt : k < (positionsIn vs).length := by
      rw [forall₂_positionsIn_templatesIn.length_eq]
      exact List.snd_lt_of_mem_zipIdx hmem
    have hposition : (positionsIn vs)[k]? = some (positionsIn vs)[k] := List.getElem?_eq_getElem hlt
    rw [Template.verbsPath, Path.render_index_cons] at hpath
    rw [Issue.reindex, hpath, Path.reindex_index hposition]
    exact Issue.Moved.batch hposition hpath

/-- To load a text that is an array is to load the templates in it, except that the findings about
the batch are moved to where the templates stand and that each document which is no template is
reported before them. Any other text is refused and changes nothing. -/
theorem loadText_eq_load (lib : Library) (text : String) :
    (∀ vs, Json.readDocument text = .ok (.array vs) →
      lib.loadText text = .ok ((lib.load (templatesIn vs)).1,
        undecodedIn vs ++ (lib.load (templatesIn vs)).2.map (Issue.reindex (positionsIn vs))) ∧
      (∀ i ∈ (lib.load (templatesIn vs)).2,
        Issue.Moved (positionsIn vs) i (i.reindex (positionsIn vs))) ∧
      (positionsIn vs).Pairwise (· < ·) ∧
      List.Forall₂ (fun position t => ∃ v, vs[position]? = some v ∧ Template.decode v = .ok t)
        (positionsIn vs) (templatesIn vs)) ∧
    ((∀ vs, Json.readDocument text ≠ .ok (.array vs)) →
      (∃ e, lib.loadText text = .error e) ∧ lib.step (.loadText text) = lib) := by
  constructor
  · intro vs hvs
    have hbatch : Json.readBatch .memory Json.readAny text = .ok vs :=
      (Json.readBatch_readAny_iff text vs).mpr hvs
    have hload : lib.loadText text = .ok (lib.loadDocuments vs) := by
      rw [loadText, hbatch]
      rfl
    rw [hload, loadDocuments_eq]
    exact ⟨rfl, fun i => moved_of_mem_load, pairwise_positionsIn vs,
      forall₂_positionsIn_templatesIn⟩
  · intro hother
    cases hbatch : Json.readBatch .memory Json.readAny text with
    | ok vs => exact absurd ((Json.readBatch_readAny_iff text vs).mp hbatch) (hother vs)
    | error e =>
      have hload : lib.loadText text = .error e := by
        rw [loadText, hbatch]
        rfl
      refine ⟨⟨e, hload⟩, ?_⟩
      rw [step, hload]

end Library

end Motion
