import Motion.Proofs.Json.Range
import Motion.Proofs.Record
import Motion.Template.Document

namespace Motion

theorem Attachment.decode_name (a : Attachment) : decode (.string a.name) = .ok a := by
  cases a <;> rfl

namespace Decode
open Motion.Json (Value)

theorem mapM_map_eq_ok {ε α β : Type} {write : α → β} {read : β → Except ε α} {xs : List α}
    (h : ∀ x ∈ xs, read (write x) = .ok x) : (xs.map write).mapM read = .ok xs := by
  induction xs with
  | nil => rfl
  | cons x xs ih =>
    rw [List.map_cons, List.mapM_cons, h x List.mem_cons_self,
      ih fun y hy => h y (List.mem_cons_of_mem x hy)]
    rfl

theorem forall_of_mapM {ε α β : Type} {P : α → Prop} {Q : β → Prop} {f : α → Except ε β}
    {xs : List α} {ys : List β} (hf : ∀ x y, P x → f x = .ok y → Q y) (hxs : ∀ x ∈ xs, P x)
    (h : xs.mapM f = .ok ys) : ∀ y ∈ ys, Q y := by
  have hall := forall₂_of_mapM h
  clear h
  induction hall with
  | nil => exact List.forall_mem_nil Q
  | cons hxy _ ih =>
    rw [List.forall_mem_cons] at hxs ⊢
    exact ⟨hf _ _ hxs.1 hxy, ih hxs.2⟩

theorem double_ofDouble {x : Float} (h : x.isFinite = true) : double (.ofDouble x) = .ok x := by
  rw [Value.ofDouble, if_pos h]
  rfl

theorem isFinite_of_double {v : Value} (hv : v.InRange) {x : Float} (h : double v = .ok x) :
    x.isFinite = true := by
  cases hv with
  | integer hlow hhigh =>
    cases h
    exact Number.isFinite_ofInt hlow hhigh
  | float hfinite =>
    cases h
    exact hfinite
  | _ => cases h

section
variable {α : Type} {item : Decoder α} {v : Value} {x : α}

/-- What is not there is written as nothing at all, so a value is never mistaken for it. -/
theorem optional_eq_ok {e : Error} (hnull : item .null = .error e) (h : item v = .ok x) :
    optional item v = .ok (some x) := by
  cases v with
  | null =>
    rw [hnull] at h
    cases h
  | _ =>
    change (item _).map some = _
    rw [h]
    rfl

theorem item_of_optional (h : optional item v = .ok (some x)) : item v = .ok x := by
  cases v with
  | null => cases h
  | _ =>
    obtain ⟨y, hy, heq⟩ := map_eq_ok_iff.mp h
    cases heq
    exact hy

theorem sequence_array {write : α → Value} {xs : List α} (h : ∀ x ∈ xs, item (write x) = .ok x) :
    sequence item (.array (xs.map write)) = .ok xs := mapM_map_eq_ok h

theorem forall_of_sequence {P : α → Prop} (hitem : ∀ w x, w.InRange → item w = .ok x → P x)
    (hv : v.InRange) {xs : List α} (h : sequence item v = .ok xs) : ∀ x ∈ xs, P x := by
  cases hv with
  | array hitems => exact forall_of_mapM hitem hitems h
  | _ => cases h

theorem entries_object {expected : String} {write : α → Value} {es : List (String × α)}
    (h : ∀ e ∈ es, item (write e.2) = .ok e.2) :
    entries expected item (.object (es.map fun e => (e.1, write e.2))) = .ok es := by
  apply mapM_map_eq_ok
  intro e he
  rw [h e he]
  rfl

theorem forall_of_entries {expected : String} {P : α → Prop}
    (hitem : ∀ w x, w.InRange → item w = .ok x → P x) (hv : v.InRange) {es : List (String × α)}
    (h : entries expected item v = .ok es) : ∀ e ∈ es, P e.2 := by
  cases hv with
  | object hentries =>
    apply forall_of_mapM (Q := fun e => P e.2) _ hentries h
    intro e e' he heq
    obtain ⟨x, hx, heq⟩ := bind_eq_ok_iff.mp heq
    cases heq
    exact hitem e.2 x he hx
  | _ => cases h

end

namespace Shape

variable {σ : Type} {s : Shape} {set : σ → String → Value → Except Error σ} {seen seen' : List String}
  {r r' blank : σ} {es : List (String × Value)}

/-- Each field is read under its own name. -/
structure Plain (s : Shape) : Prop where
  own : ∀ f ∈ s.fields, s.field? f.name = some f.name
  nodup : (s.fields.map (·.name)).Nodup

/-- Sets one field after the other. -/
def setAll (set : σ → String → Value → Except Error σ) (r : σ) (es : List (String × Value)) :
    Except Error σ :=
  es.foldlM (fun r e => set r e.1 e.2) r

theorem setAll_cons (e : String × Value) (es : List (String × Value)) :
    setAll set r (e :: es) = set r e.1 e.2 >>= fun r => setAll set r es := List.foldlM_cons

theorem setAll_append_of_ok (h : setAll set r es = .ok r') (es' : List (String × Value)) :
    setAll set r (es ++ es') = setAll set r' es' := by
  rw [setAll, List.foldlM_append]
  change setAll set r es >>= _ = _
  rw [h]
  rfl

/-- A field without a value is left as it is; `put` is the record with one value of the field or the
other. -/
theorem setAll_optionalEntry {α : Type} {key : String} {toJson : α → Value} {value : Option α}
    (put : Option α → σ)
    (hset : ∀ x, value = some x → set (put none) key (toJson x) = .ok (put (some x))) :
    setAll set (put none) (optionalEntry key toJson value) = .ok (put value) := by
  cases value with
  | none => rfl
  | some x =>
    have hx := hset x rfl
    change setAll set (put none) [(key, toJson x)] = _
    rw [setAll_cons, hx]
    rfl

theorem keys_optionalEntry {α : Type} (key : String) (toJson : α → Value) (value : Option α) :
    ((optionalEntry key toJson value).map Prod.fst).Sublist [key] := by
  cases value with
  | none => exact List.nil_sublist _
  | some x => exact List.Sublist.refl _

/-- What belongs to no field of a record might as well not be there. -/
theorem readFields_filter (s : Shape) (set : σ → String → Value → Except Error σ)
    (seen : List String) (r : σ) (es : List (String × Value)) :
    s.readFields set seen r (es.filter fun e => (s.field? e.1).isSome) =
      s.readFields set seen r es := by
  induction es generalizing seen r with
  | nil => rfl
  | cons e es ih =>
    obtain ⟨key, v⟩ := e
    cases hkey : s.field? key with
    | none => simp [readFields, hkey, ih]
    | some name => simp [readFields, hkey, ih]

theorem readFields_own (hown : ∀ e ∈ es, s.field? e.1 = some e.1) (hnodup : (es.map Prod.fst).Nodup)
    (hnew : ∀ e ∈ es, e.1 ∉ seen) :
    s.readFields set seen r es =
      setAll set r es >>= fun r => .ok ((es.map Prod.fst).reverse ++ seen, r) := by
  induction es generalizing seen r with
  | nil => rfl
  | cons e es ih =>
    obtain ⟨key, v⟩ := e
    have hkey : s.field? key = some key := hown (key, v) List.mem_cons_self
    have hseen : seen.contains key = false := by
      have hnot := hnew (key, v) List.mem_cons_self
      simpa using hnot
    rw [List.map_cons, List.nodup_cons] at hnodup
    have hothers : ∀ e ∈ es, e.1 ∉ key :: seen := by
      intro e he hmem
      rcases List.mem_cons.mp hmem with heq | hmem
      · exact hnodup.1 (List.mem_map.mpr ⟨e, he, heq⟩)
      · exact hnew e (List.mem_cons_of_mem _ he) hmem
    have hrest (r : σ) := ih (r := r) (fun e he => hown e (List.mem_cons_of_mem _ he)) hnodup.2
      hothers
    rw [readFields, hkey, setAll_cons, bind_assoc]
    simp only [hseen, Bool.false_eq_true, if_false, hrest, List.map_cons, List.reverse_cons,
      List.append_assoc, List.singleton_append]

/-- A record is read back from its own fields by setting them in order. -/
theorem ofEntries_eq_setAll (hs : s.Plain)
    (hsub : (es.map Prod.fst).Sublist (s.fields.map (·.name)))
    (hcomplete : s.missing? (es.map Prod.fst).reverse = none) :
    s.ofEntries set blank es = setAll set blank es := by
  have hown : ∀ e ∈ es, s.field? e.1 = some e.1 := by
    intro e he
    obtain ⟨f, hf, hname⟩ := List.mem_map.mp (hsub.subset (List.mem_map_of_mem he))
    rw [← hname]
    exact hs.own f hf
  have hread : s.readFields set [] blank es =
      setAll set blank es >>= fun r => .ok ((es.map Prod.fst).reverse ++ [], r) :=
    readFields_own hown (hs.nodup.sublist hsub) fun e _ => List.not_mem_nil
  rw [List.append_nil] at hread
  rw [ofEntries, hread]
  cases setAll set blank es with
  | error e => rfl
  | ok r =>
    simp only [bind, Except.bind, hcomplete]
    rfl

theorem ofEntries_filter (s : Shape) (set : σ → String → Value → Except Error σ) (blank : σ)
    (es : List (String × Value)) :
    s.ofEntries set blank (es.filter fun e => (s.field? e.1).isSome) = s.ofEntries set blank es := by
  rw [ofEntries, ofEntries, readFields_filter]

theorem forall_of_readFields {P : σ → Prop}
    (hset : ∀ e ∈ es, ∀ r name r', P r → set r name e.2 = .ok r' → P r') (hr : P r)
    (h : s.readFields set seen r es = .ok (seen', r')) : P r' := by
  induction es generalizing seen r with
  | nil =>
    cases h
    exact hr
  | cons e es ih =>
    have hrest := fun e' he' => hset e' (List.mem_cons_of_mem e he')
    rcases readFields_cons_ok h with ⟨-, h⟩ | ⟨name, r₁, -, -, hfield, h⟩
    · exact ih hrest hr h
    · exact ih hrest (hset e List.mem_cons_self r name r₁ hr hfield) h

theorem forall_of_ofEntries {P : σ → Prop}
    (hset : ∀ e ∈ es, ∀ r name r', P r → set r name e.2 = .ok r' → P r') (hblank : P blank)
    (h : s.ofEntries set blank es = .ok r) : P r := by
  obtain ⟨⟨seen, r₁⟩, hread, h⟩ := bind_eq_ok_iff.mp h
  have hr₁ := forall_of_readFields hset hblank hread
  dsimp only at h
  split at h
  · cases h
  · cases h
    exact hr₁

theorem forall_of_ofItems {P : σ → Prop} {vs : List Value}
    (hset : ∀ v ∈ vs, ∀ r name r', P r → set r name v = .ok r' → P r') (hblank : P blank)
    (h : s.ofItems set blank vs = .ok r) : P r := by
  obtain ⟨⟨seen, r₁⟩, hread, h⟩ := bind_eq_ok_iff.mp h
  have hr₁ : P r₁ := by
    apply forall_of_readFields _ hblank hread
    intro e he
    exact hset e.2 (List.of_mem_zip he).2
  dsimp only at h
  split at h
  · cases h
  · split at h
    · cases h
    · cases h
      exact hr₁

/-- What holds of a blank record and is kept when a field is set holds of all records read. -/
theorem forall_of_record {P : σ → Prop} {v : Value} (hv : v.InRange) (hblank : P blank)
    (hset : ∀ w, w.InRange → ∀ r name r', P r → set r name w = .ok r' → P r')
    (h : s.record set blank v = .ok r) : P r := by
  cases hv with
  | object hentries => exact forall_of_ofEntries (fun e he => hset e.2 (hentries e he)) hblank h
  | array hitems => exact forall_of_ofItems (fun w hw => hset w (hitems w hw)) hblank h
  | _ => cases h

end Shape

end Decode

end Motion
