import Motion.Proofs.Param.Document

namespace Motion
open Motion.Decode

namespace MotionSpec

structure Storable (m : MotionSpec) : Prop where
  params : m.params.Storable
  duration : ∀ v, m.duration = some v → v.Storable
  phase : ∀ v, m.phase = some v → v.Storable
  start : ∀ v, m.start = some v → v.Storable

theorem plain_shape : shape.Plain := ⟨by decide, by decide⟩

theorem keys_entries (m : MotionSpec) :
    (m.entries.map Prod.fst).Sublist (shape.fields.map (·.name)) := by
  simp only [entries, List.map_append]
  exact (((List.Sublist.refl ["primitive", "params"]).append (Shape.keys_optionalEntry _ _ _)).append
    (Shape.keys_optionalEntry _ _ _)).append (Shape.keys_optionalEntry _ _ _)

theorem optional_toJson {v : Param.Value} (h : v.Storable) :
    optional Param.Value.decode v.toJson = .ok (some v) :=
  optional_eq_ok rfl (Param.Value.decode_toJson h)

theorem setAll_entries {m : MotionSpec} (h : m.Storable) :
    Shape.setAll setField blank m.entries = .ok m := by
  have hhead : Shape.setAll setField blank
      [("primitive", .string m.primitive), ("params", m.params.toJson)] =
        .ok ⟨m.primitive, m.params, none, none, none⟩ := by
    simp only [Shape.setAll_cons, setField, Param.Map.decode_toJson h.params]
    rfl
  have hduration : Shape.setAll setField ⟨m.primitive, m.params, none, none, none⟩
      (optionalEntry "duration" Param.Value.toJson m.duration) =
        .ok ⟨m.primitive, m.params, m.duration, none, none⟩ := by
    apply Shape.setAll_optionalEntry (fun d => MotionSpec.mk m.primitive m.params d none none)
    intro v hv
    simp only [setField, optional_toJson (h.duration v hv)]
    rfl
  have hphase : Shape.setAll setField ⟨m.primitive, m.params, m.duration, none, none⟩
      (optionalEntry "phase" Param.Value.toJson m.phase) =
        .ok ⟨m.primitive, m.params, m.duration, m.phase, none⟩ := by
    apply Shape.setAll_optionalEntry (fun p => MotionSpec.mk m.primitive m.params m.duration p none)
    intro v hv
    simp only [setField, optional_toJson (h.phase v hv)]
    rfl
  have hstart : Shape.setAll setField ⟨m.primitive, m.params, m.duration, m.phase, none⟩
      (optionalEntry "start" Param.Value.toJson m.start) =
        .ok ⟨m.primitive, m.params, m.duration, m.phase, m.start⟩ := by
    apply Shape.setAll_optionalEntry (MotionSpec.mk m.primitive m.params m.duration m.phase)
    intro v hv
    simp only [setField, optional_toJson (h.start v hv)]
    rfl
  rw [entries, List.append_assoc, List.append_assoc, Shape.setAll_append_of_ok hhead,
    Shape.setAll_append_of_ok hduration, Shape.setAll_append_of_ok hphase, hstart]

theorem decode_toJson {m : MotionSpec} (h : m.Storable) : decode m.toJson = .ok m := by
  change shape.ofEntries setField blank m.entries = .ok m
  rw [Shape.ofEntries_eq_setAll plain_shape m.keys_entries rfl, setAll_entries h]

theorem storable_blank : blank.Storable where
  params := Param.Map.storable_empty
  duration _ h := by cases h
  phase _ h := by cases h
  start _ h := by cases h

theorem storable_of_optional {w : Json.Value} (hw : w.InRange) {value : Option Param.Value}
    (h : optional Param.Value.decode w = .ok value) : ∀ v, value = some v → v.Storable := by
  rintro v rfl
  exact Param.Value.storable_of_decode hw (item_of_optional h)

theorem storable_setField {w : Json.Value} (hw : w.InRange) {m m' : MotionSpec} {name : String}
    (hm : m.Storable) (h : setField m name w = .ok m') : m'.Storable := by
  unfold setField at h
  split at h
  · obtain ⟨primitive, -, h⟩ := bind_eq_ok_iff.mp h
    cases h
    exact ⟨hm.params, hm.duration, hm.phase, hm.start⟩
  · obtain ⟨params, hparams, h⟩ := bind_eq_ok_iff.mp h
    cases h
    exact ⟨Param.Map.storable_of_decode hw hparams, hm.duration, hm.phase, hm.start⟩
  · obtain ⟨duration, hduration, h⟩ := bind_eq_ok_iff.mp h
    cases h
    exact ⟨hm.params, storable_of_optional hw hduration, hm.phase, hm.start⟩
  · obtain ⟨phase, hphase, h⟩ := bind_eq_ok_iff.mp h
    cases h
    exact ⟨hm.params, hm.duration, storable_of_optional hw hphase, hm.start⟩
  · obtain ⟨start, hstart, h⟩ := bind_eq_ok_iff.mp h
    cases h
    exact ⟨hm.params, hm.duration, hm.phase, storable_of_optional hw hstart⟩
  · cases h
    exact hm

theorem storable_of_decode {w : Json.Value} (hw : w.InRange) {m : MotionSpec}
    (h : decode w = .ok m) : m.Storable :=
  Shape.forall_of_record hw storable_blank (fun _ hw _ _ _ hm => storable_setField hw hm) h

end MotionSpec

namespace Rule

theorem plain_shape : shape.Plain := ⟨by decide, by decide⟩

/-- The entries of a rule that are not those of its motion. -/
theorem filter_own (r : Rule) (head last : Json.Value) :
    (([("match", head)] ++ r.motion.entries ++ [("attachment_behavior", last)]).filter
      fun e => (shape.field? e.1).isSome) = [("match", head), ("attachment_behavior", last)] := by
  have hmotion : (r.motion.entries.filter fun e => (shape.field? e.1).isSome) = [] := by
    have hdisjoint : ∀ name ∈ MotionSpec.shape.fields.map (·.name), shape.field? name = none := by
      decide
    rw [List.filter_eq_nil_iff]
    intro e he
    rw [hdisjoint e.1 (r.motion.keys_entries.subset (List.mem_map_of_mem he))]
    exact Bool.false_ne_true
  rw [List.filter_append, List.filter_append, hmotion]
  rfl

theorem filter_motion (r : Rule) (head last : Json.Value) :
    (([("match", head)] ++ r.motion.entries ++ [("attachment_behavior", last)]).filter
      fun e => (MotionSpec.shape.field? e.1).isSome) = r.motion.entries := by
  have hmotion : (r.motion.entries.filter fun e => (MotionSpec.shape.field? e.1).isSome) =
      r.motion.entries := by
    rw [List.filter_eq_self]
    intro e he
    have hname := r.motion.keys_entries.subset (List.mem_map_of_mem he)
    obtain ⟨f, hf, hname⟩ := List.mem_map.mp hname
    rw [← hname, MotionSpec.plain_shape.own f hf]
    rfl
  rw [List.filter_append, List.filter_append, hmotion]
  exact List.append_nil _

theorem decode_toJson {r : Rule} (h : r.motion.Storable) : decode r.toJson = .ok r := by
  have hown : shape.ofEntries setField ⟨"", .blank, .gradient⟩ ([("match", .string r.pattern)] ++
      r.motion.entries ++ [("attachment_behavior", .string r.attachment.name)]) =
        .ok ⟨r.pattern, .blank, r.attachment⟩ := by
    rw [← Shape.ofEntries_filter, filter_own,
      Shape.ofEntries_eq_setAll plain_shape (List.Sublist.refl _) rfl]
    simp only [Shape.setAll_cons, setField, Attachment.decode_name]
    rfl
  have hmotion : MotionSpec.shape.ofEntries MotionSpec.setField .blank
      ([("match", .string r.pattern)] ++ r.motion.entries ++
        [("attachment_behavior", .string r.attachment.name)]) = .ok r.motion := by
    rw [← Shape.ofEntries_filter, filter_motion,
      Shape.ofEntries_eq_setAll MotionSpec.plain_shape r.motion.keys_entries rfl,
      MotionSpec.setAll_entries h]
  rw [toJson, decode, hown]
  change (MotionSpec.shape.ofEntries _ _ _ >>= _) = _
  rw [hmotion]
  rfl

theorem storable_of_decode {w : Json.Value} (hw : w.InRange) {r : Rule} (h : decode w = .ok r) :
    r.motion.Storable := by
  cases hw with
  | object hentries =>
    obtain ⟨r₁, -, h⟩ := bind_eq_ok_iff.mp h
    obtain ⟨m, hm, h⟩ := bind_eq_ok_iff.mp h
    cases h
    exact Shape.forall_of_ofEntries
      (fun e he _ _ _ hm => MotionSpec.storable_setField (hentries e he) hm)
      MotionSpec.storable_blank hm
  | _ => cases h

end Rule

namespace AdverbOverride

structure Storable (o : AdverbOverride) : Prop where
  speed : ∀ x, o.speed = some x → x.isFinite = true
  amplitudeScale : ∀ x, o.amplitudeScale = some x → x.isFinite = true

theorem plain_shape : shape.Plain := ⟨by decide, by decide⟩

theorem optional_ofDouble {x : Float} (h : x.isFinite = true) :
    optional double (.ofDouble x) = .ok (some x) := optional_eq_ok rfl (double_ofDouble h)

theorem decode_toJson {o : AdverbOverride} (h : o.Storable) : decode o.toJson = .ok o := by
  have hspeed : Shape.setAll setField ⟨none, none⟩
      (optionalEntry "speed" .ofDouble o.speed) = .ok ⟨o.speed, none⟩ := by
    apply Shape.setAll_optionalEntry (fun speed => AdverbOverride.mk speed none)
    intro x hx
    simp only [setField, optional_ofDouble (h.speed x hx)]
    rfl
  have hscale : Shape.setAll setField ⟨o.speed, none⟩
      (optionalEntry "amplitude_scale" .ofDouble o.amplitudeScale) =
        .ok ⟨o.speed, o.amplitudeScale⟩ := by
    apply Shape.setAll_optionalEntry (AdverbOverride.mk o.speed)
    intro x hx
    simp only [setField, optional_ofDouble (h.amplitudeScale x hx)]
    rfl
  have hkeys : ((optionalEntry "speed" .ofDouble o.speed ++
      optionalEntry "amplitude_scale" .ofDouble o.amplitudeScale).map Prod.fst).Sublist
        (shape.fields.map (·.name)) := by
    rw [List.map_append]
    exact (Shape.keys_optionalEntry _ _ _).append (Shape.keys_optionalEntry _ _ _)
  change shape.ofEntries setField ⟨none, none⟩ _ = _
  rw [Shape.ofEntries_eq_setAll plain_shape hkeys rfl, Shape.setAll_append_of_ok hspeed, hscale]

theorem storable_empty : (⟨none, none⟩ : AdverbOverride).Storable where
  speed _ h := by cases h
  amplitudeScale _ h := by cases h

theorem finite_of_optional {w : Json.Value} (hw : w.InRange) {value : Option Float}
    (h : optional double w = .ok value) : ∀ x, value = some x → x.isFinite = true := by
  rintro x rfl
  exact isFinite_of_double hw (item_of_optional h)

theorem storable_of_decode {w : Json.Value} (hw : w.InRange) {o : AdverbOverride}
    (h : decode w = .ok o) : o.Storable := by
  apply Shape.forall_of_record hw storable_empty _ h
  intro w hw o name o' ho h
  unfold setField at h
  split at h
  · obtain ⟨speed, hspeed, h⟩ := bind_eq_ok_iff.mp h
    cases h
    exact ⟨finite_of_optional hw hspeed, ho.amplitudeScale⟩
  · obtain ⟨scale, hscale, h⟩ := bind_eq_ok_iff.mp h
    cases h
    exact ⟨ho.speed, finite_of_optional hw hscale⟩
  · cases h
    exact ho

end AdverbOverride

namespace Defaults

structure Storable (d : Defaults) : Prop where
  speed : d.speed.isFinite = true
  amplitudeScale : d.amplitudeScale.isFinite = true
  adverbs : ∀ e ∈ d.adverbs.entries, e.2.Storable

theorem plain_shape : shape.Plain := ⟨by decide, by decide⟩

theorem decode_toJson {d : Defaults} (h : d.Storable) : decode d.toJson = .ok d := by
  have hadverbs : entries "a map" AdverbOverride.decode
      (.object (d.adverbs.entries.map fun e => (e.1, e.2.toJson))) = .ok d.adverbs.entries :=
    entries_object fun e he => AdverbOverride.decode_toJson (h.adverbs e he)
  change shape.ofEntries setField neutral _ = _
  rw [Shape.ofEntries_eq_setAll plain_shape (List.Sublist.refl _) rfl]
  simp only [Shape.setAll_cons, setField, double_ofDouble h.speed, double_ofDouble h.amplitudeScale,
    hadverbs]
  change Except.ok (⟨d.speed, d.amplitudeScale, .ofList d.adverbs.entries⟩ : Defaults) = .ok d
  rw [d.adverbs.ofList_entries]

theorem storable_neutral : neutral.Storable where
  speed := by decide +kernel
  amplitudeScale := by decide +kernel
  adverbs := List.forall_mem_nil _

theorem storable_of_decode {w : Json.Value} (hw : w.InRange) {d : Defaults} (h : decode w = .ok d) :
    d.Storable := by
  apply Shape.forall_of_record hw storable_neutral _ h
  intro w hw d name d' hd h
  unfold setField at h
  split at h
  · obtain ⟨speed, hspeed, h⟩ := bind_eq_ok_iff.mp h
    cases h
    exact ⟨isFinite_of_double hw hspeed, hd.amplitudeScale, hd.adverbs⟩
  · obtain ⟨scale, hscale, h⟩ := bind_eq_ok_iff.mp h
    cases h
    exact ⟨hd.speed, isFinite_of_double hw hscale, hd.adverbs⟩
  · obtain ⟨adverbs, hadverbs, h⟩ := bind_eq_ok_iff.mp h
    cases h
    have hall := forall_of_entries (fun _ _ hw => AdverbOverride.storable_of_decode hw) hw hadverbs
    exact ⟨hd.speed, hd.amplitudeScale, Table.forall_mem_sorted hall⟩
  · cases h
    exact hd

end Defaults

namespace Template

structure Storable (t : Template) : Prop where
  wholeBody : ∀ m, t.wholeBody = some m → m.Storable
  rules : ∀ r ∈ t.rules, r.motion.Storable
  defaults : ∀ d, t.defaults = some d → d.Storable

theorem plain_shape : shape.Plain := ⟨by decide, by decide⟩

theorem decode_toJson {t : Template} (h : t.Storable) : decode t.toJson = .ok t := by
  have hverbs : sequence string (.array (t.verbs.map .string)) = .ok t.verbs :=
    sequence_array fun _ _ => rfl
  have hhead : Shape.setAll setField blank [("template_id", .string t.id),
      ("anchor_verbs", .array (t.verbs.map .string))] = .ok ⟨t.id, t.verbs, none, [], none⟩ := by
    simp only [Shape.setAll_cons, setField, hverbs]
    rfl
  have hbody : Shape.setAll setField ⟨t.id, t.verbs, none, [], none⟩
      (optionalEntry "whole_body" MotionSpec.toJson t.wholeBody) =
        .ok ⟨t.id, t.verbs, t.wholeBody, [], none⟩ := by
    apply Shape.setAll_optionalEntry (fun body => Template.mk t.id t.verbs body [] none)
    intro m hm
    have hread : optional MotionSpec.decode m.toJson = .ok (some m) :=
      optional_eq_ok rfl (MotionSpec.decode_toJson (h.wholeBody m hm))
    simp only [setField, hread]
    rfl
  have hrules : Shape.setAll setField ⟨t.id, t.verbs, t.wholeBody, [], none⟩
      [("part_rules", .array (t.rules.map Rule.toJson))] =
        .ok ⟨t.id, t.verbs, t.wholeBody, t.rules, none⟩ := by
    have hread : sequence Rule.decode (.array (t.rules.map Rule.toJson)) = .ok t.rules :=
      sequence_array fun r hr => Rule.decode_toJson (h.rules r hr)
    simp only [Shape.setAll_cons, setField, hread]
    rfl
  have hdefaults : Shape.setAll setField ⟨t.id, t.verbs, t.wholeBody, t.rules, none⟩
      (optionalEntry "defaults" Defaults.toJson t.defaults) =
        .ok ⟨t.id, t.verbs, t.wholeBody, t.rules, t.defaults⟩ := by
    apply Shape.setAll_optionalEntry (Template.mk t.id t.verbs t.wholeBody t.rules)
    intro d hd
    have hread : optional Defaults.decode d.toJson = .ok (some d) :=
      optional_eq_ok rfl (Defaults.decode_toJson (h.defaults d hd))
    simp only [setField, hread]
    rfl
  have hkeys (verbs rules : Json.Value) :
      (([("template_id", Json.Value.string t.id), ("anchor_verbs", verbs)] ++
        optionalEntry "whole_body" MotionSpec.toJson t.wholeBody ++ [("part_rules", rules)] ++
        optionalEntry "defaults" Defaults.toJson t.defaults).map Prod.fst).Sublist
          (shape.fields.map (·.name)) := by
    simp only [List.map_append]
    exact (((List.Sublist.refl ["template_id", "anchor_verbs"]).append
      (Shape.keys_optionalEntry _ _ _)).append (List.Sublist.refl ["part_rules"])).append
        (Shape.keys_optionalEntry _ _ _)
  change shape.ofEntries setField blank _ = _
  rw [Shape.ofEntries_eq_setAll plain_shape (hkeys _ _) rfl, List.append_assoc, List.append_assoc,
    Shape.setAll_append_of_ok hhead, Shape.setAll_append_of_ok hbody,
    Shape.setAll_append_of_ok hrules, hdefaults]

theorem storable_blank : blank.Storable where
  wholeBody _ h := by cases h
  rules := List.forall_mem_nil _
  defaults _ h := by cases h

theorem storable_of_decode {w : Json.Value} (hw : w.InRange) {t : Template} (h : decode w = .ok t) :
    t.Storable := by
  apply Shape.forall_of_record hw storable_blank _ h
  intro w hw t name t' ht h
  unfold setField at h
  split at h
  · obtain ⟨id, -, h⟩ := bind_eq_ok_iff.mp h
    cases h
    exact ⟨ht.wholeBody, ht.rules, ht.defaults⟩
  · obtain ⟨verbs, -, h⟩ := bind_eq_ok_iff.mp h
    cases h
    exact ⟨ht.wholeBody, ht.rules, ht.defaults⟩
  · obtain ⟨body, hbody, h⟩ := bind_eq_ok_iff.mp h
    cases h
    refine ⟨?_, ht.rules, ht.defaults⟩
    rintro m rfl
    exact MotionSpec.storable_of_decode hw (item_of_optional hbody)
  · obtain ⟨rules, hrules, h⟩ := bind_eq_ok_iff.mp h
    cases h
    exact ⟨ht.wholeBody, forall_of_sequence (fun _ _ hw => Rule.storable_of_decode hw) hw hrules,
      ht.defaults⟩
  · obtain ⟨defaults, hdefaults, h⟩ := bind_eq_ok_iff.mp h
    cases h
    refine ⟨ht.wholeBody, ht.rules, ?_⟩
    rintro d rfl
    exact Defaults.storable_of_decode hw (item_of_optional hdefaults)
  · cases h
    exact ht

/-- A template that has been read from a document is read back from the document it is written as,
and writing it again gives the same document. -/
theorem decode_toJson_of_decode {v : Json.Value} (hv : v.InRange) {t : Template}
    (h : decode v = .ok t) :
    decode t.toJson = .ok t ∧ (decode t.toJson).map toJson = .ok t.toJson := by
  have hread : decode t.toJson = .ok t := decode_toJson (storable_of_decode hv h)
  refine ⟨hread, ?_⟩
  rw [hread]
  rfl

/-- A document with formulas, nested lists, and adverbs out of order. -/
def flutterDocument : Json.Value :=
  .object [("template_id", .string "flutter"), ("anchor_verbs", .array [.string "flutter"]),
    ("whole_body", .object [("primitive", .string "bob"),
      ("params", .object [("rate", .string "\x7b\x7b speed * 2 \x7d\x7d"),
        ("beats", .array [.integer 1, .array [.float .double 0.5, .string "3"]])])]),
    ("part_rules", .array [.object [("attachment_behavior", .string "uniform"),
      ("match", .string "*wing*"), ("primitive", .string "rotate"), ("start", .integer 2)]]),
    ("defaults", .object [("adverb_map", .object [("wildly", .object []),
      ("calmly", .object [("speed", .float .double 0.25)])])])]

def flutter : Template :=
  ⟨"flutter", ["flutter"],
    some ⟨"bob", .ofList [("rate", .text "\x7b\x7b speed * 2 \x7d\x7d"),
      ("beats", .list [.number 1.0, .list [.number 0.5, .text "3"]])], none, none, none⟩,
    [⟨"*wing*", ⟨"rotate", .empty, none, none, some (.number 2.0)⟩, .uniform⟩],
    some ⟨1.0, 1.0, .ofList [("calmly", ⟨some 0.25, none⟩), ("wildly", ⟨none, none⟩)]⟩⟩

theorem decode_flutterDocument : decode flutterDocument = .ok flutter := rfl

theorem inRange_flutterDocument : flutterDocument.InRange := by
  have hhalf : (0.5 : Float).isFinite = true := by decide +kernel
  have hquarter : (0.25 : Float).isFinite = true := by decide +kernel
  simp [flutterDocument, hhalf, hquarter]

theorem decode_toJson_of_decode_flutter :
    flutterDocument.InRange ∧ decode flutterDocument = .ok flutter ∧
      decode flutter.toJson = .ok flutter :=
  ⟨inRange_flutterDocument, decode_flutterDocument,
    (decode_toJson_of_decode inRange_flutterDocument decode_flutterDocument).1⟩

end Template

end Motion
