import Motion.Issue
import Motion.Pattern.Match
import Motion.Primitive
import Motion.Template.Basic

/-! Findings about templates. Errors are what would keep a template from compiling, warnings what an
author probably did not mean. -/
namespace Motion.Template

def checkPrimitive (id : Option String) (base : Path) (m : MotionSpec) : List Issue :=
  let path := base ++ [.key "primitive"]
  if Text.isBlankText m.primitive then [.error id path "primitive name is required"]
  else if (Primitive.ofName? m.primitive).isNone then
    [.error id path ("unknown primitive '" ++ m.primitive ++ "'")]
  else []

def checkMultiplier (id : Option String) (base : Path) (field : String) (value : Option Float) :
    List Issue :=
  match value with
  | none => []
  | some x =>
    if !x.isFinite || x < 0.0 then
      [.warning id (base ++ [.key field])
        (field ++ " should be a finite, non-negative multiplier (got "
          ++ Number.Style.plain.write x ++ ")")]
    else []

def checkId (t : Template) : List Issue :=
  if Text.isBlankText t.id then
    [.error t.id [.key "template_id"] "template_id is required"]
  else []

def checkWholeBody (t : Template) : List Issue :=
  match t.wholeBody with
  | some m => checkPrimitive t.id [.key "whole_body"] m
  | none => [.error t.id [.key "whole_body"] "whole_body motion is required"]

/-- The findings about one rule: first its pattern, then its motion. -/
def checkRule (id : Option String) (i : Nat) (r : Rule) : List Issue :=
  let base : Path := [.key "part_rules", .index i]
  (match Pattern.validate r.pattern with
    | .error e => [.error id (base ++ [.key "match"]) e.message]
    | .ok _ => [])
    ++ checkPrimitive id base r.motion

def checkVerbs (t : Template) : List Issue :=
  if t.triggerWords.isEmpty then
    [.warning t.id [.key "anchor_verbs"] "no trigger words; template is reachable by id only"]
  else []

/-- The findings about the multipliers, and then about those of each adverb in order. -/
def checkDefaults (t : Template) : List Issue :=
  match t.defaults with
  | none =>
    [.warning t.id [.key "defaults"] "no defaults section; speed and amplitude default to 1.0"]
  | some d =>
    checkMultiplier t.id [.key "defaults"] "speed" (some d.speed)
      ++ checkMultiplier t.id [.key "defaults"] "amplitude_scale" (some d.amplitudeScale)
      ++ d.adverbs.entries.flatMap fun (adverb, o) =>
        let base : Path := [.key "defaults", .key "adverb_map", .key adverb]
        checkMultiplier t.id base "speed" o.speed
          ++ checkMultiplier t.id base "amplitude_scale" o.amplitudeScale

def check (t : Template) : List Issue :=
  checkId t ++ checkWholeBody t
    ++ (t.rules.zipIdx.flatMap fun (r, i) => checkRule t.id i r)
    ++ checkVerbs t ++ checkDefaults t

/-- What a claim to a trigger word leads to: the owners afterwards, and a warning if the word
belonged to another template. -/
def claimWord (warning : String → String → Issue) (id : String) (owners : Dictionary String)
    (word : String) : Dictionary String × List Issue :=
  let issues := match owners.get? word with
    | some previous => if previous = id then [] else [warning word previous]
    | none => []
  (owners.insert word id, issues)

def claimWords (warning : String → String → Issue) (id : String) :
    Dictionary String → List String → Dictionary String × List Issue
  | owners, [] => (owners, [])
  | owners, word :: words =>
    let (owners, found) := claimWord warning id owners word
    let (owners, more) := claimWords warning id owners words
    (owners, found ++ more)

def verbsPath (i : Nat) : Path := [.index i, .key "anchor_verbs"]

/-- The warnings about words that several templates of a batch claim. -/
def checkCollisions : Dictionary String → List (Template × Nat) → List Issue
  | _, [] => []
  | owners, (t, i) :: rest =>
    let warning := fun word previous =>
      Issue.warning t.id (verbsPath i)
        ("trigger word '" ++ word ++ "' also used by template '" ++ previous ++ "'")
    -- the later template gets the word
    let (owners, found) := claimWords warning t.id owners t.triggerWords
    found ++ checkCollisions owners rest

def checkBatch (ts : List Template) : List Issue :=
  ts.flatMap check ++ checkCollisions .empty ts.zipIdx

end Motion.Template
