import Motion.Json.Batch
import Motion.Template.Check
import Motion.Template.Document

/-! A library of templates by id, with an index of trigger words. Templates with errors are reported
and left out. -/
namespace Motion

structure Library where
  templates : Dictionary Template
  /-- The id that each trigger word, in normal form, selects. -/
  words : Dictionary String

namespace Library

def empty : Library := ⟨.empty, .empty⟩

/-- Stores a template from position `i` of its batch; also the warnings about words that it takes
from others. -/
def insert (lib : Library) (i : Nat) (t : Template) : Library × List Issue :=
  -- a template that is replaced loses its words
  let words :=
    if lib.templates.contains t.id then lib.words.filter (· ≠ t.id) else lib.words
  let warning := fun word previous =>
    Issue.warning t.id (Template.verbsPath i)
      ("trigger word '" ++ word ++ "' reassigned from template '" ++ previous ++ "'")
  let (words, issues) := Template.claimWords warning t.id words t.triggerWords
  (⟨lib.templates.insert t.id t, words⟩, issues)

/-- Loads templates that stand at the given positions of a batch; also every finding about them. -/
def loadAt : Library → List (Nat × Template) → Library × List Issue
  | lib, [] => (lib, [])
  | lib, (i, t) :: rest =>
    let found := t.check
    if hasErrors found then
      -- reported and left out
      let (lib, more) := loadAt lib rest
      (lib, found ++ more)
    else
      let (lib, warnings) := lib.insert i t
      let (lib, more) := loadAt lib rest
      (lib, found ++ warnings ++ more)

def load (lib : Library) (ts : List Template) : Library × List Issue :=
  lib.loadAt (ts.zipIdx.map fun (t, i) => (i, t))

/-- The templates of a batch of documents with their positions, and an error for each document that
is not a template. -/
def decodeBatch : List (Json.Value × Nat) → List (Nat × Template) × List Issue
  | [] => ([], [])
  | (v, i) :: rest =>
    let (ts, issues) := decodeBatch rest
    match Template.decode v with
    | .ok t => ((i, t) :: ts, issues)
    | .error e => (ts, .error none [.index i] e.message :: issues)

def loadDocuments (lib : Library) (vs : List Json.Value) : Library × List Issue :=
  let (ts, undecoded) := decodeBatch vs.zipIdx
  let (lib, issues) := lib.loadAt ts
  -- what cannot be read is reported before what is wrong with the rest
  (lib, undecoded ++ issues)

def loadText (lib : Library) (text : String) : Except Json.BatchError (Library × List Issue) :=
  (Json.readBatch .memory Json.readAny text).map lib.loadDocuments

def loadFailure (cause : String) : String :=
  "serialization error: template batch must be a JSON array: " ++ cause

def get? (lib : Library) (id : String) : Option Template := lib.templates.get? id

/-- The id that a word selects; blanks around it and case do not count. -/
def idForWord? (lib : Library) (word : String) : Option String :=
  lib.words.get? (Text.normalizeWord word)

def templateForWord? (lib : Library) (word : String) : Option Template :=
  (lib.idForWord? word).bind lib.get?

def triggerWords (lib : Library) : Table String := lib.words.entries.sorted

def ids (lib : Library) : List String := lib.templates.entries.sorted.keys

def size (lib : Library) : Nat := lib.templates.size

def isEmpty (lib : Library) : Bool := lib.templates.isEmpty

end Library

end Motion
