import Motion.Decode
import Motion.Json.Reader

/-! Reading a text that is an array of documents of one kind. Each item is judged before the next
one is read. -/
namespace Motion.Json

inductive BatchError where
  /-- The text is not a document. -/
  | malformed (failure : Failure)
  /-- A value is not what was wanted. This showed in front of `rest`, of which so many bytes had
  been looked at. -/
  | unwanted (cause : Decode.Error) (rest : List Char) (ahead : Nat)

namespace BatchError

def message : BatchError → String
  | malformed f => f.fault.message
  | unwanted cause _ _ => cause.message

def position (text : String) : BatchError → Position
  | malformed f => .before text.toList f.rest f.ahead
  | unwanted _ rest ahead => .before text.toList rest ahead

def report (text : String) (e : BatchError) : String :=
  e.message ++ " at " ++ (e.position text).render

end BatchError

/-- Reads one document of a kind off the front of a text. -/
abbrev DocumentReader (α : Type) := List Char → Except BatchError (α × List Char)

def readAny : DocumentReader Value := fun cs => (readValue (maxDepth - 1) cs).mapError .malformed

/-- Where the characters of a text come from. -/
inductive Source where
  /-- The whole text is there before reading begins. -/
  | memory
  /-- They come one at a time, and one that has been looked at counts as read. -/
  | stream
  deriving DecidableEq, Repr

/-- Whether reading a value looks at a character that is not of it, or only at its first one. -/
def Value.isOpenEnded : Value → Bool
  | .integer _ | .float .. | .array _ | .object _ => true
  | .null | .bool _ | .string _ => false

def readScalar {α : Type} (source : Source) (item : Decode.Decoder α) : DocumentReader α :=
  fun cs =>
  -- an array or object is refused on sight, as if it were empty
  let found : Except Failure (Value × List Char) := match skipSpace cs with
    | '[' :: r => .ok (.array [], '[' :: r)
    | '{' :: r => .ok (.object [], '{' :: r)
    | r => readValue 0 r
  -- the end of a number shows only at the character behind it
  let lookahead := match source with
    | .memory => 0
    | .stream => 1
  match found with
  | .error f =>
    .error (.malformed (if f.fault = .numberOutOfRange then { f with ahead := lookahead } else f))
  | .ok (v, r) =>
    match item v with
    | .error e => .error (.unwanted e r (if v.isOpenEnded then lookahead else 0))
    | .ok a => .ok (a, r)

/-- The items of an array behind its bracket, after those `seen`, nearest first. -/
def readBatchItems {α : Type} (item : DocumentReader α) : Nat → List α → DocumentReader (List α)
  | 0, _, cs => .error (.malformed ⟨.endInArray, cs, 1⟩)
  | fuel + 1, seen, cs =>
    -- every step reads at least one character, so the length of the text bounds the steps
    match nextItem seen.isEmpty cs with
    | .error f => .error (.malformed f)
    | .ok (false, r) => .ok (seen.reverse, r)
    | .ok (true, r) =>
      match item r with
      | .error e => .error e
      | .ok (a, r) => readBatchItems item fuel (a :: seen) r

def readBatch {α : Type} (source : Source) (item : DocumentReader α) (text : String) :
    Except BatchError (List α) :=
  match skipSpace text.toList with
  | '[' :: r =>
    match readBatchItems item (r.length + 1) [] r with
    | .error e => .error e
    | .ok (items, r) => (readEnd items r).mapError .malformed
  | r => (readScalar source (fun v => .error (.wrongType v "a sequence")) r).map (·.1)

end Motion.Json
