import Motion.Command.Arguments
import Motion.Compile.Basic
import Motion.FileSystem.Basic
import Motion.FileSystem.Path
import Motion.Part.Skeleton
import Motion.Program.Buffer
import Motion.Program.Document
import Motion.Program.Fingerprint
import Motion.Template.Library

/-! Carrying out a command line: the exit code, what goes to the two streams and the file to be
written. -/
namespace Motion.Command

/-- What reading a file gives: its text, or why there is none. -/
abbrev Files := String → Except FileSystem.Error String

structure Output where
  path : String
  text : String
  deriving Repr

structure Outcome where
  code : Nat
  stdout : String
  /-- What goes to the error stream before the file is written. -/
  diagnostics : String
  output : Option Output
  deriving Repr

/-- A failure: what could not be done, and why, outermost first. -/
structure Failure where
  message : String
  causes : List String
  /-- What had gone to the error stream before. -/
  stderr : List String
  /-- What had gone to the output stream before. -/
  stdout : List String

def linesText (ls : List String) : String := String.join (ls.map (· ++ "\n"))

/-- All that goes to the error stream when the file, if there is one, has been written. -/
def Outcome.stderr (o : Outcome) : String :=
  o.diagnostics ++ o.output.elim "" fun f => "wrote " ++ f.path ++ "\n"

/-- A cause with its lines set in; a number stands before the first. -/
def renderCause (lead rest : String) (cause : String) : String :=
  lead ++ ("\n" ++ rest).intercalate (cause.splitOn "\n") ++ "\n"

/-- The causes of a failure; several of them are numbered. -/
def renderCauses (causes : List String) : String :=
  match causes with
  | [] => ""
  | [cause] => "\nCaused by:\n" ++ renderCause "    " "    " cause
  | causes => "\nCaused by:\n" ++ String.join (causes.zipIdx.map fun (cause, i) =>
      renderCause ("    " ++ toString i ++ ": ") "       " cause)

def renderFailure (message : String) (causes : List String) : String :=
  "Error: " ++ message ++ "\n" ++ renderCauses causes

def Failure.outcome (f : Failure) : Outcome :=
  { code := 1, stdout := linesText f.stdout
    diagnostics := linesText f.stderr ++ renderFailure f.message f.causes, output := none }

def readLibrary (files : Files) (path : String) : Except Failure (Library × List Issue) :=
  match files path with
  | .error e => .error ⟨"read templates '" ++ path ++ "'", [e.message], [], []⟩
  | .ok text =>
    match Library.empty.loadText text with
    | .ok loaded => .ok loaded
    | .error e =>
      .error ⟨"load templates '" ++ path ++ "'", [Library.loadFailure (e.report text)], [], []⟩

/-- Validation: every finding on a line, and then their numbers. -/
def runValidate (files : Files) (input : String) : Except Failure Outcome := do
  let (lib, issues) ← readLibrary files input
  let errors := issues.countP Issue.isError
  let lines := issues.map Issue.render ++
    [s!"{lib.size} template(s) loaded, {errors} error(s), {issues.length - errors} warning(s)"]
  if 0 < errors then .error ⟨s!"{errors} template error(s)", [], [], lines⟩
  else return { code := 0, stdout := linesText lines, diagnostics := "", output := none }

def findTemplate (lib : Library) (errors : List String) :
    TemplateChoice → Except Failure Template
  | .id id =>
    match lib.get? id with
    | some t => .ok t
    | none => .error ⟨"no template with id '" ++ id ++ "'", [], errors, []⟩
  | .verb word =>
    match lib.templateForWord? word with
    | some t => .ok t
    | none => .error ⟨"no template for trigger word '" ++ word ++ "'", [], errors, []⟩

/-- The parts that were asked for, and the lines about them. -/
def findParts (files : Files) (errors : List String) :
    PartsChoice → Except Failure (List Part × List String)
  | .noun noun => .ok ((Skeleton.ofNoun noun).parts, [])
  | .file path =>
    match files path with
    -- a directory can be opened like a file, and only reading from it fails
    | .error .isDirectory =>
      .error ⟨"parse part list JSON", [FileSystem.Error.isDirectory.message], errors, []⟩
    | .error e => .error ⟨"open part list '" ++ path ++ "'", [e.message], errors, []⟩
    | .ok text =>
      match Json.readBatch .stream Part.read text with
      | .error e => .error ⟨"parse part list JSON", [e.report text], errors, []⟩
      | .ok parts => .ok (parts, (Part.check parts).map Issue.render)

def runCompile (engine : Pattern.Engine) (files : Files) (r : CompileRequest) :
    Except Failure (Program × List String) := do
  let (lib, issues) ← readLibrary files r.input
  let errors := (issues.filter Issue.isError).map Issue.render
  let t ← findTemplate lib errors r.template
  let (parts, findings) ← findParts files errors r.parts
  -- what is wrong with other templates of the file is told as well
  let lines := errors ++ findings
  match t.compile engine .standard parts ⟨r.adverb, r.speed, r.amplitudeScale⟩ with
  | .error e =>
    .error ⟨"compile template '" ++ t.id ++ "'", e.message :: e.cause?.toList, lines, []⟩
  | .ok p =>
    let summary := "compiled '" ++ t.id ++ "': " ++ toString p.partCount ++ " part(s), fingerprint "
      ++ (Fingerprint.of p).render
    return (p, lines ++ [summary])

/-- Puts a document out, to a file or to the output stream. -/
def emit (path : Option String) (lines : List String) (v : Json.Value) : Outcome :=
  let text := v.writePretty ++ "\n"
  match path with
  | none => { code := 0, stdout := text, diagnostics := linesText lines, output := none }
  | some path =>
    { code := 0, stdout := "", diagnostics := linesText lines, output := some ⟨path, text⟩ }

def runRequest (engine : Pattern.Engine) (files : Files) : Request → Except Failure Outcome
  | .validate input => runValidate files input
  | .compile r => do
    let (p, lines) ← runCompile engine files r
    return emit r.output lines p.toJson
  | .encode r => do
    let (p, lines) ← runCompile engine files r
    return emit r.output lines (.array (p.encode.map .ofSingle))

def versionLine : String := "kinema 0.1.0"

def usage : List String :=
  ["Usage: kinema [OPTIONS] <COMMAND>",
    "",
    "Commands:",
    "  validate  Validate a template batch and print every issue",
    "  compile   Compile one template against a part list and write the motion program as JSON",
    "  encode    Compile, then write the encoded 528-float buffer as JSON"]

def run (engine : Pattern.Engine) (files : Files) (args : List String) : Outcome :=
  match readInvocation false args with
  | .help => { code := 0, stdout := linesText usage, diagnostics := "", output := none }
  | .version => { code := 0, stdout := versionLine ++ "\n", diagnostics := "", output := none }
  | .misused => { code := 2, stdout := "", diagnostics := linesText usage, output := none }
  | .request r =>
    match runRequest engine files r with
    | .ok outcome => outcome
    | .error f => f.outcome

def inputs (args : List String) : List String :=
  match readInvocation false args with
  | .request (.validate input) => [input]
  | .request (.compile r) | .request (.encode r) =>
    match r.parts with
    | .file path => [r.input, path]
    | .noun _ => [r.input]
  | _ => []

def Outcome.unwritten (o : Outcome) (message : String) (cause : FileSystem.Error) : Outcome :=
  { code := 1, stdout := o.stdout
    diagnostics := o.diagnostics ++ renderFailure message [cause.message], output := none }

variable {m : Type → Type} [Monad m]

/-- Writes the file of a run, in a directory that is made where there is none. -/
def Outcome.save (fs : FileSystem m) (o : Outcome) : m Outcome := do
  let some f := o.output | return o
  let directories := FileSystem.Path.directories f.path
  match ← fs.makeDirectories directories with
  | .error e => return o.unwritten ("create output dir '" ++ directories.headD "" ++ "'") e
  | .ok () =>
    match ← fs.write f.path f.text with
    | .error e => return o.unwritten ("write '" ++ f.path ++ "'") e
    | .ok () => return o

/-- Reads the files that a command line names, runs it and writes its file. -/
def execute (engine : Pattern.Engine) (fs : FileSystem m) (args : List String) : m Outcome := do
  let found ← (inputs args).mapM fun path => return (path, ← fs.read path)
  let files : Files := fun path => ((found.find? (·.1 == path)).map (·.2)).getD (.error .notFound)
  (run engine files args).save fs

end Motion.Command
