import Motion.Number.Numeral
import Motion.Table

/-! The arguments of the commands, judged from left to right. What is missing or excludes something
else is judged at the end. -/
namespace Motion.Command

inductive TemplateChoice where
  | id (id : String)
  | verb (word : String)
  deriving Repr

inductive PartsChoice where
  | file (path : String)
  | noun (noun : String)
  deriving Repr

structure CompileRequest where
  input : String
  template : TemplateChoice
  parts : PartsChoice
  adverb : Option String
  speed : Option Float
  amplitudeScale : Option Float
  /-- The output file; standard output without one. -/
  output : Option String

inductive Request where
  | validate (input : String)
  | compile (request : CompileRequest)
  | encode (request : CompileRequest)

inductive Invocation where
  | help
  | version
  /-- The arguments make no sense together. -/
  | misused
  | request (r : Request)

inductive ValueKind where
  | path
  | word
  | number
  deriving DecidableEq, Repr

def ValueKind.accepts (k : ValueKind) (value : String) : Bool :=
  match k with
  | path => value ≠ ""
  | word => true
  | number => (Number.readFloat? value.toList).isSome

def validateOptions : Table ValueKind := [("in", .path)]

def compileOptions : Table ValueKind :=
  [("in", .path), ("template", .word), ("verb", .word), ("parts", .path), ("noun", .word),
    ("adverb", .word), ("speed", .number), ("amplitude-scale", .number), ("out", .path)]

inductive Shape where
  /-- Two dashes: no options follow. -/
  | endOfOptions
  /-- An option by name, with the value behind its equals sign. -/
  | long (name : String) (value : Option String)
  /-- Single-letter options behind one dash. -/
  | short (letters : List Char)
  | plain
  deriving Repr

def Shape.of (arg : String) : Shape :=
  match arg.toList with
  | '-' :: '-' :: [] => endOfOptions
  | '-' :: '-' :: rest =>
    let name := String.ofList (rest.takeWhile (· ≠ '='))
    match rest.dropWhile (· ≠ '=') with
    | _ :: value => long name (some (String.ofList value))
    | [] => long name none
  | '-' :: c :: rest => short (c :: rest)
  -- a dash alone is a plain argument
  | _ => plain

/-- Single-letter options: whether `v` has been given afterwards. It can be given once. -/
def shortOptions (hasVersion : Bool) : Bool → List Char → Except Invocation Bool
  | verbose, [] => .ok verbose
  | verbose, c :: cs =>
    if c = 'v' && !verbose then shortOptions hasVersion true cs
    else if c = 'h' then .error .help
    else if c = 'V' && hasVersion then .error .version
    else .error .misused

/-- The value of an option: the one behind its equals sign, or else the next argument. Also how many
arguments that takes. -/
def optionValue? (attached : Option String) (rest : List String) : Option (String × Nat) :=
  match attached, rest with
  | some v, _ => some (v, 0)
  | none, v :: _ =>
    match Shape.of v with
    | .plain => some (v, 1)
    | _ => none
  | none, [] => none

def readOptions (known : Table ValueKind) (verbose : Bool) (given : Table String)
    (args : List String) : Except Invocation (Table String) :=
  match args with
  | [] => .ok given
  | arg :: rest =>
    match Shape.of arg with
    | .plain => .error .misused
    -- no command takes plain arguments besides its options
    | .endOfOptions => if rest.isEmpty then .ok given else .error .misused
    | .short letters =>
      match shortOptions false verbose letters with
      | .ok verbose => readOptions known verbose given rest
      | .error i => .error i
    | .long "help" none => .error .help
    | .long "verbose" none =>
      if verbose then .error .misused else readOptions known true given rest
    | .long name attached =>
      match known.get? name, optionValue? attached rest with
      | some kind, some (v, used) =>
        -- a value has to be of its kind, and an option is given once
        if kind.accepts v && !given.contains name then
          readOptions known verbose (given.insert name v) (rest.drop used)
        else .error .misused
      | _, _ => .error .misused
termination_by args.length

def numberOf? (given : Table String) (name : String) : Option Float :=
  (given.get? name).bind fun s => Number.readFloat? s.toList

def chooseOne {α : Type} (given : Table String) (first second : String) (f g : String → α) :
    Option α :=
  match given.get? first, given.get? second with
  | some v, none => some (f v)
  | none, some v => some (g v)
  | _, _ => none

def compileRequest? (given : Table String) : Option CompileRequest := do
  let input ← given.get? "in"
  let template ← chooseOne given "template" "verb" .id .verb
  let parts ← chooseOne given "parts" "noun" .file .noun
  return { input, template, parts, adverb := given.get? "adverb", speed := numberOf? given "speed"
           amplitudeScale := numberOf? given "amplitude-scale", output := given.get? "out" }

def commandNames : List String := ["validate", "compile", "encode", "help"]

def readHelp : List String → Invocation
  | [] => .help
  | [name] => if commandNames.contains name then .help else .misused
  | _ => .misused

def readCommand (name : String) (args : List String) : Invocation :=
  let read := fun (known : Table ValueKind) (request? : Table String → Option Request) =>
    match readOptions known false [] args with
    | .error i => i
    | .ok given => (request? given).elim .misused .request
  match name with
  | "validate" => read validateOptions fun given => (given.get? "in").map .validate
  | "compile" => read compileOptions fun given => (compileRequest? given).map .compile
  | "encode" => read compileOptions fun given => (compileRequest? given).map .encode
  | "help" => readHelp args
  | _ => .misused

def readInvocation (verbose : Bool) : List String → Invocation
  | [] => .misused
  | arg :: rest =>
    match Shape.of arg with
    | .plain => readCommand arg rest
    | .endOfOptions => .misused
    | .short letters =>
      match shortOptions true verbose letters with
      | .ok verbose => readInvocation verbose rest
      | .error i => i
    | .long "help" none => .help
    | .long "version" none => .version
    | .long "verbose" none => if verbose then .misused else readInvocation true rest
    | .long _ _ => .misused

end Motion.Command
