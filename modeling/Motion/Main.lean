import Motion.Command.Run

namespace Motion.Command

def failureOf (e : IO.Error) : FileSystem.Error :=
  let known (code : UInt32) : FileSystem.Error :=
    -- some operations give the number of the failure below zero
    match code.toInt32.toInt.natAbs with
    | 2 => .notFound
    | 13 => .denied
    | 17 => .occupied
    | 20 => .notDirectory
    | 21 => .isDirectory
    | 36 => .nameTooLong
    | _ => .other (toString e)
  match e with
  | .noFileOrDirectory _ code _ | .permissionDenied _ code _ | .alreadyExists _ code _
  | .inappropriateType _ code _ | .invalidArgument _ code _ => known code
  | e => .other (toString e)

def attempt {α : Type} (act : IO α) : IO (Except FileSystem.Error α) := do
  try return .ok (← act)
  catch e => return .error (failureOf e)

def systemFiles : FileSystem IO where
  read path := attempt (IO.FS.readFile path)
  isDirectory path := do
    try (← IO.FS.realPath path).isDir
    catch _ => return false
  makeDirectory path := attempt (IO.FS.createDir path)
  write path text := attempt (IO.FS.writeFile path text)

end Motion.Command

open Motion.Command in
def main (args : List String) : IO UInt32 := do
  let outcome ← execute .unlimited systemFiles args
  IO.print outcome.stdout
  IO.eprint outcome.stderr
  return outcome.code.toUInt32
