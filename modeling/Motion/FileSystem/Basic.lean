namespace Motion

inductive FileSystem.Error where
  | notFound
  | denied
  /-- What was to be made is there already. -/
  | occupied
  | notDirectory
  | isDirectory
  | nameTooLong
  /-- Anything else, in the words of the system. -/
  | other (message : String)
  deriving DecidableEq, Repr

structure FileSystem (m : Type → Type) where
  read : String → m (Except FileSystem.Error String)
  isDirectory : String → m Bool
  /-- Makes a directory in one that is there. -/
  makeDirectory : String → m (Except FileSystem.Error Unit)
  /-- Puts a text into a file, in place of what it held. -/
  write : String → String → m (Except FileSystem.Error Unit)

namespace FileSystem

def Error.message : Error → String
  | notFound => "No such file or directory (os error 2)"
  | denied => "Permission denied (os error 13)"
  | occupied => "File exists (os error 17)"
  | notDirectory => "Not a directory (os error 20)"
  | isDirectory => "Is a directory (os error 21)"
  | nameTooLong => "File name too long (os error 36)"
  | other message => message

variable {m : Type → Type} [Monad m]

/-- The outcome of making a directory when one that is there already will do. -/
def accept (fs : FileSystem m) (path : String) : Except Error Unit → m (Except Error Unit)
  | .ok () => return .ok ()
  | .error e => do if ← fs.isDirectory path then return .ok () else return .error e

/-- Makes the first of these directories, each of which lies in the next one. -/
def makeDirectories (fs : FileSystem m) : List String → m (Except Error Unit)
  | [] => return .ok ()
  | path :: above => do
    match ← fs.makeDirectory path with
    | .error .notFound =>
      -- those above are made only where they are found to be missing
      match ← fs.makeDirectories above with
      | .ok () => fs.accept path (← fs.makeDirectory path)
      | .error e => return .error e
    | made => fs.accept path made

end FileSystem

end Motion
