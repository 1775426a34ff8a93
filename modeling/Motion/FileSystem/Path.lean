/-! Paths as lists of names. Empty names count for nothing, and two dots stand for the directory
above. -/
namespace Motion.FileSystem.Path

def isAbsolute (path : String) : Bool := path.toList.head? = some '/'

/-- Whether a path can only lead to a directory. -/
def endsInSlash (path : String) : Bool := path.toList.getLast? = some '/'

def names (path : String) : List String := (path.splitOn "/").filter (· ≠ "")

/-- A path up to each of its names, from the last one back to where it starts. The steps are those
of the path, last first. -/
def upToEach : List String → List String
  | [] => []
  | [first] => [if first = "" then "/" else first]
  | step :: before =>
    -- a dot counts only as the first step of all
    if step = "" || step = "." then upToEach before
    else "/".intercalate (step :: before).reverse :: upToEach before

/-- The directories that a path leads through, innermost first. -/
def directories (path : String) : List String := (upToEach (path.splitOn "/").reverse).drop 1

end Motion.FileSystem.Path
