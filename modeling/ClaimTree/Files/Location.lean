import ClaimTree.Text.Split

namespace ClaimTree.Files

/-- The names between the slashes of a path. An empty one or a single dot stays where it is, and two
dots go up. -/
def parts (path : String) : List String := (Text.split '/' path.toList).map String.ofList

def isAbsolute (path : String) : Bool := path.toList.head? = some '/'

def isIdle (part : String) : Bool := part == "" || part == "."

/-- The parts without the idle ones at the end. -/
def trimIdle (ps : List String) : List String := (ps.reverse.dropWhile isIdle).reverse

/-- The name at the end of a path, idle parts behind it left aside. -/
def fileName? (path : String) : Option String :=
  (trimIdle (parts path)).getLast?.filter (· != "..")

/-- The path of the file called `name` beside the one that `path` names. -/
def sibling (path name : String) : String :=
  let before := (trimIdle (parts path)).dropLast
  let kept := if (trimIdle before).isEmpty then before.take 1 else trimIdle before
  "/".intercalate (kept ++ [name])

end ClaimTree.Files
