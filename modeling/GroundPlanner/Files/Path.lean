import GroundPlanner.Error
/-!
# Paths

A path is a text whose parts are separated by slashes.  Its last part that is not a dot names the file; the
last point in that name, unless the name begins with it, separates the stem from the extension.
-/
namespace GroundPlanner
namespace Path

/-- The parts of a path, empty ones included. -/
def parts (path : String) : List String :=
  (path.toList.splitOnP (· == '/')).map String.ofList

/-- The name of the file, unless the path ends on the way up or has no name in it. -/
def fileName? (path : String) : Option String := do
  let name ← ((parts path).filter (fun p => p != "" && p != ".")).getLast?
  if name = ".." then none else return name

/-- The stem and the extension of a file name. -/
def splitName (name : String) : String × Option String :=
  let back := name.toList.reverse
  let extension := (back.takeWhile (· != '.')).reverse
  match (back.dropWhile (· != '.')).drop 1 with
  | [] => (name, none)
  | stem => (String.ofList stem.reverse, some (String.ofList extension))

def stem? (path : String) : Option String :=
  (fileName? path).map (fun n => (splitName n).1)

def extension? (path : String) : Option String :=
  (fileName? path).bind (fun n => (splitName n).2)

end Path

/-- The format of a document is told by the extension of its file; without a known one it is TOML. -/
def Format.ofPath (path : String) : Format :=
  match Path.extension? path with
  | some "yaml" | some "yml" => .yaml
  | _ => .toml

end GroundPlanner
