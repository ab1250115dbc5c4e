import GroundPlanner.Files.Path
/-!
# A tree of files

The files of one directory and of the directories in it, as a value.  `read` and `write` fail for the same
causes as on disk: on the way to a file every part must be a directory, and nothing is known of what lies
outside of the tree.
-/
namespace GroundPlanner

inductive FileTree.Entry where
  | directory
  | octets (contents : ByteArray)

/-- Whether two entries are of one kind and have the same contents. -/
def FileTree.Entry.same : Entry → Entry → Bool
  | directory, directory => true
  | octets a, octets b => a.data == b.data
  | _, _ => false

/-- What stands at each place; a place is the list of the names that lead there. -/
structure FileTree where
  entries : List (List String × FileTree.Entry)

namespace FileTree

def empty : FileTree :=
  ⟨[]⟩

/-- What stands at a place.  A place on the way to another is a directory. -/
def entry? (t : FileTree) (place : List String) : Option Entry :=
  match t.entries.lookup place with
  | some e => some e
  | none =>
    if place.isEmpty || t.entries.any (fun e => place.isPrefixOf e.1) then some .directory else none

/-- Puts an entry at a place, instead of what stood there. -/
def put (t : FileTree) (place : List String) (e : Entry) : FileTree :=
  ⟨t.entries.filter (fun f => f.1 != place) ++ [(place, e)]⟩

/-- The longest name of a file in octets. -/
def maxName : Nat := 255

/-- The longest path in octets. -/
def maxPath : Nat := 4095

/-- Goes from a place to the part of a path that comes next. -/
def step (t : FileTree) (place : List String) (part : String) : Except FileFault (List String) :=
  match t.entry? place with
  | none => .error .notFound
  | some (.octets _) => .error .notDirectory
  | some .directory =>
    if part = "" ∨ part = "." then .ok place
    else if part = ".." then (if place.isEmpty then .error .notFound else .ok place.dropLast)
    else if maxName < part.utf8ByteSize then .error .nameTooLong
    else .ok (place ++ [part])

/-- Refuses the texts that are no paths into the tree.  A path without names leads to some directory, also
outside of the tree. -/
def checkPath (path : String) : Except FileFault Unit :=
  if path.toList.contains '\x00' then .error .nulInName
  else if maxPath < path.utf8ByteSize then .error .nameTooLong
  else if path = "" then .error .notFound
  else if (Path.parts path).all (fun p => p = "" || p = "." || p = "..") then .error .isDirectory
  else if path.startsWith "/" then .error .notFound
  else .ok ()

/-- The contents of a file. -/
def read (t : FileTree) (path : String) : Except FileFault String := do
  checkPath path
  let place ← (Path.parts path).foldlM t.step []
  match t.entry? place with
  | none => throw .notFound
  | some .directory => throw .isDirectory
  | some (.octets o) =>
    match String.fromUTF8? o with
    | some s => return s
    | none => throw .notText

/-- Writes a file, which need not have been there before. -/
def write (t : FileTree) (path text : String) : Except FileFault FileTree := do
  checkPath path
  let ps := Path.parts path
  let name := (ps.filter (· != "")).getLast?.getD "."
  let folder ← ((ps.reverse.dropWhile (· = "")).drop 1).reverse.foldlM t.step []
  let place ← t.step folder name
  if name = "." || name = ".." || ps.getLast? == some "" || (t.entry? place).any (Entry.same .directory) then
    throw .isDirectory
  return t.put place (.octets text.toUTF8)

/-- The text files of `t` that `before` does not have with the same contents. -/
def textsSince (t before : FileTree) : List (List String × String) :=
  t.entries.filterMap (fun (place, e) => match e with
    | .directory => none
    | .octets o =>
      if (before.entries.lookup place).any e.same then none
      else (String.fromUTF8? o).map (fun s => (place, s)))

end FileTree
end GroundPlanner
