/-!
# Locations of files

The text of a path in a file system: names with slashes between them. Empty names, and dots other
than at the front, do not count. Nothing is known here about which files there are.

## Main definitions

* `Location.segments`: the names of a path as they stand in it.
* `Location.join`: a path as seen from a directory.
* `Location.directory?`: the directory that a path lies in.
* `Location.precedes`: the order in which files are listed.
* `Location.hasExtension`: the end of a file's name.
-/
namespace CodeAtlas.Location

/-- What stands between the slashes of a path. -/
def segments (path : String) : List String := (path.toList.splitOn '/').map String.ofList

/-- Whether a path starts at the root. -/
def isAbsolute (path : String) : Bool := path.toList.head? = some '/'

/-- A path as seen from a directory. -/
def join (directory path : String) : String :=
  if isAbsolute path || directory = "" then path
  else if directory.toList.getLast? = some '/' then directory ++ path
  else directory ++ "/" ++ path

/-- The segments of a path from its end, without those at the end that do not count. The segment
at the front of the path stays. -/
def trimEnd : List String → List String
  | [] => []
  | [front] => [front]
  | s :: rest => if s = "" || s = "." then trimEnd rest else s :: rest

/-- The directory that a path lies in; the root and the empty path lie in none. -/
def directory? (path : String) : Option String :=
  match trimEnd (segments path).reverse with
  | [] | [""] => none
  | _ :: rest =>
    match trimEnd rest with
    | [""] => some "/"
    | rest => some ("/".intercalate rest.reverse)

/-- The bytes that a name in a path may have. -/
def nameLimit : Nat := 255

/-- The bytes that a path may have. -/
def pathLimit : Nat := 4095

/-- Whether one way to a file comes before another: name by name in the order of the names, and a
way before those that go on from its end. -/
def precedes : List String → List String → Bool
  | [], _ => true
  | _ :: _, [] => false
  | a :: as, b :: bs =>
    match compare a b with
    | .lt => true
    | .eq => precedes as bs
    | .gt => false

/-- Whether a file's name ends in a dot and the given extension, after some other text. -/
def hasExtension (extension name : String) : Bool :=
  let ending := ('.' :: extension.toList).reverse
  let letters := name.toList.reverse
  ending.isPrefixOf letters && ending.length < letters.length

end CodeAtlas.Location
