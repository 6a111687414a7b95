/-!
# Paths

Paths with slashes between their parts. Empty parts and single dots count for nothing, so a slash
at the end makes no difference to the name of a file.
-/

namespace Lending.Path

/-- The parts between the slashes of some characters; the part that is open is given in reverse. -/
def splitFrom (current : List Char) : List Char → List String
  | [] => [String.ofList current.reverse]
  | '/' :: rest => String.ofList current.reverse :: splitFrom [] rest
  | c :: rest => splitFrom (c :: current) rest

/-- The parts between the slashes. -/
def split (path : String) : List String :=
  splitFrom [] path.toList

/-- The parts that name something. -/
def components (path : String) : List String :=
  (split path).filter fun part => part != "" && part != "."

/-- The name of the file or directory that a path leads to; a path that ends in two dots has
none. -/
def fileName? (path : String) : Option String :=
  match (components path).getLast? with
  | some ".." => none
  | last => last

/-- The characters of a name before and behind its last dot. A dot in front of the whole name
counts for nothing. -/
def splitName (name : String) : String × Option String :=
  let reversed := name.toList.reverse
  let after := reversed.takeWhile (· != '.')
  match reversed.dropWhile (· != '.') with
  | _ :: c :: before => (String.ofList (c :: before).reverse, some (String.ofList after.reverse))
  | _ => (name, none)

/-- What follows the last dot of the name that a path leads to. -/
def extension? (path : String) : Option String :=
  (fileName? path).bind fun name => (splitName name).2

/-- The name that a path leads to, without its extension. -/
def stem? (path : String) : Option String :=
  (fileName? path).map fun name => (splitName name).1

/-- The path of an entry of a directory. -/
def join (directory name : String) : String :=
  if directory = "" ∨ directory.toList.getLast? = some '/' then directory ++ name
  else directory ++ "/" ++ name

/-- The order of paths: component by component. -/
def le (left right : String) : Bool :=
  !(components right).lex (components left) fun first second => decide (first < second)

end Lending.Path
