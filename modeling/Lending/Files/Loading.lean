import Lending.Datum.Json.Reader
import Lending.Datum.Toml.Reader
import Lending.Files.Tree
import Lending.Program.Decode

/-!
# Program files

Finds the program files below a directory and reads programs from them. The extension of a file
says which format it has.
-/

namespace Lending

/-- The formats of program files. -/
inductive Format where
  | json
  | toml
deriving DecidableEq, Repr, Inhabited

namespace Format

/-- The formats. -/
def all : List Format := [.json, .toml]

/-- The extension of files with this format. -/
def extension : Format → String
  | .json => "json"
  | .toml => "toml"

/-- The format of the file at a path. -/
def ofPath? (path : String) : Option Format :=
  (Path.extension? path).bind fun found => all.find? fun format => format.extension == found

end Format

/-- The program in a text. -/
def Program.parse? (format : Format) (text : String) : Option Program :=
  match format with
  | .json => (Json.read? text).bind (Program.ofDatum? .json)
  | .toml => (Toml.read? text).bind (Program.ofDatum? .toml)

/-- Why program files cannot be found or loaded. -/
inductive LoadError where
  | unsupportedFormat (path : String)
  | unreadable (path : String)
  | malformed (path : String)
  | missing (path : String)
deriving DecidableEq, Repr, Inhabited

/-- The error in words. -/
def LoadError.message : LoadError → String
  | .unsupportedFormat path =>
      s!"{path}: unsupported program format (expected .json or .toml)"
  | .unreadable path => s!"failed to read {path}"
  | .malformed path => s!"failed to parse {path}"
  | .missing path => s!"{path} does not exist"

/-- Loads the program at a path, where `found` stands. A program without a name is named after its
file. -/
def Program.load (path : String) (found : Option Tree) : Except LoadError Program :=
  match Format.ofPath? path, found with
  | none, _ => .error (.unsupportedFormat path)
  | some format, some (.file text) =>
      match Program.parse? format text with
      | none => .error (.malformed path)
      | some program =>
          .ok (match program.name with
            | some _ => program
            | none => { program with name := Path.stem? path })
  | some _, _ => .error (.unreadable path)

namespace Tree

mutual

/-- The program files below a directory with the given path, as they come. -/
def programFiles (path : String) : Tree → List (String × Tree)
  | .file text => if (Format.ofPath? path).isSome then [(path, .file text)] else []
  | .directory entries => programFilesOf path entries

/-- The program files among and below the entries of a directory with the given path. -/
def programFilesOf (path : String) : List (String × Tree) → List (String × Tree)
  | [] => []
  | (name, tree) :: rest =>
      programFiles (Path.join path name) tree ++ programFilesOf path rest

end

end Tree

/-- The program files at a path, where `found` stands: a file is taken as it is, and below a
directory all program files are taken, sorted by path. -/
def findPrograms (path : String) (found : Option Tree) :
    Except LoadError (List (String × Tree)) :=
  match found with
  | none => .error (.missing path)
  | some (.file text) => .ok [(path, .file text)]
  | some (.directory entries) =>
      .ok ((Tree.programFilesOf path entries).mergeSort fun left right => Path.le left.1 right.1)

end Lending
