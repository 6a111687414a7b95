import Lending.Files.Path

/-!
# Directory trees

A directory as a value: files with their texts, and directories with their entries in any order.
Names and contents are Unicode texts: a directory in which some are not UTF-8 is no such value.
-/

namespace Lending

/-- A file or a directory. -/
inductive Tree where
  | file (text : String)
  | directory (entries : List (String × Tree))
deriving Inhabited

namespace Tree

/-- Follows the parts of a path. The directories around the current place are given innermost
first. Every part but the last must lead to a directory. -/
def follow (place : Tree) (around : List Tree) : List String → Option Tree
  | [] => some place
  | part :: rest =>
      match place with
      | .file _ => none
      | .directory entries =>
          if part = "" ∨ part = "." then follow place around rest
          else if part = ".." then
            match around with
            | outer :: beyond => follow outer beyond rest
            | [] => none
          else match List.lookup part entries with
            | some inner => follow inner (place :: around) rest
            | none => none

/-- What a relative path leads to from this directory. -/
def resolve? (tree : Tree) (path : String) : Option Tree :=
  if path.toList.head? = some '/' ∨ path = "" then none else tree.follow [] (Path.split path)

/-- The entries with `change` applied to what stands under a name. -/
def changeEntry (name : String) (change : Option Tree → Tree) :
    List (String × Tree) → List (String × Tree)
  | [] => [(name, change none)]
  | (other, kept) :: rest =>
      if other = name then (name, change (some kept)) :: rest
      else (other, kept) :: changeEntry name change rest

/-- Adds a file with the given text, or a directory where none is given, and the directories on the
way to it. Without parts there is nothing to add, and nothing can be added below a file. -/
def add (text : Option String) : List String → Tree → Tree
  | [], tree => tree
  | [name], .directory entries =>
      .directory (changeEntry name (fun kept =>
        match text with
        | some text => .file text
        | none => kept.getD (.directory [])) entries)
  | name :: path, .directory entries =>
      .directory (changeEntry name (fun kept => add text path (kept.getD (.directory []))) entries)
  | _, .file kept => .file kept

/-- The directory that holds the given files. A path that ends in a slash makes a directory. -/
def ofFiles (files : List (String × String)) : Tree :=
  files.foldl (fun tree (path, text) =>
    add (if path.toList.getLast? = some '/' then none else some text) (Path.components path) tree)
    (.directory [])

end Tree

end Lending
