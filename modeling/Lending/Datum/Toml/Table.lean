import Lending.Datum.Basic

/-!
# TOML tables

Tables while a TOML text is being read. A table may be opened by a header, by a dotted key, or only
because a longer header or key passes through it, and what may still be added to it depends on
that:

* a header may open a table that longer headers have passed through, once;
* a dotted key may add to tables that keys or headers have passed through, but ends in one that
  dotted keys have made;
* a name under which a value stands cannot be passed through.
-/

namespace Lending.Toml

/-- What stands under a name of a table. -/
inductive Node where
  /-- A complete value. -/
  | value (datum : Datum)
  /-- A table. It is implicit until a header opens it, and dotted if a dotted key made it. -/
  | table (isImplicit isDotted : Bool) (entries : List (String × Node))
  /-- The tables that headers in double brackets have opened, latest first. -/
  | tables (items : List (List (String × Node)))
deriving Inhabited

/-- The entries of a table, in the order in which they were made. -/
abbrev Entries := List (String × Node)

mutual

/-- The node as a datum. -/
def Node.toDatum : Node → Datum
  | .value datum => datum
  | .table _ _ entries => .record (entriesToFields entries)
  | .tables items => .list (tablesToItems items).reverse

/-- The entries of a table as the members of a record. -/
def entriesToFields : List (String × Node) → List (String × Datum)
  | [] => []
  | (name, node) :: rest => (name, node.toDatum) :: entriesToFields rest

/-- Tables as records. -/
def tablesToItems : List (List (String × Node)) → List Datum
  | [] => []
  | entries :: rest => .record (entriesToFields entries) :: tablesToItems rest

end

namespace Entries

/-- Sets what stands under a name, in its place or behind all others. -/
def put (name : String) (node : Node) : Entries → Entries
  | [] => [(name, node)]
  | (other, kept) :: rest =>
      if other = name then (name, node) :: rest else (other, kept) :: put name node rest

/-- Changes the table at the end of a path of names. Tables that are missing on the way are made,
and an array of tables is passed through its latest table. -/
def within (change : Entries → Option Entries) : List String → Entries → Option Entries
  | [], entries => change entries
  | name :: path, entries =>
      match List.lookup name entries with
      | none => (within change path []).map fun inner =>
          entries.put name (.table true false inner)
      | some (.table isImplicit isDotted inner) => (within change path inner).map fun inner =>
          entries.put name (.table isImplicit isDotted inner)
      | some (.tables (latest :: older)) => (within change path latest).map fun latest =>
          entries.put name (.tables (latest :: older))
      | some (.tables []) => none
      | some (.value _) => none

/-- Opens the table `name` by a header. -/
def openTable (name : String) (entries : Entries) : Option Entries :=
  match List.lookup name entries with
  | none => some (entries.put name (.table false false []))
  | some (.table true false inner) => some (entries.put name (.table false false inner))
  | some _ => none

/-- Opens one more table of the array `name` by a header in double brackets. -/
def openNext (name : String) (entries : Entries) : Option Entries :=
  match List.lookup name entries with
  | none => some (entries.put name (.tables [[]]))
  | some (.tables items) => some (entries.put name (.tables ([] :: items)))
  | some _ => none

/-- Puts a value under a dotted key. `mayEnd` says whether the key may end in this table. -/
def insert (datum : Datum) : List String → Bool → Entries → Option Entries
  | [], _, _ => none
  | [name], mayEnd, entries =>
      if mayEnd && (List.lookup name entries).isNone then some (entries ++ [(name, .value datum)])
      else none
  | name :: path, _, entries =>
      match List.lookup name entries with
      | none => (insert datum path true []).map fun inner =>
          entries.put name (.table true true inner)
      | some (.table true isDotted inner) => (insert datum path isDotted inner).map fun inner =>
          entries.put name (.table true isDotted inner)
      | some (.tables (latest :: older)) => (insert datum path false latest).map fun latest =>
          entries.put name (.tables (latest :: older))
      | some _ => none

end Entries

end Lending.Toml
