import Lending.Mode

/-!
# Command-line arguments

What the program is asked to do. Options may stand before or behind the path, a value follows its
option or an equals sign, and two hyphens end the options. Nothing may be given twice.
-/

namespace Lending.CommandLine

/-- How the results of a check are printed. -/
inductive OutputFormat where
  | text
  | json
deriving DecidableEq, Repr, Inhabited

namespace OutputFormat

/-- The formats. -/
def all : List OutputFormat := [.text, .json]

/-- The format as it is written. -/
def keyword : OutputFormat → String
  | .text => "text"
  | .json => "json"

/-- The format with exactly this keyword. -/
def ofKeyword? (keyword : String) : Option OutputFormat :=
  all.find? fun format => format.keyword == keyword

end OutputFormat

/-- The options of a check. -/
structure CheckOptions where
  path : Option String := none
  format : Option OutputFormat := none
  mode : Option Mode := none
  config : Option String := none
  evaluate : Bool := false
deriving DecidableEq, Repr, Inhabited

/-- Where programs are looked for when no path is given. -/
def CheckOptions.searchPath (options : CheckOptions) : String :=
  options.path.getD "."

/-- What to do. -/
inductive Command where
  | check (options : CheckOptions)
  | run (path : String)
  | explain (kind : String)
  | version
deriving DecidableEq, Repr, Inhabited

/-! ## Words -/

/-- What a single argument is, before it is known which options there are. -/
inductive Argument where
  /-- Two hyphens: what follows are no options. -/
  | separator
  /-- An option by its long name, with the value behind an equals sign. -/
  | long (name : String) (value : Option String)
  /-- Options by their letters. -/
  | short (letters : List Char)
  | plain (text : String)
deriving DecidableEq, Repr, Inhabited

/-- Tells options from other arguments. A single hyphen is no option. -/
def Argument.ofText (text : String) : Argument :=
  match text.toList with
  | ['-', '-'] => .separator
  | '-' :: '-' :: rest =>
      let name := String.ofList (rest.takeWhile (· != '='))
      match rest.dropWhile (· != '=') with
      | _ :: value => .long name (some (String.ofList value))
      | [] => .long name none
  | '-' :: letter :: rest => .short (letter :: rest)
  | _ => .plain text

/-- Whether only the letter of the switch for logging stands in a group, once. -/
def isVerboseLetters (letters : List Char) : Bool :=
  letters == ['v']

/-- Takes the value of an option: the one behind the equals sign, or else the next argument, which
may not look like an option. -/
def takeValue : Option String → List String → Option (String × List String)
  | some value, rest => some (value, rest)
  | none, [] => none
  | none, next :: rest =>
      match Argument.ofText next with
      | .plain value => some (value, rest)
      | _ => none

theorem length_le_of_takeValue {attached : Option String} {rest after : List String}
    {value : String} (taken : takeValue attached rest = some (value, after)) :
    after.length ≤ rest.length := by
  unfold takeValue at taken
  split at taken
  · simp_all
  · contradiction
  · split at taken
    · simp only [Option.some.injEq, Prod.mk.injEq] at taken
      simp [← taken.2]
    · contradiction

/-! ## Commands -/

/-- Sets a value that may be given once. -/
def once {α : Type} (given : Option α) (value : Option α) : Option (Option α) :=
  match given, value with
  | none, some value => some (some value)
  | _, _ => none

/-- A path, which may not be empty. -/
def path? (text : String) : Option String :=
  if text = "" then none else some text

/-- Sets the path of a check. -/
def CheckOptions.withPath (options : CheckOptions) (text : String) : Option CheckOptions :=
  (once options.path (path? text)).map fun path => { options with path }

/-- Sets the option with the given long name to a value. -/
def CheckOptions.withOption (options : CheckOptions) (name value : String) : Option CheckOptions :=
  if name = "format" then
    (once options.format (OutputFormat.ofKeyword? value)).map fun format => { options with format }
  else if name = "mode" then
    (once options.mode (Mode.parse value).toOption).map fun mode => { options with mode }
  else if name = "config" then
    (once options.config (path? value)).map fun config => { options with config }
  else none

/-- The options of a check from the arguments behind its name. -/
def checkOptions? (options : CheckOptions) (isVerbose isOpen : Bool) (arguments : List String) :
    Option CheckOptions :=
  match arguments with
  | [] => some options
  | argument :: rest =>
      match if isOpen then Argument.ofText argument else .plain argument with
      | .separator => checkOptions? options isVerbose false rest
      | .plain text =>
          match options.withPath text with
          | some options => checkOptions? options isVerbose isOpen rest
          | none => none
      | .short letters =>
          if isVerboseLetters letters && !isVerbose then checkOptions? options true isOpen rest
          else none
      | .long name attached =>
          if name = "verbose" then
            if attached.isNone && !isVerbose then checkOptions? options true isOpen rest else none
          else if name = "eval" then
            if attached.isNone && !options.evaluate then
              checkOptions? { options with evaluate := true } isVerbose isOpen rest
            else none
          else match _taken : takeValue attached rest with
            | none => none
            | some (value, after) =>
                match options.withOption name value with
                | some options => checkOptions? options isVerbose isOpen after
                | none => none
termination_by arguments.length
decreasing_by
  all_goals simp only [List.length_cons]
  all_goals try omega
  have := length_le_of_takeValue _taken
  omega

/-- The one plain argument of a command without options of its own. -/
def soleArgument? (given : Option String) (isVerbose isOpen : Bool) : List String → Option String
  | [] => given
  | argument :: rest =>
      match if isOpen then Argument.ofText argument else .plain argument with
      | .separator => soleArgument? given isVerbose false rest
      | .plain text =>
          if given.isNone then soleArgument? (some text) isVerbose isOpen rest else none
      | .short letters =>
          if isVerboseLetters letters && !isVerbose then soleArgument? given true isOpen rest
          else none
      | .long name attached =>
          if name = "verbose" ∧ attached = none ∧ isVerbose = false then
            soleArgument? given true isOpen rest
          else none

/-- The command with the given name and arguments. -/
def command? (name : String) (arguments : List String) : Option Command :=
  if name = "check" then (checkOptions? {} false true arguments).map .check
  else if name = "run" then ((soleArgument? none false true arguments).bind path?).map .run
  else if name = "explain" then (soleArgument? none false true arguments).map .explain
  else none

/-- Reads a group of letters before the command: what is known of logging after it, or the request
for the version. -/
def leadingLetters : Bool → List Char → Option (Bool ⊕ Unit)
  | isVerbose, [] => some (.inl isVerbose)
  | isVerbose, letter :: rest =>
      if letter = 'V' then some (.inr ())
      else if letter = 'v' ∧ isVerbose = false then leadingLetters true rest
      else none

/-- The command that the arguments ask for, if they make sense. -/
def parse? (isVerbose : Bool) : List String → Option Command
  | [] => none
  | argument :: rest =>
      match Argument.ofText argument with
      | .plain name => command? name rest
      | .short letters =>
          match leadingLetters isVerbose letters with
          | some (.inl isVerbose) => parse? isVerbose rest
          | some (.inr _) => some .version
          | none => none
      | .long name none =>
          if name = "version" then some .version
          else if name = "verbose" ∧ isVerbose = false then parse? true rest
          else none
      | .long _ (some _) => none
      | .separator => none

end Lending.CommandLine
