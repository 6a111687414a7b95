import Lending.Program.Basic
import Lending.Scopes

/-!
# Evaluation

Runs a program on words. Each binding has a slot of its own, each reference the number of the slot
that it points to. A slot dies when its scope is left; reading or writing a dead slot through a
reference is a fault. Loans play no part here.
-/

namespace Lending

/-- Why a statement cannot be carried out. -/
inductive Fault where
  /-- The name is not visible, or is not the sort of entity that is needed. -/
  | unknownName (name : String)
  /-- The binding has no value yet. -/
  | uninitializedRead (name : String)
  /-- The result is no word. -/
  | overflow
  /-- The reference points to a slot that is dead. -/
  | danglingReference (name : String)
deriving DecidableEq, Repr, Inhabited

namespace Fault

/-- The fault in words, without its place. -/
def message : Fault → String
  | .unknownName name => s!"cannot resolve `{name}`"
  | .uninitializedRead name => s!"`{name}` is read before it is assigned"
  | .overflow => "arithmetic overflow"
  | .danglingReference name => s!"`{name}` refers to a destroyed binding"

/-- The name that the fault is about. -/
def name? : Fault → Option String
  | .unknownName name => some name
  | .uninitializedRead name => some name
  | .overflow => none
  | .danglingReference name => some name

end Fault

/-- A fault and the index of the statement that has it. -/
structure EvalError where
  index : Nat
  fault : Fault
deriving DecidableEq, Repr, Inhabited

/-- The error in words. -/
def EvalError.message (error : EvalError) : String :=
  s!"statement {error.index}: {error.fault.message}"

/-- What a read saw: the name of the binding, or the reference behind a star, and the value. -/
structure Reading where
  name : String
  value : Word
deriving DecidableEq, Repr, Inhabited

/-- A reading and the index of the statement that made it. -/
structure Observation where
  index : Nat
  name : String
  value : Word
deriving DecidableEq, Repr, Inhabited

/-- The observation in a line of text. -/
def Observation.render (observation : Observation) : String :=
  s!"[{observation.index}] {observation.name} = {observation.value.render}"

/-- The value of the last observation under a name. -/
def lastObserved (trace : List Observation) (name : String) : Option Word :=
  (trace.reverse.find? fun observation => observation.name == name).map (·.value)

namespace Evaluation

/-- The storage of one binding. -/
structure Slot where
  name : String
  value : Option Word
  isAlive : Bool
deriving DecidableEq, Repr, Inhabited

/-- What a name stands for. -/
inductive Denoted where
  | binding (slot : Nat)
  | reference (id : Nat)
deriving DecidableEq, Repr, Inhabited

/-- The state between two statements. -/
structure Machine where
  slots : Array Slot := #[]
  /-- The slot that each reference points to. -/
  targets : Array Nat := #[]
  scopes : Scopes Denoted := .root
deriving DecidableEq, Repr, Inhabited

namespace Machine

/-! ## Names and values -/

/-- The slot of the binding that a name stands for. -/
def bindingSlot (machine : Machine) (name : String) : Except Fault Nat :=
  match machine.scopes.lookup name with
  | some (.binding slot) => .ok slot
  | _ => .error (.unknownName name)

/-- The reference that a name stands for. -/
def referenceId (machine : Machine) (name : String) : Except Fault Nat :=
  match machine.scopes.lookup name with
  | some (.reference id) => .ok id
  | _ => .error (.unknownName name)

/-- The slot that a reference points to, if it is alive. -/
def derefSlot (machine : Machine) (name : String) : Except Fault Nat :=
  match machine.referenceId name with
  | .error fault => .error fault
  | .ok id =>
      match machine.targets[id]? with
      | none => .error (.unknownName name)
      | some slot =>
          if (machine.slots[slot]?.map (·.isAlive)).getD false then .ok slot
          else .error (.danglingReference name)

/-- The value in a slot. -/
def load (machine : Machine) (slot : Nat) : Except Fault Word :=
  match machine.slots[slot]? with
  | none => .error (.uninitializedRead "")
  | some found =>
      match found.value with
      | some value => .ok value
      | none => .error (.uninitializedRead found.name)

/-- The result of an operator, if it is a word. -/
def arithmetic (op : BinOp) (lhs rhs : Word) : Except Fault Word :=
  match Word.ofInt? (op.apply lhs.val rhs.val) with
  | some value => .ok value
  | none => .error .overflow

/-- The value of an expression; operands are evaluated from left to right. -/
def eval (machine : Machine) : Expr → Except Fault Word
  | .int value => .ok value
  | .var name =>
      match machine.bindingSlot name with
      | .ok slot => machine.load slot
      | .error fault => .error fault
  | .deref name =>
      match machine.derefSlot name with
      | .ok slot => machine.load slot
      | .error fault => .error fault
  | .binary op lhs rhs =>
      match machine.eval lhs with
      | .error fault => .error fault
      | .ok left =>
          match machine.eval rhs with
          | .error fault => .error fault
          | .ok right => arithmetic op left right

/-! ## Statements -/

/-- Stores a value in a slot. -/
def store (machine : Machine) (slot : Nat) (value : Word) : Machine :=
  { machine with
    slots := machine.slots.modify slot fun found => { found with value := some value } }

/-- Marks the slot of an entity as dead; references have none. -/
def kill (machine : Machine) : Denoted → Machine
  | .binding slot =>
      { machine with
        slots := machine.slots.modify slot fun found => { found with isAlive := false } }
  | .reference _ => machine

/-- Declares a binding in a new slot. -/
def declareBinding (machine : Machine) (name : String) (value : Option Word) : Machine :=
  { machine with
    slots := machine.slots.push { name, value, isAlive := true }
    scopes := machine.scopes.declare name (.binding machine.slots.size) }

/-- Declares a reference to a slot. -/
def declareReference (machine : Machine) (name : String) (slot : Nat) : Machine :=
  { machine with
    targets := machine.targets.push slot
    scopes := machine.scopes.declare name (.reference machine.targets.size) }

/-- Carries out one statement, and gives what it read if it is a read. -/
def step (machine : Machine) : Action → Except Fault (Machine × Option Reading)
  | .declareBinding name _ _ none => .ok (machine.declareBinding name none, none)
  | .declareBinding name _ _ (some init) => do
      let value ← machine.eval init
      return (machine.declareBinding name (some value), none)
  | .declareReference name _ _ target => do
      let slot ← machine.bindingSlot target
      return (machine.declareReference name slot, none)
  | .rebindReference name target => do
      let id ← machine.referenceId name
      let slot ← machine.bindingSlot target
      return ({ machine with targets := machine.targets.modify id fun _ => slot }, none)
  | .assignBinding name expr => do
      let value ← machine.eval expr
      let slot ← machine.bindingSlot name
      return (machine.store slot value, none)
  | .assignThrough reference expr => do
      let value ← machine.eval expr
      let slot ← machine.derefSlot reference
      return (machine.store slot value, none)
  | .readBinding name => do
      let value ← machine.eval (.var name)
      return (machine, some { name, value })
  | .readThrough (.borrow name) => do
      let value ← machine.eval (.var name)
      return (machine, some { name, value })
  | .readThrough (.deref name) => do
      let value ← machine.eval (.deref name)
      return (machine, some { name := "*" ++ name, value })
  | .enterScope => .ok ({ machine with scopes := machine.scopes.enter }, none)
  | .exitScope =>
      match machine.scopes.exit? with
      | some (entities, scopes) => .ok (entities.foldl kill { machine with scopes }, none)
      | none => .ok (machine, none)

end Machine

/-- Runs the statements from `index` on and gives what their reads saw. -/
def runFrom (machine : Machine) (index : Nat) :
    List Action → Except EvalError (List Observation)
  | [] => .ok []
  | action :: rest =>
      match machine.step action with
      | .error fault => .error { index, fault }
      | .ok (after, reading) =>
          match runFrom after (index + 1) rest with
          | .error error => .error error
          | .ok trace =>
              .ok (match reading with
                | some { name, value } => { index, name, value } :: trace
                | none => trace)

/-- The machine after the given statements, if none of them has a fault. -/
def machineAfter (machine : Machine) (actions : List Action) : Except Fault Machine :=
  actions.foldlM (fun machine action => (·.1) <$> machine.step action) machine

end Evaluation

/-- Runs a program and gives what its reads saw, or the first fault. -/
def Program.run (program : Program) : Except EvalError (List Observation) :=
  Evaluation.runFrom {} 0 program.actions

end Lending
