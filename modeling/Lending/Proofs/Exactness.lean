import Lending.Proofs.Footprint

/-!
# Expressions are computed exactly

An expression has a value in the integers of any size as soon as all of its names have values
(`exactValue?`). The machine computes with words, and one operator at a time:

* **values** — what it computes is the exact value, and it computes one if every name can be read
  and every operator on the way stays in range (`eval_eq_ok_iff`). An operator out of range is not
  made good by a later one that leads back;
* **faults** — what it reports is what goes wrong first, operands from left to right before their
  operator (`eval_eq_error_iff`).
-/

namespace Lending

/-- Whether an integer lies between -2^63 and 2^63 - 1. -/
def Word.InRange (value : Int) : Prop :=
  -9223372036854775808 ≤ value ∧ value ≤ 9223372036854775807

instance (value : Int) : Decidable (Word.InRange value) :=
  inferInstanceAs (Decidable (_ ∧ _))

theorem Word.inRange_val (word : Word) : Word.InRange word.val :=
  ⟨word.lower, word.upper⟩

theorem Word.val_inj {left right : Word} : left.val = right.val ↔ left = right := by
  cases left
  cases right
  simp

theorem Word.ofInt?_eq_some_iff {value : Int} {word : Word} :
    Word.ofInt? value = some word ↔ value = word.val := by
  constructor
  · intro found
    exact (Word.val_of_ofInt? found).symm
  · rintro rfl
    exact Word.ofInt?_val word

theorem Word.ofInt?_eq_none_iff {value : Int} :
    Word.ofInt? value = none ↔ ¬ Word.InRange value := by
  constructor
  · intro missing inRange
    rw [Word.ofInt?_val ⟨value, inRange.1, inRange.2⟩] at missing
    cases missing
  · intro beyond
    cases found : Word.ofInt? value with
    | none => rfl
    | some word => exact absurd (Word.val_of_ofInt? found ▸ word.inRange_val) beyond

/-- The name as an expression. -/
def NameUse.toExpr (mention : NameUse) : Expr :=
  if mention.isDeref then .deref mention.name else .var mention.name

namespace Expr

/-- The parts of an expression, itself included, in the order in which they are computed: operands
from left to right, and an operator after its operands. -/
def postorder : Expr → List Expr
  | .int value => [.int value]
  | .var name => [.var name]
  | .deref name => [.deref name]
  | .binary op lhs rhs => lhs.postorder ++ rhs.postorder ++ [.binary op lhs rhs]

theorem toExpr_mem_postorder {expr : Expr} {mention : NameUse} :
    mention.toExpr ∈ expr.postorder ↔ mention ∈ expr.names := by
  obtain ⟨name, isDeref⟩ := mention
  induction expr with
  | int value => cases isDeref <;> simp [NameUse.toExpr, postorder, names]
  | var other => cases isDeref <;> simp [NameUse.toExpr, postorder, names]
  | deref other => cases isDeref <;> simp [NameUse.toExpr, postorder, names]
  | binary op lhs rhs left right =>
      have other : NameUse.toExpr ⟨name, isDeref⟩ ≠ .binary op lhs rhs := by
        cases isDeref <;> simp [NameUse.toExpr]
      simp only [postorder, names, List.mem_append, List.mem_singleton, left, right, other,
        or_false]

theorem names_subset_of_mem_postorder {expr part : Expr} (inside : part ∈ expr.postorder) :
    part.names ⊆ expr.names := by
  induction expr with
  | int value => exact List.mem_singleton.mp inside ▸ List.Subset.refl _
  | var name => exact List.mem_singleton.mp inside ▸ List.Subset.refl _
  | deref name => exact List.mem_singleton.mp inside ▸ List.Subset.refl _
  | binary op lhs rhs left right =>
      rcases List.mem_append.mp inside with operand | itself
      · rcases List.mem_append.mp operand with inLeft | inRight
        · exact List.subset_append_of_subset_left _ (left inLeft)
        · exact List.subset_append_of_subset_right _ (right inRight)
      · exact List.mem_singleton.mp itself ▸ List.Subset.refl _

end Expr

namespace Evaluation.Machine

variable {machine : Machine} {expr part : Expr} {fault : Fault}

/-! ## What there is to compute -/

/-- The value under a name. -/
def read (machine : Machine) (mention : NameUse) : Except Fault Word :=
  machine.reach mention >>= machine.load

/-- **The exact value of an expression,** which no range bounds. There is one if every name can be
read. -/
def exactValue? (machine : Machine) : Expr → Option Int
  | .int value => some value.val
  | .var name => (machine.read ⟨name, false⟩).toOption.map Word.val
  | .deref name => (machine.read ⟨name, true⟩).toOption.map Word.val
  | .binary op lhs rhs => do
      let left ← machine.exactValue? lhs
      let right ← machine.exactValue? rhs
      return op.apply left right

/-- Why a name cannot be read. -/
def readFault? (machine : Machine) (mention : NameUse) : Option Fault :=
  match machine.read mention with
  | .error fault => some fault
  | .ok _ => none

/-- What is wrong with an expression itself, its operands apart: a name cannot be read, or the exact
value of an operator is out of range. -/
def ownFault? (machine : Machine) : Expr → Option Fault
  | .int _ => none
  | .var name => machine.readFault? ⟨name, false⟩
  | .deref name => machine.readFault? ⟨name, true⟩
  | .binary op lhs rhs =>
      (machine.exactValue? (.binary op lhs rhs)).bind fun value =>
        if Word.InRange value then none else some .overflow

/-- The part of an expression with which something is wrong first. -/
def firstFailing? (machine : Machine) (expr : Expr) : Option Expr :=
  expr.postorder.find? fun part => (machine.ownFault? part).isSome

theorem readFault?_eq_some_iff {mention : NameUse} :
    machine.readFault? mention = some fault ↔ machine.read mention = .error fault := by
  unfold readFault?
  cases machine.read mention <;> simp

theorem readFault?_eq_none_iff {mention : NameUse} :
    machine.readFault? mention = none ↔ ∃ word, machine.read mention = .ok word := by
  unfold readFault?
  cases machine.read mention <;> simp

theorem eval_toExpr (mention : NameUse) : machine.eval mention.toExpr = machine.read mention := by
  obtain ⟨name, isDeref⟩ := mention
  cases isDeref with
  | false => exact eval_var name
  | true => exact eval_deref name

theorem exactValue?_toExpr (mention : NameUse) :
    machine.exactValue? mention.toExpr = (machine.read mention).toOption.map Word.val := by
  obtain ⟨name, isDeref⟩ := mention
  cases isDeref <;> rfl

theorem ownFault?_toExpr (mention : NameUse) :
    machine.ownFault? mention.toExpr = machine.readFault? mention := by
  obtain ⟨name, isDeref⟩ := mention
  cases isDeref <;> rfl

/-- Reading a name involves no arithmetic. -/
theorem read_ne_overflow (mention : NameUse) : machine.read mention ≠ .error .overflow := by
  intro failed
  rcases bind_eq_error_iff.mp failed with lost | ⟨slot, -, empty⟩
  · unfold reach at lost
    split at lost
    · unfold derefSlot at lost
      split at lost
      · rename_i fault missing
        rw [referenceId_error missing] at lost
        cases lost
      · split at lost
        · cases lost
        · split at lost <;> cases lost
    · cases bindingSlot_error lost
  · obtain ⟨_, impossible⟩ := load_error empty
    cases impossible

theorem exactValue?_binary_eq_some_iff {op : BinOp} {lhs rhs : Expr} {value : Int} :
    machine.exactValue? (.binary op lhs rhs) = some value ↔
      ∃ left right, machine.exactValue? lhs = some left ∧ machine.exactValue? rhs = some right ∧
        op.apply left right = value := by
  rw [exactValue?]
  cases machine.exactValue? lhs <;> cases machine.exactValue? rhs <;> simp

theorem ownFault?_binary_eq_some_iff {op : BinOp} {lhs rhs : Expr} :
    machine.ownFault? (.binary op lhs rhs) = some fault ↔
      fault = .overflow ∧
        ∃ value, machine.exactValue? (.binary op lhs rhs) = some value ∧ ¬ Word.InRange value := by
  rw [ownFault?, Option.bind_eq_some_iff]
  constructor
  · rintro ⟨value, computed, reported⟩
    split at reported
    · cases reported
    · rename_i beyond
      exact ⟨(Option.some.inj reported).symm, value, computed, beyond⟩
  · rintro ⟨rfl, value, computed, beyond⟩
    exact ⟨value, computed, if_neg beyond⟩

theorem firstFailing?_binary (op : BinOp) (lhs rhs : Expr) :
    machine.firstFailing? (.binary op lhs rhs) =
      ((machine.firstFailing? lhs).or (machine.firstFailing? rhs)).or
        (if (machine.ownFault? (.binary op lhs rhs)).isSome then some (.binary op lhs rhs)
        else none) := by
  simp only [firstFailing?, Expr.postorder, List.find?_append, List.find?_singleton]

theorem firstFailing?_toExpr (mention : NameUse) :
    machine.firstFailing? mention.toExpr =
      if (machine.readFault? mention).isSome then some mention.toExpr else none := by
  obtain ⟨name, isDeref⟩ := mention
  cases isDeref <;> exact List.find?_singleton

theorem arithmetic_eq_ok_iff {op : BinOp} {lhs rhs value : Word} :
    arithmetic op lhs rhs = .ok value ↔ op.apply lhs.val rhs.val = value.val := by
  rw [← Word.ofInt?_eq_some_iff, arithmetic]
  cases Word.ofInt? (op.apply lhs.val rhs.val) <;> simp

theorem arithmetic_eq_error_iff {op : BinOp} {lhs rhs : Word} :
    arithmetic op lhs rhs = .error fault ↔
      fault = .overflow ∧ ¬ Word.InRange (op.apply lhs.val rhs.val) := by
  rw [← Word.ofInt?_eq_none_iff, arithmetic]
  cases Word.ofInt? (op.apply lhs.val rhs.val) <;> simp [eq_comm]

/-! ## What the machine computes -/

/-- Where the machine computes a value, nothing is wrong and the value is exact. -/
theorem exactValue?_of_eval_ok {value : Word} (computed : machine.eval expr = .ok value) :
    machine.firstFailing? expr = none ∧ machine.exactValue? expr = some value.val := by
  have name (mention : NameUse) {word : Word} (read : machine.eval mention.toExpr = .ok word) :
      machine.firstFailing? mention.toExpr = none ∧
        machine.exactValue? mention.toExpr = some word.val := by
    rw [eval_toExpr] at read
    rw [firstFailing?_toExpr, exactValue?_toExpr, readFault?_eq_none_iff.mpr ⟨word, read⟩, read]
    exact ⟨rfl, rfl⟩
  induction expr generalizing value with
  | int word =>
      obtain rfl : word = value := Except.ok.inj computed
      exact ⟨rfl, rfl⟩
  | var other => exact name ⟨other, false⟩ computed
  | deref other => exact name ⟨other, true⟩ computed
  | binary op lhs rhs left right =>
      rw [eval_binary] at computed
      obtain ⟨first, computedLeft, rest⟩ := bind_eq_ok_iff.mp computed
      obtain ⟨second, computedRight, applied⟩ := bind_eq_ok_iff.mp rest
      obtain ⟨fineLeft, exactLeft⟩ := left computedLeft
      obtain ⟨fineRight, exactRight⟩ := right computedRight
      have computes : machine.exactValue? (.binary op lhs rhs) = some value.val :=
        exactValue?_binary_eq_some_iff.mpr
          ⟨first.val, second.val, exactLeft, exactRight, arithmetic_eq_ok_iff.mp applied⟩
      have fine : machine.ownFault? (.binary op lhs rhs) = none := by
        rw [ownFault?, computes, Option.bind_some, if_pos value.inRange_val]
      rw [firstFailing?_binary, fineLeft, fineRight, fine]
      exact ⟨rfl, computes⟩

/-- Where the machine computes none, it reports what is wrong first. -/
theorem firstFailing?_of_eval_error (failed : machine.eval expr = .error fault) :
    ∃ part, machine.firstFailing? expr = some part ∧ machine.ownFault? part = some fault := by
  have name (mention : NameUse) (missed : machine.eval mention.toExpr = .error fault) :
      ∃ part, machine.firstFailing? mention.toExpr = some part ∧
        machine.ownFault? part = some fault := by
    rw [eval_toExpr] at missed
    have own := readFault?_eq_some_iff.mpr missed
    refine ⟨mention.toExpr, ?_, by rw [ownFault?_toExpr, own]⟩
    rw [firstFailing?_toExpr, own]
    rfl
  induction expr with
  | int word => cases failed
  | var other => exact name ⟨other, false⟩ failed
  | deref other => exact name ⟨other, true⟩ failed
  | binary op lhs rhs left right =>
      rw [eval_binary] at failed
      rcases bind_eq_error_iff.mp failed with failedLeft | ⟨first, computedLeft, rest⟩
      · obtain ⟨part, first, own⟩ := left failedLeft
        refine ⟨part, ?_, own⟩
        rw [firstFailing?_binary, first]
        rfl
      · obtain ⟨fineLeft, exactLeft⟩ := exactValue?_of_eval_ok computedLeft
        rcases bind_eq_error_iff.mp rest with failedRight | ⟨second, computedRight, applied⟩
        · obtain ⟨part, first, own⟩ := right failedRight
          refine ⟨part, ?_, own⟩
          rw [firstFailing?_binary, fineLeft, first]
          rfl
        · obtain ⟨fineRight, exactRight⟩ := exactValue?_of_eval_ok computedRight
          obtain ⟨overflows, beyond⟩ := arithmetic_eq_error_iff.mp applied
          have own : machine.ownFault? (.binary op lhs rhs) = some fault :=
            ownFault?_binary_eq_some_iff.mpr ⟨overflows, _, exactValue?_binary_eq_some_iff.mpr
              ⟨first.val, second.val, exactLeft, exactRight, rfl⟩, beyond⟩
          refine ⟨_, ?_, own⟩
          rw [firstFailing?_binary, fineLeft, fineRight, own]
          rfl

/-- **Faults.** The machine reports what is wrong with the first part with which anything is. -/
theorem eval_eq_error_iff :
    machine.eval expr = .error fault ↔
      ∃ part, machine.firstFailing? expr = some part ∧ machine.ownFault? part = some fault := by
  refine ⟨firstFailing?_of_eval_error, ?_⟩
  rintro ⟨part, first, own⟩
  cases result : machine.eval expr with
  | ok value =>
      rw [(exactValue?_of_eval_ok result).1] at first
      cases first
  | error other =>
      obtain ⟨part', first', own'⟩ := firstFailing?_of_eval_error result
      obtain rfl := Option.some.inj (first.symm.trans first')
      rw [Option.some.inj (own.symm.trans own')]

theorem exists_eval_ok (fine : machine.firstFailing? expr = none) :
    ∃ value, machine.eval expr = .ok value := by
  cases result : machine.eval expr with
  | ok value => exact ⟨value, rfl⟩
  | error fault =>
      obtain ⟨part, first, -⟩ := firstFailing?_of_eval_error result
      rw [fine] at first
      cases first

/-- Where all names can be read, there is an exact value. -/
theorem exists_exactValue?
    (readable : ∀ mention ∈ expr.names, ∃ word, machine.read mention = .ok word) :
    ∃ value, machine.exactValue? expr = some value := by
  have name (mention : NameUse) (read : ∃ word, machine.read mention = .ok word) :
      ∃ value, machine.exactValue? mention.toExpr = some value := by
    obtain ⟨word, found⟩ := read
    refine ⟨word.val, ?_⟩
    rw [exactValue?_toExpr, found]
    rfl
  induction expr with
  | int word => exact ⟨word.val, rfl⟩
  | var other => exact name ⟨other, false⟩ (readable _ List.mem_cons_self)
  | deref other => exact name ⟨other, true⟩ (readable _ List.mem_cons_self)
  | binary op lhs rhs left right =>
      obtain ⟨first, exactLeft⟩ := left fun mention used =>
        readable mention (List.mem_append_left _ used)
      obtain ⟨second, exactRight⟩ := right fun mention used =>
        readable mention (List.mem_append_right _ used)
      exact ⟨op.apply first second,
        exactValue?_binary_eq_some_iff.mpr ⟨first, second, exactLeft, exactRight, rfl⟩⟩

/-- Nothing is wrong with an expression if its names can be read and its operators stay in range. -/
theorem firstFailing?_eq_none_iff :
    machine.firstFailing? expr = none ↔
      (∀ mention ∈ expr.names, ∃ word, machine.read mention = .ok word) ∧
      ∀ op lhs rhs, .binary op lhs rhs ∈ expr.postorder →
        ∃ value, machine.exactValue? (.binary op lhs rhs) = some value ∧ Word.InRange value := by
  simp only [firstFailing?, List.find?_eq_none, Option.not_isSome_iff_eq_none]
  constructor
  · intro fine
    have readable : ∀ mention ∈ expr.names, ∃ word, machine.read mention = .ok word := by
      intro mention used
      have own := fine _ (Expr.toExpr_mem_postorder.mpr used)
      rw [ownFault?_toExpr] at own
      exact readFault?_eq_none_iff.mp own
    refine ⟨readable, ?_⟩
    intro op lhs rhs inside
    obtain ⟨value, computes⟩ := exists_exactValue? fun mention used =>
      readable mention (Expr.names_subset_of_mem_postorder inside used)
    refine ⟨value, computes, ?_⟩
    by_contra beyond
    have own := ownFault?_binary_eq_some_iff.mpr ⟨rfl, value, computes, beyond⟩
    rw [fine _ inside] at own
    cases own
  · rintro ⟨readable, bounded⟩ part inside
    have name (mention : NameUse) (there : mention.toExpr ∈ expr.postorder) :
        machine.readFault? mention = none :=
      readFault?_eq_none_iff.mpr (readable mention (Expr.toExpr_mem_postorder.mp there))
    cases part with
    | int value => rfl
    | var other => exact name ⟨other, false⟩ inside
    | deref other => exact name ⟨other, true⟩ inside
    | binary op lhs rhs =>
        obtain ⟨value, computes, inRange⟩ := bounded op lhs rhs inside
        rw [ownFault?, computes, Option.bind_some, if_pos inRange]

/-- **Values.** The machine computes a value if nothing is wrong, and it is the exact one. -/
theorem eval_eq_ok_iff {value : Word} :
    machine.eval expr = .ok value ↔
      machine.firstFailing? expr = none ∧ machine.exactValue? expr = some value.val := by
  refine ⟨exactValue?_of_eval_ok, ?_⟩
  rintro ⟨fine, computes⟩
  obtain ⟨other, computed⟩ := exists_eval_ok fine
  have same := (exactValue?_of_eval_ok computed).2
  rw [computes, Option.some.injEq, Word.val_inj] at same
  rw [computed, same]

/-! ## Where it goes wrong -/

/-- **Operands come first.** If an operator is the first part with which something is wrong, then its
operands have values. -/
theorem eval_operands_of_firstFailing? {op : BinOp} {lhs rhs : Expr}
    (first : machine.firstFailing? expr = some (.binary op lhs rhs)) :
    (∃ left, machine.eval lhs = .ok left) ∧ ∃ right, machine.eval rhs = .ok right := by
  induction expr with
  | int value => cases List.mem_singleton.mp (List.mem_of_find?_eq_some first)
  | var other => cases List.mem_singleton.mp (List.mem_of_find?_eq_some first)
  | deref other => cases List.mem_singleton.mp (List.mem_of_find?_eq_some first)
  | binary op' lhs' rhs' left right =>
      rw [firstFailing?_binary] at first
      rcases Option.or_eq_some_iff.mp first with operand | ⟨fine, itself⟩
      · rcases Option.or_eq_some_iff.mp operand with inLeft | ⟨-, inRight⟩
        · exact left inLeft
        · exact right inRight
      · obtain ⟨fineLeft, fineRight⟩ := Option.or_eq_none_iff.mp fine
        split at itself
        · obtain ⟨rfl, rfl, rfl⟩ := Expr.binary.inj (Option.some.inj itself)
          exact ⟨exists_eval_ok fineLeft, exists_eval_ok fineRight⟩
        · cases itself

/-- An overflow is the fault of an operator, and the only one that an operator has. -/
theorem overflow_iff_binary (first : machine.firstFailing? expr = some part)
    (own : machine.ownFault? part = some fault) :
    fault = .overflow ↔ ∃ op lhs rhs left right,
      part = .binary op lhs rhs ∧ machine.eval lhs = .ok left ∧ machine.eval rhs = .ok right := by
  have name (mention : NameUse) (missed : machine.readFault? mention = some .overflow) : False :=
    read_ne_overflow mention (readFault?_eq_some_iff.mp missed)
  constructor
  · rintro rfl
    cases part with
    | int value => cases own
    | var other => exact (name _ own).elim
    | deref other => exact (name _ own).elim
    | binary op lhs rhs =>
        obtain ⟨⟨left, computedLeft⟩, right, computedRight⟩ := eval_operands_of_firstFailing? first
        exact ⟨op, lhs, rhs, left, right, rfl, computedLeft, computedRight⟩
  · rintro ⟨op, lhs, rhs, left, right, rfl, -, -⟩
    exact (ownFault?_binary_eq_some_iff.mp own).1

/-- A statement whose expression cannot be computed reports it under its own index. -/
theorem runFrom_of_eval_error {action : Action} (valued : action.value = some expr)
    (failed : machine.eval expr = .error fault) (index : Nat) (rest : List Action) :
    runFrom machine index (action :: rest) = .error { index, fault } := by
  have stepped : machine.step action = .error fault := by
    cases action with
    | declareBinding name isMutable tag init =>
        obtain rfl : init = some expr := valued
        simp only [step, failed]
        rfl
    | assignBinding name value =>
        obtain rfl := Option.some.inj valued
        simp only [step, failed]
        rfl
    | assignThrough reference value =>
        obtain rfl := Option.some.inj valued
        simp only [step, failed]
        rfl
    | _ => cases valued
  rw [runFrom, stepped]

/-- **Expressions are computed exactly.** In every state of the machine an expression has the value
`value` if and only if every name in it can be read, the exact value of every operator in it is in
range, and its own exact value is `value`. Otherwise the fault is that of the first part, operands
from left to right before their operator, with which something is wrong. It is an overflow if and
only if this part is an operator and its operands have values. A statement with the expression
reports the fault under its index. -/
theorem eval_exact (machine : Machine) (expr : Expr) :
    (∀ value, machine.eval expr = .ok value ↔
      (∀ mention ∈ expr.names, ∃ word, machine.read mention = .ok word) ∧
      (∀ op lhs rhs, .binary op lhs rhs ∈ expr.postorder →
        ∃ whole, machine.exactValue? (.binary op lhs rhs) = some whole ∧ Word.InRange whole) ∧
      machine.exactValue? expr = some value.val) ∧
    ∀ fault, (machine.eval expr = .error fault ↔
        ∃ part, machine.firstFailing? expr = some part ∧ machine.ownFault? part = some fault) ∧
      (∀ part, machine.firstFailing? expr = some part → machine.ownFault? part = some fault →
        (fault = .overflow ↔ ∃ op lhs rhs left right, part = .binary op lhs rhs ∧
          machine.eval lhs = .ok left ∧ machine.eval rhs = .ok right)) ∧
      ∀ index action rest, action.value = some expr → machine.eval expr = .error fault →
        runFrom machine index (action :: rest) = .error { index, fault } := by
  refine ⟨?_, ?_⟩
  · intro value
    rw [eval_eq_ok_iff, firstFailing?_eq_none_iff, and_assoc]
  · intro fault
    refine ⟨eval_eq_error_iff, ?_, ?_⟩
    · intro part first own
      exact overflow_iff_binary first own
    · intro index action rest valued failed
      exact runFrom_of_eval_error valued failed index rest

/-- A machine in which `a` has the largest value that there is, and nothing else is declared. -/
def brimful : Machine :=
  ({} : Machine).declareBinding "a" (some ⟨9223372036854775807, by decide, by decide⟩)

/-- `a + a - a`: the sum is out of range, and the whole is not. -/
def detour : Expr :=
  .binary .sub (.binary .add (.var "a") (.var "a")) (.var "a")

/-- In `(a + a - a) * b` the sum overflows before the missing `b` is met, although `a + a - a` would
be in range again. In `a - a` nothing is wrong. -/
theorem eval_exact_brimful :
    brimful.exactValue? detour = some 9223372036854775807 ∧
    brimful.firstFailing? (.binary .mul detour (.var "b")) =
      some (.binary .add (.var "a") (.var "a")) ∧
    brimful.eval (.binary .mul detour (.var "b")) = .error .overflow ∧
    runFrom brimful 3 [.assignBinding "a" (.binary .mul detour (.var "b"))] =
      .error { index := 3, fault := .overflow } ∧
    brimful.eval (.binary .sub (.var "a") (.var "a")) = .ok default := by
  have first : brimful.firstFailing? (.binary .mul detour (.var "b")) =
      some (.binary .add (.var "a") (.var "a")) := by decide
  have own : brimful.ownFault? (.binary .add (.var "a") (.var "a")) = some .overflow := by decide
  obtain ⟨-, faults⟩ := eval_exact brimful (.binary .mul detour (.var "b"))
  obtain ⟨failed_iff, -, reported⟩ := faults .overflow
  have failed := failed_iff.mpr ⟨_, first, own⟩
  obtain ⟨values, -⟩ := eval_exact brimful (.binary .sub (.var "a") (.var "a"))
  refine ⟨by decide, first, failed, reported 3 _ [] rfl failed, (values default).mpr ?_⟩
  refine ⟨?_, ?_, by decide⟩
  · intro mention used
    obtain rfl : mention = ⟨"a", false⟩ := by simpa [Expr.names] using used
    exact ⟨_, rfl⟩
  · intro op lhs rhs inside
    obtain ⟨rfl, rfl, rfl⟩ : op = .sub ∧ lhs = .var "a" ∧ rhs = .var "a" := by
      simpa [Expr.postorder] using inside
    exact ⟨0, by decide, by decide⟩

end Evaluation.Machine

end Lending
