import Lending.Proofs.Exactness

/-!
# Symbols and grouping

An expression is written with symbols, which are its operators and operands from left to right. What
they leave open is how the expression is grouped:

* **grouping** — symbols and grouping make up the expression (`eq_of_grouping`), and so do the
  symbols alone if it is grouped by the usual rules (`eq_of_isConventional`);
* **faults** — however symbols are grouped, names are read from left to right, and the first that
  cannot be read is reported (`findSome?_of_eval_error`);
* **values** — these depend on the grouping, those of sums and of products apart
  (`exactValue?_of_uniform`).
-/

namespace Lending

/-- **A symbol** of an expression: an operator, or an operand that is no expression of operators. -/
inductive Symbol where
  | operator (op : BinOp)
  | int (value : Word)
  | name (mention : NameUse)
deriving DecidableEq, Repr

/-- The name that the symbol mentions. -/
def Symbol.mention? : Symbol → Option NameUse
  | .name mention => some mention
  | _ => none

namespace Expr

/-- **What an expression is written with,** from left to right. -/
def symbols : Expr → List Symbol
  | .int value => [.int value]
  | .var name => [.name ⟨name, false⟩]
  | .deref name => [.name ⟨name, true⟩]
  | .binary op lhs rhs => lhs.symbols ++ .operator op :: rhs.symbols

theorem symbols_ne_nil (expr : Expr) : expr.symbols ≠ [] := by
  cases expr <;> simp [symbols]

theorem names_eq_filterMap (expr : Expr) :
    expr.names = expr.symbols.filterMap Symbol.mention? := by
  induction expr with
  | int | var | deref => rfl
  | binary op lhs rhs left right =>
      rw [names, left, right, symbols, List.filterMap_append]
      rfl

/-! ## Grouping -/

/-- How an expression is grouped. -/
inductive Grouping where
  | operand
  | operation (lhs rhs : Grouping)
deriving DecidableEq, Repr

/-- The grouping of an expression, without its operators and operands. -/
def grouping : Expr → Grouping
  | .int _ => .operand
  | .var _ => .operand
  | .deref _ => .operand
  | .binary _ lhs rhs => .operation lhs.grouping rhs.grouping

/-- An expression in the place of another one is as long. -/
theorem length_symbols_eq {first second : Expr} (grouped : first.grouping = second.grouping) :
    first.symbols.length = second.symbols.length := by
  induction first generalizing second with
  | int | var | deref =>
      cases second with
      | int | var | deref => rfl
      | binary => cases grouped
  | binary op lhs rhs left right =>
      cases second with
      | int | var | deref => cases grouped
      | binary op' lhs' rhs' =>
          obtain ⟨groupedLeft, groupedRight⟩ := Grouping.operation.inj grouped
          simp only [symbols, List.length_append, List.length_cons, left groupedLeft,
            right groupedRight]

/-- **Symbols and grouping make up the expression.** -/
theorem eq_of_grouping {first second : Expr} (same : first.symbols = second.symbols)
    (grouped : first.grouping = second.grouping) : first = second := by
  induction first generalizing second with
  | int | var | deref =>
      cases second with
      | int | var | deref => simp_all [symbols]
      | binary => cases grouped
  | binary op lhs rhs left right =>
      cases second with
      | int | var | deref => cases grouped
      | binary op' lhs' rhs' =>
          obtain ⟨groupedLeft, groupedRight⟩ := Grouping.operation.inj grouped
          obtain ⟨symbolsLeft, rest⟩ := List.append_inj same (length_symbols_eq groupedLeft)
          obtain ⟨operators, symbolsRight⟩ := List.cons.inj rest
          rw [Symbol.operator.inj operators, left symbolsLeft groupedLeft,
            right symbolsRight groupedRight]

/-- The last of the entries with a property divides a list in one way only. -/
theorem append_cons_inj {α : Type} {holds : α → Prop} {before before' after after' : List α}
    {entry entry' : α} (same : before ++ entry :: after = before' ++ entry' :: after')
    (here : holds entry) (here' : holds entry') (last : ∀ other ∈ after, ¬ holds other)
    (last' : ∀ other ∈ after', ¬ holds other) :
    before = before' ∧ entry = entry' ∧ after = after' := by
  rcases List.append_eq_append_iff.mp same with ⟨between, rfl, rest⟩ | ⟨between, rfl, rest⟩
  · cases between with
    | nil => exact ⟨(List.append_nil _).symm, List.cons.inj rest⟩
    | cons other between =>
        have later : entry' ∈ after := by
          rw [(List.cons.inj rest).2]
          exact List.mem_append_right _ List.mem_cons_self
        exact absurd here' (last entry' later)
  · cases between with
    | nil =>
        obtain ⟨entries, afters⟩ := List.cons.inj rest
        exact ⟨List.append_nil _, entries.symm, afters.symm⟩
    | cons other between =>
        have later : entry ∈ after' := by
          rw [(List.cons.inj rest).2]
          exact List.mem_append_right _ List.mem_cons_self
        exact absurd here (last' entry later)

/-- Whether an expression has no operator. -/
def isOperand : Expr → Bool
  | .binary .. => false
  | _ => true

/-- Whether an expression is a product of operands, grouped from the left. -/
def isProduct : Expr → Bool
  | .binary op lhs rhs => op == .mul && lhs.isProduct && rhs.isOperand
  | _ => true

/-- **Whether an expression is grouped by the usual rules:** products before sums and differences,
and otherwise from the left. -/
def isConventional : Expr → Bool
  | .binary .mul lhs rhs => lhs.isProduct && rhs.isOperand
  | .binary _ lhs rhs => lhs.isConventional && rhs.isProduct
  | _ => true

theorem isOperand_eq (expr : Expr) : expr.isOperand = decide (expr.symbols.length = 1) := by
  cases expr with
  | int | var | deref => rfl
  | binary op lhs rhs =>
      have positive := List.length_pos_iff.mpr lhs.symbols_ne_nil
      rw [eq_comm, isOperand, decide_eq_false_iff_not, symbols, List.length_append,
        List.length_cons]
      omega

theorem eq_of_isOperand {first second : Expr} (operand : first.isOperand = true)
    (same : first.symbols = second.symbols) : first = second := by
  have operand' : second.isOperand = true := by
    rw [isOperand_eq, ← same, ← isOperand_eq, operand]
  have grouped {expr : Expr} (operand : expr.isOperand = true) : expr.grouping = .operand := by
    cases expr with
    | int | var | deref => rfl
    | binary => cases operand
  exact eq_of_grouping same (by rw [grouped operand, grouped operand'])

theorem exists_binary {op : BinOp} {lhs rhs second : Expr}
    (same : (binary op lhs rhs).symbols = second.symbols) :
    ∃ op' lhs' rhs', second = .binary op' lhs' rhs' := by
  cases second with
  | binary op' lhs' rhs' => exact ⟨op', lhs', rhs', rfl⟩
  | int | var | deref => cases eq_of_isOperand rfl same.symm

theorem operator_not_mem_of_isOperand {expr : Expr} (operand : expr.isOperand = true) :
    ∀ symbol ∈ expr.symbols, ¬ ∃ op, symbol = .operator op := by
  cases expr with
  | int | var | deref => simp [symbols]
  | binary => cases operand

theorem eq_mul_of_isProduct {expr : Expr} (product : expr.isProduct = true) :
    ∀ symbol ∈ expr.symbols, ¬ ∃ op, op ≠ .mul ∧ symbol = .operator op := by
  induction expr with
  | int | var | deref => simp [symbols]
  | binary op lhs rhs left =>
      simp only [isProduct, Bool.and_eq_true, beq_iff_eq] at product
      obtain ⟨⟨rfl, product⟩, operand⟩ := product
      rintro symbol inside ⟨op, other, rfl⟩
      rcases List.mem_append.mp inside with inLeft | here
      · exact left product _ inLeft ⟨op, other, rfl⟩
      · rcases List.mem_cons.mp here with itself | inRight
        · exact other (Symbol.operator.inj itself)
        · exact operator_not_mem_of_isOperand operand _ inRight ⟨op, rfl⟩

theorem eq_of_isProduct {first second : Expr} (product : first.isProduct = true)
    (product' : second.isProduct = true) (same : first.symbols = second.symbols) :
    first = second := by
  induction first generalizing second with
  | int | var | deref => exact eq_of_isOperand rfl same
  | binary op lhs rhs left =>
      obtain ⟨op', lhs', rhs', rfl⟩ := exists_binary same
      simp only [isProduct, Bool.and_eq_true] at product product'
      obtain ⟨⟨-, product⟩, operand⟩ := product
      obtain ⟨⟨-, product'⟩, operand'⟩ := product'
      -- The last operator is the one behind which there is only an operand.
      obtain ⟨symbolsLeft, operators, symbolsRight⟩ := append_cons_inj same ⟨op, rfl⟩ ⟨op', rfl⟩
        (operator_not_mem_of_isOperand operand) (operator_not_mem_of_isOperand operand')
      rw [Symbol.operator.inj operators, left product product' symbolsLeft,
        eq_of_isOperand operand symbolsRight]

theorem isConventional_mul (lhs rhs : Expr) :
    (binary .mul lhs rhs).isConventional = (binary .mul lhs rhs).isProduct := by
  rw [isConventional, isProduct, beq_self_eq_true, Bool.true_and]

/-- A sum or difference by the usual rules: what stands behind its operator is a product. -/
theorem isConventional_binary {op : BinOp} {lhs rhs : Expr} (other : op ≠ .mul) :
    (binary op lhs rhs).isConventional = (lhs.isConventional && rhs.isProduct) := by
  cases op with
  | add | sub => rfl
  | mul => exact absurd rfl other

/-- **Symbols alone make up an expression that is grouped by the usual rules.** -/
theorem eq_of_isConventional {first second : Expr} (usual : first.isConventional = true)
    (usual' : second.isConventional = true) (same : first.symbols = second.symbols) :
    first = second := by
  induction first generalizing second with
  | int | var | deref => exact eq_of_isOperand rfl same
  | binary op lhs rhs left =>
      obtain ⟨op', lhs', rhs', rfl⟩ := exists_binary same
      have inside : .operator op ∈ (binary op lhs rhs).symbols :=
        List.mem_append_right _ List.mem_cons_self
      have inside' : .operator op' ∈ (binary op' lhs' rhs').symbols :=
        List.mem_append_right _ List.mem_cons_self
      by_cases product : op = .mul
      · obtain rfl := product
        rw [isConventional_mul] at usual
        obtain rfl : op' = .mul := by
          by_contra other
          exact eq_mul_of_isProduct usual _ (same ▸ inside') ⟨op', other, rfl⟩
        rw [isConventional_mul] at usual'
        exact eq_of_isProduct usual usual' same
      · have product' : op' ≠ .mul := by
          rintro rfl
          rw [isConventional_mul] at usual'
          exact eq_mul_of_isProduct usual' _ (same ▸ inside) ⟨op, product, rfl⟩
        rw [isConventional_binary product, Bool.and_eq_true] at usual
        rw [isConventional_binary product', Bool.and_eq_true] at usual'
        -- The last sum or difference is the one behind which there is only a product.
        obtain ⟨symbolsLeft, operators, symbolsRight⟩ := append_cons_inj same ⟨op, product, rfl⟩
          ⟨op', product', rfl⟩ (eq_mul_of_isProduct usual.2) (eq_mul_of_isProduct usual'.2)
        rw [Symbol.operator.inj operators, left usual.1 usual'.1 symbolsLeft,
          eq_of_isProduct usual.2 usual'.2 symbolsRight]

end Expr

/-! ## Values -/

/-- The number that changes nothing. -/
def BinOp.unit : BinOp → Int
  | .mul => 1
  | _ => 0

theorem BinOp.unit_apply {op : BinOp} (other : op ≠ .sub) (value : Int) :
    op.apply op.unit value = value := by
  cases op with
  | add => exact Int.zero_add value
  | sub => exact absurd rfl other
  | mul => exact Int.one_mul value

theorem BinOp.apply_unit (op : BinOp) (value : Int) : op.apply value op.unit = value := by
  cases op with
  | add => exact Int.add_zero value
  | sub => exact Int.sub_zero value
  | mul => exact Int.mul_one value

theorem BinOp.apply_assoc {op : BinOp} (other : op ≠ .sub) (first second third : Int) :
    op.apply (op.apply first second) third = op.apply first (op.apply second third) := by
  cases op with
  | add => exact Int.add_assoc ..
  | sub => exact absurd rfl other
  | mul => exact Int.mul_assoc ..

namespace Evaluation.Machine

variable {machine : Machine} {expr : Expr} {fault : Fault}

/-- The value of an operand. Operators count for nothing. -/
def symbolValue? (machine : Machine) (op : BinOp) : Symbol → Option Int
  | .operator _ => some op.unit
  | .int value => some value.val
  | .name mention => (machine.read mention).toOption.map Word.val

/-- All operands taken together with one operator. -/
def total? (machine : Machine) (op : BinOp) : List Symbol → Option Int
  | [] => some op.unit
  | symbol :: rest => do
      let value ← machine.symbolValue? op symbol
      let others ← machine.total? op rest
      return op.apply value others

theorem total?_append {op : BinOp} (other : op ≠ .sub) (first second : List Symbol) :
    machine.total? op (first ++ second) = (do
      let left ← machine.total? op first
      let right ← machine.total? op second
      return op.apply left right) := by
  induction first with
  | nil =>
      rw [List.nil_append, total?]
      cases machine.total? op second with
      | none => rfl
      | some right => exact congrArg some (BinOp.unit_apply other right).symm
  | cons symbol rest ih =>
      rw [List.cons_append, total?, total?, ih]
      cases machine.symbolValue? op symbol with
      | none => rfl
      | some value =>
          cases machine.total? op rest with
          | none => rfl
          | some left =>
              cases machine.total? op second with
              | none => rfl
              | some right => exact congrArg some (BinOp.apply_assoc other value left right).symm

/-- **Sums and products can be grouped in any way.** -/
theorem exactValue?_of_uniform {op : BinOp} (other : op ≠ .sub)
    (uniform : ∀ op', .operator op' ∈ expr.symbols → op' = op) :
    machine.exactValue? expr = machine.total? op expr.symbols := by
  have single (symbol : Symbol) : machine.total? op [symbol] = machine.symbolValue? op symbol := by
    rw [total?, total?]
    cases machine.symbolValue? op symbol with
    | none => rfl
    | some value => exact congrArg some (BinOp.apply_unit op value)
  induction expr with
  | int value => exact (single (.int value)).symm
  | var name => exact (single (.name ⟨name, false⟩)).symm
  | deref name => exact (single (.name ⟨name, true⟩)).symm
  | binary op' lhs rhs left right =>
      obtain rfl : op' = op := uniform op' (List.mem_append_right _ List.mem_cons_self)
      rw [Expr.symbols, total?_append other, ← List.singleton_append, total?_append other, single,
        ← left fun op there => uniform op (List.mem_append_left _ there),
        ← right fun op there =>
          uniform op (List.mem_append_right _ (List.mem_cons_of_mem _ there)), exactValue?]
      cases machine.exactValue? lhs with
      | none => rfl
      | some value =>
          cases machine.exactValue? rhs with
          | none => rfl
          | some value' =>
              exact congrArg (some <| op'.apply value ·) (BinOp.unit_apply other value').symm

theorem findSome?_of_eval_ok {value : Word} (computed : machine.eval expr = .ok value) :
    expr.names.findSome? machine.readFault? = none := by
  rw [List.findSome?_eq_none_iff]
  intro mention used
  exact readFault?_eq_none_iff.mpr
    ((firstFailing?_eq_none_iff.mp (eval_eq_ok_iff.mp computed).1).1 mention used)

/-- **The first name that cannot be read is reported,** unless there is an overflow before it. -/
theorem findSome?_of_eval_error (failed : machine.eval expr = .error fault)
    (other : fault ≠ .overflow) : expr.names.findSome? machine.readFault? = some fault := by
  have name (mention : NameUse) (missed : machine.eval mention.toExpr = .error fault) :
      [mention].findSome? machine.readFault? = some fault := by
    rw [eval_toExpr] at missed
    rw [List.findSome?_singleton, readFault?_eq_some_iff.mpr missed]
  induction expr with
  | int value => cases failed
  | var other => exact name ⟨other, false⟩ failed
  | deref other => exact name ⟨other, true⟩ failed
  | binary op lhs rhs left right =>
      rw [Expr.names, List.findSome?_append]
      rw [eval_binary] at failed
      rcases bind_eq_error_iff.mp failed with failedLeft | ⟨first, computedLeft, rest⟩
      · rw [left failedLeft]
        rfl
      · rw [findSome?_of_eval_ok computedLeft]
        rcases bind_eq_error_iff.mp rest with failedRight | ⟨second, -, applied⟩
        · exact right failedRight
        · exact absurd (arithmetic_eq_error_iff.mp applied).1 other

/-- **Expressions that are written with the same symbols go wrong in the same way,** overflows
apart, and sums and products have the same value. -/
theorem eval_of_symbols {first second : Expr} (same : first.symbols = second.symbols)
    (bounded : machine.eval first ≠ .error .overflow)
    (bounded' : machine.eval second ≠ .error .overflow) :
    (∃ fault, machine.eval first = .error fault ∧ machine.eval second = .error fault) ∨
    ∃ left right, machine.eval first = .ok left ∧ machine.eval second = .ok right ∧
      ∀ op, op ≠ .sub → (∀ op', .operator op' ∈ first.symbols → op' = op) → left = right := by
  have names : first.names = second.names := by
    rw [Expr.names_eq_filterMap, Expr.names_eq_filterMap, same]
  cases result : machine.eval first with
  | error fault =>
      have reported := findSome?_of_eval_error result (by rintro rfl; exact bounded result)
      cases result' : machine.eval second with
      | error fault' =>
          have reported' := findSome?_of_eval_error result' (by rintro rfl; exact bounded' result')
          rw [names, reported'] at reported
          exact .inl ⟨fault, rfl, by rw [Option.some.inj reported]⟩
      | ok right =>
          rw [names, findSome?_of_eval_ok result'] at reported
          cases reported
  | ok left =>
      cases result' : machine.eval second with
      | error fault' =>
          have reported' := findSome?_of_eval_error result' (by rintro rfl; exact bounded' result')
          rw [← names, findSome?_of_eval_ok result] at reported'
          cases reported'
      | ok right =>
          refine .inr ⟨left, right, rfl, rfl, ?_⟩
          intro op other uniform
          have value := (eval_eq_ok_iff.mp result).2
          have value' := (eval_eq_ok_iff.mp result').2
          rw [exactValue?_of_uniform other uniform, same] at value
          rw [exactValue?_of_uniform other (same ▸ uniform), value, Option.some.injEq,
            Word.val_inj] at value'
          exact value'

end Evaluation.Machine

end Lending
