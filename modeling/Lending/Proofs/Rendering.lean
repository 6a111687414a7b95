import Lending.Proofs.Grouping
import Lending.Proofs.Json

/-!
# What a text says

Expressions are written without parentheses, so that their text does not say how they are grouped.
It says everything else:

* **words** — a text is made of words with a space between them (`Expr.render_eq_intercalate`), and
  can be taken apart again (`intercalate_inj`);
* **symbols** — if names are identifiers, then a word of an expression stands for one operator,
  number or name (`Symbol.word_inj`);
* **statements** — what sort of statement it is can be told from its first words
  (`Action.shapeOf_words`), and then every other word has its place (`Action.frame_eq_of_words`).
-/

namespace Lending

/-! ## Identifiers -/

/-- Whether a character is a letter, a digit or an underscore. -/
def isIdentifierChar (c : Char) : Bool :=
  c.isAlphanum || c == '_'

/-- Whether a name is made of letters, digits and underscores, of which the first is no digit. -/
def isIdentifier (name : String) : Bool :=
  name.toList.head?.any (!·.isDigit) && name.toList.all isIdentifierChar

theorem exists_first_of_isIdentifier {name : String} (identifier : isIdentifier name = true) :
    ∃ first rest, name.toList = first :: rest ∧ first.isDigit = false ∧
      isIdentifierChar first = true := by
  rw [isIdentifier, Bool.and_eq_true, List.all_eq_true] at identifier
  cases chars : name.toList with
  | nil => rw [chars] at identifier; cases identifier.1
  | cons first rest =>
      rw [chars] at identifier
      exact ⟨first, rest, rfl, by simpa using identifier.1, identifier.2 first List.mem_cons_self⟩

theorem not_mem_of_isIdentifier {name : String} (identifier : isIdentifier name = true) {c : Char}
    (other : isIdentifierChar c = false) : c ∉ name.toList := by
  intro inside
  rw [isIdentifier, Bool.and_eq_true, List.all_eq_true] at identifier
  rw [identifier.2 c inside] at other
  cases other

theorem ne_equals_of_isIdentifier {name : String} (identifier : isIdentifier name = true) :
    name ≠ "=" := by
  rintro rfl
  exact absurd identifier (by decide)

theorem ne_append_of_isIdentifier {name : String} (identifier : isIdentifier name = true)
    {sign : String} {c : Char} (there : c ∈ sign.toList) (other : isIdentifierChar c = false)
    (rest : String) : name ≠ sign ++ rest := by
  rintro rfl
  apply not_mem_of_isIdentifier identifier other
  rw [String.toList_append]
  exact List.mem_append_left _ there

/-! ## Words -/

/-- **Words without spaces are found again in their text.** -/
theorem intercalate_inj {first second : List String} (some : first ≠ []) (some' : second ≠ [])
    (whole : ∀ word ∈ first, ' ' ∉ word.toList) (whole' : ∀ word ∈ second, ' ' ∉ word.toList)
    (same : " ".intercalate first = " ".intercalate second) : first = second := by
  have split {words : List String} (some : words ≠ []) (whole : ∀ word ∈ words, ' ' ∉ word.toList) :
      (" ".intercalate words).toList.splitOn ' ' = words.map String.toList := by
    rw [String.toList_intercalate]
    refine List.splitOn_intercalate ' ' ?_ (by simpa using some)
    intro chars inside
    obtain ⟨word, there, rfl⟩ := List.mem_map.mp inside
    exact whole word there
  have parts := split some whole
  rw [same, split some' whole'] at parts
  exact (List.map_inj_right fun _ _ => String.toList_inj.mp).mp parts.symm

theorem BinOp.symbol_inj {op op' : BinOp} : op.symbol = op'.symbol ↔ op = op' := by
  cases op <;> cases op' <;> decide

namespace Symbol

/-- The symbol as it is written. -/
def word : Symbol → String
  | .operator op => op.symbol
  | .int value => value.render
  | .name mention => if mention.isDeref then "*" ++ mention.name else mention.name

/-- The name of the symbol is an identifier. -/
def Plain : Symbol → Prop
  | .name mention => isIdentifier mention.name = true
  | _ => True

/-- What a word can be. -/
inductive Shape where
  | operator
  | int
  | name (isDeref : Bool)
deriving DecidableEq

def shape : Symbol → Shape
  | .operator _ => .operator
  | .int _ => .int
  | .name mention => .name mention.isDeref

/-- The shape of a symbol, told from its word. -/
def shapeOf : List Char → Shape
  | [] => .operator
  | first :: rest =>
      if first.isDigit then .int
      else if isIdentifierChar first then .name false
      else if rest.isEmpty then .operator
      else if first = '*' then .name true
      else .int

theorem shapeOf_word {symbol : Symbol} (plain : symbol.Plain) :
    shapeOf symbol.word.toList = symbol.shape := by
  cases symbol with
  | operator op => cases op <;> decide
  | int value =>
      show shapeOf (toString value.val).toList = _
      rw [Json.toList_toString_int]
      cases digits : Nat.toDigits 10 value.val.natAbs with
      | nil => exact absurd digits Nat.toDigits_ne_nil
      | cons first rest =>
          have digit : first.isDigit = true :=
            Json.isDigit_of_mem_toDigits (digits ▸ List.mem_cons_self)
          by_cases negative : value.val < 0
          · rw [if_pos negative]
            rfl
          · rw [if_neg negative, List.nil_append, shapeOf, if_pos digit]
            rfl
  | name mention =>
      obtain ⟨name, isDeref⟩ := mention
      obtain ⟨first, rest, chars, digit, letter⟩ := exists_first_of_isIdentifier plain
      replace chars : name.toList = first :: rest := chars
      cases isDeref with
      | false =>
          show shapeOf name.toList = _
          rw [chars, shapeOf, digit, if_neg Bool.false_ne_true, if_pos letter]
          rfl
      | true =>
          show shapeOf ("*" ++ name).toList = _
          rw [String.toList_append, chars]
          rfl

theorem space_not_mem_word {symbol : Symbol} (plain : symbol.Plain) : ' ' ∉ symbol.word.toList := by
  cases symbol with
  | operator op => cases op <;> decide
  | int value =>
      show ' ' ∉ (toString value.val).toList
      rw [Json.toList_toString_int, List.mem_append]
      rintro (sign | digit)
      · split at sign <;> simp at sign
      · exact absurd (Json.isDigit_of_mem_toDigits digit) (by decide)
  | name mention =>
      have inside := not_mem_of_isIdentifier plain (show isIdentifierChar ' ' = false by decide)
      rw [word]
      split
      · simpa using inside
      · exact inside

/-- **A word stands for one symbol.** -/
theorem word_inj {first second : Symbol} (plain : first.Plain) (plain' : second.Plain)
    (same : first.word = second.word) : first = second := by
  have shapes : first.shape = second.shape := by
    rw [← shapeOf_word plain, ← shapeOf_word plain', same]
  cases first with
  | operator op =>
      cases second with
      | operator op' =>
          have symbols : op.symbol = op'.symbol := same
          rw [BinOp.symbol_inj.mp symbols]
      | int | name => cases shapes
  | int value =>
      cases second with
      | int value' =>
          have parsed := Json.number?_toString value.lower (by have := value.upper; omega)
          have parsed' := Json.number?_toString value'.lower (by have := value'.upper; omega)
          replace same : toString value.val = toString value'.val := same
          rw [same, parsed'] at parsed
          rw [Word.val_inj.mp (Datum.int.inj (Option.some.inj parsed))]
      | operator | name => cases shapes
  | name mention =>
      cases second with
      | name mention' =>
          obtain ⟨name, isDeref⟩ := mention
          obtain ⟨name', isDeref'⟩ := mention'
          obtain rfl : isDeref = isDeref' := Shape.name.inj shapes
          cases isDeref with
          | false =>
              replace same : name = name' := same
              rw [same]
          | true =>
              replace same : "*" ++ name = "*" ++ name' := same
              rw [(String.append_right_inj _).mp same]
      | operator | int => cases shapes

theorem map_word_inj {first second : List Symbol} (plain : ∀ symbol ∈ first, symbol.Plain)
    (plain' : ∀ symbol ∈ second, symbol.Plain) (same : first.map word = second.map word) :
    first = second := by
  induction first generalizing second with
  | nil => exact (List.map_eq_nil_iff.mp same.symm).symm
  | cons symbol rest ih =>
      cases second with
      | nil => cases same
      | cons symbol' rest' =>
          obtain ⟨here, plain⟩ := List.forall_mem_cons.mp plain
          obtain ⟨here', plain'⟩ := List.forall_mem_cons.mp plain'
          obtain ⟨head, tail⟩ := List.cons.inj same
          rw [word_inj here here' head, ih plain plain' tail]

end Symbol

/-! ## Expressions -/

namespace Expr

/-- Its names are identifiers. -/
def Plain (expr : Expr) : Prop :=
  ∀ mention ∈ expr.names, isIdentifier mention.name = true

theorem Plain.symbols {expr : Expr} (plain : expr.Plain) :
    ∀ symbol ∈ expr.symbols, symbol.Plain := by
  intro symbol inside
  cases symbol with
  | operator | int => trivial
  | name mention =>
      apply plain
      rw [names_eq_filterMap]
      exact List.mem_filterMap.mpr ⟨_, inside, rfl⟩

/-- The words of an expression. -/
def words (expr : Expr) : List String :=
  expr.symbols.map Symbol.word

theorem words_ne_nil (expr : Expr) : expr.words ≠ [] := by
  simpa [words] using expr.symbols_ne_nil

theorem render_eq_intercalate (expr : Expr) : expr.render = " ".intercalate expr.words := by
  induction expr with
  | int | var | deref => rfl
  | binary op lhs rhs left right =>
      have parts : (binary op lhs rhs).words = lhs.words ++ op.symbol :: rhs.words := by
        rw [words, symbols, List.map_append]
        rfl
      rw [parts, String.intercalate_append_of_ne_nil lhs.words_ne_nil (List.cons_ne_nil _ _),
        String.intercalate_cons_of_ne_nil rhs.words_ne_nil, ← left, ← right, render]
      simp only [String.append_assoc]

theorem Plain.space_not_mem {expr : Expr} (plain : expr.Plain) :
    ∀ word ∈ expr.words, ' ' ∉ word.toList := by
  intro word inside
  obtain ⟨symbol, there, rfl⟩ := List.mem_map.mp inside
  exact Symbol.space_not_mem_word (plain.symbols symbol there)

theorem symbols_eq_of_words {first second : Expr} (plain : first.Plain) (plain' : second.Plain)
    (same : first.words = second.words) : first.symbols = second.symbols :=
  Symbol.map_word_inj plain.symbols plain'.symbols same

/-- **The text of an expression says what it is written with.** -/
theorem render_eq_iff {first second : Expr} (plain : first.Plain) (plain' : second.Plain) :
    first.render = second.render ↔ first.symbols = second.symbols := by
  rw [render_eq_intercalate, render_eq_intercalate]
  constructor
  · intro same
    exact symbols_eq_of_words plain plain' (intercalate_inj first.words_ne_nil second.words_ne_nil
      plain.space_not_mem plain'.space_not_mem same)
  · intro same
    rw [words, words, same]

end Expr

/-! ## Statements -/

namespace AccessPath

theorem render_ne_equals (path : AccessPath) : path.render ≠ "=" := by
  intro same
  have heads := congrArg (·.toList.head?) same
  cases path <;> simp [render] at heads

theorem render_inj {path path' : AccessPath} (same : path.render = path'.render) :
    path = path' := by
  have heads := congrArg (·.toList.head?) same
  cases path with
  | deref name =>
      cases path' with
      | deref name' => rw [(String.append_right_inj _).mp same]
      | borrow name' => simp [render] at heads
  | borrow name =>
      cases path' with
      | deref name' => simp [render] at heads
      | borrow name' => rw [(String.append_right_inj _).mp same]

theorem ne_render_of_isIdentifier {name : String} (identifier : isIdentifier name = true)
    (path : AccessPath) : name ≠ path.render := by
  cases path <;> exact ne_append_of_isIdentifier identifier List.mem_cons_self (by decide) _

end AccessPath

namespace Action

/-- The value type that is given to a binding. -/
def tag? : Action → Option String
  | .declareBinding _ _ tag _ => some tag
  | _ => none

/-- The names of an action are identifiers, and there is no space in its value type. -/
structure Plain (action : Action) : Prop where
  declared : ∀ name ∈ action.declaredName, isIdentifier name = true
  used : ∀ mention ∈ action.uses, isIdentifier mention.name = true
  tag : ∀ tag ∈ action.tag?, ' ' ∉ tag.toList

/-- **The action without its expression,** for which 0 is put in. -/
def frame : Action → Action
  | .declareBinding name isMutable tag init =>
      .declareBinding name isMutable tag (init.map fun _ => .int default)
  | .assignBinding name _ => .assignBinding name (.int default)
  | .assignThrough reference _ => .assignThrough reference (.int default)
  | action => action

theorem eq_of_frame {first second : Action} (frames : first.frame = second.frame)
    (values : first.value = second.value) : first = second := by
  cases first <;> cases second <;> simp_all [frame, value]

/-- The words of an initial value. -/
def initWords : Option Expr → List String
  | none => []
  | some expr => "=" :: expr.words

/-- The words of a loan. -/
def borrowWords (target : String) : BorrowKind → List String
  | .shared => ["&" ++ target]
  | .exclusive => ["&mut", target]

/-- The word that marks a declaration as mutable, if there is one. -/
def mutableWords (isMutable : Bool) : List String :=
  if isMutable then ["mut"] else []

/-- The words of an action. -/
def words : Action → List String
  | .declareBinding name isMutable tag init =>
      "let" :: (mutableWords isMutable ++ (name ++ ":") :: tag :: initWords init)
  | .declareReference name kind isMutable target =>
      "let" :: (mutableWords isMutable ++ name :: "=" :: borrowWords target kind)
  | .rebindReference name target => ["rebind", name, "->", target]
  | .assignBinding name value => name :: "=" :: value.words
  | .assignThrough reference value => ("*" ++ reference) :: "=" :: value.words
  | .readBinding name => ["read", name]
  | .readThrough path => ["read", path.render]
  | .enterScope => ["\x7b"]
  | .exitScope => ["\x7d"]

theorem words_ne_nil (action : Action) : action.words ≠ [] := by
  cases action <;> exact List.cons_ne_nil _ _

theorem render_eq_intercalate (action : Action) : action.render = " ".intercalate action.words := by
  cases action with
  | declareBinding name isMutable tag init =>
      cases init <;> cases isMutable <;>
        simp [render, words, mutableMark, mutableWords, initWords, Expr.render_eq_intercalate,
          String.intercalate_cons_of_ne_nil, Expr.words_ne_nil, ← String.toList_inj]
  | declareReference name kind isMutable target =>
      cases kind <;> cases isMutable <;>
        simp [render, words, mutableMark, mutableWords, borrowWords, BorrowKind.sigil,
          ← String.toList_inj]
  | rebindReference name target => simp [render, words, ← String.toList_inj]
  | assignBinding name value =>
      simp [render, words, Expr.render_eq_intercalate, String.intercalate_cons_of_ne_nil,
        Expr.words_ne_nil, ← String.toList_inj]
  | assignThrough reference value =>
      simp [render, words, Expr.render_eq_intercalate, String.intercalate_cons_of_ne_nil,
        Expr.words_ne_nil, ← String.toList_inj]
  | readBinding name => simp [render, words]
  | readThrough path => simp [render, words]
  | enterScope => rfl
  | exitScope => rfl

/-- What an action can look like. -/
inductive Shape where
  | scope
  | assignment
  | read
  | rebind
  | binding (isMutable : Bool)
  | reference (isMutable : Bool)
deriving DecidableEq

def shape : Action → Shape
  | .declareBinding _ isMutable _ _ => .binding isMutable
  | .declareReference _ _ isMutable _ => .reference isMutable
  | .rebindReference .. => .rebind
  | .assignBinding .. => .assignment
  | .assignThrough .. => .assignment
  | .readBinding _ => .read
  | .readThrough _ => .read
  | .enterScope => .scope
  | .exitScope => .scope

/-- Whether a word is a name in front of its value type. -/
def isLabel (word : String) : Bool :=
  word.toList.contains ':'

/-- **The shape of an action, told from its first words.** A name can be a keyword, so that the
words behind it have to be looked at first. -/
def shapeOf (words : List String) : Shape :=
  if words.length = 1 then .scope
  else if words[1]? = some "=" then .assignment
  else if words[0]? = some "read" then .read
  else if words[0]? = some "rebind" then .rebind
  else if words[1]?.any isLabel then .binding false
  else if words[2]?.any isLabel then .binding true
  else if words[2]? = some "=" then .reference false
  else .reference true

theorem isLabel_of_isIdentifier {name : String} (identifier : isIdentifier name = true) :
    isLabel name = false := by
  rw [isLabel, List.contains_eq_mem, decide_eq_false_iff_not]
  exact not_mem_of_isIdentifier identifier (by decide)

theorem isLabel_append (name : String) : isLabel (name ++ ":") = true := by
  simp [isLabel]

theorem ne_equals_of_isLabel {word : String} (label : isLabel word = true) : word ≠ "=" := by
  rintro rfl
  exact absurd label (by decide)

theorem shapeOf_words {action : Action} (plain : action.Plain) :
    shapeOf action.words = action.shape := by
  have mark : isLabel "mut" = false := by decide
  have sign : isLabel "=" = false := by decide
  cases action with
  | declareBinding name isMutable tag init =>
      have label := isLabel_append name
      cases isMutable <;>
        simp [shapeOf, words, mutableWords, shape, label, ne_equals_of_isLabel label, mark]
  | declareReference name kind isMutable target =>
      have identifier := plain.declared name rfl
      have equals := ne_equals_of_isIdentifier identifier
      have label := isLabel_of_isIdentifier identifier
      cases isMutable <;> simp [shapeOf, words, mutableWords, shape, equals, label, mark, sign]
  | rebindReference name target =>
      have identifier := plain.used ⟨name, true⟩ List.mem_cons_self
      have equals := ne_equals_of_isIdentifier identifier
      simp [shapeOf, words, shape, equals]
  | assignBinding name value => simp [shapeOf, words, shape]
  | assignThrough reference value => simp [shapeOf, words, shape]
  | readBinding name =>
      have identifier := plain.used ⟨name, false⟩ List.mem_cons_self
      have equals := ne_equals_of_isIdentifier identifier
      simp [shapeOf, words, shape, equals]
  | readThrough path => simp [shapeOf, words, shape, path.render_ne_equals]
  | enterScope => rfl
  | exitScope => rfl

theorem Plain.value {action : Action} (plain : action.Plain) {value : Expr}
    (there : action.value = some value) : value.Plain := by
  intro mention used
  apply plain.used
  cases action with
  | declareBinding name isMutable tag init =>
      obtain rfl : init = some value := there
      exact used
  | assignBinding | assignThrough =>
      obtain rfl := Option.some.inj there
      exact List.mem_append_left _ used
  | _ => cases there

theorem Plain.space_not_mem {action : Action} (plain : action.Plain) :
    ∀ word ∈ action.words, ' ' ∉ word.toList := by
  have space {name : String} (identifier : isIdentifier name = true) : ' ' ∉ name.toList :=
    not_mem_of_isIdentifier identifier (by decide)
  have marks (isMutable : Bool) : ∀ word ∈ mutableWords isMutable, ' ' ∉ word.toList := by
    cases isMutable <;> simp [mutableWords]
  cases action with
  | declareBinding name isMutable tag init =>
      have label : ' ' ∉ (name ++ ":").toList := by
        simpa using space (plain.declared name rfl)
      have initial : ∀ word ∈ initWords init, ' ' ∉ word.toList := by
        cases init with
        | none => simp [initWords]
        | some value =>
            exact List.forall_mem_cons.mpr ⟨by decide, (plain.value rfl).space_not_mem⟩
      refine List.forall_mem_cons.mpr ⟨by decide, List.forall_mem_append.mpr ⟨marks _, ?_⟩⟩
      exact List.forall_mem_cons.mpr ⟨label, List.forall_mem_cons.mpr ⟨plain.tag tag rfl, initial⟩⟩
  | declareReference name kind isMutable target =>
      have identifier := plain.used ⟨target, false⟩ List.mem_cons_self
      have loan : ∀ word ∈ borrowWords target kind, ' ' ∉ word.toList := by
        cases kind with
        | shared => simpa [borrowWords] using space identifier
        | exclusive => simpa [borrowWords] using space identifier
      refine List.forall_mem_cons.mpr ⟨by decide, List.forall_mem_append.mpr ⟨marks _, ?_⟩⟩
      exact List.forall_mem_cons.mpr
        ⟨space (plain.declared name rfl), List.forall_mem_cons.mpr ⟨by decide, loan⟩⟩
  | rebindReference name target =>
      have identifier := plain.used ⟨name, true⟩ List.mem_cons_self
      have identifier' := plain.used ⟨target, false⟩ (List.mem_cons_of_mem _ List.mem_cons_self)
      simpa [words] using ⟨space identifier, space identifier'⟩
  | assignBinding name value =>
      have identifier := plain.used ⟨name, false⟩ (List.mem_append_right _ List.mem_cons_self)
      exact List.forall_mem_cons.mpr ⟨space identifier,
        List.forall_mem_cons.mpr ⟨by decide, (plain.value rfl).space_not_mem⟩⟩
  | assignThrough reference value =>
      have identifier := plain.used ⟨reference, true⟩ (List.mem_append_right _ List.mem_cons_self)
      have place : ' ' ∉ ("*" ++ reference).toList := by
        simpa using space identifier
      exact List.forall_mem_cons.mpr ⟨place,
        List.forall_mem_cons.mpr ⟨by decide, (plain.value rfl).space_not_mem⟩⟩
  | readBinding name =>
      have identifier := plain.used ⟨name, false⟩ List.mem_cons_self
      simpa [words] using space identifier
  | readThrough path =>
      cases path with
      | deref name =>
          have identifier := plain.used ⟨name, true⟩ List.mem_cons_self
          simpa [words, AccessPath.render] using space identifier
      | borrow name =>
          have identifier := plain.used ⟨name, false⟩ List.mem_cons_self
          simpa [words, AccessPath.render] using space identifier
  | enterScope => decide
  | exitScope => decide

theorem eq_of_initWords {init init' : Option Expr} (plain : ∀ value ∈ init, value.Plain)
    (plain' : ∀ value ∈ init', value.Plain) (same : initWords init = initWords init') :
    init.map (fun _ => Expr.int default) = init'.map (fun _ => Expr.int default) ∧
      init.map Expr.symbols = init'.map Expr.symbols := by
  cases init with
  | none =>
      cases init' with
      | none => exact ⟨rfl, rfl⟩
      | some value' => cases same
  | some value =>
      cases init' with
      | none => cases same
      | some value' =>
          have symbols := Expr.symbols_eq_of_words (plain value rfl) (plain' value' rfl)
            (List.cons.inj same).2
          exact ⟨rfl, congrArg some symbols⟩

theorem eq_of_borrowWords {target target' : String} {kind kind' : BorrowKind}
    (same : borrowWords target kind = borrowWords target' kind') :
    kind = kind' ∧ target = target' := by
  cases kind with
  | shared =>
      cases kind' with
      | shared => exact ⟨rfl, (String.append_right_inj _).mp (List.cons.inj same).1⟩
      | exclusive => simp [borrowWords] at same
  | exclusive =>
      cases kind' with
      | shared => simp [borrowWords] at same
      | exclusive => exact ⟨rfl, (List.cons.inj (List.cons.inj same).2).1⟩

/-- **The words of an action are those of its frame and of its expression.** -/
theorem frame_eq_of_words {first second : Action} (plain : first.Plain) (plain' : second.Plain)
    (same : first.words = second.words) :
    first.frame = second.frame ∧ first.value.map Expr.symbols = second.value.map Expr.symbols := by
  have shapes : first.shape = second.shape := by
    rw [← shapeOf_words plain, ← shapeOf_words plain', same]
  cases first with
  | declareBinding name isMutable tag init =>
      cases second with
      | declareBinding name' isMutable' tag' init' =>
          obtain rfl := Shape.binding.inj shapes
          obtain ⟨labels, rest⟩ := List.cons.inj (List.append_cancel_left (List.cons.inj same).2)
          obtain ⟨rfl, initial⟩ := List.cons.inj rest
          obtain ⟨frames, symbols⟩ := eq_of_initWords (fun _ => plain.value) (fun _ => plain'.value)
            initial
          obtain rfl := (String.append_left_inj _).mp labels
          exact ⟨congrArg (declareBinding name isMutable tag) frames, symbols⟩
      | _ => cases shapes
  | declareReference name kind isMutable target =>
      cases second with
      | declareReference name' kind' isMutable' target' =>
          obtain rfl := Shape.reference.inj shapes
          obtain ⟨rfl, rest⟩ := List.cons.inj (List.append_cancel_left (List.cons.inj same).2)
          obtain ⟨rfl, rfl⟩ := eq_of_borrowWords (List.cons.inj rest).2
          exact ⟨rfl, rfl⟩
      | _ => cases shapes
  | rebindReference name target =>
      cases second with
      | rebindReference name' target' =>
          obtain ⟨rfl, rfl⟩ : name = name' ∧ target = target' := by simpa [words] using same
          exact ⟨rfl, rfl⟩
      | _ => cases shapes
  | assignBinding name value =>
      have identifier := plain.used ⟨name, false⟩ (List.mem_append_right _ List.mem_cons_self)
      cases second with
      | assignBinding name' value' =>
          obtain ⟨rfl, rest⟩ := List.cons.inj same
          have symbols := Expr.symbols_eq_of_words (plain.value rfl) (plain'.value rfl)
            (List.cons.inj rest).2
          exact ⟨rfl, congrArg some symbols⟩
      | assignThrough reference' value' =>
          exact absurd (List.cons.inj same).1
            (ne_append_of_isIdentifier identifier List.mem_cons_self (by decide) _)
      | _ => cases shapes
  | assignThrough reference value =>
      cases second with
      | assignBinding name' value' =>
          have identifier := plain'.used ⟨name', false⟩
            (List.mem_append_right _ List.mem_cons_self)
          exact absurd (List.cons.inj same).1.symm
            (ne_append_of_isIdentifier identifier List.mem_cons_self (by decide) _)
      | assignThrough reference' value' =>
          obtain ⟨places, rest⟩ := List.cons.inj same
          obtain rfl := (String.append_right_inj _).mp places
          have symbols := Expr.symbols_eq_of_words (plain.value rfl) (plain'.value rfl)
            (List.cons.inj rest).2
          exact ⟨rfl, congrArg some symbols⟩
      | _ => cases shapes
  | readBinding name =>
      cases second with
      | readBinding name' =>
          obtain rfl := (List.cons.inj (List.cons.inj same).2).1
          exact ⟨rfl, rfl⟩
      | readThrough path' =>
          have identifier := plain.used ⟨name, false⟩ List.mem_cons_self
          exact absurd (List.cons.inj (List.cons.inj same).2).1
            (AccessPath.ne_render_of_isIdentifier identifier path')
      | _ => cases shapes
  | readThrough path =>
      cases second with
      | readBinding name' =>
          have identifier := plain'.used ⟨name', false⟩ List.mem_cons_self
          exact absurd (List.cons.inj (List.cons.inj same).2).1.symm
            (AccessPath.ne_render_of_isIdentifier identifier path)
      | readThrough path' =>
          obtain rfl := AccessPath.render_inj (List.cons.inj (List.cons.inj same).2).1
          exact ⟨rfl, rfl⟩
      | _ => cases shapes
  | enterScope =>
      cases second with
      | enterScope => exact ⟨rfl, rfl⟩
      | exitScope => exact absurd same (by decide)
      | _ => cases shapes
  | exitScope =>
      cases second with
      | enterScope => exact absurd same (by decide)
      | exitScope => exact ⟨rfl, rfl⟩
      | _ => cases shapes

theorem words_eq_of_frame {first second : Action} (frames : first.frame = second.frame)
    (symbols : first.value.map Expr.symbols = second.value.map Expr.symbols) :
    first.words = second.words := by
  have initial {init init' : Option Expr} (same : init.map Expr.symbols = init'.map Expr.symbols) :
      initWords init = initWords init' := by
    cases init <;> cases init' <;> simp_all [initWords, Expr.words]
  cases first <;> cases second <;> simp_all [frame, value, words, Expr.words]
  exact initial symbols

/-- **The text of a statement says all but how its expression is grouped.** -/
theorem render_eq_iff {first second : Action} (plain : first.Plain) (plain' : second.Plain) :
    first.render = second.render ↔
      first.frame = second.frame ∧
        first.value.map Expr.symbols = second.value.map Expr.symbols := by
  rw [render_eq_intercalate, render_eq_intercalate]
  constructor
  · intro same
    exact frame_eq_of_words plain plain' (intercalate_inj first.words_ne_nil second.words_ne_nil
      plain.space_not_mem plain'.space_not_mem same)
  · rintro ⟨frames, symbols⟩
    rw [words_eq_of_frame frames symbols]

theorem eq_of_isConventional {first second : Action}
    (usual : ∀ value ∈ first.value, value.isConventional = true)
    (usual' : ∀ value ∈ second.value, value.isConventional = true)
    (frames : first.frame = second.frame)
    (symbols : first.value.map Expr.symbols = second.value.map Expr.symbols) : first = second := by
  apply eq_of_frame frames
  cases found : first.value with
  | none =>
      rw [found] at symbols
      exact (Option.map_eq_none_iff.mp symbols.symm).symm
  | some value =>
      rw [found] at symbols
      obtain ⟨value', found', same⟩ := Option.map_eq_some_iff.mp symbols.symm
      rw [found', Expr.eq_of_isConventional (usual value found) (usual' value' found') same.symm]

end Action

/-! ## What is ambiguous and what is not -/

open Evaluation (Machine)

/-- Three numbers, grouped from the left. -/
def fromLeft (op : BinOp) : Expr :=
  .binary op (.binary op (.int ⟨41, by decide, by decide⟩) (.int ⟨42, by decide, by decide⟩))
    (.int ⟨43, by decide, by decide⟩)

/-- The same numbers, grouped from the right. -/
def fromRight (op : BinOp) : Expr :=
  .binary op (.int ⟨41, by decide, by decide⟩)
    (.binary op (.int ⟨42, by decide, by decide⟩) (.int ⟨43, by decide, by decide⟩))

theorem fromLeft_plain (op : BinOp) : (fromLeft op).Plain := by
  simp [Expr.Plain, fromLeft, Expr.names]

theorem fromRight_plain (op : BinOp) : (fromRight op).Plain := by
  simp [Expr.Plain, fromRight, Expr.names]

/-- **Texts are ambiguous.** Two differences with one text have two values, and the text of a
declaration does not say whether an initial value is a part of the value type. -/
theorem texts_ambiguous :
    ((fromLeft .sub).Plain ∧ (fromRight .sub).Plain ∧
      (fromLeft .sub).render = (fromRight .sub).render ∧
      (default : Machine).eval (fromLeft .sub) ≠ (default : Machine).eval (fromRight .sub)) ∧
    (Action.declareBinding "x" false "i32 = 0" none).render =
      (Action.declareBinding "x" false "i32" (some (.int default))).render :=
  ⟨⟨fromLeft_plain .sub, fromRight_plain .sub, rfl, by decide⟩, rfl⟩

/-- **Texts say all but the grouping.** Two expressions have the same text if and only if they are
written with the same symbols. They are then one expression if they are grouped alike, or both by the
usual rules. However they are grouped, unless one of them overflows, both have the same fault or both
have a value, which is the same for sums and for products. Likewise, the text of a statement leaves
open only how its expression is grouped. -/
theorem texts_fix_symbols :
    (∀ first second : Expr, first.Plain → second.Plain →
      (first.render = second.render ↔ first.symbols = second.symbols)) ∧
    (∀ first second : Expr, first.symbols = second.symbols →
      (first.grouping = second.grouping → first = second) ∧
      (first.isConventional = true → second.isConventional = true → first = second) ∧
      ∀ machine : Machine, machine.eval first ≠ .error .overflow →
        machine.eval second ≠ .error .overflow →
        (∃ fault, machine.eval first = .error fault ∧ machine.eval second = .error fault) ∨
        ∃ left right, machine.eval first = .ok left ∧ machine.eval second = .ok right ∧
          ∀ op, op ≠ .sub → (∀ op', .operator op' ∈ first.symbols → op' = op) → left = right) ∧
    ∀ first second : Action, first.Plain → second.Plain →
      (first.render = second.render ↔
        first.frame = second.frame ∧
          first.value.map Expr.symbols = second.value.map Expr.symbols) ∧
      (first.render = second.render → (∀ value ∈ first.value, value.isConventional = true) →
        (∀ value ∈ second.value, value.isConventional = true) → first = second) := by
  refine ⟨fun first second plain plain' => Expr.render_eq_iff plain plain',
    fun first second same => ⟨Expr.eq_of_grouping same,
      fun usual usual' => Expr.eq_of_isConventional usual usual' same,
      fun machine => Machine.eval_of_symbols same⟩, ?_⟩
  intro first second plain plain'
  refine ⟨Action.render_eq_iff plain plain', fun same usual usual' => ?_⟩
  obtain ⟨frames, symbols⟩ := (Action.render_eq_iff plain plain').mp same
  exact Action.eq_of_isConventional usual usual' frames symbols

/-- A sum of three numbers has one text and one value, however it is grouped, and so has a statement
that assigns it. As the two groupings are different expressions, only one of them is by the usual
rules. -/
theorem texts_fix_symbols_assignment :
    ((fromLeft .add).Plain ∧ (fromRight .add).Plain ∧
      (fromLeft .add).symbols = (fromRight .add).symbols) ∧
    ((fromLeft .add).grouping ≠ (fromRight .add).grouping ∧
      (fromLeft .add).isConventional = true ∧ (fromRight .add).isConventional = false) ∧
    (∃ left right, (default : Machine).eval (fromLeft .add) = .ok left ∧
      (default : Machine).eval (fromRight .add) = .ok right ∧ left = right) ∧
    (Action.assignBinding "a" (fromLeft .add)).Plain ∧
    (Action.assignBinding "a" (fromRight .add)).Plain ∧
    (Action.assignBinding "a" (fromLeft .add)).frame =
      (Action.assignBinding "a" (fromRight .add)).frame ∧
    (∀ value ∈ (Action.assignBinding "a" (fromLeft .add)).value, value.isConventional = true) ∧
    ¬∀ value ∈ (Action.assignBinding "a" (fromRight .add)).value, value.isConventional = true := by
  obtain ⟨expressions, regrouped, statements⟩ := texts_fix_symbols
  have symbols := (expressions _ _ (fromLeft_plain .add) (fromRight_plain .add)).mp rfl
  have different : fromLeft .add ≠ fromRight .add := by decide
  have grouping : (fromLeft .add).grouping ≠ (fromRight .add).grouping := by
    intro same
    exact different ((regrouped _ _ symbols).1 same)
  have unusual : (fromRight .add).isConventional = false := by
    rw [Bool.eq_false_iff]
    intro usual
    exact different ((regrouped _ _ symbols).2.1 rfl usual)
  have plain {value : Expr} (empty : value.names = []) :
      (Action.assignBinding "a" value).Plain := by
    refine ⟨by simp [Action.declaredName], ?_, by simp [Action.tag?]⟩
    simp only [Action.uses, empty, List.nil_append, List.mem_singleton, forall_eq]
    decide
  have left := plain (show (fromLeft .add).names = [] from rfl)
  have right := plain (show (fromRight .add).names = [] from rfl)
  have usual : ∀ value ∈ (Action.assignBinding "a" (fromLeft .add)).value,
      value.isConventional = true := by
    intro value there
    rw [← Option.some.inj there]
    rfl
  refine ⟨⟨fromLeft_plain .add, fromRight_plain .add, symbols⟩, ⟨grouping, rfl, unusual⟩, ?_, left,
    right, ((statements _ _ left right).1.mp rfl).1, usual, ?_⟩
  · rcases (regrouped _ _ symbols).2.2 default (by decide) (by decide) with
      ⟨fault, failed, -⟩ | ⟨value, value', computed, computed', equal⟩
    · cases failed
    · have uniform : ∀ op', .operator op' ∈ (fromLeft .add).symbols → op' = .add := by
        simp [fromLeft, Expr.symbols]
      exact ⟨value, value', computed, computed', equal .add (by decide) uniform⟩
  · intro usual'
    have same := (statements _ _ left right).2 rfl usual usual'
    exact different (Action.assignBinding.inj same).2

end Lending
