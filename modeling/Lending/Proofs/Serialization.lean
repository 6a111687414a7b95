import Lending.Files.Loading
import Lending.Program.Encode
import Lending.Proofs.Json
import Mathlib.Data.List.Forall2
import Mathlib.Data.Option.Basic

/-!
# Programs in files are read back

A program that was written is read as the same program: from the data that are written, with the
members of their records in any order, and from their text. Nothing that a program holds is lost on
the way, be it a name, a literal, a span or the lack of one.

What is written for a part of a program says by itself which part it is. So the argument is made
part by part, from expressions to programs, and each part has one lemma: *every reordering of what
is written for it is read as it* (`Reads`). A record passes this on from its members, since readers
look members up by name and each name stands there once (`Fields.Reordered.required_eq`).
-/

namespace Lending

/-! ## Records in another order -/

/-- The second datum is the first, but for the order in which the members of records stand. -/
inductive Datum.Reordered : Datum → Datum → Prop
  | same (datum : Datum) : Reordered datum datum
  | list {items items' : List Datum} : items.length = items'.length →
      (∀ pair ∈ items.zip items', Reordered pair.1 pair.2) →
      Reordered (.list items) (.list items')
  /-- The values of the members may be reordered inside, and then the members are. -/
  | record {fields between fields' : Fields} : fields.map (·.1) = between.map (·.1) →
      (∀ pair ∈ fields.zip between, Reordered pair.1.2 pair.2.2) → between.Perm fields' →
      Reordered (.record fields) (.record fields')

/-- Two members have the same name and, but for the order inside, the same value. -/
def Fields.Matching (field field' : String × Datum) : Prop :=
  field.1 = field'.1 ∧ Datum.Reordered field.2 field'.2

/-- The members of two records that differ in order only. -/
def Fields.Reordered (fields fields' : Fields) : Prop :=
  ∃ between, List.Forall₂ Matching fields between ∧ between.Perm fields'

theorem exists_of_mem_of_forall₂ {α β : Type} {related : α → β → Prop} {list : List α}
    {list' : List β} (matching : List.Forall₂ related list list') {element' : β}
    (there : element' ∈ list') : ∃ element ∈ list, related element element' := by
  obtain ⟨index, bound, rfl⟩ := List.mem_iff_getElem.mp there
  have bound' : index < list.length := matching.length_eq ▸ bound
  exact ⟨list[index], List.getElem_mem bound', matching.get bound' bound⟩

namespace Datum.Reordered

theorem exists_items {items : List Datum} {datum : Datum} (reordered : Reordered (.list items) datum) :
    ∃ items', datum = .list items' ∧ List.Forall₂ Reordered items items' := by
  cases reordered with
  | same => exact ⟨items, rfl, List.forall₂_same.mpr fun item _ => .same item⟩
  | @list _ items' length each =>
      exact ⟨items', rfl, List.forall₂_iff_zip.mpr ⟨length, fun there => each _ there⟩⟩

theorem exists_fields {fields : Fields} {datum : Datum}
    (reordered : Reordered (.record fields) datum) :
    ∃ fields' : Fields, datum = .record fields' ∧ fields.Reordered fields' := by
  cases reordered with
  | same =>
      exact ⟨fields, rfl, fields, List.forall₂_same.mpr fun field _ => ⟨rfl, .same field.2⟩, .refl _⟩
  | @record _ between fields' names each perm =>
      have named : List.Forall₂ (fun field field' => field.1 = field'.1) fields between := by
        rwa [← List.forall₂_eq_eq_eq, List.forall₂_map_left_iff, List.forall₂_map_right_iff] at names
      obtain ⟨length, same⟩ := List.forall₂_iff_zip.mp named
      exact ⟨fields', rfl, between,
        List.forall₂_iff_zip.mpr ⟨length, fun there => ⟨same there, each _ there⟩⟩, perm⟩

theorem of_fields {fields fields' : Fields} (reordered : fields.Reordered fields') :
    Reordered (.record fields) (.record fields') := by
  obtain ⟨between, matching, perm⟩ := reordered
  obtain ⟨_, each⟩ := List.forall₂_iff_zip.mp matching
  refine .record ?_ (fun pair there => (each there).2) perm
  rw [← List.forall₂_eq_eq_eq, List.forall₂_map_left_iff, List.forall₂_map_right_iff]
  exact matching.imp fun _ _ both => both.1

/-- A datum that is no list and no record has no other order. -/
theorem eq_of_scalar {datum datum' : Datum} (reordered : Reordered datum datum')
    (list : ∀ items, datum ≠ .list items) (record : ∀ fields, datum ≠ .record fields) :
    datum' = datum := by
  cases reordered with
  | same => rfl
  | list => exact absurd rfl (list _)
  | record => exact absurd rfl (record _)

/-- What JSON has a form for, it has a form for in any order. -/
theorem plain {datum datum' : Datum} (plain : Json.Plain datum)
    (reordered : Reordered datum datum') : Json.Plain datum' := by
  induction plain generalizing datum' with
  | null =>
      rw [reordered.eq_of_scalar (by simp) (by simp)]
      exact .null
  | bool value =>
      rw [reordered.eq_of_scalar (by simp) (by simp)]
      exact .bool value
  | int lower upper =>
      rw [reordered.eq_of_scalar (by simp) (by simp)]
      exact .int lower upper
  | text value =>
      rw [reordered.eq_of_scalar (by simp) (by simp)]
      exact .text value
  | list _ ih =>
      obtain ⟨items', rfl, matching⟩ := reordered.exists_items
      refine .list fun item' there => ?_
      obtain ⟨item, there, reordered⟩ := exists_of_mem_of_forall₂ matching there
      exact ih item there reordered
  | record _ ih =>
      obtain ⟨fields', rfl, between, matching, perm⟩ := reordered.exists_fields
      refine .record fun field' there => ?_
      obtain ⟨field, there, _, reordered⟩ :=
        exists_of_mem_of_forall₂ matching (perm.mem_iff.mpr there)
      exact ih field there reordered

end Datum.Reordered

/-- Every reordering of the datum is read as the value. -/
def Datum.Reads {α : Type} (read : Datum → Option α) (datum : Datum) (value : α) : Prop :=
  ∀ datum', Reordered datum datum' → read datum' = some value

/-! ## Members by name -/

namespace Fields

@[simp]
theorem values_nil (name : String) : Fields.values [] name = [] :=
  rfl

@[simp]
theorem values_cons (field : String × Datum) (rest : Fields) (name : String) :
    Fields.values (field :: rest) name =
      if field.1 = name then field.2 :: Fields.values rest name else Fields.values rest name := by
  by_cases same : field.1 = name <;> simp [values, same]

@[simp]
theorem values_append (fields rest : Fields) (name : String) :
    Fields.values (fields ++ rest) name = Fields.values fields name ++ Fields.values rest name := by
  simp [values]

@[simp]
theorem values_present (member name : String) (value : Option Datum) :
    Fields.values (Fields.present member value) name = if member = name then value.toList else [] := by
  cases value with
  | none => simp [present]
  | some value => simp [present]

namespace Reordered

variable {α : Type} {fields fields' : Fields} {read : Datum → Option α}

theorem values (reordered : fields.Reordered fields') (name : String) :
    ∃ between, List.Forall₂ Datum.Reordered (fields.values name) between ∧
      between.Perm (fields'.values name) := by
  obtain ⟨between, matching, perm⟩ := reordered
  refine ⟨Fields.values between name, ?_, (perm.filter _).map _⟩
  clear perm
  induction matching with
  | nil => exact .nil
  | @cons field field' rest rest' matching _ ih =>
      rw [values_cons, values_cons, matching.1]
      split
      · exact .cons matching.2 ih
      · exact ih

/-- A name that stands once stands once in any order. -/
theorem exists_value (reordered : fields.Reordered fields') {name : String} {datum : Datum}
    (once : fields.values name = [datum]) :
    ∃ datum', fields'.values name = [datum'] ∧ datum.Reordered datum' := by
  obtain ⟨between, matching, perm⟩ := reordered.values name
  rw [once] at matching
  obtain ⟨datum', rest, reordered, none, rfl⟩ := List.forall₂_cons_left_iff.mp matching
  obtain rfl := List.forall₂_nil_left_iff.mp none
  exact ⟨datum', List.perm_singleton.mp perm.symm, reordered⟩

theorem required_eq (reordered : fields.Reordered fields') (name : String) {datum : Datum}
    {value : α} (reads : datum.Reads read value) (once : fields.values name = [datum]) :
    fields'.required name read = some value := by
  obtain ⟨datum', once', reordered⟩ := reordered.exists_value once
  rw [Fields.required, once']
  exact reads datum' reordered

theorem optional_eq (reordered : fields.Reordered fields') (name : String) {datum : Datum}
    {absent value : α} (reads : datum.Reads read value) (once : fields.values name = [datum]) :
    fields'.optional name absent read = some value := by
  obtain ⟨datum', once', reordered⟩ := reordered.exists_value once
  rw [Fields.optional, once']
  exact reads datum' reordered

/-- A member that is left out when there is no value is read as what was written. -/
theorem nullable_eq (reordered : fields.Reordered fields') (name : String) {write : α → Datum}
    {value : Option α} (reads : ∀ value, (write value).Reads read value) (null : read .null = none)
    (present : fields.values name = (value.map write).toList) :
    fields'.optional name none (Datum.nullable? read) = some value := by
  cases value with
  | none =>
      obtain ⟨between, matching, perm⟩ := reordered.values name
      rw [present] at matching
      obtain rfl := List.forall₂_nil_left_iff.mp matching
      rw [Fields.optional, List.nil_perm.mp perm]
  | some value =>
      refine reordered.optional_eq name (fun datum reordered => ?_) present
      have found := reads value datum reordered
      have nonnull : datum ≠ .null := fun same => by simp [same, null] at found
      rw [Datum.nullable?, found]
      · rfl
      · exact nonnull

end Reordered

end Fields

/-! ## Scalars -/

namespace Datum

theorem reads_text (value : String) : (Datum.text value).Reads Datum.text? value := by
  intro datum reordered
  rw [reordered.eq_of_scalar (by simp) (by simp)]
  rfl

theorem reads_bool (value : Bool) : (Datum.bool value).Reads Datum.bool? value := by
  intro datum reordered
  rw [reordered.eq_of_scalar (by simp) (by simp)]
  rfl

theorem reads_word (value : Word) : (Datum.int value.val).Reads Datum.word? value := by
  intro datum reordered
  rw [reordered.eq_of_scalar (by simp) (by simp)]
  exact Word.ofInt?_val value

theorem reads_uint32 (value : UInt32) : (Datum.nat value.toNat).Reads Datum.uint32? value := by
  intro datum reordered
  have bound := value.toNat_lt
  rw [reordered.eq_of_scalar (by simp [nat]) (by simp [nat]), uint32?, nat, intIn?,
    if_pos (by omega), Option.map_some, Int.toNat_natCast, UInt32.ofNat_toNat]

/-- A keyword is the name of a choice, in every dialect. -/
theorem reads_choice (dialect : Dialect) (keyword : String) :
    (Datum.text keyword).Reads dialect.choice? keyword := by
  intro datum reordered
  rw [reordered.eq_of_scalar (by simp) (by simp)]
  rfl

end Datum

theorem BinOp.reads (dialect : Dialect) (op : BinOp) :
    (Datum.text op.keyword).Reads (BinOp.ofDatum? dialect) op := by
  intro datum reordered
  rw [BinOp.ofDatum?, Datum.reads_choice dialect _ datum reordered]
  cases op <;> rfl

theorem BorrowKind.reads (dialect : Dialect) (kind : BorrowKind) :
    (Datum.text kind.keyword).Reads (BorrowKind.ofDatum? dialect) kind := by
  intro datum reordered
  rw [BorrowKind.ofDatum?, Datum.reads_choice dialect _ datum reordered]
  cases kind <;> rfl

/-! ## Parts of statements -/

/-- A record of one member has no other order. -/
theorem Datum.Reordered.exists_single {name : String} {content datum : Datum}
    (reordered : Reordered (.record [(name, content)]) datum) :
    ∃ content', datum = .record [(name, content')] ∧ content.Reordered content' := by
  obtain ⟨fields', rfl, between, matching, perm⟩ := reordered.exists_fields
  obtain ⟨⟨name', content'⟩, rest, ⟨rfl, inside⟩, none, rfl⟩ :=
    List.forall₂_cons_left_iff.mp matching
  obtain rfl := List.forall₂_nil_left_iff.mp none
  obtain rfl := List.perm_singleton.mp perm.symm
  exact ⟨content', rfl, inside⟩

theorem AccessPath.reads (path : AccessPath) : path.toDatum.Reads AccessPath.ofDatum? path := by
  intro datum reordered
  cases path with
  | deref name | borrow name =>
      obtain ⟨content, rfl, inside⟩ := reordered.exists_single
      simp [AccessPath.ofDatum?, Datum.reads_text name content inside]

/-- The members of an operation, each of which must occur once. -/
theorem Expr.ofDatum?_binary (dialect : Dialect) (fields : Fields) :
    Expr.ofDatum? dialect (.record [("binary", .record fields)]) = (do
      let op ← fields.required "op" (BinOp.ofDatum? dialect)
      let lhs ← fields.required "lhs" (Expr.ofDatum? dialect)
      let rhs ← fields.required "rhs" (Expr.ofDatum? dialect)
      return .binary op lhs rhs) := by
  rw [Expr.ofDatum?]
  simp only [String.reduceEq, if_true, if_false, Dialect.fields?, Datum.fields?]
  split
  · rename_i lhs rhs
    simp only [Fields.required, lhs, rhs]
  · rename_i other
    cases lhs : fields.required "lhs" (Expr.ofDatum? dialect) with
    | none => simp
    | some left =>
        cases rhs : fields.required "rhs" (Expr.ofDatum? dialect) with
        | none => simp
        | some right =>
            unfold Fields.required at lhs rhs
            split at lhs
            · split at rhs
              · rename_i onceLeft _ _ onceRight
                exact absurd onceRight (other _ _ onceLeft)
              · contradiction
            · contradiction

/-- **An expression is read back.** -/
theorem Expr.reads (dialect : Dialect) (expr : Expr) :
    expr.toDatum.Reads (Expr.ofDatum? dialect) expr := by
  induction expr with
  | int value =>
      intro datum reordered
      obtain ⟨content, rfl, inside⟩ := reordered.exists_single
      simp [Expr.ofDatum?, Datum.reads_word value content inside]
  | var name | deref name =>
      intro datum reordered
      obtain ⟨content, rfl, inside⟩ := reordered.exists_single
      simp [Expr.ofDatum?, Datum.reads_text name content inside]
  | binary op lhs rhs left right =>
      intro datum reordered
      obtain ⟨content, rfl, inside⟩ := reordered.exists_single
      obtain ⟨fields, rfl, members⟩ := inside.exists_fields
      rw [Expr.ofDatum?_binary, members.required_eq "op" (BinOp.reads dialect op) (by simp),
        members.required_eq "lhs" left (by simp), members.required_eq "rhs" right (by simp)]
      rfl

/-! ## Forms of their own -/

theorem Datum.readableItems_eq_all (items : List Datum) :
    Datum.readableItems items = items.all Datum.readable := by
  induction items with
  | nil => rfl
  | cons item rest ih => rw [readableItems, List.all_cons, ih]

theorem Datum.readableFields_eq_all (fields : Fields) :
    Datum.readableFields fields = fields.all fun field => field.2.readable := by
  induction fields with
  | nil => rfl
  | cons field rest ih => rw [readableFields, List.all_cons, ih]

namespace Json.Plain

theorem readable {datum : Datum} (plain : Plain datum) : datum.readable = true := by
  induction plain with
  | null | bool | int | text => rfl
  | list _ ih => rw [Datum.readable, Datum.readableItems_eq_all, List.all_eq_true.mpr ih]
  | record _ ih => rw [Datum.readable, Datum.readableFields_eq_all, List.all_eq_true.mpr ih]

theorem single {name : String} {content : Datum} (plain : Plain content) :
    Plain (.record [(name, content)]) := by
  refine .record fun field there => ?_
  rwa [List.mem_singleton.mp there]

theorem of_mem_present {α : Type} {write : α → Datum} (each : ∀ value, Plain (write value))
    {name : String} {value : Option α} {field : String × Datum}
    (there : field ∈ Fields.present name (value.map write)) : Plain field.2 := by
  cases value with
  | none => exact absurd there List.not_mem_nil
  | some value =>
      rw [List.mem_singleton.mp there]
      exact each value

end Json.Plain

theorem FileSpan.plain (span : FileSpan) : Json.Plain span.toDatum := by
  have number : ∀ value : UInt32, Json.Plain (.nat value.toNat) := by
    intro value
    have bound := value.toNat_lt
    exact .int (by omega) (by omega)
  refine .record fun field there => ?_
  simp only [List.mem_cons, List.not_mem_nil, or_false] at there
  rcases there with rfl | rfl | rfl <;> exact number _

theorem Expr.plain (expr : Expr) : Json.Plain expr.toDatum := by
  induction expr with
  | int value =>
      have upper := value.upper
      exact .single (.int value.lower (by omega))
  | var name | deref name => exact .single (.text name)
  | binary op lhs rhs left right =>
      refine .single (.record fun field there => ?_)
      simp only [List.mem_cons, List.not_mem_nil, or_false] at there
      rcases there with rfl | rfl | rfl
      · exact left
      · exact .text _
      · exact right

theorem AccessPath.plain (path : AccessPath) : Json.Plain path.toDatum := by
  cases path with
  | deref name | borrow name => exact .single (.text name)

theorem Action.plain_of_mem_toFields {action : Action} {span : Fields}
    (each : ∀ field ∈ span, Json.Plain field.2) {field : String × Datum}
    (there : field ∈ action.toFields span) : Json.Plain field.2 := by
  cases action with
  | declareBinding name isMutable tag init =>
      simp only [toFields, List.mem_append, List.mem_cons, List.not_mem_nil, or_false] at there
      rcases there with ((init | rfl | rfl | rfl) | there) | rfl
      · exact .of_mem_present Expr.plain init
      · exact .bool _
      · exact .text _
      · exact .text _
      · exact each field there
      · exact .text _
  | declareReference name kind isMutable target =>
      simp only [toFields, List.mem_append, List.mem_cons, List.not_mem_nil, or_false] at there
      rcases there with ((rfl | rfl | rfl | rfl) | there) | rfl
      · exact .text _
      · exact .bool _
      · exact .text _
      · exact .text _
      · exact each field there
      · exact .text _
  | rebindReference name target =>
      simp only [toFields, List.mem_append, List.mem_cons, List.not_mem_nil, or_false] at there
      rcases there with ((rfl | rfl) | there) | rfl
      · exact .text _
      · exact .text _
      · exact each field there
      · exact .text _
  | assignBinding name value | assignThrough reference value =>
      simp only [toFields, List.mem_append, List.mem_cons, List.not_mem_nil, or_false] at there
      rcases there with ((rfl | rfl) | there) | rfl
      · exact .text _
      · exact .text _
      · exact each field there
      · exact value.plain
  | readBinding name =>
      simp only [toFields, List.mem_append, List.mem_cons, List.not_mem_nil, or_false] at there
      rcases there with (rfl | rfl) | there
      · exact .text _
      · exact .text _
      · exact each field there
  | readThrough path =>
      simp only [toFields, List.mem_append, List.mem_cons, List.not_mem_nil, or_false] at there
      rcases there with (rfl | rfl) | there
      · exact .text _
      · exact path.plain
      · exact each field there
  | enterScope | exitScope =>
      rcases List.mem_cons.mp there with rfl | there
      · exact .text _
      · exact each field there

theorem Statement.plain (statement : Statement) : Json.Plain statement.toDatum :=
  .record fun _ there =>
    Action.plain_of_mem_toFields (fun _ there => .of_mem_present FileSpan.plain there) there

theorem SourceText.plain (source : SourceText) : Json.Plain source.toDatum := by
  refine .record fun field there => ?_
  simp only [List.mem_cons, List.not_mem_nil, or_false] at there
  rcases there with rfl | rfl <;> exact .text _

theorem Program.plain (program : Program) : Json.Plain program.toDatum := by
  refine .record fun field there => ?_
  simp only [List.mem_append, List.mem_singleton] at there
  rcases there with (name | source) | rfl
  · exact .of_mem_present .text name
  · exact .of_mem_present SourceText.plain source
  · refine .list fun item there => ?_
    obtain ⟨statement, _, rfl⟩ := List.mem_map.mp there
    exact statement.plain

/-! ## Statements -/

theorem FileSpan.reads (span : FileSpan) : span.toDatum.Reads FileSpan.ofDatum? span := by
  intro datum reordered
  have readable := (reordered.plain span.plain).readable
  obtain ⟨fields, rfl, members⟩ := reordered.exists_fields
  have file : fields.optional "file" 0 Datum.uint32? = some span.file :=
    members.optional_eq "file" (Datum.reads_uint32 _) (by simp)
  have start := members.required_eq "start" (Datum.reads_uint32 span.span.start) (by simp)
  have stop := members.required_eq "end" (Datum.reads_uint32 span.span.stop) (by simp)
  simp [FileSpan.ofDatum?, readable, Datum.fields?, file, start, stop]

theorem Action.reads_keyword (dialect : Dialect) (action : Action) :
    (Datum.text action.keyword).Reads (dialect.form? Action.keywords) action.keyword := by
  intro datum reordered
  rw [reordered.eq_of_scalar (by simp) (by simp)]
  cases action <;> rfl

/-- **An action is read back** from the members of its statement, in any order. -/
theorem Action.ofFields?_eq (dialect : Dialect) (action : Action) {span : Option FileSpan}
    {fields : Fields}
    (members : Fields.Reordered
      (action.toFields (Fields.present "span" (span.map FileSpan.toDatum))) fields) :
    Action.ofFields? dialect fields = some action := by
  have op := members.required_eq "op" (action.reads_keyword dialect)
    (by cases action <;> simp [toFields])
  cases action with
  | declareBinding name isMutable tag init =>
      have named := members.required_eq "name" (Datum.reads_text name) (by simp [toFields])
      have marked : fields.optional "mutable" false Datum.bool? = some isMutable :=
        members.optional_eq "mutable" (Datum.reads_bool isMutable) (by simp [toFields])
      have tagged : fields.optional "ty" defaultTag Datum.text? = some tag :=
        members.optional_eq "ty" (Datum.reads_text tag) (by simp [toFields])
      have started :
          fields.optional "init" none (Datum.nullable? (Expr.ofDatum? .held)) = some init :=
        members.nullable_eq "init" (Expr.reads .held) (by simp [Expr.ofDatum?]) (by simp [toFields])
      simp [ofFields?, op, keyword, named, marked, tagged, started]
  | declareReference name kind isMutable target =>
      have named := members.required_eq "name" (Datum.reads_text name) (by simp [toFields])
      have marked : fields.optional "mutable" false Datum.bool? = some isMutable :=
        members.optional_eq "mutable" (Datum.reads_bool isMutable) (by simp [toFields])
      have kept := members.required_eq "kind" (kind.reads .held) (by simp [toFields])
      have lent := members.required_eq "target" (Datum.reads_text target) (by simp [toFields])
      simp [ofFields?, op, keyword, named, marked, kept, lent]
  | rebindReference name target =>
      have named := members.required_eq "name" (Datum.reads_text name) (by simp [toFields])
      have lent := members.required_eq "target" (Datum.reads_text target) (by simp [toFields])
      simp [ofFields?, op, keyword, named, lent]
  | assignBinding name value =>
      have named := members.required_eq "name" (Datum.reads_text name) (by simp [toFields])
      have assigned := members.required_eq "value" (value.reads .held) (by simp [toFields])
      simp [ofFields?, op, keyword, named, assigned]
  | assignThrough reference value =>
      have named := members.required_eq "reference" (Datum.reads_text reference) (by simp [toFields])
      have assigned := members.required_eq "value" (value.reads .held) (by simp [toFields])
      simp [ofFields?, op, keyword, named, assigned]
  | readBinding name =>
      have named := members.required_eq "name" (Datum.reads_text name) (by simp [toFields])
      simp [ofFields?, op, keyword, named]
  | readThrough path =>
      have followed := members.required_eq "path" path.reads (by simp [toFields])
      simp [ofFields?, op, keyword, followed]
  | enterScope | exitScope => simp [ofFields?, op, keyword]

theorem Statement.reads (dialect : Dialect) (statement : Statement) :
    statement.toDatum.Reads (Statement.ofDatum? dialect) statement := by
  intro datum reordered
  have readable := (reordered.plain statement.plain).readable
  obtain ⟨fields, rfl, members⟩ := reordered.exists_fields
  have span : fields.optional "span" none (Datum.nullable? FileSpan.ofDatum?) =
      some statement.span := by
    refine members.nullable_eq "span" FileSpan.reads (by simp [FileSpan.ofDatum?, Datum.fields?]) ?_
    cases statement.action <;> simp [Action.toFields]
  simp [Statement.ofDatum?, readable, Datum.fields?, span, Action.ofFields?_eq dialect _ members]

/-! ## Programs -/

theorem SourceText.reads (dialect : Dialect) (source : SourceText) :
    source.toDatum.Reads (SourceText.ofDatum? dialect) source := by
  intro datum reordered
  obtain ⟨fields, rfl, members⟩ := reordered.exists_fields
  have path := members.required_eq "path" (Datum.reads_text source.path) (by simp)
  have text := members.required_eq "text" (Datum.reads_text source.text) (by simp)
  simp [SourceText.ofDatum?, Dialect.fields?, Datum.fields?, path, text]

theorem Statement.mapM_ofDatum? (dialect : Dialect) {statements : List Statement}
    {items : List Datum}
    (matching : List.Forall₂ Datum.Reordered (statements.map Statement.toDatum) items) :
    items.mapM (Statement.ofDatum? dialect) = some statements := by
  induction statements generalizing items with
  | nil =>
      obtain rfl := List.forall₂_nil_left_iff.mp matching
      rfl
  | cons statement rest ih =>
      obtain ⟨item, others, reordered, behind, rfl⟩ := List.forall₂_cons_left_iff.mp matching
      rw [List.mapM_cons, statement.reads dialect item reordered, ih behind]
      rfl

/-- **A program is read back** from its data, in any order and by any dialect. -/
theorem Program.reads (dialect : Dialect) (program : Program) :
    program.toDatum.Reads (Program.ofDatum? dialect) program := by
  intro datum reordered
  obtain ⟨fields, rfl, members⟩ := reordered.exists_fields
  have name : fields.optional "name" none (Datum.nullable? Datum.text?) = some program.name :=
    members.nullable_eq "name" Datum.reads_text rfl (by simp)
  have source : fields.optional "source" none (Datum.nullable? (SourceText.ofDatum? dialect)) =
      some program.source :=
    members.nullable_eq "source" (SourceText.reads dialect)
      (by simp [SourceText.ofDatum?, Dialect.fields?, Datum.fields?]) (by simp)
  have statements : (Datum.list (program.statements.map Statement.toDatum)).Reads
      (fun value => do (← value.items?).mapM (Statement.ofDatum? dialect)) program.statements := by
    intro datum reordered
    obtain ⟨items, rfl, matching⟩ := reordered.exists_items
    exact Statement.mapM_ofDatum? dialect matching
  exact Option.bind_eq_some_iff.mpr ⟨_, name, Option.bind_eq_some_iff.mpr ⟨_, source,
    Option.bind_eq_some_iff.mpr ⟨_, members.optional_eq "statements" statements (by simp), rfl⟩⟩⟩

/-- The text of a program, with members in any order, on one line or over several. -/
theorem Program.parse?_of_spells {program : Program} {datum : Datum}
    (reordered : program.toDatum.Reordered datum) {text : String}
    (spells : Json.Spells (Json.tokens datum) text.toList) (room : Json.openBrackets text ≤ 127) :
    Program.parse? .json text = some program := by
  have plain := reordered.plain program.plain
  rw [plain.openBrackets_of_spells spells] at room
  rw [Program.parse?, plain.read?_of_spells room spells]
  exact program.reads .json datum reordered

/-- **Programs survive being written and read.** Whatever the program, what is written for it is read
as this program and no other, with the members of all records in any order: as data, in each of the
dialects, and as text, on one line or over several, if no more than 127 brackets are open at once. -/
theorem Program.format_round_trips (program : Program) {datum : Datum}
    (reordered : program.toDatum.Reordered datum) :
    (∀ dialect, Program.ofDatum? dialect datum = some program) ∧
      ∀ text ∈ [Json.compact datum, Json.pretty datum], Json.openBrackets text ≤ 127 →
        Program.parse? .json text = some program := by
  refine ⟨fun dialect => program.reads dialect datum reordered, fun text there room => ?_⟩
  have plain := reordered.plain program.plain
  simp only [List.mem_cons, List.not_mem_nil, or_false] at there
  rcases there with rfl | rfl
  · exact Program.parse?_of_spells reordered plain.spells_compact room
  · exact Program.parse?_of_spells reordered plain.spells_pretty room

/-- A program with a name, a span and an expression, but no source text. -/
def Program.increment : Program where
  name := some "n"
  statements :=
    [{ action := .assignThrough "r" (.binary .add (.deref "r") (.int default)),
       span := some { span := { start := 3, stop := 7 } } }]

/-- What is written for `Program.increment`, with the members of each record the other way round. -/
def Program.incrementReordered : Datum :=
  .record [
    ("statements", .list [.record [
      ("value", .record [("binary", .record [
        ("rhs", .record [("int", .int 0)]),
        ("op", .text "add"),
        ("lhs", .record [("deref", .text "r")])])]),
      ("span", .record [("start", .int 3), ("file", .int 0), ("end", .int 7)]),
      ("reference", .text "r"),
      ("op", .text "assign_through_reference")]]),
    ("name", .text "n")]

theorem Program.format_round_trips_increment :
    increment.toDatum.Reordered incrementReordered ∧
      Json.openBrackets (Json.compact incrementReordered) = 6 ∧
      Program.parse? .json (Json.compact incrementReordered) = some increment := by
  have backwards : ∀ {fields fields' : Fields}, List.Forall₂ Fields.Matching fields fields'.reverse →
      Datum.Reordered (.record fields) (.record fields') :=
    fun matching => .of_fields ⟨_, matching, List.reverse_perm _⟩
  have operation : Datum.Reordered
      (.record [("binary", .record [
        ("lhs", .record [("deref", .text "r")]),
        ("op", .text "add"),
        ("rhs", .record [("int", .int 0)])])])
      (.record [("binary", .record [
        ("rhs", .record [("int", .int 0)]),
        ("op", .text "add"),
        ("lhs", .record [("deref", .text "r")])])]) :=
    backwards (.cons ⟨rfl, backwards (.cons ⟨rfl, .same _⟩ (.cons ⟨rfl, .same _⟩
      (.cons ⟨rfl, .same _⟩ .nil)))⟩ .nil)
  have reordered : increment.toDatum.Reordered incrementReordered := by
    refine backwards (.cons ⟨rfl, .same _⟩ (.cons ⟨rfl, .list rfl ?_⟩ .nil))
    intro pair there
    rw [List.mem_singleton.mp there]
    exact backwards (.cons ⟨rfl, .same _⟩ (.cons ⟨rfl, .same _⟩ (.cons ⟨rfl,
      backwards (.cons ⟨rfl, .same _⟩ (.cons ⟨rfl, .same _⟩ (.cons ⟨rfl, .same _⟩ .nil)))⟩
      (.cons ⟨rfl, operation⟩ .nil))))
  have brackets : Json.openBrackets (Json.compact incrementReordered) = 6 := by
    have plain := reordered.plain increment.plain
    rw [plain.openBrackets_of_spells plain.spells_compact]
    rfl
  have read := (Program.format_round_trips increment reordered).2 _ List.mem_cons_self (by omega)
  exact ⟨reordered, brackets, read⟩

end Lending
