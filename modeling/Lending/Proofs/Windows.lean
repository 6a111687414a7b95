import Lending.Proofs.Holders
import Lending.Proofs.Numbering

/-!
# Loans as windows of the program text

Who holds a binding after some statements of a valid program, said of the statements alone. A
reference asks for a loan when it is declared and when it is rebound (`Asks`). It holds the binding
that it asked for last from that statement on, unless it was refused, until it asks again, its name
is declared once more in its frame (`Shadows`), its scope is left, or the scope of the binding is
left (`Program.Window`).

The loan table of the checker is exactly the collection of these windows, and it lists the holders
of a binding in the order in which they asked (`Program.holders_eq_windows`). The table is changed
by one statement at a time, and so are the windows:

* **windows** — a statement ends windows (`EndsLoan`, `Program.window_succ_iff`) and opens at most
  one, that of the reference that asks (`Program.window_now_iff`);
* **the checker** — what leaves the table is said of the statements (`Leaves`,
  `Program.entityAt_mem_leaving_iff`), and so the references that leave a list of holders are those
  whose windows end; a loan is granted exactly when a window opens (`Program.granted_of_window`,
  `Program.granted_eq_nil`);
* **the table** — hence the list of the windows of a binding is that of its holders, before a
  statement as after it (`Program.WindowList.succ`).
-/

namespace Lending

open Checker

namespace Lexical

/-- The reference declared at `declared` asks, by the statement at `index`, for a loan of what
`target` means there. -/
inductive Asks (actions : List Action) (declared : Nat) : Nat → String → Prop
  /-- By its declaration. -/
  | declaration {name target : String} {kind : BorrowKind} {isMutable : Bool} :
      actions[declared]? = some (.declareReference name kind isMutable target) →
      Asks actions declared declared target
  /-- By a rebind of a name that resolves to it, if it is declared as mutable. -/
  | rebind {name initial called target : String} {kind : BorrowKind} {index : Nat} :
      actions[declared]? = some (.declareReference name kind true initial) →
      actions[index]? = some (.rebindReference called target) →
      resolve actions index called = some declared → Asks actions declared index target

/-- The statement at `asked` is the last one before `count` by which the reference declared at
`declared` asks for a loan, which is one of what `target` means there. -/
structure LastAsk (actions : List Action) (declared count asked : Nat) (target : String) :
    Prop where
  before : asked < count
  asks : Asks actions declared asked target
  last : ∀ {index other}, Asks actions declared index other → index < count → index ≤ asked

/-- The statement at `index` declares the name of the earlier declaration at `declared` once more,
while the frame of the latter is the innermost one. -/
structure Shadows (actions : List Action) (declared index : Nat) : Prop where
  after : declared < index
  same_name : ∃ name, declaredAt actions declared = some name ∧ declaredAt actions index = some name
  isOpen : StillOpen actions declared index
  innermost : depthAt actions index = depthAt actions declared

/-- The statement at `index` ends the loan, if there is one, of the reference declared at
`declared`: it asks anew, it is shadowed, or its scope is left. -/
def EndsLoan (actions : List Action) (declared index : Nat) : Prop :=
  (∃ target, Asks actions declared index target) ∨ Shadows actions declared index ∨
    depthAt actions (index + 1) < depthAt actions declared

/-- The action at `index` makes the entity declared at `declared` leave: a declaration ends the
reference that its name means in the innermost frame, a rebind takes the reference that asks anew
from what it holds, and an exit destroys all that stands in the innermost frame. -/
def Leaves (actions : List Action) (declared index : Nat) : Action → Prop
  | .declareBinding name _ _ _ => (∃ id, entityAt actions declared = .reference id) ∧
      List.lookup name (frameAt actions index (depthAt actions index)) = some declared
  | .declareReference name _ _ _ => (∃ id, entityAt actions declared = .reference id) ∧
      List.lookup name (frameAt actions index (depthAt actions index)) = some declared
  | .rebindReference _ _ => ∃ target, Asks actions declared index target
  | .exitScope => ∃ name, (name, declared) ∈ frameAt actions index (depthAt actions index)
  | _ => False

end Lexical

open Lexical

namespace Program

/-- At the statement at `index` a loan is reported as refused. -/
def Refuses (program : Program) (index : Nat) : Prop :=
  ∃ diagnostic ∈ program.analyze .lexical,
    diagnostic.position = some (program.position index) ∧ diagnostic.violation.kind = .exclusivity

/-- **The window of a loan.** After `count` statements the reference declared at `declared` should
hold the binding declared at `lent`, which it asked for at `asked`. -/
structure Window (program : Program) (count declared lent asked : Nat) : Prop where
  /-- Its last request was for that binding. -/
  asks : ∃ target, LastAsk program.actions declared count asked target ∧
    resolve program.actions asked target = some lent
  /-- The request was not refused. -/
  unrefused : ¬program.Refuses asked
  /-- The reference has not been shadowed in its own frame. -/
  unshadowed : ∀ {index}, index < count → ¬Shadows program.actions declared index
  /-- The scope of the reference has not been left. -/
  isOpen : StillOpen program.actions declared count
  /-- Nor has the scope of the binding. -/
  lent_isOpen : StillOpen program.actions lent count

end Program

/-! ## Requests -/

namespace Lexical

variable {actions : List Action} {declared index : Nat} {target : String}

theorem Asks.exists_declareReference (asks : Asks actions declared index target) :
    ∃ name kind isMutable initial,
      actions[declared]? = some (.declareReference name kind isMutable initial) := by
  cases asks with
  | declaration here => exact ⟨_, _, _, _, here⟩
  | rebind here => exact ⟨_, _, _, _, here⟩

theorem Asks.declared_le (asks : Asks actions declared index target) : declared ≤ index := by
  cases asks with
  | declaration => exact Nat.le_refl declared
  | rebind _ _ resolved => exact Nat.le_of_lt (resolve_eq_some_iff.mp resolved).before

/-- A statement that asks for a loan neither enters nor leaves a scope. -/
theorem Asks.depthAt_succ (asks : Asks actions declared index target) :
    depthAt actions (index + 1) = depthAt actions index := by
  cases asks with
  | declaration here => exact Lexical.depthAt_succ here
  | rebind _ here => exact Lexical.depthAt_succ here

theorem Asks.stillOpen (asks : Asks actions declared index target) :
    StillOpen actions declared (index + 1) := by
  have same := asks.depthAt_succ
  have isOpen : StillOpen actions declared index := by
    cases asks with
    | declaration => exact stillOpen_self actions declared
    | rebind _ _ resolved => exact (resolve_eq_some_iff.mp resolved).isOpen
  have reached := isOpen.depthAt_le asks.declared_le
  exact (stillOpen_succ_iff asks.declared_le).mpr ⟨isOpen, by omega⟩

/-- A reference that asks for a loan is what its name means, so it has not been shadowed. -/
theorem Asks.unshadowed (asks : Asks actions declared index target) {other : Nat}
    (before : other < index + 1) : ¬Shadows actions declared other := by
  intro shadows
  have after := shadows.after
  cases asks with
  | declaration => omega
  | rebind _ here resolved =>
      have found := resolve_eq_some_iff.mp resolved
      obtain ⟨name, known, again⟩ := shadows.same_name
      by_cases now : other = index
      · rw [now, declaredAt_of_getElem? here] at again
        exact absurd again (by simp [Action.declares, Action.declaredName])
      · -- The frame is the same, so the later declaration is open as long as the earlier one is.
        refine found.latest after (by omega) ?_ (fun between last first => ?_)
        · rw [again, ← known, found.declared]
        · rw [shadows.innermost]
          exact found.isOpen between last (by omega)

/-- A name that is declared at `index` means, in the innermost frame, the declaration that is
shadowed by it, provided that the latter was not shadowed before. -/
theorem lookup_frameAt_eq_some_iff_shadows {name : String}
    (unshadowed : ∀ {other}, other < index → ¬Shadows actions declared other)
    (declares : declaredAt actions index = some name) :
    List.lookup name (frameAt actions index (depthAt actions index)) = some declared ↔
      Shadows actions declared index := by
  rw [lookup_frameAt_eq_some_iff, mem_frameAt]
  constructor
  · rintro ⟨⟨before, isOpen, deep, known⟩, -⟩
    exact ⟨before, ⟨name, known, declares⟩, isOpen, deep.symm⟩
  · intro shadows
    obtain ⟨name', known, again⟩ := shadows.same_name
    obtain rfl : name' = name := Option.some.inj (again.symm.trans declares)
    refine ⟨⟨shadows.after, shadows.isOpen, shadows.innermost.symm, known⟩, fun other there => ?_⟩
    obtain ⟨before, -, deep, known'⟩ := mem_frameAt.mp there
    by_contra later
    refine unshadowed before ⟨by omega, ⟨name', known, known'⟩, ?_, ?_⟩
    · exact fun between last first => shadows.isOpen between (by omega) first
    · rw [deep, shadows.innermost]

/-- What stands in the innermost frame is what an exit leaves behind. -/
theorem exists_mem_frameAt_iff {name : String} (here : actions[index]? = some .exitScope)
    (inside : 0 < depthAt actions index) (declares : declaredAt actions declared = some name)
    (before : declared < index) (isOpen : StillOpen actions declared index) :
    (∃ name, (name, declared) ∈ frameAt actions index (depthAt actions index)) ↔
      depthAt actions (index + 1) < depthAt actions declared := by
  have reached := isOpen.depthAt_le (Nat.le_of_lt before)
  have higher : depthAt actions (index + 1) = depthAt actions index - 1 := depthAt_succ here
  constructor
  · rintro ⟨_, there⟩
    obtain ⟨-, -, deep, -⟩ := mem_frameAt.mp there
    omega
  · intro left
    exact ⟨name, mem_frameAt.mpr ⟨before, isOpen, by omega, declares⟩⟩

/-- Which of the ways to end a loan is open to a statement: a declaration shadows, a rebind asks
anew and an exit leaves the scope. -/
theorem endsLoan_iff {action : Action} (here : actions[index]? = some action)
    (before : declared < index) (isOpen : StillOpen actions declared index) :
    EndsLoan actions declared index ↔
      match action with
      | .declareBinding .. => Shadows actions declared index
      | .declareReference .. => Shadows actions declared index
      | .rebindReference .. => ∃ target, Asks actions declared index target
      | .exitScope => depthAt actions (index + 1) < depthAt actions declared
      | _ => False := by
  have reached := isOpen.depthAt_le (Nat.le_of_lt before)
  have depth := depthAt_succ here
  have rebinds : (∃ target, Asks actions declared index target) →
      ∃ called target, action = .rebindReference called target := by
    rintro ⟨target, asks⟩
    cases asks with
    | declaration => omega
    | rebind _ again => exact ⟨_, _, Option.some.inj (here.symm.trans again)⟩
  have declares : Shadows actions declared index → action.declares.isSome := by
    intro shadows
    obtain ⟨name, -, again⟩ := shadows.same_name
    rw [← declaredAt_of_getElem? here, again]
    rfl
  have stays : depthAt actions index ≤ depthAfter (depthAt actions index) action →
      ¬depthAt actions (index + 1) < depthAt actions declared := by omega
  unfold EndsLoan
  cases action with
  | declareBinding | declareReference =>
      simp only [mt rebinds (by simp), stays (Nat.le_refl _), false_or, or_false]
  | rebindReference =>
      simp only [mt declares (by simp [Action.declares, Action.declaredName]),
        stays (Nat.le_refl _), or_false]
  | exitScope =>
      simp only [mt rebinds (by simp),
        mt declares (by simp [Action.declares, Action.declaredName]), false_or]
  | assignBinding | assignThrough | readBinding | readThrough | enterScope =>
      simp only [mt rebinds (by simp),
        mt declares (by simp [Action.declares, Action.declaredName]),
        stays (by simp [depthAfter]), or_self]

end Lexical

/-! ## Windows, one statement more -/

namespace Program

variable {program : Program} {action : Action} {count declared lent asked : Nat}
variable {name tag : String} {isMutable : Bool} {init : Option Expr}

theorem Window.asked_lt (window : program.Window count declared lent asked) : asked < count := by
  obtain ⟨_, last, -⟩ := window.asks
  exact last.before

theorem Window.exists_declareReference (window : program.Window count declared lent asked) :
    ∃ known kind isMutable initial,
      program.actions[declared]? = some (.declareReference known kind isMutable initial) := by
  obtain ⟨_, last, -⟩ := window.asks
  exact last.asks.exists_declareReference

theorem Window.declared_lt (window : program.Window count declared lent asked) :
    declared < count := by
  obtain ⟨_, last, -⟩ := window.asks
  exact Nat.lt_of_le_of_lt last.asks.declared_le last.before

theorem Window.lent_lt (window : program.Window count declared lent asked) : lent < count := by
  obtain ⟨_, last, resolved⟩ := window.asks
  exact Nat.lt_trans (resolve_eq_some_iff.mp resolved).before last.before

/-- **How windows end.** -/
theorem window_succ_iff (earlier : asked < count) :
    program.Window (count + 1) declared lent asked ↔
      program.Window count declared lent asked ∧ ¬EndsLoan program.actions declared count ∧
        depthAt program.actions lent ≤ depthAt program.actions (count + 1) := by
  constructor
  · intro window
    obtain ⟨target, last, resolved⟩ := window.asks
    have before := last.asks.declared_le
    have before' := (resolve_eq_some_iff.mp resolved).before
    have isOpen := (stillOpen_succ_iff (by omega)).mp window.isOpen
    have lent_isOpen := (stillOpen_succ_iff (by omega)).mp window.lent_isOpen
    refine ⟨⟨⟨target, ⟨earlier, last.asks, ?_⟩, resolved⟩, window.unrefused, ?_, isOpen.1,
      lent_isOpen.1⟩, ?_, lent_isOpen.2⟩
    · exact fun again bound => last.last again (by omega)
    · exact fun bound => window.unshadowed (by omega)
    · -- A request at `count` would come after the last one.
      rintro (⟨_, again⟩ | shadows | left)
      · have atMost := last.last again (Nat.lt_succ_self count)
        omega
      · exact window.unshadowed (Nat.lt_succ_self count) shadows
      · omega
  · rintro ⟨window, goes, lent_stays⟩
    obtain ⟨target, last, resolved⟩ := window.asks
    have before := window.declared_lt
    have before' := window.lent_lt
    refine ⟨⟨target, ⟨by omega, last.asks, ?_⟩, resolved⟩, window.unrefused, ?_, ?_, ?_⟩
    · intro index other again bound
      by_cases now : index = count
      · exact absurd (.inl ⟨other, now ▸ again⟩) goes
      · exact last.last again (by omega)
    · intro index bound shadows
      by_cases now : index = count
      · exact goes (.inr (.inl (now ▸ shadows)))
      · exact window.unshadowed (by omega) shadows
    · refine (stillOpen_succ_iff (by omega)).mpr ⟨window.isOpen, ?_⟩
      by_contra left
      exact goes (.inr (.inr (by omega)))
    · exact (stillOpen_succ_iff (by omega)).mpr ⟨window.lent_isOpen, lent_stays⟩

/-- **How windows open.** -/
theorem window_now_iff :
    program.Window (count + 1) declared lent count ↔
      (∃ target, Asks program.actions declared count target ∧
        resolve program.actions count target = some lent) ∧ ¬program.Refuses count := by
  constructor
  · intro window
    obtain ⟨target, last, resolved⟩ := window.asks
    exact ⟨⟨target, last.asks, resolved⟩, window.unrefused⟩
  · rintro ⟨⟨target, asks, resolved⟩, unrefused⟩
    have found := resolve_eq_some_iff.mp resolved
    have reached := found.isOpen.depthAt_le (Nat.le_of_lt found.before)
    have same := asks.depthAt_succ
    refine ⟨⟨target, ⟨Nat.lt_succ_self count, asks, ?_⟩, resolved⟩, unrefused, asks.unshadowed,
      asks.stillOpen, ?_⟩
    · exact fun _ bound => Nat.le_of_lt_succ bound
    · exact (stillOpen_succ_iff (Nat.le_of_lt found.before)).mpr ⟨found.isOpen, by omega⟩

/-! ## The checker, one statement more -/

/-- A request of the checker is one of the statements. -/
theorem request?_stateAt (valid : program.errors = [])
    (here : program.actions[count]? = some action) {id : ReferenceId} {binding : BindingId} :
    (program.stateAt count).request? action = some (id, binding) ↔
      ∃ declared target lent, Asks program.actions declared count target ∧
        resolve program.actions count target = some lent ∧
        entityAt program.actions declared = .reference id ∧
        entityAt program.actions lent = .binding binding := by
  have bound : count ≤ program.actions.length := Nat.le_of_lt (List.getElem?_eq_some_iff.mp here).1
  have number := (size_stateAt valid bound).2
  constructor
  · intro asks
    cases action with
    | declareReference name kind isMutable target =>
        obtain ⟨other, meaning, same⟩ := Option.map_eq_some_iff.mp asks
        obtain ⟨rfl, rfl⟩ := Prod.mk.inj same
        obtain ⟨lent, resolved, entity⟩ := (binding?_stateAt valid bound).mp meaning
        refine ⟨count, target, lent, .declaration here, resolved, ?_, entity⟩
        rw [number]
        exact entityAt_of_declareReference here
    | rebindReference called target =>
        obtain ⟨meaning, meaning', reference, known, isMutable⟩ :=
          State.request?_rebindReference_eq_some_iff.mp asks
        obtain ⟨declared, resolved, entity⟩ := (reference?_stateAt valid bound).mp meaning
        obtain ⟨lent, resolved', entity'⟩ := (binding?_stateAt valid bound).mp meaning'
        obtain ⟨rfl, name, kind, isMutable', initial, there⟩ := entityAt_eq_reference_iff.mp entity
        obtain ⟨reference', known', rfl⟩ :=
          exists_isMutable_eq valid bound there (resolve_eq_some_iff.mp resolved).before
        obtain rfl : reference = reference' := Option.some.inj (known.symm.trans known')
        rw [isMutable] at there
        exact ⟨declared, target, lent, .rebind there here resolved, resolved', entity, entity'⟩
    | declareBinding | assignBinding | assignThrough | readBinding | readThrough | enterScope
    | exitScope => exact absurd asks (by simp [State.request?])
  · rintro ⟨declared, target, lent, asks, resolved, entity, entity'⟩
    have meaning := (binding?_stateAt valid bound).mpr ⟨lent, resolved, entity'⟩
    obtain ⟨rfl, -⟩ := entityAt_eq_reference_iff.mp entity
    cases asks with
    | declaration there =>
        obtain rfl := Option.some.inj (here.symm.trans there)
        simp only [State.request?, meaning, number, Option.map_some]
    | rebind there again resolved' =>
        obtain rfl := Option.some.inj (here.symm.trans again)
        have meaning' := (reference?_stateAt valid bound).mpr ⟨declared, resolved', entity⟩
        exact State.request?_rebindReference_eq_some_iff.mpr ⟨meaning', meaning,
          exists_isMutable_eq valid bound there (resolve_eq_some_iff.mp resolved').before⟩

/-- A statement by which a reference asks for a loan finds a binding to ask for. -/
theorem exists_resolve_of_asks (valid : program.errors = []) {target : String}
    (asks : Asks program.actions declared count target) :
    ∃ lent, resolve program.actions count target = some lent ∧
      ∃ binding, entityAt program.actions lent = .binding binding := by
  have meaning : ∃ binding, count ≤ program.actions.length ∧
      (program.stateAt count).binding? target = some binding := by
    cases asks with
    | declaration here =>
        obtain ⟨binding, meaning⟩ := exists_binding?_of_declareReference valid here
        exact ⟨binding, Nat.le_of_lt (List.getElem?_eq_some_iff.mp here).1, meaning⟩
    | rebind _ here =>
        obtain ⟨binding, meaning⟩ := Validation.exists_binding?_of_use rfl
          (List.append_eq_nil_iff.mp (accepted valid here)).2
        exact ⟨binding, Nat.le_of_lt (List.getElem?_eq_some_iff.mp here).1, meaning⟩
  obtain ⟨binding, bound, meaning⟩ := meaning
  obtain ⟨lent, resolved, entity⟩ := (binding?_stateAt valid bound).mp meaning
  exact ⟨lent, resolved, binding, entity⟩

theorem entityAt_mem_shadowed_iff (valid : program.errors = [])
    (bound : count ≤ program.actions.length) {known name : String}
    (declares : declaredAt program.actions declared = some known) :
    entityAt program.actions declared ∈ (program.stateAt count).shadowed name ↔
      (∃ id, entityAt program.actions declared = .reference id) ∧
        List.lookup name (frameAt program.actions count (depthAt program.actions count)) =
          some declared := by
  simp only [State.mem_shadowed_iff, lookupInner_stateAt valid bound, Option.map_eq_some_iff]
  constructor
  · rintro ⟨id, entity, other, found, same⟩
    obtain ⟨_, _, _, declares'⟩ := mem_frameAt.mp (mem_of_lookup found)
    obtain rfl := eq_of_entityAt_eq declares' declares (same.trans entity.symm)
    exact ⟨⟨id, entity⟩, found⟩
  · rintro ⟨⟨id, entity⟩, found⟩
    exact ⟨id, entity, declared, found, entity⟩

/-- **Who leaves.** The entities that the checker ends at a statement, said of the statements. -/
theorem entityAt_mem_leaving_iff (valid : program.errors = [])
    (here : program.actions[count]? = some action) {known : String}
    (declares : declaredAt program.actions declared = some known) :
    entityAt program.actions declared ∈ (program.stateAt count).leaving action ↔
      Leaves program.actions declared count action := by
  have bound : count ≤ program.actions.length := Nat.le_of_lt (List.getElem?_eq_some_iff.mp here).1
  cases action with
  | declareBinding name isMutable tag init => exact entityAt_mem_shadowed_iff valid bound declares
  | declareReference name kind isMutable target =>
      obtain ⟨binding, meaning⟩ := exists_binding?_of_declareReference valid here
      simp only [State.leaving, meaning, Option.isSome_some, if_true]
      exact entityAt_mem_shadowed_iff valid bound declares
  | rebindReference called target =>
      -- The checker looks for a request, which in a valid program always finds its binding.
      simp only [State.leaving, List.mem_map, Option.mem_toList, Prod.exists, Leaves]
      constructor
      · rintro ⟨id, binding, request, same⟩
        obtain ⟨other, target, lent, asks, -, entity, -⟩ := (request?_stateAt valid here).mp request
        obtain ⟨_, _, _, _, there⟩ := asks.exists_declareReference
        obtain rfl := eq_of_entityAt_eq (declaredAt_of_declaredName valid there rfl) declares
          (entity.trans same)
        exact ⟨target, asks⟩
      · rintro ⟨target', asks⟩
        obtain ⟨lent, resolved, binding, entity⟩ := exists_resolve_of_asks valid asks
        obtain ⟨_, _, _, _, there⟩ := asks.exists_declareReference
        have entity' := entityAt_of_declareReference there
        exact ⟨_, binding, (request?_stateAt valid here).mpr
          ⟨declared, target', lent, asks, resolved, entity', entity⟩, entity'.symm⟩
  | assignBinding | assignThrough | readBinding | readThrough | enterScope =>
      simp [State.leaving, State.request?, Leaves]
  | exitScope =>
      obtain ⟨outer, level⟩ : ∃ outer, depthAt program.actions count = outer + 1 :=
        Nat.exists_eq_add_one.mpr (depthAt_pos_of_exitScope valid here)
      have frames := frames_stateAt valid bound
      rw [level, framesBelow_succ, List.map_cons] at frames
      rw [leaving_exitScope frames, mem_entities, Leaves, level]
      simp only [List.mem_singleton, exists_eq_left, Scopes.mapFrame, List.mem_map, Prod.mk.injEq,
        Prod.exists]
      constructor
      · rintro ⟨_, name, other, there, -, same⟩
        obtain ⟨-, -, -, declares'⟩ := mem_frameAt.mp there
        obtain rfl := eq_of_entityAt_eq declares' declares same
        exact ⟨name, there⟩
      · rintro ⟨name, there⟩
        exact ⟨name, name, declared, there, rfl, rfl⟩

/-- A reference that has not been shadowed leaves when its loan ends. -/
theorem reference_mem_leaving_iff (valid : program.errors = [])
    (here : program.actions[count]? = some action) {known initial : String} {kind : BorrowKind}
    {isMutable : Bool}
    (there : program.actions[declared]? = some (.declareReference known kind isMutable initial))
    (before : declared < count) (isOpen : StillOpen program.actions declared count)
    (unshadowed : ∀ {index}, index < count → ¬Shadows program.actions declared index) :
    .reference (referenceNumber program.actions declared) ∈
        (program.stateAt count).leaving action ↔
      EndsLoan program.actions declared count := by
  have entity := entityAt_of_declareReference there
  have declares := declaredAt_of_declaredName valid there rfl
  rw [← entity, entityAt_mem_leaving_iff valid here declares, endsLoan_iff here before isOpen]
  have shadowing : ∀ {name}, declaredAt program.actions count = some name →
      ((∃ id, entityAt program.actions declared = .reference id) ∧
        List.lookup name (frameAt program.actions count (depthAt program.actions count)) =
          some declared ↔ Shadows program.actions declared count) := by
    intro name again
    rw [lookup_frameAt_eq_some_iff_shadows unshadowed again, and_iff_right ⟨_, entity⟩]
  cases action with
  | declareBinding | declareReference => exact shadowing (declaredAt_of_declaredName valid here rfl)
  | rebindReference | assignBinding | assignThrough | readBinding | readThrough | enterScope =>
      exact Iff.rfl
  | exitScope =>
      exact exists_mem_frameAt_iff here (depthAt_pos_of_exitScope valid here) declares before isOpen

/-- A binding leaves when its scope is left. -/
theorem binding_mem_leaving_iff (valid : program.errors = [])
    (here : program.actions[count]? = some action)
    (there : program.actions[lent]? = some (.declareBinding name isMutable tag init))
    (before : lent < count) (isOpen : StillOpen program.actions lent count) :
    .binding (bindingNumber program.actions lent) ∈ (program.stateAt count).leaving action ↔
      depthAt program.actions (count + 1) < depthAt program.actions lent := by
  have entity := entityAt_of_declareBinding there
  have declares := declaredAt_of_declaredName valid there rfl
  have reached := isOpen.depthAt_le (Nat.le_of_lt before)
  have depth := depthAt_succ here
  have stays : ¬Leaves program.actions lent count action →
      depthAt program.actions count ≤ depthAfter (depthAt program.actions count) action →
      (Leaves program.actions lent count action ↔
        depthAt program.actions (count + 1) < depthAt program.actions lent) := by
    intro remains deeper
    exact ⟨fun leaves => absurd leaves remains, fun left => by omega⟩
  rw [← entity, entityAt_mem_leaving_iff valid here declares]
  cases action with
  | declareBinding | declareReference => exact stays (by simp [Leaves, entity]) (Nat.le_refl _)
  | rebindReference =>
      refine stays ?_ (Nat.le_refl _)
      rintro ⟨_, asks⟩
      obtain ⟨_, _, _, _, there'⟩ := asks.exists_declareReference
      exact absurd (there.symm.trans there') (by simp)
  | assignBinding | assignThrough | readBinding | readThrough => exact stays id (Nat.le_refl _)
  | enterScope => exact stays id (Nat.le_succ _)
  | exitScope =>
      exact exists_mem_frameAt_iff here (depthAt_pos_of_exitScope valid here) declares before isOpen

theorem refuses_iff (valid : program.errors = [])
    (here : program.actions[count]? = some action) :
    program.Refuses count ↔
      ∃ violation ∈ ((program.stateAt count).step action).2, violation.kind = .exclusivity := by
  constructor
  · rintro ⟨⟨violation, position⟩, reported, rfl, kind⟩
    exact ⟨violation, (mem_analyze_iff valid here).mp reported, kind⟩
  · rintro ⟨violation, found, kind⟩
    exact ⟨_, (mem_analyze_iff valid here).mpr found, rfl, kind⟩

/-- What can go wrong with a request is that it is refused. -/
theorem step_eq_nil_iff_of_request? (valid : program.errors = [])
    (here : program.actions[count]? = some action) {request : ReferenceId × BindingId}
    (asks : (program.stateAt count).request? action = some request) :
    ((program.stateAt count).step action).2 = [] ↔ ¬program.Refuses count := by
  rw [refuses_iff valid here, List.eq_nil_iff_forall_not_mem]
  constructor
  · rintro none ⟨violation, found, -⟩
    exact none violation found
  · intro unrefused violation found
    exact unrefused ⟨violation, found, kind_of_request? asks found⟩

/-- The loan of a window that opens is granted. -/
theorem granted_of_window (valid : program.errors = [])
    (here : program.actions[count]? = some action)
    (there : program.actions[lent]? = some (.declareBinding name isMutable tag init))
    (window : program.Window (count + 1) declared lent count) :
    (program.stateAt count).granted action (bindingNumber program.actions lent) =
      [.reference (referenceNumber program.actions declared)] := by
  obtain ⟨⟨target, asks, resolved⟩, unrefused⟩ := window_now_iff.mp window
  obtain ⟨_, _, _, _, there'⟩ := asks.exists_declareReference
  have request := (request?_stateAt valid here).mpr ⟨declared, target, lent, asks, resolved,
    entityAt_of_declareReference there', entityAt_of_declareBinding there⟩
  have accepted := (step_eq_nil_iff_of_request? valid here request).mpr unrefused
  simp only [State.granted, request, accepted, and_self, if_true]

/-- No loan is granted if no window opens. -/
theorem granted_eq_nil (valid : program.errors = [])
    (here : program.actions[count]? = some action)
    (there : program.actions[lent]? = some (.declareBinding name isMutable tag init))
    (none : ∀ declared, ¬program.Window (count + 1) declared lent count) :
    (program.stateAt count).granted action (bindingNumber program.actions lent) = [] := by
  unfold State.granted
  split
  · rename_i id binding request
    refine if_neg ?_
    rintro ⟨rfl, accepted⟩
    -- A loan that is granted has been asked for, by the reference whose window opens.
    obtain ⟨declared, target, lent', asks, resolved, -, entity⟩ :=
      (request?_stateAt valid here).mp request
    obtain rfl := eq_of_entityAt_eq (resolve_eq_some_iff.mp resolved).declared
      (declaredAt_of_declaredName valid there rfl)
      (entity.trans (entityAt_of_declareBinding there).symm)
    exact none declared (window_now_iff.mpr ⟨⟨target, asks, resolved⟩,
      (step_eq_nil_iff_of_request? valid here request).mp accepted⟩)
  · rfl

/-! ## The table -/

/-- The loans of the binding declared at `lent` after `count` statements: for each window the
declaration of the reference and the statement by which it asked, in the order of the latter. -/
structure WindowList (program : Program) (count lent : Nat) (windows : List (Nat × Nat)) :
    Prop where
  mem_iff : ∀ {declared asked},
    (declared, asked) ∈ windows ↔ program.Window count declared lent asked
  sorted : windows.Pairwise fun earlier later => earlier.2 < later.2

/-- The holder that a window stands for. -/
def holderOf (program : Program) (window : Nat × Nat) : Holder :=
  .reference (referenceNumber program.actions window.1)

open Classical in
/-- The windows of the list that are still open one statement later. -/
noncomputable def remaining (program : Program) (count lent : Nat) (windows : List (Nat × Nat)) :
    List (Nat × Nat) :=
  windows.filter fun window => program.Window (count + 1) window.1 lent window.2

theorem WindowList.mem_remaining_iff {windows : List (Nat × Nat)}
    (list : program.WindowList count lent windows) :
    (declared, asked) ∈ program.remaining count lent windows ↔
      asked < count ∧ program.Window (count + 1) declared lent asked := by
  classical
  simp only [remaining, List.mem_filter, list.mem_iff, decide_eq_true_eq]
  constructor
  · rintro ⟨window, remains⟩
    exact ⟨window.asked_lt, remains⟩
  · rintro ⟨earlier, remains⟩
    exact ⟨((window_succ_iff earlier).mp remains).1, remains⟩

/-- **The windows that remain are those of the holders that stay.** -/
theorem WindowList.map_remaining (valid : program.errors = [])
    (here : program.actions[count]? = some action)
    (there : program.actions[lent]? = some (.declareBinding name isMutable tag init))
    {windows : List (Nat × Nat)} (list : program.WindowList count lent windows) :
    (program.remaining count lent windows).map program.holderOf =
      if .binding (bindingNumber program.actions lent) ∈ (program.stateAt count).leaving action then
        []
      else (windows.map program.holderOf).filter
        (Holder.outlives ((program.stateAt count).leaving action)) := by
  have binding : ∀ {declared asked}, (declared, asked) ∈ windows →
      (.binding (bindingNumber program.actions lent) ∈ (program.stateAt count).leaving action ↔
        depthAt program.actions (count + 1) < depthAt program.actions lent) := by
    intro declared asked listed
    have window := list.mem_iff.mp listed
    exact binding_mem_leaving_iff valid here there window.lent_lt window.lent_isOpen
  split
  · -- The binding leaves, and all windows end with it.
    rename_i leaves
    rw [List.map_eq_nil_iff, List.eq_nil_iff_forall_not_mem]
    rintro ⟨declared, asked⟩ remains
    obtain ⟨earlier, remains⟩ := list.mem_remaining_iff.mp remains
    obtain ⟨window, -, isOpen⟩ := (window_succ_iff earlier).mp remains
    have left := (binding (list.mem_iff.mpr window)).mp leaves
    omega
  · rename_i stays
    rw [List.filter_map]
    refine congrArg (List.map program.holderOf) (List.filter_congr ?_)
    rintro ⟨declared, asked⟩ listed
    have window := list.mem_iff.mp listed
    obtain ⟨_, _, _, _, known⟩ := window.exists_declareReference
    have isOpen := mt (binding listed).mpr stays
    rw [Bool.eq_iff_iff]
    simp only [Function.comp_apply, holderOf, Holder.outlives, decide_eq_true_eq,
      reference_mem_leaving_iff valid here known window.declared_lt window.isOpen window.unshadowed,
      window_succ_iff window.asked_lt]
    constructor
    · rintro ⟨-, remains, -⟩
      exact remains
    · intro remains
      exact ⟨window, remains, by omega⟩

/-- Windows of one holder are windows of one reference. -/
theorem Window.eq_of_referenceNumber_eq {count' other lent' asked' : Nat}
    (window : program.Window count declared lent asked)
    (window' : program.Window count' other lent' asked')
    (same : referenceNumber program.actions declared = referenceNumber program.actions other) :
    declared = other := by
  obtain ⟨_, _, _, _, known⟩ := window.exists_declareReference
  obtain ⟨_, _, _, _, known'⟩ := window'.exists_declareReference
  exact eq_of_countP_take_eq known rfl known' rfl same

/-- **One statement more.** The windows that remain keep their order, and the one that opens, if
any, was asked for last. -/
theorem WindowList.succ (valid : program.errors = [])
    (here : program.actions[count]? = some action)
    (there : program.actions[lent]? = some (.declareBinding name isMutable tag init))
    {windows : List (Nat × Nat)} (list : program.WindowList count lent windows)
    (holders : (program.stateAt count).holdersOf (bindingNumber program.actions lent) =
      windows.map program.holderOf) :
    ∃ after, program.WindowList (count + 1) lent after ∧
      (program.stateAt (count + 1)).holdersOf (bindingNumber program.actions lent) =
        after.map program.holderOf := by
  have step := holdersOf_step (program.coherent_stateAt count) action
    (bindingNumber program.actions lent)
  rw [← stateAt_succ here, holders, ← list.map_remaining valid here there] at step
  have sorted : (program.remaining count lent windows).Pairwise fun earlier later =>
      earlier.2 < later.2 := list.sorted.filter _
  by_cases opens : ∃ declared, program.Window (count + 1) declared lent count
  · obtain ⟨declared, opens⟩ := opens
    have granted := granted_of_window valid here there opens
    refine ⟨program.remaining count lent windows ++ [(declared, count)], ⟨?_, ?_⟩, ?_⟩
    · intro other asked
      rw [List.mem_append, List.mem_singleton, Prod.mk.injEq, list.mem_remaining_iff]
      constructor
      · rintro (⟨-, window⟩ | ⟨rfl, rfl⟩)
        · exact window
        · exact opens
      · intro window
        by_cases now : asked = count
        · -- One loan is granted by a statement, so there is one window that it opens.
          subst now
          have same := (granted_of_window valid here there window).symm.trans granted
          rw [List.singleton_inj, Holder.reference.injEq] at same
          exact .inr ⟨window.eq_of_referenceNumber_eq opens same, rfl⟩
        · have before := window.asked_lt
          exact .inl ⟨by omega, window⟩
    · rw [List.pairwise_append]
      refine ⟨sorted, List.pairwise_singleton _ _, fun earlier listed later new => ?_⟩
      rw [List.mem_singleton.mp new]
      exact (list.mem_remaining_iff.mp listed).1
    · rw [step, granted, List.map_append]
      rfl
  · have granted := granted_eq_nil valid here there
      (fun declared window => opens ⟨declared, window⟩)
    refine ⟨program.remaining count lent windows, ⟨?_, sorted⟩, ?_⟩
    · intro other asked
      rw [list.mem_remaining_iff]
      refine ⟨And.right, fun window => ⟨?_, window⟩⟩
      have before := window.asked_lt
      have different : asked ≠ count := by
        rintro rfl
        exact opens ⟨other, window⟩
      omega
    · rw [step, granted, List.append_nil]

/-- After any statements the holders of a binding are those of its windows. -/
theorem exists_windowList (valid : program.errors = []) (bound : count ≤ program.actions.length)
    (there : program.actions[lent]? = some (.declareBinding name isMutable tag init)) :
    ∃ windows, program.WindowList count lent windows ∧
      (program.stateAt count).holdersOf (bindingNumber program.actions lent) =
        windows.map program.holderOf := by
  induction count with
  | zero =>
      refine ⟨[], ⟨?_, List.Pairwise.nil⟩, rfl⟩
      intro declared asked
      refine ⟨fun impossible => absurd impossible (by simp), fun window => ?_⟩
      exact absurd window.asked_lt (Nat.not_lt_zero asked)
  | succ count ih =>
      obtain ⟨windows, list, holders⟩ := ih (by omega)
      exact list.succ valid (List.getElem?_eq_getElem bound) there holders

theorem mem_holdersOf_iff_window (valid : program.errors = [])
    (bound : count ≤ program.actions.length) {known initial : String} {isMutable' : Bool}
    {kind : BorrowKind}
    (there : program.actions[lent]? = some (.declareBinding name isMutable tag init))
    (here : program.actions[declared]? = some (.declareReference known kind isMutable' initial)) :
    .reference (referenceNumber program.actions declared) ∈
        (program.stateAt count).holdersOf (bindingNumber program.actions lent) ↔
      ∃ asked, program.Window count declared lent asked := by
  obtain ⟨windows, list, holders⟩ := exists_windowList valid bound there
  rw [holders, List.mem_map]
  constructor
  · rintro ⟨⟨other, asked⟩, listed, same⟩
    have window := list.mem_iff.mp listed
    obtain ⟨_, _, _, _, here'⟩ := window.exists_declareReference
    obtain rfl := eq_of_countP_take_eq here' rfl here rfl (Holder.reference.inj same)
    exact ⟨asked, window⟩
  · rintro ⟨asked, window⟩
    exact ⟨(declared, asked), list.mem_iff.mpr window, rfl⟩

/-- **The loan table is the collection of the windows.** After any statements of a valid program,
a reference holds a binding exactly if it has a window: its last request was for that binding and
was not refused, it has not been shadowed in its own frame, and neither its scope nor that of the
binding has been left. The holders are listed in the order of these requests. -/
theorem holders_eq_windows {program : Program} (valid : program.errors = []) {count : Nat}
    (bound : count ≤ program.actions.length) {lent : Nat} {name tag : String} {isMutable : Bool}
    {init : Option Expr}
    (there : program.actions[lent]? = some (.declareBinding name isMutable tag init)) :
    (∀ declared {known kind isMutable' initial},
      program.actions[declared]? = some (.declareReference known kind isMutable' initial) →
      (.reference (referenceNumber program.actions declared) ∈
          (program.stateAt count).holdersOf (bindingNumber program.actions lent) ↔
        ∃ asked, program.Window count declared lent asked)) ∧
    ∃ windows, program.WindowList count lent windows ∧
      (program.stateAt count).holdersOf (bindingNumber program.actions lent) =
        windows.map program.holderOf := by
  refine ⟨?_, exists_windowList valid bound there⟩
  intro declared known kind isMutable' initial here
  exact mem_holdersOf_iff_window valid bound there here

end Program

/-- `let a; let mut r = &a; let q = &a; let x = &mut a; rebind r -> a; { let r = &a; let q = &a;
let q = &a; }`: `x` is refused, `r` asks again and comes after `q`, the inner `r` leaves the outer
one alone, and the second inner `q` ends the first. -/
def reordering : Program where
  statements := [
    { action := .declareBinding "a" false "i32" none },
    { action := .declareReference "r" .shared true "a" },
    { action := .declareReference "q" .shared false "a" },
    { action := .declareReference "x" .exclusive false "a" },
    { action := .rebindReference "r" "a" },
    { action := .enterScope },
    { action := .declareReference "r" .shared false "a" },
    { action := .declareReference "q" .shared false "a" },
    { action := .declareReference "q" .shared false "a" },
    { action := .exitScope }]

/-- Of the six references of the program four have a window behind the second inner `q`. -/
theorem Program.holders_eq_windows_reordering :
    reordering.errors = [] ∧
    (reordering.stateAt 9).holdersOf 0 =
      [.reference 1, .reference 0, .reference 3, .reference 5] ∧
    (∃ asked, reordering.Window 9 1 0 asked) ∧ (¬∃ asked, reordering.Window 9 3 0 asked) ∧
    (∃ asked, reordering.Window 9 6 0 asked) ∧ ¬∃ asked, reordering.Window 9 7 0 asked := by
  have valid : reordering.errors = [] := by decide
  have holders : (reordering.stateAt 9).holdersOf 0 =
      [.reference 1, .reference 0, .reference 3, .reference 5] := by decide
  have bound : 9 ≤ reordering.actions.length := by decide
  have there : reordering.actions[0]? = some (.declareBinding "a" false "i32" none) := rfl
  obtain ⟨holds, -⟩ := Program.holders_eq_windows valid bound there
  exact ⟨valid, holders, (holds 1 rfl).mp (holders ▸ by decide),
    mt (holds 3 rfl).mpr (holders ▸ by decide), (holds 6 rfl).mp (holders ▸ by decide),
    mt (holds 7 rfl).mpr (holders ▸ by decide)⟩

end Lending
