import Lending.Proofs.Coherence
import Lending.Proofs.ScopeHistory
import Lending.Symbols
import Mathlib.Data.List.Forall2
import Mathlib.Logic.Function.Basic

/-!
# Symbols in place of names

Frames can be kept with numbers for names, and with two views of what is declared in them: all
entities in order, for their destruction, and what is visible, for lookups. Shadowing makes the two
differ. The frames of `Scopes` list names and entities together, and answer alike:

* **symbols** — the number of a name resolves to it (`resolve?_intern`), also when more names have
  been interned since (`resolve?_intern_of_resolve?`), and different names have different numbers
  (`intern_eq_iff`);
* **views** — what both kinds of frames show is the same (`Shows`). Each call keeps this
  (`Represents.perform`), so scopes with symbols answer as `Scopes` do after any calls
  (`answersAlike_foldl`), and what was declared can be named later on (`resolve?_foldl_declare`);
* **the checker** — it changes its scopes by such calls only (`Checker.step_scopes`), so it could as
  well keep symbols (`Checker.answersAlike_stateAfter`).
-/

namespace Lending

namespace Symbols

variable {symbols : Symbols} {name other : String} {symbol : Nat}

theorem lt_size_of_get? (known : symbols.get? name = some symbol) : symbol < symbols.size := by
  obtain ⟨inside, -, -⟩ := Array.findIdx?_eq_some_iff_getElem.mp known
  exact inside

theorem resolve?_of_get? (known : symbols.get? name = some symbol) :
    symbols.resolve? symbol = some name := by
  obtain ⟨inside, same, -⟩ := Array.findIdx?_eq_some_iff_getElem.mp known
  rw [resolve?, Array.getElem?_eq_getElem inside, eq_of_beq same]

/-- A number stands for one name. -/
theorem get?_inj (known : symbols.get? name = some symbol)
    (same : symbols.get? other = some symbol) : name = other := by
  have resolved := resolve?_of_get? known
  rw [resolve?_of_get? same, Option.some.injEq] at resolved
  exact resolved.symm

theorem intern_of_get? (known : symbols.get? name = some symbol) :
    symbols.intern name = (symbol, symbols) := by
  rw [intern, known]

theorem intern_of_get?_eq_none (unknown : symbols.get? name = none) :
    symbols.intern name = (symbols.size, { names := symbols.names.push name }) := by
  rw [intern, unknown]

/-- Interning a name gives it a number, and leaves those of the others. -/
theorem get?_intern (symbols : Symbols) (name other : String) :
    (symbols.intern name).2.get? other =
      if other = name then some (symbols.intern name).1 else symbols.get? other := by
  cases known : symbols.get? name with
  | some symbol =>
      rw [intern_of_get? known]
      split
      · rename_i same
        rw [same, known]
      · rfl
  | none =>
      rw [intern_of_get?_eq_none known]
      show (symbols.names.push name).findIdx? (· == other) = _
      rw [Array.findIdx?_push]
      by_cases same : other = name
      · subst same
        rw [if_pos rfl, beq_self_eq_true, if_pos rfl]
        show (symbols.get? other).or _ = _
        rw [known]
        rfl
      · rw [if_neg same, if_neg (by simpa using Ne.symm same), Option.or_none]
        rfl

theorem get?_intern_self (symbols : Symbols) (name : String) :
    (symbols.intern name).2.get? name = some (symbols.intern name).1 := by
  rw [get?_intern, if_pos rfl]

/-- **Resolving inverts interning.** -/
theorem resolve?_intern (symbols : Symbols) (name : String) :
    (symbols.intern name).2.resolve? (symbols.intern name).1 = some name :=
  resolve?_of_get? (get?_intern_self symbols name)

/-- Names that are interned later leave the numbers as they are. -/
theorem resolve?_intern_of_resolve? (resolved : symbols.resolve? symbol = some other)
    (name : String) : (symbols.intern name).2.resolve? symbol = some other := by
  cases known : symbols.get? name with
  | some _ => rwa [intern_of_get? known]
  | none =>
      rw [intern_of_get?_eq_none known]
      have inside : symbol < symbols.names.size := Array.getElem?_eq_some_iff.mp resolved |>.1
      show (symbols.names.push name)[symbol]? = some other
      rw [Array.getElem?_push, if_neg (Nat.ne_of_lt inside)]
      exact resolved

/-- **Interning is injective.** -/
theorem intern_eq_iff (symbols : Symbols) (name other : String) :
    ((symbols.intern name).2.intern other).1 = (symbols.intern name).1 ↔ other = name := by
  constructor
  · intro same
    have resolved := resolve?_intern (symbols.intern name).2 other
    rw [same, resolve?_intern_of_resolve? (resolve?_intern symbols name) other] at resolved
    exact (Option.some.inj resolved).symm
  · rintro rfl
    rw [intern_of_get? (get?_intern_self symbols other)]

end Symbols

/-! ## Frames with two views -/

/-- **The two views of a frame**: its entities in the order of their declaration, and by its number
what each visible name means. -/
structure Views (α : Type) where
  entities : List α := []
  visible : Nat → Option α := fun _ => none

/-- Scopes that keep symbols for names. The frames are open, innermost first. -/
structure SymbolScopes (α : Type) where
  symbols : Symbols := {}
  frames : List (Views α) := [{}]

variable {α : Type}

/-- The newest declaration of a name is visible, and hides an older one of the frame. -/
def Views.declare (views : Views α) (symbol : Nat) (entity : α) : Views α :=
  { entities := views.entities ++ [entity]
    visible := Function.update views.visible symbol (some entity) }

namespace SymbolScopes

/-- How many frames stand around the innermost one. -/
def depth (scopes : SymbolScopes α) : Nat :=
  scopes.frames.length - 1

def enter (scopes : SymbolScopes α) : SymbolScopes α :=
  { scopes with frames := {} :: scopes.frames }

/-- What a name means. One that has no number has never been declared. -/
def lookup (scopes : SymbolScopes α) (name : String) : Option α :=
  (scopes.symbols.get? name).bind fun symbol => scopes.frames.findSome? (·.visible symbol)

/-- Interns a name and declares it in the innermost frame. Gives what it hides there. -/
def declare (scopes : SymbolScopes α) (name : String) (entity : α) : Option α × SymbolScopes α :=
  let (symbol, symbols) := scopes.symbols.intern name
  match scopes.frames with
  | views :: outer =>
      (views.visible symbol, { symbols, frames := views.declare symbol entity :: outer })
  | [] => (none, { symbols, frames := [] })

/-- Closes the innermost frame, unless it is the last one, and gives its entities, newest first. -/
def exit? (scopes : SymbolScopes α) : Option (List α × SymbolScopes α) :=
  match scopes.frames with
  | views :: next :: outer =>
      some (views.entities.reverse, { scopes with frames := next :: outer })
  | _ => none

/-- Closes all frames. -/
def finish (scopes : SymbolScopes α) : List α × SymbolScopes α :=
  (scopes.frames.flatMap (·.entities.reverse), { scopes with frames := [] })

/-- The scopes after a call. -/
def perform (scopes : SymbolScopes α) : Scopes.Call α → SymbolScopes α
  | .enter => scopes.enter
  | .declare name entity => (scopes.declare name entity).2
  | .exit => (scopes.exit?.map (·.2)).getD scopes
  | .finish => scopes.finish.2

theorem symbols_declare (scopes : SymbolScopes α) (name : String) (entity : α) :
    (scopes.declare name entity).2.symbols = (scopes.symbols.intern name).2 := by
  unfold declare
  dsimp only
  split <;> rfl

theorem symbols_perform_exit (scopes : SymbolScopes α) :
    (scopes.perform .exit).symbols = scopes.symbols := by
  show ((scopes.exit?.map (·.2)).getD scopes).symbols = scopes.symbols
  unfold exit?
  split <;> rfl

end SymbolScopes

/-! ## What they show -/

/-- **A frame is what the views show**: its entities, and what each name means in it. Numbers that
no name has yet mean nothing. -/
structure Shows (symbols : Symbols) (views : Views α) (frame : Frame α) : Prop where
  entities : views.entities.reverse = Scopes.destructionOrder frame
  visible : ∀ name, (symbols.get? name).bind views.visible = List.lookup name frame
  bounded : ∀ symbol, symbols.size ≤ symbol → views.visible symbol = none

namespace Shows

variable {symbols : Symbols} {views : Views α} {frame : Frame α} {name : String}

theorem empty (symbols : Symbols) : Shows symbols ({} : Views α) [] where
  entities := rfl
  visible := by
    intro name
    cases symbols.get? name <;> rfl
  bounded := fun _ _ => rfl

theorem intern (shown : Shows symbols views frame) (name : String) :
    Shows (symbols.intern name).2 views frame := by
  cases known : symbols.get? name with
  | some symbol => rwa [Symbols.intern_of_get? known]
  | none =>
      refine ⟨shown.entities, ?_, ?_⟩
      · intro other
        rw [Symbols.get?_intern]
        split
        · rename_i same
          -- The new number means nothing in the frame yet, and neither does the name.
          have hidden := shown.visible name
          rw [known] at hidden
          rw [same, ← hidden, Symbols.intern_of_get?_eq_none known]
          exact shown.bounded symbols.size (Nat.le_refl _)
        · exact shown.visible other
      · intro symbol outside
        rw [Symbols.intern_of_get?_eq_none known, Symbols.size, Array.size_push] at outside
        exact shown.bounded symbol (Nat.le_of_succ_le outside)

theorem declare {symbol : Nat} (shown : Shows symbols views frame)
    (known : symbols.get? name = some symbol) (entity : α) :
    Shows symbols (views.declare symbol entity) ((name, entity) :: frame) where
  entities := by
    rw [Views.declare, List.reverse_append, shown.entities]
    rfl
  visible := by
    intro other
    rw [lookup_cons_ite, Views.declare]
    split
    · rename_i same
      rw [same, known]
      exact Function.update_self ..
    · rename_i different
      rw [← shown.visible other]
      cases found : symbols.get? other with
      | none => rfl
      | some number =>
          have apart : number ≠ symbol := by
            rintro rfl
            exact different (Symbols.get?_inj found known)
          exact Function.update_of_ne apart ..
  bounded := by
    intro number outside
    have apart : number ≠ symbol := by
      have inside := Symbols.lt_size_of_get? known
      omega
    exact (Function.update_of_ne apart ..).trans (shown.bounded number outside)

end Shows

/-- The frames of `scopes` are those that `tracked` shows. -/
def Represents (tracked : SymbolScopes α) (scopes : Scopes α) : Prop :=
  List.Forall₂ (Shows tracked.symbols) tracked.frames scopes.frames

/-- What can be asked of the scopes has the same answer. -/
structure AnswersAlike (tracked : SymbolScopes α) (scopes : Scopes α) : Prop where
  depth : tracked.depth = scopes.depth
  lookup : ∀ name, tracked.lookup name = scopes.lookup name
  /-- A declaration hides the same entity. -/
  hidden : ∀ name entity, (tracked.declare name entity).1 = scopes.lookupInner name
  /-- An exit is refused alike, and otherwise gives the same entities in the same order. -/
  exit : tracked.exit?.map (·.1) = scopes.exit?.map (·.1)
  finish : tracked.finish.1 = scopes.finish.1

namespace Represents

variable {tracked : SymbolScopes α} {scopes : Scopes α}

theorem root : Represents ({} : SymbolScopes α) .root :=
  .cons (Shows.empty {}) .nil

theorem lookup (represents : Represents tracked scopes) (name : String) :
    tracked.lookup name = scopes.lookup name := by
  obtain ⟨symbols, views⟩ := tracked
  obtain ⟨frames⟩ := scopes
  change List.Forall₂ (Shows symbols) views frames at represents
  show (symbols.get? name).bind (fun symbol => views.findSome? (·.visible symbol)) =
    frames.findSome? (List.lookup name ·)
  induction represents with
  | nil => cases symbols.get? name <;> rfl
  | cons first _ ih =>
      rw [List.findSome?_cons, ← ih, ← first.visible name]
      cases symbols.get? name <;> rfl

theorem declare (represents : Represents tracked scopes) (name : String) (entity : α) :
    (tracked.declare name entity).1 = scopes.lookupInner name ∧
      Represents (tracked.declare name entity).2 (scopes.declare name entity) := by
  have known := Symbols.get?_intern_self tracked.symbols name
  obtain ⟨symbols, views⟩ := tracked
  obtain ⟨frames⟩ := scopes
  cases represents with
  | nil => exact ⟨rfl, .nil⟩
  | cons first outer =>
      have inner := first.intern name
      refine ⟨?_, .cons (inner.declare known entity) (outer.imp fun _ _ shown => shown.intern name)⟩
      have visible := inner.visible name
      rw [known] at visible
      exact visible

theorem exit (represents : Represents tracked scopes) :
    tracked.exit?.map (·.1) = scopes.exit?.map (·.1) ∧
      Represents (tracked.perform .exit) (scopes.perform .exit) := by
  obtain ⟨symbols, views⟩ := tracked
  obtain ⟨frames⟩ := scopes
  cases represents with
  | nil => exact ⟨rfl, .nil⟩
  | cons first outer =>
      cases outer with
      | nil => exact ⟨rfl, .cons first .nil⟩
      | cons next rest => exact ⟨congrArg some first.entities, .cons next rest⟩

theorem finish (represents : Represents tracked scopes) :
    tracked.finish.1 = scopes.finish.1 := by
  obtain ⟨symbols, views⟩ := tracked
  obtain ⟨frames⟩ := scopes
  change List.Forall₂ (Shows symbols) views frames at represents
  show views.flatMap (·.entities.reverse) = frames.flatMap Scopes.destructionOrder
  induction represents with
  | nil => rfl
  | cons first _ ih => rw [List.flatMap_cons, List.flatMap_cons, first.entities, ih]

theorem perform (represents : Represents tracked scopes) (call : Scopes.Call α) :
    Represents (tracked.perform call) (scopes.perform call) := by
  cases call with
  | enter => exact .cons (Shows.empty tracked.symbols) represents
  | declare name entity => exact (represents.declare name entity).2
  | exit => exact represents.exit.2
  | finish => exact .nil

theorem answersAlike (represents : Represents tracked scopes) : AnswersAlike tracked scopes where
  depth := congrArg (· - 1) (List.Forall₂.length_eq represents)
  lookup := represents.lookup
  hidden := fun name entity => (represents.declare name entity).1
  exit := represents.exit.1
  finish := represents.finish

end Represents

theorem represents_foldl (calls : List (Scopes.Call α)) {tracked : SymbolScopes α}
    {scopes : Scopes α} (represents : Represents tracked scopes) :
    Represents (calls.foldl SymbolScopes.perform tracked) (calls.foldl Scopes.perform scopes) := by
  induction calls generalizing tracked scopes with
  | nil => exact represents
  | cons call rest ih => exact ih (represents.perform call)

theorem resolve?_perform {tracked : SymbolScopes α} {symbol : Nat} {name : String}
    (resolved : tracked.symbols.resolve? symbol = some name) (call : Scopes.Call α) :
    (tracked.perform call).symbols.resolve? symbol = some name := by
  cases call with
  | enter | finish => exact resolved
  | declare other entity =>
      rw [SymbolScopes.perform, SymbolScopes.symbols_declare]
      exact Symbols.resolve?_intern_of_resolve? resolved other
  | exit =>
      rw [SymbolScopes.symbols_perform_exit]
      exact resolved

theorem resolve?_foldl (calls : List (Scopes.Call α)) {tracked : SymbolScopes α} {symbol : Nat}
    {name : String} (resolved : tracked.symbols.resolve? symbol = some name) :
    (calls.foldl SymbolScopes.perform tracked).symbols.resolve? symbol = some name := by
  induction calls generalizing tracked with
  | nil => exact resolved
  | cons call rest ih => exact ih (resolve?_perform resolved call)

/-- **A record may keep the symbol of its name**: it resolves to the name after any calls. -/
theorem resolve?_foldl_declare (tracked : SymbolScopes α) (name : String) (entity : α)
    (calls : List (Scopes.Call α)) :
    (calls.foldl SymbolScopes.perform (tracked.declare name entity).2).symbols.resolve?
      (tracked.symbols.intern name).1 = some name := by
  apply resolve?_foldl
  rw [SymbolScopes.symbols_declare]
  exact Symbols.resolve?_intern tracked.symbols name

/-- **Symbols and the two views change no answer**, whatever calls are made. -/
theorem answersAlike_foldl (calls : List (Scopes.Call α)) :
    AnswersAlike (calls.foldl SymbolScopes.perform {}) (calls.foldl Scopes.perform .root) :=
  (represents_foldl calls .root).answersAlike

/-- The hidden `x` is not found, and is destroyed in its turn. -/
example :
    let tracked := ([.enter, .declare "x" 1, .declare "y" 2, .declare "x" 3].foldl
      SymbolScopes.perform {} : SymbolScopes Nat)
    tracked.lookup "x" = some 3 ∧ tracked.frames.map (·.entities) = [[1, 2, 3], []] ∧
      tracked.exit?.map (·.1) = some [3, 2, 1] := by
  cbv

/-! ## The checker -/

namespace Checker

/-- The call that a statement makes to the scopes, if it makes one. -/
def State.call? (state : State) : Action → Option (Scopes.Call Entity)
  | .declareBinding name _ _ _ => some (.declare name (.binding state.bindings.size))
  | .declareReference name _ _ target =>
      (state.binding? target).map fun _ => .declare name (.reference state.references.size)
  | .enterScope => some .enter
  | .exitScope => some .exit
  | _ => none

/-- The calls that statements make to the scopes, one after the other. -/
def State.calls (state : State) : List Action → List (Scopes.Call Entity)
  | [] => []
  | action :: rest => (state.call? action).toList ++ (state.step action).1.calls rest

theorem step_scopes {state : State} (coherent : Coherent state) (action : Action) :
    (state.step action).1.scopes =
      (state.call? action).toList.foldl Scopes.perform state.scopes := by
  cases action with
  | declareBinding name isMutable tag init => exact state.declareBinding_scopes name isMutable
  | declareReference name kind isMutable target =>
      simp only [State.step, State.call?]
      cases state.binding? target with
      | none => rfl
      | some id => exact state.declareReference_scopes name kind isMutable id
  | rebindReference name target =>
      simp only [State.step]
      split
      · rw [State.rebind_scopes]
        rfl
      · rfl
  | enterScope => rfl
  | exitScope =>
      show _ = (state.scopes.exit?.map (·.2)).getD state.scopes
      simp only [State.step]
      cases state.scopes.exit? with
      | none => rfl
      | some closed => exact State.destroyAll_scopes _ closed.1
  | assignBinding | assignThrough | readBinding | readThrough =>
      rw [coherent.step_of_isAccess rfl]
      rfl

theorem scopes_stateAfter {state : State} (coherent : Coherent state) (actions : List Action) :
    (stateAfter state actions).scopes = (state.calls actions).foldl Scopes.perform state.scopes := by
  induction actions generalizing state with
  | nil => rfl
  | cons action rest ih =>
      rw [State.calls, List.foldl_append, ← step_scopes coherent]
      exact ih (coherent.step action)

/-- **The checker could keep symbols for names.** Before each statement, what it asks of its scopes
has the same answer from scopes with symbols to which the same calls were made. -/
theorem answersAlike_stateAfter (actions : List Action) :
    AnswersAlike ((State.calls {} actions).foldl SymbolScopes.perform {})
      (stateAfter {} actions).scopes := by
  rw [scopes_stateAfter coherent_init]
  exact answersAlike_foldl (State.calls {} actions)

end Checker

end Lending
