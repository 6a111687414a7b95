import Lending.Proofs.Numbering

/-!
# What the machine has declared

The machine runs any program, valid or not, and a blank name is to it a name like all others. What
stands in its frames is told here by the statements alone:

* **one statement** — a statement that succeeds gives its entity the next number, and changes the
  frames as `Scopes.follow` says (`Machine.Declares.of_step`);
* **frames** — level by level the frames hold the entities of the declarations whose scopes are
  still open (`Levels.follow`), and so together those of all of them (`mem_frames_iff`);
* **names** — a name that is not blank means the entity of the declaration that it resolves to
  (`lookup_of_reached`).
-/

namespace Lending

open Evaluation Lexical

/-! ## One statement -/

namespace Scopes

variable {α : Type}

/-- What an action makes of the open frames if blank names are declared too. `entity` is what its
declaration, should it be one, puts into them. -/
def follow (scopes : Scopes α) (action : Action) (entity : α) : Scopes α :=
  match action with
  | .enterScope => scopes.enter
  | .exitScope => (scopes.exit?.map (·.2)).getD scopes
  | action =>
      match action.declaredName with
      | some name => scopes.declare name entity
      | none => scopes

/-- An action that neither enters nor exits a scope. -/
theorem follow_of_declaredName {action : Action} (enters : action ≠ .enterScope)
    (exits : action ≠ .exitScope) (scopes : Scopes α) (entity : α) :
    scopes.follow action entity =
      match action.declaredName with
      | some name => scopes.declare name entity
      | none => scopes := by
  cases action with
  | enterScope => exact absurd rfl enters
  | exitScope => exact absurd rfl exits
  | declareBinding | declareReference | rebindReference | assignBinding | assignThrough
  | readBinding | readThrough => rfl

end Scopes

namespace Evaluation

/-- What a statement that succeeds declares: its entity gets the next number of its sort. -/
structure Machine.Declares (machine : Machine) (action : Action) (after : Machine) : Prop where
  slots : after.slots.size = machine.slots.size + if action.isBinding then 1 else 0
  targets : after.targets.size = machine.targets.size + if action.isReference then 1 else 0
  scopes : after.scopes = machine.scopes.follow action
    (if action.isReference then .reference machine.targets.size else .binding machine.slots.size)

theorem Machine.Declares.of_step {machine after : Machine} {action : Action}
    {reading : Option Reading} (stepped : machine.step action = .ok (after, reading)) :
    machine.Declares action after := by
  cases Machine.Effect.of_step stepped with
  | declareBinding => exact ⟨Array.size_push _, rfl, rfl⟩
  | declareReference => exact ⟨rfl, Array.size_push _, rfl⟩
  | rebindReference => exact ⟨rfl, Array.size_modify, rfl⟩
  | assignBinding => exact ⟨Array.size_modify, rfl, rfl⟩
  | assignThrough => exact ⟨Array.size_modify, rfl, rfl⟩
  | readBinding | readBorrowed | readThrough => exact ⟨rfl, rfl, rfl⟩
  | enterScope => exact ⟨rfl, rfl, rfl⟩
  | @exitScope entities scopes closed =>
      obtain ⟨scopes', targets, slots⟩ :=
        Machine.foldl_kill_frame entities { machine with scopes }
      refine ⟨slots, congrArg Array.size targets, ?_⟩
      rw [scopes']
      simp [Scopes.follow, closed]
  | exitNothing none => exact ⟨rfl, rfl, by simp [Scopes.follow, none]⟩

/-- The last of the statements that a run has taken. -/
theorem exists_step_of_reached {actions : List Action} {action : Action} {count : Nat}
    {after : Machine} (here : actions[count]? = some action)
    (reached : machineAfter {} (actions.take (count + 1)) = .ok after) :
    ∃ before reading, machineAfter {} (actions.take count) = .ok before ∧
      before.step action = .ok (after, reading) := by
  rw [take_succ_of_getElem? here] at reached
  exact machineAfter_snoc_eq_ok_iff.mp reached

/-- **Slots and references are numbered in the order of their declarations.** -/
theorem size_of_reached {actions : List Action} {count : Nat} {machine : Machine}
    (bound : count ≤ actions.length)
    (reached : machineAfter {} (actions.take count) = .ok machine) :
    machine.slots.size = bindingNumber actions count ∧
      machine.targets.size = referenceNumber actions count := by
  induction count generalizing machine with
  | zero =>
      obtain rfl : {} = machine := Except.ok.inj reached
      exact ⟨rfl, rfl⟩
  | succ count ih =>
      have here := List.getElem?_eq_getElem bound
      obtain ⟨before, reading, reached', stepped⟩ := exists_step_of_reached here reached
      obtain ⟨slots, targets⟩ := ih (by omega) reached'
      have declares := Machine.Declares.of_step stepped
      constructor
      · rw [declares.slots, slots]
        exact (countP_take_succ _ here).symm
      · rw [declares.targets, targets]
        exact (countP_take_succ _ here).symm

end Evaluation

/-! ## Declarations in force -/

namespace Lexical

/-- The statement at `declared` is a declaration, and its scope is still open after `count`
statements. Its name may be hidden by then, and it may be blank. -/
structure InForce (actions : List Action) (count declared : Nat) : Prop where
  before : declared < count
  declares : ∃ action name, actions[declared]? = some action ∧ action.declaredName = some name
  isOpen : StillOpen actions declared count

variable {actions : List Action} {action : Action} {count declared : Nat}

theorem InForce.depthAt_le (inForce : InForce actions count declared) :
    depthAt actions declared ≤ depthAt actions count :=
  inForce.isOpen.depthAt_le (Nat.le_of_lt inForce.before)

theorem depthAt_succ_of_declaredName {name : String} (here : actions[count]? = some action)
    (named : action.declaredName = some name) :
    depthAt actions (count + 1) = depthAt actions count := by
  rw [depthAt_succ here]
  cases action with
  | enterScope => exact absurd named (by simp [Action.declaredName])
  | exitScope => exact absurd named (by simp [Action.declaredName])
  | declareBinding | declareReference | rebindReference | assignBinding | assignThrough
  | readBinding | readThrough => rfl

/-- A statement ends what stands deeper than the depth that it leaves, and may add its own. -/
theorem inForce_succ_iff (here : actions[count]? = some action) :
    InForce actions (count + 1) declared ↔
      (InForce actions count declared ∧
        depthAt actions declared ≤ depthAt actions (count + 1)) ∨
      (declared = count ∧ ∃ name, action.declaredName = some name) := by
  constructor
  · intro inForce
    by_cases now : declared = count
    · obtain ⟨other, name, there, named⟩ := inForce.declares
      rw [now, here] at there
      rw [← Option.some.inj there] at named
      exact .inr ⟨now, name, named⟩
    · have before : declared < count := by
        have bound := inForce.before
        omega
      obtain ⟨isOpen, high⟩ := (stillOpen_succ_iff (Nat.le_of_lt before)).mp inForce.isOpen
      exact .inl ⟨⟨before, inForce.declares, isOpen⟩, high⟩
  · intro either
    obtain ⟨⟨before, declares, isOpen⟩, high⟩ | ⟨rfl, name, named⟩ := either
    · exact ⟨by omega, declares, (stillOpen_succ_iff (by omega)).mpr ⟨isOpen, high⟩⟩
    · have level := depthAt_succ_of_declaredName here named
      refine ⟨by omega, ⟨action, name, here, named⟩, ?_⟩
      exact (stillOpen_succ_iff (Nat.le_refl declared)).mpr
        ⟨stillOpen_self actions declared, by omega⟩

/-! ## Levels -/

variable {α : Type} {entity : Nat → α}

/-- Each frame holds the entities of the declarations in force that stand at its depth. The last
frame is the outermost one. -/
def Levels (actions : List Action) (count : Nat) (entity : Nat → α) : List (Frame α) → Prop
  | [] => True
  | frame :: outer =>
      (∀ found, found ∈ Scopes.destructionOrder frame ↔
        ∃ declared, InForce actions count declared ∧ depthAt actions declared = outer.length ∧
          entity declared = found) ∧
      Levels actions count entity outer

/-- Frames that stay open and to which nothing is added. -/
theorem Levels.keep {frames : List (Frame α)} (levels : Levels actions count entity frames)
    (here : actions[count]? = some action)
    (stay : frames.length ≤ depthAt actions (count + 1) + 1)
    (older : action.declaredName = none ∨ frames.length ≤ depthAt actions count) :
    Levels actions (count + 1) entity frames := by
  induction frames with
  | nil => trivial
  | cons frame outer ih =>
      rw [List.length_cons] at stay older
      refine ⟨?_, ih levels.2 (by omega) (older.imp_right fun _ => by omega)⟩
      intro found
      rw [levels.1]
      apply exists_congr
      intro declared
      rw [inForce_succ_iff here]
      constructor
      · intro held
        obtain ⟨inForce, level, same⟩ := held
        exact ⟨.inl ⟨inForce, by omega⟩, level, same⟩
      · intro held
        obtain ⟨⟨inForce, -⟩ | ⟨rfl, name, named⟩, level, same⟩ := held
        · exact ⟨inForce, level, same⟩
        · rcases older with silent | outside
          · rw [silent] at named
            exact absurd named (by simp)
          · omega

/-- **One statement more.** -/
theorem Levels.follow {scopes : Scopes α} (levels : Levels actions count entity scopes.frames)
    (depth : scopes.frames.length = depthAt actions count + 1)
    (here : actions[count]? = some action) :
    Levels actions (count + 1) entity (scopes.follow action (entity count)).frames ∧
      (scopes.follow action (entity count)).frames.length = depthAt actions (count + 1) + 1 := by
  obtain ⟨frames⟩ := scopes
  have next := depthAt_succ here
  by_cases enters : action = .enterScope
  · -- No declaration stands at the depth of the new frame yet.
    subst enters
    have deeper : depthAt actions (count + 1) = depthAt actions count + 1 := next
    refine ⟨⟨?_, levels.keep here (by omega) (.inl rfl)⟩, ?_⟩
    · intro found
      refine iff_of_false (by simp [Scopes.destructionOrder]) ?_
      intro held
      obtain ⟨declared, inForce, level, -⟩ := held
      rcases (inForce_succ_iff here).mp inForce with ⟨before, -⟩ | ⟨-, name, named⟩
      · have shallow := before.depthAt_le
        have size : frames.length = depthAt actions count + 1 := depth
        omega
      · exact absurd named (by simp [Action.declaredName])
    · show frames.length + 1 = _
      rw [deeper, ← depth]
  · by_cases exits : action = .exitScope
    · -- The innermost frame goes, unless it is the only one.
      subst exits
      have higher : depthAt actions (count + 1) = depthAt actions count - 1 := next
      cases frames with
      | nil => exact absurd depth (by simp)
      | cons frame outer =>
          rw [List.length_cons] at depth
          cases outer with
          | nil =>
              rw [List.length_nil] at depth
              have kept := levels.keep here (by rw [List.length_singleton]; omega) (.inl rfl)
              exact ⟨kept, by rw [higher]; show 1 = _; omega⟩
          | cons inner outer =>
              rw [List.length_cons] at depth
              have kept := levels.2.keep here (by rw [List.length_cons]; omega) (.inl rfl)
              exact ⟨kept, by rw [higher]; show outer.length + 1 = _; omega⟩
    · have same : depthAt actions (count + 1) = depthAt actions count :=
        next.trans (depthAfter_eq enters exits _)
      rw [Scopes.follow_of_declaredName enters exits]
      cases named : action.declaredName with
      | none =>
          rw [same]
          exact ⟨levels.keep here (by omega) (.inl named), depth⟩
      | some name =>
          cases frames with
          | nil => exact absurd depth (by simp)
          | cons frame outer =>
              rw [List.length_cons] at depth
              have kept := levels.2.keep here (by omega) (.inr (by omega))
              refine ⟨⟨?_, kept⟩, by rw [same]; exact depth⟩
              -- The new declaration stands at the depth of the innermost frame.
              intro found
              show found ∈ entity count :: Scopes.destructionOrder frame ↔ _
              rw [List.mem_cons, levels.1]
              constructor
              · intro either
                obtain rfl | ⟨declared, inForce, level, same'⟩ := either
                · have inForce := (inForce_succ_iff here).mpr (.inr ⟨rfl, name, named⟩)
                  exact ⟨count, inForce, by omega, rfl⟩
                · have high := inForce.depthAt_le
                  exact ⟨declared, (inForce_succ_iff here).mpr (.inl ⟨inForce, by omega⟩), level,
                    same'⟩
              · intro held
                obtain ⟨declared, inForce, level, same'⟩ := held
                rcases (inForce_succ_iff here).mp inForce with ⟨before, -⟩ | ⟨rfl, -⟩
                · exact .inr ⟨declared, before, level, same'⟩
                · exact .inl same'.symm

/-- What stands in some frame, if the frames reach up to the depth that is open. -/
theorem Levels.mem_iff {frames : List (Frame α)} (levels : Levels actions count entity frames)
    {found : α} :
    found ∈ frames.flatMap Scopes.destructionOrder ↔
      ∃ declared, InForce actions count declared ∧ depthAt actions declared < frames.length ∧
        entity declared = found := by
  induction frames with
  | nil => simp
  | cons frame outer ih =>
      rw [List.flatMap_cons, List.mem_append, levels.1, ih levels.2, List.length_cons]
      constructor
      · intro either
        obtain ⟨declared, inForce, level, same⟩ | ⟨declared, inForce, level, same⟩ := either
        · exact ⟨declared, inForce, by omega, same⟩
        · exact ⟨declared, inForce, by omega, same⟩
      · intro held
        obtain ⟨declared, inForce, level, same⟩ := held
        by_cases innermost : depthAt actions declared = outer.length
        · exact .inl ⟨declared, inForce, innermost, same⟩
        · exact .inr ⟨declared, inForce, by omega, same⟩

end Lexical

/-! ## The frames of the machine -/

namespace Lexical

/-- What the machine takes the entity that is declared at `index` for. -/
def denotedAt (actions : List Action) (index : Nat) : Denoted :=
  (entityAt actions index).denoted

end Lexical

namespace Evaluation

variable {actions : List Action} {count : Nat} {machine : Machine}

/-- What a statement puts into the frames of the machine is what it is said to declare. -/
theorem denotedAt_eq {action : Action} (here : actions[count]? = some action)
    (reached : machineAfter {} (actions.take count) = .ok machine) :
    (if action.isReference then .reference machine.targets.size
      else .binding machine.slots.size) = denotedAt actions count := by
  have bound := (List.getElem?_eq_some_iff.mp here).1
  obtain ⟨slots, targets⟩ := size_of_reached (Nat.le_of_lt bound) reached
  rw [denotedAt, entityAt_of_getElem? here, slots, targets]
  split <;> rfl

theorem levels_of_reached (bound : count ≤ actions.length)
    (reached : machineAfter {} (actions.take count) = .ok machine) :
    Levels actions count (denotedAt actions) machine.scopes.frames ∧
      machine.scopes.frames.length = depthAt actions count + 1 := by
  induction count generalizing machine with
  | zero =>
      obtain rfl : {} = machine := Except.ok.inj reached
      refine ⟨⟨?_, trivial⟩, rfl⟩
      intro found
      refine iff_of_false (by simp [Scopes.destructionOrder]) ?_
      intro held
      obtain ⟨declared, inForce, -⟩ := held
      exact absurd inForce.before (Nat.not_lt_zero declared)
  | succ count ih =>
      have here := List.getElem?_eq_getElem bound
      obtain ⟨before, reading, reached', stepped⟩ := exists_step_of_reached here reached
      obtain ⟨levels, depth⟩ := ih (by omega) reached'
      rw [(Machine.Declares.of_step stepped).scopes, denotedAt_eq here reached']
      exact levels.follow depth here

/-- **The frames of the machine** hold what the declarations in force declare. -/
theorem mem_frames_iff (bound : count ≤ actions.length)
    (reached : machineAfter {} (actions.take count) = .ok machine) {found : Denoted} :
    found ∈ machine.scopes.frames.flatMap Scopes.destructionOrder ↔
      ∃ declared, InForce actions count declared ∧ denotedAt actions declared = found := by
  obtain ⟨levels, depth⟩ := levels_of_reached bound reached
  rw [levels.mem_iff]
  apply exists_congr
  intro declared
  constructor
  · intro held
    exact ⟨held.1, held.2.2⟩
  · intro held
    have level := held.1.depthAt_le
    exact ⟨held.1, by omega, held.2⟩

end Evaluation

/-! ## Names -/

namespace Scopes

variable {α : Type}

/-- The scopes without the declarations of blank names. -/
def visible (scopes : Scopes α) : Scopes α :=
  { frames := scopes.frames.map (List.filter fun entry => !Text.isBlank entry.1) }

theorem lookup_filter_visible {name : String} (named : Text.isBlank name = false)
    (frame : Frame α) :
    List.lookup name (frame.filter fun entry => !Text.isBlank entry.1) =
      List.lookup name frame := by
  induction frame with
  | nil => rfl
  | cons entry rest ih =>
      obtain ⟨first, found⟩ := entry
      rw [List.filter_cons, lookup_cons_ite]
      split
      · rw [lookup_cons_ite, ih]
      · rename_i blank
        -- A blank name is not the one that is looked for.
        have different : name ≠ first := by
          rintro rfl
          simp [named] at blank
        rw [ih, if_neg different]

theorem lookup_visible {name : String} (named : Text.isBlank name = false) (scopes : Scopes α) :
    scopes.visible.lookup name = scopes.lookup name := by
  obtain ⟨frames⟩ := scopes
  show (frames.map _).findSome? _ = frames.findSome? _
  induction frames with
  | nil => rfl
  | cons frame outer ih =>
      rw [List.map_cons, List.findSome?_cons, List.findSome?_cons, lookup_filter_visible named, ih]

/-- Without blank names the frames are changed as those of validation are. -/
theorem visible_follow (scopes : Scopes α) (action : Action) (entity : α) :
    (scopes.follow action entity).visible = scopes.visible.pass action entity := by
  obtain ⟨frames⟩ := scopes
  by_cases enters : action = .enterScope
  · rw [enters]
    rfl
  · by_cases exits : action = .exitScope
    · rw [exits]
      match frames with
      | [] => rfl
      | [_] => rfl
      | _ :: _ :: _ => rfl
    · rw [follow_of_declaredName enters exits, pass_of_declares enters exits, Action.declares]
      cases action.declaredName with
      | none => rfl
      | some name =>
          cases blank : Text.isBlank name with
          | true =>
              rw [Option.filter_some_neg (by simp [blank])]
              cases frames with
              | nil => rfl
              | cons frame outer => simp [visible, declare, blank]
          | false =>
              rw [Option.filter_some_pos (by simp [blank])]
              cases frames with
              | nil => rfl
              | cons frame outer => simp [visible, declare, blank]

end Scopes

namespace Evaluation

variable {actions : List Action} {count : Nat} {machine : Machine}

theorem visible_of_reached (bound : count ≤ actions.length)
    (reached : machineAfter {} (actions.take count) = .ok machine) :
    machine.scopes.visible = (scopesAt actions count).map (denotedAt actions) := by
  induction count generalizing machine with
  | zero =>
      obtain rfl : {} = machine := Except.ok.inj reached
      rfl
  | succ count ih =>
      have here := List.getElem?_eq_getElem bound
      obtain ⟨before, reading, reached', stepped⟩ := exists_step_of_reached here reached
      rw [(Machine.Declares.of_step stepped).scopes, denotedAt_eq here reached',
        Scopes.visible_follow, ih (by omega) reached', scopesAt_succ here, Scopes.map_pass]

/-- **A name means what it resolves to**, in any program, unless it is blank. -/
theorem lookup_of_reached (bound : count ≤ actions.length)
    (reached : machineAfter {} (actions.take count) = .ok machine) {name : String}
    (named : Text.isBlank name = false) :
    machine.scopes.lookup name = (resolve actions count name).map (denotedAt actions) := by
  rw [← Scopes.lookup_visible named, visible_of_reached bound reached, Scopes.lookup_map,
    lookup_scopesAt]

end Evaluation

end Lending
