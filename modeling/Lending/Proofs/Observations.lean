import Lending.Proofs.Declarations
import Lending.Proofs.Footprint
import Lending.Proofs.Order

/-!
# Reads see the latest write

What a program that runs to its end is observed to read (`Program.reads_see_latest_write`). A slot
may be written under another name than the one it is read by: through a reference that has been
rebound since, from a scope that has been left, or while its own name is hidden. So the law is about
slots, and about the machine in which each statement was carried out:

* **one statement** — the value of a slot is the one that the statement writes to it, or the one
  that was there before (`writes_or_kept`), and a read sees the value of the slot that it leads to
  (`exists_slot_of_reading`);
* **many statements** — the value of a slot is that of the latest write to it
  (`latestWrite_of_reached`), and each observation was made by the statement with its index
  (`exists_step_of_mem_trace`).
-/

namespace Lending

/-- The name under which what an action reads is observed, if it is a read. -/
def Action.observedAs : Action → Option String
  | .readBinding name => some name
  | .readThrough (.borrow name) => some name
  | .readThrough (.deref name) => some ("*" ++ name)
  | _ => none

namespace Evaluation

/-- In the given machine the action writes the value to the slot: as the initial value of the next
slot, or by an assignment to a binding or through a reference. -/
inductive Machine.Writes (machine : Machine) : Action → Nat → Word → Prop
  | init {name : String} {isMutable : Bool} {tag : String} {expr : Expr} {value : Word} :
      machine.eval expr = .ok value →
      Writes machine (.declareBinding name isMutable tag (some expr)) machine.slots.size value
  | assignBinding {name : String} {expr : Expr} {value : Word} {slot : Nat} :
      machine.eval expr = .ok value → machine.scopes.lookup name = some (.binding slot) →
      Writes machine (.assignBinding name expr) slot value
  | assignThrough {name : String} {expr : Expr} {value : Word} {id slot : Nat} :
      machine.eval expr = .ok value → machine.scopes.lookup name = some (.reference id) →
      machine.targets[id]? = some slot → Writes machine (.assignThrough name expr) slot value

/-- In the given machine the action is a read that leads to the slot. -/
inductive Machine.Reads (machine : Machine) : Action → Nat → Prop
  | binding {name : String} {slot : Nat} :
      machine.scopes.lookup name = some (.binding slot) → Reads machine (.readBinding name) slot
  | borrow {name : String} {slot : Nat} :
      machine.scopes.lookup name = some (.binding slot) →
      Reads machine (.readThrough (.borrow name)) slot
  | deref {name : String} {id slot : Nat} :
      machine.scopes.lookup name = some (.reference id) → machine.targets[id]? = some slot →
      Reads machine (.readThrough (.deref name)) slot

/-- The statement at `index`, carried out after those before it, writes the value to the slot. -/
def WritesAt (actions : List Action) (index slot : Nat) (value : Word) : Prop :=
  ∃ machine action, machineAfter {} (actions.take index) = .ok machine ∧
    actions[index]? = some action ∧ machine.Writes action slot value

/-- The statement at `index`, carried out after those before it, reads the slot. -/
def ReadsAt (actions : List Action) (index slot : Nat) : Prop :=
  ∃ machine action, machineAfter {} (actions.take index) = .ok machine ∧
    actions[index]? = some action ∧ machine.Reads action slot

/-- Of the first `count` statements, the last one that writes the slot writes the value. -/
def LatestWrite (actions : List Action) (count slot : Nat) (value : Word) : Prop :=
  ∃ written < count, WritesAt actions written slot value ∧
    ∀ later < count, written < later → ∀ other, ¬ WritesAt actions later slot other

/-- The reads among the statements, each with its index and the name under which it is observed. -/
def readsOf (actions : List Action) (index : Nat) : List (Nat × String) :=
  (actions.zipIdx index).filterMap fun statement =>
    statement.1.observedAs.map fun name => (statement.2, name)

/-! ## One statement -/

namespace Machine

variable {machine after : Machine} {action : Action} {slot : Nat}

theorem valueAt_store_self (value : Word) :
    (machine.store slot value).valueAt slot = (machine.valueAt slot).map fun _ => some value :=
  valueAt_withValue (some value)

theorem valueAt_eq_of_store {value stored : Word}
    (holds : (machine.store slot stored).valueAt slot = some (some value)) : stored = value := by
  rw [valueAt_store_self] at holds
  obtain ⟨_, -, same⟩ := Option.map_eq_some_iff.mp holds
  exact Option.some.inj same

theorem lt_size_of_valueAt {held : Option Word} (holds : machine.valueAt slot = some held) :
    slot < machine.slots.size := by
  obtain ⟨found, there, -⟩ := Option.map_eq_some_iff.mp holds
  exact (Array.getElem?_eq_some_iff.mp there).1

/-- A slot that an assignment leads to is written. -/
theorem Writes.of_reach {reading : Option Reading} {mention : NameUse}
    (stepped : machine.step action = .ok (after, reading)) (assigned : mention ∈ action.writes)
    (led : machine.reach mention = .ok slot) : ∃ value, machine.Writes action slot value := by
  cases Effect.of_step stepped with
  | @assignBinding name expr value other computed found =>
      obtain rfl := List.mem_singleton.mp assigned
      exact ⟨value, .assignBinding computed (bindingSlot_eq_ok_iff.mp led)⟩
  | @assignThrough name expr value other computed found =>
      obtain rfl := List.mem_singleton.mp assigned
      obtain ⟨id, meaning, points, -⟩ := derefSlot_eq_ok_iff.mp led
      exact ⟨value, .assignThrough computed meaning points⟩
  | declareBinding | declareReference | rebindReference | readBinding | readBorrowed | readThrough
  | enterScope | exitScope | exitNothing => cases assigned

/-- What a statement writes to a slot is there afterwards. -/
theorem Writes.eq_of_valueAt {reading : Option Reading} {value written : Word}
    (writes : machine.Writes action slot written)
    (stepped : machine.step action = .ok (after, reading))
    (holds : after.valueAt slot = some (some value)) : written = value := by
  cases writes with
  | init computed =>
      obtain ⟨found, computed', rest⟩ := bind_eq_ok_iff.mp stepped
      obtain ⟨rfl, -⟩ := Prod.mk.inj (pure_eq_ok_iff.mp rest)
      have pushed : (machine.slots.push ⟨_, some found, true⟩)[machine.slots.size]?.map Slot.value =
        some (some value) := holds
      rw [Array.getElem?_push_size, Option.map_some] at pushed
      rw [computed] at computed'
      exact (Except.ok.inj computed').trans (Option.some.inj (Option.some.inj pushed))
  | assignBinding computed meaning =>
      obtain ⟨found, computed', rest⟩ := bind_eq_ok_iff.mp stepped
      rw [bindingSlot_eq_ok_iff.mpr meaning] at rest
      obtain ⟨rfl, -⟩ := Prod.mk.inj (pure_eq_ok_iff.mp rest)
      rw [computed] at computed'
      exact (Except.ok.inj computed').trans (valueAt_eq_of_store holds)
  | assignThrough computed meaning points =>
      obtain ⟨found, computed', rest⟩ := bind_eq_ok_iff.mp stepped
      obtain ⟨other, led, rest'⟩ := bind_eq_ok_iff.mp rest
      obtain ⟨rfl, -⟩ := Prod.mk.inj (pure_eq_ok_iff.mp rest')
      -- The reference leads to one slot only.
      obtain ⟨id, meaning', points', -⟩ := derefSlot_eq_ok_iff.mp led
      obtain rfl := Denoted.reference.inj (Option.some.inj (meaning'.symm.trans meaning))
      obtain rfl := Option.some.inj (points'.symm.trans points)
      rw [computed] at computed'
      exact (Except.ok.inj computed').trans (valueAt_eq_of_store holds)

/-- **The value of a slot is the one that the statement writes to it, or the one from before.** -/
theorem writes_or_kept {reading : Option Reading} {value : Word}
    (stepped : machine.step action = .ok (after, reading))
    (holds : after.valueAt slot = some (some value)) :
    machine.Writes action slot value ∨
      (∀ other, ¬ machine.Writes action slot other) ∧
        machine.valueAt slot = some (some value) := by
  by_cases written : ∃ other, machine.Writes action slot other
  · obtain ⟨other, writes⟩ := written
    obtain rfl := writes.eq_of_valueAt stepped holds
    exact .inl writes
  · have silent := not_exists.mp written
    refine .inr ⟨silent, ?_⟩
    -- A new slot that nothing was written to has no value.
    have bound : slot < machine.slots.size := by
      have there := lt_size_of_valueAt holds
      cases Effect.of_step stepped with
      | @declareBinding name isMutable tag init initial computed =>
          rcases Nat.lt_succ_iff_lt_or_eq.mp (there.trans_eq (Array.size_push _)) with older | rfl
          · exact older
          · cases init with
            | none =>
                obtain rfl : none = initial := Except.ok.inj computed
                simp [valueAt, Machine.declareBinding] at holds
            | some expr =>
                obtain ⟨found, computed', -⟩ := bind_eq_ok_iff.mp stepped
                exact absurd (.init computed') (silent found)
      | declareReference | rebindReference | readBinding | readBorrowed | readThrough | enterScope
      | exitNothing => exact there
      | assignBinding | assignThrough =>
          rw [store, Array.size_modify] at there
          exact there
      | @exitScope entities scopes closed =>
          rw [(foldl_kill_frame entities { machine with scopes }).2.2] at there
          exact there
    rw [← valueAt_of_step stepped bound]
    · exact holds
    · intro mention assigned led
      exact written (Writes.of_reach stepped assigned led)

theorem valueAt_of_load {value : Word} (loaded : machine.load slot = .ok value) :
    machine.valueAt slot = some (some value) := by
  unfold load at loaded
  split at loaded
  · cases loaded
  · rename_i found there
    split at loaded
    · rename_i held value'
      obtain rfl := Except.ok.inj loaded
      rw [valueAt, there, Option.map_some, value']
    · cases loaded

/-- **A read sees the value of the slot that it leads to.** -/
theorem exists_slot_of_reading {found : Reading}
    (stepped : machine.step action = .ok (after, some found)) :
    ∃ slot, machine.Reads action slot ∧ machine.valueAt slot = some (some found.value) := by
  cases Effect.of_step stepped with
  | readBinding computed =>
      rw [eval_var] at computed
      obtain ⟨slot, meaning, loaded⟩ := bind_eq_ok_iff.mp computed
      exact ⟨slot, .binding (bindingSlot_eq_ok_iff.mp meaning), valueAt_of_load loaded⟩
  | readBorrowed computed =>
      rw [eval_var] at computed
      obtain ⟨slot, meaning, loaded⟩ := bind_eq_ok_iff.mp computed
      exact ⟨slot, .borrow (bindingSlot_eq_ok_iff.mp meaning), valueAt_of_load loaded⟩
  | readThrough computed =>
      rw [eval_deref] at computed
      obtain ⟨slot, led, loaded⟩ := bind_eq_ok_iff.mp computed
      obtain ⟨id, meaning, points, -⟩ := derefSlot_eq_ok_iff.mp led
      exact ⟨slot, .deref meaning points, valueAt_of_load loaded⟩

/-- The reads are the statements that read something, and they say under which name. -/
theorem name_of_reading {reading : Option Reading}
    (stepped : machine.step action = .ok (after, reading)) :
    reading.map Reading.name = action.observedAs := by
  cases Effect.of_step stepped <;> rfl

end Machine

/-! ## Many statements -/

variable {actions : List Action} {count slot : Nat} {machine : Machine}

/-- **The value of a slot is that of the latest write to it.** -/
theorem latestWrite_of_reached {value : Word} (bound : count ≤ actions.length)
    (reached : machineAfter {} (actions.take count) = .ok machine)
    (holds : machine.valueAt slot = some (some value)) :
    LatestWrite actions count slot value := by
  induction count generalizing machine with
  | zero =>
      obtain rfl : {} = machine := Except.ok.inj reached
      cases holds
  | succ count ih =>
      have here := List.getElem?_eq_getElem bound
      obtain ⟨before, reading, reached', stepped⟩ := exists_step_of_reached here reached
      rcases Machine.writes_or_kept stepped holds with writes | ⟨silent, kept⟩
      · refine ⟨count, by omega, ⟨before, _, reached', here, writes⟩, ?_⟩
        intro later soon after
        omega
      · obtain ⟨written, earlier, writes, latest⟩ := ih (by omega) reached' kept
        refine ⟨written, by omega, writes, ?_⟩
        intro later soon after other writes'
        by_cases last : later = count
        · obtain ⟨before', action, reached'', here', writes''⟩ := writes'
          rw [last] at reached'' here'
          obtain rfl := Except.ok.inj (reached'.symm.trans reached'')
          obtain rfl := Option.some.inj (here.symm.trans here')
          exact silent other writes''
        · exact latest later (by omega) after other writes'

/-- Each observation was made by the statement with its index. -/
theorem exists_step_of_mem_trace {index : Nat} {trace : List Observation}
    (ran : runFrom machine index actions = .ok trace) {observation : Observation}
    (seen : observation ∈ trace) :
    ∃ count before action after, observation.index = index + count ∧
      machineAfter machine (actions.take count) = .ok before ∧ actions[count]? = some action ∧
      before.step action = .ok (after, some ⟨observation.name, observation.value⟩) := by
  induction actions generalizing machine index trace with
  | nil =>
      obtain rfl : [] = trace := Except.ok.inj ran
      cases seen
  | cons action rest ih =>
      obtain ⟨next, reading, later, stepped, ran', rfl⟩ := runFrom_cons_eq_ok_iff.mp ran
      rcases List.mem_append.mp seen with now | soon
      · obtain ⟨found, rfl, rfl⟩ := Option.map_eq_some_iff.mp (Option.mem_toList.mp now)
        exact ⟨0, machine, action, next, rfl, rfl, rfl, stepped⟩
      · obtain ⟨count, before, action', after, placed, reached, here, stepped'⟩ := ih ran' soon
        refine ⟨count + 1, before, action', after, by omega, ?_, here, stepped'⟩
        rw [List.take_succ_cons, machineAfter_cons, stepped]
        exact reached

theorem readsOf_cons (action : Action) (rest : List Action) (index : Nat) :
    readsOf (action :: rest) index =
      (action.observedAs.map fun name => (index, name)).toList ++ readsOf rest (index + 1) := by
  rw [readsOf, List.zipIdx_cons, List.filterMap_cons]
  cases action.observedAs <;> rfl

/-- There is one observation for each read, in their order. -/
theorem map_trace {index : Nat} {trace : List Observation}
    (ran : runFrom machine index actions = .ok trace) :
    trace.map (fun observation => (observation.index, observation.name)) =
      readsOf actions index := by
  induction actions generalizing machine index trace with
  | nil =>
      obtain rfl : [] = trace := Except.ok.inj ran
      rfl
  | cons action rest ih =>
      obtain ⟨next, reading, later, stepped, ran', rfl⟩ := runFrom_cons_eq_ok_iff.mp ran
      rw [List.map_append, ih ran', readsOf_cons, ← Machine.name_of_reading stepped]
      cases reading <;> rfl

end Evaluation

open Evaluation

/-- **Reads see the latest write.** If a program runs to its end, then there is one observation for
each of its reads, in the order of the statements and with the index and the name of the read. The
value is the one that was computed by the most recent statement before it that wrote the slot to
which the read leads, be it by a declaration, by an assignment to the binding or through whichever
reference pointed to the slot then. -/
theorem Program.reads_see_latest_write {program : Program} {trace : List Observation}
    (ran : program.run = .ok trace) :
    trace.map (fun observation => (observation.index, observation.name)) =
      readsOf program.actions 0 ∧
    ∀ observation ∈ trace, ∃ slot, ReadsAt program.actions observation.index slot ∧
      LatestWrite program.actions observation.index slot observation.value := by
  refine ⟨map_trace ran, ?_⟩
  intro observation seen
  obtain ⟨count, before, action, after, placed, reached, here, stepped⟩ :=
    exists_step_of_mem_trace ran seen
  rw [Nat.zero_add] at placed
  obtain ⟨slot, reads, holds⟩ := Machine.exists_slot_of_reading stepped
  have bound := Nat.le_of_lt (List.getElem?_eq_some_iff.mp here).1
  rw [placed]
  exact ⟨slot, ⟨before, action, reached, here, reads⟩, latestWrite_of_reached bound reached holds⟩

/-- `let mut a = 7; let r = &a; let mut b = 11; { let mut q = &mut a; let a = 0; *q = *r + b;
rebind q -> b; } read *r; read a;`: the first `a` is written through `q` while its name is
hidden. -/
def overwritten : Program where
  statements := [
    { action := .declareBinding "a" true "i64" (some (.int ⟨7, by decide, by decide⟩)) },
    { action := .declareReference "r" .shared false "a" },
    { action := .declareBinding "b" true "i64" (some (.int ⟨11, by decide, by decide⟩)) },
    { action := .enterScope },
    { action := .declareReference "q" .exclusive true "a" },
    { action := .declareBinding "a" false "i64" (some (.int default)) },
    { action := .assignThrough "q" (.binary .add (.deref "r") (.var "b")) },
    { action := .rebindReference "q" "b" },
    { action := .exitScope },
    { action := .readThrough (.deref "r") },
    { action := .readBinding "a" }]

/-- Both reads see what was written through `q`, which is out of scope and pointed elsewhere at the
end. -/
theorem Program.reads_see_latest_write_overwritten :
    ∃ trace, overwritten.run = .ok trace ∧
      trace.map (fun observation => observation.value.val) = [18, 18] ∧
      trace.map (fun observation => (observation.index, observation.name)) =
        [(9, "*r"), (10, "a")] ∧
      ∀ observation ∈ trace, ∃ slot, ReadsAt overwritten.actions observation.index slot ∧
        LatestWrite overwritten.actions observation.index slot observation.value := by
  obtain ⟨trace, ran, values⟩ : ∃ trace, overwritten.run = .ok trace ∧
      trace.map (fun observation => observation.value.val) = [18, 18] := ⟨_, rfl, by decide⟩
  obtain ⟨reads, latest⟩ := Program.reads_see_latest_write ran
  have listed : readsOf overwritten.actions 0 = [(9, "*r"), (10, "a")] := by decide
  exact ⟨trace, ran, values, reads.trans listed, latest⟩

end Lending
