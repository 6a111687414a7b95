import Lending.Loans
import Lending.Proofs.Containers
import Mathlib.Data.List.Nodup
import Mathlib.Logic.Function.Basic

/-!
# Laws of the loan table

What the operations of the table do to the loans that can be read off it:

* **entries** — setting or removing the entry of one binding leaves every other entry alone
  (`find?_put`, `find?_remove`), and giving a loan back never stops the tracking of a binding;
* **one binding** — who holds a binding after a loan is granted or given back
  (`mem_holders_lend`, `mem_holders_giveBack`), and of which kind its loans are;
* **the ledger** — a table seen from the side of the references: for each reference the loan that
  it holds. `Records` says that table and ledger tell the same, and granting, giving back and
  removing each change the ledger at the references concerned and nowhere else.
-/

namespace Lending

/-- The references among holders. -/
theorem mem_filterMap_reference? {holders : List Holder} {id : ReferenceId} :
    id ∈ holders.filterMap Holder.reference? ↔ .reference id ∈ holders := by
  rw [List.mem_filterMap]
  constructor
  · rintro ⟨holder, held, same⟩
    cases holder with
    | temporary => exact absurd same (by simp [Holder.reference?])
    | reference other =>
        rw [Holder.reference?, Option.some.injEq] at same
        rw [← same]
        exact held
  · intro held
    exact ⟨.reference id, held, rfl⟩

/-! ## Entries -/

namespace LoanTable

theorem lookup_putEntry (binding other : BindingId) (state : LoanState)
    (entries : List (BindingId × LoanState)) :
    (putEntry binding state entries).lookup other =
      if other = binding then some state else entries.lookup other := by
  induction entries with
  | nil => exact lookup_cons_ite other binding state []
  | cons entry rest ih =>
      obtain ⟨first, kept⟩ := entry
      by_cases here : first = binding
      · subst here
        rw [putEntry, if_pos rfl, lookup_cons_ite, lookup_cons_ite]
        split <;> rfl
      · rw [putEntry, if_neg here, lookup_cons_ite, lookup_cons_ite, ih]
        by_cases found : other = first
        · subst found
          rw [if_pos rfl, if_pos rfl, if_neg here]
        · rw [if_neg found, if_neg found]

@[simp]
theorem find?_put (table : LoanTable) (binding other : BindingId) (state : LoanState) :
    (table.put binding state).find? other =
      if other = binding then some state else table.find? other :=
  lookup_putEntry binding other state table.entries

@[simp]
theorem state_put (table : LoanTable) (binding other : BindingId) (state : LoanState) :
    (table.put binding state).state other =
      if other = binding then state else table.state other := by
  unfold LoanTable.state
  rw [find?_put]
  split <;> rfl

theorem lookup_filter_ne (binding other : BindingId) (entries : List (BindingId × LoanState)) :
    (entries.filter fun entry => entry.1 != binding).lookup other =
      if other = binding then none else entries.lookup other := by
  induction entries with
  | nil => simp
  | cons entry rest ih =>
      obtain ⟨first, kept⟩ := entry
      by_cases here : first = binding
      · subst here
        rw [List.filter_cons_of_neg (by simp), ih, lookup_cons_ite]
        split <;> rfl
      · rw [List.filter_cons_of_pos (by simpa using here), lookup_cons_ite, ih,
          lookup_cons_ite]
        by_cases found : other = first
        · subst found
          rw [if_pos rfl, if_pos rfl, if_neg here]
        · rw [if_neg found, if_neg found]

@[simp]
theorem find?_remove (table : LoanTable) (binding other : BindingId) :
    (table.remove binding).find? other =
      if other = binding then none else table.find? other :=
  lookup_filter_ne binding other table.entries

@[simp]
theorem state_remove (table : LoanTable) (binding other : BindingId) :
    (table.remove binding).state other =
      if other = binding then .free else table.state other := by
  unfold LoanTable.state
  rw [find?_remove]
  split <;> rfl

theorem state_of_find? {table : LoanTable} {binding : BindingId} {state : LoanState}
    (found : table.find? binding = some state) : table.state binding = state := by
  unfold LoanTable.state
  rw [found]
  rfl

/-- A binding that is lent out is tracked. -/
theorem isSome_find?_of_kind? {table : LoanTable} {binding : BindingId} {kind : BorrowKind}
    (lent : (table.state binding).kind? = some kind) : (table.find? binding).isSome := by
  cases found : table.find? binding with
  | none =>
      unfold LoanTable.state at lent
      rw [found] at lent
      exact absurd lent (by simp [LoanState.kind?])
  | some state => rfl

theorem putEntry_putEntry (binding : BindingId) (first second : LoanState)
    (entries : List (BindingId × LoanState)) :
    putEntry binding second (putEntry binding first entries) = putEntry binding second entries := by
  induction entries with
  | nil => simp [putEntry]
  | cons entry rest ih =>
      obtain ⟨other, kept⟩ := entry
      by_cases here : other = binding
      · simp [putEntry, here]
      · simp [putEntry, here, ih]

theorem putEntry_of_lookup {binding : BindingId} {state : LoanState}
    {entries : List (BindingId × LoanState)} (found : entries.lookup binding = some state) :
    putEntry binding state entries = entries := by
  induction entries with
  | nil => simp at found
  | cons entry rest ih =>
      obtain ⟨other, kept⟩ := entry
      rw [lookup_cons_ite] at found
      by_cases here : binding = other
      · rw [if_pos here, Option.some.injEq] at found
        rw [putEntry, if_pos here.symm, here, found]
      · rw [if_neg here] at found
        rw [putEntry, if_neg (Ne.symm here), ih found]

/-- Of two settings of one entry the second counts. -/
theorem put_put (table : LoanTable) (binding : BindingId) (first second : LoanState) :
    (table.put binding first).put binding second = table.put binding second := by
  simp only [put, putEntry_putEntry]

/-- Setting an entry to what it is changes nothing. -/
theorem put_of_find? {table : LoanTable} {binding : BindingId} {state : LoanState}
    (found : table.find? binding = some state) : table.put binding state = table := by
  simp only [put, putEntry_of_lookup found]

end LoanTable

/-! ## The loans of one binding -/

namespace LoanState

/-- A loan state that can stand between two statements: shared loans have a holder and none twice,
and no read that borrows for itself is left over. -/
def Settled : LoanState → Prop
  | .free => True
  | .sharedBy holders => holders ≠ [] ∧ holders.Nodup ∧ .temporary ∉ holders
  | .exclusiveBy holder => holder ≠ .temporary

theorem Settled.temporary_not_mem {state : LoanState} (settled : state.Settled) :
    Holder.temporary ∉ state.holders := by
  cases state with
  | free => simp [holders]
  | sharedBy holders => exact settled.2.2
  | exclusiveBy holder => simpa [holders] using Ne.symm settled

theorem exists_holder_of_kind? {state : LoanState} (exclusive : state.kind? = some .exclusive) :
    ∃ holder, state = .exclusiveBy holder := by
  cases state with
  | free => exact absurd exclusive (by simp [kind?])
  | sharedBy holders => exact absurd exclusive (by simp [kind?])
  | exclusiveBy holder => exact ⟨holder, rfl⟩

theorem giveBack_sharedBy (held : List Holder) (holder : Holder) :
    (LoanState.sharedBy held).giveBack holder =
      if (held.filter fun other => other != holder) = [] then .free
      else .sharedBy (held.filter fun other => other != holder) := by
  simp only [giveBack]
  cases held.filter fun other => other != holder with
  | nil => rfl
  | cons first rest => rfl

/-- Giving back takes the holder off the list, and keeps the order of the others. -/
theorem holders_giveBack (state : LoanState) (holder : Holder) :
    (state.giveBack holder).holders = state.holders.filter fun held => held != holder := by
  cases state with
  | free => rfl
  | sharedBy held =>
      rw [giveBack_sharedBy]
      split
      · rename_i none
        exact none.symm
      · rfl
  | exclusiveBy held =>
      by_cases same : held = holder
      · simp [giveBack, same, holders]
      · simp [giveBack, same, holders]

theorem mem_holders_giveBack (state : LoanState) (holder other : Holder) :
    other ∈ (state.giveBack holder).holders ↔ other ∈ state.holders ∧ other ≠ holder := by
  rw [holders_giveBack]
  simp

/-- Nobody is left only when the binding is free. -/
theorem giveBack_eq_free {state : LoanState} {holder : Holder}
    (none : (state.giveBack holder).holders = []) : state.giveBack holder = .free := by
  cases state with
  | free => rfl
  | sharedBy held =>
      rw [holders_giveBack] at none
      rw [giveBack_sharedBy]
      exact if_pos none
  | exclusiveBy held =>
      by_cases same : held = holder
      · exact if_pos same
      · simp [giveBack, same, holders] at none

/-- As long as somebody is left, the kind of the loans stays. -/
theorem kind?_giveBack {state : LoanState} {holder other : Holder}
    (left : other ∈ (state.giveBack holder).holders) :
    (state.giveBack holder).kind? = state.kind? := by
  cases state with
  | free => rfl
  | sharedBy held =>
      rw [giveBack_sharedBy] at left ⊢
      split at left
      · simp [holders] at left
      · rename_i some
        rw [if_neg some]
        rfl
  | exclusiveBy held =>
      by_cases same : held = holder
      · simp [giveBack, same, holders] at left
      · simp [giveBack, same]

theorem Settled.giveBack {state : LoanState} (settled : state.Settled) (holder : Holder) :
    (state.giveBack holder).Settled := by
  cases state with
  | free => exact settled
  | sharedBy held =>
      obtain ⟨-, nodup, permanent⟩ := settled
      rw [giveBack_sharedBy]
      split
      · trivial
      · rename_i some
        refine ⟨some, nodup.filter _, ?_⟩
        intro temporary
        exact permanent (List.mem_filter.mp temporary).1
  | exclusiveBy held =>
      by_cases same : held = holder
      · simp [LoanState.giveBack, same, Settled]
      · simpa [LoanState.giveBack, same] using settled

/-- What a granted loan makes of the state: it was free, or shared and asked for as shared. -/
theorem lend_cases {state lent : LoanState} {holder : Holder} {kind : BorrowKind}
    (granted : state.lend holder kind = some lent) :
    (state = .free ∧ kind = .exclusive ∧ lent = .exclusiveBy holder) ∨
    (state = .free ∧ kind = .shared ∧ lent = .sharedBy [holder]) ∨
    (∃ held, state = .sharedBy held ∧ kind = .shared ∧
      lent = .sharedBy (if holder ∈ held then held else held ++ [holder])) := by
  cases kind <;> cases state <;> simp_all [lend, lendShared, lendExclusive]

/-- A granted loan adds the holder and nobody else. -/
theorem mem_holders_lend {state lent : LoanState} {holder : Holder} {kind : BorrowKind}
    (granted : state.lend holder kind = some lent) (other : Holder) :
    other ∈ lent.holders ↔ other ∈ state.holders ∨ other = holder := by
  obtain ⟨rfl, -, rfl⟩ | ⟨rfl, -, rfl⟩ | ⟨held, rfl, -, rfl⟩ := lend_cases granted
  · simp [holders]
  · simp [holders]
  · simp only [holders]
    split
    · rename_i already
      constructor
      · exact fun there => .inl there
      · rintro (there | rfl)
        · exact there
        · exact already
    · simp

/-- A new holder comes last. -/
theorem holders_lend {state lent : LoanState} {holder : Holder} {kind : BorrowKind}
    (granted : state.lend holder kind = some lent) (new : holder ∉ state.holders) :
    lent.holders = state.holders ++ [holder] := by
  obtain ⟨rfl, -, rfl⟩ | ⟨rfl, -, rfl⟩ | ⟨held, rfl, -, rfl⟩ := lend_cases granted
  · rfl
  · rfl
  · simp only [holders] at new ⊢
    rw [if_neg new]

/-- Who holds already keeps its place. -/
theorem holders_lend_of_mem {state lent : LoanState} {holder : Holder} {kind : BorrowKind}
    (granted : state.lend holder kind = some lent) (already : holder ∈ state.holders) :
    lent.holders = state.holders := by
  obtain ⟨rfl, -, rfl⟩ | ⟨rfl, -, rfl⟩ | ⟨held, rfl, -, rfl⟩ := lend_cases granted
  · simp [holders] at already
  · simp [holders] at already
  · simp only [holders] at already ⊢
    rw [if_pos already]

/-- A granted loan makes all loans of the binding loans of its kind. -/
theorem kind?_lend {state lent : LoanState} {holder : Holder} {kind : BorrowKind}
    (granted : state.lend holder kind = some lent) : lent.kind? = some kind := by
  obtain ⟨-, rfl, rfl⟩ | ⟨-, rfl, rfl⟩ | ⟨_, -, rfl, rfl⟩ := lend_cases granted <;> rfl

/-- Loans that are out when another one is granted are of the same kind. -/
theorem kind?_of_lend {state lent : LoanState} {holder other : Holder} {kind : BorrowKind}
    (granted : state.lend holder kind = some lent) (out : other ∈ state.holders) :
    state.kind? = some kind := by
  obtain ⟨rfl, -, -⟩ | ⟨rfl, -, -⟩ | ⟨held, rfl, rfl, -⟩ := lend_cases granted
  · simp [holders] at out
  · simp [holders] at out
  · rfl

/-- What stands in the way of a refused request: any loan if it is for an exclusive one, and an
exclusive loan if it is for a shared one. -/
theorem exists_kind?_of_lend_eq_none {state : LoanState} {holder : Holder} {kind : BorrowKind}
    (refused : state.lend holder kind = none) :
    ∃ held, state.kind? = some held ∧ (kind = .shared → held = .exclusive) := by
  cases kind <;> cases state <;> simp_all [lend, lendShared, lendExclusive, kind?]

theorem Settled.lend {state lent : LoanState} {holder : Holder} {kind : BorrowKind}
    (settled : state.Settled) (permanent : holder ≠ .temporary)
    (granted : state.lend holder kind = some lent) : lent.Settled := by
  obtain ⟨-, -, rfl⟩ | ⟨-, -, rfl⟩ | ⟨held, rfl, -, rfl⟩ := lend_cases granted
  · exact permanent
  · exact ⟨by simp, by simp, by simpa using Ne.symm permanent⟩
  · obtain ⟨some, nodup, others⟩ := settled
    split
    · exact ⟨some, nodup, others⟩
    · rename_i new
      refine ⟨by simp, ?_, ?_⟩
      · exact List.nodup_append.mpr ⟨nodup, by simp, by
          intro first there second last
          rw [List.mem_singleton.mp last]
          exact fun same => new (same ▸ there)⟩
      · simpa using ⟨others, Ne.symm permanent⟩

/-- A read that borrows for itself leaves the loans as they were. -/
theorem giveBack_lend_temporary {state lent : LoanState} (settled : state.Settled)
    (granted : state.lend .temporary .shared = some lent) :
    lent.giveBack .temporary = state := by
  obtain ⟨-, kind, -⟩ | ⟨rfl, -, rfl⟩ | ⟨held, rfl, -, rfl⟩ := lend_cases granted
  · exact absurd kind (by decide)
  · decide
  · -- No read is among the holders, so taking the new one out takes out nobody else.
    obtain ⟨some, -, others⟩ := settled
    have kept : (held.filter fun other => other != .temporary) = held := by
      rw [List.filter_eq_self]
      intro other there
      have different : other ≠ .temporary := fun same => others (same ▸ there)
      simpa using different
    rw [if_neg others, giveBack_sharedBy]
    simp [kept, some]

end LoanState

namespace LoanTable

/-! ## Loans granted and given back -/

theorem find?_release (table : LoanTable) (binding other : BindingId) (holder : Holder) :
    (table.release binding holder).2.find? other =
      if other = binding then (table.find? binding).map fun state => state.giveBack holder
      else table.find? other := by
  cases found : table.find? binding with
  | none =>
      simp only [release, found, Option.map_none]
      split
      · rename_i same
        rw [same, found]
      · rfl
  | some state => simp only [release, found, find?_put, Option.map_some]

theorem state_release (table : LoanTable) (binding other : BindingId) (holder : Holder) :
    (table.release binding holder).2.state other =
      if other = binding then (table.state binding).giveBack holder else table.state other := by
  unfold LoanTable.state
  rw [find?_release]
  split
  · -- A binding without an entry counts as free, and giving back leaves it so.
    cases table.find? binding <;> rfl
  · rfl

theorem isSome_find?_release (table : LoanTable) (binding other : BindingId) (holder : Holder) :
    ((table.release binding holder).2.find? other).isSome = (table.find? other).isSome := by
  rw [find?_release]
  split
  · rename_i same
    rw [same, Option.isSome_map]
  · rfl

/-- Giving back says whether there was anything to give back. -/
theorem release_fst (table : LoanTable) (binding : BindingId) (holder : Holder) :
    (table.release binding holder).1 = true ↔ holder ∈ (table.state binding).holders := by
  unfold LoanTable.state
  cases found : table.find? binding with
  | none => simp [release, found, LoanState.holders]
  | some state => simp [release, found]

/-- A request is granted exactly when the state of the binding can be lent. -/
theorem acquire_eq_ok_iff {table after : LoanTable} {binding : BindingId} {holder : Holder}
    {kind : BorrowKind} :
    table.acquire binding holder kind = .ok after ↔
      ∃ lent, (table.state binding).lend holder kind = some lent ∧
        after = table.put binding lent := by
  unfold acquire
  cases answer : (table.state binding).lend holder kind with
  | none => simp [answer]
  | some lent => simp [answer, eq_comm]

/-- A refusal tells what was asked for and what is out. -/
theorem acquire_eq_error_iff {table : LoanTable} {binding : BindingId} {holder : Holder}
    {kind : BorrowKind} {conflict : Conflict} :
    table.acquire binding holder kind = .error conflict ↔
      (table.state binding).lend holder kind = none ∧
        conflict = .against kind (table.state binding) := by
  unfold acquire
  cases answer : (table.state binding).lend holder kind with
  | none => simp [answer, eq_comm]
  | some lent => simp [answer]

/-- A read that borrows for itself leaves the table as it was. -/
theorem release_acquire_temporary {table after : LoanTable} {binding : BindingId}
    (tracked : (table.find? binding).isSome) (settled : (table.state binding).Settled)
    (granted : table.acquire binding .temporary .shared = .ok after) :
    (after.release binding .temporary).2 = table := by
  obtain ⟨state, found⟩ := Option.isSome_iff_exists.mp tracked
  obtain ⟨lent, answer, rfl⟩ := acquire_eq_ok_iff.mp granted
  have back := LoanState.giveBack_lend_temporary settled answer
  have entry : (table.put binding lent).find? binding = some lent := by simp
  simp only [release, entry, put_put, back]
  exact put_of_find? (by rw [found, state_of_find? found])

end LoanTable

/-! ## The ledger -/

/-- For each reference the binding that it holds, and the kind of its loan. -/
abbrev Ledger := ReferenceId → Option (BindingId × BorrowKind)

namespace LoanTable

/-- The table and the ledger tell the same, and no loan state is left in between. -/
structure Records (table : LoanTable) (ledger : Ledger) : Prop where
  /-- The references that hold a binding are those whose loan is of it. -/
  holder_iff : ∀ id binding, .reference id ∈ (table.state binding).holders ↔
    ∃ kind, ledger id = some (binding, kind)
  /-- All loans of one binding are of the kind that the table has for it. -/
  kind?_eq : ∀ {id binding kind}, ledger id = some (binding, kind) →
    (table.state binding).kind? = some kind
  settled : ∀ binding, (table.state binding).Settled

variable {table after : LoanTable} {ledger : Ledger}

theorem Records.of_state_eq (records : table.Records ledger)
    (same : ∀ binding, after.state binding = table.state binding) : after.Records ledger where
  holder_iff := by
    intro id binding
    rw [same]
    exact records.holder_iff id binding
  kind?_eq := by
    intro id binding kind entry
    rw [same]
    exact records.kind?_eq entry
  settled := by
    intro binding
    rw [same]
    exact records.settled binding

/-- Giving a loan back crosses out the entry of its reference. -/
theorem Records.release (records : table.Records ledger) {id : ReferenceId}
    {binding : BindingId} {kind : BorrowKind} (entry : ledger id = some (binding, kind)) :
    (table.release binding (.reference id)).2.Records (Function.update ledger id none) where
  holder_iff := by
    intro other target
    rw [state_release]
    by_cases same : other = id
    · subst same
      rw [Function.update_self]
      split
      · simp [LoanState.mem_holders_giveBack]
      · rename_i elsewhere
        rw [records.holder_iff, entry]
        simpa using Ne.symm elsewhere
    · rw [Function.update_of_ne same, ← records.holder_iff]
      split
      · rename_i here
        subst here
        simp [LoanState.mem_holders_giveBack, same]
      · rfl
  kind?_eq := by
    intro other target kind' entry'
    have same : other ≠ id := by
      rintro rfl
      simp at entry'
    rw [Function.update_of_ne same] at entry'
    have held := (records.holder_iff other target).mpr ⟨kind', entry'⟩
    rw [state_release]
    split
    · rename_i here
      subst here
      -- Another reference still holds the binding, so its loans keep their kind.
      have left := (LoanState.mem_holders_giveBack _ (.reference id) _).mpr
        ⟨held, by simpa using same⟩
      rw [LoanState.kind?_giveBack left]
      exact records.kind?_eq entry'
    · exact records.kind?_eq entry'
  settled := by
    intro target
    rw [state_release]
    split
    · exact (records.settled binding).giveBack _
    · exact records.settled target

/-- A granted loan is entered for its reference, which held nothing. -/
theorem Records.acquire (records : table.Records ledger) {id : ReferenceId}
    {binding : BindingId} {kind : BorrowKind} (none : ledger id = none)
    (granted : table.acquire binding (.reference id) kind = .ok after) :
    after.Records (Function.update ledger id (some (binding, kind))) := by
  obtain ⟨lent, answer, rfl⟩ := acquire_eq_ok_iff.mp granted
  refine ⟨?_, ?_, ?_⟩
  · intro other target
    rw [state_put]
    by_cases same : other = id
    · subst same
      rw [Function.update_self]
      split
      · rename_i here
        simp [LoanState.mem_holders_lend answer, here]
      · rename_i elsewhere
        rw [records.holder_iff, none]
        simpa using Ne.symm elsewhere
    · rw [Function.update_of_ne same, ← records.holder_iff]
      split
      · rename_i here
        simp [LoanState.mem_holders_lend answer, here, same]
      · rfl
  · intro other target kind' entry
    rw [state_put]
    by_cases same : other = id
    · subst same
      rw [Function.update_self, Option.some.injEq, Prod.mk.injEq] at entry
      obtain ⟨rfl, rfl⟩ := entry
      rw [if_pos rfl]
      exact LoanState.kind?_lend answer
    · rw [Function.update_of_ne same] at entry
      split
      · rename_i here
        subst here
        -- The loan that was out already let the new one pass, so they are of one kind.
        have held := (records.holder_iff other target).mpr ⟨kind', entry⟩
        rw [LoanState.kind?_lend answer, ← LoanState.kind?_of_lend answer held]
        exact records.kind?_eq entry
      · exact records.kind?_eq entry
  · intro target
    rw [state_put]
    split
    · exact (records.settled binding).lend (by simp) answer
    · exact records.settled target

/-- Removing a binding crosses out the entries of all references that hold it. -/
theorem Records.remove (records : table.Records ledger) (binding : BindingId) :
    (table.remove binding).Records fun id => (ledger id).filter fun loan => loan.1 ≠ binding where
  holder_iff := by
    intro id target
    rw [state_remove]
    split
    · rename_i here
      simp [LoanState.holders, here, Option.filter_eq_some_iff]
    · rename_i elsewhere
      simp [records.holder_iff, Option.filter_eq_some_iff, elsewhere]
  kind?_eq := by
    intro id target kind entry
    obtain ⟨entry, elsewhere⟩ := Option.filter_eq_some_iff.mp entry
    rw [state_remove, if_neg (by simpa using elsewhere)]
    exact records.kind?_eq entry
  settled := by
    intro target
    rw [state_remove]
    split
    · trivial
    · exact records.settled target

/-- An exclusive loan has no other holder. -/
theorem Records.holders_of_exclusive (records : table.Records ledger) {id : ReferenceId}
    {binding : BindingId} (entry : ledger id = some (binding, .exclusive)) :
    (table.state binding).holders = [.reference id] := by
  have held := (records.holder_iff id binding).mpr ⟨_, entry⟩
  obtain ⟨holder, exclusive⟩ := LoanState.exists_holder_of_kind? (records.kind?_eq entry)
  rw [exclusive, LoanState.holders, List.mem_singleton] at held
  rw [exclusive, held]
  rfl

/-- Whoever holds an exclusive loan is the only holder. -/
theorem Records.eq_of_exclusive (records : table.Records ledger) {id other : ReferenceId}
    {binding : BindingId} {kind : BorrowKind} (entry : ledger id = some (binding, .exclusive))
    (entry' : ledger other = some (binding, kind)) : other = id := by
  have held := (records.holder_iff other binding).mpr ⟨_, entry'⟩
  rw [records.holders_of_exclusive entry, List.mem_singleton] at held
  exact Holder.reference.inj held

end LoanTable

end Lending
