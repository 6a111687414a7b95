import Lending.Proofs.Loans
import Mathlib.Data.List.Induction

/-!
# The loan table as a function of its calls

The loans of a binding can be read off the calls made to the table, without looking into it:

* **standing acquisitions** — an acquisition that was granted stands until the binding is
  registered anew or removed, or its holder gives back what it holds of it (`Stands`);
* **one binding** — the loans of a binding tell its standing acquisitions: who holds it, in the
  order of their first acquisitions, and by loans of which kind (`Recounts`). Clearing a binding,
  giving back and lending each keep this;
* **all calls** — a call changes the loans of its own binding and no others (`find?_perform`), so
  the table recounts the calls after any number of them (`recounts_after`).
-/

namespace Lending

namespace LoanTable

/-- A call to the table. Acquiring a shared or an exclusive loan is `acquire` with that kind. -/
inductive Call where
  | register (binding : BindingId)
  | remove (binding : BindingId)
  | acquire (binding : BindingId) (holder : Holder) (kind : BorrowKind)
  | release (binding : BindingId) (holder : Holder)
deriving DecidableEq, Repr

namespace Call

/-- The binding that a call is about. -/
def binding : Call → BindingId
  | .register binding => binding
  | .remove binding => binding
  | .acquire binding _ _ => binding
  | .release binding _ => binding

/-- Whether a call ends what `holder` has acquired of `binding` before. -/
def Ends (binding : BindingId) (holder : Holder) : Call → Prop
  | .register other => other = binding
  | .remove other => other = binding
  | .acquire _ _ _ => False
  | .release other who => other = binding ∧ who = holder

theorem Ends.binding_eq {call : Call} {binding : BindingId} {holder : Holder}
    (ends : call.Ends binding holder) : call.binding = binding := by
  cases call with
  | register other => exact ends
  | remove other => exact ends
  | acquire other who kind => exact ends.elim
  | release other who => exact ends.1

end Call

/-- The table after a call. A refused acquisition leaves it as it was. -/
def perform (table : LoanTable) : Call → LoanTable
  | .register binding => table.register binding
  | .remove binding => table.remove binding
  | .acquire binding holder kind => (table.acquire binding holder kind).toOption.getD table
  | .release binding holder => (table.release binding holder).2

/-- The table after some calls, the first of them made to the empty table. -/
def after (calls : List Call) : LoanTable :=
  calls.foldl perform {}

theorem after_concat (calls : List Call) (call : Call) :
    after (calls ++ [call]) = (after calls).perform call := by
  simp [after]

theorem perform_of_granted {table granted : LoanTable} {binding : BindingId} {holder : Holder}
    {kind : BorrowKind} (answer : table.acquire binding holder kind = .ok granted) :
    table.perform (.acquire binding holder kind) = granted := by
  rw [perform, answer]
  rfl

theorem perform_of_refused {table : LoanTable} {binding : BindingId} {holder : Holder}
    {kind : BorrowKind} {conflict : Conflict}
    (answer : table.acquire binding holder kind = .error conflict) :
    table.perform (.acquire binding holder kind) = table := by
  rw [perform, answer]
  rfl

/-- A call leaves the entries of all bindings alone but the one that it is about. -/
theorem find?_perform (table : LoanTable) {call : Call} {other : BindingId}
    (elsewhere : call.binding ≠ other) : (table.perform call).find? other = table.find? other := by
  cases call with
  | register binding =>
      rw [perform, register, find?_put]
      exact if_neg (Ne.symm elsewhere)
  | remove binding =>
      rw [perform, find?_remove]
      exact if_neg (Ne.symm elsewhere)
  | acquire binding holder kind =>
      cases answer : table.acquire binding holder kind with
      | error conflict => rw [perform_of_refused answer]
      | ok granted =>
          obtain ⟨lent, -, rfl⟩ := acquire_eq_ok_iff.mp answer
          rw [perform_of_granted answer, find?_put]
          exact if_neg (Ne.symm elsewhere)
  | release binding holder =>
      rw [perform, find?_release]
      exact if_neg (Ne.symm elsewhere)

/-! ## Standing acquisitions -/

/-- The call at `index` acquired `binding` for `holder`, and no later call has ended that. -/
structure Stands (calls : List Call) (binding : BindingId) (holder : Holder) (kind : BorrowKind)
    (index : Nat) : Prop where
  asked : calls[index]? = some (.acquire binding holder kind)
  granted : ∃ table, (after (calls.take index)).acquire binding holder kind = .ok table
  kept : ∀ later call, index < later → calls[later]? = some call → ¬call.Ends binding holder

variable {calls : List Call} {call : Call} {binding : BindingId} {holder : Holder}
  {kind : BorrowKind} {index : Nat}

theorem Stands.lt_length (stands : Stands calls binding holder kind index) :
    index < calls.length :=
  (List.getElem?_eq_some_iff.mp stands.asked).1

/-- An acquisition made before stands as long as the next call does not end it. -/
theorem stands_concat_of_lt (before : index < calls.length) :
    Stands (calls ++ [call]) binding holder kind index ↔
      Stands calls binding holder kind index ∧ ¬call.Ends binding holder := by
  have same : (calls ++ [call])[index]? = calls[index]? := List.getElem?_append_left before
  have earlier : (calls ++ [call]).take index = calls.take index :=
    List.take_append_of_le_length (Nat.le_of_lt before)
  constructor
  · intro stands
    refine ⟨⟨same ▸ stands.asked, earlier ▸ stands.granted, ?_⟩, ?_⟩
    · intro later next behind here
      have within := (List.getElem?_eq_some_iff.mp here).1
      exact stands.kept later next behind (by rw [List.getElem?_append_left within, here])
    · exact stands.kept calls.length call before (by simp)
  · intro both
    obtain ⟨stands, lasts⟩ := both
    refine ⟨same.trans stands.asked, earlier.symm ▸ stands.granted, ?_⟩
    intro later next behind here
    by_cases within : later < calls.length
    · rw [List.getElem?_append_left within] at here
      exact stands.kept later next behind here
    · have newest : next ∈ [call] := by
        rw [List.getElem?_append_right (Nat.le_of_not_lt within)] at here
        exact List.mem_of_getElem? here
      rw [List.mem_singleton.mp newest]
      exact lasts

/-- The next call makes an acquisition that stands if it is one and is granted. -/
theorem stands_concat_length_iff :
    Stands (calls ++ [call]) binding holder kind calls.length ↔
      call = .acquire binding holder kind ∧
        ∃ table, (after calls).acquire binding holder kind = .ok table := by
  have here : (calls ++ [call])[calls.length]? = some call := by simp
  constructor
  · intro stands
    have granted := stands.granted
    rw [List.take_left] at granted
    exact ⟨Option.some.inj (here.symm.trans stands.asked), granted⟩
  · intro both
    obtain ⟨same, granted⟩ := both
    refine ⟨here.trans (congrArg some same), by rwa [List.take_left], ?_⟩
    intro later next behind there
    have within := (List.getElem?_eq_some_iff.mp there).1
    rw [List.length_append, List.length_singleton] at within
    omega

/-- One more call ends acquisitions or is one itself. -/
theorem stands_concat_iff :
    Stands (calls ++ [call]) binding holder kind index ↔
      (Stands calls binding holder kind index ∧ ¬call.Ends binding holder) ∨
      (index = calls.length ∧ call = .acquire binding holder kind ∧
        ∃ table, (after calls).acquire binding holder kind = .ok table) := by
  constructor
  · intro stands
    have bound := stands.lt_length
    rw [List.length_append, List.length_singleton] at bound
    by_cases last : index = calls.length
    · rw [last] at stands
      exact .inr ⟨last, stands_concat_length_iff.mp stands⟩
    · exact .inl ((stands_concat_of_lt (by omega)).mp stands)
  · intro either
    obtain both | ⟨last, made⟩ := either
    · exact (stands_concat_of_lt both.1.lt_length).mpr both
    · rw [last]
      exact stands_concat_length_iff.mpr made

theorem stands_concat_of_elsewhere (elsewhere : call.binding ≠ binding) :
    Stands (calls ++ [call]) binding holder kind index ↔
      Stands calls binding holder kind index := by
  rw [stands_concat_iff]
  constructor
  · intro either
    obtain ⟨stands, -⟩ | ⟨-, same, -⟩ := either
    · exact stands
    · subst same
      exact absurd rfl elsewhere
  · intro stands
    exact .inl ⟨stands, fun ends => elsewhere ends.binding_eq⟩

/-! ## One binding -/

/-- Of two holders the first one comes first: it has an acquisition before all of the second. -/
def Precedes (stands : Holder → BorrowKind → Nat → Prop) (first second : Holder) : Prop :=
  ∃ kind index, stands first kind index ∧
    ∀ kind' later, stands second kind' later → index < later

/-- The loans of a binding tell which acquisitions stand. -/
structure Recounts (state : LoanState) (stands : Holder → BorrowKind → Nat → Prop) : Prop where
  holder_iff : ∀ holder, holder ∈ state.holders ↔ ∃ kind index, stands holder kind index
  kind_eq : ∀ {holder kind index}, stands holder kind index → state.kind? = some kind
  ordered : state.holders.Pairwise (Precedes stands)
  free : state.holders = [] → state = .free

namespace Recounts

variable {state : LoanState} {stands stands' : Holder → BorrowKind → Nat → Prop}

theorem of_none (none : ∀ holder kind index, ¬stands holder kind index) :
    Recounts .free stands where
  holder_iff := by
    intro holder
    simp [LoanState.holders, none]
  kind_eq := fun standing => absurd standing (none _ _ _)
  ordered := .nil
  free := fun _ => rfl

theorem congr (recounts : Recounts state stands)
    (same : ∀ holder kind index, stands' holder kind index ↔ stands holder kind index) :
    Recounts state stands' := by
  have equal : stands' = stands := by
    funext holder kind index
    exact propext (same holder kind index)
  rw [equal]
  exact recounts

theorem giveBack (recounts : Recounts state stands)
    (left : ∀ other kind index,
      stands' other kind index ↔ stands other kind index ∧ other ≠ holder) :
    Recounts (state.giveBack holder) stands' where
  holder_iff := by
    intro other
    rw [LoanState.mem_holders_giveBack, recounts.holder_iff]
    simp [left]
  kind_eq := by
    intro other kind index standing
    obtain ⟨before, different⟩ := (left other kind index).mp standing
    have held : other ∈ (state.giveBack holder).holders := by
      rw [LoanState.mem_holders_giveBack, recounts.holder_iff]
      exact ⟨⟨kind, index, before⟩, different⟩
    rw [LoanState.kind?_giveBack held]
    exact recounts.kind_eq before
  ordered := by
    rw [LoanState.holders_giveBack]
    refine (recounts.ordered.filter _).imp_of_mem ?_
    intro first second held _ precedes
    obtain ⟨kind, index, standing, earlier⟩ := precedes
    have different : first ≠ holder := by simpa using (List.mem_filter.mp held).2
    refine ⟨kind, index, (left first kind index).mpr ⟨standing, different⟩, ?_⟩
    intro kind' later standing'
    exact earlier kind' later ((left second kind' later).mp standing').1
  free := LoanState.giveBack_eq_free

theorem lend {lent : LoanState} {now : Nat} (recounts : Recounts state stands)
    (granted : state.lend holder kind = some lent)
    (past : ∀ {other kind' index}, stands other kind' index → index < now)
    (added : ∀ other kind' index, stands' other kind' index ↔
      stands other kind' index ∨ (other = holder ∧ kind' = kind ∧ index = now)) :
    Recounts lent stands' := by
  -- An acquisition made now is behind all others, so who came first still does.
  have kept : ∀ {first second}, Precedes stands first second → Precedes stands' first second := by
    intro first second precedes
    obtain ⟨kind', index, standing, earlier⟩ := precedes
    refine ⟨kind', index, (added first kind' index).mpr (.inl standing), ?_⟩
    intro kind'' later standing'
    obtain before | ⟨-, -, rfl⟩ := (added second kind'' later).mp standing'
    · exact earlier kind'' later before
    · exact past standing
  refine ⟨?_, ?_, ?_, ?_⟩
  · intro other
    rw [LoanState.mem_holders_lend granted, recounts.holder_iff]
    constructor
    · intro either
      obtain ⟨kind', index, standing⟩ | rfl := either
      · exact ⟨kind', index, (added other kind' index).mpr (.inl standing)⟩
      · exact ⟨kind, now, (added other kind now).mpr (.inr ⟨rfl, rfl, rfl⟩)⟩
    · intro standing
      obtain ⟨kind', index, standing⟩ := standing
      obtain before | ⟨same, -, -⟩ := (added other kind' index).mp standing
      · exact .inl ⟨kind', index, before⟩
      · exact .inr same
  · intro other kind' index standing
    rw [LoanState.kind?_lend granted]
    obtain before | ⟨-, same, -⟩ := (added other kind' index).mp standing
    · have held : other ∈ state.holders := (recounts.holder_iff other).mpr ⟨kind', index, before⟩
      rw [← recounts.kind_eq before, LoanState.kind?_of_lend granted held]
    · rw [same]
  · by_cases already : holder ∈ state.holders
    · rw [LoanState.holders_lend_of_mem granted already]
      exact recounts.ordered.imp kept
    · rw [LoanState.holders_lend granted already, List.pairwise_append]
      refine ⟨recounts.ordered.imp kept, List.pairwise_singleton _ _, ?_⟩
      intro first held last isLast
      obtain rfl := List.mem_singleton.mp isLast
      obtain ⟨kind', index, standing⟩ := (recounts.holder_iff first).mp held
      refine ⟨kind', index, (added first kind' index).mpr (.inl standing), ?_⟩
      intro kind'' later standing'
      obtain before | ⟨-, -, rfl⟩ := (added last kind'' later).mp standing'
      · exact absurd ((recounts.holder_iff last).mpr ⟨kind'', later, before⟩) already
      · exact past standing
  · intro none
    have held : holder ∈ lent.holders := (LoanState.mem_holders_lend granted holder).mpr (.inr rfl)
    rw [none] at held
    exact absurd held (by simp)

/-- Nobody precedes itself, so nobody is listed twice. -/
theorem nodup (recounts : Recounts state stands) : state.holders.Nodup := by
  refine recounts.ordered.imp ?_
  intro first second precedes same
  subst same
  obtain ⟨kind, index, standing, earlier⟩ := precedes
  exact absurd (earlier kind index standing) (Nat.lt_irrefl index)

theorem eq_free_iff (recounts : Recounts state stands) : state = .free ↔ state.holders = [] := by
  constructor
  · intro free
    rw [free]
    rfl
  · exact recounts.free

end Recounts

/-! ## All calls -/

/-- A call keeps what the table tells of each binding. -/
theorem Recounts.perform (call : Call) (binding : BindingId)
    (recounts : Recounts ((after calls).state binding) (Stands calls binding)) :
    Recounts (((after calls).perform call).state binding) (Stands (calls ++ [call]) binding) := by
  by_cases here : call.binding = binding
  · cases call with
    | register other =>
        obtain rfl : other = binding := here
        rw [LoanTable.perform, register, state_put, if_pos rfl]
        apply Recounts.of_none
        intro holder kind index standing
        simpa [Call.Ends] using stands_concat_iff.mp standing
    | remove other =>
        obtain rfl : other = binding := here
        rw [LoanTable.perform, state_remove, if_pos rfl]
        apply Recounts.of_none
        intro holder kind index standing
        simpa [Call.Ends] using stands_concat_iff.mp standing
    | release other who =>
        obtain rfl : other = binding := here
        rw [LoanTable.perform, state_release, if_pos rfl]
        refine recounts.giveBack ?_
        intro holder kind index
        rw [stands_concat_iff]
        simp [Call.Ends, eq_comm]
    | acquire other who kind =>
        obtain rfl : other = binding := here
        cases answer : (after calls).acquire other who kind with
        | error conflict =>
            rw [perform_of_refused answer]
            refine recounts.congr ?_
            intro holder kind' index
            rw [stands_concat_iff]
            simp only [Call.Ends, not_false_eq_true, and_true, Call.acquire.injEq, true_and,
              or_iff_left_iff_imp]
            intro last
            obtain ⟨-, ⟨rfl, rfl⟩, table, granted⟩ := last
            rw [answer] at granted
            cases granted
        | ok table =>
            obtain ⟨lent, granted, same⟩ := acquire_eq_ok_iff.mp answer
            rw [perform_of_granted answer, same, state_put, if_pos rfl]
            refine recounts.lend granted Stands.lt_length ?_
            intro holder kind' index
            rw [stands_concat_iff]
            simp only [Call.Ends, not_false_eq_true, and_true, Call.acquire.injEq, true_and]
            constructor
            · intro either
              obtain standing | ⟨last, ⟨rfl, rfl⟩, -⟩ := either
              · exact .inl standing
              · exact .inr ⟨rfl, rfl, last⟩
            · intro either
              obtain standing | ⟨rfl, rfl, last⟩ := either
              · exact .inl standing
              · exact .inr ⟨last, ⟨rfl, rfl⟩, table, answer⟩
  · have same : ((after calls).perform call).state binding = (after calls).state binding := by
      unfold LoanTable.state
      rw [find?_perform (after calls) here]
    rw [same]
    exact recounts.congr fun _ _ _ => stands_concat_of_elsewhere here

theorem recounts_after (calls : List Call) (binding : BindingId) :
    Recounts ((after calls).state binding) (Stands calls binding) := by
  induction calls using List.reverseRecOn with
  | nil =>
      apply Recounts.of_none
      intro holder kind index standing
      exact absurd standing.lt_length (Nat.not_lt_zero index)
  | append_singleton calls call ih =>
      rw [after_concat]
      exact ih.perform call binding

theorem shared_refused_iff (table : LoanTable) (binding : BindingId) (holder : Holder) :
    (∃ conflict, table.acquire binding holder .shared = .error conflict) ↔
      ∃ held, table.state binding = .exclusiveBy held := by
  simp only [acquire_eq_error_iff, exists_and_left, exists_eq, and_true]
  cases table.state binding <;> simp [LoanState.lend, LoanState.lendShared]

theorem exclusive_refused_iff (table : LoanTable) (binding : BindingId) (holder : Holder) :
    (∃ conflict, table.acquire binding holder .exclusive = .error conflict) ↔
      table.state binding ≠ .free := by
  simp only [acquire_eq_error_iff, exists_and_left, exists_eq, and_true]
  cases table.state binding <;> simp [LoanState.lend, LoanState.lendExclusive]

/-- The loans of a binding are all shared, or there is one and it is exclusive. -/
theorem Recounts.shared_or_alone {state : LoanState}
    {stands : Holder → BorrowKind → Nat → Prop} (recounts : Recounts state stands) :
    state = .free ∨
      (state = .sharedBy state.holders ∧
        ∀ holder kind index, stands holder kind index → kind = .shared) ∨
      ∃ holder, state = .exclusiveBy holder ∧
        ∀ other kind index, stands other kind index → other = holder ∧ kind = .exclusive := by
  have kinds : ∀ {holder kind index}, stands holder kind index → some kind = state.kind? :=
    fun standing => (recounts.kind_eq standing).symm
  cases state with
  | free => exact .inl rfl
  | sharedBy held =>
      refine .inr (.inl ⟨rfl, ?_⟩)
      intro holder kind index standing
      exact Option.some.inj (kinds standing)
  | exclusiveBy held =>
      refine .inr (.inr ⟨held, rfl, ?_⟩)
      intro other kind index standing
      have holds := (recounts.holder_iff other).mpr ⟨kind, index, standing⟩
      exact ⟨List.mem_singleton.mp holds, Option.some.inj (kinds standing)⟩

/-- What the table tells after some calls, and what it answers to the next one. -/
structure FollowsCalls (calls : List Call) : Prop where
  /-- The holders are those with a standing acquisition, each listed once. -/
  holder_iff : ∀ binding holder, holder ∈ ((after calls).state binding).holders ↔
    ∃ kind index, Stands calls binding holder kind index
  nodup : ∀ binding, ((after calls).state binding).holders.Nodup
  /-- They are listed in the order of the first acquisitions that stand. -/
  ordered : ∀ binding,
    ((after calls).state binding).holders.Pairwise (Precedes (Stands calls binding))
  free_iff : ∀ binding,
    (after calls).state binding = .free ↔ ((after calls).state binding).holders = []
  shared_or_alone : ∀ binding, (after calls).state binding = .free ∨
    ((after calls).state binding = .sharedBy ((after calls).state binding).holders ∧
      ∀ holder kind index, Stands calls binding holder kind index → kind = .shared) ∨
    ∃ holder, (after calls).state binding = .exclusiveBy holder ∧
      ∀ other kind index, Stands calls binding other kind index →
        other = holder ∧ kind = .exclusive
  shared_refused : ∀ binding holder,
    (∃ conflict, (after calls).acquire binding holder .shared = .error conflict) ↔
      ∃ held, (after calls).state binding = .exclusiveBy held
  /-- An exclusive loan is refused while any loan is out, also one to the same holder. -/
  exclusive_refused : ∀ binding holder,
    (∃ conflict, (after calls).acquire binding holder .exclusive = .error conflict) ↔
      (after calls).state binding ≠ .free
  /-- A refusal tells what is out, and changes nothing. -/
  refusal : ∀ binding holder kind conflict,
    (after calls).acquire binding holder kind = .error conflict →
      after (calls ++ [.acquire binding holder kind]) = after calls ∧
        conflict.requested = kind ∧
        ((after calls).state binding).kind? = some conflict.held ∧
        conflict.holders = ((after calls).state binding).holders
  released : ∀ binding holder, ((after calls).release binding holder).1 = true ↔
    holder ∈ ((after calls).state binding).holders
  elsewhere : ∀ call other, call.binding ≠ other →
    (after (calls ++ [call])).find? other = (after calls).find? other

/-- **The table follows its calls**: after any calls, the loans of each binding are the standing
acquisitions of it, and the next call is answered accordingly. -/
theorem follows_calls (calls : List Call) : FollowsCalls calls where
  holder_iff := fun binding => (recounts_after calls binding).holder_iff
  nodup := fun binding => (recounts_after calls binding).nodup
  ordered := fun binding => (recounts_after calls binding).ordered
  free_iff := fun binding => (recounts_after calls binding).eq_free_iff
  shared_or_alone := fun binding => (recounts_after calls binding).shared_or_alone
  shared_refused := shared_refused_iff (after calls)
  exclusive_refused := exclusive_refused_iff (after calls)
  refusal := by
    intro binding holder kind conflict refused
    obtain ⟨answer, rfl⟩ := acquire_eq_error_iff.mp refused
    obtain ⟨held, out, -⟩ := LoanState.exists_kind?_of_lend_eq_none answer
    refine ⟨?_, rfl, ?_, rfl⟩
    · rw [after_concat, perform_of_refused refused]
    · rw [Conflict.against, out]
      rfl
  released := release_fst (after calls)
  elsewhere := by
    intro call other elsewhere
    rw [after_concat]
    exact find?_perform (after calls) elsewhere

/-- A read that borrows first, borrows again, gives back and comes once more, beside a reference
that is refused the exclusive loan while it holds a shared one. -/
def rejoining : List Call :=
  [.acquire 3 .temporary .shared, .acquire 3 (.reference 0) .shared,
    .acquire 3 .temporary .shared, .acquire 3 (.reference 0) .exclusive,
    .release 3 (.reference 5), .release 3 .temporary, .acquire 3 .temporary .shared]

theorem follows_calls_rejoining :
    ((after rejoining).state 3).holders = [.reference 0, .temporary] ∧
      Precedes (Stands rejoining 3) (.reference 0) .temporary ∧
      ∃ conflict, (after rejoining).acquire 3 (.reference 0) .exclusive = .error conflict := by
  have holders : ((after rejoining).state 3).holders = [.reference 0, .temporary] := by decide
  have ordered := (follows_calls rejoining).ordered 3
  rw [holders] at ordered
  refine ⟨holders, List.rel_of_pairwise_cons ordered (by simp), ?_⟩
  apply ((follows_calls rejoining).exclusive_refused 3 (.reference 0)).mpr
  intro free
  rw [((follows_calls rejoining).free_iff 3).mp free] at holders
  exact absurd holders (by simp)

end LoanTable

end Lending
