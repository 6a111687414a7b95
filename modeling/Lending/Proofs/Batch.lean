import Lending.Session
import Mathlib.Logic.Relation
import Mathlib.Order.WellFounded

/-!
# Workers do not change what is reported

Checking many programs with workers gives what checking them one after the other gives. The argument
has two halves, which meet at the runs into which the programs are split:

* **the runs** are made up of all programs in their order, none is empty, and there are no more of
  them than workers (`chunks_flatten`, `length_chunks_le`);
* **the workers** take one run each and go on side by side. How they take turns is left open: a
  `Pool` may go on in several ways (`Pool.Step`). What is joined in the end, what the workers have and
  what is left to do make up one list, and no step changes it (`Pool.Step.expected_eq`). Each step
  uses up work, so the pool comes to an end, and it does not get stuck before (`Pool.exists_step`).
-/

namespace Lending

namespace Session

/-! ## Runs of programs -/

section Chunks

variable {α : Type} {size : Nat}

theorem chunksFrom_flatten (run : List α) (room : Nat) (items : List α) :
    (chunksFrom size run room items).flatten = run.reverse ++ items := by
  induction items generalizing run room with
  | nil =>
      rw [chunksFrom]
      split
      · rename_i empty
        rw [List.isEmpty_iff.mp empty]
        rfl
      · simp
  | cons item rest ih =>
      cases room with
      | zero => rw [chunksFrom, List.flatten_cons, ih]; rfl
      | succ room => rw [chunksFrom, ih]; simp

/-- **Nothing is lost, repeated or moved** when a list is split into runs. -/
theorem chunks_flatten (size : Nat) (items : List α) : (chunks size items).flatten = items :=
  chunksFrom_flatten [] size items

/-- What is done to each element may be done run by run. -/
theorem flatMap_chunks {β : Type} (size : Nat) (items : List α) (done : α → β) :
    ((chunks size items).flatMap fun chunk => chunk.map done) = items.map done := by
  rw [List.flatMap_def, ← List.map_flatten, chunks_flatten]

theorem length_chunksFrom (positive : 0 < size) {run : List α} {room : Nat}
    (full : run.length + room = size) (items : List α) :
    (chunksFrom size run room items).length =
      (run.length + items.length + (size - 1)) / size := by
  induction items generalizing run room with
  | nil =>
      rw [chunksFrom, List.length_nil]
      split
      · rename_i empty
        rw [List.isEmpty_iff.mp empty, List.length_nil, List.length_nil]
        exact (Nat.div_eq_of_lt (by omega)).symm
      · rename_i occupied
        have length := List.length_pos_iff.mpr (fun empty => occupied (List.isEmpty_iff.mpr empty))
        rw [List.length_singleton]
        exact (Nat.div_eq_of_lt_le (by omega) (by omega)).symm
  | cons item rest ih =>
      cases room with
      | zero =>
          rw [chunksFrom, List.length_cons, ih (by rw [List.length_singleton]; omega),
            ← Nat.add_div_right _ positive, List.length_singleton, List.length_cons]
          congr 1
          omega
      | succ room =>
          rw [chunksFrom, ih (by rw [List.length_cons]; omega), List.length_cons, List.length_cons]
          congr 1
          omega

theorem length_of_mem_chunksFrom (positive : 0 < size) {run : List α} {room : Nat}
    (full : run.length + room = size) {items chunk : List α}
    (there : chunk ∈ chunksFrom size run room items) : 0 < chunk.length ∧ chunk.length ≤ size := by
  induction items generalizing run room with
  | nil =>
      rw [chunksFrom] at there
      split at there
      · exact absurd there List.not_mem_nil
      · rename_i occupied
        have length := List.length_pos_iff.mpr (fun empty => occupied (List.isEmpty_iff.mpr empty))
        rw [List.mem_singleton.mp there, List.length_reverse]
        omega
  | cons item rest ih =>
      cases room with
      | zero =>
          rw [chunksFrom] at there
          rcases List.mem_cons.mp there with rfl | later
          · rw [List.length_reverse]
            omega
          · exact ih (by rw [List.length_singleton]; omega) later
      | succ room =>
          rw [chunksFrom] at there
          exact ih (by rw [List.length_cons]; omega) there

/-- Runs are never empty, and never longer than they may be. -/
theorem length_of_mem_chunks (positive : 0 < size) {items chunk : List α}
    (there : chunk ∈ chunks size items) : 0 < chunk.length ∧ chunk.length ≤ size :=
  length_of_mem_chunksFrom positive (Nat.zero_add size) there

end Chunks

theorem chunkSize_pos {workers count : Nat} (positive : 1 ≤ workers) (nonempty : 0 < count) :
    0 < chunkSize workers count :=
  Nat.div_pos (by omega) (by omega)

/-- The runs have room for all programs. -/
theorem le_mul_chunkSize {workers count : Nat} (positive : 1 ≤ workers) :
    count ≤ min workers count * chunkSize workers count := by
  by_cases nonempty : 0 < count
  · have used : 0 < min workers count := by omega
    have next := Nat.lt_mul_div_succ (count + min workers count - 1) used
    rw [Nat.mul_add_one] at next
    show count ≤ min workers count * ((count + min workers count - 1) / min workers count)
    omega
  · omega

/-- **There are no more runs than workers.** -/
theorem length_chunks_le {α : Type} {workers : Nat} (positive : 1 ≤ workers) (items : List α) :
    (chunks (chunkSize workers items.length) items).length ≤ workers := by
  by_cases empty : items = []
  · rw [empty]
    exact Nat.zero_le workers
  · have nonzero := chunkSize_pos positive (List.length_pos_iff.mpr empty)
    have room : items.length ≤ _ := le_mul_chunkSize positive
    rw [chunks, length_chunksFrom nonzero (Nat.zero_add _), List.length_nil]
    refine (Nat.le_of_lt_succ ?_).trans (Nat.min_le_left workers items.length)
    rw [Nat.div_lt_iff_lt_mul nonzero, Nat.succ_mul]
    omega

theorem checkBatch_eq_map (session : Session) (workers : Nat) (programs : List Program) :
    session.checkBatch workers programs = programs.map session.check := by
  rw [checkBatch]
  split
  · rename_i empty
    rw [List.isEmpty_iff.mp empty]
    rfl
  · exact flatMap_chunks _ programs session.check

end Session

/-! ## Workers side by side -/

/-- A worker that was started: the programs of its run that it has yet to check, and what came of the
others. -/
structure Worker where
  left : List Program
  outcomes : List Outcome

/-- Work on a batch at some moment. -/
structure Pool where
  /-- The runs for which no worker was started yet. -/
  waiting : List (List Program)
  /-- The workers that were not joined yet, in the order in which they were started. -/
  workers : List Worker
  /-- What came from the workers that were joined. -/
  joined : List Outcome

namespace Pool

/-- Before the first worker is started. -/
def start (workers : Nat) (programs : List Program) : Pool where
  waiting := Session.chunks (Session.chunkSize workers programs.length) programs
  workers := []
  joined := []

/-- **What can happen next.** Workers are started one after the other, and each can check its next
program at any time. When all were started, they are joined in the same order, and joining waits for
the worker to be done. -/
inductive Step (session : Session) : Pool → Pool → Prop
  | start {run : List Program} {waiting : List (List Program)} {workers : List Worker}
      {joined : List Outcome} :
      Step session { waiting := run :: waiting, workers, joined }
        { waiting, workers := workers ++ [{ left := run, outcomes := [] }], joined }
  | check {waiting : List (List Program)} {before after : List Worker} {program : Program}
      {left : List Program} {outcomes joined : List Outcome} :
      Step session
        { waiting, workers := before ++ { left := program :: left, outcomes } :: after, joined }
        { waiting, workers := before ++ { left, outcomes := outcomes ++ [session.check program] } :: after,
          joined }
  | join {workers : List Worker} {outcomes joined : List Outcome} :
      Step session { waiting := [], workers := { left := [], outcomes } :: workers, joined }
        { waiting := [], workers, joined := joined ++ outcomes }

/-- What has come of the programs, and what is to come of the rest of them, in the order in which it
will be joined. -/
def expected (session : Session) (pool : Pool) : List Outcome :=
  pool.joined ++
    (pool.workers.flatMap fun worker => worker.outcomes ++ worker.left.map session.check) ++
    pool.waiting.flatMap fun run => run.map session.check

/-- **Whoever goes on, what is expected stays the same.** -/
theorem Step.expected_eq {session : Session} {pool next : Pool} (step : Step session pool next) :
    next.expected session = pool.expected session := by
  cases step with
  | start => simp [expected]
  | check => simp [expected]
  | join => simp [expected]

theorem expected_start (session : Session) (workers : Nat) (programs : List Program) :
    (start workers programs).expected session = programs.map session.check := by
  rw [expected, start, List.flatMap_nil, List.append_nil, List.nil_append]
  exact Session.flatMap_chunks _ programs session.check

theorem expected_of_run {session : Session} {pool next : Pool}
    (run : Relation.ReflTransGen (Step session) pool next) :
    next.expected session = pool.expected session := by
  induction run with
  | refl => rfl
  | tail _ step ih => rw [step.expected_eq, ih]

/-- All workers were joined. -/
def IsDone (pool : Pool) : Prop :=
  pool.waiting = [] ∧ pool.workers = []

theorem expected_of_IsDone {session : Session} {pool : Pool} (done : pool.IsDone) :
    pool.expected session = pool.joined := by
  rw [expected, done.1, done.2, List.flatMap_nil, List.flatMap_nil, List.append_nil, List.append_nil]

/-- **The pool does not get stuck.** -/
theorem exists_step {session : Session} {pool : Pool} (unfinished : ¬ pool.IsDone) :
    ∃ next, Step session pool next := by
  obtain ⟨waiting, workers, joined⟩ := pool
  cases waiting with
  | cons run waiting => exact ⟨_, .start⟩
  | nil =>
      cases workers with
      | nil => exact absurd ⟨rfl, rfl⟩ unfinished
      | cons worker workers =>
          obtain ⟨left, outcomes⟩ := worker
          cases left with
          | nil => exact ⟨_, .join⟩
          | cons program left => exact ⟨_, @Step.check session [] [] workers program left outcomes joined⟩

/-- The number of steps that are left: starting and joining each worker, and checking each
program. -/
def remaining (pool : Pool) : Nat :=
  2 * pool.waiting.length + pool.waiting.flatten.length +
    (pool.workers.length + (pool.workers.flatMap Worker.left).length)

theorem Step.remaining_eq {session : Session} {pool next : Pool} (step : Step session pool next) :
    pool.remaining = next.remaining + 1 := by
  cases step with
  | start => simp [remaining]; omega
  | check => simp [remaining]; omega
  | join => simp [remaining]; omega

/-- **The pool comes to an end.** -/
theorem wellFounded_step (session : Session) :
    WellFounded fun next pool => Step session pool next :=
  Subrelation.wf (fun step => Nat.lt_of_lt_of_eq (Nat.lt_succ_self _) (Step.remaining_eq step).symm)
    (measure remaining).wf

end Pool

/-- **Workers change nothing.** Whatever the number of workers, a batch comes to what its programs
come to one by one, in their order. The programs are split into at most as many runs as there are
workers, and the runs are the programs in their order. However the workers take turns, the pool
comes to an end, and then the outcomes of all programs are joined, in the order of the programs. -/
theorem Session.batch_eq_sequential (session : Session) {workers : Nat} (positive : 1 ≤ workers)
    (programs : List Program) :
    session.checkBatch workers programs = programs.map session.check ∧
      (programs ≠ [] → 1 ≤ chunkSize workers programs.length) ∧
      (chunks (chunkSize workers programs.length) programs).length ≤ workers ∧
      (chunks (chunkSize workers programs.length) programs).flatten = programs ∧
      (∀ run ∈ chunks (chunkSize workers programs.length) programs,
        1 ≤ run.length ∧ run.length ≤ chunkSize workers programs.length) ∧
      (WellFounded fun next pool => Pool.Step session pool next) ∧
      ∀ pool, Relation.ReflTransGen (Pool.Step session) (Pool.start workers programs) pool →
        (∃ next, Pool.Step session pool next) ∨
          pool.IsDone ∧ pool.joined = session.checkBatch workers programs := by
  have size : programs ≠ [] → 1 ≤ chunkSize workers programs.length :=
    fun nonempty => chunkSize_pos positive (List.length_pos_iff.mpr nonempty)
  refine ⟨checkBatch_eq_map session workers programs, size, length_chunks_le positive programs,
    chunks_flatten _ programs, fun run there => ?_, Pool.wellFounded_step session,
    fun pool reached => ?_⟩
  · refine length_of_mem_chunks (size ?_) there
    rintro rfl
    exact absurd there List.not_mem_nil
  · by_cases done : pool.IsDone
    · refine .inr ⟨done, ?_⟩
      calc pool.joined
        _ = pool.expected session := (Pool.expected_of_IsDone done).symm
        _ = (Pool.start workers programs).expected session := Pool.expected_of_run reached
        _ = programs.map session.check := Pool.expected_start session workers programs
        _ = session.checkBatch workers programs := (checkBatch_eq_map session workers programs).symm
    · exact .inl (Pool.exists_step done)

/-- An empty program of the given name. -/
def Session.blank (name : String) : Program where
  name := some name

/-- Two workers, of which the second is done before the first has checked anything. -/
theorem Session.batch_eq_sequential_overtaking :
    (default : Session).checkBatch 2 [blank "a", blank "b", blank "c"] =
        [check default (blank "a"), check default (blank "b"), check default (blank "c")] ∧
      ∃ pool, Relation.ReflTransGen (Pool.Step default)
          (Pool.start 2 [blank "a", blank "b", blank "c"]) pool ∧
        pool.waiting = [] ∧ pool.workers.map (·.left.length) = [2, 0] ∧
        ((∃ next, Pool.Step default pool next) ∨
          pool.IsDone ∧
            pool.joined = (default : Session).checkBatch 2 [blank "a", blank "b", blank "c"]) := by
  obtain ⟨sequential, _, _, _, _, _, goes⟩ := batch_eq_sequential default (by decide : 1 ≤ 2)
    [blank "a", blank "b", blank "c"]
  have started : Relation.ReflTransGen (Pool.Step default)
      { waiting := [[blank "a", blank "b"], [blank "c"]], workers := [], joined := [] }
      { waiting := []
        workers := [{ left := [blank "a", blank "b"], outcomes := [] },
          { left := [blank "c"], outcomes := [] }]
        joined := [] } :=
    (Relation.ReflTransGen.single .start).tail .start
  have reached := started.tail (@Pool.Step.check default []
    [{ left := [blank "a", blank "b"], outcomes := [] }] [] (blank "c") [] [] [])
  exact ⟨sequential, _, reached, rfl, rfl, goes _ reached⟩

end Lending
