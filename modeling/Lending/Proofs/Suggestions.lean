import Lending.Proofs.EditDistance
import Lending.Proofs.Scopes
import Lending.Proofs.Utf8
import Lending.Validation
import Mathlib.Data.List.Permutation

/-!
# Suggestions are the three best names

The names of the open frames come in no particular order, and a name that is declared in several
frames comes several times. Candidates are sorted by two keys, and only those that repeat the one
before them are dropped. That is enough, since equal names have equal keys:

* **order** — sorting puts equal names side by side, so that dropping repetitions leaves the names
  in strictly rising order (`pairwise_dropRepeats`);
* **choice** — there is one list of given names in strictly rising order (`Ranking.unique`), so what
  is suggested depends on which names there are and on nothing else.
-/

namespace Lending

/-- Whether a name is declared in an open frame. -/
def Scopes.Declares {α : Type} (scopes : Scopes α) (name : String) : Prop :=
  ∃ frame ∈ scopes.frames, ∃ entity, (name, entity) ∈ frame

theorem Scopes.mem_names_iff {α : Type} {scopes : Scopes α} {name : String} :
    name ∈ scopes.names ↔ scopes.Declares name := by
  simp [names, Declares]

theorem Scopes.not_declares_of_lookup {α : Type} {scopes : Scopes α} {name : String}
    (unknown : scopes.lookup name = none) : ¬ scopes.Declares name := by
  rintro ⟨frame, isOpen, entity, there⟩
  have missing := List.findSome?_eq_none_iff.mp unknown frame isOpen
  rw [List.lookup_eq_none_iff] at missing
  exact absurd (missing _ there) (by simp)

namespace Validation

/-! ## Repetitions -/

theorem mem_dropRepeats {name : String} {list : List String} :
    name ∈ dropRepeats list ↔ name ∈ list := by
  fun_induction dropRepeats list with
  | case1 => rfl
  | case2 => rfl
  | case3 first rest ih => simp [ih]
  | case4 first second rest different ih =>
      rw [List.mem_cons, ih]
      exact List.mem_cons.symm

/-- **Repetitions stand side by side in a sorted list,** so that none is left in the end. -/
theorem pairwise_dropRepeats {before : String → String → Prop}
    (trans : ∀ {first second third}, before first second → before second third →
      before first third) {list : List String}
    (sorted : list.Pairwise fun first second => first = second ∨ before first second) :
    (dropRepeats list).Pairwise before := by
  fun_induction dropRepeats list with
  | case1 => exact List.Pairwise.nil
  | case2 name => exact List.pairwise_singleton _ _
  | case3 first rest ih => exact ih sorted.of_cons
  | case4 first second rest different ih =>
      obtain ⟨ahead, sorted'⟩ := List.pairwise_cons.mp sorted
      refine List.pairwise_cons.mpr ⟨?_, ih sorted'⟩
      intro name there
      have next : before first second := (ahead second List.mem_cons_self).resolve_left different
      rcases List.mem_cons.mp (mem_dropRepeats.mp there) with rfl | later
      · exact next
      · rcases (List.pairwise_cons.mp sorted').1 name later with rfl | after
        · exact next
        · exact trans next after

/-! ## Order -/

/-- **The order of suggestions.** Nearer names come first, and names equally near by their bytes. -/
def RanksBefore (name first second : String) : Prop :=
  Text.levenshtein name.toList first.toList < Text.levenshtein name.toList second.toList ∨
    Text.levenshtein name.toList first.toList = Text.levenshtein name.toList second.toList ∧
      List.Lex (· < ·) (Text.bytes first) (Text.bytes second)

variable {name : String}

theorem ranksBefore_iff {first second : String} :
    RanksBefore name first second ↔
      Text.editDistance name first < Text.editDistance name second ∨
        Text.editDistance name first = Text.editDistance name second ∧ first < second := by
  simp only [RanksBefore, Text.editDistance_eq_levenshtein, Text.lt_iff_lex_bytes]

theorem RanksBefore.trans {first second third : String} (before : RanksBefore name first second)
    (after : RanksBefore name second third) : RanksBefore name first third := by
  rw [ranksBefore_iff] at before after ⊢
  rcases before with nearer | ⟨same, less⟩
  · exact .inl (by omega)
  · rcases after with nearer | ⟨same', less'⟩
    · exact .inl (by omega)
    · exact .inr ⟨same.trans same', less.trans less'⟩

theorem RanksBefore.irrefl (candidate : String) : ¬ RanksBefore name candidate candidate := by
  rw [ranksBefore_iff]
  rintro (nearer | ⟨-, less⟩)
  · omega
  · exact lt_irrefl candidate less

theorem ranksBefore_trichotomy (first second : String) :
    first = second ∨ RanksBefore name first second ∨ RanksBefore name second first := by
  rw [ranksBefore_iff, ranksBefore_iff]
  rcases Nat.lt_trichotomy (Text.editDistance name first) (Text.editDistance name second) with
    nearer | same | farther
  · exact .inr (.inl (.inl nearer))
  · rcases lt_trichotomy first second with less | rfl | greater
    · exact .inr (.inl (.inr ⟨same, less⟩))
    · exact .inl rfl
    · exact .inr (.inr (.inr ⟨same.symm, greater⟩))
  · exact .inr (.inr (.inl farther))

/-- The order by which candidates are sorted, with their distances at hand. -/
def ranksAtMost (name first second : String) : Bool :=
  suggestsBefore (first, Text.editDistance name first) (second, Text.editDistance name second)

theorem ranksAtMost_iff {first second : String} :
    ranksAtMost name first second = true ↔ first = second ∨ RanksBefore name first second := by
  rw [ranksAtMost, suggestsBefore, ranksBefore_iff]
  by_cases same : Text.editDistance name first = Text.editDistance name second
  · rw [if_pos same, decide_eq_true_iff, le_iff_eq_or_lt]
    simp [same]
  · rw [if_neg same, decide_eq_true_iff]
    constructor
    · intro nearer
      exact .inr (.inl nearer)
    · rintro (rfl | nearer | ⟨tied, -⟩)
      · exact absurd rfl same
      · exact nearer
      · exact absurd tied same

theorem ranksAtMost_trans {first second third : String}
    (before : ranksAtMost name first second = true) (after : ranksAtMost name second third = true) :
    ranksAtMost name first third = true := by
  rw [ranksAtMost_iff] at before after ⊢
  rcases before with rfl | before
  · exact after
  · rcases after with rfl | after
    · exact .inr before
    · exact .inr (before.trans after)

theorem ranksAtMost_total (first second : String) :
    (ranksAtMost name first second || ranksAtMost name second first) = true := by
  rw [Bool.or_eq_true, ranksAtMost_iff, ranksAtMost_iff]
  rcases ranksBefore_trichotomy first second with same | before | after
  · exact .inl (.inl same)
  · exact .inl (.inr before)
  · exact .inr (.inr after)

/-! ## Candidates -/

/-- The candidates that are near enough. -/
def near (candidates : List String) (name : String) : List String :=
  candidates.filter fun candidate => decide (Text.editDistance name candidate ≤ maxDistance)

/-- The candidates that are near enough, each once and the best one first. -/
def rank (candidates : List String) (name : String) : List String :=
  dropRepeats ((near candidates name).mergeSort (ranksAtMost name))

/-- Distances need not be kept beside the candidates. -/
theorem closest_eq_take_rank (candidates : List String) (name : String) :
    closest candidates name = (rank candidates name).take maxSuggestions := by
  have filtered : (candidates.map fun candidate =>
      (candidate, Text.editDistance name candidate)).filter
        (fun candidate => decide (candidate.2 ≤ maxDistance)) =
      (near candidates name).map fun candidate =>
        (candidate, Text.editDistance name candidate) := List.filter_map
  have sorted : ((near candidates name).mergeSort (ranksAtMost name)).map (fun candidate =>
      (candidate, Text.editDistance name candidate)) =
      ((near candidates name).map fun candidate =>
        (candidate, Text.editDistance name candidate)).mergeSort suggestsBefore :=
    List.map_mergeSort fun _ _ _ _ => rfl
  simp only [closest, rank, filtered, ← sorted, List.map_map, Function.comp_def, List.map_id']

theorem mem_rank {candidates : List String} {candidate : String} :
    candidate ∈ rank candidates name ↔ candidate ∈ candidates ∧
      Text.levenshtein name.toList candidate.toList ≤ 2 := by
  rw [rank, mem_dropRepeats, List.mem_mergeSort, near, List.mem_filter, decide_eq_true_iff,
    Text.editDistance_eq_levenshtein]
  rfl

theorem pairwise_rank (candidates : List String) :
    (rank candidates name).Pairwise (RanksBefore name) := by
  refine pairwise_dropRepeats (fun before after => before.trans after) ?_
  have sorted : ((near candidates name).mergeSort (ranksAtMost name)).Pairwise
      fun first second => ranksAtMost name first second = true :=
    @List.pairwise_mergeSort String (ranksAtMost name) (fun _ _ _ => ranksAtMost_trans)
      ranksAtMost_total _
  exact sorted.imp ranksAtMost_iff.mp

/-- **The names that come into question,** each once and the best one first. -/
structure Ranking (names : Names) (name : String) (ranked : List String) : Prop where
  nodup : ranked.Nodup
  mem_iff : ∀ candidate, candidate ∈ ranked ↔
    names.Declares candidate ∧ Text.levenshtein name.toList candidate.toList ≤ 2
  sorted : ranked.Pairwise (RanksBefore name)

/-- There is only one ranking. -/
theorem Ranking.unique {names : Names} {first second : List String}
    (ranking : Ranking names name first) (other : Ranking names name second) : first = second := by
  have perm : first.Perm second := by
    rw [List.perm_ext_iff_of_nodup ranking.nodup other.nodup]
    intro candidate
    rw [ranking.mem_iff, other.mem_iff]
  refine perm.eq_of_pairwise ?_ ranking.sorted other.sorted
  intro candidate candidate' _ _ before after
  exact absurd (before.trans after) (RanksBefore.irrefl candidate)

theorem ranking_rank {names : Names} {candidates : List String}
    (listed : ∀ candidate, candidate ∈ candidates ↔ names.Declares candidate) :
    Ranking names name (rank candidates name) where
  nodup := by
    apply (pairwise_rank candidates).imp
    rintro first second before rfl
    exact RanksBefore.irrefl first before
  mem_iff candidate := by rw [mem_rank, listed]
  sorted := pairwise_rank candidates

/-- **Suggestions are the three best names.** For every name that is declared in no open frame there
is one list of the names in the open frames that are at most two edits away from it, which holds each
of them once, nearer ones first and ties broken by their bytes. Its first three names are suggested.
So no name is suggested twice, the unknown name itself is not suggested, and the suggestions do not
depend on the order in which the frames list their names, or on how often a name is listed. -/
theorem suggestions_best_three {names : Names} (unknown : names.lookup name = none) :
    ∃ ranked, Ranking names name ranked ∧
      (∀ other, Ranking names name other → other = ranked) ∧
      suggestions names name = ranked.take 3 ∧
      (suggestions names name).Nodup ∧ name ∉ suggestions names name ∧
      ∀ candidates : List String,
        (∀ candidate, candidate ∈ candidates ↔ names.Declares candidate) →
        closest candidates name = suggestions names name := by
  have ranking : Ranking names name (rank names.names name) :=
    ranking_rank fun _ => Scopes.mem_names_iff
  have chosen : suggestions names name = (rank names.names name).take 3 :=
    closest_eq_take_rank names.names name
  refine ⟨_, ranking, ?_, chosen, ?_, ?_, ?_⟩
  · intro other ranking'
    exact ranking'.unique ranking
  · rw [chosen]
    exact ranking.nodup.sublist (List.take_sublist 3 _)
  · rw [chosen]
    intro suggested
    have declared := ((ranking.mem_iff name).mp (List.mem_of_mem_take suggested)).1
    exact Scopes.not_declares_of_lookup unknown declared
  · intro candidates listed
    rw [closest_eq_take_rank, (ranking_rank listed).unique ranking, chosen]
    rfl

/-- Two open frames, of which both declare `cat`. -/
def littered : Names where
  frames := [[("cat", .binding), ("coat", .binding)],
    [("cat", .reference .shared), ("bat", .binding), ("zebra", .binding), ("cut", .binding)]]

/-- For `ct` four names come into question. The farthest two are equally far, and `coat` comes after
`bat`. -/
theorem suggestions_best_three_littered :
    littered.lookup "ct" = none ∧ suggestions littered "ct" = ["cat", "cut", "bat"] ∧
    closest ["zebra", "coat", "cut", "cat", "bat"] "ct" = ["cat", "cut", "bat"] ∧
    ∃ ranked, Ranking littered "ct" ranked ∧ ranked.take 3 = ["cat", "cut", "bat"] := by
  have unknown : littered.lookup "ct" = none := by decide
  have computed : suggestions littered "ct" = ["cat", "cut", "bat"] := by cbv
  obtain ⟨ranked, ranking, -, chosen, -, -, unordered⟩ := suggestions_best_three unknown
  refine ⟨unknown, computed, ?_, ranked, ranking, chosen.symm.trans computed⟩
  rw [unordered, computed]
  intro candidate
  rw [← Scopes.mem_names_iff]
  simp [Scopes.names, littered]
  tauto

end Validation

end Lending
