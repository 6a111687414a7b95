import Lending.Proofs.Containers
import Lending.Proofs.Paths
import Mathlib.Data.List.Nodup

/-!
# Routes through directory trees

A route of names leads from a directory down to a file or another directory (`Tree.Leads`). Where
the entries of every directory have names of their own (`Tree.WellFormed`):

* **determinism** — a route leads to one place (`Leads.unique`);
* **order** — it leads to the same place in whatever order the entries of the directories are listed
  (`Reordered.leads`);
* **paths** — the path that is put together from its names is resolved to that place
  (`resolve?_along`), whichever path the directory was reached by.
-/

namespace Lending

namespace Tree

/-! ## Routes -/

/-- Trees are taken apart entry by entry. -/
@[elab_as_elim]
theorem entries_induction {motive : Tree → Prop} (tree : Tree)
    (file : ∀ text, motive (.file text))
    (directory : ∀ entries, (∀ name inner, (name, inner) ∈ entries → motive inner) →
      motive (.directory entries)) : motive tree := by
  cases tree with
  | file text => exact file text
  | directory entries =>
      apply directory
      intro name inner there
      have smaller := List.sizeOf_lt_of_mem there
      exact entries_induction inner file directory
termination_by tree
decreasing_by
  simp only [Prod.mk.sizeOf_spec, Tree.directory.sizeOf_spec] at smaller ⊢
  omega

/-- **What stands at the end of a route of names,** from a place in a tree. -/
inductive Leads : Tree → List String → Tree → Prop
  | here (tree : Tree) : Leads tree [] tree
  | into {entries : List (String × Tree)} {name : String} {inner found : Tree}
      {route : List String} :
      (name, inner) ∈ entries → Leads inner route found →
      Leads (.directory entries) (name :: route) found

/-- **Well-formed trees.** The entries of every directory have proper names, and no two of them the
same. -/
def WellFormed (tree : Tree) : Prop :=
  ∀ route entries, tree.Leads route (.directory entries) →
    (entries.map Prod.fst).Nodup ∧ ∀ entry ∈ entries, Path.IsName entry.1

variable {tree found found' : Tree} {entries : List (String × Tree)} {name : String}
  {inner : Tree} {route : List String}

theorem WellFormed.nodup (wellFormed : (directory entries).WellFormed) :
    (entries.map Prod.fst).Nodup :=
  (wellFormed [] entries (.here _)).1

theorem WellFormed.isName (wellFormed : (directory entries).WellFormed)
    (there : (name, inner) ∈ entries) : Path.IsName name :=
  (wellFormed [] entries (.here _)).2 (name, inner) there

theorem WellFormed.entry (wellFormed : (directory entries).WellFormed)
    (there : (name, inner) ∈ entries) : inner.WellFormed := by
  intro route entries' leads
  exact wellFormed (name :: route) entries' (.into there leads)

theorem Leads.isName (leads : tree.Leads route found) (wellFormed : tree.WellFormed) :
    ∀ name ∈ route, Path.IsName name := by
  induction leads with
  | here tree =>
      intro name there
      exact absurd there List.not_mem_nil
  | into there _ ih =>
      intro name among
      rcases List.mem_cons.mp among with rfl | further
      · exact wellFormed.isName there
      · exact ih (wellFormed.entry there) name further

theorem eq_of_mem_entries {inner' : Tree} (nodup : (entries.map Prod.fst).Nodup)
    (there : (name, inner) ∈ entries) (there' : (name, inner') ∈ entries) : inner = inner' := by
  have same := List.inj_on_of_nodup_map nodup there there' rfl
  exact congrArg Prod.snd same

theorem wellFormed_file (text : String) : (file text).WellFormed := by
  intro route entries leads
  cases leads

theorem wellFormed_directory_iff :
    (directory entries).WellFormed ↔ (entries.map Prod.fst).Nodup ∧
      ∀ entry ∈ entries, Path.IsName entry.1 ∧ entry.2.WellFormed := by
  constructor
  · intro wellFormed
    exact ⟨wellFormed.nodup, fun _ there => ⟨wellFormed.isName there, wellFormed.entry there⟩⟩
  · rintro ⟨nodup, each⟩ route entries' leads
    cases leads with
    | here => exact ⟨nodup, fun entry there => (each entry there).1⟩
    | into there leads => exact (each _ there).2 _ entries' leads

/-- **A route leads to one place.** -/
theorem Leads.unique (leads : tree.Leads route found) (leads' : tree.Leads route found')
    (wellFormed : tree.WellFormed) : found = found' := by
  induction leads with
  | here tree =>
      cases leads' with
      | here => rfl
  | into there _ ih =>
      cases leads' with
      | into there' leads' =>
          obtain rfl := eq_of_mem_entries wellFormed.nodup there there'
          exact ih leads' (wellFormed.entry there)

/-- A file below a directory has a name of its own. -/
theorem Leads.exists_concat {text : String} {route : List String}
    (leads : (directory entries).Leads route (.file text)) :
    ∃ names name, route = names ++ [name] := by
  rcases List.eq_nil_or_concat route with rfl | ⟨names, name, shape⟩
  · cases leads
  · exact ⟨names, name, by rw [shape, List.concat_eq_append]⟩

/-- The components of a path below a directory are those of the directory and the names on the
way. -/
theorem Leads.components_along (leads : tree.Leads route found) (wellFormed : tree.WellFormed)
    (path : String) : Path.components (Path.along path route) = Path.components path ++ route :=
  Path.components_along (leads.isName wellFormed) path

/-- A path below a directory belongs to one route. -/
theorem Leads.along_inj {path : String} {route' : List String} (leads : tree.Leads route found)
    (leads' : tree.Leads route' found') (wellFormed : tree.WellFormed)
    (same : Path.along path route = Path.along path route') : route = route' := by
  have components := congrArg Path.components same
  rwa [leads.components_along wellFormed, leads'.components_along wellFormed,
    List.append_cancel_left_eq] at components

/-! ## Orders of entries -/

/-- **The same tree in another order.** The entries of every directory may be listed in any
order. -/
inductive Reordered : Tree → Tree → Prop
  | refl (tree : Tree) : Reordered tree tree
  | trans {first second third : Tree} :
      Reordered first second → Reordered second third → Reordered first third
  | perm {entries entries' : List (String × Tree)} :
      entries.Perm entries' → Reordered (.directory entries) (.directory entries')
  | entry {before after : List (String × Tree)} {name : String} {inner inner' : Tree} :
      Reordered inner inner' →
      Reordered (.directory (before ++ (name, inner) :: after))
        (.directory (before ++ (name, inner') :: after))

variable {tree' : Tree}

theorem Reordered.symm (reordered : tree.Reordered tree') : tree'.Reordered tree := by
  induction reordered with
  | refl tree => exact .refl tree
  | trans _ _ first second => exact second.trans first
  | perm perm => exact .perm perm.symm
  | entry _ ih => exact .entry ih

theorem Reordered.eq_file {text : String} (reordered : (file text).Reordered tree) :
    tree = file text := by
  generalize same : file text = start at reordered
  induction reordered with
  | refl tree => rfl
  | trans _ _ first second =>
      obtain rfl := first same
      exact second same
  | perm => cases same
  | entry => cases same

theorem Reordered.names_perm (reordered : (directory entries).Reordered tree) :
    ∃ entries', tree = directory entries' ∧
      (entries.map Prod.fst).Perm (entries'.map Prod.fst) := by
  generalize same : directory entries = start at reordered
  induction reordered generalizing entries with
  | refl tree => exact ⟨entries, same.symm, .refl _⟩
  | trans _ _ first second =>
      obtain ⟨entries', same', perm⟩ := first same
      obtain ⟨entries'', same'', perm'⟩ := second same'.symm
      exact ⟨entries'', same'', perm.trans perm'⟩
  | perm perm =>
      cases same
      exact ⟨_, rfl, perm.map Prod.fst⟩
  | entry =>
      cases same
      exact ⟨_, rfl, by simp⟩

/-- **Every route leads to the same place,** up to the order of entries there. -/
theorem Reordered.leads (reordered : tree.Reordered tree') (leads : tree.Leads route found) :
    ∃ found', tree'.Leads route found' ∧ found.Reordered found' := by
  induction reordered generalizing route found with
  | refl tree => exact ⟨found, leads, .refl found⟩
  | trans _ _ first second =>
      obtain ⟨found', leads', same⟩ := first leads
      obtain ⟨found'', leads'', same'⟩ := second leads'
      exact ⟨found'', leads'', same.trans same'⟩
  | perm perm =>
      cases leads with
      | here => exact ⟨_, .here _, .perm perm⟩
      | into there leads => exact ⟨found, .into (perm.mem_iff.mp there) leads, .refl found⟩
  | @entry before after name inner inner' reordered ih =>
      cases leads with
      | here => exact ⟨_, .here _, .entry reordered⟩
      | into there leads =>
          -- Only a route through the entry that was changed has to be led through it anew.
          rcases List.mem_append.mp there with early | late
          · exact ⟨found, .into (List.mem_append_left _ early) leads, .refl found⟩
          · rcases List.mem_cons.mp late with same | later
            · obtain ⟨rfl, rfl⟩ := Prod.mk.inj same
              obtain ⟨found', leads', same'⟩ := ih leads
              exact ⟨found', .into (by simp) leads', same'⟩
            · exact ⟨found, .into (List.mem_append_right _ (List.mem_cons_of_mem _ later)) leads,
                .refl found⟩

theorem Reordered.leads_file {text : String} (reordered : tree.Reordered tree')
    (leads : tree.Leads route (.file text)) : tree'.Leads route (.file text) := by
  obtain ⟨found, leads', same⟩ := reordered.leads leads
  rwa [← same.eq_file]

theorem WellFormed.reordered (wellFormed : tree.WellFormed) (reordered : tree.Reordered tree') :
    tree'.WellFormed := by
  intro route entries leads
  obtain ⟨found, leads', same⟩ := reordered.symm.leads leads
  obtain ⟨entries', rfl, perm⟩ := same.names_perm
  obtain ⟨nodup, names⟩ := wellFormed route entries' leads'
  refine ⟨perm.nodup_iff.mpr nodup, ?_⟩
  intro entry there
  obtain ⟨entry', there', same'⟩ := List.mem_map.mp (perm.mem_iff.mp (List.mem_map_of_mem there))
  rw [← same']
  exact names entry' there'

/-! ## Paths that lead to entries -/

theorem lookup_of_mem (nodup : (entries.map Prod.fst).Nodup) (there : (name, inner) ∈ entries) :
    entries.lookup name = some inner := by
  cases found : entries.lookup name with
  | none => exact absurd (List.lookup_eq_none_iff.mp found (name, inner) there) (by simp)
  | some other => rw [eq_of_mem_entries nodup there (mem_of_lookup found)]

section

variable {around beyond : List Tree} {outer : Tree} {part : String} {rest : List String}

theorem follow_blank (blank : part = "" ∨ part = ".") :
    (directory entries).follow around (part :: rest) =
      (directory entries).follow around rest := by
  rw [follow.eq_def]
  exact if_pos blank

theorem follow_above :
    (directory entries).follow (outer :: beyond) (".." :: rest) = outer.follow beyond rest := by
  rw [follow, if_neg (by decide), if_pos rfl]

theorem follow_entry (given : ¬ (part = "" ∨ part = ".")) (down : part ≠ "..")
    (there : entries.lookup part = some inner) :
    (directory entries).follow around (part :: rest) =
      inner.follow (directory entries :: around) rest := by
  simp only [follow.eq_def _ _ (part :: rest), if_neg given, if_neg down, there]

/-- **The parts of a path are followed one after the other.** They lead nowhere, or the way goes on
from the place to which they lead. -/
theorem follow_append_cases (place : Tree) (around : List Tree) (parts : List String) :
    (∀ more, place.follow around (parts ++ more) = none) ∨
      ∃ (found : Tree) (around' : List Tree), ∀ more,
        place.follow around (parts ++ more) = found.follow around' more := by
  fun_induction follow place around parts with
  | case1 place around => exact .inr ⟨place, around, fun more => rfl⟩
  | case2 => exact .inl fun more => rfl
  | case3 around part rest entries blank ih =>
      simpa only [List.cons_append, follow_blank blank] using ih
  | case4 rest entries outer beyond _ ih =>
      simpa only [List.cons_append, follow_above] using ih
  | case5 => exact .inl fun more => rfl
  | case6 around part rest entries given down inner there ih =>
      simpa only [List.cons_append, follow_entry given down there] using ih
  | case7 around part rest entries given down missing =>
      refine .inl fun more => ?_
      simp only [List.cons_append, follow.eq_def _ _ (part :: _), if_neg given, if_neg down,
        missing]

end

/-- A slash at the end of a path to a directory makes no difference to where the path goes on. -/
theorem follow_split_append {root : Tree} {path parent : String}
    (shape : path = parent ∨ path = parent ++ "/")
    (reached : root.follow [] (Path.split path) = some (directory entries)) :
    ∃ around, ∀ more, root.follow [] (Path.split parent ++ more) =
      (directory entries).follow around more := by
  obtain ⟨ending, blank, parts⟩ : ∃ ending, (ending = [] ∨ ending = [""]) ∧
      Path.split path = Path.split parent ++ ending := by
    rcases shape with rfl | rfl
    · exact ⟨[], .inl rfl, (List.append_nil _).symm⟩
    · refine ⟨[""], .inr rfl, ?_⟩
      rw [← String.append_empty (s := parent ++ "/"), Path.split_append_slash]
      rfl
  rw [parts] at reached
  rcases follow_append_cases root [] (Path.split parent) with nowhere | ⟨found, around, onward⟩
  · rw [nowhere] at reached
    cases reached
  · rw [onward] at reached
    -- The empty part behind a last slash is followed from a directory only, and stays there.
    have same : found = directory entries := by
      rcases blank with rfl | rfl
      · exact Option.some.inj reached
      · cases found with
        | file text => cases reached
        | directory entries' =>
            rw [follow_blank (.inl rfl)] at reached
            exact Option.some.inj reached
    exact ⟨around, fun more => by rw [onward, same]⟩

/-- **The path of an entry leads to the entry,** if that of the directory leads to the directory. -/
theorem resolve?_join {root : Tree} {path : String} (isName : Path.IsName name)
    (reached : root.resolve? path = some (directory entries))
    (there : entries.lookup name = some inner) :
    root.resolve? (Path.join path name) = some inner := by
  by_cases outside : path.toList.head? = some '/' ∨ path = ""
  · rw [resolve?, if_pos outside] at reached
    cases reached
  · -- The path of the entry goes on from that of the directory, so it is relative as well.
    obtain ⟨relative, given⟩ := not_or.mp outside
    rw [resolve?, if_neg outside] at reached
    have inside : ¬ ((Path.join path name).toList.head? = some '/' ∨ Path.join path name = "") := by
      have first := Path.head?_join given name
      rintro (absolute | empty)
      · exact relative (first.symm.trans absolute)
      · rw [empty] at first
        exact given (by simpa using first.symm)
    obtain ⟨parent, shape, joined⟩ := Path.exists_join_eq given name
    obtain ⟨around, onward⟩ := follow_split_append shape reached
    rw [resolve?, if_neg inside, joined, Path.split_append_slash, isName.split_eq, onward,
      follow_entry (by simp [isName.nonempty, isName.not_here]) isName.not_above there]
    rfl

/-- **The path of a route leads where the route leads.** -/
theorem resolve?_along {root : Tree} {path : String} (leads : tree.Leads route found)
    (wellFormed : tree.WellFormed) (reached : root.resolve? path = some tree) :
    root.resolve? (Path.along path route) = some found := by
  induction leads generalizing path with
  | here tree => exact reached
  | into there _ ih =>
      rw [Path.along_cons]
      exact ih (wellFormed.entry there) (resolve?_join (wellFormed.isName there) reached
        (lookup_of_mem wellFormed.nodup there))

end Tree

end Lending
