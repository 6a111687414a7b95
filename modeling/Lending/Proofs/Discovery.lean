import Lending.Proofs.Trees

/-!
# Program files below a directory

The search goes through a directory entry by entry and into the directories among them, and sorts
what it has collected by path.

* **completeness** — what is collected are the files to which a route leads and whose names have one
  of the extensions (`Tree.mem_programFiles`), so directories are searched and never listed;
* **no repetition** — routes part at entries with different names (`Tree.pairwise_programFiles`);
* **order** — there is one list of given files in strictly rising order (`Listing.unique`), so the
  order in which the entries of a directory are listed makes no difference.
-/

namespace Lending

namespace Tree

variable {tree : Tree} {entries : List (String × Tree)} {path : String}

/-! ## The files that are collected -/

theorem programFiles_directory (path : String) (entries : List (String × Tree)) :
    (directory entries).programFiles path =
      entries.flatMap fun entry => entry.2.programFiles (Path.join path entry.1) := by
  rw [programFiles]
  induction entries with
  | nil => rw [programFilesOf, List.flatMap_nil]
  | cons entry rest ih => rw [programFilesOf, ih, List.flatMap_cons]

/-- **The files at and below a place** are those to which a route leads. -/
theorem mem_programFiles {location : String} {file : Tree} :
    (location, file) ∈ tree.programFiles path ↔ ∃ route text, file = .file text ∧
      tree.Leads route file ∧ location = Path.along path route ∧
      (Format.ofPath? location).isSome = true := by
  induction tree using entries_induction generalizing path with
  | file text =>
      rw [programFiles]
      constructor
      · intro listed
        split at listed
        · rename_i isProgram
          obtain ⟨rfl, rfl⟩ := Prod.mk.inj (List.mem_singleton.mp listed)
          exact ⟨[], text, rfl, .here _, rfl, isProgram⟩
        · exact absurd listed List.not_mem_nil
      · rintro ⟨route, text', rfl, leads, rfl, isProgram⟩
        cases leads with
        | here =>
            rw [Path.along_nil] at isProgram ⊢
            rw [if_pos isProgram]
            exact List.mem_singleton.mpr rfl
  | directory entries ih =>
      rw [programFiles_directory, List.mem_flatMap]
      constructor
      · rintro ⟨⟨name, inner⟩, there, listed⟩
        obtain ⟨route, text, isFile, leads, location, isProgram⟩ := (ih name inner there).mp listed
        exact ⟨name :: route, text, isFile, .into there leads, location, isProgram⟩
      · rintro ⟨route, text, rfl, leads, location, isProgram⟩
        cases leads with
        | into there leads =>
            exact ⟨_, there, (ih _ _ there).mpr ⟨_, text, rfl, leads, location, isProgram⟩⟩

theorem mem_programFiles_directory (wellFormed : (directory entries).WellFormed)
    (location : String) (file : Tree) :
    (location, file) ∈ (directory entries).programFiles path ↔
      ∃ route name text, file = .file text ∧ (directory entries).Leads (route ++ [name]) file ∧
        Path.IsProgram name ∧ location = Path.along path (route ++ [name]) := by
  rw [mem_programFiles]
  have format : ∀ {route name file}, (directory entries).Leads (route ++ [name]) file →
      ((Format.ofPath? (Path.along path (route ++ [name]))).isSome = true ↔
        Path.IsProgram name) := by
    intro route name file leads
    have isName := leads.isName wellFormed name (by simp)
    rw [Path.along_concat, isName.isSome_ofPath?_join_iff]
  constructor
  · rintro ⟨route, text, rfl, leads, rfl, isProgram⟩
    obtain ⟨names, name, rfl⟩ := leads.exists_concat
    exact ⟨names, name, text, rfl, leads, (format leads).mp isProgram, rfl⟩
  · rintro ⟨names, name, text, isFile, leads, isProgram, rfl⟩
    exact ⟨names ++ [name], text, isFile, leads, rfl, (format leads).mpr isProgram⟩

theorem components_of_mem_programFiles {entry : String × Tree}
    (wellFormed : tree.WellFormed) (listed : entry ∈ tree.programFiles path) :
    ∃ route, Path.components entry.1 = Path.components path ++ route := by
  obtain ⟨route, text, -, leads, location, -⟩ := mem_programFiles.mp listed
  exact ⟨route, by rw [location, leads.components_along wellFormed]⟩

/-- **No two files have the same path.** Their routes part at some directory, and the entries of
this directory have different names. -/
theorem pairwise_programFiles (path : String) (wellFormed : tree.WellFormed) :
    (tree.programFiles path).Pairwise fun first second =>
      Path.components first.1 ≠ Path.components second.1 := by
  induction tree using entries_induction generalizing path with
  | file text =>
      rw [programFiles]
      split
      · exact List.pairwise_singleton _ _
      · exact List.Pairwise.nil
  | directory entries ih =>
      rw [programFiles_directory, List.pairwise_flatMap]
      constructor
      · rintro ⟨name, inner⟩ there
        exact ih name inner there (Path.join path name) (wellFormed.entry there)
      · apply (List.pairwise_map.mp wellFormed.nodup).imp_of_mem
        rintro ⟨name, inner⟩ ⟨name', inner'⟩ there there' different first listed second listed' same
        -- Both paths go on from the directory, and their next components are the two names.
        obtain ⟨route, here⟩ := components_of_mem_programFiles (wellFormed.entry there) listed
        obtain ⟨route', here'⟩ := components_of_mem_programFiles (wellFormed.entry there') listed'
        rw [here, here', (wellFormed.isName there).components_join,
          (wellFormed.isName there').components_join, List.append_assoc, List.append_assoc,
          List.append_cancel_left_eq] at same
        exact different (List.cons.inj same).1

end Tree

/-! ## The list of program files -/

/-- **The program files below a directory** with a given path: the files at the end of any route
whose names have one of the extensions, each once, ordered by the components of their paths. -/
structure Listing (path : String) (tree : Tree) (found : List (String × Tree)) : Prop where
  mem_iff : ∀ location file, (location, file) ∈ found ↔ ∃ route name text, file = .file text ∧
    tree.Leads (route ++ [name]) file ∧ Path.IsProgram name ∧
    location = Path.along path (route ++ [name])
  nodup : (found.map Prod.fst).Nodup
  sorted : (found.map Prod.fst).Pairwise Path.Before

variable {path : String} {entries : List (String × Tree)} {tree : Tree}
  {found found' : List (String × Tree)}

/-- There is only one such list. -/
theorem Listing.unique (listing : Listing path tree found) (listing' : Listing path tree found') :
    found = found' := by
  have perm : found.Perm found' := by
    rw [List.perm_ext_iff_of_nodup listing.nodup.of_map listing'.nodup.of_map]
    intro entry
    rw [listing.mem_iff, listing'.mem_iff]
  refine perm.eq_of_pairwise ?_ (List.pairwise_map.mp listing.sorted)
    (List.pairwise_map.mp listing'.sorted)
  intro entry entry' _ _ before after
  rw [Path.before_iff] at before after
  exact absurd (before.trans after) (lt_irrefl _)

/-- **Sorting gives the list.** -/
theorem listing_mergeSort (wellFormed : (Tree.directory entries).WellFormed) (path : String) :
    Listing path (.directory entries) (((Tree.directory entries).programFiles path).mergeSort
      fun left right => Path.le left.1 right.1) := by
  have ordered : (((Tree.directory entries).programFiles path).mergeSort
      fun left right => Path.le left.1 right.1).Pairwise
        fun left right => Path.le left.1 right.1 = true := by
    apply List.pairwise_mergeSort
    · intro first second third
      exact Path.le_trans
    · intro left right
      exact Path.le_total left.1 right.1
  have different := ((List.mergeSort_perm _ fun left right => Path.le left.1 right.1).pairwise_iff
    Ne.symm).mpr (Tree.pairwise_programFiles path wellFormed)
  -- No two paths have the same components, so what is sorted rises strictly.
  have sorted := (ordered.and different).imp fun both =>
    Path.before_iff.mpr (lt_of_le_of_ne (Path.le_iff.mp both.1) both.2)
  refine ⟨?_, ?_, List.pairwise_map.mpr sorted⟩
  · intro location file
    rw [List.mem_mergeSort, Tree.mem_programFiles_directory wellFormed]
  · refine List.pairwise_map.mpr (different.imp ?_)
    intro first second apart same
    exact apart (congrArg Path.components same)

/-- **The order of entries makes no difference.** -/
theorem Listing.reordered {tree' : Tree} (listing : Listing path tree found)
    (reordered : tree.Reordered tree') : Listing path tree' found := by
  refine { listing with mem_iff := ?_ }
  intro location file
  rw [listing.mem_iff]
  constructor
  · rintro ⟨route, name, text, rfl, leads, further⟩
    exact ⟨route, name, text, rfl, reordered.leads_file leads, further⟩
  · rintro ⟨route, name, text, rfl, leads, further⟩
    exact ⟨route, name, text, rfl, reordered.symm.leads_file leads, further⟩

/-- **The search finds the list.** -/
theorem listing_findPrograms (wellFormed : (Tree.directory entries).WellFormed) (path : String) :
    ∃ found, findPrograms path (some (.directory entries)) = .ok found ∧
      Listing path (.directory entries) found :=
  ⟨_, by rw [findPrograms, ← Tree.programFiles], listing_mergeSort wellFormed path⟩

theorem Listing.directory_not_mem {inner : List (String × Tree)} {route : List String}
    (listing : Listing path tree found) (wellFormed : tree.WellFormed)
    (leads : tree.Leads route (.directory inner)) : Path.along path route ∉ found.map Prod.fst := by
  intro listed
  obtain ⟨⟨location, file⟩, there, same⟩ := List.mem_map.mp listed
  obtain ⟨names, name, text, rfl, leads', -, rfl⟩ := (listing.mem_iff location file).mp there
  obtain rfl := leads'.along_inj leads wellFormed same
  cases leads'.unique leads wellFormed

/-- **Discovery is complete, free of repetition and independent of the order of entries.** For every
well-formed directory and whatever path it has, the search succeeds. It lists exactly the files at
any depth below the directory whose names end in `.json` or `.toml` behind something else, each with
its path and once, ordered by the components of the paths, which are those of the directory and the
names on the way down; there is only one such list. It is the same in whatever order the directory
and those below it list their entries. A directory is not listed, whatever its name. Wherever the
path of the directory leads to the directory, the paths that are listed lead to the files. Names are
Unicode texts, as everywhere in a tree: of entries whose names are not UTF-8 nothing is said. -/
theorem discovery_exact (wellFormed : (Tree.directory entries).WellFormed) (path : String) :
    ∃ found, findPrograms path (some (.directory entries)) = .ok found ∧
      Listing path (.directory entries) found ∧
      (∀ other, Listing path (.directory entries) other → other = found) ∧
      (∀ route place, (Tree.directory entries).Leads route place →
        Path.components (Path.along path route) = Path.components path ++ route) ∧
      (∀ tree, (Tree.directory entries).Reordered tree →
        findPrograms path (some tree) = .ok found) ∧
      (∀ route inner, (Tree.directory entries).Leads route (.directory inner) →
        Path.along path route ∉ found.map Prod.fst) ∧
      ∀ root : Tree, root.resolve? path = some (.directory entries) →
        ∀ entry ∈ found, root.resolve? entry.1 = some entry.2 := by
  obtain ⟨found, searched, listing⟩ := listing_findPrograms wellFormed path
  refine ⟨found, searched, listing, fun other listing' => listing'.unique listing, ?_, ?_, ?_,
    ?_⟩
  · intro route place leads
    exact leads.components_along wellFormed path
  · intro tree reordered
    obtain ⟨entries', rfl, -⟩ := reordered.names_perm
    obtain ⟨found', searched', listing'⟩ :=
      listing_findPrograms (wellFormed.reordered reordered) path
    rw [searched', listing'.unique (listing.reordered reordered)]
  · intro route inner leads
    exact listing.directory_not_mem wellFormed leads
  · rintro root reached ⟨location, file⟩ listed
    obtain ⟨route, name, text, -, leads, -, rfl⟩ := (listing.mem_iff location file).mp listed
    exact Tree.resolve?_along leads wellFormed reached

/-- A directory with a directory that has the name of a program, and a file that is all
extension. -/
def scattered : List (String × Tree) :=
  [("a", .directory [("notes.txt", .file "1"), ("b.json", .file "2")]),
    ("a-b.json", .file "3"),
    ("x.json", .directory [("y.toml", .file "4"), (".json", .file "5")])]

/-- The entries of `a` come before `a-b.json`, although a hyphen comes before a slash. The entries
may be listed the other way round. -/
theorem discovery_exact_scattered :
    (Tree.directory scattered).WellFormed ∧
    findPrograms "./" (some (.directory scattered.reverse)) =
      .ok [("./a/b.json", .file "2"), ("./a-b.json", .file "3"), ("./x.json/y.toml", .file "4")] ∧
    (Tree.directory scattered).resolve? "./x.json/y.toml" = some (.file "4") := by
  have wellFormed : (Tree.directory scattered).WellFormed := by
    simp only [scattered, Tree.wellFormed_directory_iff, Tree.wellFormed_file,
      List.forall_mem_cons, List.not_mem_nil, false_implies, implies_true]
    decide
  obtain ⟨found, searched, -, -, -, unordered, -, lead⟩ := discovery_exact wellFormed "./"
  -- The files are collected in order from this list, so there is nothing to sort.
  have collected : Tree.programFilesOf "./" scattered =
      [("./a/b.json", .file "2"), ("./a-b.json", .file "3"), ("./x.json/y.toml", .file "4")] := by
    rfl
  have sorted : [("./a/b.json", Tree.file "2"), ("./a-b.json", .file "3"),
      ("./x.json/y.toml", .file "4")].Pairwise fun left right => Path.le left.1 right.1 := by
    simp only [List.pairwise_cons]
    decide
  rw [findPrograms, collected, List.mergeSort_of_pairwise sorted] at searched
  obtain rfl := Except.ok.inj searched
  exact ⟨wellFormed, unordered _ (.perm (List.reverse_perm scattered).symm),
    lead (.directory scattered) (by rfl) ("./x.json/y.toml", .file "4") (by simp)⟩

end Lending
