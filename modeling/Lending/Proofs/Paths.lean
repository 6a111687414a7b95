import Lending.Files.Loading
import Lending.Proofs.Utf8
import Mathlib.Data.List.TakeWhile

/-!
# Paths below a directory

The path of an entry is that of its directory with one more component (`IsName.components_join`),
whether or not the path of the directory ends in a slash, and so on along a route of names
(`components_along`). So a route can be read back from its path, and two entries have different
paths.

* **extension** — whether the file behind a path is a program is told by its name alone
  (`IsName.isSome_ofPath?_join_iff`);
* **order** — paths are ordered by their components, and these by their bytes (`le_iff`), so that a
  directory stands where its name stands and not where its first slash does.
-/

namespace Lending

namespace Path

/-! ## Components -/

theorem splitFrom_append_slash (current chars rest : List Char) :
    splitFrom current (chars ++ '/' :: rest) = splitFrom current chars ++ splitFrom [] rest := by
  fun_induction splitFrom current chars with
  | case1 current => rw [List.nil_append, splitFrom, List.singleton_append]
  | case2 current chars ih => rw [List.cons_append, splitFrom, ih, List.cons_append]
  | case3 current c chars other ih =>
      rw [List.cons_append, splitFrom, ih]
      exact other

theorem splitFrom_of_not_mem {chars : List Char} (whole : '/' ∉ chars) (current : List Char) :
    splitFrom current chars = [String.ofList (current.reverse ++ chars)] := by
  fun_induction splitFrom current chars with
  | case1 current => rw [List.append_nil]
  | case2 current chars ih => exact absurd List.mem_cons_self whole
  | case3 current c chars other ih =>
      rw [ih fun there => whole (List.mem_cons_of_mem c there), List.reverse_cons,
        List.append_assoc, List.singleton_append]

theorem split_append_slash (before after : String) :
    split (before ++ "/" ++ after) = split before ++ split after := by
  have chars : (before ++ "/" ++ after).toList = before.toList ++ '/' :: after.toList := by
    simp
  rw [split, chars, splitFrom_append_slash]
  rfl

theorem components_append_slash (before after : String) :
    components (before ++ "/" ++ after) = components before ++ components after := by
  rw [components, split_append_slash, List.filter_append]
  rfl

/-- **A name that an entry of a directory can have.** -/
@[mk_iff]
structure IsName (name : String) : Prop where
  whole : '/' ∉ name.toList
  nonempty : name ≠ ""
  not_here : name ≠ "."
  not_above : name ≠ ".."

instance (name : String) : Decidable (IsName name) :=
  decidable_of_iff' _ (isName_iff name)

variable {name : String}

theorem IsName.split_eq (isName : IsName name) : split name = [name] := by
  rw [split, splitFrom_of_not_mem isName.whole, List.reverse_nil, List.nil_append,
    String.ofList_toList]

theorem IsName.components_eq (isName : IsName name) : components name = [name] := by
  rw [components, isName.split_eq]
  simp [isName.nonempty, isName.not_here]

theorem components_empty : components "" = [] := by
  decide

/-- **The path of an entry.** A slash at the end of the directory is not doubled. -/
theorem exists_join_eq {directory : String} (given : directory ≠ "") (name : String) :
    ∃ parent, (directory = parent ∨ directory = parent ++ "/") ∧
      join directory name = parent ++ "/" ++ name := by
  by_cases closed : directory.toList.getLast? = some '/'
  · obtain ⟨chars, ends⟩ := List.getLast?_eq_some_iff.mp closed
    have shape : directory = String.ofList chars ++ "/" := by
      rw [← String.toList_inj, ends]
      simp
    exact ⟨String.ofList chars, .inr shape, by rw [join, if_pos (.inr closed), ← shape]⟩
  · exact ⟨directory, .inl rfl, by rw [join, if_neg (by simp [given, closed])]⟩

theorem head?_join {directory : String} (given : directory ≠ "") (name : String) :
    (join directory name).toList.head? = directory.toList.head? := by
  have nonempty : directory.toList ≠ [] := by simpa using given
  rw [join]
  split
  · rw [String.toList_append, List.head?_append_of_ne_nil _ nonempty]
  · rw [String.append_assoc, String.toList_append, List.head?_append_of_ne_nil _ nonempty]

/-- **An entry has one component more than its directory.** -/
theorem IsName.components_join (isName : IsName name) (directory : String) :
    components (join directory name) = components directory ++ [name] := by
  by_cases given : directory = ""
  · rw [given, join, if_pos (.inl rfl), String.empty_append, components_empty, List.nil_append,
      isName.components_eq]
  · obtain ⟨parent, shape, joined⟩ := exists_join_eq given name
    have same : components directory = components parent := by
      rcases shape with rfl | rfl
      · rfl
      · rw [← String.append_empty (s := parent ++ "/"), components_append_slash, components_empty,
          List.append_nil]
    rw [joined, components_append_slash, isName.components_eq, same]

/-- The path of what stands at the end of a route of names. -/
def along (path : String) (route : List String) : String :=
  route.foldl join path

theorem along_nil (path : String) : along path [] = path :=
  rfl

theorem along_cons (path name : String) (route : List String) :
    along path (name :: route) = along (join path name) route :=
  rfl

theorem along_concat (path name : String) (route : List String) :
    along path (route ++ [name]) = join (along path route) name := by
  rw [along, List.foldl_append]
  rfl

theorem components_along {route : List String} (names : ∀ name ∈ route, IsName name)
    (path : String) : components (along path route) = components path ++ route := by
  induction route generalizing path with
  | nil => rw [along_nil, List.append_nil]
  | cons name route ih =>
      have isName := names name List.mem_cons_self
      rw [along_cons, ih fun other there => names other (List.mem_cons_of_mem name there),
        isName.components_join, List.append_assoc, List.singleton_append]

/-! ## Extensions -/

theorem IsName.fileName?_join (isName : IsName name) (directory : String) :
    fileName? (join directory name) = some name := by
  rw [fileName?, isName.components_join, List.getLast?_concat]
  split
  · rename_i above
    exact absurd (Option.some.inj above) isName.not_above
  · rfl

/-- A name is split at its last dot. -/
theorem splitName_append {stem ext : String} (given : stem ≠ "") (last : '.' ∉ ext.toList) :
    splitName (stem ++ "." ++ ext) = (stem, some ext) := by
  have reversed : (stem ++ "." ++ ext).toList.reverse =
      ext.toList.reverse ++ '.' :: stem.toList.reverse := by simp
  have plain : ∀ c ∈ ext.toList.reverse, (c != '.') = true := by
    intro c there
    rw [bne_iff_ne]
    rintro rfl
    exact last (List.mem_reverse.mp there)
  obtain ⟨c, before, chars⟩ : ∃ c before, stem.toList.reverse = c :: before := by
    apply List.exists_cons_of_ne_nil
    simpa using given
  have after : (ext.toList.reverse ++ '.' :: stem.toList.reverse).takeWhile (· != '.') =
      ext.toList.reverse := by
    rw [List.takeWhile_append_of_pos plain]
    simp
  have fromDot : (ext.toList.reverse ++ '.' :: stem.toList.reverse).dropWhile (· != '.') =
      '.' :: c :: before := by
    rw [List.dropWhile_append_of_pos plain, chars]
    simp
  simp only [splitName, reversed, after, fromDot]
  rw [← chars, List.reverse_reverse, List.reverse_reverse, String.ofList_toList,
    String.ofList_toList]

/-- **The extension** is what follows the last dot, if something stands before it. -/
theorem splitName_eq_some_iff {name ext : String} :
    (splitName name).2 = some ext ↔
      '.' ∉ ext.toList ∧ ∃ stem, stem ≠ "" ∧ name = stem ++ "." ++ ext := by
  constructor
  · intro found
    simp only [splitName] at found
    split at found
    · rename_i dot c before fromDot
      have isDot : dot = '.' := by
        have first := List.head?_dropWhile_not (· != '.') name.toList.reverse
        rw [fromDot] at first
        simpa using first
      have chars : name.toList =
          (name.toList.reverse.takeWhile (· != '.') ++ dot :: c :: before).reverse := by
        rw [← fromDot, List.takeWhile_append_dropWhile, List.reverse_reverse]
      obtain rfl := Option.some.inj found
      refine ⟨?_, String.ofList (c :: before).reverse, by simp, ?_⟩
      · intro there
        rw [String.toList_ofList, List.mem_reverse] at there
        exact absurd (List.mem_takeWhile_imp there) (by simp)
      · exact String.toList_inj.mp (chars.trans (by simp [isDot]))
    · exact absurd found (by simp)
  · rintro ⟨last, stem, given, rfl⟩
    rw [splitName_append given last]

theorem IsName.extension?_join (isName : IsName name) (directory : String) :
    extension? (join directory name) = (splitName name).2 := by
  rw [extension?, isName.fileName?_join, Option.bind_some]

theorem find?_extension_eq_some_iff {format : Format} {found : String} :
    Format.all.find? (fun format => format.extension == found) = some format ↔
      found = format.extension := by
  constructor
  · intro chosen
    have same := List.find?_some chosen
    exact (beq_iff_eq.mp same).symm
  · rintro rfl
    cases format <;> decide

/-- **The path of an entry has the format that the name of the entry has.** -/
theorem IsName.ofPath?_join_eq_some_iff (isName : IsName name) (directory : String)
    (format : Format) :
    Format.ofPath? (join directory name) = some format ↔
      ∃ stem, stem ≠ "" ∧ name = stem ++ "." ++ format.extension := by
  have plain : '.' ∉ format.extension.toList := by
    cases format <;> decide
  rw [Format.ofPath?, isName.extension?_join, Option.bind_eq_some_iff]
  simp only [find?_extension_eq_some_iff, exists_eq_right, splitName_eq_some_iff, plain,
    not_false_eq_true, true_and]

/-- **A program** is told by its name: something stands before the extension. -/
def IsProgram (name : String) : Prop :=
  ∃ stem, stem ≠ "" ∧ (name = stem ++ ".json" ∨ name = stem ++ ".toml")

theorem IsName.isSome_ofPath?_join_iff (isName : IsName name) (directory : String) :
    (Format.ofPath? (join directory name)).isSome = true ↔ IsProgram name := by
  rw [Option.isSome_iff_exists]
  simp only [isName.ofPath?_join_eq_some_iff, String.append_assoc]
  constructor
  · rintro ⟨format, stem, given, shape⟩
    cases format with
    | json => exact ⟨stem, given, .inl shape⟩
    | toml => exact ⟨stem, given, .inr shape⟩
  · rintro ⟨stem, given, shape | shape⟩
    · exact ⟨.json, stem, given, shape⟩
    · exact ⟨.toml, stem, given, shape⟩

/-! ## Order -/

/-- **The order of paths.** The first components that differ decide, by their bytes, and a path
comes before those that go on from it. -/
def Before (left right : String) : Prop :=
  List.Lex (fun first second => List.Lex (· < ·) (Text.bytes first) (Text.bytes second))
    (components left) (components right)

theorem before_iff {left right : String} :
    Before left right ↔ components left < components right := by
  simp only [Before, ← Text.lt_iff_lex_bytes]
  exact (List.lt_iff_lex_lt _ _).symm

example : Before "a/b.json" "a-b.json" :=
  before_iff.mpr (by decide)

theorem le_iff {left right : String} :
    le left right = true ↔ components left ≤ components right := by
  rw [le, Bool.not_eq_true', ← Bool.not_eq_true, List.lex_eq_true_iff_lex, ← not_lt]
  simp only [decide_eq_true_iff]
  rfl

theorem le_trans {first second third : String} (before : le first second = true)
    (after : le second third = true) : le first third = true := by
  rw [le_iff] at before after ⊢
  exact before.trans after

theorem le_total (left right : String) : (le left right || le right left) = true := by
  rw [Bool.or_eq_true, le_iff, le_iff]
  exact LinearOrder.le_total _ _

end Path

end Lending
