import Mathlib.Data.List.Induction
import Reckon.FileTree

/-!
# Ways in a tree of files

A path describes a way from the root, name by name. Where a way leads to is a matter of its
names alone; the tree decides how far one gets on it. So a way that can be walked in one
tree can be walked in every tree that has a directory wherever the first has one.
-/

namespace Reckon

namespace Path

/-! ## The names of a path -/

@[simp] theorem names_empty : names "" = [] := by decide

theorem names_append_slash (front back : List Char) :
    names (String.ofList (front ++ '/' :: back)) =
      names (String.ofList front) ++ names (String.ofList back) := by
  simp only [names, String.toList_ofList, List.splitOn_append_cons_self, List.map_append,
    List.filter_append]

/-- A text without slashes is a name. -/
theorem names_eq_singleton {name : String} (noSlash : '/' ∉ name.toList)
    (nonempty : name ≠ "") (noDot : name ≠ ".") : names name = [name] := by
  simp [names, List.splitOn_eq_singleton noSlash, nonempty, noDot]

/-- Below a folder the names of the folder come first. -/
theorem names_join (folder : String) {path : String} (relative : path.toList.head? ≠ some '/') :
    names (join folder path) = names folder ++ names path := by
  rw [join, if_neg relative]
  split
  next closed =>
    rw [Bool.or_eq_true, decide_eq_true_eq, String.isEmpty_iff] at closed
    rcases closed with rfl | slash
    · simp
    · obtain ⟨front, shape⟩ := List.getLast?_eq_some_iff.1 slash
      have folder_eq : folder = String.ofList (front ++ '/' :: []) := by
        rw [← shape, String.ofList_toList]
      have path_eq : path = String.ofList path.toList := String.ofList_toList.symm
      have whole : folder ++ path = String.ofList (front ++ '/' :: path.toList) := by
        rw [folder_eq]
        apply String.toList_injective
        simp
      rw [whole, names_append_slash, folder_eq, names_append_slash, ← path_eq]
      simp
  next =>
    have whole : folder ++ "/" ++ path =
        String.ofList (folder.toList ++ '/' :: path.toList) := by
      apply String.toList_injective
      simp
    rw [whole, names_append_slash, String.ofList_toList, String.ofList_toList]

/-! ## Where a way leads to -/

/-- Where a name leads to from a place. -/
def hop (place : List String) (name : String) : List String :=
  if name = ".." then place.dropLast else place ++ [name]

/-- The place that a way leads to from the root. -/
def place (names : List String) : List String :=
  names.foldl hop []

/-- The places that a way comes by, its end included. -/
def OnWay (names : List String) (station : List String) : Prop :=
  ∃ front, front <+: names ∧ station = place front

theorem OnWay.refl (names : List String) : OnWay names (place names) :=
  ⟨names, List.prefix_refl names, rfl⟩

/-- A way comes by whatever its beginnings come by. -/
theorem OnWay.mono {front names station : List String} (within : front <+: names)
    (onWay : OnWay front station) : OnWay names station :=
  let ⟨part, beginning, arrives⟩ := onWay
  ⟨part, beginning.trans within, arrives⟩

end Path

namespace FileTree

variable {tree after : FileTree} {there : List String}

/-! ## Walking -/

/-- A name leads on from directories only. -/
theorem step_eq_ok_iff {start : List String} {name : String} :
    tree.step start name = .ok there ↔
      tree.find? start = some .directory ∧
        (name = ".." ∨ name.utf8ByteSize ≤ nameLimit) ∧ there = Path.hop start name := by
  unfold step Path.hop
  by_cases directory : tree.find? start = some .directory
  · by_cases up : name = ".."
    · simp [directory, up, eq_comm]
    · by_cases long : nameLimit < name.utf8ByteSize
      · have notShort : ¬ name.utf8ByteSize ≤ nameLimit := by omega
        simp [directory, up, long, notShort]
      · have short : name.utf8ByteSize ≤ nameLimit := by omega
        simp [directory, up, long, short, eq_comm]
  · simp [directory]

/-- A way goes on where its first name leads, and something must be there. -/
theorem walk_cons_eq_ok_iff {start names : List String} {name : String} :
    tree.walk start (name :: names) = .ok there ↔
      ∃ next, tree.step start name = .ok next ∧ (tree.find? next).isSome ∧
        tree.walk next names = .ok there := by
  rw [walk]
  cases tree.step start name with
  | error error => simp
  | ok next => cases something : tree.find? next <;> simp [something]

/-- A way leads to the place that its names say. -/
theorem walk_eq_foldl {start names : List String} (walks : tree.walk start names = .ok there) :
    there = names.foldl Path.hop start := by
  induction names generalizing start with
  | nil => simpa [walk] using walks.symm
  | cons name names ih =>
    obtain ⟨next, stepped, -, further⟩ := walk_cons_eq_ok_iff.1 walks
    rw [ih further, (step_eq_ok_iff.1 stepped).2.2, List.foldl_cons]

theorem walk_eq_place {names : List String} (walks : tree.walk [] names = .ok there) :
    there = Path.place names :=
  walk_eq_foldl walks

/-- The last step of a way may lead to nothing. -/
theorem locate_concat_eq_ok_iff {names : List String} {name : String} :
    tree.locate (names ++ [name]) = .ok there ↔
      ∃ station, tree.walk [] names = .ok station ∧ tree.step station name = .ok there := by
  rw [locate, List.dropLast_concat, List.getLast?_concat]
  cases tree.walk [] names <;> simp

/-- Where a way is walked to its end, its last step leads to something. -/
theorem walk_concat_eq_ok_iff {start names : List String} {name : String} :
    tree.walk start (names ++ [name]) = .ok there ↔
      ∃ station, tree.walk start names = .ok station ∧ tree.step station name = .ok there ∧
        (tree.find? there).isSome := by
  induction names generalizing start with
  | nil =>
    rw [List.nil_append, walk_cons_eq_ok_iff]
    constructor
    · rintro ⟨next, stepped, something, ends⟩
      cases ends
      exact ⟨start, rfl, stepped, something⟩
    · rintro ⟨station, stays, stepped, something⟩
      cases stays
      exact ⟨there, stepped, something, rfl⟩
  | cons first names ih =>
    simp only [List.cons_append, walk_cons_eq_ok_iff, ih]
    constructor
    · rintro ⟨next, stepped, something, station, walks, last⟩
      exact ⟨station, ⟨next, stepped, something, walks⟩, last⟩
    · rintro ⟨station, ⟨next, stepped, something, walks⟩, last⟩
      exact ⟨next, stepped, something, station, walks, last⟩

/-- What can be located is at the place that its names say. -/
theorem locate_eq_place {names : List String} (located : tree.locate names = .ok there) :
    there = Path.place names := by
  cases names using List.reverseRecOn with
  | nil => simpa [locate, walk, Path.place] using located.symm
  | append_singleton names name =>
    obtain ⟨station, walks, stepped⟩ := locate_concat_eq_ok_iff.1 located
    rw [(step_eq_ok_iff.1 stepped).2.2, walk_eq_place walks, Path.place, Path.place,
      List.foldl_append, List.foldl_cons, List.foldl_nil]

/-- A way that can be walked is the way to something. -/
theorem walk_eq_ok_iff_locate {names : List String} :
    tree.walk [] names = .ok there ↔
      tree.locate names = .ok there ∧ (tree.find? there).isSome := by
  cases names using List.reverseRecOn with
  | nil =>
    simp only [walk, locate, List.dropLast_nil, List.getLast?_nil, Except.ok.injEq,
      iff_self_and]
    rintro rfl
    rfl
  | append_singleton names name =>
    simp only [walk_concat_eq_ok_iff, locate_concat_eq_ok_iff, ← and_assoc, exists_and_right]

/-! ## Ways that stay -/

/-- Everything in a tree is still there in another one, and directories are still
directories. -/
structure Kept (tree after : FileTree) : Prop where
  directory : ∀ place, tree.find? place = some .directory → after.find? place = some .directory
  something : ∀ place, (tree.find? place).isSome → (after.find? place).isSome

theorem Kept.step (kept : Kept tree after) {start : List String} {name : String}
    (stepped : tree.step start name = .ok there) : after.step start name = .ok there := by
  obtain ⟨directory, fits, hop⟩ := step_eq_ok_iff.1 stepped
  exact step_eq_ok_iff.2 ⟨kept.directory _ directory, fits, hop⟩

theorem Kept.walk (kept : Kept tree after) {start names : List String}
    (walks : tree.walk start names = .ok there) : after.walk start names = .ok there := by
  induction names generalizing start with
  | nil => exact walks
  | cons name names ih =>
    obtain ⟨next, stepped, something, further⟩ := walk_cons_eq_ok_iff.1 walks
    exact walk_cons_eq_ok_iff.2 ⟨next, kept.step stepped, kept.something _ something, ih further⟩

theorem Kept.locate (kept : Kept tree after) {names : List String}
    (located : tree.locate names = .ok there) : after.locate names = .ok there := by
  cases names using List.reverseRecOn with
  | nil => exact located
  | append_singleton names name =>
    obtain ⟨station, walks, stepped⟩ := locate_concat_eq_ok_iff.1 located
    exact locate_concat_eq_ok_iff.2 ⟨station, kept.walk walks, kept.step stepped⟩

/-- There is a directory at the end of a way when the way can be walked and ends in one. -/
theorem isDirectory_iff {names : List String} :
    tree.isDirectory names = true ↔
      tree.walk [] names = .ok (Path.place names) ∧
        tree.find? (Path.place names) = some .directory := by
  rw [isDirectory]
  cases walks : tree.walk [] names with
  | error error => simp
  | ok station => simp [walk_eq_place walks]

theorem Kept.isDirectory (kept : Kept tree after) {names : List String}
    (directory : tree.isDirectory names = true) : after.isDirectory names = true :=
  let ⟨walks, found⟩ := isDirectory_iff.1 directory
  isDirectory_iff.2 ⟨kept.walk walks, kept.directory _ found⟩

end FileTree

end Reckon
