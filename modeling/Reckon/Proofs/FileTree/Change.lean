import Reckon.Proofs.FileTree.Way

/-!
# Changes of a tree of files

What the operations on a tree change, and what they leave as it was. Directories are made
only where nothing was, and only on the way to the one that is wanted; a file is written in
its own place. So both can be done again, and the tree stays as it is.
-/

namespace Reckon

namespace FileTree

variable {tree after : FileTree}

/-! ## One entry -/

theorem lookup_cons_eq_ite (names other : List String) (node : FileNode)
    (entries : List (List String × FileNode)) :
    ((names, node) :: entries).lookup other =
      if other = names then some node else entries.lookup other := by
  rw [List.lookup_cons]
  by_cases same : other = names
  · simp [same]
  · rw [if_neg same, beq_false_of_ne same]

theorem lookup_insertEntry (names other : List String) (node : FileNode)
    (entries : List (List String × FileNode)) :
    (insertEntry names node entries).lookup other =
      if other = names then some node else entries.lookup other := by
  induction entries with
  | nil => exact lookup_cons_eq_ite names other node []
  | cons entry entries ih =>
    obtain ⟨key, value⟩ := entry
    rw [insertEntry]
    split
    next here =>
      obtain rfl : key = names := here
      simp only [lookup_cons_eq_ite]
      split <;> rfl
    next elsewhere =>
      split
      · rw [lookup_cons_eq_ite]
      · rw [lookup_cons_eq_ite, ih, lookup_cons_eq_ite]
        by_cases same : other = key
        · rw [if_pos same, if_pos same, if_neg (same ▸ elsewhere)]
        · rw [if_neg same, if_neg same]

theorem find?_insert {names : List String} (below : names ≠ []) (node : FileNode)
    (other : List String) :
    (tree.insert names node).find? other =
      if other = names then some node else tree.find? other := by
  unfold find? insert
  split
  next root =>
    rw [List.isEmpty_iff] at root
    rw [if_neg (root ▸ below.symm)]
  · exact lookup_insertEntry names other node tree.entries

@[simp] theorem insertEntry_twice (names : List String) (node : FileNode)
    (entries : List (List String × FileNode)) :
    insertEntry names node (insertEntry names node entries) = insertEntry names node entries := by
  induction entries with
  | nil => simp [insertEntry]
  | cons entry entries ih =>
    rw [insertEntry]
    split
    · simp [insertEntry]
    next elsewhere =>
      split
      · simp [insertEntry]
      next behind => rw [insertEntry, if_neg elsewhere, if_neg behind, ih]

@[simp] theorem insert_insert (names : List String) (node : FileNode) :
    (tree.insert names node).insert names node = tree.insert names node :=
  congrArg FileTree.mk (insertEntry_twice names node tree.entries)

/-- A place other than that of a directory is not the root. -/
theorem ne_nil_of_find? {place : List String} (found : tree.find? place ≠ some .directory) :
    place ≠ [] := by
  rintro rfl
  exact found rfl

theorem Kept.insert {place : List String} (free : tree.find? place ≠ some .directory)
    (node : FileNode) : Kept tree (tree.insert place node) where
  directory other directory := by
    rw [find?_insert (ne_nil_of_find? free), if_neg, directory]
    rintro rfl
    exact free directory
  something other something := by
    rw [find?_insert (ne_nil_of_find? free)]
    split
    · rfl
    · exact something

/-! ## Directories -/

/-- The only change from one tree to another is that some places on a way are directories now
where nothing was. -/
def Grows (way : List String) (tree after : FileTree) : Prop :=
  ∀ place, after.find? place = tree.find? place ∨
    tree.find? place = none ∧ after.find? place = some .directory ∧ Path.OnWay way place

namespace Grows

variable {way : List String}

theorem refl (way : List String) (tree : FileTree) : Grows way tree tree :=
  fun _ => .inl rfl

theorem mono {front : List String} (within : front <+: way) (grows : Grows front tree after) :
    Grows way tree after := fun place =>
  (grows place).imp_right fun ⟨free, directory, onWay⟩ =>
    ⟨free, directory, onWay.mono within⟩

theorem trans {middle : FileTree} (first : Grows way tree middle)
    (second : Grows way middle after) : Grows way tree after := by
  intro place
  rcases second place with same | ⟨free, directory, onWay⟩
  · rw [same]
    exact first place
  · rcases first place with same | ⟨-, made, -⟩
    · exact .inr ⟨same ▸ free, directory, onWay⟩
    · rw [free] at made
      cases made

theorem kept (grows : Grows way tree after) : Kept tree after where
  directory place directory := by
    rcases grows place with same | ⟨free, -⟩
    · rw [same, directory]
    · rw [directory] at free
      cases free
  something place something := by
    rcases grows place with same | ⟨free, -⟩
    · rwa [same]
    · rw [free] at something
      cases something

/-- No file comes or goes, and none changes. -/
theorem file_iff (grows : Grows way tree after) (place : List String) (content : String) :
    after.find? place = some (.file content) ↔ tree.find? place = some (.file content) := by
  rcases grows place with same | ⟨free, directory, -⟩
  · rw [same]
  · simp [free, directory]

end Grows

theorem makeDirectory_eq_ok {names : List String} (made : tree.makeDirectory names = .ok after) :
    tree.locate names = .ok (Path.place names) ∧ tree.find? (Path.place names) = none ∧
      after = tree.insert (Path.place names) .directory := by
  unfold makeDirectory at made
  split at made
  · cases made
  next place located =>
    obtain rfl := locate_eq_place located
    split at made
    · cases made
    next free => exact ⟨located, by simpa using free, by simpa using made.symm⟩

theorem makeDirectoryUnlessThere_eq_ok {names : List String}
    (made : tree.makeDirectoryUnlessThere names = .ok after) :
    Grows names tree after ∧ after.isDirectory names = true := by
  unfold makeDirectoryUnlessThere at made
  split at made
  next new makes =>
    cases made
    obtain ⟨located, free, rfl⟩ := makeDirectory_eq_ok makes
    have noDirectory : tree.find? (Path.place names) ≠ some .directory := by simp [free]
    have inserted (place : List String) :
        (tree.insert (Path.place names) .directory).find? place =
          if place = Path.place names then some .directory else tree.find? place :=
      find?_insert (ne_nil_of_find? noDirectory) .directory place
    have found := (inserted (Path.place names)).trans (if_pos rfl)
    have walks := walk_eq_ok_iff_locate.2
      ⟨(Kept.insert noDirectory .directory).locate located, by simp [found]⟩
    refine ⟨fun place => ?_, isDirectory_iff.2 ⟨walks, found⟩⟩
    rw [inserted place]
    split
    next here => exact .inr ⟨here ▸ free, rfl, here ▸ .refl names⟩
    · exact .inl rfl
  next error _ =>
    split at made
    next there => cases made; exact ⟨.refl names tree, there⟩
    · cases made

/-- There is no need to make a directory that is there. -/
theorem makeDirectoryUnlessThere_of_isDirectory {names : List String}
    (there : tree.isDirectory names = true) : tree.makeDirectoryUnlessThere names = .ok tree := by
  unfold makeDirectoryUnlessThere
  split
  next after made =>
    have free := (makeDirectory_eq_ok made).2.1
    rw [(isDirectory_iff.1 there).2] at free
    cases free
  · rw [if_pos there]

/-- Whether all directories are made or not, the tree grows on the way to the last one. If
they are, then the last one is there. -/
theorem makeDirectories_grows (tree : FileTree) (reversed : List String) :
    Grows reversed.reverse tree (tree.makeDirectories reversed).2 ∧
      ((tree.makeDirectories reversed).1 = .ok () →
        (tree.makeDirectories reversed).2.isDirectory reversed.reverse = true) := by
  -- a second attempt is made in the tree that the directories above have left
  induction reversed with
  | nil => exact ⟨.refl [] tree, fun _ => rfl⟩
  | cons name above ih =>
    have within : above.reverse <+: (name :: above).reverse := by simp
    have failed (error : FileError) (stopped : FileTree) :
        (Except.error error, stopped).1 = .ok () →
          stopped.isDirectory (name :: above).reverse = true := nofun
    obtain ⟨growsAbove, -⟩ := ih
    rw [makeDirectories]
    split
    next made =>
      exact (makeDirectoryUnlessThere_eq_ok made).imp_right fun there _ => there
    next =>
      split
      next error stopped above =>
        rw [above] at growsAbove
        exact ⟨growsAbove.mono within, failed error stopped⟩
      next middle above =>
        rw [above] at growsAbove
        split
        next made =>
          obtain ⟨grows, there⟩ := makeDirectoryUnlessThere_eq_ok made
          exact ⟨(growsAbove.mono within).trans grows, fun _ => there⟩
        next error _ => exact ⟨growsAbove.mono within, failed error middle⟩
    next error _ _ => exact ⟨.refl _ tree, failed error tree⟩

theorem makeDirectories_of_isDirectory {reversed : List String}
    (there : tree.isDirectory reversed.reverse = true) :
    tree.makeDirectories reversed = (.ok (), tree) := by
  cases reversed with
  | nil => rfl
  | cons name above => rw [makeDirectories, makeDirectoryUnlessThere_of_isDirectory there]

theorem createDirectories_grows (tree : FileTree) (path : String) :
    Grows (Path.names path) tree (tree.createDirectories path).2 := by
  unfold createDirectories
  split
  · exact .refl _ tree
  · simpa using (tree.makeDirectories_grows (Path.names path).reverse).1

theorem createDirectories_eq_ok {path : String}
    (made : tree.createDirectories path = (.ok (), after)) :
    Path.check path = .ok () ∧ after.isDirectory (Path.names path) = true := by
  unfold createDirectories at made
  split at made
  · cases made
  next fit =>
    have ends := (tree.makeDirectories_grows (Path.names path).reverse).2
    rw [made, List.reverse_reverse] at ends
    exact ⟨fit, ends rfl⟩

theorem createDirectories_of_isDirectory {path : String} (fit : Path.check path = .ok ())
    (there : tree.isDirectory (Path.names path) = true) :
    tree.createDirectories path = (.ok (), tree) := by
  rw [createDirectories, fit]
  exact makeDirectories_of_isDirectory (by rwa [List.reverse_reverse])

/-! ## Files -/

section Written

variable {path content : String} (written : tree.writeFile path content = .ok after)
include written

/-- A file is put into its own place, where no directory was. -/
theorem writeFile_eq_ok :
    Path.check path = .ok () ∧
      tree.locate (Path.names path) = .ok (Path.place (Path.names path)) ∧
      tree.find? (Path.place (Path.names path)) ≠ some .directory ∧
      after = tree.insert (Path.place (Path.names path)) (.file content) := by
  unfold writeFile at written
  split at written
  · cases written
  next fit =>
    split at written
    · cases written
    next place located =>
      obtain rfl := locate_eq_place located
      split at written
      · cases written
      next free => exact ⟨fit, located, free, by simpa using written.symm⟩

theorem kept_of_writeFile : Kept tree after :=
  let ⟨_, _, free, result⟩ := writeFile_eq_ok written
  result ▸ .insert free _

theorem find?_writeFile (place : List String) :
    after.find? place =
      if place = Path.place (Path.names path) then some (.file content)
      else tree.find? place := by
  obtain ⟨-, -, free, rfl⟩ := writeFile_eq_ok written
  exact find?_insert (ne_nil_of_find? free) _ place

theorem contents_writeFile (file : Path.isFolder path = false) :
    after.contents path = .ok content := by
  obtain ⟨fit, located, -, -⟩ := writeFile_eq_ok written
  have found := (find?_writeFile written (Path.place (Path.names path))).trans (if_pos rfl)
  have walks := walk_eq_ok_iff_locate.2
    ⟨(kept_of_writeFile written).locate located, by rw [found]; rfl⟩
  simp [contents, fit, walks, found, file]

theorem writeFile_again : after.writeFile path content = .ok after := by
  obtain ⟨fit, located, free, result⟩ := writeFile_eq_ok written
  have found := (find?_writeFile written (Path.place (Path.names path))).trans (if_pos rfl)
  rw [writeFile, fit]
  simp only [(kept_of_writeFile written).locate located, found, Option.some.injEq, reduceCtorEq,
    if_false]
  rw [result, insert_insert]

end Written

end FileTree

end Reckon
