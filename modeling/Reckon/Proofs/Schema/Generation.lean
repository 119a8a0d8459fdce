import Reckon.Console.Generator
import Reckon.Proofs.FileTree.Change
import Reckon.Proofs.Schema.Naming
import Reckon.Proofs.Schema.Rule

/-!
# What generation touches

Code for a grammar is written into one file, in a folder that may have to be made first. This
module proves that nothing else changes: a grammar with a fault leaves the tree as it is, a
failure leaves all files as they are, and whatever was generated can be generated again.
-/

namespace Reckon.Schema

open FileTree (Grows)

/-! ## The place of the file -/

/-- A folder with a slash behind it; the empty path needs none. -/
def slashed (directory : String) : String :=
  if directory.isEmpty || directory.toList.getLast? = some '/' then directory else directory ++ "/"

/-- The file for a sum type, by its name alone. -/
def fileName (base : String) : String :=
  snakeCase base ++ ".rs"

def target (directory base : String) : List String :=
  Path.place (Path.names (filePath directory base))

theorem folder_eq (directory : String) : folder directory = slashed directory ++ "ast" := by
  have relative : "ast".toList.head? ≠ some '/' := by decide
  rw [folder, Path.join, if_neg relative, slashed]
  split <;> rfl

theorem getLast?_folder (directory : String) : (folder directory).toList.getLast? = some 't' := by
  rw [folder_eq, String.toList_append, List.getLast?_append]
  rfl

/-- A file has a name that is neither empty nor a dot. -/
theorem three_le_length_fileName (base : String) : 3 ≤ (fileName base).toList.length := by
  rw [fileName, String.toList_append, List.length_append]
  exact Nat.le_add_left _ _

section File

variable {base : String} (noSlash : '/' ∉ base.toList)
include noSlash

theorem slash_not_mem_fileName : '/' ∉ (fileName base).toList := by
  rw [fileName, String.toList_append, List.mem_append, not_or]
  refine ⟨fun slash => ?_, by decide⟩
  rcases mem_snakeCase slash with inBase | inNames
  · exact noSlash inBase
  · exact absurd inNames (by decide)

theorem fileName_relative : (fileName base).toList.head? ≠ some '/' :=
  fun slash => slash_not_mem_fileName noSlash (List.mem_of_head? slash)

theorem filePath_eq (directory : String) :
    filePath directory base = folder directory ++ "/" ++ fileName base := by
  have filled : folder directory ≠ "" := by
    intro empty
    have last := getLast?_folder directory
    rw [empty] at last
    cases last
  rw [filePath, ← fileName, Path.join, if_neg (fileName_relative noSlash), if_neg]
  simp [filled, getLast?_folder]

theorem names_filePath (directory : String) :
    Path.names (filePath directory base) = Path.names (folder directory) ++ [fileName base] := by
  have long := three_le_length_fileName base
  rw [filePath, ← fileName, Path.names_join _ (fileName_relative noSlash),
    Path.names_eq_singleton (slash_not_mem_fileName noSlash)]
  · intro empty
    simp [empty] at long
  · intro dot
    simp [dot] at long

theorem target_eq (directory : String) :
    target directory base = Path.place (Path.names (folder directory)) ++ [fileName base] := by
  have noParent : fileName base ≠ ".." := by
    intro parent
    have long := three_le_length_fileName base
    simp [parent] at long
  rw [target, names_filePath noSlash, Path.place, List.foldl_concat, Path.hop, if_neg noParent,
    Path.place]

theorem isFolder_filePath (directory : String) :
    Path.isFolder (filePath directory base) = false := by
  have long := three_le_length_fileName base
  have pieces : (filePath directory base).toList.splitOn '/' =
      (folder directory).toList.splitOn '/' ++ [(fileName base).toList] := by
    rw [filePath_eq noSlash, String.toList_append, String.toList_append, List.append_assoc]
    exact (List.splitOn_append_cons_self _ _).trans
      (congrArg _ (List.splitOn_eq_singleton (slash_not_mem_fileName noSlash)))
  rw [Path.isFolder, pieces, List.getLast?_concat]
  generalize (fileName base).toList = name at long
  match name, long with
  | _ :: _ :: _, _ => simp

end File

/-! ## One run -/

section Run

variable {tree after : FileTree} {directory base path : String} {uses lines : List String}

/-- The steps of a run, with the tree of files between them. -/
theorem generate_eq (tree : FileTree) (directory base : String) (uses lines : List String) :
    generate tree directory base uses lines =
      match define base uses lines with
      | .error error => (.error (.grammar error), tree)
      | .ok code =>
          match tree.createDirectories (folder directory) with
          | (.error error, grown) => (.error (.file (folder directory) error), grown)
          | (.ok (), grown) =>
              match grown.writeFile (filePath directory base) code with
              | .error error => (.error (.file (filePath directory base) error), grown)
              | .ok after => (.ok (filePath directory base), after) := by
  rw [generate, write]
  cases define base uses lines with
  | error error => rfl
  | ok code =>
      match made : tree.createDirectories (folder directory) with
      | (.error error, grown) =>
          simp only [StateT.run, bind, StateT.bind, FileTree.disk, made]
          rfl
      | (.ok (), grown) =>
          cases stored : grown.writeFile (filePath directory base) code with
          | error error | ok after =>
              simp only [StateT.run, bind, StateT.bind, FileTree.disk, made, stored]
              rfl

/-- A grammar that has a fault changes nothing. -/
theorem generate_of_fault {line : String} {fault : GrammarError} (member : line ∈ lines)
    (faulty : Rule.Fault line fault) :
    ∃ error,
      First (fun line => ¬ ∃ fault, Rule.Fault line fault) (Rule.Fault · error) lines ∧
        generate tree directory base uses lines = (.error (.grammar error), tree) := by
  obtain ⟨error, first⟩ := First.exists_of_mem member faulty
  refine ⟨error, first, ?_⟩
  rw [generate_eq, define_eq_error_iff.2 first]

/-- Only a grammar that has a fault is refused for one. -/
theorem generate_eq_grammar_error {error : GrammarError}
    (refused : generate tree directory base uses lines = (.error (.grammar error), after)) :
    First (fun line => ¬ ∃ fault, Rule.Fault line fault) (Rule.Fault · error) lines ∧
      after = tree := by
  rw [generate_eq] at refused
  split at refused
  next fails =>
    cases refused
    exact ⟨define_eq_error_iff.1 fails, rfl⟩
  next =>
    split at refused
    · cases refused
    · split at refused <;> cases refused

/-- What happens when a file was written: its folder was made, and then the file. -/
theorem generate_eq_ok
    (written : generate tree directory base uses lines = (.ok path, after)) :
    ∃ code grown, path = filePath directory base ∧ define base uses lines = .ok code ∧
      tree.createDirectories (folder directory) = (.ok (), grown) ∧
      grown.writeFile (filePath directory base) code = .ok after := by
  rw [generate_eq] at written
  split at written
  · cases written
  next code defined =>
    split at written
    · cases written
    next grown made =>
      split at written
      · cases written
      next stored =>
        cases written
        exact ⟨code, grown, rfl, defined, made, stored⟩

/-- After a failure with files the only changes are directories on the way to the folder. -/
theorem generate_eq_file_error {error : FileError}
    (failed : generate tree directory base uses lines = (.error (.file path error), after)) :
    Grows (Path.names (folder directory)) tree after := by
  have grows := tree.createDirectories_grows (folder directory)
  rw [generate_eq] at failed
  split at failed
  · cases failed
  next code _ =>
    split at failed
    next stopped made =>
      cases failed
      rwa [made] at grows
    next grown made =>
      rw [made] at grows
      split at failed
      · cases failed
        exact grows
      · cases failed

theorem generate_again
    (written : generate tree directory base uses lines = (.ok path, after)) :
    generate after directory base uses lines = (.ok path, after) := by
  obtain ⟨code, grown, rfl, defined, made, stored⟩ := generate_eq_ok written
  obtain ⟨fit, there⟩ := FileTree.createDirectories_eq_ok made
  have stays := (FileTree.kept_of_writeFile stored).isDirectory there
  simp only [generate_eq, defined, FileTree.createDirectories_of_isDirectory fit stays,
    FileTree.writeFile_again stored]

end Run

/-- What generation does to a tree of files, by its result. -/
structure TouchesOnlyTarget (tree : FileTree) (directory base : String)
    (uses lines : List String) : Prop where
  /-- The file lies in the folder `ast` of the directory, under the name of the sum type. -/
  inFolder : target directory base =
    Path.place (Path.names (slashed directory ++ "ast")) ++ [snakeCase base ++ ".rs"]
  /-- If a line has a fault, the grammar is refused for the first one. -/
  refused : ∀ line ∈ lines, ∀ fault, Rule.Fault line fault → ∃ error,
    First (fun line => ¬ ∃ fault, Rule.Fault line fault) (Rule.Fault · error) lines ∧
      generate tree directory base uses lines = (.error (.grammar error), tree)
  /-- A grammar is refused for nothing else, and then the tree stays as it is. -/
  unchanged : ∀ error after,
    generate tree directory base uses lines = (.error (.grammar error), after) →
    First (fun line => ¬ ∃ fault, Rule.Fault line fault) (Rule.Fault · error) lines ∧
      after = tree
  /-- A file that was written has the code for its content. Nothing else changes but for
  missing directories on the way to its folder. -/
  written : ∀ path after, generate tree directory base uses lines = (.ok path, after) →
    path = slashed directory ++ "ast/" ++ snakeCase base ++ ".rs" ∧
    (∃ code, define base uses lines = .ok code ∧ after.contents path = .ok code ∧
      after.find? (target directory base) = some (.file code)) ∧
    ∀ place ≠ target directory base, after.find? place = tree.find? place ∨
      tree.find? place = none ∧ after.find? place = some .directory ∧
        Path.OnWay (Path.names (folder directory)) place
  /-- When files get in the way, all files stay as they are and none is new, whatever
  directories were made before. -/
  failed : ∀ path error after,
    generate tree directory base uses lines = (.error (.file path error), after) →
    Grows (Path.names (folder directory)) tree after ∧
      ∀ place content,
        after.find? place = some (.file content) ↔ tree.find? place = some (.file content)
  /-- Once a file is written, writing it again changes nothing. -/
  again : ∀ path after, generate tree directory base uses lines = (.ok path, after) →
    generate after directory base uses lines = (.ok path, after)

/-- Generation touches nothing but the file that it is for. -/
theorem generate_touchesOnlyTarget (tree : FileTree) (directory : String) {base : String}
    (uses lines : List String) (noSlash : '/' ∉ base.toList) :
    TouchesOnlyTarget tree directory base uses lines where
  inFolder := folder_eq directory ▸ target_eq noSlash directory
  refused _ member _ faulty := generate_of_fault member faulty
  unchanged _ _ refused := generate_eq_grammar_error refused
  written path after written := by
    obtain ⟨code, grown, rfl, defined, made, stored⟩ := generate_eq_ok written
    have grows := tree.createDirectories_grows (folder directory)
    rw [made] at grows
    refine ⟨?_, ⟨code, defined, ?_, ?_⟩, fun place elsewhere => ?_⟩
    · rw [filePath_eq noSlash, folder_eq, fileName]
      apply String.toList_injective
      simp
    · exact FileTree.contents_writeFile stored (isFolder_filePath noSlash directory)
    · rw [FileTree.find?_writeFile stored, ← target, if_pos rfl]
    · rw [FileTree.find?_writeFile stored, ← target, if_neg elsewhere]
      exact grows place
  failed _ _ _ failed :=
    let grows := generate_eq_file_error failed
    ⟨grows, grows.file_iff⟩
  again _ _ written := generate_again written

/-- The code for a small grammar is put into a new file, and then there again. -/
theorem generate_nil_twice :
    '/' ∉ "Expr".toList ∧
      ∃ after, generate .empty "out" "Expr" [] ["Nil :"] = (.ok "out/ast/expr.rs", after) ∧
        (∃ code, define "Expr" [] ["Nil :"] = .ok code ∧
          after.contents "out/ast/expr.rs" = .ok code) ∧
        generate after "out" "Expr" [] ["Nil :"] = (.ok "out/ast/expr.rs", after) := by
  have noSlash : '/' ∉ "Expr".toList := by decide
  have touches := generate_touchesOnlyTarget .empty "out" [] ["Nil :"] noSlash
  have result : (generate .empty "out" "Expr" [] ["Nil :"]).1.toOption =
      some "out/ast/expr.rs" := by
    decide +kernel
  refine ⟨noSlash, ?_⟩
  match run : generate .empty "out" "Expr" [] ["Nil :"] with
  | (.error error, after) =>
    rw [run] at result
    cases result
  | (.ok path, after) =>
    obtain rfl : path = "out/ast/expr.rs" := by simpa [run, Except.toOption] using result
    obtain ⟨-, ⟨code, defined, stored, -⟩, -⟩ := touches.written _ _ run
    exact ⟨after, rfl, ⟨code, defined, stored⟩, touches.again _ _ run⟩

end Reckon.Schema
