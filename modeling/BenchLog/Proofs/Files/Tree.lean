import BenchLog.Files.Tree

/-!
# Files that were written

A path that a file can be written to has a name behind its directories, and none of these is the
file (`FileTree.exists_name_of_target`). So putting the file there does not close the way to it
(`FileTree.walk_put`), and the path leads to what was written (`FileTree.read_put`); what is in
other places stays as it is (`FileTree.replaced_of_write`). Where no file can be put, nothing changes,
and neither does it by reading (`FileTree.stable_access`).
-/

namespace BenchLog

/-- Only a list that is empty or ends with the separator has an empty last part. -/
theorem splitOn_eq_concat_nil {α : Type} [BEq α] [LawfulBEq α] {separator : α} {xs : List α}
    {parts : List (List α)} (split : xs.splitOn separator = parts ++ [[]]) :
    xs = [] ∨ [separator] <:+ xs := by
  have whole : [separator].intercalate (xs.splitOn separator) = xs :=
    List.intercalate_splitOn separator
  rw [← whole, split]
  clear whole split
  induction parts with
  | nil => exact Or.inl rfl
  | cons part parts ih =>
    right
    rw [List.cons_append, List.intercalate_cons_of_ne_nil (by simp)]
    rcases ih with empty | ends
    · rw [empty, List.append_nil]
      exact List.suffix_append ..
    · exact ends.trans (List.suffix_append ..)

namespace FileTree

variable {tree : FileTree} {path : String} {place : List String}

/-! ## Paths that name something -/

theorem endsWith_slash_iff : path.endsWith "/" ↔ ['/'] <:+ path.toList := by
  rw [← String.endsWith_toSlice, String.Slice.endsWith_string_iff]
  simp

/-- A path that does not end with a slash has directories and a name behind them. -/
theorem exists_components_eq (nonempty : path ≠ "") (noSlash : ¬ path.endsWith "/") :
    ∃ above name, components path = above ++ [name] ∧ name ≠ "" := by
  rw [endsWith_slash_iff] at noSlash
  have cut := List.dropLast_concat_getLast (List.splitOn_ne_nil '/' path.toList)
  generalize (path.toList.splitOn '/').dropLast = front at cut
  generalize (path.toList.splitOn '/').getLast _ = last at cut
  refine ⟨front.map String.ofList, String.ofList last, ?_, ?_⟩
  · rw [components, ← cut, List.map_append]
    rfl
  · intro empty
    obtain rfl : last = [] := by simpa using congrArg String.toList empty
    rcases splitOn_eq_concat_nil cut.symm with none | ends
    · exact nonempty (String.toList_eq_nil_iff.1 none)
    · exact noSlash ends

theorem ne_empty_of_start {origin : List String} (run : tree.start path = .ok origin) :
    path ≠ "" := by
  rintro rfl
  simp [start] at run

/-- A path begins in the root or in the working directory. -/
theorem start_eq (tree : FileTree) (nonempty : path ≠ "") (noNul : '\x00' ∉ path.toList)
    (short : path.utf8ByteSize < pathLimit) :
    tree.start path = .ok (if path.startsWith "/" then [] else tree.home) := by
  rw [start, String.contains_char_eq, if_neg (by simpa using noNul), if_neg nonempty,
    if_neg (Nat.not_le_of_lt short)]

theorem start_of_relative (tree : FileTree) (nonempty : path ≠ "") (noNul : '\x00' ∉ path.toList)
    (short : path.utf8ByteSize < pathLimit) (relative : ¬ path.startsWith "/") :
    tree.start path = .ok tree.home := by
  rw [start_eq tree nonempty noNul short, if_neg relative]

theorem exists_of_bind_eq_ok {ε α β : Type} {x : Except ε α} {f : α → Except ε β} {b : β}
    (run : x >>= f = .ok b) : ∃ a, x = .ok a ∧ f a = .ok b := by
  cases x with
  | error => cases run
  | ok a => exact ⟨a, rfl, run⟩

theorem exists_of_isOk {ε α : Type} {x : Except ε α} (ok : x.isOk) : ∃ a, x = .ok a := by
  cases x with
  | error => cases ok
  | ok a => exact ⟨a, rfl⟩

/-- Where a path has a file made, there is a name behind the directories, and it does not name a
directory. -/
theorem exists_name_of_target (run : tree.target path = .ok place) :
    ∃ origin above name directory, tree.start path = .ok origin ∧
      components path = above ++ [name] ∧ isDirectoryName name = false ∧
      tree.walk origin above = .ok directory ∧ child directory name = .ok place ∧
      tree.node? place ≠ some .directory := by
  unfold target at run
  obtain ⟨origin, begins, run⟩ := exists_of_bind_eq_ok run
  obtain ⟨directory, walks, run⟩ := exists_of_bind_eq_ok run
  dsimp only at run
  split at run
  · cases run
  next named =>
    obtain ⟨noSlash, named⟩ := not_or.1 (mt Bool.or_eq_true_iff.2 named)
    obtain ⟨above, name, parts, nonempty⟩ :=
      exists_components_eq (ne_empty_of_start begins) noSlash
    have behind : (components path).reverse.dropWhile (· = "") = name :: above.reverse := by
      rw [parts, List.reverse_concat, List.dropWhile_cons_of_neg (by simpa using nonempty)]
    rw [behind] at walks named run
    obtain ⟨there, inside, run⟩ := exists_of_bind_eq_ok run
    split at run
    · cases run
    next other =>
      cases run
      refine ⟨origin, above, name, directory, begins, parts, by simpa using named, ?_, inside, other⟩
      rwa [List.tail_cons, List.reverse_reverse] at walks

/-! ## Putting a file -/

/-- A directory stays when something is put in the place of something else. -/
theorem node?_put_of_directory {node : Node} {other : List String}
    (noDirectory : tree.node? place ≠ some .directory)
    (directory : tree.node? other = some .directory) :
    (tree.put place node).node? other = some .directory := by
  rw [node?_put_of_ne, directory]
  rintro rfl
  exact noDirectory directory

theorem enter_put {node : Node} (noDirectory : tree.node? place ≠ some .directory)
    {here there : List String} {component : String}
    (run : tree.enter here component = .ok there) :
    (tree.put place node).enter here component = .ok there := by
  unfold enter at run ⊢
  split at run
  next stays => rwa [if_pos stays]
  next named =>
    rw [if_neg named]
    split at run
    next up => rwa [if_pos up]
    next down =>
      rw [if_neg down]
      obtain ⟨other, inside, run⟩ := exists_of_bind_eq_ok run
      have directory : tree.node? other = some .directory := by
        split at run
        · assumption
        · cases run
        · cases run
      rw [directory] at run
      simpa only [inside, bind, Except.bind, node?_put_of_directory noDirectory directory] using run

/-- What is put in the place of something that is not a directory closes no way through
directories. -/
theorem walk_put {node : Node} (noDirectory : tree.node? place ≠ some .directory)
    {here there : List String} {components : List String}
    (run : tree.walk here components = .ok there) :
    (tree.put place node).walk here components = .ok there := by
  unfold walk at run ⊢
  induction components generalizing here with
  | nil => exact run
  | cons component components ih =>
    rw [List.foldlM_cons] at run ⊢
    obtain ⟨next, enters, run⟩ := exists_of_bind_eq_ok run
    rw [enter_put noDirectory enters]
    exact ih run

theorem ne_nil_of_target (run : tree.target path = .ok place) : place ≠ [] := by
  obtain ⟨-, -, -, -, -, -, -, -, -, noDirectory⟩ := exists_name_of_target run
  rintro rfl
  exact noDirectory rfl

/-- A path leads to the file that was written to it. -/
theorem read_put (run : tree.target path = .ok place) (bytes : List UInt8) :
    (tree.put place (.file bytes)).read path = .ok (.contents bytes) := by
  obtain ⟨origin, above, name, directory, begins, parts, named, walks, inside, noDirectory⟩ :=
    exists_name_of_target run
  have begins' : (tree.put place (.file bytes)).start path = .ok origin := begins
  unfold read
  simp only [parts, begins', List.dropLast_concat, List.getLastD_concat, bind, Except.bind,
    walk_put noDirectory walks, named, inside, node?_put_self (ne_nil_of_target run)]
  rfl

theorem access_write_of_ok (run : tree.target path = .ok place) (bytes : List UInt8) :
    access.write path bytes tree = (.ok (), tree.put place (.file bytes)) := by
  have writes : tree.write path bytes = .ok (tree.put place (.file bytes)) := by
    rw [write, run]
    rfl
  simp only [access, writes]

theorem access_write_of_error {error : FileError} (run : tree.target path = .error error)
    (bytes : List UInt8) : access.write path bytes tree = (.error error, tree) := by
  have writes : tree.write path bytes = .error error := by
    rw [write, run]
    rfl
  simp only [access, writes]

/-- The other tree has the contents where the path leads, and all else as this one. -/
structure Replaced (tree : FileTree) (path : String) (bytes : List UInt8) (after : FileTree) :
    Prop where
  read : after.read path = .ok (.contents bytes)
  only : ∃ place, tree.target path = .ok place ∧ after.node? place = some (.file bytes) ∧
    ∀ other, other ≠ place → after.node? other = tree.node? other

theorem replaced_of_write {bytes : List UInt8} {after : FileTree}
    (writes : access.write path bytes tree = (.ok (), after)) : tree.Replaced path bytes after := by
  cases run : tree.target path with
  | error error =>
    rw [access_write_of_error run] at writes
    cases writes
  | ok place =>
    rw [access_write_of_ok run] at writes
    cases writes
    exact ⟨read_put run bytes, place, run, node?_put_self (ne_nil_of_target run),
      fun other => node?_put_of_ne⟩

end FileTree

/-- Files that are a state are left as they are by reading, and by writing that fails. -/
structure FileAccess.Stable {σ : Type} (files : FileAccess (StateM σ)) : Prop where
  read : ∀ path state, (files.read path state).2 = state
  write : ∀ path bytes state error, (files.write path bytes state).1 = .error error →
    (files.write path bytes state).2 = state

theorem FileTree.stable_access : FileTree.access.Stable where
  read _ _ := rfl
  write path bytes tree error failed := by
    cases run : tree.target path with
    | error _ => rw [access_write_of_error run]
    | ok place =>
      rw [access_write_of_ok run] at failed
      cases failed

end BenchLog
