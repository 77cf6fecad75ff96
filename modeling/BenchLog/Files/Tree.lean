import BenchLog.Files.Access

/-!
# File trees

A `FileTree` is all files and directories from the root on, with the directory that a run works in.
`FileTree.read` and `FileTree.write` follow a path through it, from the root if it begins with a
slash and from the working directory otherwise, component by component: `.` stays, `..` goes up
(above the root there is only the root), any other name has to be that of something there, and
everything but the last component has to be a directory. There are no links, and everything may be
read and written; of files where that is not so, `FileAccess` is all that is known.
-/

namespace BenchLog

inductive FileTree.Node where
  | file (bytes : List UInt8)
  | directory
  deriving DecidableEq

/-- All files and directories, each with the names that lead to it from the root. -/
structure FileTree where
  nodes : List (List String × FileTree.Node) := []
  /-- The names that lead to the working directory. -/
  home : List String := []

namespace FileTree

/-- The most bytes that a name has. -/
def longestName : Nat := 255

/-- Paths have fewer bytes than this. -/
def pathLimit : Nat := 4096

/-- What is at a place, given by the names that lead to it. -/
def node? (tree : FileTree) (place : List String) : Option Node :=
  if place.isEmpty then some .directory else tree.nodes.lookup place

/-- Puts a node in a place, which may be taken. -/
def put (place : List String) (node : Node) (tree : FileTree) : FileTree :=
  { tree with nodes := tree.nodes.filter (·.1 ≠ place) ++ [(place, node)] }

theorem lookup_filter_of_ne {place other : List String} (h : other ≠ place)
    (nodes : List (List String × Node)) :
    (nodes.filter (·.1 ≠ place)).lookup other = nodes.lookup other := by
  induction nodes with
  | nil => rfl
  | cons entry nodes ih =>
    obtain ⟨name, found⟩ := entry
    by_cases same : name = place
    · subst same
      rw [List.filter_cons_of_neg (by simp), ih, List.lookup_cons, beq_eq_false_iff_ne.2 h]
    · rw [List.filter_cons_of_pos (by simp [same]), List.lookup_cons, List.lookup_cons, ih]

@[simp] theorem node?_put_self {tree : FileTree} {place : List String} {node : Node}
    (h : place ≠ []) : (tree.put place node).node? place = some node := by
  have absent : (tree.nodes.filter (·.1 ≠ place)).lookup place = none := by
    rw [List.lookup_eq_none_iff]
    simp only [List.mem_filter]
    exact fun entry member => by simpa using fun same => (of_decide_eq_true member.2) same.symm
  unfold node? put
  rw [if_neg (by simpa using h), List.lookup_append, absent]
  simp

theorem node?_put_of_ne {tree : FileTree} {place other : List String} {node : Node}
    (h : other ≠ place) : (tree.put place node).node? other = tree.node? other := by
  unfold node? put
  rw [List.lookup_append, lookup_filter_of_ne h, List.lookup_cons, beq_eq_false_iff_ne.2 h]
  simp

/-! ## Paths -/

/-- The parts of a path between slashes. -/
def components (path : String) : List String :=
  (path.toList.splitOn '/').map String.ofList

/-- The place of a name in a directory. -/
def child (place : List String) (name : String) : Except FileError (List String) :=
  if longestName < name.utf8ByteSize then .error .nameTooLong else .ok (place ++ [name])

/-- Goes from a directory to the one that a component leads to. -/
def enter (tree : FileTree) (place : List String) (component : String) :
    Except FileError (List String) :=
  if component = "" || component = "." then .ok place
  else if component = ".." then .ok place.dropLast
  else do
    let place ← child place component
    match tree.node? place with
    | some .directory => return place
    | some (.file _) => .error .notDirectory
    | none => .error .missing

/-- Goes through the directories of a path's components. -/
def walk (tree : FileTree) (place : List String) (components : List String) :
    Except FileError (List String) :=
  components.foldlM tree.enter place

/-- Where a path begins, if it can be a path at all. -/
def start (tree : FileTree) (path : String) : Except FileError (List String) :=
  if path.contains '\x00' then .error .nulInPath
  else if path = "" then .error .missing
  else if pathLimit ≤ path.utf8ByteSize then .error .nameTooLong
  else .ok (if path.startsWith "/" then [] else tree.home)

/-- Does a component lead to a directory, whatever its name? -/
def isDirectoryName (component : String) : Bool :=
  component = "" || component = "." || component = ".."

/-! ## Reading and writing -/

/-- Opens what a path leads to. A directory can be opened, but not read. -/
def read (tree : FileTree) (path : String) : Except FileError Opened := do
  let parts := components path
  let place ← tree.walk (← tree.start path) parts.dropLast
  let name := parts.getLastD ""
  if isDirectoryName name then return .broken .isDirectory
  else
    match tree.node? (← child place name) with
    | some (.file bytes) => return .contents bytes
    | some .directory => return .broken .isDirectory
    | none => .error .missing

/-- The place where a path has a file made or replaced. With a slash at its end it can only be
that of a directory. -/
def target (tree : FileTree) (path : String) : Except FileError (List String) := do
  let place ← tree.start path
  let parts := (components path).reverse.dropWhile (· = "")
  let place ← tree.walk place parts.tail.reverse
  let name := parts.headD ""
  if path.endsWith "/" || isDirectoryName name then .error .isDirectory
  else
    let place ← child place name
    if tree.node? place = some .directory then .error .isDirectory else return place

/-- Makes or replaces the file that a path leads to. -/
def write (tree : FileTree) (path : String) (bytes : List UInt8) : Except FileError FileTree := do
  return tree.put (← tree.target path) (.file bytes)

/-- Access to a tree that is the state. -/
def access : FileAccess (StateM FileTree) where
  read path := fun tree => (tree.read path, tree)
  write path bytes := fun tree =>
    match tree.write path bytes with
    | .ok changed => (.ok (), changed)
    | .error error => (.error error, tree)

/-! ## Trees and their files -/

/-- Adds a file to the working directory, or a directory if there are no contents, and the
directories above it. -/
def add (tree : FileTree) (path : String) (contents : Option (List UInt8)) : FileTree :=
  let place := tree.home ++
    (components path).filter fun component => component ≠ "" && component ≠ "."
  let above := (List.range place.length).tail.map place.take
  let tree := above.foldl (fun tree place => tree.put place .directory) tree
  tree.put place (match contents with
    | some bytes => .file bytes
    | none => .directory)

/-- The files of `after` that are not in `before`, or not with the same contents. -/
def changes (before after : FileTree) : List (List String × List UInt8) :=
  after.nodes.filterMap fun (place, node) =>
    match node with
    | .file bytes => if before.node? place = some node then none else some (place, bytes)
    | .directory => none

end FileTree

end BenchLog
