import Mathlib.Data.List.Infix
import Mathlib.Data.Set.Finite.Basic
import Mathlib.Logic.Function.Basic

/-! A tree of directories and files, addressed by names from its root.
There are no links, and no operation fails for want of permission or space. -/

namespace WalletDaemon

/-- The names from the root on. -/
abbrev TreePath := List String

inductive Node (C : Type)
  | file (content : C)
  | dir
deriving DecidableEq, Repr

/-- What lies at a path; all that exists lies in a directory. -/
@[ext]
structure FileTree (C : Type) where
  node : TreePath → Option (Node C)
  root : node [] = some .dir
  parents : ∀ path name, (node (path ++ [name])).isSome → node path = some .dir
  finite : {path | (node path).isSome}.Finite

namespace FileTree

variable {C : Type} (tree : FileTree C)

def present (path : TreePath) : Bool := (tree.node path).isSome

def read (path : TreePath) : Option C :=
  match tree.node path with
  | some (.file content) => some content
  | _ => none

def isFile (path : TreePath) : Bool := (tree.read path).isSome

def isDir (path : TreePath) : Bool :=
  match tree.node path with
  | some .dir => true
  | _ => false

def empty : FileTree C where
  node path := if path = [] then some .dir else none
  root := rfl
  parents path name inside := by simp at inside
  finite := by
    refine (Set.finite_singleton []).subset fun path inside => ?_
    by_contra other
    have apart : path ≠ [] := other
    simp [apart] at inside

theorem exists_listing (tree : FileTree C) (path : TreePath) :
    ∃ listing : List String, ∀ name, name ∈ listing ↔ tree.present (path ++ [name]) = true := by
  have injective : Function.Injective fun name => path ++ [name] := fun a b same =>
    List.singleton_inj.mp (List.append_cancel_left same)
  have names := tree.finite.preimage injective.injOn
  refine ⟨names.toFinset.toList, fun name => ?_⟩
  simp [present]

theorem isDir_iff {tree : FileTree C} {path : TreePath} :
    tree.isDir path = true ↔ tree.node path = some .dir := by
  unfold isDir
  split <;> simp_all

theorem read_iff {tree : FileTree C} {path : TreePath} {content : C} :
    tree.read path = some content ↔ tree.node path = some (.file content) := by
  unfold read
  split <;> simp_all

theorem isFile_iff {tree : FileTree C} {path : TreePath} :
    tree.isFile path = true ↔ ∃ content, tree.node path = some (.file content) := by
  simp only [isFile, Option.isSome_iff_exists, read_iff]

theorem not_isFile {tree : FileTree C} {path : TreePath}
    (h : ∀ content, tree.node path ≠ some (.file content)) : tree.isFile path = false := by
  rw [Bool.eq_false_iff]
  intro file
  obtain ⟨content, here⟩ := isFile_iff.mp file
  exact h content here

theorem present_of_node {tree : FileTree C} {path : TreePath} {node : Node C}
    (h : tree.node path = some node) : tree.present path = true := by
  rw [present, h]
  rfl

theorem ne_of_absent {tree : FileTree C} {path other : TreePath} {node : Node C}
    (here : tree.node path = some node) (absent : tree.node other = none) : path ≠ other := by
  intro same
  rw [same, absent] at here
  cases here

theorem present_of_isFile {tree : FileTree C} {path : TreePath} (h : tree.isFile path = true) :
    tree.present path = true := by
  obtain ⟨content, file⟩ := isFile_iff.mp h
  exact present_of_node file

theorem not_present_iff {tree : FileTree C} {path : TreePath} :
    tree.present path = false ↔ tree.node path = none := by
  simp [present]

theorem dir_above {tree : FileTree C} {above path : TreePath} (h : above <+: path)
    (here : tree.node path = some .dir) : tree.node above = some .dir := by
  obtain ⟨rest, rfl⟩ := h
  induction rest using List.reverseRecOn with
  | nil => simpa using here
  | append_singleton rest name ih =>
    apply ih
    apply tree.parents _ name
    rw [List.append_assoc, here]
    rfl

/-- Put a file where there is no directory. -/
def write (path : TreePath) (content : C) : Option (FileTree C) :=
  if fits : tree.isDir path = false ∧ tree.isDir path.dropLast = true then
    have free : tree.node path ≠ some .dir := fun here => by
      rw [isDir_iff.mpr here] at fits
      exact Bool.noConfusion fits.1
    some {
      node := Function.update tree.node path (some (.file content))
      root := by
        rw [Function.update_of_ne, tree.root]
        intro same
        rw [← same] at free
        exact free tree.root
      parents := by
        intro above name inside
        have apart : tree.node above = some .dir → above ≠ path := by
          intro here same
          rw [same] at here
          exact free here
        have here : tree.node above = some .dir := by
          by_cases same : above ++ [name] = path
          · rw [← same, List.dropLast_concat] at fits
            exact isDir_iff.mp fits.2
          · rw [Function.update_of_ne same] at inside
            exact tree.parents above name inside
        rw [Function.update_of_ne (apart here), here]
      finite := by
        refine (tree.finite.insert path).subset fun other inside => ?_
        by_cases same : other = path
        · exact .inl same
        · exact .inr (by simpa [Function.update_of_ne same] using inside) }
  else none

def remove (path : TreePath) : Option (FileTree C) :=
  if fits : tree.isFile path = true then
    some {
      node := Function.update tree.node path none
      root := by
        rw [Function.update_of_ne, tree.root]
        intro same
        obtain ⟨content, file⟩ := isFile_iff.mp fits
        rw [← same, tree.root] at file
        cases file
      parents := by
        intro above name inside
        by_cases same : above ++ [name] = path
        · rw [same, Function.update_self] at inside
          cases inside
        · rw [Function.update_of_ne same] at inside
          have here := tree.parents above name inside
          rw [Function.update_of_ne, here]
          intro same
          obtain ⟨content, file⟩ := isFile_iff.mp fits
          rw [← same, here] at file
          cases file
      finite := by
        refine tree.finite.subset fun other inside => ?_
        by_cases same : other = path
        · simp [same] at inside
        · simpa [Function.update_of_ne same] using inside }
  else none

def createDirAll (path : TreePath) : Option (FileTree C) :=
  if ∀ above ∈ path.inits, tree.isFile above = false then
    some {
      node := fun other => if other <+: path then some .dir else tree.node other
      root := if_pos List.nil_prefix
      parents := by
        intro above name inside
        split
        · rfl
        · rename_i outside
          rw [if_neg] at inside
          · exact tree.parents above name inside
          · exact fun within => outside ((List.prefix_append _ _).trans within)
      finite := by
        refine (tree.finite.union (List.finite_toSet path.inits)).subset fun other inside => ?_
        by_cases above : other <+: path
        · exact .inr ((List.mem_inits _ _).mpr above)
        · exact .inl (by simpa [above] using inside) }
  else none

theorem write_ok {tree after : FileTree C} {path : TreePath} {content : C}
    (h : tree.write path content = some after) :
    tree.node path ≠ some .dir ∧
      after.node = Function.update tree.node path (some (.file content)) := by
  unfold write at h
  split at h
  · rename_i fits
    rw [← Option.some.inj h]
    refine ⟨fun here => ?_, rfl⟩
    rw [isDir_iff.mpr here] at fits
    exact Bool.noConfusion fits.1
  · cases h

theorem read_write {tree after : FileTree C} {path : TreePath} {content : C}
    (h : tree.write path content = some after) : after.read path = some content := by
  rw [read_iff, (write_ok h).2, Function.update_self]

theorem write_other {tree after : FileTree C} {path other : TreePath} {content : C}
    (h : tree.write path content = some after) (apart : other ≠ path) :
    after.node other = tree.node other := by
  rw [(write_ok h).2, Function.update_of_ne apart]

theorem write_isSome {tree : FileTree C} {path : TreePath} (content : C)
    (free : tree.node path ≠ some .dir) (above : tree.node path.dropLast = some .dir) :
    ∃ after, tree.write path content = some after := by
  have free : tree.isDir path = false := by
    rw [Bool.eq_false_iff]
    exact fun here => free (isDir_iff.mp here)
  rw [write, dif_pos ⟨free, isDir_iff.mpr above⟩]
  exact ⟨_, rfl⟩

theorem remove_ok {tree after : FileTree C} {path : TreePath} (h : tree.remove path = some after) :
    after.node = Function.update tree.node path none := by
  unfold remove at h
  split at h
  · rw [← Option.some.inj h]
  · cases h

theorem remove_isSome {tree : FileTree C} {path : TreePath} (h : tree.isFile path = true) :
    ∃ after, tree.remove path = some after := by
  rw [remove, dif_pos h]
  exact ⟨_, rfl⟩

theorem createDirAll_ok {tree after : FileTree C} {path : TreePath}
    (h : tree.createDirAll path = some after) :
    after.node = fun other => if other <+: path then some .dir else tree.node other := by
  unfold createDirAll at h
  split at h
  · rw [← Option.some.inj h]
  · cases h

theorem createDirAll_present {tree after : FileTree C} {path other : TreePath}
    (h : tree.createDirAll path = some after) (here : (tree.node other).isSome) :
    after.node other = tree.node other := by
  have made := createDirAll_ok h
  unfold createDirAll at h
  split at h
  · rename_i free
    rw [made]
    dsimp only
    split
    · rename_i above
      have noFile := free other ((List.mem_inits _ _).mpr above)
      cases at_ : tree.node other with
      | none => simp [at_] at here
      | some node =>
        cases node with
        | dir => rfl
        | file content => simp [isFile, read, at_] at noFile
    · rfl
  · cases h

theorem createDirAll_of_dir {tree : FileTree C} {path : TreePath}
    (h : tree.node path = some .dir) : tree.createDirAll path = some tree := by
  have free : ∀ above ∈ path.inits, tree.isFile above = false := by
    intro above within
    exact not_isFile (by simp [dir_above ((List.mem_inits _ _).mp within) h])
  rw [createDirAll, if_pos free]
  congr 1
  ext1
  funext other
  dsimp only
  split
  · rename_i above
    exact (dir_above above h).symm
  · rfl

def ofFile (name : String) (content : C) : FileTree C := (empty.write [name] content).getD empty

theorem ofFile_node (name : String) (content : C) :
    (ofFile name content).node = Function.update empty.node [name] (some (.file content)) := by
  have free : (empty : FileTree C).node [name] ≠ some .dir := by simp [empty]
  have above : (empty : FileTree C).node (List.dropLast [name]) = some .dir := rfl
  obtain ⟨after, put⟩ := write_isSome content free above
  rw [ofFile, put, Option.getD_some, (write_ok put).2]

end FileTree

end WalletDaemon
