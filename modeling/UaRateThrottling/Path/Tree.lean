import UaRateThrottling.CString

/-!
# The tree of ZooKeeper

A node is named by its path, and is the child of the node whose path is its own up to the last
`/`. A tree is a set of paths. A node is created when it does not exist and its parent does, and
only a node without children could be deleted; here nodes are only created.
-/

namespace Zuth

/-- The path of a node. -/
abbrev Path := List UInt8

/-- The path up to the last `/`. -/
def parent (path : Path) : Path := ((path.reverse.dropWhile (· ≠ 47)).drop 1).reverse

/-- The path is that of the node itself or of one above it. -/
def IsAbove (path path' : Path) : Prop := path = path' ∨ path ++ [47] <+: path'

theorem parent_append (path : Path) {name : List UInt8} (h : 47 ∉ name) :
  parent (path ++ 47 :: name) = path
  := by
  have hname : ∀ c ∈ name.reverse, decide (c ≠ 47) := by
    intro c hc
    rw [decide_eq_true_eq]
    rintro rfl
    apply h (List.mem_reverse.mp hc)
  rw [parent, List.reverse_append, List.reverse_cons, List.append_assoc,
    List.dropWhile_append_of_pos hname]
  simp

/-- The nodes of a tree below its root, in the order of their creation. -/
abbrev Tree := List Path

namespace Tree

/-- A node can be created: it is not there yet, and its parent is, or is the root. -/
def canCreate (tree : Tree) (path : Path) : Bool :=
  !tree.contains path && (parent path == [] || tree.contains (parent path))

/-- The tree after a request to create a node. -/
def create (tree : Tree) (path : Path) : Tree :=
  if tree.canCreate path then tree ++ [path] else tree

theorem mem_create_of_mem {tree : Tree} {path path' : Path} (h : path ∈ tree) :
  path ∈ tree.create path'
  := by
  rw [create]
  split
  · apply List.mem_append_left _ h
  · exact h

/-- A node is there after its creation was requested, when its parent was there. -/
theorem mem_create {tree : Tree} {path : Path} (h : parent path = [] ∨ parent path ∈ tree) :
  path ∈ tree.create path
  := by
  rw [create]
  split
  · apply List.mem_append_right _ List.mem_cons_self
  · rename_i hnot
    by_contra hmem
    apply hnot
    simp [canCreate, hmem, h]

/-- What is in the tree after a request. -/
theorem mem_create_iff {tree : Tree} {path path' : Path} :
  path' ∈ tree.create path ↔ path' ∈ tree ∨ path' = path ∧ tree.canCreate path
  := by
  rw [create]
  split
  · simp_all
  · simp_all

end Tree

end Zuth
