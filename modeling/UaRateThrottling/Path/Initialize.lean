import UaRateThrottling.Transition
import UaRateThrottling.Path.QueuePath

/-!
# The initialisation of a group

`zkUA_initializeZkServerQueuePath` looks whether the queue node of the group exists, and when it
does not, requests the four nodes above the queues and the announcements of the servers. Each
request may fail on its own, and the results are not looked at.

* `tree_closed` says what all these initialisations can leave behind.
* `initialized_iff` says which of these trees the next initialisation repairs: not those that have
  the queue node and not the active node.
-/

namespace Zuth

open Transition

/-- `/Servers` -/
def serversPath : Path := ascii "/Servers"

/-- The nodes requested for a group, in this order. -/
def groupRequests (guid : Guid) : List Path :=
  [serversPath, groupGuidPath (printGuid guid), activePath (printGuid guid),
    queuePath (printGuid guid)]

/-- `zkUA_initializeZkServerQueuePath`, when all calls of ZooKeeper work: what it leaves of a
tree. -/
def initializeQueuePath (tree : Tree) (guid : Guid) : Tree :=
  if queuePath (printGuid guid) ∈ tree then tree
  else (groupRequests guid).foldl Tree.create tree

/-- The nodes above the queues and the announcements of a group are there. -/
structure Initialized (tree : Tree) (guid : Guid) : Prop where
  servers : serversPath ∈ tree
  group : groupGuidPath (printGuid guid) ∈ tree
  active : activePath (printGuid guid) ∈ tree
  queue : queuePath (printGuid guid) ∈ tree

/-! ### Interleaved initialisations -/

/-- What becomes of a request: ZooKeeper executes it, or the connection fails before or after
that. -/
inductive Outcome where
  | executed
  | connectionError (applied : Bool)
deriving DecidableEq

/-- An initialisation for a group: it has to look for the queue node, or has requests left that
are executed in their order. -/
inductive Initialization where
  | looking (guid : Guid)
  | creating (requests : List Path)

/-- The tree, and the initialisations that were begun. -/
structure Group where
  tree : Tree
  runs : List Initialization

namespace Group

inductive Action where
  /-- An initialisation for a group is begun. -/
  | begin (guid : Guid)
  /-- The next request of an initialisation has its outcome. -/
  | request (run : Nat) (outcome : Outcome)

/-- What is left to do after `zoo_exists`: nothing, when it says that the queue node is there. -/
def look (tree : Tree) (guid : Guid) (outcome : Outcome) : Initialization :=
  if outcome = .executed ∧ queuePath (printGuid guid) ∈ tree then .creating []
  else .creating (groupRequests guid)

/-- The tree after a request with the given outcome. -/
def request (tree : Tree) (path : Path) : Outcome → Tree
  | .executed | .connectionError true => tree.create path
  | .connectionError false => tree

/-- The step an action makes. -/
def step (s : Group) : Action → Option Group
  | .begin guid => some { s with runs := s.runs ++ [.looking guid] }
  | .request run outcome =>
    match s.runs[run]? with
    | some (.looking guid) => some { s with runs := s.runs.set run (look s.tree guid outcome) }
    | some (.creating (path :: requests)) =>
      some { tree := request s.tree path outcome, runs := s.runs.set run (.creating requests) }
    | _ => none

end Group

/-- Any number of initialisations over a tree that is empty in the beginning. -/
def initializations : Machine Group Group.Action where
  Init s := s.tree = [] ∧ s.runs = []
  step := Group.step

/-- The parent of every node is there. -/
def Tree.Closed (tree : Tree) : Prop := ∀ path ∈ tree, parent path = [] ∨ parent path ∈ tree

/-- Creating a node keeps the parents. -/
theorem Tree.Closed.create {tree : Tree} (h : tree.Closed) (path : Path) :
  (tree.create path).Closed
  := by
  intro path' hmem
  rcases Tree.mem_create_iff.mp hmem with hold | ⟨rfl, hcan⟩
  · cases h path' hold with
    | inl hroot =>
        left
        apply hroot
    | inr hparent =>
        right
        apply Tree.mem_create_of_mem hparent
  · simp only [Tree.canCreate, Bool.and_eq_true, Bool.or_eq_true, beq_iff_eq,
      List.contains_iff_mem] at hcan
    cases hcan.2 with
    | inl hroot =>
        left
        apply hroot
    | inr hparent =>
        right
        apply Tree.mem_create_of_mem hparent

/-- Whatever the initialisations of any groups leave behind, the parents of all nodes are
there. -/
theorem tree_closed {s : Group} (h : initializations.Reachable s) :
  s.tree.Closed
  := by
  apply Machine.Reachable.invariant _ _ h
  · rintro s ⟨htree, -⟩ path hmem
    rw [htree] at hmem
    cases hmem
  · intro s action t _ hs hstep
    cases action with
    | begin guid =>
        obtain rfl := Option.some.inj hstep
        apply hs
    | request run outcome =>
        simp only [initializations, Group.step] at hstep
        split at hstep
        · obtain rfl := Option.some.inj hstep
          apply hs
        · obtain rfl := Option.some.inj hstep
          cases outcome with
          | executed => apply hs.create
          | connectionError applied =>
              cases applied with
              | true => apply hs.create
              | false => apply hs
        · cases hstep

/-! ### The parents of the nodes of a group -/

theorem parent_serversPath :
  parent serversPath = []
  := by
  decide

theorem parent_groupGuidPath (guid : Guid) :
  parent (groupGuidPath (printGuid guid)) = serversPath
  := by
  rw [groupGuidPath_eq]
  apply parent_append serversPath (slash_notMem_printGuid guid)

theorem parent_activePath (guid : Guid) :
  parent (activePath (printGuid guid)) = groupGuidPath (printGuid guid)
  := by
  rw [activePath_eq]
  apply @parent_append _ (ascii "Active") (by decide)

theorem parent_queuePath (guid : Guid) :
  parent (queuePath (printGuid guid)) = groupGuidPath (printGuid guid)
  := by
  rw [queuePath_eq]
  apply @parent_append _ (ascii "Queue") (by decide)

/-- The nodes a server creates next find their parents in an initialised tree. -/
theorem Initialized.parents {tree : Tree} {config : Config} (h : Initialized tree config.guid) :
  parent config.serverTaskPath ∈ tree ∧ parent config.serverActivePath ∈ tree
  := by
  have hslash := config.slash_notMem_urlEncode
  rw [config.serverTaskPath_eq, config.serverQueuePath_eq, config.serverActivePath_eq,
    List.append_assoc, List.append_assoc]
  constructor
  · rw [show ascii "/" ++ urlEncode config.url = 47 :: urlEncode config.url from rfl,
      parent_append _ hslash]
    apply h.queue
  · rw [show ascii "/" ++ urlEncode config.url = 47 :: urlEncode config.url from rfl,
      parent_append _ hslash]
    apply h.active

/-! ### Repairing a tree -/

/-- Without the queue node an initialisation creates all the nodes that are not there. -/
theorem initialized_of_notMem {tree : Tree} {guid : Guid}
    (h : queuePath (printGuid guid) ∉ tree) :
  Initialized (initializeQueuePath tree guid) guid
  := by
  rw [initializeQueuePath, if_neg h, groupRequests]
  simp only [List.foldl_cons, List.foldl_nil]
  have hservers := @Tree.mem_create tree _ (Or.inl parent_serversPath)
  generalize tree.create serversPath = tree₁ at hservers ⊢
  have hgroup : groupGuidPath (printGuid guid) ∈
      tree₁.create (groupGuidPath (printGuid guid)) := by
    apply Tree.mem_create
    right
    rw [parent_groupGuidPath]
    apply hservers
  have hservers := @Tree.mem_create_of_mem _ _ (groupGuidPath (printGuid guid)) hservers
  generalize tree₁.create (groupGuidPath (printGuid guid)) = tree₂ at hservers hgroup ⊢
  have hactive : activePath (printGuid guid) ∈ tree₂.create (activePath (printGuid guid)) := by
    apply Tree.mem_create
    right
    rw [parent_activePath]
    apply hgroup
  have hservers := @Tree.mem_create_of_mem _ _ (activePath (printGuid guid)) hservers
  have hgroup := @Tree.mem_create_of_mem _ _ (activePath (printGuid guid)) hgroup
  generalize tree₂.create (activePath (printGuid guid)) = tree₃ at hservers hgroup hactive ⊢
  constructor
  · apply Tree.mem_create_of_mem hservers
  · apply Tree.mem_create_of_mem hgroup
  · apply Tree.mem_create_of_mem hactive
  · apply Tree.mem_create
    right
    rw [parent_queuePath]
    apply hgroup

/-- After any number of initialisations, of which requests may have failed, the next
initialisation of a group in which all calls work leaves all nodes of the group exactly when the
queue node was missing or the active node was there. -/
theorem initialized_iff {s : Group} (h : initializations.Reachable s) (guid : Guid) :
  (Initialized (initializeQueuePath s.tree guid) guid ∧
      ∀ config : Config, config.guid = guid →
        parent config.serverTaskPath ∈ initializeQueuePath s.tree guid ∧
        parent config.serverActivePath ∈ initializeQueuePath s.tree guid) ↔
    (queuePath (printGuid guid) ∈ s.tree → activePath (printGuid guid) ∈ s.tree)
  := by
  constructor
  · rintro ⟨hinitialized, -⟩ hqueue
    have hactive := hinitialized.active
    rwa [initializeQueuePath, if_pos hqueue] at hactive
  · intro hactive
    have hinitialized : Initialized (initializeQueuePath s.tree guid) guid := by
      by_cases hqueue : queuePath (printGuid guid) ∈ s.tree
      · have hclosed := tree_closed h
        have hgroup : groupGuidPath (printGuid guid) ∈ s.tree := by
          have hparent := hclosed _ hqueue
          rw [parent_queuePath, groupGuidPath_eq] at hparent
          rw [groupGuidPath_eq]
          apply hparent.resolve_left
          intro hnil
          cases hnil
        have hservers : serversPath ∈ s.tree := by
          have hparent := hclosed _ hgroup
          rw [parent_groupGuidPath] at hparent
          apply hparent.resolve_left (by decide)
        rw [initializeQueuePath, if_pos hqueue]
        exact ⟨hservers, hgroup, hactive hqueue, hqueue⟩
      · apply initialized_of_notMem hqueue
    use hinitialized
    rintro config rfl
    apply hinitialized.parents

/-- The request for the active node of the group fails, and the one for its queue node does
not. -/
def activeFails (guid : Guid) : List Group.Action :=
  [.begin guid, .request 0 .executed, .request 0 .executed, .request 0 .executed,
    .request 0 (.connectionError false), .request 0 .executed]

/-- The next initialisation finds the queue node, and does not create the active node. -/
theorem initialize_not_repairing :
  ∃ s, initializations.run ⟨[], []⟩ (activeFails ⟨1, 2, 3, Vector.replicate 8 4⟩) = some s ∧
    ¬Initialized (initializeQueuePath s.tree ⟨1, 2, 3, Vector.replicate 8 4⟩)
      ⟨1, 2, 3, Vector.replicate 8 4⟩
  := by
  refine ⟨_, rfl, ?_⟩
  intro hinitialized
  have hactive := hinitialized.active
  revert hactive
  decide

/-- The request for the queue node fails. -/
def queueFails (guid : Guid) : List Group.Action :=
  [.begin guid, .request 0 .executed, .request 0 .executed, .request 0 .executed,
    .request 0 .executed, .request 0 (.connectionError false)]

theorem initialized_iff_queueFails :
  ∃ s, initializations.run ⟨[], []⟩ (queueFails ⟨1, 2, 3, Vector.replicate 8 4⟩) = some s ∧
    Initialized (initializeQueuePath s.tree ⟨1, 2, 3, Vector.replicate 8 4⟩)
      ⟨1, 2, 3, Vector.replicate 8 4⟩
  := by
  have hinit : initializations.Reachable ⟨[], []⟩ := Machine.Reachable.init ⟨rfl, rfl⟩
  have hrun : ∃ s, initializations.run ⟨[], []⟩
      (queueFails ⟨1, 2, 3, Vector.replicate 8 4⟩) = some s ∧
      queuePath (printGuid ⟨1, 2, 3, Vector.replicate 8 4⟩) ∉ s.tree := by
    refine ⟨_, rfl, ?_⟩
    decide
  obtain ⟨s, hs, hqueue⟩ := hrun
  use s, hs
  apply ((initialized_iff (hinit.run hs) _).mpr _).1
  intro hmem
  contradiction

end Zuth
