import UaRateThrottling.NodeStore.Probing

/-!
# The node store

The store is a table of pointers to entries, and `UA_NODESTORE_TOMBSTONE` stands where an entry has
been removed.  The searches of the source end at a slot only, so here they take a number of steps
that they may go at most; `none` means that the call has not come back.  It also means that the call
reads or writes through a `NULL` pointer.

The memory an entry stands at matters to `UA_NodeStore_replace`, which compares it with the address
a copy was made from.
-/

namespace UA

/-- `UA_NodeStoreEntry` with its address, the id of the node, and the rest of the node. -/
structure NodeStoreEntry (V : Type) where
  address : Nat
  orig : Option Nat
  nodeId : Binary.NodeId
  node : V
deriving DecidableEq

/-- `UA_NodeStore` -/
structure NodeStore (V : Type) where
  entries : List (OpenAddressing.Slot (NodeStoreEntry V))
  size : UInt32
  count : UInt32

namespace NodeStore

inductive StatusCode where
  | good | badOutOfMemory | badInternalError | badNodeIdExists | badNodeIdUnknown
deriving DecidableEq

variable {V : Type}

/-! ### Searches -/

/-- `findNode`: the slot of a node and its entry. -/
def findNode (fuel : Nat) (ns : NodeStore V) (nodeid : Binary.NodeId) :
    Option (Option (Nat × NodeStoreEntry V)) :=
  let h := hash nodeid
  OpenAddressing.loop
    (fun (idx : UInt32) =>
      match ns.entries[idx.toNat]? with
      | some .empty => some none
      | some (.full e) => if nodeIdEqual e.nodeId nodeid then some (some (idx.toNat, e)) else none
      | _ => none)
    (next ns.size (mod2 h ns.size)) fuel (mod h ns.size)

/-- `findSlot`: a free slot, unless the node is found first. -/
def findSlot (fuel : Nat) (ns : NodeStore V) (nodeid : Binary.NodeId) : Option (Option Nat) :=
  let h := hash nodeid
  OpenAddressing.loop
    (fun (idx : UInt32) =>
      match ns.entries[idx.toNat]? with
      | some (.full e) => if nodeIdEqual e.nodeId nodeid then some none else none
      | some _ => some (some idx.toNat)
      | none => none)
    (next ns.size (mod2 h ns.size)) fuel (mod h ns.size)

/-! ### The size -/

/-- The loop of `expand` over the old slots, with the number of entries that are left. -/
def moveEntries (fuel : Nat) : Nat → List (OpenAddressing.Slot (NodeStoreEntry V)) → NodeStore V →
    Option (NodeStore V)
  | 0, _, ns => some ns
  | _, [], ns => some ns
  | left + 1, .full e :: oentries, ns =>
    match findSlot fuel ns e.nodeId with
    | some (some slot) =>
      moveEntries fuel left oentries { ns with entries := ns.entries.set slot (.full e) }
    -- The pointer is written without a check.
    | some none => none
    | none => none
  | left + 1, _ :: oentries, ns => moveEntries fuel (left + 1) oentries ns

/-- `expand`; there may be no memory for the new table. -/
def expand (fuel : Nat) (calloc : Bool) (ns : NodeStore V) : Option (StatusCode × NodeStore V) :=
  if ns.count * 2 < ns.size ∧ (ns.count * 8 > ns.size ∨ ns.size ≤ 64) then some (.good, ns)
  else
    (primes[higherPrimeIndex (ns.count * 2)]?).bind (fun nsize =>
      if calloc then
        let new := { ns with entries := List.replicate nsize.toNat .empty, size := nsize }
        (moveEntries fuel ns.count.toNat ns.entries new).map (fun ns => (.good, ns))
      else some (.badOutOfMemory, ns))

/-! ### The functions of the store -/

/-- `UA_NodeStore_new` -/
def new : NodeStore V :=
  let size := primes[higherPrimeIndex 64]!
  { entries := List.replicate size.toNat .empty, size := size, count := 0 }

/-- A number is written over the first four bytes of the identifier.  In a string these are of its
length.  An empty string has no data, which the next search would read. -/
def setNumeric (nodeId : Binary.NodeId) (identifier : UInt32) : Option Binary.NodeId :=
  match nodeId.identifier with
  | .numeric _ => some { nodeId with identifier := .numeric identifier }
  | .guid g => some { nodeId with identifier := .guid { g with data1 := identifier } }
  | _ => none

/-- One round of the loop of `UA_NodeStore_insert`: the id with the number, and a slot for it. -/
def tryIdentifier (fuel : Nat) (ns : NodeStore V) (nodeId : Binary.NodeId) (identifier : UInt32) :
    Option (Option (Binary.NodeId × Nat)) :=
  match setNumeric nodeId identifier with
  | none => some none
  | some nodeId =>
    match findSlot fuel ns nodeId with
    | none => some none
    | some none => none
    | some (some slot) => some (some (nodeId, slot))

/-- An id without an identifier gets one in a namespace of its own. -/
def fillNamespace (nodeId : Binary.NodeId) : Binary.NodeId :=
  if nodeId.namespaceIndex = 0 then { nodeId with namespaceIndex := 1 } else nodeId

/-- The loop of `UA_NodeStore_insert` for a node without an id: the id that is found, and its
slot. -/
def findIdentifier (fuel : Nat) (ns : NodeStore V) (nodeId : Binary.NodeId) :
    Option (Binary.NodeId × Nat) :=
  let identifier := ns.count + 1
  (OpenAddressing.loop (tryIdentifier fuel ns (fillNamespace nodeId))
    (next ns.size (mod2 identifier ns.size)) fuel identifier).join

/-- The entry is written to the slot. -/
def insertAt (ns : NodeStore V) (slot : Nat) (entry : NodeStoreEntry V) : NodeStore V :=
  { ns with entries := ns.entries.set slot (.full entry), count := ns.count + 1 }

inductive Answer (V : Type) where
  | status (code : StatusCode)
  | inserted (nodeId : Binary.NodeId)
  | node (entry : Option (NodeStoreEntry V))
deriving DecidableEq

/-- The id is `NULL` in whatever namespace. -/
def isAnonymous (nodeId : Binary.NodeId) : Bool := isNull { nodeId with namespaceIndex := 0 }

/-- `UA_NodeStore_insert`, once the table has room. -/
def place (fuel : Nat) (ns : NodeStore V) (node : NodeStoreEntry V) :
    Option (Answer V × NodeStore V) :=
  if isAnonymous node.nodeId then
    (findIdentifier fuel ns node.nodeId).map (fun r =>
      (.inserted r.1, ns.insertAt r.2 { node with nodeId := r.1 }))
  else
    (findSlot fuel ns node.nodeId).map (fun
      | none => (.status .badNodeIdExists, ns)
      | some slot => (.inserted node.nodeId, ns.insertAt slot node))

/-- `UA_NodeStore_insert`, which answers with the id of the node in case of success. -/
def insert (fuel : Nat) (calloc : Bool) (ns : NodeStore V) (node : NodeStoreEntry V) :
    Option (Answer V × NodeStore V) :=
  (if ns.size * 3 ≤ ns.count * 4 then expand fuel calloc ns else some (.good, ns)).bind (fun r =>
    if r.1 ≠ .good then some (.status .badInternalError, r.2) else place fuel r.2 node)

/-- `UA_NodeStore_replace` -/
def replace (fuel : Nat) (ns : NodeStore V) (node : NodeStoreEntry V) :
    Option (Answer V × NodeStore V) :=
  (findNode fuel ns node.nodeId).map (fun
    | none => (.status .badNodeIdUnknown, ns)
    | some (slot, entry) =>
      if some entry.address ≠ node.orig then (.status .badInternalError, ns)
      else (.status .good, { ns with entries := ns.entries.set slot (.full node) }))

/-- `UA_NodeStore_get` -/
def get (fuel : Nat) (ns : NodeStore V) (nodeid : Binary.NodeId) :
    Option (Answer V × NodeStore V) :=
  (findNode fuel ns nodeid).map (fun slot => (.node (slot.map Prod.snd), ns))

/-- `UA_NodeStore_getCopy`; the copy is at a new address, when there is memory for it. -/
def getCopy (fuel : Nat) (new : Option Nat) (ns : NodeStore V) (nodeid : Binary.NodeId) :
    Option (Answer V × NodeStore V) :=
  (findNode fuel ns nodeid).map (fun slot =>
    (.node (slot.bind (fun (_, entry) =>
      new.map (fun address => { entry with address := address, orig := some entry.address }))), ns))

/-- `UA_NodeStore_remove` -/
def remove (fuel : Nat) (calloc : Bool) (ns : NodeStore V) (nodeid : Binary.NodeId) :
    Option (Answer V × NodeStore V) :=
  (findNode fuel ns nodeid).bind (fun
    | none => some (.status .badNodeIdUnknown, ns)
    | some (slot, _) =>
      let ns := { ns with entries := ns.entries.set slot .tombstone, count := ns.count - 1 }
      if ns.count * 8 < ns.size ∧ ns.size > 32 then
        (expand fuel calloc ns).map (fun (_, ns) => (.status .good, ns))
      else some (.status .good, ns))

/-- `UA_Server_editNode`, which hands the node itself to the callback. -/
def editNode (fuel : Nat) (callback : V → StatusCode × V) (ns : NodeStore V)
    (nodeid : Binary.NodeId) : Option (Answer V × NodeStore V) :=
  (findNode fuel ns nodeid).map (fun
    | none => (.status .badNodeIdUnknown, ns)
    | some (slot, entry) =>
      let (retval, node) := callback entry.node
      (.status retval,
        { ns with entries := ns.entries.set slot (.full { entry with node := node }) }))

/-! ### Calls -/

inductive Call (V : Type) where
  | insert (calloc : Bool) (node : NodeStoreEntry V)
  | replace (node : NodeStoreEntry V)
  | get (nodeid : Binary.NodeId)
  | getCopy (nodeid : Binary.NodeId) (new : Option Nat)
  | remove (calloc : Bool) (nodeid : Binary.NodeId)
  | editNode (nodeid : Binary.NodeId) (callback : V → StatusCode × V)

/-- The answer to a call and the store it leaves. -/
def call (fuel : Nat) (ns : NodeStore V) : Call V → Option (Answer V × NodeStore V)
  | .insert calloc node => insert fuel calloc ns node
  | .replace node => replace fuel ns node
  | .get nodeid => get fuel ns nodeid
  | .getCopy nodeid new => getCopy fuel new ns nodeid
  | .remove calloc nodeid => remove fuel calloc ns nodeid
  | .editNode nodeid callback => editNode fuel callback ns nodeid

end NodeStore

end UA
