import AnySyncNode.Basic
import Mathlib.Data.List.Sort

/-!
# The change tree

`docTree` (`pkg/acl/tree/doctree.go`) drives a `Tree` of changes, a tree builder, a validator and a
tree storage, none of whose sources is part of the repository's `src/`.  This file models them from
the specification (sections 4.1 to 4.3 and 6): a `Tree` holds the `attached` changes, reachable from
the root, and the `unAttached` ones still waiting for a parent; `Tree.add` attaches what it can and
drains the waiting changes, `Tree.reduceTree` moves the root to a snapshot all heads descend from
and drops its ancestors, and `build` loads a tree from storage by a depth-first walk.

Every walk over the graph is bounded by an explicit fuel, the number of changes it can visit.
-/

namespace AnySyncNode

namespace ObjectTree

/-- Modelled from the spec: the errors of the change, tree and storage layers, whose declarations
are not part of `src/`, next to `ErrHasInvalidChanges` and `ErrNoCommonSnapshot` of `doctree.go`. -/
inductive TreeError
  /-- `ErrHasInvalidChanges`: "the change is invalid". -/
  | hasInvalidChanges
  /-- `ErrNoCommonSnapshot`: "trees doesn't have a common snapshot". -/
  | noCommonSnapshot
  /-- The payload of a raw change does not unmarshal. -/
  | unmarshal
  /-- The signature of a raw change does not verify (*InvalidSignature*). -/
  | invalidSignature
  /-- The tree builder found several parentless changes (*MultipleRoots*). -/
  | multipleRoots
  /-- The storage holds no change with this id. -/
  | noSuchChange (id : String)
  /-- The validator rejects the tree. -/
  | validation
  /-- A Go runtime panic. -/
  | panic (msg : String)
  deriving DecidableEq, Repr

/-- Modelled from the spec: `Change`, with the fields the tree and `docTree` read (the ACL head,
read-key hash, identity and payload are read only by the validator, a parameter here). -/
structure Change where
  id : String
  prevIds : List String
  snapshotId : String
  isSnapshot : Bool
  deriving DecidableEq, Repr

/-- Modelled from the spec: the fields of a marshalled `aclpb.Change` that the tree reads. -/
structure ChangePayload where
  treeHeadIds : List String
  snapshotBaseId : String
  isSnapshot : Bool
  deriving DecidableEq, Repr

/-- `aclpb.RawChange`: the payload (`none` for bytes that do not unmarshal), the signature and the
id. -/
structure RawChange where
  payload : Option ChangePayload
  signature : String
  id : String
  deriving DecidableEq, Repr

/-- Modelled from the spec: `Mode`, the outcome of `Tree.Add`, its zero value first as the spec
lists it. -/
inductive Mode
  | nothing
  | append
  | rebuild
  deriving DecidableEq, Repr

/-- Modelled from the spec: `Tree`, the attached and unattached changes, the heads and the root. -/
structure Tree where
  root : Change
  attached : GoMap String Change
  unAttached : GoMap String Change
  headIds : List String

/-- Modelled from the spec: the heads, the attached changes no attached change names as a
parent, in ascending order. -/
def headsOf (attached : GoMap String Change) : List String :=
  (attached.keys.filter fun id => attached.entries.all fun e => id ∉ e.2.prevIds).insertionSort
    (· ≤ ·)

/-- Modelled from the spec: the tree of a single root change. -/
def Tree.ofRoot (root : Change) : Tree :=
  ⟨root, (∅ : GoMap String Change).insert root.id root, ∅, [root.id]⟩

/-- Modelled from the spec: every parent of `c` is attached. -/
def Tree.parentsAttached (t : Tree) (c : Change) : Bool :=
  c.prevIds.all fun id => (t.attached.lookup id).isSome

/-- Modelled from the spec: one candidate of `Tree.Add`, attached when all its parents are, kept
unattached otherwise; and the ids it attaches. -/
def Tree.place (t : Tree) (c : Change) : Tree × List String :=
  if t.parentsAttached c then ({ t with attached := t.attached.insert c.id c }, [c.id])
  else ({ t with unAttached := t.unAttached.insert c.id c }, [])

/-- Modelled from the spec: the drain of `Tree.Add`, attaching unattached changes whose parents
are all attached until none is left; and the ids it attaches.  Each turn moves one change, so the
number of unattached changes is enough fuel. -/
def Tree.drain : ℕ → Tree → Tree × List String
  | 0, t => (t, [])
  | fuel + 1, t =>
    match t.unAttached.entries.find? (fun e => t.parentsAttached e.2) with
    | none => (t, [])
    | some e =>
      let (t, ids) := Tree.drain fuel
        { t with attached := t.attached.insert e.1 e.2, unAttached := t.unAttached.erase e.1 }
      (t, e.1 :: ids)

/-- Modelled from the spec: `a` is `b` or an ancestor of it through attached changes, following
at most `fuel` parent links. -/
def Tree.isAncestor (t : Tree) (a : String) : ℕ → String → Bool
  | 0, b => a == b
  | fuel + 1, b =>
    a == b || match t.attached.lookup b with
      | some c => c.prevIds.any (t.isAncestor a fuel)
      | none => false

/-- Modelled from the spec: `Tree.Add`.  The candidates are placed in order, the unattached
changes drained, and the heads recomputed; the mode is *Nothing* when nothing was attached,
*Rebuild* when a newly attached change is a strict ancestor of a prior head, *Append*
otherwise. -/
def Tree.add (t : Tree) (changes : List Change) : Tree × Mode :=
  let placed := changes.foldl (fun (acc : Tree × List String) c =>
    let (t, ids) := acc.1.place c
    (t, acc.2 ++ ids)) (t, [])
  let drained := placed.1.drain placed.1.unAttached.entries.length
  let added := placed.2 ++ drained.2
  let headIds := headsOf drained.1.attached
  let t' := { drained.1 with headIds }
  let fuel := t'.attached.entries.length
  (t', if added = [] then .nothing
    else if added.any (fun id => t.headIds.any fun h => h ≠ id && t'.isAncestor id fuel h)
    then .rebuild else .append)

/-- Modelled from the spec: `Tree.reduceTree`.  Among the attached snapshots other than the root
that descend from the root and from which every head descends, the one no other descends from
becomes the root, and its ancestors leave the attached changes. -/
def Tree.reduceTree (t : Tree) : Tree :=
  let fuel := t.attached.entries.length
  let candidates := t.attached.entries.filter fun e =>
    e.2.isSnapshot && e.1 != t.root.id && t.isAncestor t.root.id fuel e.1 &&
      t.headIds.all (t.isAncestor e.1 fuel)
  match candidates.find? (fun e => candidates.all fun e' => e'.1 == e.1 || !t.isAncestor e.1 fuel e'.1) with
  | none => t
  | some s =>
    let ancestors := t.attached.keys.filter fun id => id != s.1 && t.isAncestor id fuel s.1
    { t with root := s.2, attached := ancestors.foldl (fun m id => m.erase id) t.attached }

@[simp] theorem Tree.reduceTree_headIds (t : Tree) : t.reduceTree.headIds = t.headIds := by
  simp only [Tree.reduceTree]
  split <;> rfl

/-! ### Storage and builder -/

/-- Modelled from the spec: the in-memory tree storage, its raw changes by id and its heads. -/
structure TreeStorage where
  changes : GoMap String RawChange
  heads : List String

/-- Modelled from the spec: `AddRawChange`, append-only and idempotent by id. -/
def TreeStorage.addRawChange (s : TreeStorage) (ch : RawChange) : TreeStorage :=
  if ch.id ∈ s.changes then s else { s with changes := s.changes.insert ch.id ch }

/-- Modelled from the spec: `SetHeads`, an atomic replace. -/
def TreeStorage.setHeads (s : TreeStorage) (heads : List String) : TreeStorage :=
  { s with heads }

/-- Modelled from the spec: `treeBuilder.loadChange`, an extra change of that id, or else the
stored one, verified. -/
def loadChange (parse : RawChange → Except TreeError Change) (storage : TreeStorage)
    (newChanges : List Change) (id : String) : Except TreeError Change :=
  match newChanges.find? (·.id == id) with
  | some c => .ok c
  | none =>
    match storage.changes.lookup id with
    | none => .error (.noSuchChange id)
    | some raw => parse raw

/-- Modelled from the spec: the depth-first load of `treeBuilder.Build` from the ids on the stack,
not following the parents of a snapshot.  Each turn loads one new change, so the number of changes
there are is enough fuel. -/
def loadChanges (parse : RawChange → Except TreeError Change) (storage : TreeStorage)
    (newChanges : List Change) : ℕ → List String → List Change → Except TreeError (List Change)
  | 0, _, loaded => .ok loaded
  | fuel + 1, stack, loaded =>
    match stack.dropWhile (fun id => loaded.any (·.id == id)) with
    | [] => .ok loaded
    | id :: stack => loadChange parse storage newChanges id >>= fun c =>
      loadChanges parse storage newChanges fuel
        ((if c.isSnapshot then [] else c.prevIds) ++ stack) (c :: loaded)

/-- Modelled from the spec: `treeBuilder.Build`.  The changes loaded from the storage heads and
the extra changes must have a single parentless change among them, the root; the others are
added to the tree of that root. -/
def build (parse : RawChange → Except TreeError Change) (storage : TreeStorage)
    (newChanges : List Change) : Except TreeError Tree := do
  let loaded ← loadChanges parse storage newChanges
    (storage.changes.entries.length + newChanges.length + 1)
    (storage.heads ++ newChanges.map (·.id)) []
  let roots := loaded.filter fun c => c.prevIds.all fun p => !loaded.any (·.id == p)
  match roots with
  | [root] => pure (Tree.ofRoot root |>.add (loaded.filter (·.id != root.id))).1
  | _ => throw .multipleRoots

end ObjectTree

end AnySyncNode
