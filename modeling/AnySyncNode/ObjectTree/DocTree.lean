import AnySyncNode.ObjectTree.Tree

/-!
# `docTree`

The object tree of `doctree.go`: a `Tree` over a tree storage.  `AddRawChanges` ingests a batch of
raw changes in four stages (`addRawChanges`): it drops the ids the tree already holds and verifies
the others; if one of them descends from a snapshot that is neither the root nor in the batch, it
rebuilds the tree from storage with the batch; otherwise it adds the batch to the tree and
validates, rolling the batch's ids back on a failed validation.  It then reduces the tree and
stores the changes of the batch that ended up attached, and the heads.

The change verifier, the tree builder and the validator are the parameters `Deps` (as
`objectTreeDeps` gathers them in the source's test); storage calls succeed.  `d.tree` is `none`
after a failed build, where the source leaves a nil tree, and reading it panics.
-/

namespace AnySyncNode

namespace ObjectTree

/-- The collaborators of a `docTree`. -/
structure Deps where
  /-- `NewVerifiedChangeFromRaw` with the tree's keychain. -/
  newVerifiedChangeFromRaw : RawChange → Except TreeError Change
  /-- `treeBuilder.Build` over the tree's storage. -/
  build : TreeStorage → List Change → Except TreeError Tree
  /-- `validator.ValidateTree` with the ACL list. -/
  validateTree : Tree → Except TreeError Unit

/-- `AddResultSummary`. -/
inductive AddResultSummary
  | nothing
  | append
  | rebuild
  deriving DecidableEq, Repr

/-- `AddResult`. -/
structure AddResult where
  oldHeads : List String
  heads : List String
  added : List RawChange
  summary : AddResultSummary
  deriving DecidableEq, Repr

/-- The calls `AddRawChanges` makes on its `TreeUpdateListener`. -/
inductive ListenerCall
  | update
  | rebuild
  deriving DecidableEq, Repr

/-- The fields of `docTree` that `AddRawChanges` reads and writes (the buffers are locals). -/
structure DocTree where
  treeStorage : TreeStorage
  tree : Option Tree
  /-- An update listener is installed. -/
  updateListener : Bool

/-- `copy(dst, src)` returning `dst`: Go copies `min(len(dst), len(src))` elements. -/
def copyInto (dst src : List String) : List String :=
  src.take dst.length ++ dst.drop src.length

/-- `docTree.HasChange`. -/
def Tree.hasChange (t : Tree) (s : String) : Bool :=
  s ∈ t.attached || s ∈ t.unAttached

/-- `rebuildFromStorage`: build the tree from storage with the given changes, then validate it. -/
def rebuildFromStorage (deps : Deps) (d : DocTree) (newChanges : List Change) :
    DocTree × Except TreeError Unit :=
  match deps.build d.treeStorage newChanges with
  | .error e => ({ d with tree := none }, .error e)
  | .ok tree => ({ d with tree := some tree }, deps.validateTree tree)

/-- The filter loop of `addRawChanges`: the raw changes whose ids the tree does not hold, each
with its verified change, or the first verification error. -/
def newChanges (deps : Deps) (t : Tree) : List RawChange → Except TreeError (List (RawChange × Change))
  | [] => .ok []
  | ch :: rawChanges =>
    if t.hasChange ch.id then newChanges deps t rawChanges
    else do
      let change ← deps.newVerifiedChangeFromRaw ch
      let rest ← newChanges deps t rawChanges
      pure ((ch, change) :: rest)

/-- `getAddedChanges`: the new raw changes whose ids are attached. -/
def getAddedChanges (t : Tree) (news : List (RawChange × Change)) : List RawChange :=
  (news.filter fun n => n.1.id ∈ t.attached).map (·.1)

/-- `rollback`: every new change leaves the attached changes, or else the unattached ones. -/
def rollback (t : Tree) (news : List (RawChange × Change)) : Tree :=
  news.foldl (fun t n =>
    if n.2.id ∈ t.attached then { t with attached := t.attached.erase n.2.id }
    else if n.2.id ∈ t.unAttached then { t with unAttached := t.unAttached.erase n.2.id }
    else t) t

/-- `isOldSnapshot`: the change descends from a snapshot that is neither the root nor new. -/
def isOldSnapshot (t : Tree) (news : List (RawChange × Change)) (ch : Change) : Bool :=
  ch.snapshotId != t.root.id && news.all fun n => !(n.2.isSnapshot && ch.snapshotId == n.2.id)

/-- The zero `Mode`. -/
def Mode.zero : Mode := .nothing

/-- The unexported `addRawChanges`: the new state, and the mode and result or an error. -/
def addRawChanges (deps : Deps) (d : DocTree) (rawChanges : List RawChange) :
    DocTree × Except TreeError (Mode × AddResult) :=
  match d.tree with
  | none => (d, .error (.panic "invalid memory address or nil pointer dereference"))
  | some t =>
    let prevHeadsCopy := copyInto [] t.headIds
    match newChanges deps t rawChanges with
    | .error e => (d, .error e)
    | .ok news =>
      if news = [] then
        (d, .ok (Mode.zero, ⟨prevHeadsCopy, prevHeadsCopy, [], .nothing⟩))
      else if news.any (isOldSnapshot t news ·.2) then
        match rebuildFromStorage deps d (news.map (·.2)) with
        | (d, .error e) => ((rebuildFromStorage deps d []).1, .error e)
        | (d, .ok ()) =>
          match d.tree with
          | none => (d, .error (.panic "invalid memory address or nil pointer dereference"))
          | some t =>
            (d, .ok (Mode.zero, ⟨prevHeadsCopy, copyInto [] t.headIds, getAddedChanges t news, .rebuild⟩))
      else
        let (t, mode) := t.add (news.map (·.2))
        match mode with
        | .nothing => ({ d with tree := some t }, .ok (mode, ⟨prevHeadsCopy, prevHeadsCopy, [], .nothing⟩))
        | _ =>
          match deps.validateTree t with
          | .error _ => ({ d with tree := some (rollback t news) }, .error .hasInvalidChanges)
          | .ok () =>
            ({ d with tree := some t },
              .ok (mode, ⟨prevHeadsCopy, copyInto [] t.headIds, getAddedChanges t news, .append⟩))

/-- `AddRawChanges`: after `addRawChanges`, reduce the tree, store the added changes and the heads,
and call the listener on the mode. -/
def AddRawChanges (deps : Deps) (d : DocTree) (rawChanges : List RawChange) :
    DocTree × Except TreeError (AddResult × Option ListenerCall) :=
  match addRawChanges deps d rawChanges with
  | (d, .error e) => (d, .error e)
  | (d, .ok (mode, addResult)) =>
    match d.tree with
    | none => (d, .error (.panic "invalid memory address or nil pointer dereference"))
    | some t =>
      let t := t.reduceTree
      let treeStorage := (addResult.added.foldl TreeStorage.addRawChange d.treeStorage).setHeads t.headIds
      ({ d with tree := some t, treeStorage },
        .ok (addResult, if d.updateListener then
          match mode with
          | .append => some .update
          | .rebuild => some .rebuild
          | .nothing => none
        else none))

/-- `BuildDocTree`: rebuild from storage, and store the rebuilt heads when they differ from the
stored ones. -/
def buildDocTree (deps : Deps) (t : TreeStorage) (updateListener : Bool) :
    Except TreeError DocTree :=
  match rebuildFromStorage deps ⟨t, none, updateListener⟩ [] with
  | (_, .error e) => .error e
  | (d, .ok ()) =>
    match d.tree with
    | none => .error (.panic "invalid memory address or nil pointer dereference")
    | some tree =>
      if t.heads.Perm tree.headIds then .ok d
      else .ok { d with treeStorage := t.setHeads tree.headIds }

/-! ### Snapshot path -/

/-- `snapshotPathIsActual`: the memo `snapshotPath` is not empty and its last id is the root's. -/
def snapshotPathIsActual (snapshotPath : List String) (t : Tree) : Bool :=
  snapshotPath.length != 0 && snapshotPath.getLast? == some t.root.id

/-- The loop of `SnapshotPath`: from `currentSnapshotId`, each id whose change loads, followed by
the walk from that change's snapshot id, until an empty id or a failed load.  `fuel` bounds the
loads; `none` when the links run on beyond it.  With one load per stored change, a walk that
runs out repeats an id, and the Go loop never ends. -/
def snapshotWalk (load : String → Except TreeError Change) : ℕ → String → Option (List String)
  | fuel, currentSnapshotId =>
    if currentSnapshotId = "" then some []
    else
      match load currentSnapshotId with
      | .error _ => some []
      | .ok sn =>
        match fuel with
        | 0 => none
        | fuel + 1 => (snapshotWalk load fuel sn.snapshotId).map (currentSnapshotId :: ·)

/-- `SnapshotPath` with the memo `snapshotPath`: the memo when it is actual, else the walk from the
root through the tree builder's `loadChange`.  What it returns becomes the memo; `none` where the
Go loop runs forever. -/
def SnapshotPath (deps : Deps) (d : DocTree) (snapshotPath : List String) :
    Except TreeError (Option (List String)) :=
  match d.tree with
  | none => .error (.panic "invalid memory address or nil pointer dereference")
  | some t =>
    if snapshotPathIsActual snapshotPath t then .ok (some snapshotPath)
    else .ok (snapshotWalk (loadChange deps.newVerifiedChangeFromRaw d.treeStorage [])
      d.treeStorage.changes.entries.length t.root.id)

end ObjectTree

end AnySyncNode
