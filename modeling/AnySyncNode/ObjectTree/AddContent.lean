import AnySyncNode.ObjectTree.Ingest
import AnySyncNode.Acl.ReadKeys

/-!
# Authoring a change

`AddContent` (`doctree.go`) is how a node writes a change of its own into an object tree.  It
fills an `aclpb.Change` with the tree's heads and root and with the ACL state's head and current
read-key hash, encrypts the marshalled content with the current read key, marshals and signs the
change and names it by the CID of its bytes.  It then adds the change to the tree as the one head,
after clearing the tree for a snapshot, and stores it with the new heads.  A deferred call
notifies the update listener on every path.

The serialisers, the cipher, the signer and the CID are the parameters `ContentDeps`.
`Tree.AddMergedHead` is a parameter too, since its source is not part of `src/`; the empty
`&Tree{}` that a snapshot starts is its argument `none`.

`AddContent_readKeyHash` joins the object tree to the ACL model.  Along any replay of the ACL
list, a reader who looks up the read-key hash that a change declares gets the key the change's
data is encrypted with, and that key hashes to the declared hash.  `AddContent_echo` composes
`AddContent` with `AddRawChanges`: a node that receives its own change back, as peers send it,
reports *Nothing* and leaves its storage as it was.
-/

namespace AnySyncNode

namespace ObjectTree

/-- `SignableChangeContent`, whose declaration is not part of `src/`: the payload as
`Proto.Marshal` returns it, the author's signing key and identity, and the snapshot flag. -/
structure SignableChangeContent where
  proto : Except String String
  key : String
  identity : String
  isSnapshot : Bool

/-- `aclpb.Change` with the fields `AddContent` fills. -/
structure AclpbChange where
  treeHeadIds : List String
  aclHeadId : String
  snapshotBaseId : String
  currentReadKeyHash : UInt64
  timestamp : ℤ
  identity : String
  isSnapshot : Bool
  changesData : String
  deriving DecidableEq, Repr

/-- The errors `AddContent` returns: the error of a serialiser, the cipher, the signer or the
CID; an ACL error; or a panic. -/
inductive ContentError
  | encoding (err : String)
  | acl (err : Acl.ACLError)
  | panic (msg : String)
  deriving DecidableEq, Repr

/-- The calls `AddContent` makes outside `doctree.go`. -/
structure ContentDeps where
  /-- `symmetric.Key.Encrypt` under a key. -/
  encrypt : String → String → Except String String
  /-- `proto.Marshal` of an `aclpb.Change`. -/
  marshal : AclpbChange → Except String String
  /-- `signingkey.PrivKey.Sign` under a key. -/
  sign : String → String → Except String String
  /-- `cid.NewCIDFromBytes`. -/
  newCIDFromBytes : String → Except String String
  /-- `Tree.AddMergedHead` on a tree, `none` for the empty `&Tree{}`. -/
  addMergedHead : Option Tree → Change → Except String Tree

/-- The `aclpb.Change` `AddContent` starts from, before its data is set. -/
def aclChangeOf (t : Tree) (state : Acl.ACLState) (aclHeadId : String) (timestamp : ℤ)
    (content : SignableChangeContent) : AclpbChange where
  treeHeadIds := t.headIds
  aclHeadId := aclHeadId
  snapshotBaseId := t.root.id
  currentReadKeyHash := state.currentReadKeyHash
  timestamp := timestamp
  identity := content.identity
  isSnapshot := content.isSnapshot
  changesData := ""

/-- The middle of `AddContent`: encrypt the marshalled content with the current read key into
the change's data, marshal the change, sign its bytes and take their CID.  The change, its
signature and its id. -/
def sealChange (deps : ContentDeps) (state : Acl.ACLState) (aclChange : AclpbChange)
    (content : SignableChangeContent) : Except ContentError (AclpbChange × String × String) := do
  let marshalledData ← content.proto.mapError .encoding
  let readKey ← (Acl.currentReadKey state).mapError .acl
  let encrypted ← (deps.encrypt readKey marshalledData).mapError .encoding
  let aclChange := { aclChange with changesData := encrypted }
  let fullMarshalledChange ← (deps.marshal aclChange).mapError .encoding
  let signature ← (deps.sign content.key fullMarshalledChange).mapError .encoding
  let id ← (deps.newCIDFromBytes fullMarshalledChange).mapError .encoding
  pure (aclChange, signature, id)

/-- `NewChange`: the tree's change of an id and an `aclpb.Change`. -/
def AclpbChange.toChange (aclChange : AclpbChange) (id : String) : Change :=
  ⟨id, aclChange.treeHeadIds, aclChange.snapshotBaseId, aclChange.isSnapshot⟩

@[simp] theorem AclpbChange.toChange_id (aclChange : AclpbChange) (id : String) :
    (aclChange.toChange id).id = id := rfl

/-- The raw change of an id, an `aclpb.Change` and a signature; its payload bytes are the
marshalled change, which the model keeps unmarshalled. -/
def AclpbChange.toRawChange (aclChange : AclpbChange) (signature id : String) : RawChange :=
  ⟨some ⟨aclChange.treeHeadIds, aclChange.snapshotBaseId, aclChange.isSnapshot⟩, signature, id⟩

@[simp] theorem AclpbChange.toRawChange_id (aclChange : AclpbChange) (signature id : String) :
    (aclChange.toRawChange signature id).id = id := rfl

/-- The body of `AddContent` with the ACL state, the ACL head id and the time: the new state, and
the raw change with the `aclpb.Change` its payload marshals, or the error.  A panic stops the
process, so its state is the state before the call. -/
def addContentBody (deps : ContentDeps) (d : DocTree) (state : Acl.ACLState) (aclHeadId : String)
    (timestamp : ℤ) (content : SignableChangeContent) :
    DocTree × Except ContentError (RawChange × AclpbChange) :=
  match d.tree with
  | none => (d, .error (.panic "invalid memory address or nil pointer dereference"))
  | some t =>
    match sealChange deps state (aclChangeOf t state aclHeadId timestamp content) content with
    | .error e => (d, .error e)
    | .ok (aclChange, signature, id) =>
      match deps.addMergedHead (if content.isSnapshot then none else some t) (aclChange.toChange id) with
      | .error e => (d, .error (.panic e))
      | .ok t' =>
        let rawChange := aclChange.toRawChange signature id
        ({ d with tree := some t', treeStorage := (d.treeStorage.addRawChange rawChange).setHeads [id] },
          .ok (rawChange, aclChange))

/-- `AddContent`: the body, and the deferred call of an installed listener on every path. -/
def AddContent (deps : ContentDeps) (d : DocTree) (state : Acl.ACLState) (aclHeadId : String)
    (timestamp : ℤ) (content : SignableChangeContent) :
    DocTree × Except ContentError (RawChange × AclpbChange) × Option ListenerCall :=
  let (d', result) := addContentBody deps d state aclHeadId timestamp content
  (d', result, if d.updateListener then some .update else none)

section Spec

variable {deps : ContentDeps} {state : Acl.ACLState} {aclChange aclChange' : AclpbChange}
  {content : SignableChangeContent} {signature id : String}

theorem sealChange_ok (h : sealChange deps state aclChange content = .ok (aclChange', signature, id)) :
    ∃ data key bytes, content.proto = .ok data ∧ Acl.currentReadKey state = .ok key ∧
      aclChange' = { aclChange with changesData := aclChange'.changesData } ∧
      deps.encrypt key data = .ok aclChange'.changesData ∧ deps.marshal aclChange' = .ok bytes ∧
      deps.sign content.key bytes = .ok signature ∧ deps.newCIDFromBytes bytes = .ok id := by
  obtain ⟨data, hdata, h⟩ := Except.bind_eq_ok.1 h
  obtain ⟨key, hkey, h⟩ := Except.bind_eq_ok.1 h
  obtain ⟨encrypted, henc, h⟩ := Except.bind_eq_ok.1 h
  obtain ⟨bytes, hmar, h⟩ := Except.bind_eq_ok.1 h
  obtain ⟨sig, hsig, h⟩ := Except.bind_eq_ok.1 h
  obtain ⟨cid, hcid, h⟩ := Except.bind_eq_ok.1 h
  cases Except.pure_eq_ok.1 h
  exact ⟨data, key, bytes, Except.mapError_eq_ok.1 hdata, Except.mapError_eq_ok.1 hkey, rfl,
    Except.mapError_eq_ok.1 henc, Except.mapError_eq_ok.1 hmar, Except.mapError_eq_ok.1 hsig,
    Except.mapError_eq_ok.1 hcid⟩

@[simp] theorem AddContent_fst (d : DocTree) (aclHeadId : String) (timestamp : ℤ) :
    (AddContent deps d state aclHeadId timestamp content).1 =
      (addContentBody deps d state aclHeadId timestamp content).1 := rfl

@[simp] theorem AddContent_result (d : DocTree) (aclHeadId : String) (timestamp : ℤ) :
    (AddContent deps d state aclHeadId timestamp content).2.1 =
      (addContentBody deps d state aclHeadId timestamp content).2 := rfl

@[simp] theorem AddContent_listenerCall (d : DocTree) (aclHeadId : String) (timestamp : ℤ) :
    (AddContent deps d state aclHeadId timestamp content).2.2 =
      if d.updateListener then some .update else none := rfl

theorem AddContent_fst_of_error {d : DocTree} {aclHeadId : String} {timestamp : ℤ} {e : ContentError}
    (h : (AddContent deps d state aclHeadId timestamp content).2.1 = .error e) :
    (AddContent deps d state aclHeadId timestamp content).1 = d := by
  revert h
  simp only [AddContent_fst, AddContent_result, addContentBody]
  split
  · simp
  · split
    · simp
    · split <;> simp

/-- What a successful `AddContent` did: it sealed the change started on the tree, added it to the
tree as the merged head, and stored its raw change with the change as the one head. -/
theorem AddContent_ok {d : DocTree} {aclHeadId : String} {timestamp : ℤ} {rawChange : RawChange}
    (h : (AddContent deps d state aclHeadId timestamp content).2.1 = .ok (rawChange, aclChange)) :
    ∃ t t' signature id, d.tree = some t ∧
      sealChange deps state (aclChangeOf t state aclHeadId timestamp content) content =
        .ok (aclChange, signature, id) ∧
      deps.addMergedHead (if content.isSnapshot then none else some t) (aclChange.toChange id) =
        .ok t' ∧
      rawChange = aclChange.toRawChange signature id ∧
      (AddContent deps d state aclHeadId timestamp content).1 =
        { d with tree := some t', treeStorage := (d.treeStorage.addRawChange rawChange).setHeads [id] } := by
  rcases ht : d.tree with _ | t
  · simp [addContentBody, ht] at h
  rcases hs : sealChange deps state (aclChangeOf t state aclHeadId timestamp content) content with
    _ | ⟨aclChange', signature, id⟩
  · simp [addContentBody, ht, hs] at h
  rcases hm : deps.addMergedHead (if content.isSnapshot then none else some t) (aclChange'.toChange id) with
    _ | t'
  · simp [addContentBody, ht, hs, hm] at h
  simp only [AddContent_result, addContentBody, ht, hs, hm, Except.ok.injEq, Prod.mk.injEq] at h
  obtain ⟨rfl, rfl⟩ := h
  exact ⟨t, t', signature, id, rfl, hs, hm, rfl, by simp [addContentBody, ht, hs, hm]⟩

end Spec

/-- **The read-key hash a change declares names the key its data is encrypted with**, for a change
authored on any state replayed from a fresh one; that key hashes to the declared hash. -/
theorem AddContent_readKeyHash (c : Acl.Crypto) (P : Acl.ACLState → Acl.ACLRecord → Prop)
    (aclId identity : String) (signingKey encryptionKey : Option String) (state : Acl.ACLState)
    (hst : Acl.Reachable c P (Acl.freshState aclId identity signingKey encryptionKey) state)
    (deps : ContentDeps) (d : DocTree) (aclHeadId : String) (timestamp : ℤ)
    (content : SignableChangeContent) (rawChange : RawChange) (aclChange : AclpbChange)
    (h : (AddContent deps d state aclHeadId timestamp content).2.1 = .ok (rawChange, aclChange)) :
    ∃ key data, state.userReadKeys.lookup aclChange.currentReadKeyHash = some key ∧
      c.fnv64 key = aclChange.currentReadKeyHash ∧ content.proto = .ok data ∧
      deps.encrypt key data = .ok aclChange.changesData := by
  obtain ⟨t, _, _, _, -, hseal, -⟩ := AddContent_ok h
  obtain ⟨data, key, -, hdata, hkey, hch, henc, -⟩ := sealChange_ok hseal
  have hhash : aclChange.currentReadKeyHash = state.currentReadKeyHash := by rw [hch]; rfl
  have hlookup := Acl.currentReadKey_eq_ok.1 hkey
  rw [hhash]
  exact ⟨key, data, hlookup, hst.keysHashed _ _ hlookup, hdata, henc⟩

theorem newChanges_of_hasChange (deps : Deps) (t : Tree) (rawChanges : List RawChange)
    (h : ∀ raw ∈ rawChanges, t.hasChange raw.id = true) : newChanges deps t rawChanges = .ok [] := by
  induction rawChanges with
  | nil => rfl
  | cons raw rawChanges ih =>
    simp only [List.mem_cons, forall_eq_or_imp] at h
    simp only [newChanges, h.1, if_true, ih h.2]

/-- **A node that receives its own change back stores nothing new**: `AddRawChanges` reports
*Nothing* and leaves the storage as `AddContent` left it. -/
theorem AddContent_echo (cdeps : ContentDeps)
    (hmerge : ∀ base c t', cdeps.addMergedHead base c = .ok t' → c.id ∈ t'.attached ∧ t'.headIds = [c.id])
    (deps : Deps) (d : DocTree) (state : Acl.ACLState) (aclHeadId : String) (timestamp : ℤ)
    (content : SignableChangeContent) (rawChange : RawChange) (aclChange : AclpbChange)
    (h : (AddContent cdeps d state aclHeadId timestamp content).2.1 = .ok (rawChange, aclChange)) :
    (AddRawChanges deps (AddContent cdeps d state aclHeadId timestamp content).1 [rawChange]).1.treeStorage =
      (AddContent cdeps d state aclHeadId timestamp content).1.treeStorage ∧
    ∃ call, (AddRawChanges deps (AddContent cdeps d state aclHeadId timestamp content).1
      [rawChange]).2 = .ok (⟨[], [], [], .nothing⟩, call) := by
  obtain ⟨t, t', signature, id, -, -, hmerge', rfl, hd⟩ := AddContent_ok h
  obtain ⟨hmem, hheads⟩ := hmerge _ _ _ hmerge'
  have hnews : newChanges deps t' [aclChange.toRawChange signature id] = .ok [] :=
    newChanges_of_hasChange deps t' _ (by simpa [Tree.hasChange] using Or.inl hmem)
  rw [hd]
  simp [AddRawChanges, addRawChanges, hnews, copyInto, hheads, TreeStorage.setHeads]

/-- Collaborators for concrete runs: the cipher, the serialiser, the signer and the CID tag their
input, and `AddMergedHead` makes the change the one head, or the root of the empty tree. -/
def ContentDeps.sample : ContentDeps where
  encrypt key data := .ok (key ++ "|" ++ data)
  marshal ch := .ok ch.changesData
  sign key bytes := .ok (key ++ "|" ++ bytes)
  newCIDFromBytes bytes := .ok ("cid|" ++ bytes)
  addMergedHead
    | none, c => .ok (Tree.ofRoot c)
    | some t, c => .ok { t with attached := t.attached.insert c.id c, headIds := [c.id] }

theorem ContentDeps.sample_addMergedHead (base : Option Tree) (c : Change) (t' : Tree)
    (h : ContentDeps.sample.addMergedHead base c = .ok t') : c.id ∈ t'.attached ∧ t'.headIds = [c.id] := by
  cases base <;> cases h <;> simp [Tree.ofRoot, AList.mem_keys, AList.keys_singleton]

theorem AddContent_readKeyHash_sample : ∃ state rawChange aclChange,
    Acl.Reachable Acl.Crypto.sample (fun _ _ => True)
      (Acl.freshState "acl" "alice" (some "alice-sign") (some "alice-enc")) state ∧
    (AddContent ContentDeps.sample rootDocTree state "aliceRoot" 0
      ⟨.ok "hello", "alice-sign", "alice", false⟩).2.1 = .ok (rawChange, aclChange) ∧
    aclChange.changesData = "alice|hello" ∧
    ∃ key data, state.userReadKeys.lookup aclChange.currentReadKeyHash = some key ∧
      Acl.Crypto.sample.fnv64 key = aclChange.currentReadKeyHash ∧
      (⟨.ok "hello", "alice-sign", "alice", false⟩ : SignableChangeContent).proto = .ok data ∧
      ContentDeps.sample.encrypt key data = .ok aclChange.changesData :=
  ⟨_, _, _, .step Acl.aliceRoot .init trivial rfl, rfl, rfl,
    AddContent_readKeyHash Acl.Crypto.sample (fun _ _ => True) "acl" "alice" (some "alice-sign")
      (some "alice-enc") _ (.step Acl.aliceRoot .init trivial rfl) ContentDeps.sample rootDocTree
      "aliceRoot" 0 ⟨.ok "hello", "alice-sign", "alice", false⟩ _ _ rfl⟩

theorem AddContent_echo_sample : ∃ state rawChange aclChange,
    Acl.Reachable Acl.Crypto.sample (fun _ _ => True)
      (Acl.freshState "acl" "alice" (some "alice-sign") (some "alice-enc")) state ∧
    (∀ base c t', ContentDeps.sample.addMergedHead base c = .ok t' →
      c.id ∈ t'.attached ∧ t'.headIds = [c.id]) ∧
    (AddContent ContentDeps.sample rootDocTree state "aliceRoot" 0
      ⟨.ok "hello", "alice-sign", "alice", false⟩).2.1 = .ok (rawChange, aclChange) ∧
    (AddRawChanges acceptAll (AddContent ContentDeps.sample rootDocTree state "aliceRoot" 0
      ⟨.ok "hello", "alice-sign", "alice", false⟩).1 [rawChange]).1.treeStorage =
      (AddContent ContentDeps.sample rootDocTree state "aliceRoot" 0
        ⟨.ok "hello", "alice-sign", "alice", false⟩).1.treeStorage ∧
    ∃ call, (AddRawChanges acceptAll (AddContent ContentDeps.sample rootDocTree state "aliceRoot" 0
      ⟨.ok "hello", "alice-sign", "alice", false⟩).1 [rawChange]).2 =
      .ok (⟨[], [], [], .nothing⟩, call) :=
  ⟨_, _, _, .step Acl.aliceRoot .init trivial rfl, ContentDeps.sample_addMergedHead, rfl,
    AddContent_echo ContentDeps.sample ContentDeps.sample_addMergedHead acceptAll rootDocTree _
      "aliceRoot" 0 ⟨.ok "hello", "alice-sign", "alice", false⟩ _ _ rfl⟩

end ObjectTree

end AnySyncNode
