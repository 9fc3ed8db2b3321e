import AnySyncNode.Basic

/-!
# The ACL state machine

`ACLState` (`common/pkg/acl/list/aclstate.go`) replays the records of an ACL list.  The root
record names the genesis identity, which becomes the only Admin, and the first read key; every
later record carries content items that add, remove, invite, join or re-permission users, and a
`CurrentReadKeyHash` header that the state adopts once the items are applied.  After each record
the state stores the `(identity, permission)` table under the record's id.

This file is the model of that file, one definition per Go function:

* `decryptReadKeyAndHash`, `saveReadKeyFromRoot`, `applyRoot`;
* `applyUserPermissionChange`, `applyUserInvite`, `applyUserJoin`, `applyUserAdd`,
  `applyUserRemove`, dispatched by `applyChangeContent`;
* `applyChangeData` with its deferred read-key rotation (`rotateReadKey`), and `applyRecord`;
* the accessors `currentReadKey`, `permissionsAtRecord` and `invite`.

The cryptographic primitives the file calls (asymmetric decryption, Ed25519 verification, key
derivation, the FNV hash of a key) are the fields of `Crypto`, a parameter of every function.
A Go panic (a nil key, a failed type assertion) ends the application with `ACLError.panic`.
On an error the Go code may already have mutated the state in place; callers drop such a state,
and the model returns only the error.
-/

namespace AnySyncNode

namespace Acl

/-- `aclrecordproto.ACLUserPermissions`. -/
inductive ACLUserPermissions
  | admin
  | writer
  | reader
  | revoked
  deriving DecidableEq, Repr

/-- `aclrecordproto.ACLUserState`: an entry of `userStates`. -/
structure ACLUserState where
  identity : String
  encryptionKey : String
  permissions : ACLUserPermissions
  deriving DecidableEq, Repr

/-- `aclrecordproto.ACLUserInvite`: the read keys sealed for the invitee and its permission. -/
structure ACLUserInvite where
  acceptPublicKey : String
  encryptedReadKeys : List String
  permissions : ACLUserPermissions
  deriving DecidableEq, Repr

/-- `aclrecordproto.ACLUserJoin`. -/
structure ACLUserJoin where
  identity : String
  encryptionKey : String
  acceptSignature : String
  acceptPubKey : String
  encryptedReadKeys : List String
  deriving DecidableEq, Repr

/-- `aclrecordproto.ACLUserAdd`. -/
structure ACLUserAdd where
  identity : String
  encryptionKey : String
  encryptedReadKeys : List String
  permissions : ACLUserPermissions
  deriving DecidableEq, Repr

/-- `aclrecordproto.ACLReadKeyReplace`: the new read key sealed for one remaining user. -/
structure ACLReadKeyReplace where
  identity : String
  encryptionKey : String
  encryptedReadKey : String
  deriving DecidableEq, Repr

/-- `aclrecordproto.ACLUserRemove`. -/
structure ACLUserRemove where
  identity : String
  readKeyReplaces : List ACLReadKeyReplace
  deriving DecidableEq, Repr

/-- `aclrecordproto.ACLUserPermissionChange`. -/
structure ACLUserPermissionChange where
  identity : String
  permissions : ACLUserPermissions
  deriving DecidableEq, Repr

/-- `aclrecordproto.ACLContentValue`, a protobuf `oneof`; `unset` is a value with no case set. -/
inductive ACLContentValue
  | userAdd (ch : ACLUserAdd)
  | userRemove (ch : ACLUserRemove)
  | userPermissionChange (ch : ACLUserPermissionChange)
  | userInvite (ch : ACLUserInvite)
  | userJoin (ch : ACLUserJoin)
  | unset
  deriving DecidableEq, Repr

/-- `aclrecordproto.ACLData`: the content items of a record. -/
structure ACLData where
  aclContent : List ACLContentValue
  deriving DecidableEq, Repr

/-- `aclrecordproto.ACLRoot`. -/
structure ACLRoot where
  identity : String
  encryptionKey : String
  encryptedReadKey : String
  derivationScheme : String
  currentReadKeyHash : UInt64
  deriving DecidableEq, Repr

/-- The decoded model a record carries (`ACLRecord.Model`). -/
inductive RecordModel
  | root (root : ACLRoot)
  | data (data : ACLData)
  deriving DecidableEq, Repr

/-- `ACLRecord`: `model` is the already decoded `Model` (`none` for a nil interface) and `data`
the result of unmarshalling `Data` (`none` when it does not parse). -/
structure ACLRecord where
  id : String
  identity : String
  currentReadKeyHash : UInt64
  model : Option RecordModel
  data : Option ACLData
  deriving DecidableEq, Repr

/-- `UserPermissionPair`. -/
structure UserPermissionPair where
  identity : String
  permission : ACLUserPermissions
  deriving DecidableEq, Repr

/-- The errors of `aclstate.go`. -/
inductive ACLError
  /-- `ErrNoSuchUser`: "no such user". -/
  | noSuchUser
  /-- `ErrFailedToDecrypt`: "failed to decrypt key". -/
  | failedToDecrypt
  /-- `ErrDocumentForbidden`: "your user was forbidden access to the document". -/
  | documentForbidden
  /-- `ErrUserAlreadyExists`: "user already exists". -/
  | userAlreadyExists
  /-- `ErrNoSuchRecord`: "no such record". -/
  | noSuchRecord
  /-- `ErrNoSuchInvite`: "no such invite". -/
  | noSuchInvite
  /-- `ErrOldInvite`: "invite is too old". -/
  | oldInvite
  /-- `ErrNoReadKey`: "acl state doesn't have a read key". -/
  | noReadKey
  /-- `ErrInvalidSignature`: "signature is invalid". -/
  | invalidSignature
  /-- `ErrIncorrectRoot`: "incorrect root". -/
  | incorrectRoot
  /-- "user %s must have admin permissions". -/
  | notAdmin (identity : String)
  /-- "no such invite with such public key %s". -/
  | noInviteForKey (acceptPubKey : String)
  /-- "public key verifying invite accepts is given in incorrect format: %v". -/
  | badAcceptKey (err : String)
  /-- "verification returned error: %w". -/
  | verification (err : String)
  /-- "unexpected change type: %v". -/
  | unexpectedChangeType
  /-- An error of a key primitive (`GetPublic().Raw()`, `ACLReadKeyDerive`). -/
  | keyError (err : String)
  /-- `proto.Unmarshal` of the record data failed. -/
  | unmarshal
  /-- A Go runtime panic: a nil key or a failed type assertion. -/
  | panic
  deriving DecidableEq, Repr

/-- The cryptographic primitives `aclstate.go` calls; keys and sealed messages are byte strings. -/
structure Crypto where
  /-- `encryptionkey.PrivKey.Decrypt`: open a sealed message with a private encryption key. -/
  decrypt : String → String → Option String
  /-- `symmetric.FromBytes` accepts the bytes as a symmetric key. -/
  isSymmetricKey : String → Bool
  /-- `fnv.New64` written with the key bytes. -/
  fnv64 : String → UInt64
  /-- `signingkey.NewSigningEd25519PubKeyFromBytes`. -/
  signingPubKeyFromBytes : String → Except String String
  /-- `signingkey.PubKey.Verify(msg, sig)` under a decoded key. -/
  verify : String → String → String → Except String Bool
  /-- `aclrecordproto.ACLReadKeyDerive(identity, encPubKey)`. -/
  readKeyDerive : String → String → Except String String
  /-- `encryptionKey.GetPublic().Raw()`. -/
  encryptionPublic : String → Except String String
  /-- `signingKey.GetPublic().Raw()`. -/
  signingPublic : String → Except String String

/-- `ACLState`. Read keys are stored as their bytes. -/
structure ACLState where
  id : String
  currentReadKeyHash : UInt64
  userReadKeys : GoMap UInt64 String
  userStates : GoMap String ACLUserState
  userInvites : GoMap String ACLUserInvite
  encryptionKey : Option String
  signingKey : Option String
  /-- A Go `int`; it counts read keys, far from overflow. -/
  totalReadKeys : ℕ
  identity : String
  permissionsAtRecord : GoMap String (List UserPermissionPair)

/-- `newACLState`: a state with no keys, as a sync node holds. -/
def newACLState (id : String) : ACLState where
  id := id
  currentReadKeyHash := 0
  userReadKeys := ∅
  userStates := ∅
  userInvites := ∅
  encryptionKey := none
  signingKey := none
  totalReadKeys := 0
  identity := ""
  permissionsAtRecord := ∅

section Apply

variable (c : Crypto)

/-- `newACLStateWithKeys`: the local identity is the public signing key. -/
def newACLStateWithKeys (id signingKey encryptionKey : String) : Except String ACLState := do
  let identity ← c.signingPublic signingKey
  pure { newACLState id with
    identity := identity, signingKey := some signingKey, encryptionKey := some encryptionKey }

/-- `decryptReadKeyAndHash`: open a sealed read key with the local encryption key. -/
def decryptReadKeyAndHash (st : ACLState) (msg : String) : Except ACLError (String × UInt64) :=
  match st.encryptionKey with
  | none => .error .panic
  | some encryptionKey =>
    match c.decrypt encryptionKey msg with
    | none => .error .failedToDecrypt
    | some decrypted =>
      if c.isSymmetricKey decrypted then .ok (decrypted, c.fnv64 decrypted)
      else .error .failedToDecrypt

/-- The first read key of `saveReadKeyFromRoot`: derived from the local identity when the root
names a derivation scheme, else opened from the root's sealed key. -/
def rootReadKey (st : ACLState) (root : ACLRoot) : Except ACLError String :=
  if root.derivationScheme ≠ "" then
    match st.encryptionKey with
    | none => .error .panic
    | some encryptionKey => do
      let encPubKey ← (c.encryptionPublic encryptionKey).mapError .keyError
      (c.readKeyDerive st.identity encPubKey).mapError .keyError
  else Prod.fst <$> decryptReadKeyAndHash c st root.encryptedReadKey

/-- `saveReadKeyFromRoot`: the first read key must hash to the root's read-key hash. -/
def saveReadKeyFromRoot (st : ACLState) (root : ACLRoot) : Except ACLError ACLState := do
  let readKey ← rootReadKey c st root
  if c.fnv64 readKey ≠ root.currentReadKeyHash then .error .incorrectRoot
  else .ok { st with
    currentReadKeyHash := root.currentReadKeyHash
    userReadKeys := st.userReadKeys.insert root.currentReadKeyHash readKey
    totalReadKeys := st.totalReadKeys + 1 }

/-- `applyRoot`: the genesis identity becomes the only Admin; the local identity stores the first
read key only when it is the genesis identity and holds its keys. -/
def applyRoot (st : ACLState) (root : ACLRoot) : Except ACLError ACLState :=
  let genesis : ACLUserState :=
    { identity := root.identity, encryptionKey := root.encryptionKey, permissions := .admin }
  let addGenesis (st : ACLState) : ACLState :=
    { st with userStates := st.userStates.insert root.identity genesis }
  if st.signingKey.isSome ∧ st.encryptionKey.isSome ∧ st.identity = root.identity then
    saveReadKeyFromRoot c st root >>= fun st => .ok (addGenesis st)
  else .ok (addGenesis st)

/-- `hasPermission`. -/
def hasPermission (st : ACLState) (identity : String) (permission : ACLUserPermissions) : Bool :=
  match st.userStates.lookup identity with
  | none => false
  | some state => state.permissions = permission

/-- `isUserJoin`: only the first content item is looked at. -/
def isUserJoin (data : ACLData) : Bool :=
  match data.aclContent with
  | .userJoin _ :: _ => true
  | _ => false

/-- `applyUserPermissionChange`. -/
def applyUserPermissionChange (st : ACLState) (ch : ACLUserPermissionChange) :
    Except ACLError ACLState :=
  match st.userStates.lookup ch.identity with
  | none => .error .noSuchUser
  | some state =>
    .ok { st with userStates := st.userStates.insert ch.identity ⟨state.identity,
      state.encryptionKey, ch.permissions⟩ }

/-- `applyUserInvite`. -/
def applyUserInvite (st : ACLState) (ch : ACLUserInvite) : Except ACLError ACLState :=
  .ok { st with userInvites := st.userInvites.insert ch.acceptPublicKey ch }

/-- The loop of `applyUserJoin` and `applyUserAdd` that opens each sealed read key and stores it
under its hash. -/
def saveReadKeys (st : ACLState) : List String → Except ACLError ACLState
  | [] => .ok st
  | msg :: rest => do
    let (key, hash) ← decryptReadKeyAndHash c st msg
    saveReadKeys { st with userReadKeys := st.userReadKeys.insert hash key } rest

/-- The read keys sealed for a joining or added user, opened when it is the local identity. -/
def saveOwnReadKeys (st : ACLState) (identity : String) (encryptedReadKeys : List String) :
    Except ACLError ACLState :=
  if st.identity = identity then saveReadKeys c st encryptedReadKeys else .ok st

/-- The signature check of `applyUserJoin`: the joiner's identity signed with the invite's accept
key. -/
def verifyAcceptSignature (invite : ACLUserInvite) (ch : ACLUserJoin) : Except ACLError Unit :=
  match c.signingPubKeyFromBytes invite.acceptPublicKey with
  | .error e => .error (.badAcceptKey e)
  | .ok verificationKey =>
    match c.verify verificationKey ch.identity ch.acceptSignature with
    | .error e => .error (.verification e)
    | .ok res => if res then .ok () else .error .invalidSignature

/-- `applyUserJoin`: the joiner takes the invite's permission. -/
def applyUserJoin (st : ACLState) (ch : ACLUserJoin) : Except ACLError ACLState :=
  match st.userInvites.lookup ch.acceptPubKey with
  | none => .error (.noInviteForKey ch.acceptPubKey)
  | some invite =>
    if ch.identity ∈ st.userStates then .error .userAlreadyExists
    else do
      verifyAcceptSignature c invite ch
      let st ← saveOwnReadKeys c st ch.identity ch.encryptedReadKeys
      let userState : ACLUserState :=
        { identity := ch.identity, encryptionKey := ch.encryptionKey,
          permissions := invite.permissions }
      pure { st with userStates := st.userStates.insert ch.identity userState }

/-- `applyUserAdd`. -/
def applyUserAdd (st : ACLState) (ch : ACLUserAdd) : Except ACLError ACLState :=
  if ch.identity ∈ st.userStates then .error .userAlreadyExists
  else
    let userState : ACLUserState :=
      { identity := ch.identity, encryptionKey := ch.encryptionKey, permissions := ch.permissions }
    saveOwnReadKeys c { st with userStates := st.userStates.insert ch.identity userState }
      ch.identity ch.encryptedReadKeys

/-- The loop of `applyUserRemove` over the replace entries: only the first entry for the local
identity is opened. -/
def saveReplacedReadKey (st : ACLState) (readKeyReplaces : List ACLReadKeyReplace) :
    Except ACLError ACLState :=
  match readKeyReplaces.find? (·.identity = st.identity) with
  | none => .ok st
  | some replace => do
    let (key, hash) ← decryptReadKeyAndHash c st replace.encryptedReadKey
    pure { st with userReadKeys := st.userReadKeys.insert hash key }

/-- `applyUserRemove`: removing the local identity is refused. -/
def applyUserRemove (st : ACLState) (ch : ACLUserRemove) : Except ACLError ACLState :=
  if ch.identity = st.identity then .error .documentForbidden
  else if ch.identity ∉ st.userStates then .error .noSuchUser
  else saveReplacedReadKey c { st with userStates := st.userStates.erase ch.identity }
    ch.readKeyReplaces

/-- `applyChangeContent`. -/
def applyChangeContent (st : ACLState) : ACLContentValue → Except ACLError ACLState
  | .userPermissionChange ch => applyUserPermissionChange st ch
  | .userAdd ch => applyUserAdd c st ch
  | .userRemove ch => applyUserRemove c st ch
  | .userInvite ch => applyUserInvite st ch
  | .userJoin ch => applyUserJoin c st ch
  | .unset => .error .unexpectedChangeType

/-- The loop of `applyChangeData` over the content items; the first error stops it. -/
def applyChangeContents (st : ACLState) : List ACLContentValue → Except ACLError ACLState
  | [] => .ok st
  | ch :: rest => do applyChangeContents (← applyChangeContent c st ch) rest

/-- The author check of `applyChangeData`: unless the record starts with a `UserJoin`, its author
must be a user with Admin permission. -/
def checkAuthor (st : ACLState) (changeData : ACLData) (identity : String) :
    Except ACLError Unit :=
  if isUserJoin changeData then .ok ()
  else if identity ∉ st.userStates then .error .noSuchUser
  else if hasPermission st identity .admin then .ok ()
  else .error (.notAdmin identity)

/-- The deferred block of `applyChangeData`, run when no item failed: a record whose hash header
differs from `currentReadKeyHash` rotates it and counts one more read key. -/
def rotateReadKey (st : ACLState) (hash : UInt64) : ACLState :=
  if hash ≠ st.currentReadKeyHash then
    { st with totalReadKeys := st.totalReadKeys + 1, currentReadKeyHash := hash }
  else st

section RotateReadKey

variable (st : ACLState) (hash : UInt64)

@[simp] theorem rotateReadKey_currentReadKeyHash : (rotateReadKey st hash).currentReadKeyHash = hash := by
  unfold rotateReadKey; split_ifs with h <;> simp_all

@[simp] theorem rotateReadKey_userStates : (rotateReadKey st hash).userStates = st.userStates := by
  unfold rotateReadKey; split_ifs <;> rfl

@[simp] theorem rotateReadKey_userReadKeys :
    (rotateReadKey st hash).userReadKeys = st.userReadKeys := by
  unfold rotateReadKey; split_ifs <;> rfl

@[simp] theorem rotateReadKey_identity : (rotateReadKey st hash).identity = st.identity := by
  unfold rotateReadKey; split_ifs <;> rfl

@[simp] theorem rotateReadKey_totalReadKeys :
    (rotateReadKey st hash).totalReadKeys =
      st.totalReadKeys + if hash = st.currentReadKeyHash then 0 else 1 := by
  unfold rotateReadKey; by_cases h : hash = st.currentReadKeyHash <;> simp [h]

end RotateReadKey

/-- `applyChangeData`. -/
def applyChangeData (st : ACLState) (changeData : ACLData) (hash : UInt64) (identity : String) :
    Except ACLError ACLState := do
  checkAuthor st changeData identity
  let st ← applyChangeContents c st changeData.aclContent
  pure (rotateReadKey st hash)

/-- The permission table `applyRecord` stores under a record's id, in map order. -/
def permissionsOf (userStates : GoMap String ACLUserState) : List UserPermissionPair :=
  userStates.entries.map fun e => { identity := e.2.identity, permission := e.2.permissions }

/-- The last step of `applyRecord`: the permission table is stored under the record's id. -/
def ACLState.snapshotPermissions (st : ACLState) (id : String) : ACLState :=
  { st with permissionsAtRecord := st.permissionsAtRecord.insert id (permissionsOf st.userStates) }

@[simp] theorem ACLState.snapshotPermissions_userStates (st : ACLState) (id : String) :
    (st.snapshotPermissions id).userStates = st.userStates := rfl

@[simp] theorem ACLState.snapshotPermissions_userReadKeys (st : ACLState) (id : String) :
    (st.snapshotPermissions id).userReadKeys = st.userReadKeys := rfl

@[simp] theorem ACLState.snapshotPermissions_currentReadKeyHash (st : ACLState) (id : String) :
    (st.snapshotPermissions id).currentReadKeyHash = st.currentReadKeyHash := rfl

@[simp] theorem ACLState.snapshotPermissions_identity (st : ACLState) (id : String) :
    (st.snapshotPermissions id).identity = st.identity := rfl

/-- The data of a non-root record: its decoded model, else its unmarshalled bytes. -/
def recordData (record : ACLRecord) : Except ACLError ACLData :=
  match record.model with
  | some (.data data) => .ok data
  | some (.root _) => .error .panic
  | none =>
    match record.data with
    | some data => .ok data
    | none => .error .unmarshal

/-- `applyRecord`. -/
def applyRecord (st : ACLState) (record : ACLRecord) : Except ACLError ACLState :=
  if record.id = st.id then
    match record.model with
    | some (.root root) =>
      let genesis : UserPermissionPair := { identity := root.identity, permission := .admin }
      applyRoot c
        { st with permissionsAtRecord := st.permissionsAtRecord.insert record.id [genesis] } root
    | _ => .error .incorrectRoot
  else do
    let aclData ← recordData record
    let st ← applyChangeData c st aclData record.currentReadKeyHash record.identity
    pure (st.snapshotPermissions record.id)

/-- Records applied one after the other; the first error stops the replay. -/
def applyRecords (st : ACLState) : List ACLRecord → Except ACLError ACLState
  | [] => .ok st
  | r :: rs => do applyRecords (← applyRecord c st r) rs

end Apply

/-- `CurrentReadKey`. -/
def currentReadKey (st : ACLState) : Except ACLError String :=
  match st.userReadKeys.lookup st.currentReadKeyHash with
  | none => .error .noReadKey
  | some key => .ok key

/-- `PermissionsAtRecord`. -/
def permissionsAtRecord (st : ACLState) (id identity : String) :
    Except ACLError UserPermissionPair :=
  match st.permissionsAtRecord.lookup id with
  | none => .error .noSuchRecord
  | some permissions =>
    match permissions.find? (·.identity = identity) with
    | some perm => .ok perm
    | none => .error .noSuchUser

/-- `Invite`: the invite and the error.  An invite whose sealed keys do not cover every read key
is returned together with `ErrOldInvite`. -/
def invite (st : ACLState) (acceptPubKey : String) : Option ACLUserInvite × Option ACLError :=
  match st.userInvites.lookup acceptPubKey with
  | none => (none, some .noSuchInvite)
  | some invite =>
    (some invite, if invite.encryptedReadKeys.length ≠ st.totalReadKeys then some .oldInvite else none)

end Acl

end AnySyncNode
