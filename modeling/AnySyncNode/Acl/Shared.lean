import AnySyncNode.Acl.State

/-!
# What every replica of an ACL agrees on

Every node replays the same ACL records, but each with its own identity and keys: a client that
is a member opens the sealed read keys addressed to it, a sync node holds no keys at all.  The
users, the invites and the permission snapshots should not depend on that.  `SharedState` is that
part of `ACLState`, and `SharedState.applyRecord` the step every replica takes on it; it reads no
key and no local identity.

`applyRecord_shared` proves that the Go step refines it: whenever `applyRecord` accepts a record,
the shared part of the new state is `SharedState.applyRecord` of the old one.  Beside it,
`applyChangeContent_ok` says what a content item does to the local part: the read-key hash and
counter stay, and read keys are only ever added.
-/

namespace AnySyncNode

namespace Acl

/-- The fields of an ACL state that do not depend on the local identity. -/
structure SharedState where
  id : String
  userStates : GoMap String ACLUserState
  userInvites : GoMap String ACLUserInvite
  permissionsAtRecord : GoMap String (List UserPermissionPair)

/-- The shared part of a state. -/
def ACLState.shared (st : ACLState) : SharedState :=
  ⟨st.id, st.userStates, st.userInvites, st.permissionsAtRecord⟩

@[simp] theorem ACLState.shared_userStates (st : ACLState) : st.shared.userStates = st.userStates :=
  rfl

namespace SharedState

/-- A content item on the shared part, as `applyChangeContent` performs it when it succeeds. -/
def applyContent (s : SharedState) : ACLContentValue → SharedState
  | .userPermissionChange ch =>
    match s.userStates.lookup ch.identity with
    | none => s
    | some state =>
      { s with userStates := s.userStates.insert ch.identity ⟨state.identity, state.encryptionKey,
                                                                ch.permissions⟩ }
  | .userAdd ch =>
    { s with userStates := s.userStates.insert ch.identity ⟨ch.identity, ch.encryptionKey,
                                                              ch.permissions⟩ }
  | .userRemove ch => { s with userStates := s.userStates.erase ch.identity }
  | .userInvite ch => { s with userInvites := s.userInvites.insert ch.acceptPublicKey ch }
  | .userJoin ch =>
    match s.userInvites.lookup ch.acceptPubKey with
    | none => s
    | some invite =>
      { s with userStates := s.userStates.insert ch.identity ⟨ch.identity, ch.encryptionKey,
                                                                invite.permissions⟩ }
  | .unset => s

/-- A record on the shared part, as `applyRecord` performs it when it succeeds. -/
def applyRecord (s : SharedState) (record : ACLRecord) : SharedState :=
  if record.id = s.id then
    match record.model with
    | some (.root root) =>
      { s with
        permissionsAtRecord := s.permissionsAtRecord.insert record.id [⟨root.identity, .admin⟩]
        userStates := s.userStates.insert root.identity ⟨root.identity, root.encryptionKey, .admin⟩ }
    | _ => s
  else
    match recordData record with
    | .ok data =>
      let s := data.aclContent.foldl applyContent s
      { s with permissionsAtRecord := s.permissionsAtRecord.insert record.id
                                        (permissionsOf s.userStates) }
    | .error _ => s

@[simp] theorem applyContent_id (s : SharedState) (ch : ACLContentValue) :
    (s.applyContent ch).id = s.id := by
  cases ch <;> simp only [applyContent] <;> split <;> rfl

@[simp] theorem foldl_applyContent_id (s : SharedState) (chs : List ACLContentValue) :
    (chs.foldl applyContent s).id = s.id := by
  induction chs generalizing s with
  | nil => rfl
  | cons ch chs ih => rw [List.foldl_cons, ih, applyContent_id]

@[simp] theorem applyRecord_id (s : SharedState) (r : ACLRecord) : (s.applyRecord r).id = s.id := by
  unfold applyRecord
  split
  · split <;> rfl
  · split <;> simp

end SharedState

section Refinement

variable {c : Crypto} {st st' : ACLState}

open SharedState

/-- What a content item leaves of the local part: the identity, the keys, the read-key hash and
counter are kept, and every read key stays stored. -/
structure ContentFrame (st st' : ACLState) : Prop where
  identity : st'.identity = st.identity
  encryptionKey : st'.encryptionKey = st.encryptionKey
  signingKey : st'.signingKey = st.signingKey
  currentReadKeyHash : st'.currentReadKeyHash = st.currentReadKeyHash
  totalReadKeys : st'.totalReadKeys = st.totalReadKeys
  readKeys : ∀ h ∈ st.userReadKeys, h ∈ st'.userReadKeys

theorem ContentFrame.refl (st : ACLState) : ContentFrame st st :=
  ⟨rfl, rfl, rfl, rfl, rfl, fun _ h => h⟩

theorem ContentFrame.trans {st'' : ACLState} (h : ContentFrame st st')
    (h' : ContentFrame st' st'') : ContentFrame st st'' :=
  ⟨h'.1.trans h.1, h'.2.trans h.2, h'.3.trans h.3, h'.4.trans h.4, h'.5.trans h.5,
    fun k hk => h'.6 k (h.6 k hk)⟩

theorem ContentFrame.insertKey (st : ACLState) (hash : UInt64) (key : String) :
    ContentFrame st { st with userReadKeys := st.userReadKeys.insert hash key } :=
  ⟨rfl, rfl, rfl, rfl, rfl, fun _ h => AList.mem_insert _ |>.2 (.inr h)⟩

theorem decryptReadKeyAndHash_congr {st₁ st₂ : ACLState}
    (h : st₁.encryptionKey = st₂.encryptionKey) (msg : String) :
    decryptReadKeyAndHash c st₁ msg = decryptReadKeyAndHash c st₂ msg := by
  simp only [decryptReadKeyAndHash, h]

@[simp] theorem decryptReadKeyAndHash_setUserStates (m : GoMap String ACLUserState) (msg : String) :
    decryptReadKeyAndHash c { st with userStates := m } msg = decryptReadKeyAndHash c st msg := rfl

theorem saveReadKeys_ok {msgs : List String} (h : saveReadKeys c st msgs = .ok st') :
    ContentFrame st st' ∧ st'.shared = st.shared := by
  induction msgs generalizing st with
  | nil => cases h; exact ⟨.refl _, rfl⟩
  | cons msg rest ih =>
    obtain ⟨⟨key, hash⟩, -, hrest⟩ := Except.bind_eq_ok.1 h
    obtain ⟨hf, hs⟩ := ih hrest
    exact ⟨(ContentFrame.insertKey st hash key).trans hf, hs⟩

theorem ContentFrame.setUserStates {m : GoMap String ACLUserState} (h : ContentFrame st st') :
    ContentFrame st { st' with userStates := m } := ⟨h.1, h.2, h.3, h.4, h.5, h.6⟩

theorem ContentFrame.of_setUserStates {m : GoMap String ACLUserState}
    (h : ContentFrame { st with userStates := m } st') : ContentFrame st st' :=
  ⟨h.1, h.2, h.3, h.4, h.5, h.6⟩

theorem saveOwnReadKeys_ok {identity : String} {msgs : List String}
    (h : saveOwnReadKeys c st identity msgs = .ok st') :
    ContentFrame st st' ∧ st'.shared = st.shared := by
  unfold saveOwnReadKeys at h
  split at h
  · exact saveReadKeys_ok h
  · cases h; exact ⟨.refl _, rfl⟩

theorem saveReplacedReadKey_ok {rs : List ACLReadKeyReplace}
    (h : saveReplacedReadKey c st rs = .ok st') :
    ContentFrame st st' ∧ st'.shared = st.shared := by
  unfold saveReplacedReadKey at h
  split at h
  · cases h; exact ⟨.refl _, rfl⟩
  · obtain ⟨⟨key, hash⟩, -, h⟩ := Except.bind_eq_ok.1 h
    cases h; exact ⟨.insertKey st hash key, rfl⟩

/-- What an accepted join did: the invite exists, the joiner was not a user, and it was added
with the invite's permission after its sealed keys were opened when it is the local identity. -/
theorem applyUserJoin_spec {ch : ACLUserJoin} (h : applyUserJoin c st ch = .ok st') :
    ∃ invite st₁, st.userInvites.lookup ch.acceptPubKey = some invite ∧
      ch.identity ∉ st.userStates ∧
      saveOwnReadKeys c st ch.identity ch.encryptedReadKeys = .ok st₁ ∧
      st' = { st₁ with userStates := st₁.userStates.insert ch.identity
                                       ⟨ch.identity, ch.encryptionKey, invite.permissions⟩ } := by
  unfold applyUserJoin at h
  split at h
  · cases h
  · rename_i invite hinv
    split at h
    · cases h
    · obtain ⟨-, -, h⟩ := Except.bind_eq_ok.1 h
      obtain ⟨st₁, h₁, h⟩ := Except.bind_eq_ok.1 h
      exact ⟨invite, st₁, hinv, ‹_›, h₁, (Except.pure_eq_ok.1 h).symm⟩

theorem applyUserJoin_ok {ch : ACLUserJoin} (h : applyUserJoin c st ch = .ok st') :
    ContentFrame st st' ∧ st'.shared = st.shared.applyContent (.userJoin ch) ∧
      ch.identity ∉ st.userStates := by
  obtain ⟨invite, st₁, hinv, hmem, h₁, rfl⟩ := applyUserJoin_spec h
  obtain ⟨hf, hs⟩ := saveOwnReadKeys_ok h₁
  refine ⟨hf.setUserStates, ?_, hmem⟩
  simp only [ACLState.shared, SharedState.mk.injEq] at hs
  simp [ACLState.shared, applyContent, hinv, hs]

theorem applyUserAdd_ok {ch : ACLUserAdd} (h : applyUserAdd c st ch = .ok st') :
    ContentFrame st st' ∧ st'.shared = st.shared.applyContent (.userAdd ch) ∧
      ch.identity ∉ st.userStates := by
  unfold applyUserAdd at h
  split at h
  · cases h
  · rename_i hmem
    obtain ⟨hf, hs⟩ := saveOwnReadKeys_ok h
    exact ⟨hf.of_setUserStates, hs, hmem⟩

theorem applyUserRemove_ok {ch : ACLUserRemove} (h : applyUserRemove c st ch = .ok st') :
    ContentFrame st st' ∧ st'.shared = st.shared.applyContent (.userRemove ch) ∧
      ch.identity ≠ st.identity := by
  unfold applyUserRemove at h
  split at h
  · cases h
  · rename_i hne
    split at h
    · cases h
    · obtain ⟨hf, hs⟩ := saveReplacedReadKey_ok h
      exact ⟨hf.of_setUserStates, hs, hne⟩

theorem applyUserPermissionChange_ok {ch : ACLUserPermissionChange}
    (h : applyUserPermissionChange st ch = .ok st') :
    ContentFrame st st' ∧ st'.shared = st.shared.applyContent (.userPermissionChange ch) ∧
      ch.identity ∈ st.userStates := by
  unfold applyUserPermissionChange at h
  split at h
  · cases h
  · rename_i state hs
    cases h
    exact ⟨⟨rfl, rfl, rfl, rfl, rfl, fun _ h => h⟩, by simp [ACLState.shared, applyContent, hs],
      AList.lookup_isSome.1 (by simp [hs])⟩

theorem applyChangeContent_ok {ch : ACLContentValue} (h : applyChangeContent c st ch = .ok st') :
    ContentFrame st st' ∧ st'.shared = st.shared.applyContent ch := by
  cases ch with
  | userAdd ch => exact (applyUserAdd_ok h).imp_right And.left
  | userRemove ch => exact (applyUserRemove_ok h).imp_right And.left
  | userPermissionChange ch => exact (applyUserPermissionChange_ok h).imp_right And.left
  | userInvite ch => cases h; exact ⟨⟨rfl, rfl, rfl, rfl, rfl, fun _ h => h⟩, rfl⟩
  | userJoin ch => exact (applyUserJoin_ok h).imp_right And.left
  | unset => cases h

theorem applyChangeContents_ok {chs : List ACLContentValue}
    (h : applyChangeContents c st chs = .ok st') :
    ContentFrame st st' ∧ st'.shared = chs.foldl applyContent st.shared := by
  induction chs generalizing st with
  | nil => cases h; exact ⟨.refl _, rfl⟩
  | cons ch rest ih =>
    obtain ⟨st₁, h₁, h⟩ := Except.bind_eq_ok.1 h
    obtain ⟨hf₁, hs₁⟩ := applyChangeContent_ok h₁
    obtain ⟨hf, hs⟩ := ih h
    exact ⟨hf₁.trans hf, by rw [hs, hs₁]; rfl⟩

theorem checkAuthor_ok {d : ACLData} {identity : String} {u : Unit}
    (h : checkAuthor st d identity = .ok u) :
    isUserJoin d = true ∨ hasPermission st identity .admin = true := by
  unfold checkAuthor at h
  split_ifs at h with h₁ h₂ h₃ <;> simp_all

@[simp] theorem rotateReadKey_shared (hash : UInt64) :
    (rotateReadKey st hash).shared = st.shared := by
  unfold rotateReadKey; split_ifs <;> rfl

theorem applyChangeData_spec {d : ACLData} {hash : UInt64} {identity : String}
    (h : applyChangeData c st d hash identity = .ok st') :
    (isUserJoin d = true ∨ hasPermission st identity .admin = true) ∧
      ∃ st₁, applyChangeContents c st d.aclContent = .ok st₁ ∧ st' = rotateReadKey st₁ hash := by
  obtain ⟨u, hu, h⟩ := Except.bind_eq_ok.1 h
  obtain ⟨st₁, h₁, h⟩ := Except.bind_eq_ok.1 h
  exact ⟨checkAuthor_ok hu, st₁, h₁, (Except.pure_eq_ok.1 h).symm⟩

/-- What `applyRecord` does with a non-root record it accepts. -/
theorem applyRecord_spec {r : ACLRecord} (hid : r.id ≠ st.id) (h : applyRecord c st r = .ok st') :
    ∃ d st₁, recordData r = .ok d ∧
      (isUserJoin d = true ∨ hasPermission st r.identity .admin = true) ∧
      applyChangeContents c st d.aclContent = .ok st₁ ∧
      st' = (rotateReadKey st₁ r.currentReadKeyHash).snapshotPermissions r.id := by
  simp only [applyRecord, hid, if_false] at h
  obtain ⟨d, hd, h⟩ := Except.bind_eq_ok.1 h
  obtain ⟨st₂, h₂, h⟩ := Except.bind_eq_ok.1 h
  obtain ⟨hauth, st₁, h₁, rfl⟩ := applyChangeData_spec h₂
  exact ⟨d, st₁, hd, hauth, h₁, (Except.pure_eq_ok.1 h).symm⟩

theorem saveReadKeyFromRoot_ok {root : ACLRoot} (h : saveReadKeyFromRoot c st root = .ok st') :
    ∃ key, rootReadKey c st root = .ok key ∧ c.fnv64 key = root.currentReadKeyHash ∧
      st' = { st with
        currentReadKeyHash := root.currentReadKeyHash
        userReadKeys := st.userReadKeys.insert root.currentReadKeyHash key
        totalReadKeys := st.totalReadKeys + 1 } := by
  obtain ⟨key, hk, h⟩ := Except.bind_eq_ok.1 h
  by_cases hhash : c.fnv64 key = root.currentReadKeyHash
  · simp only [hhash, ne_eq, not_true_eq_false, if_false, Except.ok.injEq] at h
    exact ⟨key, hk, hhash, h.symm⟩
  · simp [hhash] at h

theorem applyRoot_shared {root : ACLRoot} (h : applyRoot c st root = .ok st') :
    st'.shared = { st.shared with userStates := st.userStates.insert root.identity
                                    ⟨root.identity, root.encryptionKey, .admin⟩ } := by
  unfold applyRoot at h
  split at h
  · obtain ⟨st₁, h₁, h⟩ := Except.bind_eq_ok.1 h
    obtain ⟨key, -, -, rfl⟩ := saveReadKeyFromRoot_ok h₁
    cases h; rfl
  · cases h; rfl

/-- **The Go step refines the shared step.** -/
theorem applyRecord_shared {r : ACLRecord} (h : applyRecord c st r = .ok st') :
    st'.shared = st.shared.applyRecord r := by
  by_cases hid : r.id = st.id
  · simp only [applyRecord, hid, if_true] at h
    split at h
    · rename_i root hroot
      rw [applyRoot_shared h]
      simp [SharedState.applyRecord, ACLState.shared, hid, hroot]
    · cases h
  · obtain ⟨d, st₁, hd, -, h₁, rfl⟩ := applyRecord_spec hid h
    have hid' : ¬ r.id = st.shared.id := hid
    simp only [SharedState.applyRecord, hid', if_false, hd, ← (applyChangeContents_ok h₁).2]
    unfold rotateReadKey ACLState.snapshotPermissions
    split_ifs <;> rfl

/-- Replaying records refines folding the shared step. -/
theorem applyRecords_shared {rs : List ACLRecord} (h : applyRecords c st rs = .ok st') :
    st'.shared = rs.foldl SharedState.applyRecord st.shared := by
  induction rs generalizing st with
  | nil => cases h; rfl
  | cons r rs ih =>
    obtain ⟨st₁, h₁, h⟩ := Except.bind_eq_ok.1 h
    rw [ih h, applyRecord_shared h₁]
    rfl

end Refinement

end Acl

end AnySyncNode
