import AnySyncNode.Acl.Shared

/-!
# Replaying an ACL list

A node builds its ACL state by creating a fresh state (`newACLState`, or `newACLStateWithKeys`
with its own keys) and applying the records of the list one after the other.  `freshState` is
what either constructor returns, for any local identity and keys, and `Reachable` the states a
replay reaches when every record is accepted and satisfies a side condition `P` in the state it
is applied to (`P` is `fun _ _ => True` for an unrestricted replay).

`replicas_agree` is the replication property of the ACL: two nodes with different identities and
keys that accept the same records hold the same users, invites and permission snapshots, and the
same read-key hash once a non-root record has been applied.  The read-key counter is not shared:
the root counts its key only at the genesis identity holding its keys (`replicas_differ`).

`Crypto.sample` and the `alice`/`bob` records below are a concrete list used by the witnesses.
-/

namespace AnySyncNode

namespace Acl

/-- A state as `newACLState` or `newACLStateWithKeys` returns it, for any local identity and
keys. -/
def freshState (id identity : String) (signingKey encryptionKey : Option String) : ACLState :=
  { newACLState id with
    identity := identity, signingKey := signingKey, encryptionKey := encryptionKey }

theorem newACLState_eq_freshState (id : String) :
    newACLState id = freshState id "" none none := rfl

theorem newACLStateWithKeys_eq_freshState {c : Crypto} {id signingKey encryptionKey : String}
    {st : ACLState} (h : newACLStateWithKeys c id signingKey encryptionKey = .ok st) :
    ∃ identity, st = freshState id identity (some signingKey) (some encryptionKey) := by
  obtain ⟨identity, -, h⟩ := Except.bind_eq_ok.1 h
  exact ⟨identity, (Except.pure_eq_ok.1 h).symm⟩

/-- States reached from `st₀` by records that `applyRecord` accepts, each satisfying `P` in the
state it is applied to. -/
inductive Reachable (c : Crypto) (P : ACLState → ACLRecord → Prop) (st₀ : ACLState) :
    ACLState → Prop
  | init : Reachable c P st₀ st₀
  | step {st st' : ACLState} (r : ACLRecord) : Reachable c P st₀ st → P st r →
      applyRecord c st r = .ok st' → Reachable c P st₀ st'

/-! ### A sample list -/

/-- FNV-1 over the characters of a key: `fnv.New64` on an ASCII key. -/
def fnv1 (key : String) : UInt64 :=
  key.data.foldl (fun h ch => (h * 1099511628211) ^^^ ch.toNat.toUInt64) 14695981039346656037

/-- A crypto for concrete replays: a sealed message opens to itself under any key, every key and
signature is accepted, a key is derived as the identity it belongs to, and keys hash by FNV-1. -/
def Crypto.sample : Crypto where
  decrypt _ msg := some msg
  isSymmetricKey _ := true
  fnv64 := fnv1
  signingPubKeyFromBytes key := .ok key
  verify _ _ _ := .ok true
  readKeyDerive identity _ := .ok identity
  encryptionPublic key := .ok key
  signingPublic key := .ok key

/-- The root of the sample list `"acl"`: `alice` is the genesis identity, and the first read key
is derived from her identity. -/
def aliceRoot : ACLRecord where
  id := "acl"
  identity := "alice"
  currentReadKeyHash := fnv1 "alice"
  model := some (.root { identity := "alice", encryptionKey := "alice-enc", encryptedReadKey := "",
                         derivationScheme := "derive", currentReadKeyHash := fnv1 "alice" })
  data := none

/-- A record by `alice` with the given content and read-key hash. -/
def aliceRecord (id : String) (hash : UInt64) (content : List ACLContentValue) : ACLRecord where
  id := id
  identity := "alice"
  currentReadKeyHash := hash
  model := some (.data ⟨content⟩)
  data := none

/-- `alice` adds `bob` as a writer, sealing him the first read key. -/
def addBob : ACLRecord :=
  aliceRecord "add-bob" (fnv1 "alice")
    [.userAdd { identity := "bob", encryptionKey := "bob-enc", encryptedReadKeys := ["alice"],
                permissions := .writer }]

/-- `alice` invites a writer whose accept key is `"bob-invite"`, sealing it the first read key. -/
def inviteBob : ACLRecord :=
  aliceRecord "invite-bob" (fnv1 "alice")
    [.userInvite { acceptPublicKey := "bob-invite", encryptedReadKeys := ["alice"],
                   permissions := .writer }]

/-- `bob` joins through the invite, with the given read-key hash header. -/
def bobJoins (hash : UInt64) : ACLRecord where
  id := "bob-joins"
  identity := "bob"
  currentReadKeyHash := hash
  model := some (.data ⟨[.userJoin ⟨"bob", "bob-enc", "bob-signed", "bob-invite", ["alice"]⟩]⟩)
  data := none

/-- `alice` makes herself a writer. -/
def aliceDemotes : ACLRecord :=
  aliceRecord "alice-demotes" (fnv1 "alice")
    [.userPermissionChange { identity := "alice", permissions := .writer }]

/-- `alice` invites a reader under a read-key hash header whose key she sealed to no one. -/
def aliceRotates : ACLRecord :=
  aliceRecord "alice-rotates" (fnv1 "bob")
    [.userInvite { acceptPublicKey := "carol-invite", encryptedReadKeys := [], permissions := .reader }]

section Replicas

variable {c : Crypto} {st st' : ACLState}

theorem applyRecord_currentReadKeyHash {r : ACLRecord} (hid : r.id ≠ st.id)
    (h : applyRecord c st r = .ok st') : st'.currentReadKeyHash = r.currentReadKeyHash := by
  obtain ⟨d, st₁, -, -, -, rfl⟩ := applyRecord_spec hid h
  simp

theorem applyRecord_id {r : ACLRecord} (h : applyRecord c st r = .ok st') : st'.id = st.id :=
  (congrArg SharedState.id (applyRecord_shared h)).trans (SharedState.applyRecord_id _ _)

theorem applyRecords_append {xs ys : List ACLRecord} :
    applyRecords c st (xs ++ ys) = applyRecords c st xs >>= fun st => applyRecords c st ys := by
  induction xs generalizing st with
  | nil => rfl
  | cons r xs ih =>
    simp only [List.cons_append, applyRecords]
    cases applyRecord c st r with
    | error e => rfl
    | ok st₁ => exact ih

theorem applyRecords_id {rs : List ACLRecord} (h : applyRecords c st rs = .ok st') :
    st'.id = st.id := by
  induction rs generalizing st with
  | nil => cases h; rfl
  | cons r rs ih =>
    obtain ⟨st₁, h₁, h⟩ := Except.bind_eq_ok.1 h
    exact (ih h).trans (applyRecord_id h₁)

theorem applyRecords_currentReadKeyHash {rs : List ACLRecord} {r : ACLRecord}
    (hr : r ∈ rs.getLast?) (hid : r.id ≠ st.id) (h : applyRecords c st rs = .ok st') :
    st'.currentReadKeyHash = r.currentReadKeyHash := by
  rw [← List.dropLast_append_getLast? r hr, applyRecords_append] at h
  obtain ⟨st₁, h₁, h⟩ := Except.bind_eq_ok.1 h
  obtain ⟨st₂, h₂, h⟩ := Except.bind_eq_ok.1 h
  cases h
  exact applyRecord_currentReadKeyHash (by rwa [applyRecords_id h₁]) h₂

/-- **Replicas agree**: fresh states with one ACL id that accept the same records hold the same
users, invites and snapshots, and the same read-key hash after a non-root record. -/
theorem replicas_agree (c : Crypto) (id identityA identityB : String)
    (signingKeyA encryptionKeyA signingKeyB encryptionKeyB : Option String)
    (rs : List ACLRecord) (a b : ACLState)
    (ha : applyRecords c (freshState id identityA signingKeyA encryptionKeyA) rs = .ok a)
    (hb : applyRecords c (freshState id identityB signingKeyB encryptionKeyB) rs = .ok b) :
    a.userStates = b.userStates ∧ a.userInvites = b.userInvites ∧
      a.permissionsAtRecord = b.permissionsAtRecord ∧
      ∀ r ∈ rs.getLast?, r.id ≠ id → a.currentReadKeyHash = b.currentReadKeyHash := by
  have hab : a.shared = b.shared := (applyRecords_shared ha).trans (applyRecords_shared hb).symm
  simp only [ACLState.shared, SharedState.mk.injEq] at hab
  exact ⟨hab.2.1, hab.2.2.1, hab.2.2.2, fun r hr hid =>
    (applyRecords_currentReadKeyHash hr hid ha).trans
      (applyRecords_currentReadKeyHash hr hid hb).symm⟩

theorem replicas_agree_on_sample : ∃ a b,
    applyRecords Crypto.sample (freshState "acl" "alice" (some "alice-sign") (some "alice-enc"))
      [aliceRoot, addBob] = .ok a ∧
    applyRecords Crypto.sample (freshState "acl" "" none none) [aliceRoot, addBob] = .ok b ∧
    (a.userStates = b.userStates ∧ a.userInvites = b.userInvites ∧
      a.permissionsAtRecord = b.permissionsAtRecord ∧
      ∀ r ∈ [aliceRoot, addBob].getLast?, r.id ≠ "acl" →
        a.currentReadKeyHash = b.currentReadKeyHash) :=
  ⟨_, _, rfl, rfl, replicas_agree Crypto.sample "acl" "alice" "" (some "alice-sign")
    (some "alice-enc") none none _ _ _ rfl rfl⟩

/-- The read-key hash and counter are not shared: after the root alone, the genesis identity
holding its keys has stored the first key, and a sync node has not. -/
theorem replicas_differ : ¬ ∀ (c : Crypto) (id identityA identityB : String)
    (signingKeyA encryptionKeyA signingKeyB encryptionKeyB : Option String)
    (rs : List ACLRecord) (a b : ACLState),
    applyRecords c (freshState id identityA signingKeyA encryptionKeyA) rs = .ok a →
    applyRecords c (freshState id identityB signingKeyB encryptionKeyB) rs = .ok b →
    a.currentReadKeyHash = b.currentReadKeyHash ∧ a.totalReadKeys = b.totalReadKeys ∧
      a.userStates = b.userStates ∧ a.userInvites = b.userInvites ∧
      a.permissionsAtRecord = b.permissionsAtRecord := fun h =>
  absurd (h Crypto.sample "acl" "alice" "" (some "alice-sign") (some "alice-enc") none none
    [aliceRoot] _ _ rfl rfl).1 (by decide)

end Replicas

end Acl

end AnySyncNode
