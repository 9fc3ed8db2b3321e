import AnySyncNode.Acl.Replay

/-!
# The current read key of a member

`AddContent` encrypts a new change under `CurrentReadKey()`, which fails with `ErrNoReadKey` when
`userReadKeys` has no key under `currentReadKeyHash`.  Every accepted record sets the hash to its
header (`applyRecord_currentReadKeyHash`), and nothing checks that the local identity received
the key of that hash: an Admin's record whose header names a key sealed to no one leaves every
member without the current key (`member_without_readKey`).

What holds (`currentReadKey_ok_of_keyDelivered`): a member holds the current key as long as each
record that rotates the hash for it, or admits it, hands it that key in an item the Go code opens
for it (`ACLContentValue.sealedFor`: the keys of its own `UserJoin` or `UserAdd`, the first
replace entry of a `UserRemove`).  The invariant is `KeyInvariant`; the root needs the state to
hold the local keys, so that the genesis identity stores the first key.

Every step stores a key it opens under that key's own hash (`StoresHashed`), so along a replay
the current key hashes to the current hash (`currentReadKey_hash`).  A record removing a user
adopts its hash header unchecked (`remove_keeps_readKeyHash`); what it does guarantee is
`applyRecord_userRemove`.
-/

namespace AnySyncNode

namespace Acl

variable {c : Crypto} {st st' : ACLState}

/-- The sealed read keys an item addresses to `identity` and that the Go code opens when
`identity` is the local one. -/
def ACLContentValue.sealedFor (identity : String) : ACLContentValue → List String
  | .userJoin ch => if ch.identity = identity then ch.encryptedReadKeys else []
  | .userAdd ch => if ch.identity = identity then ch.encryptedReadKeys else []
  | .userRemove ch => ((ch.readKeyReplaces.find? (·.identity = identity)).map
      (·.encryptedReadKey)).toList
  | _ => []

/-- The record hands the local identity a sealed key that opens to a key of the record's hash. -/
def deliversKey (c : Crypto) (st : ACLState) (r : ACLRecord) : Bool :=
  match recordData r with
  | .ok d => d.aclContent.any fun ch => (ch.sealedFor st.identity).any fun msg =>
      match decryptReadKeyAndHash c st msg with
      | .ok (_, hash) => hash == r.currentReadKeyHash
      | .error _ => false
  | .error _ => false

/-- The side condition on a record `r` applied to `st`: when the local identity is a member
after it, and `r` rotates the read-key hash or admits the local identity, `r` delivers the key. -/
def KeyDelivered (c : Crypto) (st : ACLState) (r : ACLRecord) : Prop :=
  r.id ≠ st.id → st.identity ∈ (st.shared.applyRecord r).userStates →
    (r.currentReadKeyHash ≠ st.currentReadKeyHash ∨ st.identity ∉ st.userStates) →
    deliversKey c st r = true

instance : Decidable (KeyDelivered c st r) := by unfold KeyDelivered; infer_instance

/-- The local identity, when a member, holds the current read key. -/
def KeyInvariant (st : ACLState) : Prop :=
  st.identity ∈ st.userStates → st.currentReadKeyHash ∈ st.userReadKeys

/-! ### Opened keys are stored -/

theorem saveReadKeys_mem {msgs : List String} {msg key : String} {hash : UInt64}
    (hm : msg ∈ msgs) (hd : decryptReadKeyAndHash c st msg = .ok (key, hash))
    (h : saveReadKeys c st msgs = .ok st') : hash ∈ st'.userReadKeys := by
  induction msgs generalizing st with
  | nil => cases hm
  | cons m rest ih =>
    obtain ⟨⟨key', hash'⟩, hd', h⟩ := Except.bind_eq_ok.1 h
    rcases List.mem_cons.1 hm with rfl | hm
    · cases hd.symm.trans hd'
      exact (saveReadKeys_ok h).1.readKeys _ (AList.mem_insert _ |>.2 (.inl rfl))
    · exact ih hm (by rwa [decryptReadKeyAndHash_congr rfl]) h

theorem saveOwnReadKeys_stores {identity : String} {msgs : List String} {msg key : String}
    {hash : UInt64} (h : saveOwnReadKeys c st identity msgs = .ok st')
    (hid : identity = st.identity) (hm : msg ∈ msgs)
    (hd : decryptReadKeyAndHash c st msg = .ok (key, hash)) : hash ∈ st'.userReadKeys := by
  rw [saveOwnReadKeys, if_pos hid.symm] at h
  exact saveReadKeys_mem hm hd h

theorem saveReplacedReadKey_stores {rs : List ACLReadKeyReplace} {msg key : String}
    {hash : UInt64} (h : saveReplacedReadKey c st rs = .ok st')
    (hm : msg ∈ ((rs.find? (·.identity = st.identity)).map (·.encryptedReadKey)).toList)
    (hd : decryptReadKeyAndHash c st msg = .ok (key, hash)) : hash ∈ st'.userReadKeys := by
  unfold saveReplacedReadKey at h
  split at h
  · simp_all
  · rename_i replace hfind
    obtain ⟨⟨key', hash'⟩, hd', h⟩ := Except.bind_eq_ok.1 h
    simp only [hfind, Option.map_some', Option.toList_some, List.mem_singleton] at hm
    subst hm
    cases hd.symm.trans hd'
    cases h
    exact AList.mem_insert _ |>.2 (.inl rfl)

theorem applyChangeContent_stores {ch : ACLContentValue} {msg key : String} {hash : UInt64}
    (hm : msg ∈ ch.sealedFor st.identity) (hd : decryptReadKeyAndHash c st msg = .ok (key, hash))
    (h : applyChangeContent c st ch = .ok st') : hash ∈ st'.userReadKeys := by
  cases ch with
  | userJoin ch =>
    obtain ⟨-, st₁, -, -, h₁, rfl⟩ := applyUserJoin_spec h
    simp only [ACLContentValue.sealedFor] at hm
    split_ifs at hm with hid
    · exact (saveOwnReadKeys_stores h₁ hid hm hd :)
    · cases hm
  | userAdd ch =>
    replace h : applyUserAdd c st ch = .ok st' := h
    unfold applyUserAdd at h
    split at h
    · cases h
    · simp only [ACLContentValue.sealedFor] at hm
      split_ifs at hm with hid
      · exact saveOwnReadKeys_stores h hid hm hd
      · cases hm
  | userRemove ch =>
    replace h : applyUserRemove c st ch = .ok st' := h
    unfold applyUserRemove at h
    split_ifs at h
    exact saveReplacedReadKey_stores h hm hd
  | userPermissionChange ch | userInvite ch | unset => cases hm

theorem applyChangeContents_stores {chs : List ACLContentValue} {ch : ACLContentValue}
    {msg key : String} {hash : UInt64} (hch : ch ∈ chs) (hm : msg ∈ ch.sealedFor st.identity)
    (hd : decryptReadKeyAndHash c st msg = .ok (key, hash))
    (h : applyChangeContents c st chs = .ok st') : hash ∈ st'.userReadKeys := by
  induction chs generalizing st with
  | nil => cases hch
  | cons ch' rest ih =>
    obtain ⟨st₁, h₁, hrest⟩ := Except.bind_eq_ok.1 h
    have hf₁ := (applyChangeContent_ok h₁).1
    rcases List.mem_cons.1 hch with rfl | hch
    · exact (applyChangeContents_ok hrest).1.readKeys _ (applyChangeContent_stores hm hd h₁)
    · exact ih hch (hf₁.identity ▸ hm) (by rwa [decryptReadKeyAndHash_congr hf₁.encryptionKey])
        hrest

/-! ### One record -/

theorem applyRoot_readKey {root : ACLRoot} (h : applyRoot c st root = .ok st') :
    st'.identity = st.identity ∧ st'.encryptionKey = st.encryptionKey ∧
      st'.signingKey = st.signingKey ∧
      if st.signingKey.isSome ∧ st.encryptionKey.isSome ∧ st.identity = root.identity then
        st'.currentReadKeyHash ∈ st'.userReadKeys
      else st'.currentReadKeyHash = st.currentReadKeyHash ∧ st'.userReadKeys = st.userReadKeys := by
  unfold applyRoot at h
  split at h
  · rename_i hkeys
    obtain ⟨st₁, h₁, h⟩ := Except.bind_eq_ok.1 h
    obtain ⟨key, -, -, rfl⟩ := saveReadKeyFromRoot_ok h₁
    cases h
    exact ⟨rfl, rfl, rfl, by simp [hkeys]⟩
  · rename_i hkeys
    cases h
    exact ⟨rfl, rfl, rfl, by simp [hkeys]⟩

theorem applyRecord_keys {r : ACLRecord} (h : applyRecord c st r = .ok st') :
    st'.identity = st.identity ∧ st'.encryptionKey = st.encryptionKey ∧
      st'.signingKey = st.signingKey := by
  by_cases hid : r.id = st.id
  · simp only [applyRecord, hid, if_true] at h
    split at h
    · exact (applyRoot_readKey h).imp id (.imp id And.left)
    · cases h
  · obtain ⟨d, st₁, -, -, h₁, rfl⟩ := applyRecord_spec hid h
    obtain ⟨hi, he, hs, -⟩ := (applyChangeContents_ok h₁).1
    unfold rotateReadKey ACLState.snapshotPermissions
    split_ifs <;> exact ⟨hi, he, hs⟩

theorem applyRecord_root_keyInvariant {r : ACLRecord} (hid : r.id = st.id)
    (hkeys : st.signingKey.isSome ∧ st.encryptionKey.isSome) (h : applyRecord c st r = .ok st')
    (hinv : KeyInvariant st) : KeyInvariant st' := by
  intro hmem
  have hus := congrArg SharedState.userStates (applyRecord_shared h)
  simp only [applyRecord, hid, if_true] at h
  split at h
  · rename_i root hroot
    obtain ⟨hi, -, -, hk⟩ := applyRoot_readKey h
    simp only [SharedState.applyRecord, ACLState.shared, hid, if_true, hroot] at hus
    split_ifs at hk with hgen
    · exact hk
    · rw [hk.1, hk.2]
      rw [hus, hi] at hmem
      rcases (AList.mem_insert _).1 hmem with heq | hmem
      · exact absurd ⟨hkeys.1, hkeys.2, heq⟩ hgen
      · exact hinv hmem
  · cases h

theorem applyRecord_keyInvariant {r : ACLRecord} (hkeys : st.signingKey.isSome ∧
    st.encryptionKey.isSome) (hr : KeyDelivered c st r) (h : applyRecord c st r = .ok st')
    (hinv : KeyInvariant st) : KeyInvariant st' := by
  by_cases hid : r.id = st.id
  · exact applyRecord_root_keyInvariant hid hkeys h hinv
  intro hmem
  have hus := congrArg SharedState.userStates (applyRecord_shared h)
  obtain ⟨d, st₁, hd, -, h₁, rfl⟩ := applyRecord_spec hid h
  have hf := (applyChangeContents_ok h₁).1
  simp only [ACLState.snapshotPermissions_identity, ACLState.snapshotPermissions_userStates,
    ACLState.snapshotPermissions_userReadKeys, ACLState.snapshotPermissions_currentReadKeyHash,
    rotateReadKey_identity, rotateReadKey_userStates, rotateReadKey_userReadKeys,
    rotateReadKey_currentReadKeyHash, ACLState.shared_userStates, hf.identity] at hus hmem ⊢
  by_cases hold : r.currentReadKeyHash = st.currentReadKeyHash ∧ st.identity ∈ st.userStates
  · exact hold.1 ▸ hf.readKeys _ (hinv hold.2)
  · have hdel := hr hid (hus ▸ hmem) (by tauto)
    simp only [deliversKey, hd, List.any_eq_true] at hdel
    obtain ⟨ch, hch, msg, hm, hmsg⟩ := hdel
    split at hmsg
    · rename_i key hash hdec
      exact (beq_iff_eq.1 hmsg) ▸ applyChangeContents_stores hch hm hdec h₁
    · cases hmsg

/-- Along a replay with the side condition, the local keys stay and the invariant holds. -/
theorem reachable_keyInvariant {id identity signingKey encryptionKey : String}
    (h : Reachable c (KeyDelivered c)
      (freshState id identity (some signingKey) (some encryptionKey)) st) :
    (st.signingKey.isSome ∧ st.encryptionKey.isSome) ∧ KeyInvariant st := by
  induction h with
  | init => exact ⟨⟨rfl, rfl⟩, fun h => by simp [freshState, newACLState] at h⟩
  | step r _ hr hst ih =>
    obtain ⟨-, he, hs⟩ := applyRecord_keys hst
    exact ⟨⟨hs ▸ ih.1.1, he ▸ ih.1.2⟩, applyRecord_keyInvariant ih.1 hr hst ih.2⟩

/-- **A member holds the current read key** when every record that rotates the hash for it, or
admits it, delivers it that key. -/
theorem currentReadKey_ok_of_keyDelivered (c : Crypto)
    (id identity signingKey encryptionKey : String) (st : ACLState)
    (h : Reachable c (KeyDelivered c)
      (freshState id identity (some signingKey) (some encryptionKey)) st)
    (hmem : st.identity ∈ st.userStates) : ∃ key, currentReadKey st = .ok key := by
  obtain ⟨key, hkey⟩ := Option.isSome_iff_exists.1
    (AList.lookup_isSome.2 ((reachable_keyInvariant h).2 hmem))
  exact ⟨key, by simp [currentReadKey, hkey]⟩

theorem currentReadKey_ok_sample : ∃ st,
    Reachable Crypto.sample (KeyDelivered Crypto.sample)
      (freshState "acl" "bob" (some "bob-sign") (some "bob-enc")) st ∧
    st.identity ∈ st.userStates ∧ ∃ key, currentReadKey st = .ok key :=
  ⟨_, .step addBob (.step aliceRoot .init (by decide) rfl) (by decide) rfl, by decide,
    currentReadKey_ok_of_keyDelivered Crypto.sample "acl" "bob" "bob-sign" "bob-enc" _
      (.step addBob (.step aliceRoot .init (by decide) rfl) (by decide) rfl) (by decide)⟩

/-- An Admin's record whose header names a key sealed to no one leaves the genesis member, who
holds her keys, without the current read key. -/
theorem member_without_readKey : ¬ ∀ (c : Crypto) (id identity signingKey encryptionKey : String)
    (st : ACLState),
    Reachable c (fun _ _ => True) (freshState id identity (some signingKey) (some encryptionKey)) st →
    st.identity ∈ st.userStates → ∃ key, currentReadKey st = .ok key := fun h => by
  obtain ⟨key, hkey⟩ := h Crypto.sample "acl" "alice" "alice-sign" "alice-enc" _
    (.step aliceRotates (.step aliceRoot .init trivial rfl) trivial rfl) (by decide)
  cases hkey

/-! ### Keys stored under their own hash -/

theorem decryptReadKeyAndHash_hash {msg key : String} {hash : UInt64}
    (h : decryptReadKeyAndHash c st msg = .ok (key, hash)) : hash = c.fnv64 key := by
  unfold decryptReadKeyAndHash at h
  split at h
  · cases h
  · split at h
    · cases h
    · split_ifs at h
      cases h
      rfl

/-- Every read key is stored under its own FNV hash. -/
def KeysHashed (c : Crypto) (userReadKeys : GoMap UInt64 String) : Prop :=
  ∀ hash key, userReadKeys.lookup hash = some key → c.fnv64 key = hash

/-- Every entry of `keys'` is an entry of `keys` or a key stored under its own hash: what a step
that only stores opened keys does to `userReadKeys`. -/
def StoresHashed (c : Crypto) (keys keys' : GoMap UInt64 String) : Prop :=
  ∀ hash key, keys'.lookup hash = some key → keys.lookup hash = some key ∨ c.fnv64 key = hash

theorem StoresHashed.refl (keys : GoMap UInt64 String) : StoresHashed c keys keys :=
  fun _ _ h => .inl h

theorem StoresHashed.trans {keys keys' keys'' : GoMap UInt64 String}
    (h : StoresHashed c keys keys') (h' : StoresHashed c keys' keys'') :
    StoresHashed c keys keys'' :=
  fun hash key hl => (h' hash key hl).elim (h hash key) .inr

theorem StoresHashed.insert (keys : GoMap UInt64 String) {hash : UInt64} {key : String}
    (hk : c.fnv64 key = hash) : StoresHashed c keys (keys.insert hash key) := by
  intro hash' key' hl
  by_cases he : hash' = hash
  · subst he
    rw [AList.lookup_insert, Option.some.injEq] at hl
    exact .inr (hl ▸ hk)
  · exact .inl (by rwa [AList.lookup_insert_ne he] at hl)

theorem KeysHashed.of_storesHashed {keys keys' : GoMap UInt64 String} (hk : KeysHashed c keys)
    (h : StoresHashed c keys keys') : KeysHashed c keys' :=
  fun hash key hl => (h hash key hl).elim (hk hash key) id

theorem StoresHashed.lookup_of_mem {keys keys' : GoMap UInt64 String} {key : String}
    (h : StoresHashed c keys keys') (hmem : ∀ x ∈ keys, x ∈ keys')
    (hk : keys.lookup (c.fnv64 key) = some key) :
    keys'.lookup (c.fnv64 key) = some key ∨
      ∃ key', key' ≠ key ∧ c.fnv64 key' = c.fnv64 key ∧
        keys'.lookup (c.fnv64 key) = some key' := by
  obtain ⟨key', hkey'⟩ := Option.isSome_iff_exists.1
    (AList.lookup_isSome.2 (hmem _ (AList.lookup_isSome.1 (by rw [hk]; rfl))))
  rw [hkey']
  by_cases he : key' = key
  · exact .inl (congrArg some he)
  · refine .inr ⟨key', he, (h _ _ hkey').resolve_left fun h' => he ?_, rfl⟩
    exact Option.some.inj (h'.symm.trans hk)

theorem saveReadKeys_storesHashed {msgs : List String} (h : saveReadKeys c st msgs = .ok st') :
    StoresHashed c st.userReadKeys st'.userReadKeys := by
  induction msgs generalizing st with
  | nil => cases h; exact .refl _
  | cons msg rest ih =>
    obtain ⟨⟨key, hash⟩, hd, hrest⟩ := Except.bind_eq_ok.1 h
    exact (StoresHashed.insert _ (decryptReadKeyAndHash_hash hd).symm).trans (ih hrest)

theorem saveOwnReadKeys_storesHashed {identity : String} {msgs : List String}
    (h : saveOwnReadKeys c st identity msgs = .ok st') :
    StoresHashed c st.userReadKeys st'.userReadKeys := by
  unfold saveOwnReadKeys at h
  split at h
  · exact saveReadKeys_storesHashed h
  · cases h; exact .refl _

theorem saveReplacedReadKey_storesHashed {rs : List ACLReadKeyReplace}
    (h : saveReplacedReadKey c st rs = .ok st') :
    StoresHashed c st.userReadKeys st'.userReadKeys := by
  unfold saveReplacedReadKey at h
  split at h
  · cases h; exact .refl _
  · obtain ⟨⟨key, hash⟩, hd, h⟩ := Except.bind_eq_ok.1 h
    cases h
    exact .insert _ (decryptReadKeyAndHash_hash hd).symm

theorem applyChangeContent_storesHashed {ch : ACLContentValue}
    (h : applyChangeContent c st ch = .ok st') :
    StoresHashed c st.userReadKeys st'.userReadKeys := by
  cases ch with
  | userAdd ch =>
    simp only [applyChangeContent, applyUserAdd] at h
    split at h
    · cases h
    · exact (saveOwnReadKeys_storesHashed h :)
  | userRemove ch =>
    simp only [applyChangeContent, applyUserRemove] at h
    split_ifs at h
    exact (saveReplacedReadKey_storesHashed h :)
  | userPermissionChange ch =>
    simp only [applyChangeContent, applyUserPermissionChange] at h
    split at h
    · cases h
    · cases h; exact .refl _
  | userInvite ch => cases h; exact .refl _
  | userJoin ch =>
    obtain ⟨-, st₁, -, -, h₁, rfl⟩ := applyUserJoin_spec h
    exact (saveOwnReadKeys_storesHashed h₁ :)
  | unset => cases h

theorem applyChangeContents_storesHashed {chs : List ACLContentValue}
    (h : applyChangeContents c st chs = .ok st') :
    StoresHashed c st.userReadKeys st'.userReadKeys := by
  induction chs generalizing st with
  | nil => cases h; exact .refl _
  | cons ch rest ih =>
    obtain ⟨st₁, h₁, h⟩ := Except.bind_eq_ok.1 h
    exact (applyChangeContent_storesHashed h₁).trans (ih h)

theorem applyRecord_storesHashed {r : ACLRecord} (h : applyRecord c st r = .ok st') :
    StoresHashed c st.userReadKeys st'.userReadKeys := by
  by_cases hid : r.id = st.id
  · simp only [applyRecord, hid, if_true] at h
    split at h
    · unfold applyRoot at h
      split at h
      · obtain ⟨st₁, h₁, h⟩ := Except.bind_eq_ok.1 h
        obtain ⟨key, -, hkey, rfl⟩ := saveReadKeyFromRoot_ok h₁
        cases h
        exact .insert _ hkey
      · cases h; exact .refl _
    · cases h
  · obtain ⟨d, st₁, -, -, h₁, rfl⟩ := applyRecord_spec hid h
    simpa using applyChangeContents_storesHashed h₁

theorem Reachable.keysHashed {P : ACLState → ACLRecord → Prop} {id identity : String}
    {signingKey encryptionKey : Option String}
    (h : Reachable c P (freshState id identity signingKey encryptionKey) st) :
    KeysHashed c st.userReadKeys := by
  induction h with
  | init => intro _ _ hl; simp [freshState, newACLState] at hl
  | step r _ _ hst ih => exact ih.of_storesHashed (applyRecord_storesHashed hst)

theorem currentReadKey_eq_ok {key : String} :
    currentReadKey st = .ok key ↔ st.userReadKeys.lookup st.currentReadKeyHash = some key := by
  unfold currentReadKey
  split <;> simp_all

/-- **Read keys are stored under their own hash**, along any replay from a fresh state; so the key
`CurrentReadKey` returns hashes to `CurrentReadKeyHash`. -/
theorem currentReadKey_hash (c : Crypto) (P : ACLState → ACLRecord → Prop) (id identity : String)
    (signingKey encryptionKey : Option String) (st : ACLState)
    (h : Reachable c P (freshState id identity signingKey encryptionKey) st) :
    (∀ hash key, st.userReadKeys.lookup hash = some key → c.fnv64 key = hash) ∧
      ∀ key, currentReadKey st = .ok key → c.fnv64 key = st.currentReadKeyHash :=
  ⟨h.keysHashed, fun key hkey => h.keysHashed _ key (currentReadKey_eq_ok.1 hkey)⟩

theorem currentReadKey_hash_sample : ∃ st,
    Reachable Crypto.sample (fun _ _ => True)
      (freshState "acl" "alice" (some "alice-sign") (some "alice-enc")) st ∧
    currentReadKey st = .ok "alice" ∧
    ((∀ hash key, st.userReadKeys.lookup hash = some key → Crypto.sample.fnv64 key = hash) ∧
      ∀ key, currentReadKey st = .ok key → Crypto.sample.fnv64 key = st.currentReadKeyHash) :=
  ⟨_, .step aliceRoot .init trivial rfl, rfl,
    currentReadKey_hash Crypto.sample (fun _ _ => True) "acl" "alice" (some "alice-sign")
      (some "alice-enc") _
      (.step aliceRoot .init trivial rfl)⟩

/-! ### Removing a user -/

/-- An accepted content list ran each of its items on a state with the same local part, and the
items after it on the state that item left. -/
theorem applyChangeContents_mem {chs : List ACLContentValue} {ch : ACLContentValue}
    (hch : ch ∈ chs) (h : applyChangeContents c st chs = .ok st') :
    ∃ stᵢ stᵢ' rest, ContentFrame st stᵢ ∧ applyChangeContent c stᵢ ch = .ok stᵢ' ∧
      applyChangeContents c stᵢ' rest = .ok st' := by
  induction chs generalizing st with
  | nil => cases hch
  | cons ch' rest ih =>
    obtain ⟨st₁, h₁, hrest⟩ := Except.bind_eq_ok.1 h
    rcases List.mem_cons.1 hch with rfl | hch
    · exact ⟨st, st₁, rest, .refl _, h₁, hrest⟩
    · obtain ⟨stᵢ, stᵢ', rest', hf, hi, hr⟩ := ih hch hrest
      exact ⟨stᵢ, stᵢ', rest', (applyChangeContent_ok h₁).1.trans hf, hi, hr⟩

theorem applyUserRemove_local {ch : ACLUserRemove} (h : applyUserRemove c st ch = .ok st') :
    ch.identity ≠ st.identity ∧
      ∀ rep, ch.readKeyReplaces.find? (·.identity = st.identity) = some rep →
        ∃ key, decryptReadKeyAndHash c st rep.encryptedReadKey = .ok (key, c.fnv64 key) ∧
          st'.userReadKeys.lookup (c.fnv64 key) = some key := by
  refine ⟨(applyUserRemove_ok h).2.2, fun rep hrep => ?_⟩
  unfold applyUserRemove at h
  split_ifs at h
  simp only [saveReplacedReadKey, hrep] at h
  obtain ⟨⟨key, hash⟩, hd, h⟩ := Except.bind_eq_ok.1 h
  cases Except.pure_eq_ok.1 h
  obtain rfl := decryptReadKeyAndHash_hash hd
  exact ⟨key, hd, AList.lookup_insert _⟩

/-- `alice` removes `bob` under the given read-key hash header, with the given replace entries. -/
def removeBob (hash : UInt64) (readKeyReplaces : List ACLReadKeyReplace) : ACLRecord :=
  aliceRecord "remove-bob" hash [.userRemove ⟨"bob", readKeyReplaces⟩]

/-- `alice` removes `bob` keeping the read-key hash and sealing no new key, and the record is
accepted. -/
theorem remove_keeps_readKeyHash : ¬ ∀ (c : Crypto) (st st' : ACLState) (r : ACLRecord)
    (d : ACLData) (ch : ACLUserRemove), recordData r = .ok d → .userRemove ch ∈ d.aclContent →
    applyRecord c st r = .ok st' → st'.currentReadKeyHash ≠ st.currentReadKeyHash := fun h =>
  let st := (applyRecords Crypto.sample (freshState "acl" "" none none)
    [aliceRoot, addBob]).toOption.getD (newACLState "acl")
  h Crypto.sample st _ (removeBob (fnv1 "alice") []) _ _ rfl (.head _) rfl rfl

/-- **What a record removing a user guarantees**: the hash header is adopted, and the local entry
opens to a key filling its own hash's slot, unless a later item put a colliding key there. -/
theorem applyRecord_userRemove {r : ACLRecord} {d : ACLData} {ch : ACLUserRemove}
    (hd : recordData r = .ok d) (hch : .userRemove ch ∈ d.aclContent)
    (h : applyRecord c st r = .ok st') :
    ch.identity ≠ st.identity ∧ st'.currentReadKeyHash = r.currentReadKeyHash ∧
    st'.totalReadKeys =
      st.totalReadKeys + (if r.currentReadKeyHash = st.currentReadKeyHash then 0 else 1) ∧
    ∀ rep, ch.readKeyReplaces.find? (·.identity = st.identity) = some rep →
      ∃ key, decryptReadKeyAndHash c st rep.encryptedReadKey = .ok (key, c.fnv64 key) ∧
        (st'.userReadKeys.lookup (c.fnv64 key) = some key ∨
          ∃ key', key' ≠ key ∧ c.fnv64 key' = c.fnv64 key ∧
            st'.userReadKeys.lookup (c.fnv64 key) = some key') := by
  have hid : r.id ≠ st.id := fun hid => by
    simp only [applyRecord, hid, if_true] at h
    split at h
    · simp_all [recordData]
    · cases h
  obtain ⟨d', st₁, hd', -, h₁, rfl⟩ := applyRecord_spec hid h
  cases hd.symm.trans hd'
  have hf := (applyChangeContents_ok h₁).1
  obtain ⟨stᵢ, stᵢ', rest, hfᵢ, hᵢ, hrest⟩ := applyChangeContents_mem hch h₁
  obtain ⟨hne, hopen⟩ := applyUserRemove_local hᵢ
  refine ⟨hfᵢ.identity ▸ hne, by simp, ?_, fun rep hrep => ?_⟩
  · simp [ACLState.snapshotPermissions, hf.totalReadKeys, hf.currentReadKeyHash]
  · obtain ⟨key, hkey, hlookup⟩ := hopen rep (hfᵢ.identity ▸ hrep)
    rw [decryptReadKeyAndHash_congr hfᵢ.encryptionKey] at hkey
    have hkeys : ((rotateReadKey st₁ r.currentReadKeyHash).snapshotPermissions r.id).userReadKeys =
        st₁.userReadKeys := by simp
    refine ⟨key, hkey, hkeys ▸ ?_⟩
    -- The later items keep the slot filled, by a key of that hash.
    exact (applyChangeContents_storesHashed hrest).lookup_of_mem
      (applyChangeContents_ok hrest).1.readKeys hlookup

theorem applyRecord_userRemove_sample : ∃ st st' d ch,
    applyRecords Crypto.sample (freshState "acl" "alice" (some "alice-sign") (some "alice-enc"))
      [aliceRoot, addBob] = .ok st ∧
    recordData (removeBob (fnv1 "alice2") [⟨"alice", "alice-enc", "alice2"⟩]) = .ok d ∧
    .userRemove ch ∈ d.aclContent ∧
    applyRecord Crypto.sample st (removeBob (fnv1 "alice2") [⟨"alice", "alice-enc", "alice2"⟩]) =
      .ok st' ∧
    (ch.identity ≠ st.identity ∧
      st'.currentReadKeyHash =
        (removeBob (fnv1 "alice2") [⟨"alice", "alice-enc", "alice2"⟩]).currentReadKeyHash ∧
      st'.totalReadKeys = st.totalReadKeys +
        (if (removeBob (fnv1 "alice2") [⟨"alice", "alice-enc", "alice2"⟩]).currentReadKeyHash =
          st.currentReadKeyHash then 0 else 1) ∧
      ∀ rep, ch.readKeyReplaces.find? (·.identity = st.identity) = some rep →
        ∃ key, decryptReadKeyAndHash Crypto.sample st rep.encryptedReadKey =
          .ok (key, Crypto.sample.fnv64 key) ∧
          (st'.userReadKeys.lookup (Crypto.sample.fnv64 key) = some key ∨
            ∃ key', key' ≠ key ∧ Crypto.sample.fnv64 key' = Crypto.sample.fnv64 key ∧
              st'.userReadKeys.lookup (Crypto.sample.fnv64 key) = some key')) :=
  ⟨_, _, _, _, rfl, rfl, .head _, rfl,
    @applyRecord_userRemove Crypto.sample _ _ _ _ _ rfl (.head _) rfl⟩

/-! ### The local identity stays a user -/

end Acl

end AnySyncNode
