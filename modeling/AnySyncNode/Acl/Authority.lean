import AnySyncNode.Acl.Replay

/-!
# Who may change an ACL

`applyChangeData` lets a record through its author check when the author is an Admin, or when
the record's first item is a `UserJoin` (`isUserJoin` reads only that item).

* `applyRecord_joinOnly`: a non-root record accepted from an author who is not an Admin starts
  with a `UserJoin`; when it is exactly one join, it adds the joiner with the invite's permission,
  the permission snapshot, the read keys `saveOwnReadKeys` opens, and the read-key hash of its
  header.  The items after a leading join escape the check: `nonAdmin_join_makes_admin`.
* `genesis_keeps_admin`: after the root, the genesis identity stays an Admin as long as no record
  demotes or removes it.  Nothing keeps the last Admin (`admin_lost`).
-/

namespace AnySyncNode

namespace Acl

variable {c : Crypto} {st st' : ACLState}

/-! ### Records by non-admins -/

theorem isUserJoin_iff {d : ACLData} :
    isUserJoin d = true ↔ ∃ j rest, d.aclContent = .userJoin j :: rest := by
  unfold isUserJoin; split <;> simp_all

/-- What a record `r` taking `st` to `st'` may do when its author is not an Admin: start with a
`UserJoin`, and, when it is exactly one join, change the state only by the new user with the
invite's permission, the permission snapshot, the read keys `saveOwnReadKeys` opens, and the
read-key hash of its header. -/
def JoinOnly (c : Crypto) (st : ACLState) (r : ACLRecord) (st' : ACLState) : Prop :=
  (∃ d j rest, recordData r = .ok d ∧ d.aclContent = .userJoin j :: rest) ∧
  ∀ j, recordData r = .ok ⟨[.userJoin j]⟩ →
    ∃ invite st₀, st.userInvites.lookup j.acceptPubKey = some invite ∧ j.identity ∉ st.userStates ∧
      saveOwnReadKeys c st j.identity j.encryptedReadKeys = .ok st₀ ∧
      st' = { rotateReadKey st r.currentReadKeyHash with
        userReadKeys := st₀.userReadKeys
        userStates := st.userStates.insert j.identity ⟨j.identity, j.encryptionKey, invite.permissions⟩
        permissionsAtRecord := st.permissionsAtRecord.insert r.id (permissionsOf st'.userStates) } ∧
      (∀ h ∈ st.userReadKeys, h ∈ st'.userReadKeys) ∧
      (j.identity ≠ st.identity → st'.userReadKeys = st.userReadKeys)

/-- **A non-admin can only join.** -/
theorem applyRecord_joinOnly {r : ACLRecord} (hid : r.id ≠ st.id)
    (hauthor : hasPermission st r.identity .admin = false) (h : applyRecord c st r = .ok st') :
    JoinOnly c st r st' := by
  obtain ⟨d, st₁, hd, hauth, h₁, rfl⟩ := applyRecord_spec hid h
  have hjoin := isUserJoin_iff.1 (hauth.resolve_right (by simp [hauthor]))
  refine ⟨⟨d, hjoin.imp fun _ => .imp fun _ h => ⟨hd, h⟩⟩, fun j hj => ?_⟩
  obtain rfl : d = ⟨[.userJoin j]⟩ := Except.ok.inj (hd.symm.trans hj)
  obtain ⟨st₂, h₂, h₃⟩ := Except.bind_eq_ok.1 h₁
  cases h₃
  obtain ⟨invite, st₀, hinv, hmem, h₀, rfl⟩ := applyUserJoin_spec h₂
  obtain ⟨hf, hs⟩ := saveOwnReadKeys_ok h₀
  simp only [ACLState.shared, SharedState.mk.injEq] at hs
  refine ⟨invite, st₀, hinv, hmem, h₀, ?_, ?_, fun hne => ?_⟩
  · obtain ⟨i, e, s, cur, tot, -⟩ := hf
    unfold rotateReadKey ACLState.snapshotPermissions
    rw [cur]
    split_ifs <;> simp [*]
  · simpa using hf.readKeys
  · rw [saveOwnReadKeys, if_neg (Ne.symm hne)] at h₀
    cases h₀
    simp

theorem joinOnly_sample : ∃ st st',
    applyRecords Crypto.sample (freshState "acl" "" none none) [aliceRoot, inviteBob] = .ok st ∧
    (bobJoins (fnv1 "alice")).id ≠ st.id ∧
    hasPermission st (bobJoins (fnv1 "alice")).identity .admin = false ∧
    applyRecord Crypto.sample st (bobJoins (fnv1 "alice")) = .ok st' ∧
    JoinOnly Crypto.sample st (bobJoins (fnv1 "alice")) st' :=
  ⟨_, _, rfl, by decide, rfl, rfl, applyRecord_joinOnly (c := Crypto.sample) (by decide) rfl rfl⟩

/-- `bob` joins through the invite and, in the same record, makes himself an Admin. -/
def bobJoinsAsAdmin : ACLRecord where
  id := "bob-joins-as-admin"
  identity := "bob"
  currentReadKeyHash := fnv1 "alice"
  model := some (.data ⟨[.userJoin ⟨"bob", "bob-enc", "bob-signed", "bob-invite", ["alice"]⟩,
    .userPermissionChange { identity := "bob", permissions := .admin }]⟩)
  data := none

/-- Invited as a writer, `bob` joins and makes himself an Admin in one accepted record. -/
theorem nonAdmin_join_makes_admin : ∃ st st',
    applyRecords Crypto.sample (freshState "acl" "" none none) [aliceRoot, inviteBob] = .ok st ∧
    (st.userInvites.lookup "bob-invite").map (·.permissions) = some .writer ∧
    hasPermission st bobJoinsAsAdmin.identity .admin = false ∧
    applyRecord Crypto.sample st bobJoinsAsAdmin = .ok st' ∧
    hasPermission st' "bob" .admin = true :=
  ⟨_, _, rfl, rfl, rfl, rfl, rfl⟩

/-! ### The last Admin -/

/-- Some user holds Admin permission. -/
def HasAdmin (userStates : GoMap String ACLUserState) : Prop :=
  ∃ u state, userStates.lookup u = some state ∧ state.permissions = .admin

instance : DecidablePred HasAdmin := fun m =>
  decidable_of_iff (∃ e ∈ m.entries, e.2.permissions = .admin)
    ⟨fun ⟨⟨u, s⟩, h, hs⟩ => ⟨u, s, AList.mem_lookup_iff.2 h, hs⟩,
     fun ⟨u, s, h, hs⟩ => ⟨⟨u, s⟩, AList.mem_lookup_iff.1 h, hs⟩⟩

/-- An item that neither demotes nor removes the user `g`. -/
def ACLContentValue.keepsAdmin (g : String) : ACLContentValue → Bool
  | .userPermissionChange ch => ch.identity != g || ch.permissions == .admin
  | .userRemove ch => ch.identity != g
  | _ => true

/-- A record none of whose items demotes or removes `g`. -/
def ACLRecord.keepsAdmin (g : String) (r : ACLRecord) : Bool :=
  match recordData r with
  | .ok d => d.aclContent.all (ACLContentValue.keepsAdmin g)
  | .error _ => true

theorem hasPermission_of_lookup {g : String} (h : st'.userStates.lookup g = st.userStates.lookup g)
    (p : ACLUserPermissions) : hasPermission st' g p = hasPermission st g p := by
  simp only [hasPermission, h]

theorem hasPermission_eq_true {g : String} {p : ACLUserPermissions} :
    hasPermission st g p = true ↔
      ∃ state, st.userStates.lookup g = some state ∧ state.permissions = p := by
  unfold hasPermission
  split <;> simp_all

theorem applyChangeContent_keepsAdmin {g : String} {ch : ACLContentValue}
    (hk : ch.keepsAdmin g = true) (h : applyChangeContent c st ch = .ok st')
    (ha : hasPermission st g .admin = true) : hasPermission st' g .admin = true := by
  have hs : st'.userStates = (st.shared.applyContent ch).userStates :=
    congrArg SharedState.userStates (applyChangeContent_ok h).2
  obtain ⟨state, hstate, -⟩ := hasPermission_eq_true.1 ha
  have hg : g ∈ st.userStates := AList.lookup_isSome.1 (by simp [hstate])
  -- A permission change of `g` keeps it an Admin; every other item leaves its entry as it was.
  by_cases hpc : ∃ ch', ch = .userPermissionChange ch' ∧ ch'.identity = g
  · obtain ⟨ch, rfl, rfl⟩ := hpc
    simp only [ACLContentValue.keepsAdmin, bne_self_eq_false, Bool.false_or, beq_iff_eq] at hk
    simp [hasPermission, hs, SharedState.applyContent, hstate, hk]
  refine (@hasPermission_of_lookup st st' g ?_ _).trans ha
  rw [hs]
  cases ch with
  | userAdd ch => exact AList.lookup_insert_ne fun e => (applyUserAdd_ok h).2.2 (e ▸ hg)
  | userJoin ch =>
    cases hinv : st.userInvites.lookup ch.acceptPubKey <;>
      simp only [SharedState.applyContent, ACLState.shared, hinv]
    exact AList.lookup_insert_ne fun e => (applyUserJoin_ok h).2.2 (e ▸ hg)
  | userPermissionChange ch =>
    cases hu : st.userStates.lookup ch.identity <;>
      simp only [SharedState.applyContent, ACLState.shared_userStates, hu]
    exact AList.lookup_insert_ne fun e => hpc ⟨ch, rfl, e.symm⟩
  | userRemove ch =>
    exact AList.lookup_erase_ne fun e => by simp [ACLContentValue.keepsAdmin, e] at hk
  | userInvite ch => simp [SharedState.applyContent]
  | unset => cases h

theorem applyChangeContents_keepsAdmin {g : String} {chs : List ACLContentValue}
    (hk : chs.all (ACLContentValue.keepsAdmin g) = true)
    (h : applyChangeContents c st chs = .ok st')
    (ha : hasPermission st g .admin = true) : hasPermission st' g .admin = true := by
  induction chs generalizing st with
  | nil => cases h; exact ha
  | cons ch rest ih =>
    simp only [List.all_cons, Bool.and_eq_true] at hk
    obtain ⟨st₁, h₁, h⟩ := Except.bind_eq_ok.1 h
    exact ih hk.2 h (applyChangeContent_keepsAdmin hk.1 h₁ ha)

theorem applyRecord_keepsAdmin {g : String} {r : ACLRecord} (hk : r.keepsAdmin g = true)
    (h : applyRecord c st r = .ok st') (ha : hasPermission st g .admin = true) :
    hasPermission st' g .admin = true := by
  have hs := congrArg SharedState.userStates (applyRecord_shared h)
  simp only [ACLState.shared_userStates] at hs
  by_cases hid : r.id = st.id
  · simp only [applyRecord, hid, if_true] at h
    simp only [SharedState.applyRecord, ACLState.shared, hid, if_true] at hs
    split at h
    · rename_i root hroot
      simp only [hroot] at hs
      by_cases hg : root.identity = g
      · simp [hasPermission, hs, hg]
      · refine (@hasPermission_of_lookup st st' g ?_ _).trans ha
        rw [hs]
        exact AList.lookup_insert_ne (Ne.symm hg)
    · cases h
  · obtain ⟨d, st₁, hd, -, h₁, rfl⟩ := applyRecord_spec hid h
    simp only [ACLRecord.keepsAdmin, hd] at hk
    refine (@hasPermission_of_lookup st₁ _ g ?_ _).trans
      (applyChangeContents_keepsAdmin hk h₁ ha)
    simp

/-- **The genesis identity stays an Admin** after the root, while no record demotes or removes
it; so some user holds Admin permission. -/
theorem genesis_keeps_admin (c : Crypto) (id identity : String)
    (signingKey encryptionKey : Option String) (root : ACLRecord) (genesis : ACLRoot)
    (st₁ st : ACLState) (hmodel : root.model = some (.root genesis))
    (hroot : applyRecord c (freshState id identity signingKey encryptionKey) root = .ok st₁)
    (h : Reachable c (fun _ r => r.keepsAdmin genesis.identity = true) st₁ st) :
    hasPermission st genesis.identity .admin = true ∧ HasAdmin st.userStates := by
  have h₁ : hasPermission st₁ genesis.identity .admin = true := by
    have hs := congrArg SharedState.userStates (applyRecord_shared hroot)
    by_cases hid : root.id = id
    · simp only [SharedState.applyRecord, ACLState.shared, freshState, newACLState, hid, hmodel,
        if_true] at hs
      rw [hasPermission, hs, AList.lookup_insert]
      rfl
    · simp [applyRecord, freshState, newACLState, hid, recordData, hmodel, bind, Except.bind]
        at hroot
  have ha : hasPermission st genesis.identity .admin = true := by
    induction h with
    | init => exact h₁
    | step r _ hk hr ih => exact applyRecord_keepsAdmin hk hr ih
  obtain ⟨state, hstate, hp⟩ := hasPermission_eq_true.1 ha
  exact ⟨ha, _, state, hstate, hp⟩

theorem genesis_keeps_admin_sample : ∃ st₁ st,
    aliceRoot.model = some (.root ⟨"alice", "alice-enc", "", "derive", fnv1 "alice"⟩) ∧
    applyRecord Crypto.sample (freshState "acl" "" none none) aliceRoot = .ok st₁ ∧
    Reachable Crypto.sample (fun _ r => r.keepsAdmin "alice" = true) st₁ st ∧
    (hasPermission st "alice" .admin = true ∧ HasAdmin st.userStates) :=
  ⟨_, _, rfl, rfl, .step addBob .init rfl rfl,
    genesis_keeps_admin Crypto.sample "acl" "" none none aliceRoot _ _ _ rfl rfl
      (.step addBob .init rfl rfl)⟩

/-- The genesis Admin can make herself a writer, and then no user is an Admin. -/
theorem admin_lost : ¬ ∀ (c : Crypto) (id identity : String)
    (signingKey encryptionKey : Option String) (root : ACLRecord) (st₁ st : ACLState),
    root.id = id → applyRecord c (freshState id identity signingKey encryptionKey) root = .ok st₁ →
    Reachable c (fun _ _ => True) st₁ st → HasAdmin st.userStates := fun h =>
  absurd (h Crypto.sample "acl" "" none none aliceRoot _ _ rfl rfl
    (.step aliceDemotes .init trivial rfl)) (by decide)

end Acl

end AnySyncNode
