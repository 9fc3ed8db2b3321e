import AnySyncNode.Acl.Replay

/-!
# Permission snapshots

After each record `applyRecord` stores the `(identity, permission)` table of its users under the
record's id, and `PermissionsAtRecord` answers from that table, so that a change authored at a
record is checked against the users as they were then.  The table holds copies, not a view of
`userStates`, so the records that follow, which change `userStates` in place, should not reach it.

`permissionsAtRecord_frozen` proves this over every replay that starts with the root record and
applies records with distinct ids: at every later state, `PermissionsAtRecord(r.id, x)` is `x`'s
permission right after `r`, or `ErrNoSuchUser` when `x` was not a member then.  It rests on three
facts of the shared step: every user is stored under its own identity (`IdentityKeyed`), a record
writes the snapshot of its own id only (`SharedState.applyRecord_snapshot_ne`), and the table it
writes answers as the users do (`find?_permissionsOf`).
-/

namespace AnySyncNode

namespace Acl

/-- Every user is stored under its own identity. -/
def IdentityKeyed (userStates : GoMap String ACLUserState) : Prop :=
  ∀ k u, userStates.lookup k = some u → u.identity = k

theorem identityKeyed_empty : IdentityKeyed ∅ := fun _ _ h => by simp at h

theorem IdentityKeyed.insert {m : GoMap String ACLUserState} (hm : IdentityKeyed m) {k : String}
    {u : ACLUserState} (hu : u.identity = k) : IdentityKeyed (m.insert k u) := by
  intro k' u' h
  by_cases hk : k' = k
  · subst hk
    rw [AList.lookup_insert] at h
    cases h
    exact hu
  · exact hm k' u' (by rwa [AList.lookup_insert_ne hk] at h)

theorem IdentityKeyed.erase {m : GoMap String ACLUserState} (hm : IdentityKeyed m) (k : String) :
    IdentityKeyed (m.erase k) := by
  intro k' u' h
  by_cases hk : k' = k
  · subst hk
    simp at h
  · exact hm k' u' (by rwa [AList.lookup_erase_ne hk] at h)

theorem find?_map_identity {l : List (Σ _ : String, ACLUserState)}
    (hl : ∀ e ∈ l, e.2.identity = e.1) (x : String) :
    (l.map fun e => ({ identity := e.2.identity, permission := e.2.permissions } :
      UserPermissionPair)).find? (·.identity = x) =
      (l.dlookup x).map fun u => ⟨x, u.permissions⟩ := by
  induction l with
  | nil => rfl
  | cons e l ih =>
    obtain ⟨k, u⟩ := e
    have hk : u.identity = k := hl ⟨k, u⟩ (.head _)
    by_cases hx : k = x
    · subst hx
      simp [hk, List.dlookup_cons_eq]
    · simp [hk, hx, List.dlookup_cons_ne l ⟨k, u⟩ (Ne.symm hx), ih fun e h => hl e (.tail _ h)]

theorem find?_permissionsOf {m : GoMap String ACLUserState} (hm : IdentityKeyed m) (x : String) :
    (permissionsOf m).find? (·.identity = x) = (m.lookup x).map fun u => ⟨x, u.permissions⟩ :=
  find?_map_identity (fun e he => hm e.1 e.2 (AList.mem_lookup_iff.2 he)) x

namespace SharedState

theorem applyContent_identityKeyed {s : SharedState} (hs : IdentityKeyed s.userStates)
    (ch : ACLContentValue) : IdentityKeyed (s.applyContent ch).userStates := by
  cases ch with
  | userPermissionChange ch =>
    simp only [applyContent]
    split
    · exact hs
    · rename_i u hu
      exact hs.insert (hs ch.identity u hu)
  | userAdd ch => exact hs.insert rfl
  | userRemove ch => exact hs.erase _
  | userInvite ch => exact hs
  | userJoin ch =>
    simp only [applyContent]
    split
    · exact hs
    · exact hs.insert rfl
  | unset => exact hs

theorem foldl_applyContent_identityKeyed {s : SharedState} (hs : IdentityKeyed s.userStates)
    (chs : List ACLContentValue) : IdentityKeyed (chs.foldl applyContent s).userStates := by
  induction chs generalizing s with
  | nil => exact hs
  | cons ch chs ih => exact ih (applyContent_identityKeyed hs ch)

theorem applyRecord_identityKeyed {s : SharedState} (hs : IdentityKeyed s.userStates)
    (r : ACLRecord) : IdentityKeyed (s.applyRecord r).userStates := by
  unfold applyRecord
  split
  · split
    · exact hs.insert rfl
    · exact hs
  · split
    · exact foldl_applyContent_identityKeyed hs _
    · exact hs

theorem foldl_applyRecord_identityKeyed {s : SharedState} (hs : IdentityKeyed s.userStates)
    (rs : List ACLRecord) : IdentityKeyed (rs.foldl applyRecord s).userStates := by
  induction rs generalizing s with
  | nil => exact hs
  | cons r rs ih => exact ih (applyRecord_identityKeyed hs r)

@[simp] theorem applyContent_permissionsAtRecord (s : SharedState) (ch : ACLContentValue) :
    (s.applyContent ch).permissionsAtRecord = s.permissionsAtRecord := by
  cases ch <;> simp only [applyContent] <;> split <;> rfl

@[simp] theorem foldl_applyContent_permissionsAtRecord (s : SharedState)
    (chs : List ACLContentValue) :
    (chs.foldl applyContent s).permissionsAtRecord = s.permissionsAtRecord := by
  induction chs generalizing s with
  | nil => rfl
  | cons ch chs ih => rw [List.foldl_cons, ih, applyContent_permissionsAtRecord]

theorem applyRecord_snapshot_ne (s : SharedState) {r : ACLRecord} {k : String} (hk : r.id ≠ k) :
    (s.applyRecord r).permissionsAtRecord.lookup k = s.permissionsAtRecord.lookup k := by
  unfold applyRecord
  split
  · split
    · exact AList.lookup_insert_ne (Ne.symm hk)
    · rfl
  · split
    · simp only [AList.lookup_insert_ne (Ne.symm hk), foldl_applyContent_permissionsAtRecord]
    · rfl

theorem foldl_applyRecord_snapshot_ne (s : SharedState) {rs : List ACLRecord} {k : String}
    (hk : ∀ r ∈ rs, r.id ≠ k) :
    (rs.foldl applyRecord s).permissionsAtRecord.lookup k = s.permissionsAtRecord.lookup k := by
  induction rs generalizing s with
  | nil => rfl
  | cons r rs ih =>
    rw [List.foldl_cons, ih _ fun r' h => hk r' (.tail _ h),
      applyRecord_snapshot_ne _ (hk r (.head _))]

end SharedState

section Snapshots

variable {c : Crypto} {st st' : ACLState}

/-- The snapshot a record stores is the table of the users it leaves, unless it is a root record
applied to a state that already has users. -/
theorem applyRecord_snapshot {r : ACLRecord} (h : applyRecord c st r = .ok st')
    (hroot : r.id = st.id → st.userStates = ∅) :
    st'.permissionsAtRecord.lookup r.id = some (permissionsOf st'.userStates) := by
  by_cases hid : r.id = st.id
  · have hs := applyRecord_shared h
    simp only [applyRecord, hid, if_true] at h
    split at h
    · rename_i root hroot'
      have hp := congrArg SharedState.permissionsAtRecord hs
      have hu := congrArg SharedState.userStates hs
      simp only [SharedState.applyRecord, ACLState.shared, hid, hroot', if_true] at hp hu
      rw [show st'.permissionsAtRecord = _ from hp, show st'.userStates = _ from hu, hroot hid, hid,
        AList.lookup_insert]
      rfl
    · cases h
  · obtain ⟨d, st₁, -, -, -, rfl⟩ := applyRecord_spec hid h
    simp [ACLState.snapshotPermissions]

theorem permissionsAtRecord_of_snapshot {id x : String} {perms : List UserPermissionPair}
    {m : GoMap String ACLUserState} (hp : st.permissionsAtRecord.lookup id = some perms)
    (hf : perms.find? (·.identity = x) = (m.lookup x).map fun u => ⟨x, u.permissions⟩) :
    permissionsAtRecord st id x =
      match m.lookup x with
      | some u => .ok ⟨x, u.permissions⟩
      | none => .error .noSuchUser := by
  simp only [permissionsAtRecord, hp, hf]
  cases m.lookup x <;> rfl

/-- **Permission snapshots stay frozen**: after a record `r`, `PermissionsAtRecord r` answers with
the permissions right after `r`, in a replay of records with distinct ids. -/
theorem permissionsAtRecord_frozen (c : Crypto) (id identity : String)
    (signingKey encryptionKey : Option String) (root r : ACLRecord) (rs pre later : List ACLRecord)
    (stᵣ st : ACLState) (x : String) (hroot : root.id = id)
    (hids : ((root :: rs).map ACLRecord.id).Nodup) (hsplit : root :: rs = pre ++ r :: later)
    (hr : applyRecords c (freshState id identity signingKey encryptionKey) (pre ++ [r]) = .ok stᵣ)
    (h : applyRecords c stᵣ later = .ok st) :
    permissionsAtRecord st r.id x =
      match stᵣ.userStates.lookup x with
      | some u => .ok ⟨x, u.permissions⟩
      | none => .error .noSuchUser := by
  rw [hsplit, List.map_append, List.map_cons, List.nodup_append, List.nodup_cons] at hids
  obtain ⟨-, ⟨hlater, -⟩, hpre⟩ := hids
  have hkeyed : IdentityKeyed stᵣ.userStates := by
    rw [← ACLState.shared_userStates, applyRecords_shared hr]
    exact SharedState.foldl_applyRecord_identityKeyed identityKeyed_empty _
  rw [applyRecords_append] at hr
  obtain ⟨stₚ, hp, hr⟩ := Except.bind_eq_ok.1 hr
  obtain ⟨stᵣ', hr, hr'⟩ := Except.bind_eq_ok.1 hr
  cases hr'
  -- Only the first record of the replay is a root record, applied to the fresh state.
  have hfirst : r.id = stₚ.id → stₚ.userStates = ∅ := by
    intro hid
    cases pre with
    | nil => cases hp; rfl
    | cons p pre =>
      cases hsplit
      have hid' : r.id = root.id := (hid.trans (applyRecords_id hp)).trans hroot.symm
      exact (hpre (List.mem_map_of_mem _ (.head _)) (List.mem_cons.2 (.inl hid'.symm))).elim
  have hframe : st.permissionsAtRecord.lookup r.id = stᵣ.permissionsAtRecord.lookup r.id :=
    (congrArg (·.permissionsAtRecord.lookup r.id) (applyRecords_shared h)).trans
      (SharedState.foldl_applyRecord_snapshot_ne _ fun r' h' he =>
        hlater (by rw [← he]; exact List.mem_map_of_mem _ h'))
  exact permissionsAtRecord_of_snapshot (hframe.trans (applyRecord_snapshot hr hfirst))
    (find?_permissionsOf hkeyed x)

theorem permissionsAtRecord_frozen_sample : ∃ stᵣ st,
    applyRecords Crypto.sample (freshState "acl" "" none none) [aliceRoot, addBob] = .ok stᵣ ∧
    applyRecords Crypto.sample stᵣ [aliceDemotes] = .ok st ∧
    permissionsAtRecord st addBob.id "alice" = .ok ⟨"alice", .admin⟩ ∧
    permissionsAtRecord st addBob.id "alice" =
      match stᵣ.userStates.lookup "alice" with
      | some u => .ok ⟨"alice", u.permissions⟩
      | none => .error .noSuchUser :=
  ⟨_, _, rfl, rfl, rfl,
    permissionsAtRecord_frozen Crypto.sample "acl" "" none none aliceRoot addBob
      [addBob, aliceDemotes] [aliceRoot] [aliceDemotes] _ _ "alice" rfl (by decide) rfl rfl rfl⟩

/-! ### Which records have a snapshot -/

theorem applyRecord_mem_permissionsAtRecord {r : ACLRecord} (h : applyRecord c st r = .ok st') :
    r.id ∈ st'.permissionsAtRecord := by
  by_cases hid : r.id = st.id
  · simp only [applyRecord, hid, if_true] at h
    split at h
    · have hp := congrArg SharedState.permissionsAtRecord (applyRoot_shared h)
      simp only [ACLState.shared] at hp
      simp [hp, hid]
    · cases h
  · obtain ⟨d, st₁, -, -, -, rfl⟩ := applyRecord_spec hid h
    simp [ACLState.snapshotPermissions]

theorem applyRecord_permissionsAtRecord_mem_iff {r : ACLRecord} (h : applyRecord c st r = .ok st')
    (k : String) : k ∈ st'.permissionsAtRecord ↔ k = r.id ∨ k ∈ st.permissionsAtRecord := by
  by_cases hk : k = r.id
  · subst hk
    simp [applyRecord_mem_permissionsAtRecord h]
  · have hl : st'.permissionsAtRecord.lookup k = st.permissionsAtRecord.lookup k := by
      rw [show st'.permissionsAtRecord = st'.shared.permissionsAtRecord from rfl,
        applyRecord_shared h, SharedState.applyRecord_snapshot_ne _ (Ne.symm hk)]
      rfl
    simp only [hk, false_or, ← AList.lookup_isSome, hl]

theorem applyRecords_permissionsAtRecord_mem_iff {rs : List ACLRecord}
    (h : applyRecords c st rs = .ok st') (k : String) :
    k ∈ st'.permissionsAtRecord ↔ k ∈ rs.map ACLRecord.id ∨ k ∈ st.permissionsAtRecord := by
  induction rs generalizing st with
  | nil => cases h; simp
  | cons r rs ih =>
    obtain ⟨st₁, h₁, h⟩ := Except.bind_eq_ok.1 h
    rw [ih h, applyRecord_permissionsAtRecord_mem_iff h₁, List.map_cons, List.mem_cons, or_assoc]
    exact or_left_comm

theorem permissionsAtRecord_eq_noSuchRecord_iff (st : ACLState) (recordId x : String) :
    permissionsAtRecord st recordId x = .error .noSuchRecord ↔
      recordId ∉ st.permissionsAtRecord := by
  rw [← AList.lookup_eq_none, permissionsAtRecord]
  split
  · simp_all
  · split <;> simp_all

/-- **Every accepted record has a snapshot, and nothing else has one**: `PermissionsAtRecord` fails
with `ErrNoSuchRecord` exactly for the ids of no applied record. -/
theorem permissionsAtRecord_noSuchRecord (c : Crypto) (id identity : String)
    (signingKey encryptionKey : Option String) (rs : List ACLRecord) (st : ACLState)
    (h : applyRecords c (freshState id identity signingKey encryptionKey) rs = .ok st)
    (recordId x : String) :
    permissionsAtRecord st recordId x = .error .noSuchRecord ↔ recordId ∉ rs.map ACLRecord.id := by
  rw [permissionsAtRecord_eq_noSuchRecord_iff, applyRecords_permissionsAtRecord_mem_iff h]
  simp [freshState, newACLState]

theorem permissionsAtRecord_noSuchRecord_sample : ∃ st,
    applyRecords Crypto.sample (freshState "acl" "" none none) [aliceRoot, addBob] = .ok st ∧
    permissionsAtRecord st "remove-bob" "alice" = .error .noSuchRecord ∧
    (permissionsAtRecord st "remove-bob" "alice" = .error .noSuchRecord ↔
      "remove-bob" ∉ [aliceRoot, addBob].map ACLRecord.id) :=
  ⟨_, rfl, rfl, permissionsAtRecord_noSuchRecord Crypto.sample "acl" "" none none
    [aliceRoot, addBob] _ rfl _ _⟩

end Snapshots

end Acl

end AnySyncNode
