import AnySyncNode.ObjectTree.DocTree

/-!
# Ingesting a batch

What `AddRawChanges` does to the tree and its storage.

* `addRawChanges` never writes the storage (`addRawChanges_treeStorage`), so a failed call leaves
  it as it was; a batch that fails verification leaves the whole object tree as it was; and a
  batch that takes the rebuild path and fails leaves the tree rebuilt from storage alone, without
  the changes that were waiting in memory for a parent (`AddRawChanges_error`,
  `rebuild_failure_drops_unattached`).
* Only the batch's own attached changes are stored: a change that waited unattached and is drained
  by a later batch is attached and becomes a stored head, but is never stored
  (`drained_change_not_stored`).
* The filter of known ids reads the in-memory tree only, and `reduceTree` drops the ancestors of a
  new snapshot root: sending a compacting batch again takes the rebuild path, whatever the tree
  builder (`resent_snapshot_batch_rebuilds`, `resent_snapshot_batch_never_nothing`).
-/

namespace AnySyncNode

namespace ObjectTree

variable {deps : Deps} {d : DocTree} {rawChanges : List RawChange}

@[simp] theorem rebuildFromStorage_treeStorage (deps : Deps) (d : DocTree) (cs : List Change) :
    (rebuildFromStorage deps d cs).1.treeStorage = d.treeStorage := by
  unfold rebuildFromStorage
  split <;> rfl

theorem treeStorage_of_rebuildFromStorage {cs : List Change} {d' : DocTree}
    {r : Except TreeError Unit} (h : rebuildFromStorage deps d cs = (d', r)) :
    d'.treeStorage = d.treeStorage := by
  rw [← rebuildFromStorage_treeStorage deps d cs, h]

theorem tree_of_rebuildFromStorage {cs : List Change} {d' : DocTree}
    (h : rebuildFromStorage deps d cs = (d', .ok ())) : ∃ t, d'.tree = some t := by
  unfold rebuildFromStorage at h
  split at h
  · cases h
  · obtain ⟨rfl, -⟩ := Prod.mk.inj h
    exact ⟨_, rfl⟩

@[simp] theorem addRawChanges_treeStorage (deps : Deps) (d : DocTree)
    (rawChanges : List RawChange) :
    (addRawChanges deps d rawChanges).1.treeStorage = d.treeStorage := by
  unfold addRawChanges
  repeat' split
  all_goals try simp only [rebuildFromStorage_treeStorage]
  all_goals first | rfl | exact treeStorage_of_rebuildFromStorage ‹_›

@[simp] theorem rebuildFromStorage_rebuildFromStorage (deps : Deps) (d : DocTree)
    (cs cs' : List Change) :
    (rebuildFromStorage deps (rebuildFromStorage deps d cs).1 cs').1 = (rebuildFromStorage deps d cs').1 := by
  unfold rebuildFromStorage
  split <;> split <;> simp_all

theorem AddRawChanges_fst_of_error {e : TreeError}
    (h : (AddRawChanges deps d rawChanges).2 = .error e) :
    (AddRawChanges deps d rawChanges).1 = (addRawChanges deps d rawChanges).1 := by
  rcases hr : addRawChanges deps d rawChanges with ⟨d', _ | ⟨mode, r⟩⟩
  · simp only [AddRawChanges, hr]
  · rcases ht : d'.tree with _ | t
    · simp only [AddRawChanges, hr, ht]
    · simp only [AddRawChanges, hr, ht] at h; cases h

theorem AddRawChanges_of_error {d' : DocTree} {e : TreeError}
    (h : addRawChanges deps d rawChanges = (d', .error e)) :
    AddRawChanges deps d rawChanges = (d', .error e) := by
  simp only [AddRawChanges, h]

theorem AddRawChanges_ok {d' : DocTree} {t : Tree} {mode : Mode} {r : AddResult}
    (h : addRawChanges deps d rawChanges = (d', .ok (mode, r))) (ht : d'.tree = some t) :
    ∃ l, (AddRawChanges deps d rawChanges).2 = .ok (r, l) := by
  simp only [AddRawChanges, h, ht]
  exact ⟨_, rfl⟩

/-- The rebuild path fails with the tree rebuilt from storage alone, or succeeds with the summary
*Rebuild*. -/
theorem addRawChanges_rebuild {t : Tree} {news : List (RawChange × Change)} (ht : d.tree = some t)
    (hnews : newChanges deps t rawChanges = .ok news) (hold : news.any (isOldSnapshot t news ·.2)) :
    (∃ e, addRawChanges deps d rawChanges = ((rebuildFromStorage deps d []).1, .error e)) ∨
    ∃ t' r, (addRawChanges deps d rawChanges).1.tree = some t' ∧
      (addRawChanges deps d rawChanges).2 = .ok (Mode.zero, r) ∧ r.summary = .rebuild := by
  have hne : news ≠ [] := by rintro rfl; simp at hold
  rcases hr : rebuildFromStorage deps d (news.map (·.2)) with ⟨d₁, _ | ⟨⟩⟩
  · left
    have := rebuildFromStorage_rebuildFromStorage deps d (news.map (·.2)) []
    simp only [hr] at this
    simp only [addRawChanges, ht, hnews, hne, hold, if_false, if_true, hr, this]
    exact ⟨_, rfl⟩
  · right
    obtain ⟨t₁, ht₁⟩ := tree_of_rebuildFromStorage hr
    simp only [addRawChanges, ht, hnews, hne, hold, if_false, if_true, hr, ht₁]
    exact ⟨_, _, rfl, rfl, rfl⟩

/-- **A failed batch leaves the storage as it was**, and the tree too when a change fails
verification; after the rebuild path the tree is rebuilt from storage alone. -/
theorem AddRawChanges_error (deps : Deps) (d : DocTree) (rawChanges : List RawChange)
    (e : TreeError) (h : (AddRawChanges deps d rawChanges).2 = .error e) :
    (AddRawChanges deps d rawChanges).1.treeStorage = d.treeStorage ∧
    (∀ t e', d.tree = some t → newChanges deps t rawChanges = .error e' →
      AddRawChanges deps d rawChanges = (d, .error e')) ∧
    (∀ t news, d.tree = some t → newChanges deps t rawChanges = .ok news →
      news.any (isOldSnapshot t news ·.2) →
      (AddRawChanges deps d rawChanges).1.tree = (rebuildFromStorage deps d []).1.tree) := by
  have hfst := AddRawChanges_fst_of_error h
  refine ⟨by rw [hfst, addRawChanges_treeStorage], fun t e' ht hnews => ?_,
    fun t news ht hnews hold => ?_⟩
  · simp only [AddRawChanges, addRawChanges, ht, hnews]
  · rw [hfst]
    rcases addRawChanges_rebuild ht hnews hold with ⟨e', he'⟩ | ⟨t', r, ht', hr, -⟩
    · rw [he']
    · obtain ⟨l, hl⟩ := AddRawChanges_ok (Prod.ext rfl hr) ht'
      rw [hl] at h
      cases h

/-! ### A sample tree -/

/-- A verifier that accepts every signature and reads the payload's fields. -/
def sampleVerify (raw : RawChange) : Except TreeError Change :=
  match raw.payload with
  | none => .error .unmarshal
  | some p => .ok ⟨raw.id, p.treeHeadIds, p.snapshotBaseId, p.isSnapshot⟩

/-- Collaborators for concrete runs: the sample verifier, the builder over it, and a validator
accepting the trees `valid` accepts. -/
def Deps.sample (valid : Tree → Bool) : Deps where
  newVerifiedChangeFromRaw := sampleVerify
  build := ObjectTree.build sampleVerify
  validateTree t := if valid t then .ok () else .error .validation

/-- A raw change with the given id, parents, snapshot and snapshot flag. -/
def sampleRaw (id : String) (prevIds : List String) (snapshotId : String) (isSnapshot : Bool) :
    RawChange :=
  ⟨some ⟨prevIds, snapshotId, isSnapshot⟩, "", id⟩

/-- A storage holding the root snapshot `r` alone. -/
def rootStorage : TreeStorage :=
  ⟨(∅ : GoMap String RawChange).insert "r" (sampleRaw "r" [] "" true), ["r"]⟩

/-- The object tree `BuildDocTree` makes of it. -/
def rootDocTree : DocTree := ⟨rootStorage, some (Tree.ofRoot ⟨"r", [], "", true⟩), false⟩

/-- Collaborators whose validator accepts every tree. -/
def acceptAll : Deps := Deps.sample fun _ => true

/-- Collaborators whose validator rejects every tree holding `x`. -/
def rejectX : Deps := Deps.sample fun t => !t.hasChange "x"

/-- A change `u` waits for its parent `p`; a batch descending from an old snapshot is rejected on
the rebuild path, and `u` is gone from the tree. -/
theorem rebuild_failure_drops_unattached :
    ∃ d r d', AddRawChanges rejectX rootDocTree [sampleRaw "u" ["p"] "r" false] = (d, .ok r) ∧
      d.tree.map (·.hasChange "u") = some true ∧
      AddRawChanges rejectX d [sampleRaw "x" ["r"] "old" false] = (d', .error .validation) ∧
      d'.tree.map (·.hasChange "u") = some false :=
  ⟨_, _, _, rfl, rfl, rfl, rfl⟩

/-- The tree holding `u`, unattached. -/
def waitingDocTree : DocTree := (AddRawChanges rejectX rootDocTree [sampleRaw "u" ["p"] "r" false]).1

theorem AddRawChanges_error_sample :
    (AddRawChanges rejectX waitingDocTree [sampleRaw "x" ["r"] "old" false]).2 = .error .validation ∧
    ((AddRawChanges rejectX waitingDocTree [sampleRaw "x" ["r"] "old" false]).1.treeStorage =
      waitingDocTree.treeStorage ∧
    (∀ t e', waitingDocTree.tree = some t →
      newChanges rejectX t [sampleRaw "x" ["r"] "old" false] = .error e' →
      AddRawChanges rejectX waitingDocTree [sampleRaw "x" ["r"] "old" false] =
        (waitingDocTree, .error e')) ∧
    (∀ t news, waitingDocTree.tree = some t →
      newChanges rejectX t [sampleRaw "x" ["r"] "old" false] = .ok news →
      news.any (isOldSnapshot t news ·.2) →
      (AddRawChanges rejectX waitingDocTree [sampleRaw "x" ["r"] "old" false]).1.tree =
        (rebuildFromStorage rejectX waitingDocTree []).1.tree)) :=
  ⟨rfl, AddRawChanges_error rejectX waitingDocTree _ .validation rfl⟩

/-- `c2`, drained by its parent's batch, becomes the stored head without being stored, so the tree
no longer builds from storage. -/
theorem drained_change_not_stored :
    buildDocTree acceptAll rootStorage false = .ok rootDocTree ∧
    ∃ d₁ r₁ d₂ r₂,
      AddRawChanges acceptAll rootDocTree [sampleRaw "c2" ["c1"] "r" false] = (d₁, .ok r₁) ∧
      AddRawChanges acceptAll d₁ [sampleRaw "c1" ["r"] "r" false] = (d₂, .ok r₂) ∧
      d₂.tree.map (·.hasChange "c2") = some true ∧ d₂.treeStorage.heads = ["c2"] ∧
      "c2" ∉ d₂.treeStorage.changes ∧
      buildDocTree acceptAll d₂.treeStorage false = .error (.noSuchChange "c2") :=
  ⟨rfl, _, _, _, _, rfl, rfl, rfl, rfl, by decide, rfl⟩

/-- A batch with a snapshot compacts the tree; sent again, its dropped change is new to the tree
and takes the rebuild path. -/
theorem resent_snapshot_batch_rebuilds :
    ∃ d₁ r₁, AddRawChanges acceptAll rootDocTree
        [sampleRaw "c1" ["r"] "r" false, sampleRaw "s2" ["c1"] "r" true] = (d₁, .ok r₁) ∧
      (AddRawChanges acceptAll d₁
        [sampleRaw "c1" ["r"] "r" false, sampleRaw "s2" ["c1"] "r" true]).2 =
        .ok (⟨[], [], [sampleRaw "c1" ["r"] "r" false], .rebuild⟩, none) :=
  ⟨_, _, rfl, rfl⟩

/-- Whatever the tree builder, the batch sent again takes the rebuild path: it fails, or reports
*Rebuild*, never *Nothing*. -/
theorem resent_snapshot_batch_never_nothing
    (build : TreeStorage → List Change → Except TreeError Tree) :
    (∃ r₁, (AddRawChanges ⟨sampleVerify, build, acceptAll.validateTree⟩ rootDocTree
        [sampleRaw "c1" ["r"] "r" false, sampleRaw "s2" ["c1"] "r" true]).2 = .ok r₁) ∧
      ∀ r, (AddRawChanges ⟨sampleVerify, build, acceptAll.validateTree⟩
        (AddRawChanges ⟨sampleVerify, build, acceptAll.validateTree⟩ rootDocTree
          [sampleRaw "c1" ["r"] "r" false, sampleRaw "s2" ["c1"] "r" true]).1
        [sampleRaw "c1" ["r"] "r" false, sampleRaw "s2" ["c1"] "r" true]).2 = .ok r →
        r.1.summary = .rebuild := by
  refine ⟨⟨_, rfl⟩, fun r hr => ?_⟩
  rcases @addRawChanges_rebuild ⟨sampleVerify, build, acceptAll.validateTree⟩
      (AddRawChanges ⟨sampleVerify, build, acceptAll.validateTree⟩ rootDocTree
        [sampleRaw "c1" ["r"] "r" false, sampleRaw "s2" ["c1"] "r" true]).1
      [sampleRaw "c1" ["r"] "r" false, sampleRaw "s2" ["c1"] "r" true] _ _ rfl rfl rfl
    with ⟨e, he⟩ | ⟨t', r', ht', hr', hsum⟩
  · rw [AddRawChanges_of_error he] at hr
    cases hr
  · obtain ⟨l, hl⟩ := AddRawChanges_ok (Prod.ext rfl hr') ht'
    rw [hl] at hr
    cases hr
    exact hsum

/-- The sample tree with an update listener installed. -/
def listeningDocTree : DocTree := { rootDocTree with updateListener := true }

/-- Both the no-new-changes path (*Nothing*) and the rebuild path (*Rebuild*) report the zero
`Mode`, so they make the same listener call. -/
theorem listener_call_ignores_summary :
    ∃ d₁ r₁ r₂ r₃ call,
      AddRawChanges acceptAll listeningDocTree
        [sampleRaw "c1" ["r"] "r" false, sampleRaw "s2" ["c1"] "r" true] = (d₁, .ok r₁) ∧
      (AddRawChanges acceptAll d₁ [sampleRaw "s2" ["c1"] "r" true]).2 = .ok (r₂, call) ∧
      r₂.summary = .nothing ∧
      (AddRawChanges acceptAll d₁
        [sampleRaw "c1" ["r"] "r" false, sampleRaw "s2" ["c1"] "r" true]).2 = .ok (r₃, call) ∧
      r₃.summary = .rebuild :=
  ⟨_, _, _, _, _, rfl, rfl, rfl, rfl, rfl⟩

/-! ### The snapshot path -/

section SnapshotPath

variable {load : String → Except TreeError Change}

theorem snapshotWalk_eq_nil {fuel : ℕ} {id : String} :
    snapshotWalk load fuel id = some [] ↔ id = "" ∨ ∃ e, load id = .error e := by
  unfold snapshotWalk
  split_ifs with h
  · simp [h]
  · split
    · simp [*]
    · rename_i sn hsn
      cases fuel <;> simp [hsn, h]

theorem snapshotWalk_last {fuel : ℕ} {id : String} {p : List String}
    (h : snapshotWalk load fuel id = some p) (hp : p ≠ []) :
    p.getLast hp ≠ "" ∧ ∃ sn, load (p.getLast hp) = .ok sn ∧
      (sn.snapshotId = "" ∨ ∃ e, load sn.snapshotId = .error e) := by
  induction fuel, id using snapshotWalk.induct load generalizing p with
  | case1 => simp [snapshotWalk] at h; exact absurd h hp
  | case2 fuel id hid e he => simp [snapshotWalk, hid, he] at h; exact absurd h hp
  | case3 id hid sn hsn => simp [snapshotWalk, hid, hsn] at h
  | case4 id hid sn hsn fuel ih =>
    rw [snapshotWalk, if_neg hid, hsn] at h
    obtain ⟨q, hq, rfl⟩ := Option.map_eq_some'.1 h
    by_cases hq' : q = []
    · subst hq'
      exact ⟨hid, sn, hsn, snapshotWalk_eq_nil.1 hq⟩
    · rw [List.getLast_cons hq']
      exact ih hq hq'

theorem snapshotWalk_single {fuel : ℕ} {id : String} {sn : Change} (hid : id ≠ "")
    (hsn : load id = .ok sn) (hstop : sn.snapshotId = "" ∨ ∃ e, load sn.snapshotId = .error e) :
    snapshotWalk load (fuel + 1) id = some [id] := by
  rw [snapshotWalk, if_neg hid, hsn]
  simp [snapshotWalk_eq_nil.2 hstop]

theorem loadChange_nil_mem {parse : RawChange → Except TreeError Change} {storage : TreeStorage}
    {id : String} {c : Change} (h : loadChange parse storage [] id = .ok c) :
    id ∈ storage.changes := by
  unfold loadChange at h
  split at h
  · simp at *
  · split at h
    · cases h
    · exact AList.lookup_isSome.1 (by simp [*])

/-- **The memo goes stale when the root moves to the end of a longer path**: it passes for actual,
while the walk from the new root gives the root alone. -/
theorem SnapshotPath_memo_of_root_last {deps : Deps} {d d' : DocTree} {t' : Tree} {p : List String}
    (hp : SnapshotPath deps d [] = .ok (some p)) (hlen : 2 ≤ p.length) (ht' : d'.tree = some t')
    (hs : d'.treeStorage = d.treeStorage) (hroot : p.getLast? = some t'.root.id) :
    SnapshotPath deps d' p = .ok (some p) ∧ SnapshotPath deps d' [] = .ok (some [t'.root.id]) := by
  have hne : p ≠ [] := by rintro rfl; simp at hlen
  refine ⟨by simp [SnapshotPath, ht', snapshotPathIsActual, hroot, hne], ?_⟩
  unfold SnapshotPath at hp
  split at hp
  · cases hp
  · simp only [snapshotPathIsActual, List.length_nil, bne_self_eq_false, Bool.false_and,
      Bool.false_eq_true, if_false, Except.ok.injEq] at hp
    rw [List.getLast?_eq_getLast p hne, Option.some.injEq] at hroot
    obtain ⟨hid, sn, hsn, hstop⟩ := snapshotWalk_last hp hne
    rw [hroot] at hsn hid
    rw [← hs] at hsn hstop
    have hmem := loadChange_nil_mem hsn
    obtain ⟨n, hn⟩ : ∃ n, d'.treeStorage.changes.entries.length = n + 1 :=
      Nat.exists_eq_succ_of_ne_zero fun h0 => by
        simp [List.length_eq_zero.1 h0, AList.mem_keys, AList.keys] at hmem
    simp only [SnapshotPath, ht', snapshotPathIsActual, List.length_nil, bne_self_eq_false,
      Bool.false_and, Bool.false_eq_true, if_false, hn, snapshotWalk_single hid hsn hstop]

end SnapshotPath

/-- After the tree is rebuilt on the old root `r`, the memo `[s2, r]` passes for actual and is
returned, where the walk from `r` gives `[r]`. -/
theorem snapshotPath_stale :
    ∃ d₁ r₁ d₂ r₂,
      AddRawChanges acceptAll rootDocTree
        [sampleRaw "c1" ["r"] "r" false, sampleRaw "s2" ["c1"] "r" true] = (d₁, .ok r₁) ∧
      SnapshotPath acceptAll d₁ [] = .ok (some ["s2", "r"]) ∧
      AddRawChanges acceptAll d₁ [sampleRaw "x" ["c1"] "r" false] = (d₂, .ok r₂) ∧
      r₂.1.summary = .rebuild ∧ d₂.tree.map (·.root.id) = some "r" ∧
      SnapshotPath acceptAll d₂ ["s2", "r"] = .ok (some ["s2", "r"]) ∧
      SnapshotPath acceptAll d₂ [] = .ok (some ["r"]) :=
  ⟨_, _, _, _, rfl, rfl, rfl, rfl, rfl, rfl, rfl⟩

end ObjectTree

end AnySyncNode
