import AnySyncNode.ObjectTree.Ingest

/-!
# What reaches the storage

The storage of a `docTree` is the source of truth a node rebuilds its trees from.  `AddRawChanges`
writes it only at the end of a successful call: each raw change `addRawChanges` reports as added,
then the heads of the reduced tree.  `addRawChanges_ok_inv` says once what a successful
`addRawChanges` did on each of its paths, and the results below follow from it.

* `AddRawChanges_persists`: a successful call stores the changes it reports as added and the
  tree's heads; every change it adds came in the batch, was new to the tree, verifies, and is
  attached in the tree the validator accepted, which the call then reduces.  The result it returns
  never reports heads: `OldHeads` and `Heads` are copied into slices of length zero.
* `ingest_storageStep`: over any sequence of batches, failed calls included, no stored change is
  ever removed or replaced, and every change stored anew came in one of the batches, verifies, and
  was attached in a tree the validator accepted.
-/

namespace AnySyncNode

namespace ObjectTree

variable {deps : Deps} {d : DocTree} {rawChanges : List RawChange}

/-! ### The filter and the rebuild -/

theorem mem_newChanges {t : Tree} {news : List (RawChange × Change)}
    (h : newChanges deps t rawChanges = .ok news) {n : RawChange × Change} (hn : n ∈ news) :
    n.1 ∈ rawChanges ∧ t.hasChange n.1.id = false ∧ deps.newVerifiedChangeFromRaw n.1 = .ok n.2 := by
  induction rawChanges generalizing news with
  | nil => cases h; cases hn
  | cons ch rawChanges ih =>
    unfold newChanges at h
    split at h
    · exact (ih h hn).imp_left (.tail _)
    · rename_i hnew
      obtain ⟨change, hc, h⟩ := Except.bind_eq_ok.1 h
      obtain ⟨rest, hrest, h⟩ := Except.bind_eq_ok.1 h
      cases Except.pure_eq_ok.1 h
      rcases List.mem_cons.1 hn with rfl | hn
      · exact ⟨.head _, Bool.eq_false_iff.2 hnew, hc⟩
      · exact (ih hrest hn).imp_left (.tail _)

theorem rebuildFromStorage_ok {cs : List Change} {d' : DocTree}
    (h : rebuildFromStorage deps d cs = (d', .ok ())) :
    ∃ t, d'.tree = some t ∧ deps.validateTree t = .ok () := by
  unfold rebuildFromStorage at h
  split at h
  · cases h
  · obtain ⟨rfl, hv⟩ := Prod.mk.inj h
    exact ⟨_, rfl, hv⟩

@[simp] theorem copyInto_nil (src : List String) : copyInto [] src = [] := by
  simp [copyInto]

/-- **What a successful `addRawChanges` did**: it reports no heads, and either added nothing or
reports as added the new changes attached in a tree the validator accepted. -/
theorem addRawChanges_ok_inv {d' : DocTree} {mode : Mode} {r : AddResult}
    (h : addRawChanges deps d rawChanges = (d', .ok (mode, r))) :
    ∃ t news, d.tree = some t ∧ newChanges deps t rawChanges = .ok news ∧
      r.oldHeads = [] ∧ r.heads = [] ∧
      (r.added = [] ∨ ∃ t', d'.tree = some t' ∧ deps.validateTree t' = .ok () ∧
        r.added = getAddedChanges t' news) := by
  unfold addRawChanges at h
  split at h
  · cases h
  rename_i t ht
  split at h
  · cases h
  rename_i news hnews
  refine ⟨t, news, ht, hnews, ?_⟩
  split_ifs at h with hnil hold
  · cases h
    exact ⟨copyInto_nil _, copyInto_nil _, .inl rfl⟩
  · -- the rebuild path
    split at h
    · cases h
    rename_i d₁ hr
    split at h
    · cases h
    rename_i t₁ ht₁
    cases h
    obtain ⟨t₂, ht₂, hv⟩ := rebuildFromStorage_ok hr
    obtain rfl : t₂ = t₁ := Option.some.inj (ht₂.symm.trans ht₁)
    exact ⟨copyInto_nil _, copyInto_nil _, .inr ⟨t₂, ht₁, hv, rfl⟩⟩
  · -- the incremental path
    split at h
    rename_i t₁ mode₁ hadd
    split at h
    · cases h
      exact ⟨copyInto_nil _, copyInto_nil _, .inl rfl⟩
    · split at h
      · cases h
      · rename_i hv
        cases h
        exact ⟨copyInto_nil _, copyInto_nil _, .inr ⟨t₁, rfl, hv, rfl⟩⟩

/-! ### Storing the added changes -/

@[simp] theorem TreeStorage.setHeads_changes (s : TreeStorage) (heads : List String) :
    (s.setHeads heads).changes = s.changes := rfl

theorem lookup_foldl_addRawChange (s : TreeStorage) (added : List RawChange) (id : String) :
    (added.foldl TreeStorage.addRawChange s).changes.lookup id =
      (s.changes.lookup id).or (added.find? (·.id = id)) := by
  induction added generalizing s with
  | nil => simp
  | cons ch added ih =>
    rw [List.foldl_cons, ih, List.find?_cons]
    by_cases hid : ch.id = id
    · subst hid
      cases hl : s.changes.lookup ch.id <;>
        simp [TreeStorage.addRawChange, ← AList.lookup_isSome, hl]
    · by_cases hmem : ch.id ∈ s.changes <;>
        simp [TreeStorage.addRawChange, hmem, hid, AList.lookup_insert_ne (Ne.symm hid)]

/-- **The contract of `AddRawChanges`**: a success stores the new heads and every change it reports
as added, each of which came in the batch, verifies, and was attached in an accepted tree. -/
theorem AddRawChanges_persists (deps : Deps) (d : DocTree) (rawChanges : List RawChange)
    {d' : DocTree} {r : AddResult} {call : Option ListenerCall}
    (h : AddRawChanges deps d rawChanges = (d', .ok (r, call))) :
    r.oldHeads = [] ∧ r.heads = [] ∧
    ∃ t, d'.tree = some t ∧
      d'.treeStorage = (r.added.foldl TreeStorage.addRawChange d.treeStorage).setHeads t.headIds ∧
      (r.added = [] ∨ ∃ tv, deps.validateTree tv = .ok () ∧ t = tv.reduceTree ∧
        ∀ raw ∈ r.added, raw ∈ rawChanges ∧ raw.id ∈ tv.attached ∧
          (∃ c, deps.newVerifiedChangeFromRaw raw = .ok c) ∧
          ∀ t₀, d.tree = some t₀ → t₀.hasChange raw.id = false) := by
  rcases ha : addRawChanges deps d rawChanges with ⟨d₁, _ | ⟨mode, r₁⟩⟩
  · simp only [AddRawChanges, ha] at h
    cases h
  rcases ht₁ : d₁.tree with _ | t₁
  · simp only [AddRawChanges, ha, ht₁] at h
    cases h
  simp only [AddRawChanges, ha, ht₁, Prod.mk.injEq, Except.ok.injEq] at h
  obtain ⟨rfl, rfl, -⟩ := h
  obtain ⟨t₀, news, ht₀, hnews, hold, hheads, hadded⟩ := addRawChanges_ok_inv ha
  have hs : d₁.treeStorage = d.treeStorage := by rw [← addRawChanges_treeStorage deps d, ha]
  refine ⟨hold, hheads, _, rfl, by rw [hs], hadded.imp_right ?_⟩
  rintro ⟨tv, htv, hv, hr⟩
  obtain rfl : tv = t₁ := Option.some.inj (htv.symm.trans ht₁)
  refine ⟨tv, hv, rfl, fun raw hraw => ?_⟩
  rw [hr, getAddedChanges, List.mem_map] at hraw
  obtain ⟨n, hn, rfl⟩ := hraw
  obtain ⟨hn, hatt⟩ := List.mem_filter.1 hn
  obtain ⟨hin, hnew, hc⟩ := mem_newChanges hnews hn
  exact ⟨hin, of_decide_eq_true hatt, ⟨_, hc⟩, fun t ht => Option.some.inj (ht.symm.trans ht₀) ▸ hnew⟩

theorem AddRawChanges_persists_sample : ∃ d' r call,
    AddRawChanges acceptAll rootDocTree [sampleRaw "c1" ["r"] "r" false] = (d', .ok (r, call)) ∧
    r.added = [sampleRaw "c1" ["r"] "r" false] ∧
    (r.oldHeads = [] ∧ r.heads = [] ∧
    ∃ t, d'.tree = some t ∧
      d'.treeStorage = (r.added.foldl TreeStorage.addRawChange rootDocTree.treeStorage).setHeads
        t.headIds ∧
      (r.added = [] ∨ ∃ tv, acceptAll.validateTree tv = .ok () ∧ t = tv.reduceTree ∧
        ∀ raw ∈ r.added, raw ∈ [sampleRaw "c1" ["r"] "r" false] ∧ raw.id ∈ tv.attached ∧
          (∃ c, acceptAll.newVerifiedChangeFromRaw raw = .ok c) ∧
          ∀ t₀, rootDocTree.tree = some t₀ → t₀.hasChange raw.id = false)) :=
  ⟨_, _, _, rfl, rfl, AddRawChanges_persists acceptAll rootDocTree _ rfl⟩

/-! ### Runs -/

/-- Batches passed to `AddRawChanges` one after the other; a failed call leaves the state it
leaves, and the next batch goes to that state. -/
def ingest (deps : Deps) (d : DocTree) : List (List RawChange) → DocTree
  | [] => d
  | rawChanges :: batches => ingest deps (AddRawChanges deps d rawChanges).1 batches

/-- What the storage may go through while the batches `batches` are ingested: every stored change
stays, and every change stored anew is stored under its own id, came in one of the batches,
verifies, and was attached in a tree the validator accepted. -/
structure StorageStep (deps : Deps) (batches : List (List RawChange)) (s s' : TreeStorage) :
    Prop where
  keeps : ∀ id raw, s.changes.lookup id = some raw → s'.changes.lookup id = some raw
  adds : ∀ id raw, s'.changes.lookup id = some raw → s.changes.lookup id = none →
    raw.id = id ∧ (∃ rawChanges ∈ batches, raw ∈ rawChanges) ∧
      (∃ c, deps.newVerifiedChangeFromRaw raw = .ok c) ∧
      ∃ t, deps.validateTree t = .ok () ∧ raw.id ∈ t.attached

theorem StorageStep.refl (deps : Deps) (s : TreeStorage) : StorageStep deps [] s s :=
  ⟨fun _ _ h => h, fun _ _ h h' => by simp [h'] at h⟩

theorem StorageStep.trans {batches batches' : List (List RawChange)} {s s' s'' : TreeStorage}
    (h : StorageStep deps batches s s') (h' : StorageStep deps batches' s' s'') :
    StorageStep deps (batches ++ batches') s s'' := by
  refine ⟨fun id raw hs => h'.keeps id raw (h.keeps id raw hs), fun id raw hs'' hs => ?_⟩
  rcases hs' : s'.changes.lookup id with _ | raw'
  · obtain ⟨hid, ⟨b, hb, hraw⟩, hrest⟩ := h'.adds id raw hs'' hs'
    exact ⟨hid, ⟨b, List.mem_append_right _ hb, hraw⟩, hrest⟩
  · obtain rfl : raw' = raw := Option.some.inj ((h'.keeps id raw' hs').symm.trans hs'')
    obtain ⟨hid, ⟨b, hb, hraw⟩, hrest⟩ := h.adds id raw' hs' hs
    exact ⟨hid, ⟨b, List.mem_append_left _ hb, hraw⟩, hrest⟩

/-- One call of `AddRawChanges`, failed or not, is a storage step of its batch. -/
theorem AddRawChanges_storageStep (deps : Deps) (d : DocTree) (rawChanges : List RawChange) :
    StorageStep deps [rawChanges] d.treeStorage (AddRawChanges deps d rawChanges).1.treeStorage := by
  rcases h : AddRawChanges deps d rawChanges with ⟨d', _ | ⟨r, call⟩⟩
  · have hs := (AddRawChanges_error deps d rawChanges _ (congrArg Prod.snd h)).1
    rw [h] at hs
    exact ⟨fun _ _ h => hs ▸ h, fun _ _ h₁ h₂ => by rw [hs, h₂] at h₁; cases h₁⟩
  obtain ⟨-, -, t, -, hs, hadded⟩ := AddRawChanges_persists deps d rawChanges h
  refine ⟨fun id raw hraw => ?_, fun id raw hraw hnone => ?_⟩
  · simp [hs, lookup_foldl_addRawChange, hraw]
  simp only [hs, TreeStorage.setHeads_changes, lookup_foldl_addRawChange, hnone,
    Option.none_or] at hraw
  obtain ⟨hmem, hid⟩ : raw ∈ r.added ∧ raw.id = id :=
    ⟨List.mem_of_find?_eq_some hraw, by simpa using List.find?_some hraw⟩
  rcases hadded with hnil | ⟨tv, hv, -, hall⟩
  · rw [hnil] at hmem; cases hmem
  obtain ⟨hin, hatt, hc, -⟩ := hall raw hmem
  exact ⟨hid, ⟨rawChanges, .head _, hin⟩, hc, tv, hv, hatt⟩

/-- **No stored change is lost, and only checked changes are stored**, over any sequence of batches,
failed calls included. -/
theorem ingest_storageStep (deps : Deps) (d : DocTree) (batches : List (List RawChange)) :
    StorageStep deps batches d.treeStorage (ingest deps d batches).treeStorage := by
  induction batches generalizing d with
  | nil => exact .refl deps _
  | cons rawChanges batches ih =>
    exact (AddRawChanges_storageStep deps d rawChanges).trans (ih _)

end ObjectTree

end AnySyncNode
