import AnySyncNode.ObjectTree.Ingest

/-!
# The snapshot chain

`SnapshotPath` (`doctree.go`) follows the `SnapshotId` links from the root through the tree
builder's `loadChange`, recording each id whose change loads, until an empty id or an id that does
not load.  The Go loop has no bound, and on a cycle of links it never returns.  `SnapshotChain` is
the path the loop records when it does end.

The model bounds the loop by one load per stored change and returns `none` when that runs out.
`SnapshotPath_chain` shows the bound is exact: when the memo is not actual, `SnapshotPath` returns
a path exactly when the chain from the root ends, that path is the chain, and `none` stands only
where no chain ends, that is, where the Go loop runs forever.  The key fact is that a chain that
ends repeats no id (`SnapshotChain.nodup`): the links are a function, so a repeated id would start
the same chain twice, once inside the other.  So every path `SnapshotPath` returns is a list of
distinct stored changes from the root (`SnapshotPath_nodup`).

The same fact says what the memo is worth.  `snapshotPathIsActual` compares the memo's last id
with the root, but the path is recorded from the root on, so a computed path is reused only when
it is the root alone (`SnapshotPath_memo_reused`); any longer path is walked again at every call.
-/

namespace AnySyncNode

namespace ObjectTree

/-- The path the loop of `SnapshotPath` records from `id` when it ends. -/
inductive SnapshotChain (load : String → Except TreeError Change) : String → List String → Prop
  /-- The loop stops at the empty id. -/
  | empty : SnapshotChain load "" []
  /-- It stops at an id that does not load. -/
  | error {id : String} {e : TreeError} : id ≠ "" → load id = .error e → SnapshotChain load id []
  /-- It records an id that loads and goes on from that change's snapshot id. -/
  | cons {id : String} {sn : Change} {p : List String} : id ≠ "" → load id = .ok sn →
      SnapshotChain load sn.snapshotId p → SnapshotChain load id (id :: p)

namespace SnapshotChain

variable {load : String → Except TreeError Change} {id : String} {p q : List String}

theorem unique (h : SnapshotChain load id p) (h' : SnapshotChain load id q) : p = q := by
  induction h generalizing q with
  | empty => cases h' <;> trivial
  | error hid he =>
    cases h' with
    | empty => rfl
    | error => rfl
    | cons _ he' => cases he.symm.trans he'
  | cons hid hsn _ ih =>
    cases h' with
    | empty => exact absurd rfl hid
    | error _ he => cases hsn.symm.trans he
    | cons _ hsn' h' =>
      cases hsn.symm.trans hsn'
      rw [ih h']

theorem of_append {s : List String} {x : String} (h : SnapshotChain load id (s ++ x :: q)) :
    SnapshotChain load x (x :: q) := by
  induction s generalizing id with
  | nil => cases h; exact .cons ‹_› ‹_› ‹_›
  | cons a s ih => cases h; exact ih ‹_›

/-- **A chain that ends repeats no id.** -/
theorem nodup (h : SnapshotChain load id p) : p.Nodup := by
  induction h with
  | empty => exact .nil
  | error => exact .nil
  | @cons id sn p hid hsn hp ih =>
    refine .cons (fun hx => ?_) ih
    obtain ⟨s, t, rfl⟩ := List.append_of_mem hx
    have := congrArg List.length ((cons hid hsn hp).unique hp.of_append)
    simp only [List.length_cons, List.length_append] at this
    omega

end SnapshotChain

section Walk

variable {load : String → Except TreeError Change}

theorem snapshotWalk_chain {fuel : ℕ} {id : String} {p : List String}
    (h : snapshotWalk load fuel id = some p) : SnapshotChain load id p := by
  induction fuel, id using snapshotWalk.induct load generalizing p with
  | case1 => simp [snapshotWalk] at h; exact h ▸ .empty
  | case2 fuel id hid e he => simp [snapshotWalk, hid, he] at h; exact h ▸ .error hid he
  | case3 id hid sn hsn => simp [snapshotWalk, hid, hsn] at h
  | case4 id hid sn hsn fuel ih =>
    rw [snapshotWalk, if_neg hid, hsn] at h
    obtain ⟨q, hq, rfl⟩ := Option.map_eq_some'.1 h
    exact .cons hid hsn (ih hq)

theorem snapshotWalk_of_chain {id : String} {p : List String} (h : SnapshotChain load id p)
    {fuel : ℕ} (hfuel : p.length ≤ fuel) : snapshotWalk load fuel id = some p := by
  induction h generalizing fuel with
  | empty => simp [snapshotWalk]
  | error hid he => simp [snapshotWalk, hid, he]
  | cons hid hsn _ ih =>
    cases fuel with
    | zero => simp at hfuel
    | succ fuel => rw [snapshotWalk, if_neg hid, hsn]; simp [ih (by simpa using hfuel)]

end Walk

theorem SnapshotChain.mem_changes {parse : RawChange → Except TreeError Change}
    {storage : TreeStorage} {id : String} {p : List String}
    (h : SnapshotChain (loadChange parse storage []) id p) : ∀ x ∈ p, x ∈ storage.changes := by
  induction h with
  | empty => simp
  | error => simp
  | cons _ hsn _ ih =>
    rintro x (_ | ⟨_, hx⟩)
    exacts [loadChange_nil_mem hsn, ih x hx]

theorem SnapshotChain.length_le {parse : RawChange → Except TreeError Change}
    {storage : TreeStorage} {id : String} {p : List String}
    (h : SnapshotChain (loadChange parse storage []) id p) :
    p.length ≤ storage.changes.entries.length := by
  have hsub := List.subperm_of_subset h.nodup fun x hx => AList.mem_keys.1 (h.mem_changes x hx)
  simpa [AList.keys, List.keys] using hsub.length_le

/-- The walk is adequate: without an actual memo, `SnapshotPath` returns a path exactly when the
snapshot chain from the root ends, and then that chain. -/
theorem SnapshotPath_chain {deps : Deps} {d : DocTree} {t : Tree} {snapshotPath : List String}
    (ht : d.tree = some t) (hact : snapshotPathIsActual snapshotPath t = false) :
    (∀ p, SnapshotPath deps d snapshotPath = .ok (some p) ↔
      SnapshotChain (loadChange deps.newVerifiedChangeFromRaw d.treeStorage []) t.root.id p) ∧
    (SnapshotPath deps d snapshotPath = .ok none ↔
      ∀ p, ¬ SnapshotChain (loadChange deps.newVerifiedChangeFromRaw d.treeStorage []) t.root.id p) := by
  have hsp : SnapshotPath deps d snapshotPath = .ok (snapshotWalk
      (loadChange deps.newVerifiedChangeFromRaw d.treeStorage []) d.treeStorage.changes.entries.length
      t.root.id) := by
    simp [SnapshotPath, ht, hact]
  have hsome : ∀ p, SnapshotPath deps d snapshotPath = .ok (some p) ↔
      SnapshotChain (loadChange deps.newVerifiedChangeFromRaw d.treeStorage []) t.root.id p :=
    fun p => by
      rw [hsp, Except.ok.injEq]
      exact ⟨snapshotWalk_chain, fun h => snapshotWalk_of_chain h h.length_le⟩
  refine ⟨hsome, ⟨fun h p hp => ?_, fun h => ?_⟩⟩
  · cases h.symm.trans ((hsome p).2 hp)
  · rw [hsp] at hsome ⊢
    rcases hw : snapshotWalk _ _ _ with _ | p
    · rfl
    · exact absurd ((hsome p).1 (by rw [hw])) (h p)

theorem SnapshotChain.eq_nil_or_head {load : String → Except TreeError Change} {id : String}
    {p : List String} (h : SnapshotChain load id p) : p = [] ∨ ∃ rest, p = id :: rest ∧ id ∉ rest := by
  cases h with
  | empty | error => exact .inl rfl
  | cons hid hsn hp => exact .inr ⟨_, rfl, (List.nodup_cons.1 (SnapshotChain.cons hid hsn hp).nodup).1⟩

/-- **A path `SnapshotPath` walks repeats no id.**  It is the chain from the root, starts at the
root, and holds distinct stored changes, so no more ids than the storage has changes. -/
theorem SnapshotPath_nodup {deps : Deps} {d : DocTree} {t : Tree} {snapshotPath p : List String}
    (ht : d.tree = some t) (hact : snapshotPathIsActual snapshotPath t = false)
    (hp : SnapshotPath deps d snapshotPath = .ok (some p)) :
    SnapshotChain (loadChange deps.newVerifiedChangeFromRaw d.treeStorage []) t.root.id p ∧
    p.Nodup ∧ (∀ x ∈ p, x ∈ d.treeStorage.changes) ∧
    p.length ≤ d.treeStorage.changes.entries.length ∧ (p = [] ∨ p.head? = some t.root.id) := by
  have hc := ((SnapshotPath_chain ht hact).1 p).1 hp
  refine ⟨hc, hc.nodup, hc.mem_changes, hc.length_le, ?_⟩
  rcases hc.eq_nil_or_head with rfl | ⟨rest, rfl, -⟩
  exacts [.inl rfl, .inr rfl]

theorem SnapshotPath_nodup_sample :
    rootDocTree.tree = some (Tree.ofRoot ⟨"r", [], "", true⟩) ∧
    snapshotPathIsActual [] (Tree.ofRoot ⟨"r", [], "", true⟩) = false ∧
    SnapshotPath acceptAll rootDocTree [] = .ok (some ["r"]) ∧
    (SnapshotChain (loadChange acceptAll.newVerifiedChangeFromRaw rootDocTree.treeStorage [])
        (Tree.ofRoot ⟨"r", [], "", true⟩).root.id ["r"] ∧
      ["r"].Nodup ∧ (∀ x ∈ ["r"], x ∈ rootDocTree.treeStorage.changes) ∧
      ["r"].length ≤ rootDocTree.treeStorage.changes.entries.length ∧
      (["r"] = [] ∨ ["r"].head? = some (Tree.ofRoot ⟨"r", [], "", true⟩).root.id)) :=
  ⟨rfl, rfl, rfl, @SnapshotPath_nodup acceptAll rootDocTree _ [] ["r"] rfl rfl rfl⟩

/-- **The memo of `SnapshotPath` is reused only for a path of one snapshot**; a path through an
older snapshot is walked again at every call. -/
theorem SnapshotPath_memo_reused {deps : Deps} {d : DocTree} {t : Tree} {snapshotPath p : List String}
    (ht : d.tree = some t) (hact : snapshotPathIsActual snapshotPath t = false)
    (hp : SnapshotPath deps d snapshotPath = .ok (some p)) :
    snapshotPathIsActual p t = true ↔ p = [t.root.id] := by
  simp only [SnapshotPath, ht, hact, Bool.false_eq_true, if_false, Except.ok.injEq] at hp
  rcases (snapshotWalk_chain hp).eq_nil_or_head with rfl | ⟨rest, rfl, hroot⟩
  · simp [snapshotPathIsActual]
  · rcases List.eq_nil_or_concat rest with rfl | ⟨init, last, rfl⟩
    · simp [snapshotPathIsActual]
    · have hlast : last ≠ t.root.id := by rintro rfl; exact hroot (by simp)
      simp [snapshotPathIsActual, hlast, List.getLast?_cons]

theorem SnapshotPath_memo_reused_sample :
    rootDocTree.tree = some (Tree.ofRoot ⟨"r", [], "", true⟩) ∧
    snapshotPathIsActual [] (Tree.ofRoot ⟨"r", [], "", true⟩) = false ∧
    SnapshotPath acceptAll rootDocTree [] = .ok (some ["r"]) ∧
    (snapshotPathIsActual ["r"] (Tree.ofRoot ⟨"r", [], "", true⟩) = true ↔
      ["r"] = [(Tree.ofRoot ⟨"r", [], "", true⟩).root.id]) :=
  ⟨rfl, rfl, rfl, @SnapshotPath_memo_reused acceptAll rootDocTree _ [] ["r"] rfl rfl rfl⟩

end ObjectTree

end AnySyncNode
