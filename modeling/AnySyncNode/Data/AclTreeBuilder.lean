import AnySyncNode.Basic

/-!
# The ACL tree builder

`ACLTreeBuilder` (`data/acltreebuilder.go`) builds the ACL tree of a thread: `dfsFromStart` walks
from the thread's heads through the previous ids of the changes it loads, and collects every
change it loads once (`buf`) and those without previous ids (`possibleRoots`).  The walk keeps a
stack that can grow with ids it has already visited or cannot load, so that on a thread with
cycles, self-references or dangling ids its termination is not obvious.

The Go loop has no bound.  `dfsLoop` takes a fuel and returns `none` when it runs out;
`dfsFromStart` gives it one turn for each head and for each previous id of each change that loads
(`dfsFuel`), and `dfsFromStart_spec` proves that this is enough: the walk always returns, with
each loaded change once, exactly the changes reached from the heads, and the parentless ones
among them as possible roots.  The proof follows the loop: `DfsInv` is what a turn keeps
(`DfsInv.step`), and `pendingTurns`, the ids on the stack and the previous ids of the changes not
yet loaded, drops by one at every turn (`pendingTurns_step`).

`buildTreeFromStart` gives the tree the changes of the walk and, as its root, the first possible
root whose author signed the thread id (`getRoot`); `buildTreeFromStart_spec` says what that
means for the thread: it fails for want of a root exactly when every reached change has previous
ids.

`loadChange` is deterministic: its cache and the identity key cache only remember what the same
call computed before, so they are left out.  The thread, the protobuf decoder and the signing
keys are not part of `src/`; they are parameters (`Thread`, `Codec`).
-/

namespace AnySyncNode

namespace Data

/-- The fields of a `pb.ACLChange` that the builder reads: the author's identity, and the tree
heads, which become the change's previous ids. -/
structure ACLChangePayload where
  identity : String
  treeHeadIds : List String
  deriving DecidableEq, Repr

/-- A change as `thread.GetChange` returns it: the payload bytes and their signature. -/
structure ThreadChange where
  payload : String
  signature : String
  deriving DecidableEq, Repr

/-- The part of `threadmodels.Thread` the builder reads: its id, the changes by id and the
heads. -/
structure Thread where
  id : String
  changes : GoMap String ThreadChange
  heads : List String

/-- What the builder calls outside this file: `proto.Unmarshal` into an `ACLChange` (`none` for
bytes that do not unmarshal), the identity decoder `DecodeFromString`, `Verify(payload,
signature)` of a decoded key, `thread.Decode` of the thread id, and
`threadmodels.VerifyACLThreadID` of a decoded key and a thread id. -/
structure Codec where
  unmarshal : String → Option ACLChangePayload
  decodeFromString : String → Except String String
  verify : String → String → String → Except String Bool
  decodeThreadId : String → Except String String
  verifyACLThreadID : String → String → Except String Bool

/-- `Change`, with the fields the builder reads. -/
structure Change where
  id : String
  previousIds : List String
  content : ACLChangePayload
  deriving DecidableEq, Repr

/-- `NewACLChange`, whose source is not in `src/`: the change of `id`, with the payload's tree
heads as its previous ids.  It is taken to succeed; `loadChange` drops its error. -/
def newACLChange (id : String) (aclChange : ACLChangePayload) : Change :=
  ⟨id, aclChange.treeHeadIds, aclChange⟩

/-- The errors of `loadChange`. -/
inductive LoadError
  /-- `thread.GetChange` holds no change of this id. -/
  | getChange (id : String)
  /-- `proto.Unmarshal` rejects the payload. -/
  | unmarshal
  /-- The identity does not decode, or `Verify` fails. -/
  | verify (err : String)
  /-- "the signature of the payload cannot be verified" -/
  | notVerified
  deriving DecidableEq, Repr

/-- `ACLTreeBuilder.verify`: decode the identity's key, then verify the payload's signature. -/
def verify (codec : Codec) (identity payload signature : String) : Except String Bool := do
  let identityKey ← codec.decodeFromString identity
  codec.verify identityKey payload signature

/-- `ACLTreeBuilder.loadChange`: get the change, unmarshal it, verify its signature and make it a
`Change`. -/
def loadChange (codec : Codec) (thread : Thread) (id : String) : Except LoadError Change :=
  match thread.changes.lookup id with
  | none => .error (.getChange id)
  | some change =>
    match codec.unmarshal change.payload with
    | none => .error .unmarshal
    | some aclChange =>
      match verify codec aclChange.identity change.payload change.signature with
      | .error err => .error (.verify err)
      | .ok false => .error .notVerified
      | .ok true => .ok (newACLChange id aclChange)

theorem loadChange_id {codec : Codec} {thread : Thread} {id : String} {ch : Change}
    (h : loadChange codec thread id = .ok ch) : ch.id = id := by
  unfold loadChange at h
  split at h
  · cases h
  · split at h
    · cases h
    · split at h <;> cases h
      rfl

theorem loadChange_mem {codec : Codec} {thread : Thread} {id : String} {ch : Change}
    (h : loadChange codec thread id = .ok ch) : id ∈ thread.changes.keys := by
  unfold loadChange at h
  split at h
  · cases h
  · rename_i change hchange
    exact AList.mem_keys.1 (AList.lookup_isSome.1 (by simp [hchange]))

/-! ### The walk -/

/-- The locals of `dfsFromStart`: the stack, top first, the ids of `uniqMap`, `buf` and
`possibleRoots`. -/
structure DfsState where
  stack : List String
  uniqMap : List String
  buf : List Change
  possibleRoots : List Change

/-- One turn of the loop of `dfsFromStart` on the id `id` popped from the stack: skip it when
visited or when it does not load, else mark it, keep its change, push its previous ids, and keep
the change as a possible root when it has none. -/
def dfsStep (load : String → Except LoadError Change) (id : String) (s : DfsState) : DfsState :=
  if id ∈ s.uniqMap then s
  else
    match load id with
    | .error _ => s
    | .ok ch =>
      ⟨ch.previousIds.reverse ++ s.stack, id :: s.uniqMap, s.buf ++ [ch],
        if ch.previousIds.isEmpty then s.possibleRoots ++ [ch] else s.possibleRoots⟩

/-- The loop of `dfsFromStart`, for at most `fuel` turns: `buf` and `possibleRoots` once the stack
is empty, `none` when the fuel runs out first. -/
def dfsLoop (load : String → Except LoadError Change) : ℕ → DfsState →
    Option (List Change × List Change)
  | fuel, s =>
    match s.stack with
    | [] => some (s.buf, s.possibleRoots)
    | id :: stack =>
      match fuel with
      | 0 => none
      | fuel + 1 => dfsLoop load fuel (dfsStep load id { s with stack })

/-- The number of previous ids of the change of `id`, `0` when it does not load. -/
def prevsLen (load : String → Except LoadError Change) (id : String) : ℕ :=
  match load id with
  | .ok ch => ch.previousIds.length
  | .error _ => 0

/-- One turn for each head and for each previous id of each change of the thread that loads. -/
def dfsFuel (codec : Codec) (thread : Thread) (heads : List String) : ℕ :=
  heads.length + thread.changes.keys.foldr (fun k n => prevsLen (loadChange codec thread) k + n) 0

/-- `dfsFromStart`: the Go slice `stack` has its top last. -/
def dfsFromStart (codec : Codec) (thread : Thread) (stack : List String) :
    Option (List Change × List Change) :=
  dfsLoop (loadChange codec thread) (dfsFuel codec thread stack) ⟨stack.reverse, [], [], []⟩

/-- The ids reached from `heads` through the previous ids of changes that load, each loading
itself. -/
inductive Reached (load : String → Except LoadError Change) (heads : List String) : String → Prop
  | head {id : String} {ch : Change} : id ∈ heads → load id = .ok ch → Reached load heads id
  | prev {id p : String} {ch ch' : Change} : Reached load heads id → load id = .ok ch →
      p ∈ ch.previousIds → load p = .ok ch' → Reached load heads p

section Loop

variable {load : String → Except LoadError Change} {heads : List String}

/-- What a turn of `dfsFromStart` keeps: `uniqMap` holds the ids of `buf`, each once, each with
the change it loads, each reached from the heads; every id on the stack is a head or a previous
id of a kept change; every such id that loads is visited or still on the stack; and the possible
roots are the kept changes without previous ids. -/
structure DfsInv (load : String → Except LoadError Change) (heads : List String) (s : DfsState) :
    Prop where
  uniqMap_iff : ∀ id, id ∈ s.uniqMap ↔ id ∈ s.buf.map (·.id)
  nodup : (s.buf.map (·.id)).Nodup
  loaded : ∀ ch ∈ s.buf, load ch.id = .ok ch
  reached : ∀ ch ∈ s.buf, Reached load heads ch.id
  stack_from : ∀ id ∈ s.stack, id ∈ heads ∨ ∃ ch ∈ s.buf, id ∈ ch.previousIds
  covered : ∀ id, (id ∈ heads ∨ ∃ ch ∈ s.buf, id ∈ ch.previousIds) → (∃ ch, load id = .ok ch) →
    id ∈ s.uniqMap ∨ id ∈ s.stack
  possibleRoots : s.possibleRoots = s.buf.filter (·.previousIds.isEmpty)

theorem DfsInv.init : DfsInv load heads ⟨heads.reverse, [], [], []⟩ where
  uniqMap_iff _ := by simp
  nodup := .nil
  loaded _ h := nomatch h
  reached _ h := nomatch h
  stack_from _ h := .inl (List.mem_reverse.1 h)
  covered _ h _ := .inr (List.mem_reverse.2 (h.resolve_right fun ⟨_, h, _⟩ => nomatch h))
  possibleRoots := rfl

theorem DfsInv.pop {s : DfsState} {id : String} {stack : List String} (hs : s.stack = id :: stack)
    (hid : id ∈ s.uniqMap ∨ ∀ ch, load id ≠ .ok ch) (hinv : DfsInv load heads s) :
    DfsInv load heads { s with stack } where
  uniqMap_iff := hinv.uniqMap_iff
  nodup := hinv.nodup
  loaded := hinv.loaded
  reached := hinv.reached
  stack_from id' h := hinv.stack_from id' (hs ▸ .tail _ h)
  covered id' h hl := by
    rcases hinv.covered id' h hl with hu | hst
    · exact .inl hu
    · rw [hs] at hst
      rcases List.mem_cons.1 hst with rfl | hst
      · exact .inl (hid.resolve_right fun hn => hl.elim fun ch hch => hn ch hch)
      · exact .inr hst
  possibleRoots := hinv.possibleRoots

theorem DfsInv.visit (hid : ∀ id ch, load id = .ok ch → ch.id = id) {s : DfsState} {id : String}
    {stack : List String} {ch : Change} (hs : s.stack = id :: stack) (hu : id ∉ s.uniqMap)
    (hch : load id = .ok ch) (hinv : DfsInv load heads s) :
    DfsInv load heads ⟨ch.previousIds.reverse ++ stack, id :: s.uniqMap, s.buf ++ [ch],
      if ch.previousIds.isEmpty then s.possibleRoots ++ [ch] else s.possibleRoots⟩ := by
  obtain rfl := hid id ch hch
  have hmem : ∀ {c}, c ∈ s.buf ++ [ch] ↔ c ∈ s.buf ∨ c = ch := by simp
  refine ⟨fun id' => ?_, ?_, fun c hc => ?_, fun c hc => ?_, fun id' h => ?_, fun id' h hl => ?_,
    ?_⟩
  · simp [hinv.uniqMap_iff, or_comm, eq_comm]
  · simpa [List.nodup_append, ← hinv.uniqMap_iff] using ⟨hinv.nodup, hu⟩
  · rcases hmem.1 hc with hc | rfl
    exacts [hinv.loaded c hc, hch]
  · rcases hmem.1 hc with hc | rfl
    · exact hinv.reached c hc
    · rcases hinv.stack_from c.id (hs ▸ .head _) with hh | ⟨c', hc', hp⟩
      · exact .head hh hch
      · exact .prev (hinv.reached c' hc') (hinv.loaded c' hc') hp hch
  · rcases List.mem_append.1 h with h | h
    · exact .inr ⟨ch, hmem.2 (.inr rfl), List.mem_reverse.1 h⟩
    · exact (hinv.stack_from id' (hs ▸ .tail _ h)).imp_right
        fun ⟨c, hc, hp⟩ => ⟨c, hmem.2 (.inl hc), hp⟩
  · -- A previous id of `ch` is pushed; any other id is covered as before.
    have hold : id' ∈ ch.previousIds ∨ id' ∈ heads ∨ ∃ c ∈ s.buf, id' ∈ c.previousIds := by
      rcases h with hh | ⟨c, hc, hp⟩
      · exact .inr (.inl hh)
      · rcases hmem.1 hc with hc | rfl
        exacts [.inr (.inr ⟨c, hc, hp⟩), .inl hp]
    rcases hold with hp | hold
    · exact .inr (List.mem_append_left _ (List.mem_reverse.2 hp))
    rcases hinv.covered id' hold hl with hu' | hst
    · exact .inl (.tail _ hu')
    · rw [hs] at hst
      rcases List.mem_cons.1 hst with rfl | hst
      exacts [.inl (.head _), .inr (List.mem_append_right _ hst)]
  · rw [hinv.possibleRoots, List.filter_append]
    split_ifs with he <;> simp [he]

theorem DfsInv.step (hid : ∀ id ch, load id = .ok ch → ch.id = id) {s : DfsState} {id : String}
    {stack : List String} (hs : s.stack = id :: stack) (hinv : DfsInv load heads s) :
    DfsInv load heads (dfsStep load id { s with stack }) := by
  unfold dfsStep
  split_ifs with hu
  · exact hinv.pop hs (.inl hu)
  · split
    · rename_i e he
      exact hinv.pop hs (.inr fun ch h => by simp [h] at he)
    · rename_i ch hch
      exact DfsInv.visit (s := s) hid hs hu hch hinv

/-- The previous ids of the changes of `keys` that load and are not visited. -/
def pendingPrevs (load : String → Except LoadError Change) (keys uniqMap : List String) : ℕ :=
  keys.foldr (fun k n => (if k ∈ uniqMap then 0 else prevsLen load k) + n) 0

theorem pendingPrevs_visit {keys uniqMap : List String} {id : String} (hnd : keys.Nodup)
    (hk : id ∈ keys) (hu : id ∉ uniqMap) :
    pendingPrevs load keys (id :: uniqMap) + prevsLen load id = pendingPrevs load keys uniqMap := by
  induction keys with
  | nil => cases hk
  | cons k ks ih =>
    obtain ⟨hkks, hnd⟩ := List.nodup_cons.1 hnd
    by_cases hki : k = id
    · subst hki
      have hrest : ks.foldr (fun k' n => (if k' ∈ k :: uniqMap then 0 else prevsLen load k') + n) 0 =
          ks.foldr (fun k' n => (if k' ∈ uniqMap then 0 else prevsLen load k') + n) 0 := by
        refine List.foldr_ext _ _ _ fun k' hk' n => ?_
        simp [show k' ≠ k from fun h => hkks (h ▸ hk')]
      simp only [pendingPrevs, List.foldr_cons, List.mem_cons_self, if_true, hu, if_false, hrest]
      omega
    · have := ih hnd ((List.mem_cons.1 hk).resolve_left (Ne.symm hki))
      simp only [pendingPrevs, List.foldr_cons, List.mem_cons, hki, false_or] at this ⊢
      omega

/-- The turns left: one for each id on the stack, and one for each previous id of each change of
`keys` not yet visited. -/
def pendingTurns (load : String → Except LoadError Change) (keys : List String) (s : DfsState) :
    ℕ :=
  s.stack.length + pendingPrevs load keys s.uniqMap

theorem pendingTurns_step {keys : List String} (hnd : keys.Nodup)
    (hkeys : ∀ id ch, load id = .ok ch → id ∈ keys) {s : DfsState} {id : String}
    {stack : List String} (hs : s.stack = id :: stack) :
    pendingTurns load keys (dfsStep load id { s with stack }) + 1 = pendingTurns load keys s := by
  unfold dfsStep pendingTurns
  rw [hs]
  split_ifs with hu
  · simp only [List.length_cons]
    omega
  · split
    · simp only [List.length_cons]
      omega
    · rename_i ch hch
      have hv := @pendingPrevs_visit load _ _ _ hnd (hkeys id ch hch) hu
      simp only [prevsLen, hch] at hv
      simp only [List.length_append, List.length_reverse, List.length_cons]
      omega

/-- **The loop returns** when its fuel covers the turns left, and the invariant holds with an
empty stack. -/
theorem dfsLoop_spec (hid : ∀ id ch, load id = .ok ch → ch.id = id) {keys : List String}
    (hnd : keys.Nodup) (hkeys : ∀ id ch, load id = .ok ch → id ∈ keys) (fuel : ℕ) (s : DfsState)
    (hinv : DfsInv load heads s) (hfuel : pendingTurns load keys s ≤ fuel) :
    ∃ s', s'.stack = [] ∧ DfsInv load heads s' ∧ dfsLoop load fuel s = some (s'.buf, s'.possibleRoots) := by
  induction fuel, s using dfsLoop.induct load with
  | case1 fuel s hs => exact ⟨s, hs, hinv, by rw [dfsLoop, hs]⟩
  | case2 s id stack hs => simp [pendingTurns, hs] at hfuel
  | case3 s id stack hs fuel ih =>
    have hstep := pendingTurns_step hnd hkeys hs
    obtain ⟨s', hs', hinv', h⟩ := ih (hinv.step hid hs) (by omega)
    exact ⟨s', hs', hinv', by rw [dfsLoop, hs]; exact h⟩

theorem DfsInv.complete {s : DfsState} (hinv : DfsInv load heads s) (hs : s.stack = [])
    {id : String} (h : Reached load heads id) : id ∈ s.buf.map (·.id) := by
  have hvisited : ∀ id, (id ∈ heads ∨ ∃ ch ∈ s.buf, id ∈ ch.previousIds) →
      (∃ ch, load id = .ok ch) → id ∈ s.buf.map (·.id) := fun id h hl =>
    (hinv.uniqMap_iff id).1 ((hinv.covered id h hl).resolve_right (by simp [hs]))
  induction h with
  | head hh hl => exact hvisited _ (.inl hh) ⟨_, hl⟩
  | prev _ hl hp hl' ih =>
    obtain ⟨c, hc, rfl⟩ := List.mem_map.1 ih
    obtain rfl : c = _ := Except.ok.inj ((hinv.loaded c hc).symm.trans hl)
    exact hvisited _ (.inr ⟨c, hc, hp⟩) ⟨_, hl'⟩

end Loop

/-- **`dfsFromStart` returns the changes reached from the heads**, each once as `loadChange` gives
it, and as `possibleRoots` those of them without previous ids. -/
theorem dfsFromStart_spec (codec : Codec) (thread : Thread) (heads : List String) :
    ∃ buf possibleRoots, dfsFromStart codec thread heads = some (buf, possibleRoots) ∧
      (buf.map (·.id)).Nodup ∧ (∀ ch ∈ buf, loadChange codec thread ch.id = .ok ch) ∧
      (∀ id, id ∈ buf.map (·.id) ↔ Reached (loadChange codec thread) heads id) ∧
      possibleRoots = buf.filter (·.previousIds.isEmpty) := by
  have hfuel : pendingTurns (loadChange codec thread) thread.changes.keys
      ⟨heads.reverse, [], [], []⟩ = dfsFuel codec thread heads := by
    simp [pendingTurns, pendingPrevs, dfsFuel]
  obtain ⟨s, hs, hinv, h⟩ := dfsLoop_spec (fun _ _ => loadChange_id) (AList.keys_nodup _)
    (fun _ _ => loadChange_mem) _ _ DfsInv.init hfuel.le
  refine ⟨s.buf, s.possibleRoots, h, hinv.nodup, hinv.loaded, fun id => ⟨fun hid => ?_,
    hinv.complete hs⟩, hinv.possibleRoots⟩
  obtain ⟨ch, hch, rfl⟩ := List.mem_map.1 hid
  exact hinv.reached ch hch

/-! ### The root -/

/-- The errors of `buildTreeFromStart`. -/
inductive BuildError
  /-- "cannot have tree without root" -/
  | noRoot
  /-- `thread.Decode` rejects the thread id. -/
  | decodeThreadId (err : String)
  /-- "could not find any root" -/
  | rootNotFound
  deriving DecidableEq, Repr

/-- The test of `getRoot` on a possible root: its author's key decodes and verifies the thread
id; an error skips the change. -/
def signsThreadId (codec : Codec) (threadId : String) (r : Change) : Bool :=
  match codec.decodeFromString r.content.identity with
  | .error _ => false
  | .ok sk =>
    match codec.verifyACLThreadID sk threadId with
    | .ok res => res
    | .error _ => false

/-- `getRoot`: the first possible root whose author signed the thread id. -/
def getRoot (codec : Codec) (thread : Thread) (possibleRoots : List Change) :
    Except BuildError Change :=
  match codec.decodeThreadId thread.id with
  | .error err => .error (.decodeThreadId err)
  | .ok threadId =>
    match possibleRoots.find? (signsThreadId codec threadId) with
    | some r => .ok r
    | none => .error .rootNotFound

/-- `buildTreeFromStart`: the root and the changes it adds to the tree with `AddFast` (`Tree` is
not part of `src/`); `none` where `dfsFromStart` would not return. -/
def buildTreeFromStart (codec : Codec) (thread : Thread) (heads : List String) :
    Option (Except BuildError (Change × List Change)) :=
  (dfsFromStart codec thread heads).map fun (changes, possibleRoots) =>
    if possibleRoots.isEmpty then .error .noRoot
    else (getRoot codec thread possibleRoots).map fun root => (root, changes)

theorem getRoot_ok {codec : Codec} {thread : Thread} {possibleRoots : List Change} {root : Change}
    (h : getRoot codec thread possibleRoots = .ok root) :
    root ∈ possibleRoots ∧
      ∃ threadId, codec.decodeThreadId thread.id = .ok threadId ∧ signsThreadId codec threadId root := by
  unfold getRoot at h
  split at h
  · cases h
  · rename_i threadId hdec
    split at h
    · rename_i r hr
      cases h
      exact ⟨List.mem_of_find?_eq_some hr, threadId, hdec, List.find?_some hr⟩
    · cases h

theorem getRoot_ne_noRoot {codec : Codec} {thread : Thread} {possibleRoots : List Change} :
    getRoot codec thread possibleRoots ≠ .error .noRoot := by
  unfold getRoot
  split
  · simp
  · split <;> simp

/-- **What `buildTreeFromStart` builds**: it fails for want of a root exactly when every reached
change has previous ids, and otherwise a tree of the reached changes on a root the author signed. -/
theorem buildTreeFromStart_spec (codec : Codec) (thread : Thread) (heads : List String) :
    ∃ r, buildTreeFromStart codec thread heads = some r ∧
      (r = .error .noRoot ↔ ∀ id ch, Reached (loadChange codec thread) heads id →
        loadChange codec thread id = .ok ch → ch.previousIds ≠ []) ∧
      ∀ root changes, r = .ok (root, changes) →
        (∀ id, id ∈ changes.map (·.id) ↔ Reached (loadChange codec thread) heads id) ∧
        root ∈ changes ∧ root.previousIds = [] ∧
        ∃ threadId, codec.decodeThreadId thread.id = .ok threadId ∧
          signsThreadId codec threadId root := by
  obtain ⟨buf, possibleRoots, h, -, hloaded, hreached, rfl⟩ := dfsFromStart_spec codec thread heads
  -- The changes of `buf` are the loaded changes of the reached ids.
  have hparents : (∀ ch ∈ buf, ch.previousIds ≠ []) ↔ ∀ id ch,
      Reached (loadChange codec thread) heads id → loadChange codec thread id = .ok ch →
        ch.previousIds ≠ [] := by
    constructor
    · intro hb id ch hr hl
      obtain ⟨c, hc, rfl⟩ := List.mem_map.1 ((hreached id).2 hr)
      exact Except.ok.inj ((hloaded c hc).symm.trans hl) ▸ hb c hc
    · exact fun hr ch hc => hr ch.id ch ((hreached ch.id).1 (List.mem_map_of_mem _ hc))
        (hloaded ch hc)
  have hroots : (buf.filter (·.previousIds.isEmpty)).isEmpty ↔ ∀ ch ∈ buf, ch.previousIds ≠ [] := by
    simp [List.isEmpty_iff, List.filter_eq_nil_iff]
  refine ⟨if (buf.filter (·.previousIds.isEmpty)).isEmpty then .error .noRoot
    else (getRoot codec thread (buf.filter (·.previousIds.isEmpty))).map fun root => (root, buf),
    by rw [buildTreeFromStart, h]; rfl, ?_, fun root changes hr => ?_⟩
  · rw [← hparents, ← hroots]
    split_ifs with he
    · simp [he]
    · simp only [he, Bool.false_eq_true, iff_false]
      cases hg : getRoot codec thread (buf.filter (·.previousIds.isEmpty)) with
      | error e =>
        simp only [Except.map, Except.error.injEq]
        rintro rfl
        exact getRoot_ne_noRoot hg
      | ok root => simp [Except.map]
  · split_ifs at hr
    cases hg : getRoot codec thread (buf.filter (·.previousIds.isEmpty)) <;>
      simp [hg, Except.map] at hr
    obtain ⟨rfl, rfl⟩ := hr
    obtain ⟨hmem, hsign⟩ := getRoot_ok hg
    obtain ⟨hc, hnil⟩ := List.mem_filter.1 hmem
    exact ⟨hreached, hc, List.isEmpty_iff.1 hnil, hsign⟩

end Data

end AnySyncNode
