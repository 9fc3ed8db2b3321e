import AnySyncNode.Hotsync.Queue

/-!
# The hot-sync scheduler

Every tick `checkCache` drops from `syncQueue` the spaces the cache has evicted (`checkRemoved`),
takes the first `batchLen` ids off `spaceQueue` and opens each with `GetSpace`; an opened space
joins `syncQueue`.  The slice `spaceQueue[:batchLen]` panics on a negative bound, and nothing in
`checkCache` tests for one: it is the invariant `|syncQueue| ≤ simultaneousSync` that keeps the
bound in range.

`Trace` runs the scheduler over any list of `UpdateQueue` calls and ticks, with the ids the ticks
pass to `GetSpace` and the ids `UpdateQueue` appends as ghost logs.  `run_invariant` is the
scheduler's safety: from empty queues and a bound `N ≥ 0`, every run succeeds, `syncQueue` never
holds more than `N` ids, and the ids attempted so far followed by `spaceQueue` are exactly the ids
appended so far, in order.

The loop over the dequeued ids runs after the mutex is released, and an `UpdateQueue` may run
while it does; the loop reads neither `spaceQueue` nor anything `UpdateQueue` writes, so a tick is
modelled as one event.  The environment is a parameter of each tick: the ids the cache holds
(`loaded`) and, by position in the batch, whether `GetSpace` succeeds.
-/

namespace AnySyncNode

namespace Hotsync

/-- `checkRemoved`: `syncQueue` keeps the ids the cache holds, and the number removed. -/
def checkRemoved (h : HotSync) (loaded : Finset String) : HotSync × ℕ :=
  ({ h with syncQueue := h.syncQueue.filter (· ∈ loaded) },
   (h.syncQueue.filter (· ∉ loaded)).card)

/-- `batchLen`: the free places of `syncQueue`, at most the length of `spaceQueue` (the source's
own `min`). -/
def batchLen (h : HotSync) : ℤ :=
  let newBatchLen := h.simultaneousSync - h.syncQueue.card
  if newBatchLen < h.spaceQueue.length then newBatchLen else h.spaceQueue.length

/-- The loop of `checkCache` over the dequeued ids: `getSpace i` says whether `GetSpace` succeeds
on the `i`-th of them.  A failure counts a hit, a success a miss and joins `syncQueue`. -/
def getSpaces (getSpace : ℕ → Bool) : HotSync → List String → HotSync
  | h, [] => h
  | h, id :: cp =>
    getSpaces (fun i => getSpace (i + 1))
      (if getSpace 0 then { h with miss := h.miss + 1, syncQueue := insert id h.syncQueue }
       else { h with hit := h.hit + 1 }) cp

/-- `checkCache`: the new state and the ids passed to `GetSpace`, in order, or the runtime panic
of the slice expressions. -/
def checkCache (h : HotSync) (loaded : Finset String) (getSpace : ℕ → Bool) :
    Except String (HotSync × List String) :=
  let h := (checkRemoved h loaded).1
  let newBatchLen := batchLen h
  if 0 ≤ newBatchLen ∧ newBatchLen ≤ h.spaceQueue.length then
    let cp := h.spaceQueue.take newBatchLen.toNat
    .ok (getSpaces getSpace { h with spaceQueue := h.spaceQueue.drop newBatchLen.toNat } cp, cp)
  else .error "runtime error: slice bounds out of range"

@[simp] theorem checkRemoved_spaceQueue (h : HotSync) (loaded : Finset String) :
    (checkRemoved h loaded).1.spaceQueue = h.spaceQueue := rfl

@[simp] theorem checkRemoved_simultaneousSync (h : HotSync) (loaded : Finset String) :
    (checkRemoved h loaded).1.simultaneousSync = h.simultaneousSync := rfl

theorem checkRemoved_card (h : HotSync) (loaded : Finset String) :
    (checkRemoved h loaded).1.syncQueue.card + (checkRemoved h loaded).2 = h.syncQueue.card :=
  Finset.filter_card_add_filter_neg_card_eq_card _

theorem checkRemoved_card_le (h : HotSync) (loaded : Finset String) :
    (checkRemoved h loaded).1.syncQueue.card ≤ h.syncQueue.card := by
  have := checkRemoved_card h loaded
  omega

theorem batchLen_mem_Icc {h : HotSync} (hle : (h.syncQueue.card : ℤ) ≤ h.simultaneousSync) :
    0 ≤ batchLen h ∧ batchLen h ≤ h.spaceQueue.length := by
  simp only [batchLen]
  split_ifs <;> omega

theorem batchLen_le (h : HotSync) : batchLen h ≤ h.simultaneousSync - h.syncQueue.card := by
  simp only [batchLen]
  split_ifs <;> omega

@[simp] theorem getSpaces_spaceQueue (getSpace : ℕ → Bool) (h : HotSync) (cp : List String) :
    (getSpaces getSpace h cp).spaceQueue = h.spaceQueue := by
  induction cp generalizing getSpace h with
  | nil => rfl
  | cons id cp ih => simp only [getSpaces, ih]; split <;> rfl

@[simp] theorem getSpaces_simultaneousSync (getSpace : ℕ → Bool) (h : HotSync)
    (cp : List String) : (getSpaces getSpace h cp).simultaneousSync = h.simultaneousSync := by
  induction cp generalizing getSpace h with
  | nil => rfl
  | cons id cp ih => simp only [getSpaces, ih]; split <;> rfl

theorem getSpaces_card_le (getSpace : ℕ → Bool) (h : HotSync) (cp : List String) :
    (getSpaces getSpace h cp).syncQueue.card ≤ h.syncQueue.card + cp.length := by
  induction cp generalizing getSpace h with
  | nil => simp [getSpaces]
  | cons id cp ih =>
    refine (ih _ _).trans ?_
    have := Finset.card_insert_le id h.syncQueue
    split <;> simp only [List.length_cons] <;> omega

/-- **A tick below the bound** does not panic: it passes a prefix of `spaceQueue` to `GetSpace` and
keeps `syncQueue` within the bound. -/
theorem checkCache_spec {h : HotSync} (hle : (h.syncQueue.card : ℤ) ≤ h.simultaneousSync)
    (loaded : Finset String) (getSpace : ℕ → Bool) :
    ∃ h' cp, checkCache h loaded getSpace = .ok (h', cp) ∧ cp ++ h'.spaceQueue = h.spaceQueue ∧
      (h'.syncQueue.card : ℤ) ≤ h.simultaneousSync ∧
      h'.simultaneousSync = h.simultaneousSync := by
  set h₁ := (checkRemoved h loaded).1
  have hle₁ : (h₁.syncQueue.card : ℤ) ≤ h.simultaneousSync :=
    le_trans (Int.ofNat_le.2 (checkRemoved_card_le h loaded)) hle
  obtain ⟨h0, hlen⟩ := batchLen_mem_Icc (h := h₁) hle₁
  have hb : batchLen h₁ ≤ h.simultaneousSync - h₁.syncQueue.card := batchLen_le h₁
  have hcard := getSpaces_card_le getSpace
    { h₁ with spaceQueue := h₁.spaceQueue.drop (batchLen h₁).toNat }
    (h₁.spaceQueue.take (batchLen h₁).toNat)
  have hc : checkCache h loaded getSpace = .ok (getSpaces getSpace
      { h₁ with spaceQueue := h₁.spaceQueue.drop (batchLen h₁).toNat }
      (h₁.spaceQueue.take (batchLen h₁).toNat), h₁.spaceQueue.take (batchLen h₁).toNat) :=
    if_pos ⟨h0, hlen⟩
  refine ⟨_, _, hc, by simp [h₁], le_trans (Int.ofNat_le.2 hcard) ?_, by simp [h₁]⟩
  simp only [List.length_take]
  omega

/-! ### Runs -/

/-- What happens to the scheduler: an `UpdateQueue` call, or a tick of `checkCache` with the
cache's ids and the outcomes of its `GetSpace` calls. -/
inductive Event
  | updateQueue (changedIds : List String)
  | checkCache (loaded : Finset String) (getSpace : ℕ → Bool)

/-- The scheduler with two ghost logs: the ids `UpdateQueue` has appended to `spaceQueue` and the
ids passed to `GetSpace`, in order. -/
structure Trace where
  hotSync : HotSync
  appended : List String
  attempted : List String

/-- One event on a trace. -/
def Trace.step (t : Trace) : Event → Except String Trace
  | .updateQueue changedIds =>
    .ok ⟨updateQueue t.hotSync changedIds,
      t.appended ++ appendedIds t.hotSync.spaceQueue changedIds, t.attempted⟩
  | .checkCache loaded getSpace =>
    (checkCache t.hotSync loaded getSpace).map fun (h, cp) => ⟨h, t.appended, t.attempted ++ cp⟩

/-- A run of events, stopped by the first panic. -/
def Trace.run (t : Trace) : List Event → Except String Trace
  | [] => .ok t
  | e :: es => t.step e >>= fun t => t.run es

/-- The scheduler's invariant under the bound `N`. -/
structure Trace.Invariant (N : ℤ) (t : Trace) : Prop where
  simultaneousSync_eq : t.hotSync.simultaneousSync = N
  card_le : (t.hotSync.syncQueue.card : ℤ) ≤ N
  attempted_append : t.attempted ++ t.hotSync.spaceQueue = t.appended

theorem Trace.Invariant.step {N : ℤ} {t : Trace} (hinv : t.Invariant N) (e : Event) :
    ∃ t', t.step e = .ok t' ∧ t'.Invariant N := by
  obtain ⟨hN, hle, happ⟩ := hinv
  cases e with
  | updateQueue changedIds =>
    exact ⟨_, rfl, hN, hle, by simp [updateQueue, ← happ]⟩
  | checkCache loaded getSpace =>
    obtain ⟨h', cp, hc, hq, hle', hN'⟩ := checkCache_spec (hN ▸ hle) loaded getSpace
    refine ⟨⟨h', t.appended, t.attempted ++ cp⟩, by simp only [Trace.step, hc]; rfl, hN'.trans hN,
      hN ▸ hle', ?_⟩
    simp only [List.append_assoc, hq, happ]

theorem Trace.Invariant.run {N : ℤ} {t : Trace} (hinv : t.Invariant N) (es : List Event) :
    ∃ t', t.run es = .ok t' ∧ t'.Invariant N := by
  induction es generalizing t with
  | nil => exact ⟨t, rfl, hinv⟩
  | cons e es ih =>
    obtain ⟨t₁, h₁, hinv₁⟩ := hinv.step e
    obtain ⟨t', h', hinv'⟩ := ih hinv₁
    exact ⟨t', by simp only [Trace.run, h₁]; exact h', hinv'⟩

/-- **The scheduler stays in bounds and loses no id**: every run from empty queues succeeds, keeps
`|syncQueue| ≤ N` and `batchLen` in range, and passes on exactly the ids `UpdateQueue` appended. -/
theorem run_invariant (h₀ : HotSync) (hspace : h₀.spaceQueue = []) (hsync : h₀.syncQueue = ∅)
    (hN : 0 ≤ h₀.simultaneousSync) (es : List Event) :
    ∃ t, Trace.run ⟨h₀, [], []⟩ es = .ok t ∧
      (t.hotSync.syncQueue.card : ℤ) ≤ h₀.simultaneousSync ∧
      (∀ loaded, 0 ≤ batchLen (checkRemoved t.hotSync loaded).1 ∧
        batchLen (checkRemoved t.hotSync loaded).1 ≤ t.hotSync.spaceQueue.length) ∧
      t.attempted ++ t.hotSync.spaceQueue = t.appended := by
  have hinv : Trace.Invariant h₀.simultaneousSync ⟨h₀, [], []⟩ :=
    ⟨rfl, by simp [hsync, hN], by simp [hspace]⟩
  obtain ⟨t, ht, hN', hle, happ⟩ := hinv.run es
  refine ⟨t, ht, hle, fun loaded => ?_, happ⟩
  have := le_trans (Int.ofNat_le.2 (checkRemoved_card_le t.hotSync loaded)) hle
  exact batchLen_mem_Icc (by simpa [hN'] using this)

theorem run_invariant_sample :
    (init 2 0 0).spaceQueue = [] ∧ (init 2 0 0).syncQueue = ∅ ∧ 0 ≤ (init 2 0 0).simultaneousSync ∧
    ∃ t, Trace.run ⟨init 2 0 0, [], []⟩
        [.updateQueue ["b", "a", "c"], .checkCache ∅ fun i => i = 0] = .ok t ∧
      (t.hotSync.syncQueue.card : ℤ) ≤ (init 2 0 0).simultaneousSync ∧
      (∀ loaded, 0 ≤ batchLen (checkRemoved t.hotSync loaded).1 ∧
        batchLen (checkRemoved t.hotSync loaded).1 ≤ t.hotSync.spaceQueue.length) ∧
      t.attempted ++ t.hotSync.spaceQueue = t.appended :=
  ⟨rfl, rfl, by decide,
    run_invariant (init 2 0 0) rfl rfl (by decide)
      [.updateQueue ["b", "a", "c"], .checkCache ∅ fun i => i = 0]⟩

/-! ### Progress -/

theorem getSpaces_syncQueue_subset (getSpace : ℕ → Bool) (h : HotSync) (cp : List String) :
    (getSpaces getSpace h cp).syncQueue ⊆ h.syncQueue ∪ cp.toFinset := by
  induction cp generalizing getSpace h with
  | nil => simp [getSpaces]
  | cons id cp ih =>
    refine (ih _ _).trans ?_
    intro x hx
    simp only [Finset.mem_union, List.mem_toFinset, List.mem_cons] at hx ⊢
    split at hx <;> simp only [Finset.mem_insert] at hx <;> tauto

theorem checkCache_evicted {h : HotSync} (hN : 0 ≤ h.simultaneousSync) {loaded : Finset String}
    (hl : Disjoint loaded h.syncQueue) (getSpace : ℕ → Bool) :
    ∃ h', checkCache h loaded getSpace = .ok (h', h.spaceQueue.take h.simultaneousSync.toNat) ∧
      h'.spaceQueue = h.spaceQueue.drop h.simultaneousSync.toNat ∧
      h'.simultaneousSync = h.simultaneousSync ∧
      h'.syncQueue ⊆ (h.spaceQueue.take h.simultaneousSync.toNat).toFinset := by
  set h₁ := (checkRemoved h loaded).1
  have hempty : h₁.syncQueue = ∅ :=
    Finset.filter_eq_empty_iff.2 fun x hx hxl => Finset.disjoint_left.1 hl hxl hx
  -- With no synced space left, the batch is the first `simultaneousSync` ids, or all of them.
  have hq₁ : h₁.spaceQueue = h.spaceQueue := rfl
  have hb : (batchLen h₁).toNat = min h.simultaneousSync.toNat h.spaceQueue.length ∧
      0 ≤ batchLen h₁ ∧ batchLen h₁ ≤ h₁.spaceQueue.length := by
    simp only [batchLen, hempty, Finset.card_empty, Nat.cast_zero, sub_zero, hq₁,
      show h₁.simultaneousSync = h.simultaneousSync from rfl]
    split_ifs <;> omega
  have htake : h.spaceQueue.take (batchLen h₁).toNat = h.spaceQueue.take h.simultaneousSync.toNat ∧
      h.spaceQueue.drop (batchLen h₁).toNat = h.spaceQueue.drop h.simultaneousSync.toNat := by
    rw [hb.1]
    rcases le_total h.simultaneousSync.toNat h.spaceQueue.length with hle | hle
    · rw [min_eq_left hle]; exact ⟨rfl, rfl⟩
    · rw [min_eq_right hle, List.take_length, List.take_of_length_le hle, List.drop_length,
        List.drop_of_length_le hle]
      exact ⟨rfl, rfl⟩
  have hc : checkCache h loaded getSpace = .ok (getSpaces getSpace
      { h₁ with spaceQueue := h₁.spaceQueue.drop (batchLen h₁).toNat }
      (h₁.spaceQueue.take (batchLen h₁).toNat), h₁.spaceQueue.take (batchLen h₁).toNat) :=
    if_pos hb.2
  rw [hq₁, htake.1, htake.2] at hc
  refine ⟨_, hc, by simp, by simp [h₁], (getSpaces_syncQueue_subset _ _ _).trans ?_⟩
  rw [hempty, Finset.empty_union]

/-- Ticks from a state whose synced and queued spaces lie in `S`, at each of which the cache holds
no space of `S`. -/
theorem run_evicted {S : Finset String} (ticks : List (Finset String × (ℕ → Bool)))
    (hevict : ∀ tick ∈ ticks, Disjoint tick.1 S) (t : Trace) (hN : 0 ≤ t.hotSync.simultaneousSync)
    (hsync : t.hotSync.syncQueue ⊆ S) (hqueue : ∀ x ∈ t.hotSync.spaceQueue, x ∈ S) :
    ∃ t', t.run (ticks.map fun tick => .checkCache tick.1 tick.2) = .ok t' ∧
      t'.attempted = t.attempted ++
        t.hotSync.spaceQueue.take (ticks.length * t.hotSync.simultaneousSync.toNat) ∧
      t'.hotSync.spaceQueue =
        t.hotSync.spaceQueue.drop (ticks.length * t.hotSync.simultaneousSync.toNat) := by
  induction ticks generalizing t with
  | nil => exact ⟨t, rfl, by simp, by simp⟩
  | cons tick ticks ih =>
    obtain ⟨h', hc, hq, hN', hs⟩ := checkCache_evicted hN
      (Finset.disjoint_of_subset_right hsync (hevict tick (.head _))) tick.2
    have hq' : ∀ x ∈ h'.spaceQueue, x ∈ S := fun x hx => hqueue x (List.mem_of_mem_drop (hq ▸ hx))
    have hs' : h'.syncQueue ⊆ S := fun x hx =>
      hqueue x (List.mem_of_mem_take (List.mem_toFinset.1 (hs hx)))
    obtain ⟨t', ht', hatt, hrest⟩ := ih (fun tick h => hevict tick (.tail _ h))
      ⟨h', t.appended, t.attempted ++ t.hotSync.spaceQueue.take t.hotSync.simultaneousSync.toNat⟩
      (hN'.symm ▸ hN) hs' hq'
    refine ⟨t', ?_, ?_, ?_⟩
    · simp only [List.map_cons, Trace.run, Trace.step, hc]
      exact ht'
    · rw [hatt, hq, hN', List.length_cons, Nat.succ_mul, Nat.add_comm, List.take_add,
        List.append_assoc]
    · rw [hrest, hq, hN', List.drop_drop, List.length_cons, Nat.succ_mul, Nat.add_comm]

/-- **Every queued space is attempted, in order**: when the cache holds none of them, `k` ticks pass
the first `k·N` queued ids to `GetSpace` and leave the others queued. -/
theorem ticks_attempt_queue (h : HotSync) (hN : 0 ≤ h.simultaneousSync)
    (ticks : List (Finset String × (ℕ → Bool)))
    (hevict : ∀ tick ∈ ticks, Disjoint tick.1 (h.syncQueue ∪ h.spaceQueue.toFinset)) :
    ∃ t, Trace.run ⟨h, [], []⟩ (ticks.map fun tick => .checkCache tick.1 tick.2) = .ok t ∧
      t.attempted = h.spaceQueue.take (ticks.length * h.simultaneousSync.toNat) ∧
      t.hotSync.spaceQueue = h.spaceQueue.drop (ticks.length * h.simultaneousSync.toNat) := by
  simpa using run_evicted ticks hevict ⟨h, [], []⟩ hN Finset.subset_union_left
    fun x hx => Finset.mem_union_right _ (List.mem_toFinset.2 hx)

theorem ticks_attempt_queue_sample :
    0 ≤ (⟨["a", "b", "c", "d"], ∅, 2, 0, 0⟩ : HotSync).simultaneousSync ∧
    (∀ tick ∈ List.replicate 2 ((∅ : Finset String), fun (_ : ℕ) => true),
      Disjoint tick.1 ((⟨["a", "b", "c", "d"], ∅, 2, 0, 0⟩ : HotSync).syncQueue ∪
        (⟨["a", "b", "c", "d"], ∅, 2, 0, 0⟩ : HotSync).spaceQueue.toFinset)) ∧
    ∃ t, Trace.run ⟨⟨["a", "b", "c", "d"], ∅, 2, 0, 0⟩, [], []⟩
        ((List.replicate 2 ((∅ : Finset String), fun (_ : ℕ) => true)).map
          fun tick => .checkCache tick.1 tick.2) = .ok t ∧
      t.attempted = (⟨["a", "b", "c", "d"], ∅, 2, 0, 0⟩ : HotSync).spaceQueue.take
        ((List.replicate 2 ((∅ : Finset String), fun (_ : ℕ) => true)).length *
          (⟨["a", "b", "c", "d"], ∅, 2, 0, 0⟩ : HotSync).simultaneousSync.toNat) ∧
      t.hotSync.spaceQueue = (⟨["a", "b", "c", "d"], ∅, 2, 0, 0⟩ : HotSync).spaceQueue.drop
        ((List.replicate 2 ((∅ : Finset String), fun (_ : ℕ) => true)).length *
          (⟨["a", "b", "c", "d"], ∅, 2, 0, 0⟩ : HotSync).simultaneousSync.toNat) :=
  ⟨by decide, fun _ h => List.eq_of_mem_replicate h ▸ Finset.disjoint_empty_left _,
    ticks_attempt_queue _ (by decide) _ fun _ h =>
      List.eq_of_mem_replicate h ▸ Finset.disjoint_empty_left _⟩

end Hotsync

end AnySyncNode
