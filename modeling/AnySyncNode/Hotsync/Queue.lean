import AnySyncNode.Basic
import Mathlib.Data.List.Sort
import Mathlib.Data.Finset.Card

/-!
# The hot-sync queues

`hotSync` (`nodesync/hotsync`) drives cold spaces into sync: `spaceQueue` is a FIFO of space ids
waiting to be opened, `syncQueue` the set of ids currently opened by it, at most
`simultaneousSync` of them.  This file models the state and `UpdateQueue`, which sorts the changed
ids, blanks (with `""`) every one it finds in the queue by binary search, and appends the others.

Go compares strings byte by byte; `String.lt` compares code points, which orders UTF-8 strings
the same way.  `slices.Sort` is modelled by `List.insertionSort`: both return the unique sorted
permutation.
-/

namespace AnySyncNode

namespace Hotsync

/-- `hotSync`: the two queues, the bound and the metric counters (`atomic.Uint32`). -/
structure HotSync where
  spaceQueue : List String
  syncQueue : Finset String
  /-- A Go `int`. -/
  simultaneousSync : ℤ
  hit : UInt32
  miss : UInt32

/-- `defaultSimRequests`. -/
def defaultSimRequests : ℤ := 300

/-- `hotSync.Init`: the configured bound, or `defaultSimRequests` when it is `0`, and empty
queues. -/
def init (simultaneousRequests : ℤ) (hit miss : UInt32) : HotSync where
  spaceQueue := []
  syncQueue := ∅
  simultaneousSync := if simultaneousRequests = 0 then defaultSimRequests else simultaneousRequests
  hit := hit
  miss := miss

/-- The loop of `slices.BinarySearch`: `x[i-1] < target ≤ x[j]`; each turn halves `[i, j)`,
and `fuel` bounds the number of turns. -/
def binarySearchLoop (x : List String) (target : String) : ℕ → ℕ → ℕ → ℕ
  | 0, i, _ => i
  | fuel + 1, i, j =>
    if i < j then
      let h := (i + j) / 2
      if x.getD h "" < target then binarySearchLoop x target fuel (h + 1) j
      else binarySearchLoop x target fuel i h
    else i

/-- `slices.BinarySearch`: the position where `target` is or would be inserted, and whether it is
there.  The loop runs at most `len(x)` turns. -/
def binarySearch (x : List String) (target : String) : ℕ × Bool :=
  let i := binarySearchLoop x target x.length 0 x.length
  (i, i < x.length && x.getD i "" == target)

/-- The first loop of `UpdateQueue`: every queued id found in the sorted changed ids is blanked. -/
def blankQueued (spaceQueue changedIds : List String) : List String :=
  spaceQueue.foldl (fun changedIds id =>
    match binarySearch changedIds id with
    | (idx, true) => changedIds.set idx ""
    | (_, false) => changedIds) changedIds

/-- The ids `UpdateQueue` appends to `spaceQueue`: the sorted changed ids that were not blanked. -/
def appendedIds (spaceQueue changedIds : List String) : List String :=
  (blankQueued spaceQueue (changedIds.insertionSort (· ≤ ·))).filter (· ≠ "")

/-- `UpdateQueue`. -/
def updateQueue (h : HotSync) (changedIds : List String) : HotSync :=
  { h with spaceQueue := h.spaceQueue ++ appendedIds h.spaceQueue changedIds }

/-! ### What `UpdateQueue` appends -/

theorem binarySearch_found {x : List String} {target : String} {idx : ℕ}
    (h : binarySearch x target = (idx, true)) : x.getD idx "" = target := by
  simp only [binarySearch, Prod.mk.injEq, Bool.and_eq_true, beq_iff_eq] at h
  obtain ⟨rfl, -, h⟩ := h
  exact h

/-- `l'` is `l` with some of its entries that are queued ids blanked. -/
def BlankedFrom (spaceQueue l l' : List String) : Prop :=
  List.Forall₂ (fun a b => b = a ∨ b = "" ∧ a ∈ spaceQueue) l l'

theorem BlankedFrom.set {Q l l' : List String} (h : BlankedFrom Q l l') {i : ℕ}
    (hi : l'.getD i "" ∈ Q) : BlankedFrom Q l (l'.set i "") := by
  induction h generalizing i with
  | nil => exact .nil
  | cons hab hrest ih =>
    cases i with
    | zero => exact .cons (.inr ⟨rfl, hab.elim (fun h => h ▸ hi) (·.2)⟩) hrest
    | succ i => exact .cons hab (ih hi)

theorem blankQueued_blankedFrom (Q l : List String) : BlankedFrom Q l (blankQueued Q l) := by
  refine List.foldlRecOn (motive := BlankedFrom Q l) Q _ l
    (List.forall₂_same.2 fun _ _ => .inl rfl) fun acc h id hid => ?_
  rcases hs : binarySearch acc id with ⟨idx, _ | _⟩
  · exact h
  · exact h.set (binarySearch_found hs ▸ hid)

theorem BlankedFrom.filter_sublist {Q l l' : List String} (h : BlankedFrom Q l l')
    (hne : ∀ a ∈ l, a ≠ "") :
    (l.filter fun a => a ∉ Q).Sublist (l'.filter (· ≠ "")) ∧ (l'.filter (· ≠ "")).Sublist l := by
  induction h with
  | nil => simp
  | @cons a b l l' hab _ ih =>
    obtain ⟨ih₁, ih₂⟩ := ih fun x hx => hne x (.tail _ hx)
    have ha : a ≠ "" := hne a (.head _)
    rcases hab with rfl | ⟨rfl, hq⟩
    · by_cases hq : b ∈ Q
      · simp only [List.filter_cons, hq, not_true, ha, ne_eq, not_false_eq_true, decide_True,
          decide_False, if_true, if_false]
        exact ⟨ih₁.cons b, ih₂.cons₂ b⟩
      · simp only [List.filter_cons, hq, ha, ne_eq, not_false_eq_true, decide_True, if_true]
        exact ⟨ih₁.cons₂ b, ih₂.cons₂ b⟩
    · simp only [List.filter_cons, hq, not_true, ne_eq, decide_False, if_false]
      exact ⟨ih₁, ih₂.cons a⟩

/-- `UpdateQueue` appends, in ascending order, every changed id that is not queued and nothing but
changed ids. -/
theorem appendedIds_between (Q C : List String) (hne : ∀ a ∈ C, a ≠ "") :
    ((C.insertionSort (· ≤ ·)).filter fun a => a ∉ Q).Sublist (appendedIds Q C) ∧
      (appendedIds Q C).Sublist (C.insertionSort (· ≤ ·)) :=
  (blankQueued_blankedFrom Q _).filter_sublist fun a ha =>
    hne a ((List.perm_insertionSort _ C).mem_iff.1 ha)

theorem appendedIds_between_sample : (∀ a ∈ ["a", "b", "c"], a ≠ "") ∧
    ((["a", "b", "c"].insertionSort (· ≤ ·)).filter fun a => a ∉ ["b", "a"]).Sublist
      (appendedIds ["b", "a"] ["a", "b", "c"]) ∧
    (appendedIds ["b", "a"] ["a", "b", "c"]).Sublist (["a", "b", "c"].insertionSort (· ≤ ·)) :=
  ⟨by decide, appendedIds_between ["b", "a"] ["a", "b", "c"] (by decide)⟩

/-- Blanking `b` in `[a, b, c]` unsorts the queue, so the search for `a` misses and `a` is queued a
second time. -/
theorem updateQueue_requeues :
    (updateQueue ⟨["b", "a"], ∅, defaultSimRequests, 0, 0⟩ ["a", "b", "c"]).spaceQueue =
      ["b", "a", "a", "c"] := by
  decide

end Hotsync

end AnySyncNode
