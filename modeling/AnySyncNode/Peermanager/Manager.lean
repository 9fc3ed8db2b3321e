import AnySyncNode.Basic

/-!
# The responsible peers of a space

`nodePeerManager` (`nodespace/peermanager`) keeps, per space, the peers the node configuration
makes responsible for it.  `getResponsiblePeersObjects` returns the cached list while it is less
than a minute old and otherwise asks `nodeconf.NodeIds` again; `getResponsiblePeers` calls
`pool.Get` on every peer whose last failure is more than `reconnectTimeout` ago, and `isResponsible`
looks a peer up in the list.  `SendMessage`, `SendResponsible`, `GetResponsiblePeers` and
`GetNodePeers` reach the list only through these two.

Two defects of the source are visible in the model, both as theorems over every run:

* a refresh appends the configured ids to the list instead of replacing it, so calls a minute apart
  accumulate every configured list (`responsiblePeers_spaced_run`);
* the loop of `getResponsiblePeers` ranges over copies of the list's elements, so the failure time
  it stamps is dropped with the copy, and every stored `lastFail` stays the zero time
  (`lastFail_eq_zero`): a call retries every responsible peer (`getResponsiblePeers_calls`).

Times are wall-clock instants in nanoseconds, the zero `time.Time` being `0`; `time.Since t` is
`now - t`.  Each call reads the clock once.  Calls are sequential: the unlocked fast path of
`getResponsiblePeersObjects` is not modelled.
-/

namespace AnySyncNode

namespace Peermanager

/-- `time.Minute`, in nanoseconds. -/
def minute : ℤ := 60000000000

/-- `reconnectTimeout`. -/
def reconnectTimeout : ℤ := minute

/-- `responsiblePeer`. -/
structure ResponsiblePeer where
  peerId : String
  lastFail : ℤ
  deriving DecidableEq, Repr

/-- The fields of `nodePeerManager` that the peer lists use. -/
structure NodePeerManager where
  spaceId : String
  responsiblePeers : List ResponsiblePeer
  responsiblePeersUpdated : ℤ
  deriving DecidableEq, Repr

/-- `net.ErrUnableToConnect`. -/
inductive NetError
  | unableToConnect
  deriving DecidableEq, Repr

/-- `getResponsiblePeersObjects` at time `now`, where `nodeIds` is `nodeconf.NodeIds`: the new
manager and the list returned. -/
def getResponsiblePeersObjects (n : NodePeerManager) (nodeIds : String → List String)
    (now : ℤ) : NodePeerManager × List ResponsiblePeer :=
  if n.responsiblePeers.length ≠ 0 ∧ now - n.responsiblePeersUpdated < minute then
    (n, n.responsiblePeers)
  else
    let responsiblePeers :=
      n.responsiblePeers ++ (nodeIds n.spaceId).map fun peerId => { peerId, lastFail := 0 }
    ({ n with responsiblePeers, responsiblePeersUpdated := now }, responsiblePeers)

/-- One turn of the loop of `getResponsiblePeers` on `rp`, a copy of an element of the list:
whether it calls `netPool.Get` (whose outcome on a peer is `get`), the peer it connects to, and
the copy after the turn, with the failure time stamped. -/
def visit (now : ℤ) (get : String → Bool) (rp : ResponsiblePeer) :
    Bool × Option String × ResponsiblePeer :=
  if now - rp.lastFail > reconnectTimeout then
    if get rp.peerId then (true, some rp.peerId, rp)
    else (true, none, { rp with lastFail := now })
  else (false, none, rp)

/-- The loop of `getResponsiblePeers`: the peers passed to `netPool.Get` and the peers connected,
in order.  Each turn's copy is dropped, as the range variable of the source is. -/
def getResponsiblePeersLoop (now : ℤ) (get : String → Bool) :
    List ResponsiblePeer → List String × List String
  | [] => ([], [])
  | rp :: rps =>
    let (called, peer, _) := visit now get rp
    let (calls, peers) := getResponsiblePeersLoop now get rps
    (if called then rp.peerId :: calls else calls, peer.toList ++ peers)

/-- `getResponsiblePeers`: the new manager, the peers passed to `netPool.Get`, and the connected
peers or `ErrUnableToConnect`. -/
def getResponsiblePeers (n : NodePeerManager) (nodeIds : String → List String) (now : ℤ)
    (get : String → Bool) : NodePeerManager × List String × Except NetError (List String) :=
  let objects := getResponsiblePeersObjects n nodeIds now
  let loop := getResponsiblePeersLoop now get objects.2
  (objects.1, loop.1, if loop.2.length = 0 then .error .unableToConnect else .ok loop.2)

/-- `isResponsible`. -/
def isResponsible (n : NodePeerManager) (nodeIds : String → List String) (now : ℤ)
    (peerId : String) : NodePeerManager × Bool :=
  let objects := getResponsiblePeersObjects n nodeIds now
  (objects.1, objects.2.any fun rp => rp.peerId == peerId)

/-! ### The list only grows -/

theorem getResponsiblePeersObjects_refresh {n : NodePeerManager} {nodeIds : String → List String}
    {now : ℤ} (h : ¬ (n.responsiblePeers.length ≠ 0 ∧ now - n.responsiblePeersUpdated < minute)) :
    getResponsiblePeersObjects n nodeIds now =
      let responsiblePeers :=
        n.responsiblePeers ++ (nodeIds n.spaceId).map fun peerId => { peerId, lastFail := 0 }
      ({ n with responsiblePeers, responsiblePeersUpdated := now }, responsiblePeers) :=
  if_neg h

@[simp] theorem getResponsiblePeersObjects_snd (n : NodePeerManager)
    (nodeIds : String → List String) (now : ℤ) :
    (getResponsiblePeersObjects n nodeIds now).2 =
      (getResponsiblePeersObjects n nodeIds now).1.responsiblePeers := by
  unfold getResponsiblePeersObjects
  split <;> rfl

@[simp] theorem getResponsiblePeersObjects_spaceId (n : NodePeerManager)
    (nodeIds : String → List String) (now : ℤ) :
    (getResponsiblePeersObjects n nodeIds now).1.spaceId = n.spaceId := by
  unfold getResponsiblePeersObjects
  split <;> rfl

/-- What a call does to the manager: calls differ only in what they do with the list. -/
def Call.step (n : NodePeerManager) (nodeIds : String → List String) (now : ℤ) :
    NodePeerManager :=
  (getResponsiblePeersObjects n nodeIds now).1

theorem getResponsiblePeers_fst (n : NodePeerManager) (nodeIds : String → List String)
    (now : ℤ) (get : String → Bool) :
    (getResponsiblePeers n nodeIds now get).1 = Call.step n nodeIds now := rfl

theorem isResponsible_fst (n : NodePeerManager) (nodeIds : String → List String) (now : ℤ)
    (peerId : String) : (isResponsible n nodeIds now peerId).1 = Call.step n nodeIds now := rfl

/-- The managers a run of calls at the given times, with the given configurations, passes
through. -/
def runCalls : NodePeerManager → List (ℤ × (String → List String)) → NodePeerManager
  | n, [] => n
  | n, (now, nodeIds) :: calls => runCalls (Call.step n nodeIds now) calls

/-- Each call at least a minute after the previous refresh. -/
def Spaced : ℤ → List (ℤ × (String → List String)) → Prop
  | _, [] => True
  | updated, (now, _) :: calls => updated + minute ≤ now ∧ Spaced now calls

/-- **Refreshes accumulate**: with calls a minute apart or more, every call refreshes and appends
the configured list of its time. -/
theorem responsiblePeers_spaced_run (n : NodePeerManager)
    (calls : List (ℤ × (String → List String))) (h : Spaced n.responsiblePeersUpdated calls) :
    (runCalls n calls).responsiblePeers.map (·.peerId) =
      n.responsiblePeers.map (·.peerId) ++ (calls.map fun c => c.2 n.spaceId).flatten := by
  induction calls generalizing n with
  | nil => simp [runCalls]
  | cons c calls ih =>
    obtain ⟨now, nodeIds⟩ := c
    obtain ⟨hnow, h⟩ := h
    have hstep : Call.step n nodeIds now = { n with
        responsiblePeers :=
          n.responsiblePeers ++ (nodeIds n.spaceId).map fun peerId => { peerId, lastFail := 0 }
        responsiblePeersUpdated := now } :=
      congrArg Prod.fst (getResponsiblePeersObjects_refresh fun ⟨_, hlt⟩ => by omega)
    rw [runCalls, hstep, ih _ h]
    simp [Function.comp_def]

/-- With one configured peer, a call a minute after the first refresh connects to it twice and
returns it twice. -/
theorem responsiblePeers_duplicated :
    (getResponsiblePeers (Call.step ⟨"space", [], 0⟩ (fun _ => ["a"]) (2 * minute))
      (fun _ => ["a"]) (3 * minute) (fun _ => true)).2 = (["a", "a"], .ok ["a", "a"]) := rfl

/-! ### Failure times are dropped -/

/-- Every stored failure time is the zero time. -/
def NoFailureStored (n : NodePeerManager) : Prop :=
  ∀ rp ∈ n.responsiblePeers, rp.lastFail = 0

theorem NoFailureStored.step {n : NodePeerManager} (h : NoFailureStored n)
    (nodeIds : String → List String) (now : ℤ) : NoFailureStored (Call.step n nodeIds now) := by
  unfold Call.step getResponsiblePeersObjects
  split
  · exact h
  · simp only [NoFailureStored, List.mem_append, List.mem_map]
    rintro rp (hrp | ⟨_, -, rfl⟩)
    exacts [h rp hrp, rfl]

theorem lastFail_eq_zero (n : NodePeerManager) (h : NoFailureStored n)
    (calls : List (ℤ × (String → List String))) : NoFailureStored (runCalls n calls) := by
  induction calls generalizing n with
  | nil => exact h
  | cons c calls ih => exact ih _ (h.step c.2 c.1)

theorem getResponsiblePeersLoop_calls (now : ℤ) (get : String → Bool)
    (rps : List ResponsiblePeer) (h : ∀ rp ∈ rps, rp.lastFail = 0) (hnow : reconnectTimeout < now) :
    (getResponsiblePeersLoop now get rps).1 = rps.map (·.peerId) := by
  induction rps with
  | nil => rfl
  | cons rp rps ih =>
    have hrp : now - rp.lastFail > reconnectTimeout := by simpa [h rp (by simp)] using hnow
    simp only [getResponsiblePeersLoop, visit, hrp, if_true, List.map_cons,
      ih fun rp' h' => h rp' (by simp [h'])]
    split <;> rfl

/-- **Every responsible peer is retried**: with no failure stored, a call past the timeout passes
every responsible peer to `netPool.Get`. -/
theorem getResponsiblePeers_calls (n : NodePeerManager) (h : NoFailureStored n)
    (calls : List (ℤ × (String → List String))) (nodeIds : String → List String) (now : ℤ)
    (get : String → Bool) (hnow : reconnectTimeout < now) :
    (getResponsiblePeers (runCalls n calls) nodeIds now get).2.1 =
      (Call.step (runCalls n calls) nodeIds now).responsiblePeers.map (·.peerId) := by
  simp only [getResponsiblePeers, getResponsiblePeersObjects_snd]
  exact getResponsiblePeersLoop_calls now get _ ((lastFail_eq_zero n h calls).step nodeIds now) hnow

/-- `netPool.Get` fails on the only responsible peer, and a call a nanosecond later calls it
again. -/
theorem failed_peer_retried :
    ∃ n₁ peers, getResponsiblePeers ⟨"space", [], 0⟩ (fun _ => ["a"]) (2 * minute) (fun _ => false) =
        (n₁, ["a"], peers) ∧
      (getResponsiblePeers n₁ (fun _ => ["a"]) (2 * minute + 1) (fun _ => false)).2.1 = ["a"] :=
  ⟨_, _, rfl, rfl⟩

end Peermanager

end AnySyncNode
