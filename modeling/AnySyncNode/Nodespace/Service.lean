import AnySyncNode.Basic

/-!
# The space service

`service` (`nodespace/service.go`) hands out the node's spaces through an object cache whose load
function is `loadSpace`.  `loadSpace` refuses a space the deletion storage marks removed; it
builds the common space, wraps it in a `NodeSpace` and runs `Init`.  `GetStats` opens a space
with `GetSpace` and reads the largest change length from its storage when the storage offers
the stats interface.  A deferred call closes the space, joining the close error into the result.

The deletion storage, `commonspace.NewSpace`, `newNodeSpace`, `NodeSpace.Init` and the cache are
not part of `src/`, and are parameters: `ServiceDeps` for the loader, and the result of
`GetSpace` for `GetStats`.  A space is what `GetStats` reads of it: the stats its storage gives,
if the storage has them, and the error of its `Close`.
-/

namespace AnySyncNode

namespace Nodespace

/-- `nodestorage.SpaceStatus`: `checkDeletionStatus` tells `SpaceStatusRemove` from the rest. -/
inductive SpaceStatus
  | ok
  | remove
  deriving DecidableEq, Repr

/-- The errors the service returns or compares. -/
inductive SpaceError
  /-- `spacesyncproto.ErrSpaceIsDeleted`. -/
  | spaceIsDeleted
  /-- `nodestorage.ErrUnknownSpaceId`. -/
  | unknownSpaceId
  /-- `ErrDoesntSupportStats`: "SpaceStorage doesn't support spaceStorageStats". -/
  | doesntSupportStats
  /-- An error of a collaborator. -/
  | other (msg : String)
  /-- `errors.Join` of the errors. -/
  | join (errs : List SpaceError)

/-- A `NodeSpace` as `GetStats` reads it: `GetMaxChangeLen` when `Storage()` casts to
`spaceStorageStats`, and the error of `Close`. -/
structure NodeSpace where
  maxChangeLen : Option (Except SpaceError ℤ)
  closeErr : Option SpaceError

/-- The collaborators of `loadSpace`, over the type of the common spaces. -/
structure ServiceDeps (CommonSpace : Type) where
  /-- `DeletionStorage().SpaceStatus`. -/
  spaceStatus : String → Except SpaceError SpaceStatus
  /-- `commonSpace.NewSpace` with a tree syncer and the no-op sync status. -/
  newSpace : String → Except SpaceError CommonSpace
  /-- `newNodeSpace`. -/
  newNodeSpace : CommonSpace → Except SpaceError NodeSpace
  /-- `NodeSpace.Init`. -/
  init : NodeSpace → Except SpaceError Unit

/-- `ChangeSizeStats`. -/
structure ChangeSizeStats where
  maxLen : ℤ
  p95 : ℤ
  avg : Float
  median : Float

/-- `SpaceStats`. -/
structure SpaceStats where
  docsCount : ℤ
  changeSize : ChangeSizeStats

/-- The zero `SpaceStats`. -/
def SpaceStats.zero : SpaceStats := ⟨0, ⟨0, 0, 0, 0⟩⟩

variable {CommonSpace : Type}

/-- `checkDeletionStatus`: the error, or `none` for nil.  An unknown space is a fresh one. -/
def checkDeletionStatus (deps : ServiceDeps CommonSpace) (spaceId : String) : Option SpaceError :=
  match deps.spaceStatus spaceId with
  | .error .unknownSpaceId => none
  | .error err => some err
  | .ok .remove => some .spaceIsDeleted
  | .ok _ => none

/-- `loadSpace`: check the deletion status, build the common space, wrap it and run `Init`. -/
def loadSpace (deps : ServiceDeps CommonSpace) (id : String) : Except SpaceError NodeSpace := do
  if let some err := checkDeletionStatus deps id then throw err
  let cc ← deps.newSpace id
  let ns ← deps.newNodeSpace cc
  deps.init ns
  pure ns

/-- The body of `GetStats` on what `GetSpace` returned: the stats and the error. -/
def getStatsBody : Except SpaceError NodeSpace → SpaceStats × Option SpaceError
  | .error getSpaceErr => (SpaceStats.zero, some getSpaceErr)
  | .ok space =>
    match space.maxChangeLen with
    | none => (SpaceStats.zero, some .doesntSupportStats)
    | some (.error err) => (SpaceStats.zero, some err)
    | some (.ok maxLen) => (⟨0, ⟨maxLen, 0, 0, 0⟩⟩, none)

/-- `GetStats` on what `GetSpace` returned: the body, then the deferred `Close` of a space
`GetSpace` returned, whose error joins the body's.  The stats, the error, and whether the space
was closed. -/
def GetStats (getSpace : Except SpaceError NodeSpace) : SpaceStats × Option SpaceError × Bool :=
  let (spaceStats, err) := getStatsBody getSpace
  match getSpace with
  | .error _ => (spaceStats, err, false)
  | .ok space =>
    match space.closeErr with
    | none => (spaceStats, err, true)
    | some closeErr => (spaceStats, some (.join (err.toList ++ [closeErr])), true)

section Spec

variable {deps : ServiceDeps CommonSpace} {id : String}

theorem checkDeletionStatus_eq_none :
    checkDeletionStatus deps id = none ↔
      deps.spaceStatus id = .error .unknownSpaceId ∨ deps.spaceStatus id = .ok .ok := by
  cases hs : deps.spaceStatus id with
  | error err => cases err <;> simp [checkDeletionStatus, hs]
  | ok status => cases status <;> simp [checkDeletionStatus, hs]

/-- What a loaded space is: the deletion check passed, and it wraps a new common space and
initialises. -/
theorem loadSpace_ok {ns : NodeSpace} :
    loadSpace deps id = .ok ns ↔ checkDeletionStatus deps id = none ∧
      ∃ cc, deps.newSpace id = .ok cc ∧ deps.newNodeSpace cc = .ok ns ∧ deps.init ns = .ok () := by
  unfold loadSpace
  cases hc : checkDeletionStatus deps id with
  | some err => exact ⟨fun h => (nomatch h), fun h => (nomatch h.1)⟩
  | none =>
    simp only [Except.bind_eq_ok, true_and]
    constructor
    · rintro ⟨_, _, cc, hcc, ns', hns, _, hinit, h⟩
      cases Except.pure_eq_ok.1 h
      exact ⟨cc, hcc, hns, hinit⟩
    · rintro ⟨cc, hcc, hns, hinit⟩
      exact ⟨(), rfl, cc, hcc, ns, hns, (), hinit, rfl⟩

/-- A space the deletion storage marks removed never loads. -/
theorem loadSpace_of_remove (h : deps.spaceStatus id = .ok .remove) :
    loadSpace deps id = .error .spaceIsDeleted := by
  simp only [loadSpace, checkDeletionStatus, h]
  rfl

/-- `GetStats` closes the space exactly when `GetSpace` returned one. -/
theorem GetStats_closed (getSpace : Except SpaceError NodeSpace) :
    (GetStats getSpace).2.2 = getSpace.isOk := by
  cases getSpace with
  | error => rfl
  | ok space => cases h : space.closeErr <;> simp [GetStats, h, Except.isOk, Except.toBool]

end Spec

end Nodespace

end AnySyncNode
