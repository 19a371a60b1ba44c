import HeliumOracles.Lib.Transition
import HeliumOracles.IotConfig.HeliumNetids

/-!
# Helium organisations and their DevAddr constraints

Source: `iot_config/src/org_service.rs` (`OrgService::create_helium`) and
`iot_config/src/org.rs` (`create_org`, `update_org`, `add_devaddr_slab`,
`add_constraint_update`, `remove_constraint_update`, `get_org_netid`).

The state is the part of the database these functions write: the
`helium_used_devaddrs` rows, the organisations and the
`organization_devaddr_constraints` rows. Each request runs in one Postgres
transaction, so a failed request leaves the state as it was. Signature checks,
owner, payer and delegate keys are not modelled: the steps are the admin
requests that change DevAddr leases.
-/
namespace HeliumOracles.IotConfig

open HeliumOracles.Lib.Transition

/-- A row of `organization_devaddr_constraints`. -/
structure ConstraintRow where
  oui : Nat
  netId : Nat
  startAddr : Nat
  endAddr : Nat
  deriving DecidableEq, Repr

def ConstraintRow.constraint (row : ConstraintRow) : DevAddrConstraint :=
  ⟨row.startAddr, row.endAddr⟩

structure OrgDb where
  usedDevaddrs : List UsedDevaddr
  organizations : List Nat
  constraintRows : List ConstraintRow
  nextOui : Nat
  deriving DecidableEq, Repr

def OrgDb.empty : OrgDb := ⟨[], [], [], 1⟩

inductive UpdateAuthorizer where
  | admin
  | org
  deriving DecidableEq, Repr

/-- The DevAddr updates of an `OrgUpdateReqV1`. -/
inductive Update where
  | devaddrs (addrCount : Nat)
  | constraintAdd (constraint : DevAddrConstraint)
  | constraintRemove (constraint : DevAddrConstraint)
  deriving DecidableEq, Repr

/-- `OrgStoreError`, and the gRPC status `create_helium` answers with. Errors whose
source text is a `Debug` rendering carry the rendered value instead. -/
inductive OrgStoreError where
  | invalidUpdate (message : String)
  | invalidConstraintUpdate (cause : DevAddrConstraintsError SqlError)
  | refusedUpdate (update : Update) (authorizer : UpdateAuthorizer)
  | notFound (oui : Nat)
  | saveConstraints (cause : DevAddrConstraintsError SqlError)
  | sqlx (cause : SqlError)
  deriving DecidableEq, Repr

inductive Status where
  | invalidArgument (message : String)
  | failedPrecondition (message : String)
  | internal (cause : OrgStoreError)
  deriving DecidableEq, Repr

/-- The organisation's constraints as `get` returns them: every row of its oui. -/
def OrgDb.orgConstraints (db : OrgDb) (oui : Nat) : List DevAddrConstraint :=
  (db.constraintRows.filter (·.oui = oui)).map ConstraintRow.constraint

/-- `insert_helium_constraints`: an empty value list is invalid SQL. -/
def insertHeliumConstraints (db : OrgDb) (oui netId : Nat) (ranges : List DevAddrConstraint) :
    Except OrgStoreError OrgDb :=
  if ranges = [] then .error (.sqlx .emptyValues)
  else .ok { db with
    constraintRows := db.constraintRows ++ ranges.map (fun c => ⟨oui, netId, c.startAddr, c.endAddr⟩) }

/-- `remove_helium_constraints`: delete every row with this oui, start and end. -/
def removeHeliumConstraints (db : OrgDb) (oui : Nat) (c : DevAddrConstraint) : OrgDb :=
  { db with constraintRows := db.constraintRows.filter (fun row => !(row.oui = oui ∧ row.constraint = c)) }

def checkoutInDb (db : OrgDb) (count : Nat) (netId : HeliumNetId) :
    Except (DevAddrConstraintsError SqlError) (List DevAddrConstraint × OrgDb) := do
  let (constraints, rows) ← checkoutDevaddrConstraints pgAddressStore db.usedDevaddrs count netId
  pure (constraints, { db with usedDevaddrs := rows })

/-- `OrgService::create_helium`: check the requested count, check out addresses,
then `create_org` with the new oui. -/
def createHelium (db : OrgDb) (netId : HeliumNetId) (devaddrs : Nat) :
    Except Status (Nat × OrgDb) := do
  if ¬ (devaddrs ≥ 8 ∧ devaddrs % 2 = 0) then
    throw (.invalidArgument (toString devaddrs ++ " devaddrs requested; minimum 8, even number required"))
  let (constraints, db) ← (checkoutInDb db devaddrs netId).mapError
    (fun _ => .failedPrecondition "helium addresses unavailable")
  let oui := db.nextOui
  let db := { db with organizations := db.organizations ++ [oui], nextOui := oui + 1 }
  let db ← (insertHeliumConstraints db oui netId.id constraints).mapError .internal
  pure (oui, db)

/-- `add_devaddr_slab`. -/
def addDevaddrSlab (db : OrgDb) (oui netId addrCount : Nat) : Except OrgStoreError OrgDb := do
  let heliumNetId ← (HeliumNetId.tryFrom netId).mapError .invalidUpdate
  let (constraints, db) ← (checkoutInDb db addrCount heliumNetId).mapError .saveConstraints
  insertHeliumConstraints db oui netId constraints

/-- `add_constraint_update`. -/
def addConstraintUpdate (db : OrgDb) (oui netId : Nat) (added : DevAddrConstraint) :
    Except OrgStoreError OrgDb := do
  let heliumNetId ← (HeliumNetId.tryFrom netId).mapError .invalidUpdate
  let rows ← (checkoutSpecifiedDevaddrConstraint pgAddressStore db.usedDevaddrs heliumNetId added).mapError
    .invalidConstraintUpdate
  insertHeliumConstraints { db with usedDevaddrs := rows } oui netId [added]

/-- `remove_constraint_update`; `orgConstraints` are those read when the
transaction began. -/
def removeConstraintUpdate (db : OrgDb) (oui netId : Nat) (orgConstraints : List DevAddrConstraint)
    (removed : DevAddrConstraint) : Except OrgStoreError OrgDb := do
  let heliumNetId ← (HeliumNetId.tryFrom netId).mapError .invalidUpdate
  if orgConstraints.contains removed ∧ orgConstraints.length > 1 then
    let removeRange := List.range' removed.startAddr (removed.endAddr + 1 - removed.startAddr)
    let rows ← (pgReleaseAddrs db.usedDevaddrs heliumNetId removeRange).mapError .sqlx
    pure (removeHeliumConstraints { db with usedDevaddrs := rows } oui removed)
  else if orgConstraints.length = 1 then
    throw (.invalidUpdate "org must have at least one constraint range")
  else throw (.invalidUpdate "cannot remove constraint leased by other org")

/-- `get_org_netid`: the net id of some constraint row of the organisation. -/
def getOrgNetid (db : OrgDb) (oui : Nat) : Except OrgStoreError Nat :=
  match db.constraintRows.find? (·.oui = oui) with
  | some row => .ok row.netId
  | none => .error (.sqlx .rowNotFound)

/-- The DevAddr arms of the `update_org` loop; any other combination of update
and authorizer is refused. -/
def applyUpdate (oui netId : Nat) (authorizer : UpdateAuthorizer)
    (orgConstraints : List DevAddrConstraint) (db : OrgDb) (update : Update) :
    Except OrgStoreError OrgDb :=
  if authorizer = .admin ∧ isHeliumNetid netId then
    match update with
    | .devaddrs addrCount => addDevaddrSlab db oui netId addrCount
    | .constraintAdd c => addConstraintUpdate db oui netId c
    | .constraintRemove c => removeConstraintUpdate db oui netId orgConstraints c
  else .error (.refusedUpdate update authorizer)

/-- `update_org`: the organisation and its net id are read once, then every
update runs in the same transaction. -/
def updateOrg (db : OrgDb) (oui : Nat) (authorizer : UpdateAuthorizer) (updates : List Update) :
    Except OrgStoreError OrgDb := do
  if oui ∉ db.organizations then throw (.notFound oui)
  let netId ← getOrgNetid db oui
  updates.foldlM (applyUpdate oui netId authorizer (db.orgConstraints oui)) db

/-- A request to the org service. -/
inductive OrgRequest where
  | createHelium (netId : HeliumNetId) (devaddrs : Nat)
  | updateOrg (oui : Nat) (authorizer : UpdateAuthorizer) (updates : List Update)
  deriving DecidableEq, Repr

/-- One request: its transaction commits all its writes or none. -/
def orgStep (db : OrgDb) : OrgRequest → Option OrgDb
  | .createHelium netId devaddrs =>
    match createHelium db netId devaddrs with
    | .ok (_, db') => some db'
    | .error _ => some db
  | .updateOrg oui authorizer updates =>
    match updateOrg db oui authorizer updates with
    | .ok db' => some db'
    | .error _ => some db

/-! ## The lease invariant of the claim -/

/-- Two rows of distinct organisations cover a common address. -/
def OrgDb.SharedAddress (db : OrgDb) : Prop :=
  ∃ r₁ ∈ db.constraintRows, ∃ r₂ ∈ db.constraintRows, r₁.oui ≠ r₂.oui ∧
    ∃ addr, r₁.constraint.covers addr ∧ r₂.constraint.covers addr

/-- Some constraint of a Helium organisation leaves its NetID's `addr_range`. -/
def OrgDb.ConstraintOutsideRange (db : OrgDb) : Prop :=
  ∃ r ∈ db.constraintRows, ∃ netId, HeliumNetId.tryFrom r.netId = .ok netId ∧
    ¬ (netId.addrRange.1 ≤ r.startAddr ∧ r.endAddr ≤ netId.addrRange.2)

/-! ## Every run keeps the primary key of `helium_used_devaddrs` -/

open HeliumOracles.Lib.Result

theorem insertHeliumConstraints_used {db db' : OrgDb} {oui netId : Nat}
    {ranges : List DevAddrConstraint} (success : insertHeliumConstraints db oui netId ranges = .ok db') :
    db'.usedDevaddrs = db.usedDevaddrs := by
  unfold insertHeliumConstraints at success
  split at success
  · cases success
  · cases success
    rfl

theorem checkoutInDb_unique {db db' : OrgDb} {count : Nat} {netId : HeliumNetId}
    {constraints : List DevAddrConstraint} (before : UsedUnique db.usedDevaddrs)
    (success : checkoutInDb db count netId = .ok (constraints, db')) : UsedUnique db'.usedDevaddrs := by
  obtain ⟨⟨built, rows⟩, checkedOut, success⟩ := bind_ok success
  simp only [pure_ok_iff, Prod.mk.injEq] at success
  rw [← success.2]
  exact checkout_unique before checkedOut

theorem createHelium_unique {db db' : OrgDb} {netId : HeliumNetId} {devaddrs oui : Nat}
    (before : UsedUnique db.usedDevaddrs) (success : createHelium db netId devaddrs = .ok (oui, db')) :
    UsedUnique db'.usedDevaddrs := by
  unfold createHelium at success
  split at success
  · cases success
  · obtain ⟨⟨constraints, checked⟩, checkedOut, success⟩ := bind_ok success
    obtain ⟨inserted, insertedOk, success⟩ := bind_ok success
    simp only [pure_ok_iff, Prod.mk.injEq] at success
    rw [← success.2]
    have unique := checkoutInDb_unique before (mapError_ok_iff.mp checkedOut)
    rw [insertHeliumConstraints_used (mapError_ok_iff.mp insertedOk)]
    exact unique

theorem addDevaddrSlab_unique {db db' : OrgDb} {oui netId addrCount : Nat}
    (before : UsedUnique db.usedDevaddrs) (success : addDevaddrSlab db oui netId addrCount = .ok db') :
    UsedUnique db'.usedDevaddrs := by
  obtain ⟨heliumNetId, -, success⟩ := bind_ok success
  obtain ⟨⟨constraints, checked⟩, checkedOut, success⟩ := bind_ok success
  have unique := checkoutInDb_unique before (mapError_ok_iff.mp checkedOut)
  rw [insertHeliumConstraints_used success]
  exact unique

theorem addConstraintUpdate_unique {db db' : OrgDb} {oui netId : Nat} {added : DevAddrConstraint}
    (before : UsedUnique db.usedDevaddrs) (success : addConstraintUpdate db oui netId added = .ok db') :
    UsedUnique db'.usedDevaddrs := by
  obtain ⟨heliumNetId, -, success⟩ := bind_ok success
  obtain ⟨rows, claimed, success⟩ := bind_ok success
  have unique := checkoutSpecified_unique before (mapError_ok_iff.mp claimed)
  rw [insertHeliumConstraints_used success]
  exact unique

theorem removeConstraintUpdate_unique {db db' : OrgDb} {oui netId : Nat}
    {orgConstraints : List DevAddrConstraint} {removed : DevAddrConstraint}
    (before : UsedUnique db.usedDevaddrs)
    (success : removeConstraintUpdate db oui netId orgConstraints removed = .ok db') :
    UsedUnique db'.usedDevaddrs := by
  obtain ⟨heliumNetId, -, success⟩ := bind_ok success
  split at success
  · obtain ⟨rows, released, success⟩ := bind_ok success
    rw [pure_ok_iff] at success
    rw [← success]
    exact pgReleaseAddrs_unique before (mapError_ok_iff.mp released)
  · split at success <;> cases success

theorem applyUpdate_unique {db db' : OrgDb} {oui netId : Nat} {authorizer : UpdateAuthorizer}
    {orgConstraints : List DevAddrConstraint} {update : Update} (before : UsedUnique db.usedDevaddrs)
    (success : applyUpdate oui netId authorizer orgConstraints db update = .ok db') :
    UsedUnique db'.usedDevaddrs := by
  unfold applyUpdate at success
  split at success
  · cases update with
    | devaddrs addrCount => exact addDevaddrSlab_unique before success
    | constraintAdd c => exact addConstraintUpdate_unique before success
    | constraintRemove c => exact removeConstraintUpdate_unique before success
  · cases success

theorem updateOrg_unique {db db' : OrgDb} {oui : Nat} {authorizer : UpdateAuthorizer}
    {updates : List Update} (before : UsedUnique db.usedDevaddrs)
    (success : updateOrg db oui authorizer updates = .ok db') : UsedUnique db'.usedDevaddrs := by
  unfold updateOrg at success
  split at success
  · cases success
  · obtain ⟨netId, -, success⟩ := bind_ok success
    exact foldlM_invariant (fun db => UsedUnique db.usedDevaddrs) _
      (fun _ _ _ kept applied => applyUpdate_unique kept applied) updates db db' before success

theorem orgStep_unique {db db' : OrgDb} {request : OrgRequest} (before : UsedUnique db.usedDevaddrs)
    (moved : orgStep db request = some db') : UsedUnique db'.usedDevaddrs := by
  cases request with
  | createHelium netId devaddrs =>
    simp only [orgStep] at moved
    split at moved
    · cases moved
      exact createHelium_unique before ‹_›
    · cases moved
      exact before
  | updateOrg oui authorizer updates =>
    simp only [orgStep] at moved
    split at moved
    · cases moved
      exact updateOrg_unique before ‹_›
    · cases moved
      exact before

/-- Over every run of requests, no address is recorded as used twice. -/
theorem reach_usedUnique {db : OrgDb} (reached : Reach orgStep OrgDb.empty db) :
    UsedUnique db.usedDevaddrs := by
  refine reached.invariant (fun db : OrgDb => UsedUnique db.usedDevaddrs) ?_ ?_
  · exact List.nodup_nil
  · intro db request db' kept moved
    exact orgStep_unique kept moved

/-! ## The failing run -/

/-- Type 0 range start. -/
def type0Start : Nat := (HeliumNetId.type0_0x00003c).addrRange.1

/-- Organisation 1 is created with eight addresses; an admin adds to it the
unvalidated constraint `[start + 9, start + 10]` (odd start) and the constraint
`[0, 1]` outside every Helium range; organisation 2 is created with eight
addresses. The allocator pairs the free address `start + 8` with `start + 11`
into one run, which spans organisation 1's `start + 9` and `start + 10`. -/
def sharedLeaseRequests : List OrgRequest :=
  [.createHelium .type0_0x00003c 8,
   .updateOrg 1 .admin [.constraintAdd ⟨type0Start + 9, type0Start + 10⟩, .constraintAdd ⟨0, 1⟩],
   .createHelium .type0_0x00003c 8]

/-- The state after the failing run. -/
def sharedLeaseDb : OrgDb where
  usedDevaddrs := ((List.range' type0Start 8 ++ [type0Start + 9, type0Start + 10, 0, 1] ++
    [type0Start + 8] ++ List.range' (type0Start + 11) 7).map (⟨·, 0x00003c⟩))
  organizations := [1, 2]
  constraintRows := [⟨1, 0x00003c, type0Start, type0Start + 7⟩,
    ⟨1, 0x00003c, type0Start + 9, type0Start + 10⟩, ⟨1, 0x00003c, 0, 1⟩,
    ⟨2, 0x00003c, type0Start + 8, type0Start + 17⟩]
  nextOui := 3

theorem sharedLeaseRequests_run :
    run orgStep OrgDb.empty sharedLeaseRequests = some sharedLeaseDb := by
  decide

/-- After three admin requests, organisation 2's constraint covers addresses that
organisation 1 holds, and organisation 1 holds a constraint outside its NetID's range. -/
theorem helium_orgs_share_devaddr :
    ∃ db, Reach orgStep OrgDb.empty db ∧ db.SharedAddress ∧ db.ConstraintOutsideRange := by
  refine ⟨sharedLeaseDb, reach_of_run sharedLeaseRequests .start sharedLeaseRequests_run, ?_, ?_⟩
  · refine ⟨⟨1, 0x00003c, type0Start + 9, type0Start + 10⟩, by decide,
      ⟨2, 0x00003c, type0Start + 8, type0Start + 17⟩, by decide, by decide, type0Start + 9, ?_, ?_⟩
    · simp [ConstraintRow.constraint, DevAddrConstraint.covers]
    · simp [ConstraintRow.constraint, DevAddrConstraint.covers]
  · exact ⟨⟨1, 0x00003c, 0, 1⟩, by decide, .type0_0x00003c, by decide, by decide⟩

end HeliumOracles.IotConfig
