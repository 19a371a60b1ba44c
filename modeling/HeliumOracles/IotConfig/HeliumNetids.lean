import Mathlib.Data.List.Sort
import Mathlib.Algebra.Group.Nat.Defs
import Mathlib.Algebra.Group.Int.Defs
import HeliumOracles.Lib.Result

/-!
# Helium NetIDs and the DevAddr allocator

Source: `iot_config/src/helium_netids.rs` (NetID constants and ranges,
`AddressStore`, `checkout_devaddr_constraints`,
`checkout_specified_devaddr_constraint`, `constraints_from_addrs`) and
`iot_config/src/lora_field.rs` (`DevAddrConstraint::new`).

Addresses are the `u32` values of `DevAddrField`. The allocator's `last_used + 1`
and `next_addr + 1` are `u32` additions; a release build wraps them, which
`u32Succ` models. The Postgres `AddressStore` is modelled on the
`helium_used_devaddrs` table, whose primary key is the address alone. The
address store is otherwise a parameter, as in the source, which is generic in it.
-/
namespace HeliumOracles.IotConfig

/-- `u32` successor with the wrap of a release build. -/
def u32Succ (n : Nat) : Nat := (n + 1) % 2 ^ 32

inductive HeliumNetId where
  | type0_0x00003c
  | type3_0x60002d
  | type6_0xc00053
  deriving DecidableEq, Repr

/-- The `NetIdField` value of a Helium NetID. -/
def HeliumNetId.id : HeliumNetId → Nat
  | .type0_0x00003c => 0x00003c
  | .type3_0x60002d => 0x60002d
  | .type6_0xc00053 => 0xc00053

/-- `addr_range`, as the bounds of the inclusive range. -/
def HeliumNetId.addrRange : HeliumNetId → Nat × Nat
  | .type0_0x00003c => (2013265920, 2046820351)
  | .type3_0x60002d => (3763994624, 3764125695)
  | .type6_0xc00053 => (4227943424, 4227944447)

/-- `TryFrom<NetIdField> for HeliumNetId`. -/
def HeliumNetId.tryFrom (field : Nat) : Except String HeliumNetId :=
  if field = 0x00003c then .ok .type0_0x00003c
  else if field = 0x60002d then .ok .type3_0x60002d
  else if field = 0xc00053 then .ok .type6_0xc00053
  else .error "not a helium id"

def isHeliumNetid (netId : Nat) : Bool :=
  [0x00003c, 0x60002d, 0xc00053].contains netId

structure DevAddrConstraint where
  startAddr : Nat
  endAddr : Nat
  deriving DecidableEq, Repr

/-- The addresses a constraint covers: the inclusive range from start to end. -/
def DevAddrConstraint.covers (c : DevAddrConstraint) (addr : Nat) : Prop :=
  c.startAddr ≤ addr ∧ addr ≤ c.endAddr

instance (c : DevAddrConstraint) (addr : Nat) : Decidable (c.covers addr) :=
  inferInstanceAs (Decidable (_ ∧ _))

inductive DevAddrRangeError where
  | endLessThanStart
  | rangeUneven
  deriving DecidableEq, Repr

/-- `DevAddrConstraint::new`: a non-empty range from an even start to an odd end. -/
def DevAddrConstraint.new (startAddr endAddr : Nat) :
    Except DevAddrRangeError DevAddrConstraint :=
  if endAddr ≤ startAddr then .error .endLessThanStart
  else if startAddr % 2 ≠ 0 ∨ endAddr % 2 = 0 then .error .rangeUneven
  else .ok ⟨startAddr, endAddr⟩

inductive ConstraintsBuildError where
  | startAddr
  | endAddr
  | invalidConstraint (cause : DevAddrRangeError)
  deriving DecidableEq, Repr

inductive DevAddrConstraintsError (ε : Type) where
  | addressStore (cause : ε)
  | noAvailableAddrs
  | invalidConstraint (cause : ConstraintsBuildError)
  | constraintAddrInUse (requested : List Nat)
  deriving DecidableEq, Repr

/-- The `AddressStore` trait over a store state `σ` with error type `ε`. -/
structure AddressStore (σ ε : Type) where
  getUsedAddrs : σ → HeliumNetId → Except ε (List Nat)
  claimAddrs : σ → HeliumNetId → List Nat → Except ε σ
  releaseAddrs : σ → HeliumNetId → List Nat → Except ε σ

/-! ## `constraints_from_addrs` -/

/-- Loop state of `constraints_from_addrs`: the constraints pushed so far and the
open run `(start_addr, end_addr)`. -/
structure RunBuilder where
  constraints : List DevAddrConstraint
  startAddr : Option Nat
  endAddr : Option Nat
  deriving DecidableEq, Repr

/-- One iteration of the loop. A run with a start and no end takes any next
address as its end; only a run with both checks contiguity. -/
def RunBuilder.push (b : RunBuilder) (addr : Nat) : Except ConstraintsBuildError RunBuilder :=
  match b.startAddr, b.endAddr with
  | none, none => .ok { b with startAddr := some addr }
  | some _, none => .ok { b with endAddr := some addr }
  | some prevAddr, some nextAddr =>
    if addr = u32Succ nextAddr then .ok { b with endAddr := some addr }
    else if addr > u32Succ nextAddr then
      match DevAddrConstraint.new prevAddr nextAddr with
      | .error cause => .error (.invalidConstraint cause)
      | .ok constraint => .ok ⟨b.constraints ++ [constraint], some addr, none⟩
    else .error .endAddr
  | none, some _ => .error .startAddr

def constraintsFromAddrs (addrs : List Nat) :
    Except ConstraintsBuildError (List DevAddrConstraint) := do
  let b ← addrs.foldlM RunBuilder.push ⟨[], none, none⟩
  match b.startAddr, b.endAddr with
  | some remainingStart, some remainingEnd =>
    match DevAddrConstraint.new remainingStart remainingEnd with
    | .error cause => .error (.invalidConstraint cause)
    | .ok constraint => .ok (b.constraints ++ [constraint])
  | _, _ => .error .endAddr

/-! ## `checkout_devaddr_constraints` -/

/-- The `while claimed_addrs.len() < count` loop, run `missing` times: push
`next_addr` while it is in range, else fail with `NoAvailableAddrs`. -/
def appendAbove {ε : Type} (rangeEnd : Nat) :
    Nat → Nat → List Nat → Except (DevAddrConstraintsError ε) (List Nat)
  | 0, _, claimed => .ok claimed
  | missing + 1, nextAddr, claimed =>
    if nextAddr ≤ rangeEnd then appendAbove rangeEnd missing (u32Succ nextAddr) (claimed ++ [nextAddr])
    else .error .noAvailableAddrs

/-- The free addresses below the highest used one, in increasing order: the sorted
difference of the `HashSet`s `range_start..=last_used` and `used_addrs`. -/
def availableDiff (rangeStart lastUsed : Nat) (usedAddrs : List Nat) : List Nat :=
  (List.range' rangeStart (lastUsed + 1 - rangeStart)).filter (· ∉ usedAddrs)

/-- The addresses `checkout_devaddr_constraints` passes to `claim_addrs`, before
the store is touched. -/
def claimedAddrs {ε : Type} (count : Nat) (netId : HeliumNetId) (usedAddrs : List Nat) :
    Except (DevAddrConstraintsError ε) (List Nat) :=
  let rangeStart := netId.addrRange.1
  let lastUsed := usedAddrs.getLast?.getD rangeStart
  let drained := (availableDiff rangeStart lastUsed usedAddrs).take count
  appendAbove netId.addrRange.2 (count - drained.length) (u32Succ lastUsed) drained

def checkoutDevaddrConstraints {σ ε : Type} (store : AddressStore σ ε) (s : σ) (count : Nat)
    (netId : HeliumNetId) : Except (DevAddrConstraintsError ε) (List DevAddrConstraint × σ) := do
  let usedAddrs ← (store.getUsedAddrs s netId).mapError .addressStore
  let claimed ← claimedAddrs count netId usedAddrs
  let claimedStore ← (store.claimAddrs s netId claimed).mapError .addressStore
  let constraints ← (constraintsFromAddrs claimed).mapError .invalidConstraint
  pure (constraints, claimedStore)

/-- `checkout_specified_devaddr_constraint`: the requested range is refused only when
one of its addresses is used under the same NetID. -/
def checkoutSpecifiedDevaddrConstraint {σ ε : Type} (store : AddressStore σ ε) (s : σ)
    (netId : HeliumNetId) (requested : DevAddrConstraint) :
    Except (DevAddrConstraintsError ε) σ := do
  let usedAddrs ← (store.getUsedAddrs s netId).mapError .addressStore
  let requestAddrs := List.range' requested.startAddr (requested.endAddr + 1 - requested.startAddr)
  if requestAddrs.any (· ∈ usedAddrs) then .error (.constraintAddrInUse requestAddrs)
  else (store.claimAddrs s netId requestAddrs).mapError .addressStore

/-! ## The Postgres address store -/

/-- A row of `helium_used_devaddrs`. -/
structure UsedDevaddr where
  devaddr : Nat
  netId : Nat
  deriving DecidableEq, Repr

inductive SqlError where
  | uniqueViolation
  | emptyValues
  | rowNotFound
  deriving DecidableEq, Repr

/-- The `int` column orders addresses by their `i32` image. -/
def toI32 (addr : Nat) : Int := if addr < 2 ^ 31 then addr else addr - 2 ^ 32

/-- `select devaddr ... where net_id = $1 order by devaddr asc`. -/
def pgGetUsedAddrs (rows : List UsedDevaddr) (netId : HeliumNetId) : List Nat :=
  ((rows.filter (·.netId = netId.id)).map (·.devaddr)).insertionSort (fun a b => toI32 a ≤ toI32 b)

/-- `insert into helium_used_devaddrs (devaddr, net_id) values ...`: an empty value
list is invalid SQL, and the primary key refuses an address already present. -/
def pgClaimAddrs (rows : List UsedDevaddr) (netId : HeliumNetId) (newAddrs : List Nat) :
    Except SqlError (List UsedDevaddr) :=
  if newAddrs = [] then .error .emptyValues
  else if newAddrs.Nodup ∧ newAddrs.all (fun addr => rows.all (·.devaddr ≠ addr)) then
    .ok (rows ++ newAddrs.map (fun addr => ⟨addr, netId.id⟩))
  else .error .uniqueViolation

/-- `delete from helium_used_devaddrs where (devaddr, net_id) in ...`. -/
def pgReleaseAddrs (rows : List UsedDevaddr) (netId : HeliumNetId) (released : List Nat) :
    Except SqlError (List UsedDevaddr) :=
  if released = [] then .error .emptyValues
  else .ok (rows.filter (fun row => !(row.devaddr ∈ released ∧ row.netId = netId.id)))

def pgAddressStore : AddressStore (List UsedDevaddr) SqlError where
  getUsedAddrs rows netId := .ok (pgGetUsedAddrs rows netId)
  claimAddrs := pgClaimAddrs
  releaseAddrs := pgReleaseAddrs

/-! ## The primary key of `helium_used_devaddrs` -/

open HeliumOracles.Lib.Result

/-- No address is recorded twice. -/
def UsedUnique (rows : List UsedDevaddr) : Prop := (rows.map (·.devaddr)).Nodup

theorem pgClaimAddrs_unique {rows rows' : List UsedDevaddr} {netId : HeliumNetId}
    {newAddrs : List Nat} (before : UsedUnique rows)
    (success : pgClaimAddrs rows netId newAddrs = .ok rows') : UsedUnique rows' := by
  unfold pgClaimAddrs at success
  split at success
  · cases success
  · split at success
    · rename_i admitted
      cases success
      obtain ⟨fresh, outside⟩ := admitted
      simp only [List.all_eq_true, decide_eq_true_eq] at outside
      simp only [UsedUnique, List.map_append, List.map_map, Function.comp_def, List.map_id']
      refine List.nodup_append.mpr ⟨before, fresh, ?_⟩
      intro old oldMem new newMem same
      obtain ⟨row, rowMem, rfl⟩ := List.mem_map.mp oldMem
      exact outside new newMem row rowMem same
    · cases success

theorem pgReleaseAddrs_unique {rows rows' : List UsedDevaddr} {netId : HeliumNetId}
    {released : List Nat} (before : UsedUnique rows)
    (success : pgReleaseAddrs rows netId released = .ok rows') : UsedUnique rows' := by
  unfold pgReleaseAddrs at success
  split at success
  · cases success
  · cases success
    exact before.sublist ((List.filter_sublist).map _)

theorem checkout_unique {rows rows' : List UsedDevaddr} {count : Nat} {netId : HeliumNetId}
    {constraints : List DevAddrConstraint} (before : UsedUnique rows)
    (success : checkoutDevaddrConstraints pgAddressStore rows count netId = .ok (constraints, rows')) :
    UsedUnique rows' := by
  obtain ⟨usedAddrs, -, success⟩ := bind_ok success
  obtain ⟨claimed, -, success⟩ := bind_ok success
  obtain ⟨claimedRows, claimedOk, success⟩ := bind_ok success
  obtain ⟨built, -, success⟩ := bind_ok success
  simp only [pure_ok_iff, Prod.mk.injEq] at success
  rw [← success.2]
  exact pgClaimAddrs_unique before (mapError_ok_iff.mp claimedOk)

theorem checkoutSpecified_unique {rows rows' : List UsedDevaddr} {netId : HeliumNetId}
    {requested : DevAddrConstraint} (before : UsedUnique rows)
    (success : checkoutSpecifiedDevaddrConstraint pgAddressStore rows netId requested = .ok rows') :
    UsedUnique rows' := by
  obtain ⟨usedAddrs, -, success⟩ := bind_ok success
  dsimp only at success
  split at success
  · cases success
  · exact pgClaimAddrs_unique before (mapError_ok_iff.mp success)

/-! ## A checkout whose constraint spans used addresses -/

/-- Addresses `start + 1` to `start + 4` of the type 0 range in use, `start` free. -/
def innerUsedRows : List UsedDevaddr :=
  (List.range' (HeliumNetId.type0_0x00003c.addrRange.1 + 1) 4).map (⟨·, 0x00003c⟩)

/-- Checking out two addresses claims the free `start` and `start + 5`, the first
address above the used ones. `constraints_from_addrs` takes any second address as the
end of its first run, so the one constraint it returns, `start..=start + 5`, covers the
four used addresses between them. -/
theorem checkout_spans_used_addrs :
    checkoutDevaddrConstraints pgAddressStore innerUsedRows 2 .type0_0x00003c =
      .ok ([⟨2013265920, 2013265925⟩],
        innerUsedRows ++ [⟨2013265920, 0x00003c⟩, ⟨2013265925, 0x00003c⟩]) ∧
    (⟨2013265920, 2013265925⟩ : DevAddrConstraint).covers 2013265921 ∧
    2013265921 ∈ pgGetUsedAddrs innerUsedRows .type0_0x00003c := by
  decide

end HeliumOracles.IotConfig
