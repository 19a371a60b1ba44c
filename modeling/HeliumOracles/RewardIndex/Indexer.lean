import Mathlib
import HeliumOracles.Lib.AssocMap
import HeliumOracles.Lib.Word
import HeliumOracles.Lib.Transition
import HeliumOracles.FileStore.FileInfo

/-!
# The reward index

Source: `reward_index/src/indexer.rs` (`Indexer::new`, `Indexer::run`, `handle_rewards`,
`extract_reward_share`) and `reward_index/src/reward_index.rs` (`insert`), with the table of
`migrations/3_index.sql` and `5_add_type_to_index.sql`.

The indexer reads the reward manifests the verifiers write, each in one transaction. The
records of the manifest's files, read in any interleaving (`source_unordered`), are decoded
into a reward key and an amount and summed per key in a `HashMap`, whose `u64` additions
wrap (the release profile has no overflow checks). Each sum is then upserted into
`reward_index` by address, in the map's order, which is its own: the amount is bound
`as i64` and added in `bigint`, which raises an error out of range. An error rolls the
transaction back and ends `run`, and the manifest is read again after a restart: a manifest
that fails is a step that does not happen.

A record is its decoded protobuf, and a record of the other network's type is taken not to
decode; variants of `reward` that the match does not name fail as a missing one does. A
hotspot key or a subscriber id is its string form (`PublicKeyBinary::to_string`, `bs58`),
and `ServiceProvider::from_i32` with its `to_string`, which helium-proto defines, is the
parameter `serviceProvider`. The telemetry write after the commit is left out.

What the index is for (`expected`): for each address, the total its manifests paid it and
the end time of the last manifest that paid it anything. `index_holds_totals`: every run from
the empty index holds exactly that, whatever order the records were read in and the map was
walked in, as long as no address's total reaches `2 ^ 63`. The `reward_type` a row keeps is
the type of its first insert, which depends on those orders when an address is paid under
two types; it is not part of the statement.
-/
namespace HeliumOracles.RewardIndex

open Lib.AssocMap Lib.Word Lib.Transition FileStore
open scoped List

/-- `RewardType`, the `reward_type` enum of the table. -/
inductive RewardType where
  | mobileGateway | iotGateway | iotOperational | mobileSubscriber | mobileServiceProvider
  | mobileUnallocated | iotUnallocated
deriving DecidableEq, Repr

/-- `RewardKey`, the key of the `HashMap`. -/
structure RewardKey where
  key : String
  rewardType : RewardType
deriving DecidableEq, Repr

/-- `settings::Mode`. -/
inductive Mode where
  | iot | mobile
deriving DecidableEq, Repr

/-- The fields of `Settings` that `Indexer::new` reads. -/
structure Settings where
  mode : Mode
  operationFundKey : Option String
  unallocatedRewardEntityKey : Option String
deriving DecidableEq, Repr

/-- The fields of `Indexer` that `extract_reward_share` reads. -/
structure Indexer where
  mode : Mode
  opFundKey : String
  unallocatedRewardKey : String
deriving DecidableEq, Repr

/-- `Indexer::new`, past connecting to the verifiers' bucket. -/
def Indexer.new (settings : Settings) : Except String Indexer := do
  let opFundKey ← match settings.mode with
    | .iot =>
      match settings.operationFundKey with
      | some key => pure key
      | none => throw "operation fund key is required for IOT mode"
    | .mobile => pure ""
  let unallocatedRewardKey ← match settings.unallocatedRewardEntityKey with
    | some key => pure key
    | none => throw "missing unallocated reward key"
  pure ⟨settings.mode, opFundKey, unallocatedRewardKey⟩

/-! ## Reading a manifest -/

/-- The `reward` of a `MobileRewardShare`, in the variants the indexer reads. -/
inductive MobileReward where
  | radioReward (hotspotKey : String) (pocReward : ℕ)
  | gatewayReward (hotspotKey : String) (dcTransferReward : ℕ)
  | subscriberReward (subscriberId : String) (discoveryLocationAmount : ℕ)
  | serviceProviderReward (serviceProviderId : ℤ) (amount : ℕ)
  | unallocatedReward (amount : ℕ)
deriving DecidableEq, Repr

/-- The `reward` of an `IotRewardShare`. -/
inductive IotReward where
  | gatewayReward (hotspotKey : String) (beaconAmount witnessAmount dcTransferAmount : ℕ)
  | operationalReward (amount : ℕ)
  | unallocatedReward (amount : ℕ)
deriving DecidableEq, Repr

/-- A record of a reward file as the decoder reads it: a share of either network, whose
`reward` may be missing, or bytes that do not decode. -/
inductive Record where
  | mobile (reward : Option MobileReward)
  | iot (reward : Option IotReward)
  | undecodable
deriving DecidableEq, Repr

/-- The errors of reading a record: the decoder's, and the `bail!`s. -/
inductive IndexError where
  | decode
  | message (text : String)
deriving DecidableEq, Repr

/-- `Indexer::extract_reward_share`. -/
def Indexer.extractRewardShare (indexer : Indexer) (serviceProvider : ℤ → Option String) :
    Record → Except IndexError (RewardKey × ℕ)
  | .mobile reward =>
    match indexer.mode, reward with
    | .mobile, some (.radioReward hotspotKey pocReward) =>
      .ok (⟨hotspotKey, .mobileGateway⟩, pocReward)
    | .mobile, some (.gatewayReward hotspotKey dcTransferReward) =>
      .ok (⟨hotspotKey, .mobileGateway⟩, dcTransferReward)
    | .mobile, some (.subscriberReward subscriberId discoveryLocationAmount) =>
      .ok (⟨subscriberId, .mobileSubscriber⟩, discoveryLocationAmount)
    | .mobile, some (.serviceProviderReward serviceProviderId amount) =>
      match serviceProvider serviceProviderId with
      | some name => .ok (⟨name, .mobileServiceProvider⟩, amount)
      | none => .error (.message "failed to decode service provider")
    | .mobile, some (.unallocatedReward amount) =>
      .ok (⟨indexer.unallocatedRewardKey, .mobileUnallocated⟩, amount)
    | .mobile, none => .error (.message "got an invalid reward share")
    | .iot, _ => .error .decode
  | .iot reward =>
    match indexer.mode, reward with
    | .iot, some (.gatewayReward hotspotKey beaconAmount witnessAmount dcTransferAmount) =>
      -- `witness_amount + beacon_amount + dc_transfer_amount` on `u64`
      .ok (⟨hotspotKey, .iotGateway⟩,
        wrappingAdd 64 (wrappingAdd 64 witnessAmount beaconAmount) dcTransferAmount)
    | .iot, some (.operationalReward amount) =>
      .ok (⟨indexer.opFundKey, .iotOperational⟩, amount)
    | .iot, some (.unallocatedReward amount) =>
      .ok (⟨indexer.unallocatedRewardKey, .iotUnallocated⟩, amount)
    | .iot, none => .error (.message "got an invalid iot reward share")
    | .mobile, _ => .error .decode
  | .undecodable => .error .decode

/-- The `hotspot_rewards` loop: `*entry(key).or_default() += amount`, on `u64`. -/
def accumulate (shares : List (RewardKey × ℕ)) : Map RewardKey ℕ :=
  shares.foldl (fun acc share => modifyEntry share.1 0 (fun held => wrappingAdd 64 held share.2) acc) []

/-- The fields of `RewardManifest` the indexer reads. -/
structure RewardManifest where
  writtenFiles : List String
  endTimestamp : ℤ
deriving DecidableEq, Repr

/-- The records of a manifest's files: each name parsed by `FileInfo::from_str`, then read
from the verifiers' bucket, whose contents are `store`; `none` is an error of either. -/
def manifestRecords (store : String → Option (List Record)) (manifest : RewardManifest) :
    Option (List Record) :=
  (manifest.writtenFiles.mapM fun name =>
    match FileInfo.fromStr name with
    | .ok _ => store name
    | .error _ => none).map List.flatten

/-! ## The table -/

/-- A row of `reward_index`, whose primary key is the address. -/
structure Row where
  rewards : ℤ
  lastReward : ℤ
  rewardType : RewardType
deriving DecidableEq, Repr

/-- `reward_index::insert`: `insert ... on conflict(address) do update`; `none` is the error
`bigint` raises out of range. -/
def insert (table : Map String Row) (address : String) (amount : ℕ) (rewardType : RewardType)
    (timestamp : ℤ) : Option (Map String Row) :=
  -- the safeguard against 0 amount shares updating the last rewarded timestamp
  if amount = 0 then some table
  else
    let bound := toSigned 64 amount
    match get table address with
    | none => some (modifyEntry address ⟨bound, timestamp, rewardType⟩ id table)
    | some row =>
      (checkedSigned 64 (row.rewards + bound)).map fun rewards =>
        modifyEntry address row (fun held => { held with rewards, lastReward := timestamp }) table

/-- The `for (reward_key, amount) in hotspot_rewards` loop, in the order the map is walked. -/
def insertAll (table : Map String Row) (entries : List (RewardKey × ℕ)) (timestamp : ℤ) :
    Option (Map String Row) :=
  entries.foldlM (fun table entry => insert table entry.1.key entry.2 entry.1.rewardType timestamp)
    table

/-! ## Runs of the indexer -/

structure State where
  table : Map String Row
  /-- The shares and end time of every manifest committed, in order. -/
  payouts : List (List (RewardKey × ℕ) × ℤ)
deriving DecidableEq, Repr

def State.initial : State := ⟨[], []⟩

/-- A pass of `run`'s loop: a manifest, its records in the order `source_unordered` yields
them, and the map's entries in the order the loop walks them. -/
inductive Event where
  | process (manifest : RewardManifest) (records : List Record) (order : List (RewardKey × ℕ))
deriving DecidableEq, Repr

section Run

variable (indexer : Indexer) (serviceProvider : ℤ → Option String)
  (store : String → Option (List Record))

/-- `handle_rewards` and the commit of its transaction. -/
def step (s : State) : Event → Option State
  | .process manifest records order => do
    let stored ← manifestRecords store manifest
    -- `source_unordered` interleaves the files' records
    if records ~ stored then
      let shares ← (records.mapM (indexer.extractRewardShare serviceProvider)).toOption
      -- a `HashMap` is walked in an order of its own
      if order ~ accumulate shares then
        let table ← insertAll s.table order manifest.endTimestamp
        pure ⟨table, s.payouts ++ [(shares, manifest.endTimestamp)]⟩
      else none
    else none

end Run

/-! ## What the index is for -/

/-- What the shares of one manifest pay an address, under every reward type. -/
def paid (shares : List (RewardKey × ℕ)) (address : String) : ℕ :=
  (shares.map fun share => if share.1.key = address then share.2 else 0).sum

/-- What a list of manifests paid an address in all. -/
def totalPaid (payouts : List (List (RewardKey × ℕ) × ℤ)) (address : String) : ℕ :=
  (payouts.map fun payout => paid payout.1 address).sum

/-- The end time of the last manifest that paid an address anything. -/
def lastPaid (payouts : List (List (RewardKey × ℕ) × ℤ)) (address : String) : Option ℤ :=
  ((payouts.filter fun payout => 0 < paid payout.1 address).getLast?).map (·.2)

/-- What the index should say of an address: its total and the end of the last manifest
that paid it, once one did. -/
def expected (payouts : List (List (RewardKey × ℕ) × ℤ)) (address : String) : Option (ℤ × ℤ) :=
  (lastPaid payouts address).map fun time => (totalPaid payouts address, time)

/-- What the table says of an address. -/
def view (table : Map String Row) (address : String) : Option (ℤ × ℤ) :=
  (get table address).map fun row => (row.rewards, row.lastReward)

/-- What a manifest that pays `amount` at `time` makes of what the index says. -/
def merge (said : Option (ℤ × ℤ)) (amount : ℕ) (time : ℤ) : Option (ℤ × ℤ) :=
  if amount = 0 then said else some ((said.map (·.1)).getD 0 + amount, time)

/-! ## The accumulation -/

theorem paid_cons (share : RewardKey × ℕ) (shares : List (RewardKey × ℕ)) (address : String) :
    paid (share :: shares) address =
      (if share.1.key = address then share.2 else 0) + paid shares address := by
  simp [paid]

theorem paid_perm {shares shares' : List (RewardKey × ℕ)} (perm : shares ~ shares')
    (address : String) : paid shares address = paid shares' address :=
  (perm.map _).sum_eq

/-- An entry's amount is part of what its address is paid. -/
theorem le_paid_of_mem {entries : List (RewardKey × ℕ)} {entry : RewardKey × ℕ}
    (member : entry ∈ entries) : entry.2 ≤ paid entries entry.1.key := by
  have term := List.mem_map_of_mem (f := fun share : RewardKey × ℕ =>
    if share.1.key = entry.1.key then share.2 else 0) member
  simpa [paid] using List.le_sum_of_mem term

theorem getD_le_paid (acc : Map RewardKey ℕ) (rewardKey : RewardKey) :
    (get acc rewardKey).getD 0 ≤ paid acc rewardKey.key := by
  cases found : get acc rewardKey with
  | none => exact Nat.zero_le _
  | some held => exact le_paid_of_mem (mem_of_get_eq_some found)

/-- One share added to the map, when its key's sum stays below `2 ^ 64`. -/
theorem paid_modifyEntry {acc : Map RewardKey ℕ} {share : RewardKey × ℕ}
    (fits : (get acc share.1).getD 0 + share.2 < 2 ^ 64) (address : String) :
    paid (modifyEntry share.1 0 (fun held => wrappingAdd 64 held share.2) acc) address =
      paid acc address + (if share.1.key = address then share.2 else 0) := by
  have exact : modifyEntry share.1 0 (fun held => wrappingAdd 64 held share.2) acc =
      modifyEntry share.1 0 (fun held => held + share.2) acc :=
    modifyEntry_congr (wrappingAdd_of_lt fits)
  rw [exact]
  exact sum_modifyEntry_keyed (fun rewardKey held => if rewardKey.key = address then held else 0)
    share.1 0 (fun held => held + share.2) (if share.1.key = address then share.2 else 0) (by simp)
    (fun held => by split_ifs <;> simp) acc

/-- The sums of the map pay each address what the shares do, while no sum wraps. -/
theorem paid_foldl_accumulate : ∀ (shares : List (RewardKey × ℕ)) (acc : Map RewardKey ℕ),
    (∀ address, paid acc address + paid shares address < 2 ^ 64) → ∀ address,
      paid (shares.foldl (fun acc share =>
          modifyEntry share.1 0 (fun held => wrappingAdd 64 held share.2) acc) acc) address =
        paid acc address + paid shares address
  | [], acc, _, address => by simp [paid]
  | share :: shares, acc, fits, address => by
    -- the sum under the share's key is part of what its address is paid
    have keyFits : (get acc share.1).getD 0 + share.2 < 2 ^ 64 := by
      have held := getD_le_paid acc share.1
      have total := fits share.1.key
      rw [paid_cons, if_pos rfl] at total
      omega
    have added := paid_modifyEntry keyFits
    have restFits : ∀ address, paid (modifyEntry share.1 0
        (fun held => wrappingAdd 64 held share.2) acc) address + paid shares address < 2 ^ 64 := by
      intro other
      have total := fits other
      rw [paid_cons] at total
      rw [added other]
      omega
    rw [List.foldl_cons, paid_foldl_accumulate shares _ restFits address, added address, paid_cons]
    omega

theorem paid_accumulate {shares : List (RewardKey × ℕ)}
    (fits : ∀ address, paid shares address < 2 ^ 64) (address : String) :
    paid (accumulate shares) address = paid shares address := by
  have fromEmpty := paid_foldl_accumulate shares [] (fun other => by simpa [paid] using fits other)
    address
  simpa [paid, accumulate] using fromEmpty

/-! ## The table -/

theorem merge_zero (said : Option (ℤ × ℤ)) (time : ℤ) : merge said 0 time = said := by
  simp [merge]

theorem merge_merge (said : Option (ℤ × ℤ)) (amount amount' : ℕ) (time : ℤ) :
    merge (merge said amount time) amount' time = merge said (amount + amount') time := by
  unfold merge
  by_cases first : amount = 0 <;> by_cases second : amount' = 0 <;> simp [first, second]
  ring

/-- An insert adds a nonzero amount to its address's row and stamps it, and leaves every
other row as it was. -/
theorem view_insert {table table' : Map String Row} {address : String} {amount : ℕ}
    {rewardType : RewardType} {timestamp : ℤ}
    (inserted : insert table address amount rewardType timestamp = some table')
    (fits : amount < 2 ^ 63) (other : String) :
    view table' other =
      if address = other then merge (view table other) amount timestamp else view table other := by
  unfold insert at inserted
  by_cases zero : amount = 0
  · rw [if_pos zero, Option.some.injEq] at inserted
    subst inserted
    split_ifs <;> simp [zero, merge_zero]
  · have bound : toSigned 64 amount = amount := toSigned_of_lt fits
    rw [if_neg zero, bound] at inserted
    cases found : get table address with
    | none =>
      simp only [found, Option.some.injEq] at inserted
      subst inserted
      by_cases here : address = other
      · subst here
        simp [view, get_modifyEntry_self, found, merge, zero]
      · simp [view, get_modifyEntry_of_ne (Ne.symm here), here]
    | some row =>
      simp only [found] at inserted
      obtain ⟨rewards, checked, rfl⟩ := Option.map_eq_some_iff.mp inserted
      obtain ⟨-, sum⟩ := checkedSigned_eq_some.mp checked
      by_cases here : address = other
      · subst here
        simp [view, get_modifyEntry_self, found, merge, zero, sum]
      · simp [view, get_modifyEntry_of_ne (Ne.symm here), here]

/-- The inserts of a manifest add, at each address, what its entries pay it. -/
theorem view_insertAll : ∀ {entries : List (RewardKey × ℕ)} {table table' : Map String Row}
    {timestamp : ℤ}, insertAll table entries timestamp = some table' →
    (∀ entry ∈ entries, entry.2 < 2 ^ 63) → ∀ address,
      view table' address = merge (view table address) (paid entries address) timestamp
  | [], table, table', timestamp, inserted, _, address => by
    simp only [insertAll, List.foldlM_nil, Option.pure_def, Option.some.injEq] at inserted
    subst inserted
    simp [paid, merge_zero]
  | entry :: entries, table, table', timestamp, inserted, fits, address => by
    simp only [insertAll, List.foldlM_cons, Option.bind_eq_bind, Option.bind_eq_some_iff] at inserted
    obtain ⟨middle, first, rest⟩ := inserted
    have later := view_insertAll rest (fun other member => fits other (List.mem_cons_of_mem _ member))
      address
    rw [later, view_insert first (fits entry List.mem_cons_self) address, paid_cons]
    by_cases here : entry.1.key = address
    · simp [here, merge_merge]
    · simp [here]

/-! ## The history -/

theorem totalPaid_append (payouts more : List (List (RewardKey × ℕ) × ℤ)) (address : String) :
    totalPaid (payouts ++ more) address = totalPaid payouts address + totalPaid more address := by
  simp [totalPaid]

/-- An address no manifest paid has a total of nothing. -/
theorem totalPaid_of_lastPaid_none {payouts : List (List (RewardKey × ℕ) × ℤ)} {address : String}
    (never : lastPaid payouts address = none) : totalPaid payouts address = 0 := by
  simp only [lastPaid, Option.map_eq_none_iff, List.getLast?_eq_none_iff, List.filter_eq_nil_iff,
    decide_eq_true_eq, not_lt, Nat.le_zero] at never
  simp only [totalPaid, List.sum_eq_zero_iff, List.mem_map]
  rintro _ ⟨payout, member, rfl⟩
  exact never payout member

theorem expected_total (payouts : List (List (RewardKey × ℕ) × ℤ)) (address : String) :
    ((expected payouts address).map (·.1)).getD 0 = totalPaid payouts address := by
  cases last : lastPaid payouts address with
  | none => simp [expected, last, totalPaid_of_lastPaid_none last]
  | some time => simp [expected, last]

/-- One more manifest merges what it pays into what the index should say. -/
theorem expected_append (payouts : List (List (RewardKey × ℕ) × ℤ))
    (shares : List (RewardKey × ℕ)) (time : ℤ) (address : String) :
    expected (payouts ++ [(shares, time)]) address =
      merge (expected payouts address) (paid shares address) time := by
  have total : totalPaid (payouts ++ [(shares, time)]) address =
      totalPaid payouts address + paid shares address := by
    simp [totalPaid]
  by_cases zero : paid shares address = 0
  · have last : lastPaid (payouts ++ [(shares, time)]) address = lastPaid payouts address := by
      simp [lastPaid, List.filter_append, zero]
    simp only [expected, last, total, zero, add_zero, merge_zero]
  · have last : lastPaid (payouts ++ [(shares, time)]) address = some time := by
      simp [lastPaid, List.filter_append, Nat.pos_of_ne_zero zero]
    rw [expected, last, merge, if_neg zero, expected_total, total]
    simp

/-- A step commits one manifest: its shares, summed in a map walked in some order, and
inserted into the table. -/
theorem step_cases {indexer : Indexer} {serviceProvider : ℤ → Option String}
    {store : String → Option (List Record)} {s s' : State} {event : Event}
    (stepped : step indexer serviceProvider store s event = some s') :
    ∃ shares order timestamp, order ~ accumulate shares ∧
      insertAll s.table order timestamp = some s'.table ∧
      s'.payouts = s.payouts ++ [(shares, timestamp)] := by
  cases event with
  | process manifest records order =>
    simp only [step, Option.bind_eq_bind, Option.bind_eq_some_iff] at stepped
    obtain ⟨stored, -, stepped⟩ := stepped
    split_ifs at stepped with readOrder
    obtain ⟨shares, -, stepped⟩ := Option.bind_eq_some_iff.mp stepped
    split_ifs at stepped with walked
    obtain ⟨table, inserted, committed⟩ := Option.bind_eq_some_iff.mp stepped
    cases Option.some.inj committed
    exact ⟨shares, order, manifest.endTimestamp, walked, inserted, rfl⟩

/-- What the index says of every address is what it is for, while no total reaches
`2 ^ 63`. -/
def Holds (s : State) : Prop :=
  (∀ address, totalPaid s.payouts address < 2 ^ 63) →
    ∀ address, view s.table address = expected s.payouts address

theorem holds_initial : Holds State.initial := by
  intro _ address
  simp [State.initial, view, expected, lastPaid]

theorem step_holds {indexer : Indexer} {serviceProvider : ℤ → Option String}
    {store : String → Option (List Record)} {s s' : State} {event : Event} (holds : Holds s)
    (stepped : step indexer serviceProvider store s event = some s') : Holds s' := by
  obtain ⟨shares, order, timestamp, walked, inserted, payoutsIs⟩ := step_cases stepped
  intro fits address
  -- the totals before the step are part of the totals after it
  have paidFits : ∀ other, totalPaid s.payouts other + paid shares other < 2 ^ 63 := by
    intro other
    have after := fits other
    rw [payoutsIs, totalPaid_append] at after
    simpa [totalPaid] using after
  have before := holds (fun other => by have := paidFits other; omega)
  have summed : ∀ other, paid (accumulate shares) other = paid shares other :=
    paid_accumulate (fun other => by have := paidFits other; omega)
  -- no entry of the map reaches `2 ^ 63`, so each is bound `as i64` unchanged
  have entriesFit : ∀ entry ∈ order, entry.2 < 2 ^ 63 := by
    intro entry member
    have bounded := le_paid_of_mem (walked.subset member)
    have total := paidFits entry.1.key
    rw [summed] at bounded
    omega
  rw [view_insertAll inserted entriesFit address, before, payoutsIs, expected_append,
    paid_perm walked, summed]

/-- The reward index holds, at every address, the total of what the committed manifests
paid it and the end time of the last one that paid it anything, and no row for an address
never paid: in every run from the empty index, whatever order each manifest's records were
read in and its map was walked in, as long as no address's total reaches `2 ^ 63`. -/
theorem index_holds_totals {indexer : Indexer} {serviceProvider : ℤ → Option String}
    {store : String → Option (List Record)} {s : State}
    (reached : Reach (step indexer serviceProvider store) State.initial s)
    (fits : ∀ address, totalPaid s.payouts address < 2 ^ 63) (address : String) :
    view s.table address = expected s.payouts address :=
  reached.invariant Holds holds_initial (fun _ _ _ holds stepped => step_holds holds stepped)
    fits address

/-! ## Progress -/

/-- The total a table holds for an address. -/
def held (table : Map String Row) (address : String) : ℤ := ((view table address).map (·.1)).getD 0

theorem held_merge (said : Option (ℤ × ℤ)) (amount : ℕ) (time : ℤ) :
    ((merge said amount time).map (·.1)).getD 0 = (said.map (·.1)).getD 0 + amount := by
  unfold merge
  split_ifs with zero <;> simp [zero]

/-- An insert succeeds while the total it makes stays in `bigint`. -/
theorem insert_isSome {table : Map String Row} {address : String} {amount : ℕ}
    (rewardType : RewardType) (timestamp : ℤ) (fits : amount < 2 ^ 63)
    (nonneg : 0 ≤ held table address) (inRange : held table address + amount < 2 ^ 63) :
    (insert table address amount rewardType timestamp).isSome := by
  unfold insert
  by_cases zero : amount = 0
  · simp [zero]
  · rw [if_neg zero, toSigned_of_lt fits]
    cases found : get table address with
    | none => simp
    | some row =>
      have rewardsIs : held table address = row.rewards := by simp [held, view, found]
      have checked : checkedSigned 64 (row.rewards + amount) = some (row.rewards + amount) :=
        checkedSigned_eq_some.mpr ⟨⟨by norm_num; omega, by norm_num; omega⟩, rfl⟩
      simp [checked]

/-- The inserts of a manifest succeed while every total they make stays in `bigint`. -/
theorem insertAll_isSome : ∀ {entries : List (RewardKey × ℕ)} {table : Map String Row}
    (timestamp : ℤ), (∀ entry ∈ entries, entry.2 < 2 ^ 63) →
    (∀ address, 0 ≤ held table address ∧ held table address + paid entries address < 2 ^ 63) →
      (insertAll table entries timestamp).isSome
  | [], table, timestamp, _, _ => by simp [insertAll]
  | entry :: entries, table, timestamp, fits, inRange => by
    have first := inRange entry.1.key
    rw [paid_cons, if_pos rfl] at first
    obtain ⟨middle, inserted⟩ := Option.isSome_iff_exists.mp
      (insert_isSome entry.1.rewardType timestamp (fits entry List.mem_cons_self) first.1
        (by omega))
    -- after the first insert, each total has grown by what the entry paid it
    have grown : ∀ address, held middle address =
        held table address + (if entry.1.key = address then entry.2 else 0) := by
      intro address
      rw [held, view_insert inserted (fits entry List.mem_cons_self) address]
      split_ifs with here
      · rw [held_merge, held]
      · simp [held]
    have later := @insertAll_isSome entries middle timestamp
      (fun other member => fits other (List.mem_cons_of_mem _ member)) (fun address => by
        have total := inRange address
        rw [paid_cons] at total
        rw [grown address]
        by_cases here : entry.1.key = address
        · simp only [here, if_true] at total ⊢
          omega
        · simp only [here, if_false] at total ⊢
          omega)
    simpa [insertAll, List.foldlM_cons, inserted] using later

/-- The indexer never fails on a manifest that keeps every total below `2 ^ 63`: from any
reachable index, a manifest whose files are readable and whose records decode is committed
whatever order its records are read in and its map is walked in. -/
theorem index_accepts_manifests_that_fit {indexer : Indexer} {serviceProvider : ℤ → Option String}
    {store : String → Option (List Record)} {s : State}
    (reached : Reach (step indexer serviceProvider store) State.initial s)
    {manifest : RewardManifest} {stored records : List Record}
    {shares order : List (RewardKey × ℕ)} (read : manifestRecords store manifest = some stored)
    (interleaved : records ~ stored)
    (decoded : records.mapM (indexer.extractRewardShare serviceProvider) = .ok shares)
    (walked : order ~ accumulate shares)
    (fits : ∀ address, totalPaid s.payouts address + paid shares address < 2 ^ 63) :
    ∃ table, step indexer serviceProvider store s (.process manifest records order) =
      some ⟨table, s.payouts ++ [(shares, manifest.endTimestamp)]⟩ := by
  have holds := reached.invariant Holds holds_initial
    (fun _ _ _ holds stepped => step_holds holds stepped)
  have viewIs := holds (fun address => by have := fits address; omega)
  have summed : ∀ address, paid (accumulate shares) address = paid shares address :=
    paid_accumulate (fun address => by have := fits address; omega)
  have entriesFit : ∀ entry ∈ order, entry.2 < 2 ^ 63 := by
    intro entry member
    have bounded := le_paid_of_mem (walked.subset member)
    have total := fits entry.1.key
    rw [summed] at bounded
    omega
  -- the table holds the totals so far, so each insert's sum stays in range
  have inRange : ∀ address, 0 ≤ held s.table address ∧
      held s.table address + paid order address < 2 ^ 63 := by
    intro address
    have heldIs : held s.table address = totalPaid s.payouts address := by
      rw [held, viewIs address, expected_total]
    rw [heldIs, paid_perm walked, summed]
    have := fits address
    omega
  obtain ⟨table, inserted⟩ := Option.isSome_iff_exists.mp
    (insertAll_isSome manifest.endTimestamp entriesFit inRange)
  refine ⟨table, ?_⟩
  simp [step, read, interleaved, decoded, Except.toOption, walked, inserted]

/-- A mobile indexer, its one service provider, and two reward files. -/
def mobileIndexer : Indexer := ⟨.mobile, "", "unallocated"⟩

def heliumMobile (serviceProviderId : ℤ) : Option String :=
  if serviceProviderId = 0 then some "helium_mobile" else none

def rewardFiles (name : String) : Option (List Record) :=
  if name = "mobile_reward_share.1700000000000.gz" then
    some [.mobile (some (.radioReward "hotspot_a" 10)), .mobile (some (.gatewayReward "hotspot_a" 5)),
      .mobile (some (.radioReward "hotspot_b" 0))]
  else if name = "mobile_reward_share.1700086400000.gz" then
    some [.mobile (some (.radioReward "hotspot_b" 7)),
      .mobile (some (.serviceProviderReward 0 20))]
  else none

/-- Two manifests, the first walked in the reverse of the order its map was built in. -/
def indexRun : List Event :=
  [.process ⟨["mobile_reward_share.1700000000000.gz"], 1700000000000⟩
      [.mobile (some (.gatewayReward "hotspot_a" 5)), .mobile (some (.radioReward "hotspot_a" 10)),
        .mobile (some (.radioReward "hotspot_b" 0))]
      [(⟨"hotspot_b", .mobileGateway⟩, 0), (⟨"hotspot_a", .mobileGateway⟩, 15)],
    .process ⟨["mobile_reward_share.1700086400000.gz"], 1700086400000⟩
      [.mobile (some (.radioReward "hotspot_b" 7)), .mobile (some (.serviceProviderReward 0 20))]
      [(⟨"hotspot_b", .mobileGateway⟩, 7), (⟨"helium_mobile", .mobileServiceProvider⟩, 20)]]

def indexEnd : State :=
  ⟨[("hotspot_a", ⟨15, 1700000000000, .mobileGateway⟩), ("hotspot_b", ⟨7, 1700086400000, .mobileGateway⟩),
      ("helium_mobile", ⟨20, 1700086400000, .mobileServiceProvider⟩)],
    [([(⟨"hotspot_a", .mobileGateway⟩, 5), (⟨"hotspot_a", .mobileGateway⟩, 10),
        (⟨"hotspot_b", .mobileGateway⟩, 0)], 1700000000000),
      ([(⟨"hotspot_b", .mobileGateway⟩, 7), (⟨"helium_mobile", .mobileServiceProvider⟩, 20)],
        1700086400000)]⟩

theorem index_holds_totals_on_two_manifests :
    Reach (step mobileIndexer heliumMobile rewardFiles) State.initial indexEnd ∧
      (∀ address, totalPaid indexEnd.payouts address < 2 ^ 63) ∧
      view indexEnd.table "hotspot_b" = expected indexEnd.payouts "hotspot_b" := by
  have reached : Reach (step mobileIndexer heliumMobile rewardFiles) State.initial indexEnd :=
    reach_of_run indexRun .start (by decide +kernel)
  have fits : ∀ address, totalPaid indexEnd.payouts address < 2 ^ 63 := by
    intro address
    simp only [indexEnd, totalPaid, paid, List.map_cons, List.map_nil, List.sum_cons, List.sum_nil]
    split_ifs <;> norm_num
  exact ⟨reached, fits, index_holds_totals reached fits "hotspot_b"⟩

theorem index_accepts_manifests_that_fit_on_a_third_manifest :
    Reach (step mobileIndexer heliumMobile rewardFiles) State.initial indexEnd ∧
      manifestRecords rewardFiles ⟨["mobile_reward_share.1700000000000.gz"], 1700172800000⟩ =
        some [.mobile (some (.radioReward "hotspot_a" 10)),
          .mobile (some (.gatewayReward "hotspot_a" 5)), .mobile (some (.radioReward "hotspot_b" 0))] ∧
      ∃ table, step mobileIndexer heliumMobile rewardFiles indexEnd
        (.process ⟨["mobile_reward_share.1700000000000.gz"], 1700172800000⟩
          [.mobile (some (.radioReward "hotspot_b" 0)), .mobile (some (.radioReward "hotspot_a" 10)),
            .mobile (some (.gatewayReward "hotspot_a" 5))]
          [(⟨"hotspot_a", .mobileGateway⟩, 15), (⟨"hotspot_b", .mobileGateway⟩, 0)]) =
        some ⟨table, indexEnd.payouts ++ [([(⟨"hotspot_b", .mobileGateway⟩, 0),
          (⟨"hotspot_a", .mobileGateway⟩, 10), (⟨"hotspot_a", .mobileGateway⟩, 5)], 1700172800000)]⟩ := by
  have reached : Reach (step mobileIndexer heliumMobile rewardFiles) State.initial indexEnd :=
    reach_of_run indexRun .start (by decide +kernel)
  have read : manifestRecords rewardFiles ⟨["mobile_reward_share.1700000000000.gz"], 1700172800000⟩ =
      some [.mobile (some (.radioReward "hotspot_a" 10)),
        .mobile (some (.gatewayReward "hotspot_a" 5)), .mobile (some (.radioReward "hotspot_b" 0))] := by
    decide +kernel
  have fits : ∀ address, totalPaid indexEnd.payouts address + paid [(⟨"hotspot_b", .mobileGateway⟩, 0),
      (⟨"hotspot_a", .mobileGateway⟩, 10), (⟨"hotspot_a", .mobileGateway⟩, 5)] address < 2 ^ 63 := by
    intro address
    simp only [indexEnd, totalPaid, paid, List.map_cons, List.map_nil, List.sum_cons, List.sum_nil]
    split_ifs <;> norm_num
  exact ⟨reached, read, index_accepts_manifests_that_fit reached read (by decide +kernel)
    (by decide +kernel) (by decide +kernel) fits⟩

end HeliumOracles.RewardIndex
