import HeliumOracles.Lib.Word

/-!
# The balance cache of the IoT packet verifier

Model of `iot_packet_verifier/src/balances.rs` (`PayerAccount`,
`BalanceCache::debit_if_sufficient`) and of the debit amount computed in
`verifier.rs` (`payload_size_to_dc`). The cache maps a payer to its account:
`balance` is the escrow balance last fetched from the chain, `burned` the DC
debited since and not yet burned by the burner.

The Solana calls are the only fallible steps of a debit; their failure aborts
the verifier, which the system model of `System.lean` treats as a restart, so a
debit here is given the chain balance it would read. Integers are `u64` of a
release build: `+=` wraps and `balance - burned` wraps below zero.

The main fact of the module is `debitIfSufficient_overdrawn_iff`: a debit leaves
`burned` above `balance`, so that the `balance - burned` it returns wraps, exactly
when it refetched a chain balance below the cached `burned` plus the debit.
-/
namespace HeliumOracles.IotPacketVerifier

open Lib.Word

/-- `PayerAccount`. -/
structure PayerAccount where
  balance : Nat
  burned : Nat
deriving DecidableEq, Repr

/-- `PayerAccount::new`. -/
def PayerAccount.new (balance : Nat) : PayerAccount := ⟨balance, 0⟩

/-- An account whose pending debits exceed its cached balance: the `u64`
subtraction `balance - burned` underflows on it. -/
def PayerAccount.Overdrawn (account : PayerAccount) : Prop := account.balance < account.burned

instance (account : PayerAccount) : Decidable account.Overdrawn :=
  inferInstanceAs (Decidable (account.balance < account.burned))

/-- The two saturating subtractions that `Burner::burn` and `confirm_pending_txns`
apply to the payer's account once a burn of `amount` is confirmed. -/
def PayerAccount.settleBurn (account : PayerAccount) (amount : Nat) : PayerAccount :=
  ⟨account.balance - amount, account.burned - amount⟩

/-- `BalanceCache::debit_if_sufficient` for one payer: the cached entry (if any),
the chain balance `payer_balance` returns, and the debit. The result is the
returned remaining balance and the entry the cache holds afterwards. -/
def debitIfSufficient (triggerBalanceCheckThreshold chainBalance : Nat)
    (entry : Option PayerAccount) (amount : Nat) : Option Nat × PayerAccount :=
  match entry with
  | none =>
    -- a payer seen for the first time is debited against the chain balance alone
    let account := PayerAccount.new chainBalance
    if amount ≤ account.balance then
      (some (wrappingSub 64 account.balance amount),
        { account with burned := wrappingAdd 64 account.burned amount })
    else (none, account)
  | some account =>
    match checkedSub account.balance (wrappingAdd 64 amount account.burned) with
    | some remaining =>
      -- the refetch replaces the cached balance but keeps the cached `burned`
      let refreshed :=
        if remaining < triggerBalanceCheckThreshold then { account with balance := chainBalance }
        else account
      let debited := { refreshed with burned := wrappingAdd 64 refreshed.burned amount }
      (some (wrappingSub 64 debited.balance debited.burned), debited)
    | none => (none, account)

/-- `BYTES_PER_DC`. -/
def bytesPerDc : Nat := 24

/-- `payload_size_to_dc`: one DC per started 24 bytes, at least one. -/
def payloadSizeToDc (payloadSize : Nat) : Nat :=
  let payloadSize := max payloadSize bytesPerDc
  (payloadSize + bytesPerDc - 1) / bytesPerDc

/-- The fields of a `PacketRouterPacketReport` that `Verifier::verify` reads. The
payer stands for the key that `fetch_org` looks up from the report's `oui`. -/
structure PacketReport where
  payer : Nat
  payloadSize : UInt32
  free : Bool
  uplink : Bool
deriving DecidableEq, Repr

/-- The `debit_amount` of a report in `Verifier::verify`. -/
def PacketReport.debitAmount (report : PacketReport) : Nat :=
  if report.free then 0 else payloadSizeToDc report.payloadSize.toNat

theorem payloadSizeToDc_le (payloadSize : Nat) : payloadSizeToDc payloadSize ≤ payloadSize + 1 := by
  show (max payloadSize 24 + 24 - 1) / 24 ≤ payloadSize + 1
  rw [Nat.div_le_iff_le_mul_add_pred (by decide)]
  omega

/-- A debit fits a signed 64-bit column: the `amount as i64` of
`add_burned_amount` keeps its value. -/
theorem PacketReport.debitAmount_lt (report : PacketReport) : report.debitAmount < 2 ^ 63 := by
  unfold PacketReport.debitAmount
  split
  · decide
  · have small : report.payloadSize.toNat < 2 ^ 32 := report.payloadSize.toNat_lt
    have := payloadSizeToDc_le report.payloadSize.toNat
    omega

/-- A payer seen for the first time is never overdrawn by its first debit. -/
theorem debitIfSufficient_vacant_not_overdrawn (threshold chainBalance amount : Nat)
    (fits : amount < 2 ^ 64) :
    ¬ (debitIfSufficient threshold chainBalance none amount).2.Overdrawn := by
  by_cases enough : amount ≤ chainBalance
  · simp only [debitIfSufficient, PayerAccount.new, if_pos enough, PayerAccount.Overdrawn,
      wrappingAdd_of_lt (by omega : 0 + amount < 2 ^ 64)]
    omega
  · simp [debitIfSufficient, PayerAccount.new, enough, PayerAccount.Overdrawn]

/-- The result of a debit that the cached account covers: the chain balance is
refetched below the trigger threshold, and the returned value is the `u64`
difference of the new balance and the new `burned`. -/
theorem debitIfSufficient_covered {threshold chainBalance amount remaining : Nat}
    {account : PayerAccount}
    (covered : checkedSub account.balance (wrappingAdd 64 amount account.burned) = some remaining) :
    let balance := if remaining < threshold then chainBalance else account.balance
    let burned := wrappingAdd 64 account.burned amount
    debitIfSufficient threshold chainBalance (some account) amount =
      (some (wrappingSub 64 balance burned), ⟨balance, burned⟩) := by
  simp only [debitIfSufficient, covered]
  split <;> rfl

/-- A debit overdraws the cached account exactly when it refetched the chain
balance and that balance is below the cached `burned` plus the debit. Without the
refetch the check `checked_sub` already excludes it. -/
theorem debitIfSufficient_overdrawn_iff {threshold chainBalance amount remaining : Nat}
    {account : PayerAccount} (fits : account.burned + amount < 2 ^ 64)
    (covered : checkedSub account.balance (wrappingAdd 64 amount account.burned) = some remaining) :
    (debitIfSufficient threshold chainBalance (some account) amount).2.Overdrawn ↔
      remaining < threshold ∧ chainBalance < account.burned + amount := by
  rw [debitIfSufficient_covered covered]
  have sum : wrappingAdd 64 account.burned amount = account.burned + amount := wrappingAdd_of_lt fits
  rw [wrappingAdd_of_lt (by omega : amount + account.burned < 2 ^ 64), checkedSub_eq_some] at covered
  simp only [PayerAccount.Overdrawn, sum]
  by_cases refetched : remaining < threshold
  · simp [refetched]
  · simp only [refetched, if_false, false_and, iff_false]
    omega

end HeliumOracles.IotPacketVerifier
