import Mathlib.Data.Rat.Floor
import HeliumOracles.Lib.Word
import HeliumOracles.Lib.Transition
import HeliumOracles.RewardScheduler.Scheduler
import HeliumOracles.MobileConfig.BoostedHexInfo

/-!
# The price generator

Source: `price/src/price_generator.rs` (`PriceGenerator::run`, `run_with_key`,
`run_with_default`, `handle`, `get_pyth_price`, `get_standard_price`, `is_valid`,
`read_price_file`, `write_price_file`, `From<Price> for PriceReportV1`) and
`price/src/settings.rs` (`stale_price_duration`, `default_stale_price_minutes`).

A `DateTime<Utc>` is a whole number of nanoseconds, as in RewardScheduler, and chrono 0.4.31
holds the years -262144 to 262143. One generator prices one token. It runs in a process that
may end and start again, and its price file outlives the process. What the world does is
the action of a transition system (Lib.Transition): the process starts `run`, with whether
`read_price_file` could read the file; the interval ticks; or the process ends (a shutdown,
or a crash between two ticks). A tick carries what the fetch was answered, the readings of
`Utc::now()` made in `handle`, and what the file and the sink writes did. `fs::write`
truncates the file first, so a write that fails part way leaves a file that no longer
parses. The Solana RPC, pyth's `load_price_feed_from_account` and
`get_ema_price_no_older_than`, and `calculate_current_price` are other crates: what they
return is the tick's.

A release build wraps `u64` and `i32` arithmetic (Lib.Word). `get_pyth_price` adds
`price + conf * 2` and raises ten to `expo + 6` in `u64`, and a power that wraps to zero is
a divisor that panics. A panic, like an error of `file_sink.write`, ends the process.

The results: `get_pyth_price` returns `⌊(price + 2 conf) · 10 ^ (expo + 6)⌋` when nothing
wraps (`getPythPrice_eq_floor`), and a wrapped value otherwise. Over every run with a key,
each report is either the price its tick fetched, or a price fetched earlier, in this
process or before a restart, that `is_valid` still accepted at that tick, stamped with the
tick's clock. When every price fetched so far is stale, a failed fetch writes nothing. The
model keeps the fetched prices as a history that the code does not keep.
-/
namespace HeliumOracles.PriceOracle

open Lib.Word Lib.Transition

/-- `BlockchainTokenTypeV1`. -/
inductive TokenType where
  | hnt
  | hst
  | mobile
  | iot
  deriving DecidableEq, Repr

/-- `Price`: its timestamp, a `u64` price in millionths, and its token. -/
structure Price where
  timestamp : ℤ
  price : ℕ
  tokenType : TokenType
  deriving DecidableEq, Repr

/-- `PriceReportV1`. -/
structure PriceReport where
  timestamp : ℕ
  price : ℕ
  tokenType : TokenType
  deriving DecidableEq, Repr

/-- `From<Price> for PriceReportV1`: the whole seconds, `as u64`. -/
def PriceReport.ofPrice (value : Price) : PriceReport :=
  ⟨toUnsigned 64 (RewardScheduler.timestamp value.timestamp), value.price, value.tokenType⟩

/-- pyth's `Price`, as `get_ema_price_no_older_than` returns it. -/
structure PythPrice where
  price : Int64
  conf : UInt64
  expo : Int32
  publishTime : Int64
  deriving DecidableEq, Repr

/-- Why a fetch gave no price. -/
inductive PriceError where
  /-- The RPC, the account, pyth's age check or `calculate_current_price` gave nothing:
  "No new price in the given interval", "unable to fetch price!", or theirs. -/
  | unavailable
  /-- "Price is less than zero". -/
  | negative
  /-- "Invalid publish time for price: ..." -/
  | invalidPublishTime (publishTime : ℤ)
  /-- "attempt to divide by zero": a panic, which ends the process. -/
  | divideByZero
  deriving DecidableEq, Repr

/-- The first second a `DateTime<Utc>` holds, at the start of year -262144. -/
def chronoMinTimestamp : ℤ := -8334632937600

/-- `DateTime::from_timestamp(secs, 0)`. -/
def dateTimeFromTimestamp (secs : ℤ) : Option ℤ :=
  if chronoMinTimestamp ≤ secs ∧ secs ≤ MobileConfig.chronoMaxTimestamp then
    some (RewardScheduler.fromTimestamp secs)
  else none

/-- `get_pyth_price`, from what `get_ema_price_no_older_than` returned. -/
def getPythPrice (tokenType : TokenType) (answer : Option PythPrice) :
    Except PriceError Price := do
  let some currPrice := answer | throw .unavailable
  if currPrice.price < 0 then throw .negative
  let optimisticPrice :=
    wrappingAdd 64 (toUnsigned 64 currPrice.price.toInt) (wrappingMul 64 currPrice.conf.toNat 2)
  let exp := wrappingAddSigned 32 currPrice.expo.toInt 6
  let adjustedOptimisticPrice ← match compare exp 0 with
    | .lt =>
      let divisor := wrappingPow 64 10 exp.natAbs
      if divisor = 0 then throw .divideByZero else pure (optimisticPrice / divisor)
    | .gt => pure (wrappingMul 64 optimisticPrice (wrappingPow 64 10 exp.toNat))
    | .eq => pure optimisticPrice
  let some timestamp := dateTimeFromTimestamp currPrice.publishTime.toInt
    | throw (.invalidPublishTime currPrice.publishTime.toInt)
  pure ⟨timestamp, adjustedOptimisticPrice, tokenType⟩

/-- `get_standard_price`, from its `Utc::now()` and what `calculate_current_price` returned. -/
def getStandardPrice (tokenType : TokenType) (currentTime : ℤ) (answer : Option ℕ) :
    Except PriceError Price :=
  match answer with
  | some price => .ok ⟨currentTime, price, tokenType⟩
  | none => .error .unavailable

/-! ## One generator -/

/-- What `fs::write` did to the price file. -/
inductive FileWrite where
  | written
  /-- The file could not be created: it is as it was. -/
  | failed
  /-- The write failed once the file was truncated: it no longer parses. -/
  | torn
  deriving DecidableEq, Repr

/-- What the world gives one tick. -/
structure Tick where
  /-- What `get_ema_price_no_older_than` returned, or `none` where the RPC, the account or
  pyth's age check failed. -/
  pyth : Option PythPrice
  /-- The `Utc::now()` of `get_standard_price`. -/
  currentTime : ℤ
  /-- What `calculate_current_price` returned, or `none` where the RPC or the account failed. -/
  standard : Option ℕ
  /-- The `Utc::now()` of `is_valid`. -/
  validAt : ℤ
  /-- The `Utc::now()` a stale or default price is given. -/
  now : ℤ
  fileWrite : FileWrite
  sinkWritten : Bool
  deriving DecidableEq, Repr

/-- The fields of `PriceGenerator` that `run` reads; a key is the account's address. -/
structure PriceGenerator where
  tokenType : TokenType
  key : Option (List UInt8)
  defaultPrice : Option ℕ
  stalePriceDuration : ℤ
  deriving DecidableEq, Repr

/-- `default_stale_price_minutes`. -/
def defaultStalePriceMinutes : ℕ := 12 * 60

/-- `Settings::stale_price_duration`. -/
def stalePriceDuration (stalePriceMinutes : ℕ) : ℤ :=
  RewardScheduler.Duration.minutes (toSigned 64 stalePriceMinutes)

/-- What `run` runs: `run_with_key`, `run_with_default`, or nothing. -/
inductive Mode where
  | withKey
  | withDefault (defaultPrice : ℕ)
  | notConfigured
  deriving DecidableEq, Repr

/-- The match of `PriceGenerator::run`; the file sink is always set. -/
def PriceGenerator.run (self : PriceGenerator) : Mode :=
  match self.key, self.defaultPrice with
  | some _, _ => .withKey
  | none, some defaultPrice => .withDefault defaultPrice
  | none, none => .notConfigured

/-- `is_valid`, at the reading `now` of the clock. -/
def PriceGenerator.isValid (self : PriceGenerator) (now : ℤ) (price : Price) : Bool :=
  decide (price.timestamp > now - self.stalePriceDuration)

/-- The fetch of `handle`: pyth for HNT and MOBILE. -/
def PriceGenerator.fetchPrice (self : PriceGenerator) (tick : Tick) : Except PriceError Price :=
  match self.tokenType with
  | .hnt | .mobile => getPythPrice self.tokenType tick.pyth
  | .hst | .iot => getStandardPrice self.tokenType tick.currentTime tick.standard

/-- The match of `handle` on the fetch: the price it writes and the `last_price_opt` it
leaves. -/
def PriceGenerator.priceOpt (self : PriceGenerator) (lastPriceOpt : Option Price) (tick : Tick) :
    Except PriceError Price → Option Price × Option Price
  | .ok newPrice => (some newPrice, some newPrice)
  | .error _ =>
    match lastPriceOpt with
    | some oldPrice =>
      if self.isValid tick.validAt oldPrice then
        (some ⟨tick.now, oldPrice.price, oldPrice.tokenType⟩, lastPriceOpt)
      else (none, none)
    | none => (none, none)

/-- `read_price_file`: the file, when it could be read and parsed. -/
def readPriceFile (readable : Bool) (latestPriceFile : Option Price) : Option Price :=
  if readable then latestPriceFile else none

/-- `write_price_file`; its errors are only logged. -/
def writePriceFile (latestPriceFile : Option Price) (price : Price) : FileWrite → Option Price
  | .written => some price
  | .failed => latestPriceFile
  | .torn => none

/-- Where the generator is: between two runs of the process, in `run_with_key` with its
`last_price_opt`, or in `run_with_default`. -/
inductive Phase where
  | stopped
  | withKey (lastPriceOpt : Option Price)
  | withDefault (defaultPrice : ℕ)
  deriving DecidableEq, Repr

/-- The generator, its price file, the reports its sink got, and the prices its fetches
returned, oldest first. -/
structure System where
  phase : Phase
  latestPriceFile : Option Price
  sink : List PriceReport
  fetched : List Price
  deriving DecidableEq, Repr

/-- The price file and the fetch history once `handle` has the fetch's result. -/
def saveFetched (system : System) (tick : Tick) : Except PriceError Price → Option Price × List Price
  | .ok newPrice =>
    (writePriceFile system.latestPriceFile newPrice tick.fileWrite, system.fetched ++ [newPrice])
  | .error _ => (system.latestPriceFile, system.fetched)

/-- `handle` after a fetch that did not panic: an error of `file_sink.write` ends the process
once the price file is written. -/
def PriceGenerator.handleFetched (self : PriceGenerator) (system : System)
    (lastPriceOpt : Option Price) (tick : Tick) (fetched : Except PriceError Price) : System :=
  let saved := saveFetched system tick fetched
  match self.priceOpt lastPriceOpt tick fetched with
  | (none, lastPriceOpt') => ⟨.withKey lastPriceOpt', saved.1, system.sink, saved.2⟩
  | (some price, lastPriceOpt') =>
    if tick.sinkWritten then
      ⟨.withKey lastPriceOpt', saved.1, system.sink ++ [.ofPrice price], saved.2⟩
    else ⟨.stopped, saved.1, system.sink, saved.2⟩

/-- `handle` on one tick; a panic of the fetch ends the process at once. -/
def PriceGenerator.handle (self : PriceGenerator) (system : System) (lastPriceOpt : Option Price)
    (tick : Tick) : System :=
  match self.fetchPrice tick with
  | .error .divideByZero => { system with phase := .stopped }
  | fetched => self.handleFetched system lastPriceOpt tick fetched

/-- A tick of `run_with_default`. -/
def PriceGenerator.handleDefault (self : PriceGenerator) (system : System) (defaultPrice : ℕ)
    (tick : Tick) : System :=
  if tick.sinkWritten then
    { system with sink := system.sink ++ [.ofPrice ⟨tick.now, defaultPrice, self.tokenType⟩] }
  else { system with phase := .stopped }

/-- What the world does next. -/
inductive Event where
  /-- The process starts `run`, and `read_price_file` could read the file or not. -/
  | start (readable : Bool)
  | tick (tick : Tick)
  /-- The process ends between two ticks. -/
  | stop
  deriving DecidableEq, Repr

/-- One event. -/
def PriceGenerator.step (self : PriceGenerator) : System → Event → Option System
  | ⟨.stopped, latestPriceFile, sink, history⟩, .start readable =>
    some <| match self.run with
      | .withKey => ⟨.withKey (readPriceFile readable latestPriceFile), latestPriceFile, sink, history⟩
      | .withDefault defaultPrice => ⟨.withDefault defaultPrice, latestPriceFile, sink, history⟩
      | .notConfigured => ⟨.stopped, latestPriceFile, sink, history⟩
  | system@⟨.withKey lastPriceOpt, _, _, _⟩, .tick tick => some (self.handle system lastPriceOpt tick)
  | system@⟨.withDefault defaultPrice, _, _, _⟩, .tick tick =>
    some (self.handleDefault system defaultPrice tick)
  | ⟨.withKey _, latestPriceFile, sink, history⟩, .stop => some ⟨.stopped, latestPriceFile, sink, history⟩
  | ⟨.withDefault _, latestPriceFile, sink, history⟩, .stop =>
    some ⟨.stopped, latestPriceFile, sink, history⟩
  | _, _ => none

/-- A new deployment: no price file, nothing written. -/
def init : System := ⟨.stopped, none, [], []⟩

/-! ## Pyth prices that do not wrap -/

/-- The pyth prices on which `get_pyth_price` wraps nothing and succeeds: a price of zero or
more, whose sum, power of ten and product fit in a `u64`, published at a time a
`DateTime<Utc>` holds. -/
structure PythPrice.Fits (currPrice : PythPrice) : Prop where
  nonneg : 0 ≤ currPrice.price.toInt
  sum_lt : currPrice.price.toInt + 2 * currPrice.conf.toNat < 2 ^ 64
  expo_mem : -25 ≤ currPrice.expo.toInt ∧ currPrice.expo.toInt ≤ 13
  product_lt : ((currPrice.price.toInt + 2 * currPrice.conf.toNat : ℤ) : ℚ) *
    10 ^ (currPrice.expo.toInt + 6) < 2 ^ 64
  published : chronoMinTimestamp ≤ currPrice.publishTime.toInt ∧
    currPrice.publishTime.toInt ≤ MobileConfig.chronoMaxTimestamp

section Exact

/-- A natural number scaled by a power of ten, rounded down: a product or a quotient. -/
theorem floor_mul_zpow_ten (m : ℕ) (k : ℤ) :
    ⌊(m : ℚ) * 10 ^ k⌋ = if 0 ≤ k then ((m * 10 ^ k.toNat : ℕ) : ℤ)
      else ((m / 10 ^ (-k).toNat : ℕ) : ℤ) := by
  split
  · rename_i nonneg
    obtain ⟨n, rfl⟩ := Int.eq_ofNat_of_zero_le nonneg
    rw [zpow_natCast, Int.toNat_natCast, ← Int.floor_natCast (R := ℚ) (m * 10 ^ n)]
    push_cast
    rfl
  · rename_i negative
    obtain ⟨n, rfl⟩ : ∃ n : ℕ, k = -(n : ℤ) := ⟨(-k).toNat, by omega⟩
    have quotient := Rat.floor_intCast_div_natCast (m : ℤ) (10 ^ n)
    rw [neg_neg, Int.toNat_natCast, zpow_neg, zpow_natCast, ← div_eq_mul_inv]
    push_cast at quotient ⊢
    exact quotient

variable {currPrice : PythPrice}

theorem PythPrice.Fits.exp_eq (fits : currPrice.Fits) :
    wrappingAddSigned 32 currPrice.expo.toInt 6 = currPrice.expo.toInt + 6 :=
  wrappingAddSigned_of_mem (by norm_num) (by have := fits.expo_mem; norm_num; omega)
    (by have := fits.expo_mem; norm_num; omega)

theorem PythPrice.Fits.optimisticPrice_eq (fits : currPrice.Fits) :
    wrappingAdd 64 (toUnsigned 64 currPrice.price.toInt) (wrappingMul 64 currPrice.conf.toNat 2) =
      (currPrice.price.toInt + 2 * currPrice.conf.toNat).toNat := by
  have sumFits := fits.sum_lt
  have priceIs : (toUnsigned 64 currPrice.price.toInt : ℤ) = currPrice.price.toInt :=
    toUnsigned_of_nonneg fits.nonneg (by have := currPrice.price.toInt_lt; omega)
  rw [wrappingMul_of_lt (by omega), wrappingAdd_of_lt (by omega)]
  omega

/-- A power of ten up to the nineteenth fits in a `u64`. -/
theorem wrappingPow_ten_of_le {k : ℕ} (small : k ≤ 19) : wrappingPow 64 10 k = 10 ^ k :=
  wrappingPow_of_lt (lt_of_le_of_lt (Nat.pow_le_pow_right (by norm_num) small) (by norm_num))

end Exact

/-- When nothing wraps, `get_pyth_price` returns the optimistic price rounded down to
millionths, published when pyth says. -/
theorem getPythPrice_eq_floor (tokenType : TokenType) {currPrice : PythPrice}
    (fits : currPrice.Fits) :
    ∃ price, getPythPrice tokenType (some currPrice) = .ok price ∧
      (price.price : ℤ) = ⌊((currPrice.price.toInt + 2 * currPrice.conf.toNat : ℤ) : ℚ) *
        10 ^ (currPrice.expo.toInt + 6)⌋ ∧
      price.timestamp = RewardScheduler.fromTimestamp currPrice.publishTime.toInt := by
  set sum := (currPrice.price.toInt + 2 * currPrice.conf.toNat).toNat with sumIs
  have sumInt : (sum : ℤ) = currPrice.price.toInt + 2 * currPrice.conf.toNat := by
    have := fits.nonneg
    exact Int.toNat_of_nonneg (by omega)
  have sumCast : ((currPrice.price.toInt + 2 * currPrice.conf.toNat : ℤ) : ℚ) = (sum : ℚ) := by
    rw [← sumInt]
    rfl
  have notNegative : ¬ currPrice.price < 0 := by
    rw [Int64.lt_iff_toInt_lt]
    have := fits.nonneg
    simpa using this
  have published : dateTimeFromTimestamp currPrice.publishTime.toInt =
      some (RewardScheduler.fromTimestamp currPrice.publishTime.toInt) :=
    if_pos fits.published
  have expoMem := fits.expo_mem
  rw [sumCast, floor_mul_zpow_ten]
  simp only [getPythPrice, notNegative, if_false, fits.optimisticPrice_eq, fits.exp_eq,
    ← sumIs, published]
  rcases lt_trichotomy (currPrice.expo.toInt + 6) 0 with below | zero | above
  · have powerIs : (currPrice.expo.toInt + 6).natAbs = (-(currPrice.expo.toInt + 6)).toNat := by
      omega
    rw [Int.compare_eq_lt.mpr below, powerIs, wrappingPow_ten_of_le (by omega),
      if_neg (by positivity), if_neg (by omega)]
    exact ⟨_, rfl, rfl, rfl⟩
  · rw [Int.compare_eq_eq.mpr zero, zero, if_pos le_rfl]
    exact ⟨_, rfl, by simp, rfl⟩
  · have powerSmall : (currPrice.expo.toInt + 6).toNat ≤ 19 := by omega
    rw [Int.compare_eq_gt.mpr above, wrappingPow_ten_of_le powerSmall, if_pos above.le]
    have productFits : sum * 10 ^ (currPrice.expo.toInt + 6).toNat < 2 ^ 64 := by
      have product := fits.product_lt
      rw [sumCast, ← Int.toNat_of_nonneg above.le, zpow_natCast] at product
      exact_mod_cast product
    rw [wrappingMul_of_lt productFits]
    exact ⟨_, rfl, rfl, rfl⟩

/-! ## Every run -/

/-- What every reachable state keeps: the price file and the last price hold prices a fetch
returned, and `run_with_default` runs only where `run` chose it. -/
structure Inv (generator : PriceGenerator) (system : System) : Prop where
  file_fetched : ∀ price ∈ system.latestPriceFile, price ∈ system.fetched
  last_fetched : ∀ lastPriceOpt, system.phase = .withKey lastPriceOpt →
    ∀ price ∈ lastPriceOpt, price ∈ system.fetched
  default_run : ∀ defaultPrice, system.phase = .withDefault defaultPrice →
    generator.run = .withDefault defaultPrice

section Phases

variable {generator : PriceGenerator} {latestPriceFile : Option Price} {sink : List PriceReport}
  {history : List Price}

theorem Inv.stopped (fileFetched : ∀ price ∈ latestPriceFile, price ∈ history) :
    Inv generator ⟨.stopped, latestPriceFile, sink, history⟩ := by
  refine ⟨fileFetched, ?_, ?_⟩
  · intro _ phaseIs
    cases phaseIs
  · intro _ phaseIs
    cases phaseIs

theorem Inv.withKey {lastPriceOpt : Option Price}
    (fileFetched : ∀ price ∈ latestPriceFile, price ∈ history)
    (lastFetched : ∀ price ∈ lastPriceOpt, price ∈ history) :
    Inv generator ⟨.withKey lastPriceOpt, latestPriceFile, sink, history⟩ := by
  refine ⟨fileFetched, ?_, ?_⟩
  · intro _ phaseIs
    cases phaseIs
    exact lastFetched
  · intro _ phaseIs
    cases phaseIs

theorem Inv.withDefault {defaultPrice : ℕ}
    (fileFetched : ∀ price ∈ latestPriceFile, price ∈ history)
    (chosen : generator.run = .withDefault defaultPrice) :
    Inv generator ⟨.withDefault defaultPrice, latestPriceFile, sink, history⟩ := by
  refine ⟨fileFetched, ?_, ?_⟩
  · intro _ phaseIs
    cases phaseIs
  · intro _ phaseIs
    cases phaseIs
    exact chosen

end Phases

section Handle

variable {generator : PriceGenerator} {lastPriceOpt : Option Price} {tick : Tick}
  {fetched : Except PriceError Price}

/-- A price `handle` writes was fetched in its tick, or is the last price, still valid,
stamped with the tick's clock. -/
theorem priceOpt_fst_eq_some {price : Price}
    (writes : (generator.priceOpt lastPriceOpt tick fetched).1 = some price) :
    fetched = .ok price ∨ ∃ err, fetched = .error err ∧ ∃ oldPrice, lastPriceOpt = some oldPrice ∧
      generator.isValid tick.validAt oldPrice ∧
      price = ⟨tick.now, oldPrice.price, oldPrice.tokenType⟩ := by
  cases fetched with
  | ok newPrice =>
    simp only [PriceGenerator.priceOpt, Option.some.injEq] at writes
    exact .inl (congrArg _ writes)
  | error err =>
    cases lastPriceOpt with
    | none => simp [PriceGenerator.priceOpt] at writes
    | some oldPrice =>
      simp only [PriceGenerator.priceOpt] at writes
      split at writes
      · rename_i valid
        simp only [Option.some.injEq] at writes
        exact .inr ⟨err, rfl, oldPrice, rfl, valid, writes.symm⟩
      · simp at writes

/-- The price `handle` keeps is the one fetched, or the last one. -/
theorem priceOpt_snd_mem {price : Price}
    (kept : price ∈ (generator.priceOpt lastPriceOpt tick fetched).2) :
    fetched = .ok price ∨ price ∈ lastPriceOpt := by
  cases fetched with
  | ok newPrice =>
    simp only [PriceGenerator.priceOpt, Option.mem_def, Option.some.injEq] at kept
    exact .inl (congrArg _ kept)
  | error err =>
    cases lastPriceOpt with
    | none => simp [PriceGenerator.priceOpt] at kept
    | some oldPrice =>
      simp only [PriceGenerator.priceOpt] at kept
      split at kept
      · exact .inr kept
      · simp at kept

/-- The history grows by the price fetched, and the file holds a price of it. -/
theorem saveFetched_mem {system : System}
    (fileFetched : ∀ price ∈ system.latestPriceFile, price ∈ system.fetched) :
    (∀ price ∈ system.fetched, price ∈ (saveFetched system tick fetched).2) ∧
      (∀ price, fetched = .ok price → price ∈ (saveFetched system tick fetched).2) ∧
      ∀ price ∈ (saveFetched system tick fetched).1, price ∈ (saveFetched system tick fetched).2 := by
  cases fetched with
  | ok newPrice =>
    refine ⟨fun price old => List.mem_append_left _ old, ?_, ?_⟩
    · intro price fetchedIs
      cases fetchedIs
      exact List.mem_append_right _ (List.mem_singleton_self _)
    · intro price saved
      cases written : tick.fileWrite with
      | written =>
        simp only [saveFetched, written, writePriceFile, Option.mem_def, Option.some.injEq] at saved
        subst saved
        exact List.mem_append_right _ (List.mem_singleton_self _)
      | failed =>
        simp only [saveFetched, written, writePriceFile] at saved
        exact List.mem_append_left _ (fileFetched price saved)
      | torn => simp [saveFetched, written, writePriceFile] at saved
  | error err =>
    refine ⟨fun _ old => old, ?_, fileFetched⟩
    intro price fetchedIs
    cases fetchedIs

/-- `handle` panics on a divisor that wrapped to zero, and otherwise goes on with the fetch. -/
theorem handle_eq (system : System) :
    generator.handle system lastPriceOpt tick =
      if generator.fetchPrice tick = .error .divideByZero then { system with phase := .stopped }
      else generator.handleFetched system lastPriceOpt tick (generator.fetchPrice tick) := by
  unfold PriceGenerator.handle
  split
  · rename_i panicked
    rw [if_pos panicked]
  · rename_i notPanicked
    rw [if_neg notPanicked]

theorem handleFetched_sink (system : System) :
    (generator.handleFetched system lastPriceOpt tick fetched).sink = system.sink ∨ ∃ price,
      (generator.priceOpt lastPriceOpt tick fetched).1 = some price ∧
      (generator.handleFetched system lastPriceOpt tick fetched).sink =
        system.sink ++ [.ofPrice price] := by
  unfold PriceGenerator.handleFetched
  split
  · exact .inl rfl
  · rename_i price lastPriceOpt' written
    split
    · exact .inr ⟨price, by rw [written], rfl⟩
    · exact .inl rfl

theorem handle_sink (system : System) :
    (generator.handle system lastPriceOpt tick).sink = system.sink ∨ ∃ price,
      (generator.priceOpt lastPriceOpt tick (generator.fetchPrice tick)).1 = some price ∧
      (generator.handle system lastPriceOpt tick).sink = system.sink ++ [.ofPrice price] := by
  rw [handle_eq]
  split
  · exact .inl rfl
  · exact handleFetched_sink system

theorem handleFetched_inv {system : System} (inv : Inv generator system)
    (phaseIs : system.phase = .withKey lastPriceOpt) :
    Inv generator (generator.handleFetched system lastPriceOpt tick fetched) := by
  obtain ⟨grown, fresh, fileSaved⟩ := @saveFetched_mem tick fetched system inv.file_fetched
  have lastKept : ∀ price ∈ (generator.priceOpt lastPriceOpt tick fetched).2,
      price ∈ (saveFetched system tick fetched).2 := by
    intro price kept
    rcases priceOpt_snd_mem kept with fetchedIs | last
    · exact fresh price fetchedIs
    · exact grown price (inv.last_fetched lastPriceOpt phaseIs price last)
  unfold PriceGenerator.handleFetched
  split
  · rename_i lastPriceOpt' written
    rw [written] at lastKept
    exact Inv.withKey fileSaved lastKept
  · rename_i price lastPriceOpt' written
    rw [written] at lastKept
    split
    · exact Inv.withKey fileSaved lastKept
    · exact Inv.stopped fileSaved

end Handle

/-- Every event keeps the invariant. -/
theorem step_inv {generator : PriceGenerator} {system system' : System} {event : Event}
    (inv : Inv generator system) (moved : generator.step system event = some system') :
    Inv generator system' := by
  obtain ⟨phase, latestPriceFile, sink, history⟩ := system
  cases phase with
  | stopped =>
    cases event with
    | start readable =>
      simp only [PriceGenerator.step, Option.some.injEq] at moved
      subst moved
      split
      · refine Inv.withKey inv.file_fetched fun price read => ?_
        unfold readPriceFile at read
        split at read
        · exact inv.file_fetched price read
        · cases read
      · rename_i defaultPrice chosen
        exact Inv.withDefault inv.file_fetched chosen
      · exact Inv.stopped inv.file_fetched
    | tick tick => simp [PriceGenerator.step] at moved
    | stop => simp [PriceGenerator.step] at moved
  | withKey lastPriceOpt =>
    cases event with
    | tick tick =>
      simp only [PriceGenerator.step, Option.some.injEq] at moved
      subst moved
      rw [handle_eq]
      split
      · exact Inv.stopped inv.file_fetched
      · exact handleFetched_inv inv rfl
    | stop =>
      simp only [PriceGenerator.step, Option.some.injEq] at moved
      subst moved
      exact Inv.stopped inv.file_fetched
    | start readable => simp [PriceGenerator.step] at moved
  | withDefault defaultPrice =>
    have chosen := inv.default_run defaultPrice rfl
    cases event with
    | tick tick =>
      simp only [PriceGenerator.step, Option.some.injEq] at moved
      subst moved
      unfold PriceGenerator.handleDefault
      split
      · exact Inv.withDefault inv.file_fetched chosen
      · exact Inv.stopped inv.file_fetched
    | stop =>
      simp only [PriceGenerator.step, Option.some.injEq] at moved
      subst moved
      exact Inv.stopped inv.file_fetched
    | start readable => simp [PriceGenerator.step] at moved

theorem reach_inv {generator : PriceGenerator} {system : System}
    (reached : Reach generator.step init system) : Inv generator system :=
  reached.invariant (Inv generator) (Inv.stopped fun _ none => by cases none)
    fun _ _ _ inv moved => step_inv inv moved

/-- On a tick of a generator with a key, from any reachable state, the sink gets nothing, or
the price fetched in the tick, or a fetched price `is_valid` accepted at the tick. -/
theorem tick_writes_fetched_price {generator : PriceGenerator} (keyed : generator.run = .withKey)
    {system system' : System} (reached : Reach generator.step init system) {tick : Tick}
    (ticked : generator.step system (.tick tick) = some system') :
    system'.sink = system.sink ∨ ∃ price, system'.sink = system.sink ++ [.ofPrice price] ∧
      (generator.fetchPrice tick = .ok price ∨
        ∃ err, generator.fetchPrice tick = .error err ∧ ∃ oldPrice ∈ system.fetched,
          oldPrice.timestamp > tick.validAt - generator.stalePriceDuration ∧
          price = ⟨tick.now, oldPrice.price, oldPrice.tokenType⟩) := by
  have inv := reach_inv reached
  obtain ⟨phase, latestPriceFile, sink, history⟩ := system
  cases phase with
  | stopped => simp [PriceGenerator.step] at ticked
  | withDefault defaultPrice => cases keyed.symm.trans (inv.default_run defaultPrice rfl)
  | withKey lastPriceOpt =>
    simp only [PriceGenerator.step, Option.some.injEq] at ticked
    subst ticked
    rcases @handle_sink generator lastPriceOpt tick
      ⟨.withKey lastPriceOpt, latestPriceFile, sink, history⟩ with same | ⟨price, writes, appended⟩
    · exact .inl same
    refine .inr ⟨price, appended, ?_⟩
    rcases priceOpt_fst_eq_some writes with fresh | ⟨err, failed, oldPrice, last, valid, restamped⟩
    · exact .inl fresh
    · refine .inr ⟨err, failed, oldPrice, inv.last_fetched lastPriceOpt rfl oldPrice last, ?_,
        restamped⟩
      simpa [PriceGenerator.isValid] using valid

end HeliumOracles.PriceOracle
