import Mathlib.Data.Int.Init
import Mathlib.Order.Basic
import HeliumOracles.Lib.AssocMap

/-!
# Boosted hexes and their current multiplier

Source: `mobile_config/src/boosted_hex_info.rs` (`BoostedHexInfo`, its
`TryFrom<BoostedHexInfoProto>` and `FromRow` impls, `to_start_ts`, `to_end_ts`,
`BoostedHexInfo::current_multiplier`, `BoostedHexes::new` and
`BoostedHexes::get_current_multiplier`), and `TimestampDecode::to_timestamp` of
`file_store/src/traits/msg_timestamp.rs`.

Timestamps are whole seconds since the epoch and durations whole seconds. A
`DateTime<Utc>` reaches to the end of year 262143. The panics of `Duration` and
`DateTime` arithmetic at the ends of their ranges, and the wrap of `len() as i32`
past `2 ^ 31` multipliers, are left out. Parsing a `Pubkey` from a string is the
Solana SDK's and is a parameter.

`current_multiplier` indexes `multipliers` with `(ts - start_ts) / period_length`,
a truncating `i64` division cast `as usize`. Before the start of the boost the
quotient is negative once `ts` is a whole period early, the cast wraps it to an
index near `2 ^ 64`, and the index panics. An empty list of multipliers panics on
every read that gets past the end check. A result `none` below is that panic;
`some none` is `Ok(None)`, the hex is no longer boosted.
-/
namespace HeliumOracles.MobileConfig

open HeliumOracles.Lib.AssocMap

/-- The last second a `DateTime<Utc>` holds, at the end of year 262143. -/
def chronoMaxTimestamp : ℤ := 8210298412799

/-- `u64::to_timestamp`: the `i64` conversion, then the range of `DateTime<Utc>`. -/
def toTimestamp (timestamp : ℕ) : Option ℤ :=
  if timestamp < 2 ^ 63 ∧ (timestamp : ℤ) ≤ chronoMaxTimestamp then some timestamp else none

/-- `to_start_ts`: zero is an unset start, and so is a timestamp that does not decode. -/
def toStartTs (timestamp : ℕ) : Option ℤ :=
  if timestamp = 0 then none else toTimestamp timestamp

/-- `to_end_ts`: one period per multiplier after the start. -/
def toEndTs (startTs : Option ℤ) (periodLength : ℤ) (numMultipliers : ℕ) : Option ℤ :=
  startTs.map fun ts => ts + periodLength * numMultipliers

/-- `BoostedHexInfoV1`, as the hex boosting service sends it. -/
structure BoostedHexInfoProto where
  location : ℕ
  startTs : ℕ
  periodLength : ℕ
  multipliers : List ℕ
  boostedHexPubkey : List UInt8
  boostConfigPubkey : List UInt8
  version : ℕ
  deriving DecidableEq, Repr

/-- `BoostedHexInfo`; a `Pubkey` is its 32 bytes. -/
structure BoostedHexInfo where
  location : ℕ
  startTs : Option ℤ
  endTs : Option ℤ
  periodLength : ℤ
  multipliers : List ℕ
  boostedHexPubkey : List UInt8
  boostConfigPubkey : List UInt8
  version : ℕ
  deriving DecidableEq, Repr

/-- `TryFrom<BoostedHexInfoProto> for BoostedHexInfo`: `Pubkey::try_from` of a slice
fails unless it holds 32 bytes. -/
def BoostedHexInfo.tryFrom (v : BoostedHexInfoProto) : Option BoostedHexInfo :=
  let periodLength : ℤ := v.periodLength
  let startTs := toStartTs v.startTs
  let endTs := toEndTs startTs periodLength v.multipliers.length
  if v.boostedHexPubkey.length = 32 ∧ v.boostConfigPubkey.length = 32 then
    some ⟨v.location, startTs, endTs, periodLength, v.multipliers, v.boostedHexPubkey,
      v.boostConfigPubkey, v.version⟩
  else none

/-- A row of `GET_BOOSTED_HEX_INFO_SQL`, with the column types `from_row` reads. -/
structure BoostedHexRow where
  location : ℤ
  startTs : ℤ
  periodLength : ℤ
  multipliers : List UInt8
  boostedHexPubkey : String
  boostConfigPubkey : String
  version : ℤ
  deriving DecidableEq, Repr

/-- `x as u64` of an `i64`. -/
def asU64 (x : ℤ) : ℕ := (x % 2 ^ 64).toNat

/-- `x as u32` of an `i32`. -/
def asU32 (x : ℤ) : ℕ := (x % 2 ^ 32).toNat

/-- `FromRow for BoostedHexInfo`: a negative `start_ts` becomes a `u64` past `i64`,
which does not decode, so the start is unset. -/
def BoostedHexInfo.fromRow (pubkeyFromStr : String → Option (List UInt8)) (row : BoostedHexRow) :
    Option BoostedHexInfo := do
  let periodLength := row.periodLength
  let startTs := toStartTs (asU64 row.startTs)
  let multipliers := row.multipliers.map (·.toNat)
  let endTs := toEndTs startTs periodLength multipliers.length
  let boostConfigPubkey ← pubkeyFromStr row.boostConfigPubkey
  let boostedHexPubkey ← pubkeyFromStr row.boostedHexPubkey
  pure ⟨asU64 row.location, startTs, endTs, periodLength, multipliers, boostedHexPubkey,
    boostConfigPubkey, asU32 row.version⟩

/-- `i64::checked_div`: none for a zero divisor and for the one quotient out of range. -/
def i64CheckedDiv (a b : ℤ) : Option ℤ :=
  if b = 0 ∨ (a = -2 ^ 63 ∧ b = -1) then none else some (a.tdiv b)

/-- `x as usize` of an `i64` on a 64-bit target. -/
def asUsize (x : ℤ) : ℕ := (x % 2 ^ 64).toNat

/-- The index `current_multiplier` reads once a start is set. -/
def BoostedHexInfo.multiplierIndex (self : BoostedHexInfo) (boostStartTs ts : ℤ) : ℕ :=
  asUsize ((i64CheckedDiv (ts - boostStartTs) self.periodLength).getD 0)

/-- `BoostedHexInfo::current_multiplier`: `none` is the panic of an index past the end
of `multipliers`. -/
def BoostedHexInfo.currentMultiplier (self : BoostedHexInfo) (ts : ℤ) : Option (Option ℕ) :=
  if self.endTs.isSome ∧ self.endTs.getD 0 ≤ ts then some none
  else
    match self.startTs with
    | some boostStartTs => self.multipliers[self.multiplierIndex boostStartTs ts]?.map some
    | none => self.multipliers[0]?.map some

/-- `BoostedHexes`: the boosted hexes by location. -/
structure BoostedHexes where
  hexes : Map ℕ BoostedHexInfo

/-- `BoostedHexes::new`: a later hex at the same location replaces the earlier. -/
def BoostedHexes.new (hexes : List BoostedHexInfo) : BoostedHexes :=
  ⟨hexes.foldl (fun map info => modifyEntry info.location info (fun _ => info) map) []⟩

/-- `BoostedHexes::get_current_multiplier`: `none` is the panic of
`current_multiplier`, `some none` an unboosted hex. -/
def BoostedHexes.getCurrentMultiplier (self : BoostedHexes) (location : ℕ) (ts : ℤ) :
    Option (Option ℕ) :=
  match get self.hexes location with
  | some info => info.currentMultiplier ts
  | none => some none

/-! ## What the constructors guarantee -/

/-- Both constructors leave the end one period per multiplier after a start that
decodes. -/
structure BoostedHexInfo.WellFormed (info : BoostedHexInfo) : Prop where
  endTs : info.endTs = toEndTs info.startTs info.periodLength info.multipliers.length
  startTs : ∀ s ∈ info.startTs, 0 < s ∧ s ≤ chronoMaxTimestamp

theorem toStartTs_mem {timestamp : ℕ} {s : ℤ} (set : s ∈ toStartTs timestamp) :
    0 < s ∧ s ≤ chronoMaxTimestamp := by
  unfold toStartTs toTimestamp at set
  split_ifs at set with unset decodes
  · cases set
  · cases set
    exact ⟨by omega, decodes.2⟩
  · cases set

theorem BoostedHexInfo.tryFrom_wellFormed {v : BoostedHexInfoProto} {info : BoostedHexInfo}
    (built : BoostedHexInfo.tryFrom v = some info) : info.WellFormed := by
  unfold BoostedHexInfo.tryFrom at built
  split_ifs at built
  cases built
  exact ⟨rfl, fun _ set => toStartTs_mem set⟩

theorem BoostedHexInfo.fromRow_wellFormed {pubkeyFromStr : String → Option (List UInt8)}
    {row : BoostedHexRow} {info : BoostedHexInfo}
    (built : BoostedHexInfo.fromRow pubkeyFromStr row = some info) : info.WellFormed := by
  obtain ⟨boostConfigPubkey, -, built⟩ := Option.bind_eq_some_iff.mp built
  obtain ⟨boostedHexPubkey, -, built⟩ := Option.bind_eq_some_iff.mp built
  cases built
  exact ⟨by simp, fun _ set => toStartTs_mem set⟩

/-! ## The index of a read -/

section Index

variable {info : BoostedHexInfo} {boostStartTs ts : ℤ}

theorem asUsize_of_lt {x : ℤ} (nonneg : 0 ≤ x) (small : x < 2 ^ 64) : (asUsize x : ℤ) = x := by
  unfold asUsize
  rw [Int.emod_eq_of_lt nonneg small, Int.toNat_of_nonneg nonneg]

/-- A negative index wraps to `2 ^ 64` below it. -/
theorem asUsize_of_neg {x : ℤ} (negative : x < 0) (large : -2 ^ 64 ≤ x) :
    (asUsize x : ℤ) = x + 2 ^ 64 := by
  unfold asUsize
  have wrapped : x % 2 ^ 64 = x + 2 ^ 64 := by
    rw [← Int.add_mul_emod_self_right x 1 (2 ^ 64), one_mul]
    exact Int.emod_eq_of_lt (by omega) (by omega)
  rw [wrapped, Int.toNat_of_nonneg (by omega)]

/-- From the start on, the index is the number of whole periods since the start. -/
theorem multiplierIndex_of_le (positive : 0 < info.periodLength) (started : boostStartTs ≤ ts)
    (small : (ts - boostStartTs) / info.periodLength < 2 ^ 64) :
    (info.multiplierIndex boostStartTs ts : ℤ) = (ts - boostStartTs) / info.periodLength := by
  have divides : i64CheckedDiv (ts - boostStartTs) info.periodLength =
      some ((ts - boostStartTs) / info.periodLength) := by
    rw [i64CheckedDiv, if_neg (by omega), Int.tdiv_eq_ediv_of_nonneg (by omega)]
  rw [BoostedHexInfo.multiplierIndex, divides, Option.getD_some]
  exact asUsize_of_lt (Int.ediv_nonneg (by omega) positive.le) small

/-- A whole period or more before the start, the truncated quotient is negative and
the cast wraps it past `2 ^ 63`. -/
theorem multiplierIndex_of_early (positive : 0 < info.periodLength)
    (early : ts ≤ boostStartTs - info.periodLength) (near : -2 ^ 63 ≤ ts - boostStartTs) :
    2 ^ 63 ≤ info.multiplierIndex boostStartTs ts := by
  set p := info.periodLength
  set back := boostStartTs - ts
  -- `(ts - start).tdiv p = -(back / p)`, with `1 ≤ back / p ≤ back`
  have quotient : (ts - boostStartTs).tdiv p = -(back / p) := by
    rw [show ts - boostStartTs = -back by omega, Int.neg_tdiv, Int.tdiv_eq_ediv_of_nonneg (by omega)]
  have atLeastOne : 1 ≤ back / p := (Int.le_ediv_iff_mul_le positive).mpr (by omega)
  have atMost : back / p ≤ back := Int.ediv_le_self p (by omega)
  have divides : i64CheckedDiv (ts - boostStartTs) p = some (-(back / p)) := by
    rw [i64CheckedDiv, if_neg (by omega), quotient]
  have wrapped : (asUsize (-(back / p)) : ℤ) = -(back / p) + 2 ^ 64 :=
    asUsize_of_neg (by omega) (by omega)
  have index : (info.multiplierIndex boostStartTs ts : ℤ) = -(back / p) + 2 ^ 64 := by
    rw [BoostedHexInfo.multiplierIndex, divides, Option.getD_some, wrapped]
  omega

end Index

/-! ## Reads before the start panic -/

/-- A well-formed boost with a start, read a whole period or more before that start,
panics: the index wraps past `2 ^ 63`, beyond any list of multipliers. -/
theorem BoostedHexInfo.currentMultiplier_of_early {info : BoostedHexInfo} (wellFormed : info.WellFormed)
    {boostStartTs ts : ℤ} (started : info.startTs = some boostStartTs)
    (positive : 0 < info.periodLength) (early : ts ≤ boostStartTs - info.periodLength)
    (tsRange : -2 ^ 62 ≤ ts) (short : info.multipliers.length < 2 ^ 63) :
    info.currentMultiplier ts = none := by
  have startRange := wellFormed.startTs boostStartTs started
  have endIs : info.endTs = some (boostStartTs + info.periodLength * info.multipliers.length) := by
    rw [wellFormed.endTs, started]
    rfl
  have beforeEnd : ts < boostStartTs + info.periodLength * info.multipliers.length := by
    have : 0 ≤ info.periodLength * info.multipliers.length :=
      Int.mul_nonneg positive.le (Int.natCast_nonneg _)
    omega
  have startBelow : boostStartTs ≤ 8210298412799 := startRange.2
  have index := multiplierIndex_of_early positive early (by omega)
  have outside : info.multipliers.length ≤ info.multiplierIndex boostStartTs ts := by omega
  simp only [BoostedHexInfo.currentMultiplier, endIs, Option.isSome_some, Option.getD_some,
    not_le.mpr beforeEnd, and_false, if_false, started, List.getElem?_eq_none outside,
    Option.map_none]

/-- The last boost at a location is the one `BoostedHexes::new` keeps there. -/
theorem BoostedHexes.get_new_append (hexes : List BoostedHexInfo) (info : BoostedHexInfo) :
    get (BoostedHexes.new (hexes ++ [info])).hexes info.location = some info := by
  simp only [BoostedHexes.new, List.foldl_append, List.foldl_cons, List.foldl_nil]
  rw [get_modifyEntry_self]

/-- A boost built from its proto, with a start and a positive period, panics when it is
read a whole period or more before its start; so does `get_current_multiplier` at its
location, whatever boosts were loaded before it. -/
theorem boost_read_before_start_panics {v : BoostedHexInfoProto} {info : BoostedHexInfo}
    (built : BoostedHexInfo.tryFrom v = some info) {boostStartTs ts : ℤ}
    (started : info.startTs = some boostStartTs) (positive : 0 < info.periodLength)
    (early : ts ≤ boostStartTs - info.periodLength) (tsRange : -2 ^ 62 ≤ ts)
    (short : info.multipliers.length < 2 ^ 63) (hexes : List BoostedHexInfo) :
    info.currentMultiplier ts = none ∧
      (BoostedHexes.new (hexes ++ [info])).getCurrentMultiplier info.location ts = none := by
  have panics := BoostedHexInfo.currentMultiplier_of_early
    (BoostedHexInfo.tryFrom_wellFormed built) started positive early tsRange short
  refine ⟨panics, ?_⟩
  rw [BoostedHexes.getCurrentMultiplier, BoostedHexes.get_new_append]
  exact panics

/-- A boost from second 100 in periods of 10 seconds with the one multiplier `2`. -/
def sampleBoostProto : BoostedHexInfoProto :=
  ⟨7, 100, 10, [2], List.replicate 32 0, List.replicate 32 0, 0⟩

/-- What `TryFrom` builds from `sampleBoostProto`: it ends at second 110. -/
def sampleBoost : BoostedHexInfo :=
  ⟨7, some 100, some 110, 10, [2], List.replicate 32 0, List.replicate 32 0, 0⟩

theorem tryFrom_sampleBoostProto : BoostedHexInfo.tryFrom sampleBoostProto = some sampleBoost := by
  decide

/-- Read at second 50, `(50 - 100) / 10 = -5` becomes the index `2 ^ 64 - 5`. -/
theorem boost_read_before_start_panics_at_fifty :
    sampleBoost.currentMultiplier 50 = none ∧
      (BoostedHexes.new ([] ++ [sampleBoost])).getCurrentMultiplier sampleBoost.location 50 = none :=
  boost_read_before_start_panics tryFrom_sampleBoostProto rfl (by decide) (by decide) (by decide)
    (by decide) []

/-! ## Reads from the start on -/

/-- The period a timestamp falls in, counted from the start; the first when no start is
set. -/
def BoostedHexInfo.periodIndex (info : BoostedHexInfo) (ts : ℤ) : ℕ :=
  match info.startTs with
  | some boostStartTs => ((ts - boostStartTs) / info.periodLength).toNat
  | none => 0

/-- From the start of a well-formed boost with a positive period and some multipliers
on, `current_multiplier` stays in bounds: it is `Ok(None)` from the end on, and before
the end the multiplier of the period the timestamp falls in. -/
theorem BoostedHexInfo.currentMultiplier_of_started {info : BoostedHexInfo}
    (wellFormed : info.WellFormed) (positive : 0 < info.periodLength)
    (nonempty : info.multipliers ≠ []) (short : info.multipliers.length < 2 ^ 63) {ts : ℤ}
    (started : ∀ boostStartTs ∈ info.startTs, boostStartTs ≤ ts) :
    ((∃ endTs ∈ info.endTs, endTs ≤ ts) ∧ info.currentMultiplier ts = some none) ∨
      ((∀ endTs ∈ info.endTs, ts < endTs) ∧
        ∃ inBounds : info.periodIndex ts < info.multipliers.length,
          info.currentMultiplier ts = some (some info.multipliers[info.periodIndex ts])) := by
  have endIs := wellFormed.endTs
  cases startIs : info.startTs with
  | none =>
    -- no start: no end either, and the first multiplier is read
    have noEnd : info.endTs = none := by rw [endIs, startIs]; rfl
    have first : 0 < info.multipliers.length := List.length_pos_iff.mpr nonempty
    right
    refine ⟨by simp [noEnd], ?_⟩
    simp only [BoostedHexInfo.periodIndex, startIs]
    refine ⟨first, ?_⟩
    simp [BoostedHexInfo.currentMultiplier, noEnd, startIs, List.getElem?_eq_getElem first]
  | some boostStartTs =>
    have endSome : info.endTs =
        some (boostStartTs + info.periodLength * info.multipliers.length) := by
      rw [endIs, startIs]
      rfl
    by_cases ended : boostStartTs + info.periodLength * info.multipliers.length ≤ ts
    · left
      exact ⟨⟨_, by rw [endSome]; rfl, ended⟩, by
        simp [BoostedHexInfo.currentMultiplier, endSome, ended]⟩
    · right
      have running : ts < boostStartTs + info.periodLength * info.multipliers.length :=
        not_le.mp ended
      have from_start := started boostStartTs (by rw [startIs]; rfl)
      -- `(ts - start) / period` is below the number of multipliers
      have below : (ts - boostStartTs) / info.periodLength < info.multipliers.length :=
        (Int.ediv_lt_iff_lt_mul positive).mpr (by rw [mul_comm]; omega)
      have index := multiplierIndex_of_le positive from_start (by omega)
      have indexIs : info.periodIndex ts = info.multiplierIndex boostStartTs ts := by
        simp only [BoostedHexInfo.periodIndex, startIs]
        omega
      have inBounds : info.periodIndex ts < info.multipliers.length := by omega
      refine ⟨by simp [endSome, running], inBounds, ?_⟩
      simp only [BoostedHexInfo.currentMultiplier, endSome, Option.isSome_some, Option.getD_some,
        not_le.mpr running, and_false, if_false, startIs, ← indexIs,
        List.getElem?_eq_getElem inBounds, Option.map_some]

/-- The sample boost read at second 105, in its first period. -/
theorem boost_read_in_first_period :
    ((∃ endTs ∈ sampleBoost.endTs, endTs ≤ 105) ∧ sampleBoost.currentMultiplier 105 = some none) ∨
      ((∀ endTs ∈ sampleBoost.endTs, 105 < endTs) ∧
        ∃ inBounds : sampleBoost.periodIndex 105 < sampleBoost.multipliers.length,
          sampleBoost.currentMultiplier 105 =
            some (some sampleBoost.multipliers[sampleBoost.periodIndex 105])) :=
  BoostedHexInfo.currentMultiplier_of_started
    (BoostedHexInfo.tryFrom_wellFormed tryFrom_sampleBoostProto) (by decide) (by decide)
    (by decide) (fun boostStartTs set => by cases set; decide)

end HeliumOracles.MobileConfig
