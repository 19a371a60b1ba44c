import Mathlib
import HeliumOracles.MobileConfig.BoostedHexInfo

/-!
# File keys: the format and its parser

Source: `file_store/src/file_info.rs` (`FileInfo`, its `FromStr`, `From<(FileType, DateTime)>`
and `From<(String, DateTime)>` impls, `FileInfo::matches`, the prefix constants, `FileType`
with its `Display`, `to_str` and `FromStr`) and `TimestampDecode::to_timestamp_millis` of
`file_store/src/traits/msg_timestamp.rs`.

Every file the services write is named `<prefix>.<millis>.gz`, and every reader parses a
name back with the regular expression `([a-z,_]+).(\d+)(.gz)?`. Lean has no regular
expressions, so the matcher is written out for this one pattern as the regex crate runs
it: leftmost-first, that is, the first start position with a match, and there the match a
backtracking engine finds first. The greedy class run gives characters back one at a time
until `.` and a digit can follow; `\d+` then takes every digit, and the optional `(.gz)?`
after it always matches and is read by nobody, so it changes neither the groups nor
whether a name matches. The dot of the pattern is unescaped: it is any character but a
line feed. `\d` is matched as an ASCII digit; the crate's Unicode `\d` also takes the
other decimal digits of Unicode, which no key written here contains.

A `DateTime<Utc>` is a whole number of nanoseconds, as in `RewardScheduler`; the
timestamp parsed from a key is whole milliseconds. The round trip (`fromStr_fileKey`):
the key of a time from the epoch on parses back to its prefix and to the time truncated to
the millisecond, whenever the prefix is a nonempty word of the class `[a-z,_]`, which every
`FileType` name is. Two keys of one prefix are then equal only for times in the same
millisecond (`fileKey_inj`).
-/
namespace HeliumOracles.FileStore

/-- `FileType`; its names are the constants of `file_info.rs`. -/
inductive FileType where
  | cbrsHeartbeat | cellSpeedtest | entropy | subnetworkRewards | cbrsHeartbeatIngestReport
  | cellSpeedtestIngestReport | entropyReport | iotBeaconIngestReport | iotWitnessIngestReport
  | iotPoc | iotInvalidBeaconReport | iotInvalidWitnessReport | speedtestAvg
  | validatedHeartbeat | signedPocReceiptTxn | radioRewardShare | rewardManifest
  | iotPacketReport | iotValidPacket | invalidPacket | nonRewardablePacket | iotRewardShare
  | dataTransferSessionIngestReport | invalidDataTransferSessionIngestReport
  | validDataTransferSession | priceReport | mobileRewardShare | subscriberLocationReq
  | subscriberLocationIngestReport | verifiedSubscriberLocationIngestReport | mapperMsg
  | coverageObject | coverageObjectIngestReport | seniorityUpdate | verifiedSpeedtest
  | wifiHeartbeat | wifiHeartbeatIngestReport | boostedHexUpdate
deriving DecidableEq, Repr

namespace FileType

/-- `FileType::to_str`, which `Display` writes as well. -/
def toStr : FileType → String
  | subscriberLocationReq => "subscriber_location_req"
  | subscriberLocationIngestReport => "subscriber_location_report"
  | verifiedSubscriberLocationIngestReport => "verified_subscriber_location_report"
  | cbrsHeartbeat => "cbrs_heartbeat"
  | wifiHeartbeat => "wifi_heartbeat"
  | cellSpeedtest => "cell_speedtest"
  | verifiedSpeedtest => "verified_speedtest"
  | cbrsHeartbeatIngestReport => "heartbeat_report"
  | wifiHeartbeatIngestReport => "wifi_heartbeat_report"
  | cellSpeedtestIngestReport => "speedtest_report"
  | entropy => "entropy"
  | subnetworkRewards => "subnetwork_rewards"
  | entropyReport => "entropy_report"
  | iotBeaconIngestReport => "iot_beacon_ingest_report"
  | iotWitnessIngestReport => "iot_witness_ingest_report"
  | iotPoc => "iot_poc"
  | iotInvalidBeaconReport => "iot_invalid_beacon"
  | iotInvalidWitnessReport => "iot_invalid_witness"
  | speedtestAvg => "speedtest_avg"
  | validatedHeartbeat => "validated_heartbeat"
  | signedPocReceiptTxn => "signed_poc_receipt_txn"
  | radioRewardShare => "radio_reward_share"
  | rewardManifest => "reward_manifest"
  | iotPacketReport => "packetreport"
  | iotValidPacket => "iot_valid_packet"
  | invalidPacket => "invalid_packet"
  | nonRewardablePacket => "non_rewardable_packet"
  | iotRewardShare => "iot_reward_share"
  | dataTransferSessionIngestReport => "data_transfer_session_ingest_report"
  | invalidDataTransferSessionIngestReport => "invalid_data_transfer_session_ingest_report"
  | validDataTransferSession => "valid_data_transfer_session"
  | priceReport => "price_report"
  | mobileRewardShare => "mobile_reward_share"
  | mapperMsg => "mapper_msg"
  | coverageObject => "coverage_object"
  | coverageObjectIngestReport => "coverage_object_ingest_report"
  | seniorityUpdate => "seniority_update"
  | boostedHexUpdate => "boosted_hex_update"

/-- `FileType::from_str`; `none` is its `InvalidInput` error. -/
def fromStr : String → Option FileType
  | "subscriber_location_req" => some subscriberLocationReq
  | "subscriber_location_report" => some subscriberLocationIngestReport
  | "verified_subscriber_location_report" => some verifiedSubscriberLocationIngestReport
  | "cbrs_heartbeat" => some cbrsHeartbeat
  | "wifi_heartbeat" => some wifiHeartbeat
  | "cell_speedtest" => some cellSpeedtest
  | "verified_speedtest" => some verifiedSpeedtest
  | "heartbeat_report" => some cbrsHeartbeatIngestReport
  | "wifi_heartbeat_report" => some wifiHeartbeatIngestReport
  | "speedtest_report" => some cellSpeedtestIngestReport
  | "entropy" => some entropy
  | "subnetwork_rewards" => some subnetworkRewards
  | "entropy_report" => some entropyReport
  | "iot_beacon_ingest_report" => some iotBeaconIngestReport
  | "iot_witness_ingest_report" => some iotWitnessIngestReport
  | "iot_poc" => some iotPoc
  | "iot_invalid_beacon" => some iotInvalidBeaconReport
  | "iot_invalid_witness" => some iotInvalidWitnessReport
  | "speedtest_avg" => some speedtestAvg
  | "validated_heartbeat" => some validatedHeartbeat
  | "signed_poc_receipt_txn" => some signedPocReceiptTxn
  | "radio_reward_share" => some radioRewardShare
  | "reward_manifest" => some rewardManifest
  | "packetreport" => some iotPacketReport
  | "iot_valid_packet" => some iotValidPacket
  | "invalid_packet" => some invalidPacket
  | "non_rewardable_packet" => some nonRewardablePacket
  | "iot_reward_share" => some iotRewardShare
  | "data_transfer_session_ingest_report" => some dataTransferSessionIngestReport
  | "invalid_data_transfer_session_ingest_report" => some invalidDataTransferSessionIngestReport
  | "valid_data_transfer_session" => some validDataTransferSession
  | "price_report" => some priceReport
  | "mobile_reward_share" => some mobileRewardShare
  | "mapper_msg" => some mapperMsg
  | "coverage_object" => some coverageObject
  | "coverage_object_ingest_report" => some coverageObjectIngestReport
  | "seniority_update" => some seniorityUpdate
  | "boosted_hex_update" => some boostedHexUpdate
  | _ => none

theorem fromStr_toStr (fileType : FileType) : fromStr fileType.toStr = some fileType := by
  cases fileType <;> decide +kernel

end FileType

/-! ## The key pattern -/

/-- The class `[a-z,_]`. -/
def isKeyPrefixChar (c : Char) : Bool := decide ('a' ≤ c ∧ c ≤ 'z') || c == ',' || c == '_'

/-- The pattern after a class run: an unescaped `.`, any character but a line feed, then
`\d+`, which is greedy. The digits of the second group. -/
def afterClassRun : List Char → Option (List Char)
  | c :: d :: more => if c ≠ '\n' ∧ d.isDigit then some ((d :: more).takeWhile Char.isDigit) else none
  | _ => none

/-- The greedy `[a-z,_]+` at the head of `cs` tried with `k` characters, then with one
fewer, down to one: the two groups of the first try the rest of the pattern accepts. -/
def giveBack (cs : List Char) : ℕ → Option (List Char × List Char)
  | 0 => none
  | k + 1 =>
    match afterClassRun (cs.drop (k + 1)) with
    | some digits => some (cs.take (k + 1), digits)
    | none => giveBack cs k

/-- A match that starts at the head of `cs`. -/
def matchHere (cs : List Char) : Option (List Char × List Char) :=
  giveBack cs (cs.takeWhile isKeyPrefixChar).length

/-- `Regex::captures`: groups 1 and 2 of the leftmost match. -/
def captures : List Char → Option (List Char × List Char)
  | [] => none
  | c :: rest => (matchHere (c :: rest)).or (captures rest)

/-- `FileInfo::matches`, that is `Regex::is_match`. -/
def FileInfo.matches (key : String) : Bool := (captures key.toList).isSome

/-! ## Decoding the timestamp -/

/-- One digit of `u64::from_str`: the product by ten and the sum, both checked. -/
def pushDigit (acc : ℕ) (d : Char) : Option ℕ :=
  if d.isDigit ∧ acc * 10 + (d.toNat - 48) < 2 ^ 64 then some (acc * 10 + (d.toNat - 48)) else none

/-- `u64::from_str`, digit by digit. The sign the source also accepts never reaches it
from a `\d+` group. -/
def u64FromStr (digits : List Char) : Option ℕ :=
  if digits = [] then none else digits.foldlM pushDigit 0

/-- The variants of `DecodeError` that decoding a key raises. -/
inductive DecodeError where
  | fileInfo (message : String)
  | fromInt
  | invalidTimestamp (value : ℕ)
deriving DecidableEq, Repr

/-- `u64::to_timestamp_millis`: the `i64` conversion, then the range of `DateTime<Utc>`,
which ends with year 262143. -/
def toTimestampMillis (millis : ℕ) : Except DecodeError ℤ :=
  if millis < 2 ^ 63 then
    if (millis : ℤ) / 1000 ≤ MobileConfig.chronoMaxTimestamp then .ok (millis * 1000000)
    else .error (.invalidTimestamp millis)
  else .error .fromInt

/-- `FileInfo`. -/
structure FileInfo where
  key : String
  keyPrefix : String
  timestamp : ℤ
  size : ℕ
deriving DecidableEq, Repr

/-- `FileInfo::from_str`. -/
def FileInfo.fromStr (key : String) : Except DecodeError FileInfo :=
  match captures key.toList with
  | none => .error (.fileInfo "failed to decode file info")
  | some (keyPrefix, digits) =>
    match u64FromStr digits with
    | none => .error (.fileInfo "failed to decode timestamp")
    | some millis =>
      (toTimestampMillis millis).map fun timestamp => ⟨key, String.ofList keyPrefix, timestamp, 0⟩

/-! ## Writing a key -/

/-- `DateTime::timestamp_millis`. -/
def timestampMillis (time : ℤ) : ℤ := time / 1000000

/-- The key of a file of `millis` milliseconds: `format!("{}.{}.gz", prefix, millis)`. -/
def keyOfMillis (keyPrefix : String) (millis : ℤ) : String :=
  keyPrefix ++ "." ++ toString millis ++ ".gz"

/-- `format!("{}.{}.gz", prefix, time.timestamp_millis())`. -/
def fileKey (keyPrefix : String) (time : ℤ) : String := keyOfMillis keyPrefix (timestampMillis time)

/-- `From<(String, DateTime<Utc>)> for FileInfo`. -/
def FileInfo.ofPrefix (keyPrefix : String) (time : ℤ) : FileInfo :=
  ⟨fileKey keyPrefix time, keyPrefix, time, 0⟩

/-- `From<(FileType, DateTime<Utc>)> for FileInfo`. -/
def FileInfo.ofFileType (fileType : FileType) (time : ℤ) : FileInfo :=
  FileInfo.ofPrefix fileType.toStr time

/-! ## The round trip -/

theorem FileType.toStr_keyPrefixChars (fileType : FileType) :
    fileType.toStr.toList ≠ [] ∧ fileType.toStr.toList.all isKeyPrefixChar = true := by
  cases fileType <;> decide +kernel

/-- The loop of `u64::from_str` reads back the decimal digits of every `u64`. -/
theorem foldlM_pushDigit_toDigits (n : ℕ) (fits : n < 2 ^ 64) :
    (Nat.toDigits 10 n).foldlM pushDigit 0 = some n := by
  induction n using Nat.strong_induction_on with
  | _ n ih =>
    by_cases small : n < 10
    · rw [Nat.toDigits_of_lt_base small]
      simp [pushDigit, Nat.toNat_digitChar_sub_48_of_lt_ten small, small]
      exact fits
    · have last : (n % 10).digitChar.toNat - 48 = n % 10 :=
        Nat.toNat_digitChar_sub_48_of_lt_ten (Nat.mod_lt n (by norm_num))
      have recombined : n / 10 * 10 + n % 10 = n := by omega
      rw [Nat.toDigits_of_base_le (by norm_num) (by omega), List.foldlM_append,
        ih (n / 10) (by omega) (by omega)]
      simp [pushDigit, last, recombined, Nat.mod_lt n (by norm_num : 10 > 0)]
      exact fits

theorem u64FromStr_toDigits {n : ℕ} (fits : n < 2 ^ 64) : u64FromStr (Nat.toDigits 10 n) = some n := by
  have nonempty : Nat.toDigits 10 n ≠ [] := List.ne_nil_of_length_pos Nat.length_toDigits_pos
  simp only [u64FromStr, nonempty, if_false]
  exact foldlM_pushDigit_toDigits n fits

/-- A key as the sinks write it, a class word, a dot, digits and `.gz`, has the word and
the digits as its two groups. -/
theorem captures_key {keyPrefix digits : List Char} (nonempty : keyPrefix ≠ [])
    (inClass : ∀ c ∈ keyPrefix, isKeyPrefixChar c = true) (someDigits : digits ≠ [])
    (allDigits : ∀ d ∈ digits, d.isDigit = true) :
    captures (keyPrefix ++ '.' :: (digits ++ ['.', 'g', 'z'])) = some (keyPrefix, digits) := by
  have run : (keyPrefix ++ '.' :: (digits ++ ['.', 'g', 'z'])).takeWhile isKeyPrefixChar =
      keyPrefix := by
    rw [List.takeWhile_append_of_pos inClass, List.takeWhile_cons]
    simp [isKeyPrefixChar]
  have rest : afterClassRun ('.' :: (digits ++ ['.', 'g', 'z'])) = some digits := by
    obtain ⟨d, ds, rfl⟩ := List.exists_cons_of_ne_nil someDigits
    have firstDigit : d.isDigit = true := allDigits d (by simp)
    rw [List.cons_append, afterClassRun, if_pos ⟨by decide, firstDigit⟩, ← List.cons_append,
      List.takeWhile_append_of_pos allDigits]
    simp [Char.isDigit]
  obtain ⟨c, word, rfl⟩ := List.exists_cons_of_ne_nil nonempty
  have here : matchHere (c :: word ++ '.' :: (digits ++ ['.', 'g', 'z'])) =
      some (c :: word, digits) := by
    rw [matchHere, run, List.length_cons, giveBack, ← List.length_cons, List.drop_left, rest]
    simp
  rw [List.cons_append, captures, ← List.cons_append, here]
  rfl

theorem fileKey_toList (keyPrefix : String) {time : ℤ} (afterEpoch : 0 ≤ time) :
    (fileKey keyPrefix time).toList = keyPrefix.toList ++
      '.' :: (Nat.toDigits 10 (timestampMillis time).toNat ++ ['.', 'g', 'z']) := by
  have millisNonneg : 0 ≤ timestampMillis time := Int.ediv_nonneg afterEpoch (by norm_num)
  obtain ⟨millis, hmillis⟩ := Int.eq_ofNat_of_zero_le millisNonneg
  have printed : (toString (timestampMillis time)).toList = Nat.toDigits 10 millis := by
    rw [hmillis]
    change (Nat.repr millis).toList = _
    simp [Nat.repr]
  rw [fileKey, keyOfMillis, String.toList_append, String.toList_append, String.toList_append,
    printed, hmillis]
  simp

/-- The round trip of a key: `FileInfo::from_str` reads back the prefix and the time, to
the millisecond, of every key the sinks write from the epoch to the end of chrono's range,
whenever the prefix is a nonempty word of `[a-z,_]`. -/
theorem fromStr_fileKey {keyPrefix : String} (nonempty : keyPrefix.toList ≠ [])
    (inClass : ∀ c ∈ keyPrefix.toList, isKeyPrefixChar c = true) {time : ℤ} (afterEpoch : 0 ≤ time)
    (inRange : timestampMillis time / 1000 ≤ MobileConfig.chronoMaxTimestamp) :
    FileInfo.fromStr (fileKey keyPrefix time) =
      .ok ⟨fileKey keyPrefix time, keyPrefix, timestampMillis time * 1000000, 0⟩ := by
  have millisNonneg : 0 ≤ timestampMillis time := Int.ediv_nonneg afterEpoch (by norm_num)
  have digits : ∀ d ∈ Nat.toDigits 10 (timestampMillis time).toNat, d.isDigit = true :=
    fun _ member => Nat.isDigit_of_mem_toDigits (by norm_num) (by norm_num) member
  have groups := captures_key nonempty inClass
    (List.ne_nil_of_length_pos Nat.length_toDigits_pos) digits
  have fits : (timestampMillis time).toNat < 2 ^ 63 := by
    unfold MobileConfig.chronoMaxTimestamp at inRange
    omega
  have decoded : toTimestampMillis (timestampMillis time).toNat =
      .ok (timestampMillis time * 1000000) := by
    unfold toTimestampMillis
    rw [if_pos fits, Int.toNat_of_nonneg millisNonneg, if_pos inRange]
  rw [FileInfo.fromStr, fileKey_toList keyPrefix afterEpoch, groups]
  simp only [u64FromStr_toDigits (fits.trans (by norm_num)), decoded, Except.map, String.ofList_toList]

/-- Within one prefix, two keys are the same file only for times in the same millisecond. -/
theorem fileKey_inj {keyPrefix : String} (nonempty : keyPrefix.toList ≠ [])
    (inClass : ∀ c ∈ keyPrefix.toList, isKeyPrefixChar c = true) {time time' : ℤ}
    (afterEpoch : 0 ≤ time) (afterEpoch' : 0 ≤ time')
    (inRange : timestampMillis time / 1000 ≤ MobileConfig.chronoMaxTimestamp)
    (inRange' : timestampMillis time' / 1000 ≤ MobileConfig.chronoMaxTimestamp)
    (same : fileKey keyPrefix time = fileKey keyPrefix time') :
    timestampMillis time = timestampMillis time' := by
  have parsed := fromStr_fileKey nonempty inClass afterEpoch inRange
  rw [same, fromStr_fileKey nonempty inClass afterEpoch' inRange'] at parsed
  have stamps := congrArg FileInfo.timestamp (Except.ok.inj parsed)
  simp only at stamps
  omega

/-- The key `FileInfo::from` gives a file type and a time parses back with
`FileInfo::from_str` to the same file info but for the time, which comes back truncated
to the millisecond, and its prefix back to the file type with `FileType::from_str`: for
every file type and every time from the epoch to the end of chrono's range. -/
theorem fileType_key_round_trip (fileType : FileType) {time : ℤ} (afterEpoch : 0 ≤ time)
    (inRange : timestampMillis time / 1000 ≤ MobileConfig.chronoMaxTimestamp) :
    FileInfo.fromStr (FileInfo.ofFileType fileType time).key =
        .ok { FileInfo.ofFileType fileType time with timestamp := timestampMillis time * 1000000 } ∧
      FileType.fromStr (FileInfo.ofFileType fileType time).keyPrefix = some fileType := by
  obtain ⟨nonempty, inClass⟩ := fileType.toStr_keyPrefixChars
  exact ⟨fromStr_fileKey nonempty (List.all_eq_true.mp inClass) afterEpoch inRange,
    FileType.fromStr_toStr fileType⟩

theorem fileType_key_round_trip_at_price_report :
    FileInfo.fromStr (FileInfo.ofFileType .priceReport 1700000000123456789).key =
        .ok { FileInfo.ofFileType .priceReport 1700000000123456789 with
              timestamp := timestampMillis 1700000000123456789 * 1000000 } ∧
      FileType.fromStr (FileInfo.ofFileType .priceReport 1700000000123456789).keyPrefix =
        some .priceReport :=
  fileType_key_round_trip .priceReport (by norm_num)
    (by norm_num [timestampMillis, MobileConfig.chronoMaxTimestamp])

end HeliumOracles.FileStore
