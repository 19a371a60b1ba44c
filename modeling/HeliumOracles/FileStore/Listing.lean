import Mathlib
import HeliumOracles.Lib.Numeral
import HeliumOracles.Lib.TransactionLog
import HeliumOracles.FileStore.FileInfo
import HeliumOracles.FileStore.FileInfoPoller

/-!
# Listing a bucket

Source: `FileStore::list` and `FileStore::list_all` of `file_store/src/file_store.rs`, and
`TryFrom<&aws_sdk_s3::model::Object> for FileInfo` of `file_info.rs`.

`list` asks S3's `ListObjectsV2` for the keys that begin with the file type and come after
the key of `after` (`start-after`), parses the keys that match the key pattern, and keeps the
files whose timestamp is after `after` and not after `before`. S3 lists keys in UTF-8 byte
order, which on strings is the order of their characters' code points, the lexicographic
order of `List Char`. The pages of a listing, joined by continuation tokens, are one listing
here, and an error of S3 is left out. A key that matches the pattern but does not parse
makes `unwrap` panic: that is `none`.

The timestamp filter after the listing repeats the `start-after` bound, which only saves S3
the old keys. The two agree (`list_eq_listWithoutStartAfter`) on a bucket whose keys the
sinks wrote, as long as every time has thirteen digits of milliseconds, from 2001-09-09 to
2286-11-20: the keys of one word then sort as their times. A key of a longer word that
begins with the prefix, `entropy_report` for `entropy`, sorts after every key of the prefix
itself, and is listed on both sides. Numerals of different lengths compare by their first
digits, and there `start-after` drops files that the filter would keep.

The file info poller sees a listing as the times of its files, in time order, filtered
(`listAll`); `list_refines_listAll` says that is what `list_all` returns.
-/
namespace HeliumOracles.FileStore

open Lib.TransactionLog Lib.Numeral
open scoped List

/-- The fields of an S3 object that `FileInfo` reads. -/
structure Object where
  key : String
  size : ℕ
deriving DecidableEq, Repr

/-- A bucket: its objects, one for each key. -/
structure Bucket where
  objects : List Object
  unique : (objects.map Object.key).Nodup

/-- `ListObjectsV2` with `prefix` and `start-after`, all its pages: the objects whose keys
begin with the prefix and come after `start-after`, in key order. -/
def listObjectsV2 (bucket : Bucket) (keyPrefix : String) (startAfter : Option String) :
    List Object :=
  byKey (fun obj : Object => obj.key.toList) (bucket.objects.filter fun obj =>
    keyPrefix.toList.isPrefixOf obj.key.toList &&
      startAfter.all fun start => decide (start.toList < obj.key.toList))

/-- `TryFrom<&Object> for FileInfo`: the key parsed, with the object's size. -/
def FileInfo.tryFromObject (obj : Object) : Except DecodeError FileInfo :=
  (FileInfo.fromStr obj.key).map fun info => { info with size := obj.size }

/-- The `filter_map` of `list`: the objects whose keys match the pattern, parsed, where
`unwrap` panics on one that does not parse. -/
def parseListing (objects : List Object) : Option (List FileInfo) :=
  (objects.filter fun obj => FileInfo.matches obj.key).mapM fun obj =>
    (FileInfo.tryFromObject obj).toOption

/-- The two `filter`s of `list`: after `after`, and not after `before`. -/
def keepWindow (after before : Option ℤ) (infos : List FileInfo) : List FileInfo :=
  (infos.filter fun info => after.all (· < info.timestamp)).filter fun info =>
    before.all (info.timestamp ≤ ·)

/-- `FileStore::list`, all its pages; `list_all` collects them, and is this too. -/
def list (bucket : Bucket) (fileType : String) (after before : Option ℤ) :
    Option (List FileInfo) :=
  (parseListing (listObjectsV2 bucket fileType
    (after.map fun time => (FileInfo.ofPrefix fileType time).key))).map (keepWindow after before)

/-- What `list` means: the same listing without `start-after`, every key of the prefix
parsed and then filtered by its time. -/
def listWithoutStartAfter (bucket : Bucket) (fileType : String) (after before : Option ℤ) :
    Option (List FileInfo) :=
  (parseListing (listObjectsV2 bucket fileType none)).map (keepWindow after before)

/-! ## Keys the sinks write -/

/-- The letters of the words that name files: `[a-z_]`. -/
def isSnakeChar (c : Char) : Bool := decide ('a' ≤ c ∧ c ≤ 'z') || c == '_'

/-- A nonempty word of `[a-z_]`, as every `FileType` name is. -/
def SnakeWord (word : String) : Prop := word.toList ≠ [] ∧ word.toList.all isSnakeChar = true

instance (word : String) : Decidable (SnakeWord word) := inferInstanceAs (Decidable (_ ∧ _))

/-- Milliseconds with thirteen digits: from 2001-09-09 to 2286-11-20. -/
def ThirteenDigits (millis : ℤ) : Prop := 10 ^ 12 ≤ millis ∧ millis < 10 ^ 13

instance (millis : ℤ) : Decidable (ThirteenDigits millis) := inferInstanceAs (Decidable (_ ∧ _))

/-- The key of a sink's file: a word of `[a-z_]` and a time of thirteen digits. -/
def SinkKey (key : String) : Prop :=
  ∃ word time, key = fileKey word time ∧ SnakeWord word ∧ ThirteenDigits (timestampMillis time)

theorem SnakeWord.keyPrefixChars {word : String} (snake : SnakeWord word) :
    ∀ c ∈ word.toList, isKeyPrefixChar c = true := by
  intro c member
  have letter := List.all_eq_true.mp snake.2 c member
  simp only [isSnakeChar, Bool.or_eq_true, decide_eq_true_eq, beq_iff_eq] at letter
  simp only [isKeyPrefixChar, Bool.or_eq_true, decide_eq_true_eq, beq_iff_eq]
  tauto

theorem dot_lt_of_isSnakeChar {c : Char} (letter : isSnakeChar c = true) : '.' < c := by
  simp only [isSnakeChar, Bool.or_eq_true, decide_eq_true_eq, beq_iff_eq] at letter
  rcases letter with ⟨low, -⟩ | rfl
  · exact lt_of_lt_of_le (by decide) low
  · decide

theorem SnakeWord.dot_not_mem {word : String} (snake : SnakeWord word) : '.' ∉ word.toList :=
  fun member => lt_irrefl _ (dot_lt_of_isSnakeChar (List.all_eq_true.mp snake.2 '.' member))

theorem ThirteenDigits.nonneg {time : ℤ} (window : ThirteenDigits (timestampMillis time)) :
    0 ≤ time := by
  have positive : 0 < timestampMillis time := lt_of_lt_of_le (by norm_num) window.1
  unfold timestampMillis at positive
  omega

theorem ThirteenDigits.inRange {time : ℤ} (window : ThirteenDigits (timestampMillis time)) :
    timestampMillis time / 1000 ≤ MobileConfig.chronoMaxTimestamp := by
  have below := window.2
  unfold MobileConfig.chronoMaxTimestamp
  omega

theorem ThirteenDigits.length_toDigits {millis : ℤ} (window : ThirteenDigits millis) :
    (Nat.toDigits 10 millis.toNat).length = 13 := by
  obtain ⟨low, high⟩ := window
  exact length_toDigits_eq (by omega) (by omega)

theorem fileKey_mul_million (word : String) (millis : ℤ) :
    fileKey word (millis * 1000000) = keyOfMillis word millis := by
  rw [fileKey, timestampMillis, Int.mul_ediv_cancel _ (by norm_num)]

/-- What a sink's key parses to: its word and its time to the millisecond. -/
theorem tryFromObject_of_fileKey {obj : Object} {word : String} {time : ℤ}
    (written : obj.key = fileKey word time) (snake : SnakeWord word)
    (window : ThirteenDigits (timestampMillis time)) :
    FileInfo.tryFromObject obj = .ok ⟨obj.key, word, timestampMillis time * 1000000, obj.size⟩ := by
  rw [FileInfo.tryFromObject, written,
    fromStr_fileKey snake.1 snake.keyPrefixChars window.nonneg window.inRange]
  rfl

theorem matches_fileKey {word : String} {time : ℤ} (snake : SnakeWord word)
    (window : ThirteenDigits (timestampMillis time)) : FileInfo.matches (fileKey word time) = true := by
  have digits : ∀ d ∈ Nat.toDigits 10 (timestampMillis time).toNat, d.isDigit = true :=
    fun _ member => Nat.isDigit_of_mem_toDigits (by norm_num) (by norm_num) member
  rw [FileInfo.matches, fileKey_toList word window.nonneg,
    captures_key snake.1 snake.keyPrefixChars Nat.toDigits_ne_nil digits]
  rfl

/-! ## Key order against time order -/

/-- A word that has no dot and begins a key begins the key's word. -/
theorem prefix_of_prefix_dot {keyPrefix word rest : List Char} (noDot : '.' ∉ keyPrefix)
    (begins : keyPrefix <+: word ++ '.' :: rest) : keyPrefix <+: word := by
  rcases List.prefix_or_prefix_of_prefix begins (List.prefix_append word _) with shorter | longer
  · exact shorter
  · obtain ⟨extra, rfl⟩ := longer
    cases extra with
    | nil => simp
    | cons c extra =>
      -- the letter after the word is the key's dot, which the prefix does not hold
      have next := (List.prefix_append_right_inj word).mp begins
      have isDot : c = '.' := (List.cons_prefix_cons.mp next).1
      exact absurd (List.mem_append_right word (isDot ▸ List.mem_cons_self)) noDot

/-- The key of a time in the window sorts before the key of every later time of the same
word, and before every key of a longer word that begins with it. -/
theorem fileKey_lt_fileKey {keyPrefix word : String} (prefixSnake : SnakeWord keyPrefix)
    (wordSnake : SnakeWord word) {start time : ℤ} (startWindow : ThirteenDigits (timestampMillis start))
    (window : ThirteenDigits (timestampMillis time))
    (begins : keyPrefix.toList <+: (fileKey word time).toList)
    (later : start < timestampMillis time * 1000000) :
    (fileKey keyPrefix start).toList < (fileKey word time).toList := by
  rw [fileKey_toList keyPrefix startWindow.nonneg]
  rw [fileKey_toList word window.nonneg] at begins ⊢
  obtain ⟨extra, wordIs⟩ := prefix_of_prefix_dot prefixSnake.dot_not_mem begins
  rw [← wordIs, List.append_assoc]
  apply List.append_left_lt
  cases extra with
  | nil =>
    -- one word: the numerals of the two times decide
    have millisLt : (timestampMillis start).toNat < (timestampMillis time).toNat := by
      have below := (Int.ediv_lt_iff_lt_mul (by norm_num : (0 : ℤ) < 1000000)).mpr later
      have startNonneg := startWindow.1
      unfold timestampMillis at below startNonneg ⊢
      omega
    have sameLength := startWindow.length_toDigits.trans window.length_toDigits.symm
    exact List.cons_lt_cons_iff.mpr (.inr ⟨rfl,
      append_lt_append_of_length_eq (toDigits_lt_toDigits millisLt sameLength) sameLength _ _⟩)
  | cons c extra =>
    -- a longer word: its next letter comes after the dot
    have letter : isSnakeChar c = true := List.all_eq_true.mp wordSnake.2 c
      (wordIs ▸ List.mem_append_right _ List.mem_cons_self)
    exact List.cons_lt_cons_iff.mpr (.inl (dot_lt_of_isSnakeChar letter))

/-! ## The listing -/

theorem Bucket.uniqueToList (bucket : Bucket) :
    (bucket.objects.map fun obj => obj.key.toList).Nodup := by
  have keys := bucket.unique.map (f := String.toList) (fun _ _ same => String.toList_injective same)
  simpa [List.map_map, Function.comp_def] using keys

/-- `start-after` takes the keys after it from the listing of the prefix. -/
theorem listObjectsV2_some (bucket : Bucket) (keyPrefix start : String) :
    listObjectsV2 bucket keyPrefix (some start) =
      (listObjectsV2 bucket keyPrefix none).filter fun obj => decide (start.toList < obj.key.toList) := by
  rw [listObjectsV2, listObjectsV2,
    ← byKey_filter (bucket.uniqueToList.sublist (List.filter_sublist.map _)), List.filter_filter]
  congr 2
  funext obj
  simp [Bool.and_comm]

theorem mem_listObjectsV2 {bucket : Bucket} {keyPrefix : String} {obj : Object}
    (member : obj ∈ listObjectsV2 bucket keyPrefix none) :
    obj ∈ bucket.objects ∧ keyPrefix.toList <+: obj.key.toList := by
  have inFilter := (byKey_perm _ _).subset member
  simp only [List.mem_filter, Option.all_none, Bool.and_true, List.isPrefixOf_iff_prefix] at inFilter
  exact inFilter

/-- What `try_from` gives an object whose key parses. -/
def parsedInfo (obj : Object) : FileInfo :=
  match FileInfo.tryFromObject obj with
  | .ok info => info
  | .error _ => ⟨obj.key, "", 0, obj.size⟩

theorem tryFromObject_eq_parsedInfo {obj : Object} {info : FileInfo}
    (parsed : FileInfo.tryFromObject obj = .ok info) : FileInfo.tryFromObject obj = .ok (parsedInfo obj) := by
  rw [parsedInfo, parsed]

/-- A listing whose keys all match and parse parses to their infos. -/
theorem parseListing_of_parses {objects : List Object}
    (parses : ∀ obj ∈ objects, FileInfo.matches obj.key = true ∧
      FileInfo.tryFromObject obj = .ok (parsedInfo obj)) :
    parseListing objects = some (objects.map parsedInfo) := by
  have allMatch : objects.filter (fun obj => FileInfo.matches obj.key) = objects :=
    List.filter_eq_self.mpr fun obj member => (parses obj member).1
  rw [parseListing, allMatch]
  clear allMatch
  induction objects with
  | nil => rfl
  | cons obj objects ih =>
    have head := (parses obj List.mem_cons_self).2
    rw [List.mapM_cons, head, ih fun other member => parses other (List.mem_cons_of_mem _ member)]
    rfl

/-- Every key of the prefix is a sink's key. -/
def PrefixWritten (bucket : Bucket) (keyPrefix : String) : Prop :=
  ∀ obj ∈ bucket.objects, keyPrefix.toList <+: obj.key.toList → SinkKey obj.key

theorem parses_of_prefixWritten {bucket : Bucket} {keyPrefix : String}
    (written : PrefixWritten bucket keyPrefix) :
    ∀ obj ∈ listObjectsV2 bucket keyPrefix none, FileInfo.matches obj.key = true ∧
      FileInfo.tryFromObject obj = .ok (parsedInfo obj) := by
  intro obj member
  obtain ⟨inBucket, begins⟩ := mem_listObjectsV2 member
  obtain ⟨word, time, keyIs, snake, window⟩ := written obj inBucket begins
  exact ⟨keyIs ▸ matches_fileKey snake window,
    tryFromObject_eq_parsedInfo (tryFromObject_of_fileKey keyIs snake window)⟩

/-- In a listing of sinks' keys the time filter drops every key that `start-after` drops. -/
theorem startAfter_of_after {bucket : Bucket} {keyPrefix : String} (snake : SnakeWord keyPrefix)
    (written : PrefixWritten bucket keyPrefix) {start : ℤ}
    (startWindow : ThirteenDigits (timestampMillis start)) :
    ∀ obj ∈ listObjectsV2 bucket keyPrefix none, start < (parsedInfo obj).timestamp →
      (FileInfo.ofPrefix keyPrefix start).key.toList < obj.key.toList := by
  intro obj member later
  obtain ⟨inBucket, begins⟩ := mem_listObjectsV2 member
  obtain ⟨word, time, keyIs, wordSnake, window⟩ := written obj inBucket begins
  have parsed := tryFromObject_of_fileKey keyIs wordSnake window
  rw [parsedInfo, parsed] at later
  rw [keyIs] at begins ⊢
  exact fileKey_lt_fileKey snake wordSnake startWindow window begins later

/-- The time filter keeps only keys after the start, so taking those first changes nothing. -/
theorem filter_after_startAfter {bucket : Bucket} {keyPrefix : String} (snake : SnakeWord keyPrefix)
    (written : PrefixWritten bucket keyPrefix) {start : ℤ}
    (startWindow : ThirteenDigits (timestampMillis start)) :
    (((listObjectsV2 bucket keyPrefix none).filter fun obj =>
        decide ((FileInfo.ofPrefix keyPrefix start).key.toList < obj.key.toList)).map parsedInfo).filter
        (fun info => (some start).all (· < info.timestamp)) =
      ((listObjectsV2 bucket keyPrefix none).map parsedInfo).filter
        (fun info => (some start).all (· < info.timestamp)) := by
  have dropped := startAfter_of_after snake written startWindow
  rw [List.filter_map, List.filter_map, List.filter_filter]
  congr 1
  refine List.filter_congr fun obj member => ?_
  by_cases later : start < (parsedInfo obj).timestamp
  · simp [later, dropped obj member later]
  · simp [later]

theorem list_some_eq (bucket : Bucket) {fileType : String} (snake : SnakeWord fileType)
    (written : PrefixWritten bucket fileType) {start : ℤ}
    (startWindow : ThirteenDigits (timestampMillis start)) (before : Option ℤ) :
    list bucket fileType (some start) before =
      listWithoutStartAfter bucket fileType (some start) before := by
  have parses := parses_of_prefixWritten written
  rw [list, listWithoutStartAfter, Option.map_some, listObjectsV2_some,
    parseListing_of_parses fun obj member => parses obj (List.mem_filter.mp member).1,
    parseListing_of_parses parses]
  simp only [Option.map_some, keepWindow]
  rw [filter_after_startAfter snake written startWindow]

/-- `start-after` changes nothing: on a bucket whose keys of the prefix the sinks wrote, with
thirteen digits of milliseconds, as is the time of `after`, `list` returns what the
timestamp filters alone keep of the whole listing of the prefix. -/
theorem list_eq_listWithoutStartAfter (bucket : Bucket) {fileType : String}
    (snake : SnakeWord fileType) (written : PrefixWritten bucket fileType) {after : Option ℤ}
    (afterWindow : ∀ start ∈ after, ThirteenDigits (timestampMillis start)) (before : Option ℤ) :
    list bucket fileType after before = listWithoutStartAfter bucket fileType after before := by
  cases after with
  | none => rfl
  | some start => exact list_some_eq bucket snake written (afterWindow start rfl) before

theorem list_eq_listWithoutStartAfter_on_price_reports :
    let bucket : Bucket := ⟨[⟨"price_report.1700000000000.gz", 10⟩,
      ⟨"price_reports.1600000000000.gz", 20⟩], by decide⟩
    SnakeWord "price_report" ∧ PrefixWritten bucket "price_report" ∧
      (∀ start ∈ some 1690000000000000000, ThirteenDigits (timestampMillis start)) ∧
      list bucket "price_report" (some 1690000000000000000) none =
        listWithoutStartAfter bucket "price_report" (some 1690000000000000000) none := by
  intro bucket
  have snake : SnakeWord "price_report" := by decide +kernel
  have written : PrefixWritten bucket "price_report" := by
    intro obj member _
    simp only [bucket, List.mem_cons, List.not_mem_nil, or_false] at member
    rcases member with rfl | rfl
    · exact ⟨"price_report", 1700000000000000000, by decide +kernel, snake,
        by norm_num [ThirteenDigits, timestampMillis]⟩
    · exact ⟨"price_reports", 1600000000000000000, by decide +kernel, by decide +kernel,
        by norm_num [ThirteenDigits, timestampMillis]⟩
  have window : ∀ start ∈ some 1690000000000000000, ThirteenDigits (timestampMillis start) := by
    intro start member
    cases member
    norm_num [ThirteenDigits, timestampMillis]
  exact ⟨snake, written, window, list_eq_listWithoutStartAfter bucket snake written window none⟩

/-! ## The poller's view of a listing -/

theorem timestampMillis_mul_million (millis : ℤ) : timestampMillis (millis * 1000000) = millis := by
  rw [timestampMillis, Int.mul_ediv_cancel _ (by norm_num)]

/-- Keys of one word sort as their times. -/
theorem keyOfMillis_lt_keyOfMillis {word : String} (snake : SnakeWord word) {millis millis' : ℤ}
    (window : ThirteenDigits millis) (window' : ThirteenDigits millis') (lt : millis < millis') :
    (keyOfMillis word millis).toList < (keyOfMillis word millis').toList := by
  rw [← timestampMillis_mul_million millis] at window
  rw [← timestampMillis_mul_million millis'] at window'
  have begins : word.toList <+: (fileKey word (millis' * 1000000)).toList := by
    rw [fileKey_toList word window'.nonneg]
    exact List.prefix_append _ _
  rw [← fileKey_mul_million, ← fileKey_mul_million]
  exact fileKey_lt_fileKey snake snake window window' begins
    (by rw [timestampMillis_mul_million]; omega)

/-- The times of a word's files, in the bucket under that word and nothing else. -/
def StoredAs (bucket : Bucket) (fileType : String) (store : List ℤ) : Prop :=
  (bucket.objects.filter fun obj => fileType.toList.isPrefixOf obj.key.toList).map Object.key ~
    store.map (keyOfMillis fileType)

instance (bucket : Bucket) (fileType : String) (store : List ℤ) :
    Decidable (StoredAs bucket fileType store) := inferInstanceAs (Decidable (_ ~ _))

theorem StoredAs.prefixWritten {bucket : Bucket} {fileType : String} {store : List ℤ}
    (stored : StoredAs bucket fileType store) (snake : SnakeWord fileType)
    (window : ∀ millis ∈ store, ThirteenDigits millis) : PrefixWritten bucket fileType := by
  intro obj inBucket begins
  have listed : obj.key ∈ store.map (keyOfMillis fileType) :=
    stored.subset (List.mem_map_of_mem (List.mem_filter.mpr
      ⟨inBucket, List.isPrefixOf_iff_prefix.mpr begins⟩))
  obtain ⟨millis, inStore, keyIs⟩ := List.mem_map.mp listed
  refine ⟨fileType, millis * 1000000, ?_, snake, ?_⟩
  · rw [fileKey_mul_million, keyIs]
  · rw [timestampMillis_mul_million]
    exact window millis inStore

/-- S3 lists a word's files in the order of their times. -/
theorem listObjectsV2_keys {bucket : Bucket} {fileType : String} {store : List ℤ}
    (stored : StoredAs bucket fileType store) (snake : SnakeWord fileType)
    (ordered : store.Pairwise (· < ·)) (window : ∀ millis ∈ store, ThirteenDigits millis) :
    (listObjectsV2 bucket fileType none).map Object.key = store.map (keyOfMillis fileType) := by
  have keysOrdered : (store.map (keyOfMillis fileType)).Pairwise
      (fun key key' => key.toList < key'.toList) :=
    List.pairwise_map.mpr (List.Pairwise.imp_of_mem (fun inStore inStore' lt =>
      keyOfMillis_lt_keyOfMillis snake (window _ inStore) (window _ inStore') lt) ordered)
  have unique : ((store.map (keyOfMillis fileType)).map String.toList).Nodup :=
    List.pairwise_map.mpr (keysOrdered.imp ne_of_lt)
  have listed : (listObjectsV2 bucket fileType none).map Object.key ~
      store.map (keyOfMillis fileType) := by
    refine ((byKey_perm _ _).map Object.key).trans ?_
    simpa [StoredAs] using stored
  have listingOrdered : ((listObjectsV2 bucket fileType none).map Object.key).Pairwise
      (fun key key' => key.toList ≤ key'.toList) :=
    List.pairwise_map.mpr (by simpa [listObjectsV2] using pairwise_byKey (fun obj : Object => obj.key.toList) _)
  exact eq_of_perm_of_sorted unique listed (List.Perm.refl _) listingOrdered
    (keysOrdered.imp le_of_lt)

/-- The two filters of `list` on files of whole milliseconds are the poller's `listAll` of
the milliseconds of the bounds. -/
theorem keepWindow_millis {infos : List FileInfo} (whole : ∀ info ∈ infos,
      info.timestamp = timestampMillis info.timestamp * 1000000) (after before : ℤ) :
    (keepWindow (some after) (some before) infos).map (fun info => timestampMillis info.timestamp) =
      listAll (infos.map fun info => timestampMillis info.timestamp) (timestampMillis after)
        (timestampMillis before) := by
  rw [keepWindow, List.filter_filter, listAll, List.filter_map]
  congr 1
  refine List.filter_congr fun info member => ?_
  simp only [Option.all_some, Function.comp_apply]
  have stamp := whole info member
  generalize timestampMillis info.timestamp = millis at stamp ⊢
  -- a time of whole milliseconds is after a bound exactly when its milliseconds are
  have afterIff : timestampMillis after < millis ↔ after < millis * 1000000 :=
    Int.ediv_lt_iff_lt_mul (by norm_num)
  have beforeIff : millis ≤ timestampMillis before ↔ millis * 1000000 ≤ before :=
    Int.le_ediv_iff_mul_le (by norm_num)
  rw [stamp, Bool.and_comm, ← Bool.decide_and]
  exact decide_eq_decide.mpr (and_congr afterIff.symm beforeIff.symm)

theorem parsedInfo_of_keyOfMillis {obj : Object} {word : String} (snake : SnakeWord word)
    {millis : ℤ} (window : ThirteenDigits millis) (keyIs : obj.key = keyOfMillis word millis) :
    parsedInfo obj = ⟨obj.key, word, millis * 1000000, obj.size⟩ := by
  rw [← timestampMillis_mul_million millis] at window
  rw [← fileKey_mul_million] at keyIs
  rw [parsedInfo, tryFromObject_of_fileKey keyIs snake window, timestampMillis_mul_million]

/-- Each listed object of a word stored as times is the key of one of them, and parses to it. -/
theorem listObjectsV2_parsed {bucket : Bucket} {fileType : String} {store : List ℤ}
    (stored : StoredAs bucket fileType store) (snake : SnakeWord fileType)
    (ordered : store.Pairwise (· < ·)) (window : ∀ millis ∈ store, ThirteenDigits millis) :
    ∀ obj ∈ listObjectsV2 bucket fileType none, ∃ millis ∈ store,
      obj.key = keyOfMillis fileType millis ∧
        parsedInfo obj = ⟨obj.key, fileType, millis * 1000000, obj.size⟩ := by
  intro obj member
  have listed : obj.key ∈ store.map (keyOfMillis fileType) :=
    listObjectsV2_keys stored snake ordered window ▸ List.mem_map_of_mem member
  obtain ⟨millis, inStore, keyIs⟩ := List.mem_map.mp listed
  exact ⟨millis, inStore, keyIs.symm,
    parsedInfo_of_keyOfMillis snake (window millis inStore) keyIs.symm⟩

/-- The times of the parsed listing of a word stored as times are those times, in order. -/
theorem listObjectsV2_times {bucket : Bucket} {fileType : String} {store : List ℤ}
    (stored : StoredAs bucket fileType store) (snake : SnakeWord fileType)
    (ordered : store.Pairwise (· < ·)) (window : ∀ millis ∈ store, ThirteenDigits millis) :
    ((listObjectsV2 bucket fileType none).map parsedInfo).map
      (fun info => timestampMillis info.timestamp) = store := by
  have parsed := listObjectsV2_parsed stored snake ordered window
  -- the time of a listed file is read off its key alone
  let millisOf : String → ℤ := fun key => timestampMillis (parsedInfo ⟨key, 0⟩).timestamp
  have ofKey : ∀ millis ∈ store, millisOf (keyOfMillis fileType millis) = millis := by
    intro millis inStore
    have infoIs := @parsedInfo_of_keyOfMillis ⟨keyOfMillis fileType millis, 0⟩ fileType snake
      millis (window millis inStore) rfl
    simp only [millisOf, infoIs, timestampMillis_mul_million]
  calc ((listObjectsV2 bucket fileType none).map parsedInfo).map
        (fun info => timestampMillis info.timestamp)
      = ((listObjectsV2 bucket fileType none).map Object.key).map millisOf := by
        rw [List.map_map, List.map_map]
        refine List.map_congr_left fun obj member => ?_
        obtain ⟨millis, inStore, keyIs, infoIs⟩ := parsed obj member
        simp only [Function.comp_apply, infoIs, keyIs, ofKey millis inStore,
          timestampMillis_mul_million]
    _ = store.map id := by
        rw [listObjectsV2_keys stored snake ordered window, List.map_map]
        exact List.map_congr_left ofKey
    _ = store := List.map_id store

/-- The poller's model of `list_all` is what it returns: on a bucket where a word's files are
those of some times in order, all with thirteen digits of milliseconds, as has `after`, the
listing between `after` and `before` has the times `listAll` keeps between their
milliseconds, in the same order. -/
theorem list_refines_listAll (bucket : Bucket) {fileType : String} (snake : SnakeWord fileType)
    {store : List ℤ} (stored : StoredAs bucket fileType store) (ordered : store.Pairwise (· < ·))
    (window : ∀ millis ∈ store, ThirteenDigits millis) {after : ℤ}
    (afterWindow : ThirteenDigits (timestampMillis after)) (before : ℤ) :
    (list bucket fileType (some after) (some before)).map
        (List.map fun info => timestampMillis info.timestamp) =
      some (listAll store (timestampMillis after) (timestampMillis before)) := by
  have written := stored.prefixWritten snake window
  have whole : ∀ info ∈ (listObjectsV2 bucket fileType none).map parsedInfo,
      info.timestamp = timestampMillis info.timestamp * 1000000 := by
    intro info member
    obtain ⟨obj, listed, rfl⟩ := List.mem_map.mp member
    obtain ⟨millis, -, -, infoIs⟩ := listObjectsV2_parsed stored snake ordered window obj listed
    rw [infoIs, timestampMillis_mul_million]
  rw [list_some_eq bucket snake written afterWindow, listWithoutStartAfter,
    parseListing_of_parses (parses_of_prefixWritten written), Option.map_some, Option.map_some,
    keepWindow_millis whole, listObjectsV2_times stored snake ordered window]

theorem list_refines_listAll_on_price_reports :
    let bucket : Bucket := ⟨[⟨"price_report.1700000060000.gz", 20⟩, ⟨"entropy.1700000000000.gz", 5⟩,
      ⟨"price_report.1700000000000.gz", 10⟩], by decide⟩
    SnakeWord "price_report" ∧ StoredAs bucket "price_report" [1700000000000, 1700000060000] ∧
      [(1700000000000 : ℤ), 1700000060000].Pairwise (· < ·) ∧
      (∀ millis ∈ [(1700000000000 : ℤ), 1700000060000], ThirteenDigits millis) ∧
      ThirteenDigits (timestampMillis 1690000000000123456) ∧
      (list bucket "price_report" (some 1690000000000123456) (some 1700000030000654321)).map
          (List.map fun info => timestampMillis info.timestamp) =
        some (listAll [1700000000000, 1700000060000] (timestampMillis 1690000000000123456)
          (timestampMillis 1700000030000654321)) := by
  intro bucket
  have snake : SnakeWord "price_report" := by decide +kernel
  have stored : StoredAs bucket "price_report" [1700000000000, 1700000060000] := by
    decide +kernel
  have ordered : [(1700000000000 : ℤ), 1700000060000].Pairwise (· < ·) := by decide
  have window : ∀ millis ∈ [(1700000000000 : ℤ), 1700000060000], ThirteenDigits millis := by
    decide
  have afterWindow : ThirteenDigits (timestampMillis 1690000000000123456) := by
    norm_num [ThirteenDigits, timestampMillis]
  exact ⟨snake, stored, ordered, window, afterWindow,
    list_refines_listAll bucket snake stored ordered window afterWindow 1700000030000654321⟩

end HeliumOracles.FileStore
