import Mathlib.Data.List.Sort
import HeliumOracles.Lib.Tally
import HeliumOracles.FileStore.FileInfoPoller

/-!
# Files recorded at most once, in an orderly environment

`file_recorded_twice` shows that deduplication fails when more than 100 files fall
in one offset window. This module names the environment under which it holds
(`orderly`) and proves, over every run of a poller with a `StartAfter` lookback,
the invariant `Deduplicated`, whose first field says that no file is recorded twice.

The argument: a row that `clean` deletes has 100 newer rows, so under the density
bound one of them lies an offset later (`far_row_of_cleaned`); the latest timestamp
is never below a recorded file, so the listing window, which starts an offset
before it, never reaches a deleted row's file again. Files arrive in timestamp
order and every file up to the latest timestamp is recorded or on its way
(`LatestCovers`), so what a listing queues is newer than everything recorded and
the latest timestamp never moves back.
-/
namespace HeliumOracles.FileStore

open Lib.Transition Lib.Tally

/-- The runs the guarantee is about: files reach the bucket after the `StartAfter`
time and in increasing timestamp order, fewer than 100 of them in the offset
before each new one; a key stays cached while its stream waits in the channel; and
the cleanup tick never wins while a popped file waits for a permit. -/
def orderly (config : FileInfoPollerConfig) (start : Int) (s : State) : Action → Bool
  | .arrive file => start < file && s.store.all (· < file) &&
      s.store.countP (fun other => file - config.offset < other) < 100
  | .expire key => !s.channel.contains key
  | .cleanWhileWaiting => false
  | _ => true

/-- The files between the bucket and the table: the channel, then the queue. -/
def State.pipeline (s : State) : List Int := s.channel ++ s.server.fileQueue

/-- Every file up to the latest timestamp is recorded or on its way. -/
def LatestCovers (s : State) : Prop :=
  match s.server.latestFileTimestamp with
  | none => s.recorded = [] ∧ s.pipeline = []
  | some latest =>
    latest ∈ s.store ∧ (∀ done ∈ s.recorded, done ≤ latest) ∧
      (∀ file ∈ s.pipeline, file ≤ latest) ∧
      ∀ file ∈ s.store, file ≤ latest → file ∈ s.recorded ∨ file ∈ s.pipeline

/-- The invariant of orderly runs. -/
structure Deduplicated (config : FileInfoPollerConfig) (start : Int) (s : State) : Prop where
  recordedUnique : s.recorded.Nodup
  rowsUnique : s.filesProcessed.Nodup
  rowsRecorded : ∀ row ∈ s.filesProcessed, row ∈ s.recorded
  recordedStored : ∀ file ∈ s.recorded, file ∈ s.store
  storeSorted : s.store.Pairwise (· < ·)
  storeAfterStart : ∀ file ∈ s.store, start < file
  sparse : ∀ file ∈ s.store,
    s.store.countP (fun other => file ≤ other ∧ other < file + config.offset) ≤ 100
  deletedOld : ∀ file ∈ s.recorded, file ∉ s.filesProcessed →
    ∃ row ∈ s.filesProcessed, file + config.offset ≤ row
  pipelineStored : ∀ file ∈ s.pipeline, file ∈ s.store
  pipelineNew : ∀ file ∈ s.pipeline, ∀ done ∈ s.recorded, done < file
  pipelineSorted : s.pipeline.Pairwise (· < ·)
  channelCached : ∀ file ∈ s.channel, file ∈ s.server.cache
  cacheKnown : ∀ key ∈ s.server.cache, key ∈ s.recorded ∨ key ∈ s.channel
  covers : LatestCovers s

/-! ### The table and the bucket -/

/-- The newest row survives `clean`. -/
theorem max_mem_pgClean {rows : List Int} {newest : Int} (found : rows.max? = some newest) :
    newest ∈ pgClean rows := by
  obtain ⟨member, bound⟩ := List.max?_eq_some_iff.mp found
  have none_newer : rows.countP (newest < ·) = 0 := by
    rw [List.countP_eq_zero]
    intro row belongs
    simpa using bound row belongs
  simp [pgClean, member, none_newer]

/-- Under the density bound, a row that `clean` deletes has a row at least an
offset newer: its 100 newer rows cannot all fit in the offset after it. -/
theorem far_row_of_cleaned {store rows : List Int} {offset row : Int}
    (unique : rows.Nodup) (stored : ∀ other ∈ rows, other ∈ store)
    (sparse : store.countP (fun other => row ≤ other ∧ other < row + offset) ≤ 100)
    (member : row ∈ rows) (deleted : row ∉ pgClean rows) :
    ∃ other ∈ rows, row + offset ≤ other := by
  have many : 100 ≤ rows.countP (row < ·) := by
    by_contra few
    exact deleted (List.mem_filter.mpr ⟨member, by simpa using few⟩)
  -- the row and its newer rows, all distinct and all in the bucket
  have pickedUnique : (row :: rows.filter (row < ·)).Nodup := by
    refine List.nodup_cons.mpr ⟨?_, unique.filter _⟩
    simp
  have drawn : ∀ other ∈ row :: rows.filter (row < ·), other ∈ store := by
    intro other belongs
    rcases List.mem_cons.mp belongs with rfl | later
    · exact stored other member
    · exact stored other (List.mem_filter.mp later).1
  have longer : store.countP (fun other => row ≤ other ∧ other < row + offset) <
      (row :: rows.filter (row < ·)).length := by
    rw [List.length_cons, ← List.countP_eq_length_filter]
    omega
  obtain ⟨other, belongs, outside⟩ := exists_not_of_countP_lt pickedUnique drawn longer
  rcases List.mem_cons.mp belongs with rfl | later
  · refine ⟨other, member, ?_⟩
    simp only [decide_eq_false_iff_not, not_and, not_lt] at outside
    exact outside (le_refl other)
  · obtain ⟨inRows, newer⟩ := List.mem_filter.mp later
    refine ⟨other, inRows, ?_⟩
    simp only [decide_eq_true_eq] at newer
    simp only [decide_eq_false_iff_not, not_and, not_lt] at outside
    exact outside newer.le

/-- A file above every file of the bucket is inserted at its end. -/
private theorem orderedInsert_greatest {file : Int} :
    ∀ {store : List Int}, (∀ other ∈ store, other < file) →
      store.orderedInsert (· ≤ ·) file = store ++ [file]
  | [], _ => rfl
  | head :: tail, above => by
    have later : ¬ file ≤ head := not_le.mpr (above head List.mem_cons_self)
    rw [List.orderedInsert_cons, if_neg later,
      orderedInsert_greatest fun other belongs => above other (List.mem_cons_of_mem _ belongs)]
    rfl

/-- The last file of a sorted listing is its newest. -/
private theorem le_of_getLast? {files : List Int} {last : Int}
    (sorted : files.Pairwise (· < ·)) (found : files.getLast? = some last) :
    ∀ file ∈ files, file ≤ last := by
  obtain ⟨front, rfl⟩ := List.getLast?_eq_some_iff.mp found
  intro file belongs
  rcases List.mem_append.mp belongs with inFront | isLast
  · exact (List.pairwise_append.mp sorted).2.2 file inFront last List.mem_cons_self |>.le
  · simp only [List.mem_singleton] at isLast
    exact isLast.le

/-- `LatestCovers` reads the latest timestamp, the bucket, the records and the
pipeline only. -/
theorem LatestCovers.congr {s t : State} (covers : LatestCovers s)
    (latestEq : t.server.latestFileTimestamp = s.server.latestFileTimestamp)
    (storeEq : t.store = s.store) (recordedEq : t.recorded = s.recorded)
    (pipelineEq : t.pipeline = s.pipeline) : LatestCovers t := by
  unfold LatestCovers
  rw [latestEq, storeEq, recordedEq, pipelineEq]
  exact covers

section Invariant

variable {config : FileInfoPollerConfig} {start : Int}

/-! ### One lemma per step -/

theorem deduplicated_initial : Deduplicated config start State.initial := by
  refine ⟨List.nodup_nil, List.nodup_nil, ?_, ?_, List.Pairwise.nil, ?_, ?_, ?_, ?_, ?_,
    List.Pairwise.nil, ?_, ?_, ⟨rfl, rfl⟩⟩ <;> simp [State.initial, State.pipeline]

theorem arrive_deduplicated {s : State} {file : Int} (before : Deduplicated config start s)
    (allowed : orderly config start s (.arrive file) = true) :
    Deduplicated config start { s with store := s.store.orderedInsert (· ≤ ·) file } := by
  simp only [orderly, Bool.and_eq_true, decide_eq_true_eq, List.all_eq_true] at allowed
  obtain ⟨⟨afterStart, above⟩, room⟩ := allowed
  have appended := orderedInsert_greatest above
  -- the new file is newer than every file, the latest timestamp included
  have kept : ∀ other ∈ s.store, other ∈ s.store ++ [file] := fun other belongs =>
    List.mem_append_left _ belongs
  refine { before with
    recordedStored := fun done recorded => ?_
    storeSorted := ?_
    storeAfterStart := ?_
    sparse := ?_
    pipelineStored := fun queued inPipeline => ?_
    covers := ?_ } <;> simp only [appended]
  · exact kept done (before.recordedStored done recorded)
  · refine List.pairwise_append.mpr ⟨before.storeSorted, List.pairwise_singleton _ _, ?_⟩
    intro other belongs last isLast
    rw [List.mem_singleton] at isLast
    exact isLast ▸ above other belongs
  · intro other belongs
    rcases List.mem_append.mp belongs with old | isNew
    · exact before.storeAfterStart other old
    · rw [List.mem_singleton] at isNew
      exact isNew ▸ afterStart
  · intro other belongs
    rw [List.countP_append]
    rcases List.mem_append.mp belongs with old | isNew
    · have bound := before.sparse other old
      by_cases near : file < other + config.offset
      · -- the old file's window now holds the new file, and it lies in the offset
        -- before the new file, which held fewer than 100 files
        have window : s.store.countP (fun later => other ≤ later ∧ later < other + config.offset) ≤
            s.store.countP (fun later => file - config.offset < later) := by
          apply List.countP_mono_left
          intro later _ inside
          simp only [decide_eq_true_eq] at inside ⊢
          omega
        have oneMore : [file].countP (fun later => other ≤ later ∧ later < other + config.offset) ≤ 1 := by
          simp only [List.countP_singleton]
          split <;> omega
        omega
      · have outside : [file].countP (fun later => other ≤ later ∧ later < other + config.offset) = 0 := by
          simp [near]
        omega
    · rw [List.mem_singleton] at isNew
      subst isNew
      have none_newer : s.store.countP (fun later => other ≤ later ∧ later < other + config.offset) = 0 := by
        rw [List.countP_eq_zero]
        intro later belongs
        have older := above later belongs
        simp only [decide_eq_true_eq, not_and, not_lt]
        omega
      have oneMore : [other].countP (fun later => other ≤ later ∧ later < other + config.offset) ≤ 1 := by
        simp only [List.countP_singleton]
        split <;> omega
      omega
  · exact kept queued (before.pipelineStored queued inPipeline)
  · have old := before.covers
    cases latestIs : s.server.latestFileTimestamp with
    | none => simpa only [LatestCovers, latestIs, State.pipeline] using old
    | some latest =>
      simp only [LatestCovers, latestIs] at old ⊢
      obtain ⟨inStore, doneBelow, pipelineBelow, holes⟩ := old
      refine ⟨kept latest inStore, doneBelow, pipelineBelow, ?_⟩
      intro other belongs below
      rcases List.mem_append.mp belongs with stored | isNew
      · exact holes other stored below
      · rw [List.mem_singleton] at isNew
        have newer := above latest inStore
        omega

/-- With a `StartAfter` lookback the listing starts an offset before the latest
timestamp, or after the start time while there is none. -/
theorem after_startAfter (lookback : config.lookback = .startAfter start) (latest : Option Int)
    (now : Int) : after config latest now = (latest.map (· - config.offset)).getD start := by
  simp [after, lookback]

/-- What a listing with an empty queue finds unprocessed is newer than every
recorded file and every stream in the channel: below the latest timestamp every
file is recorded or in the channel, a recorded file without a row lies an offset
below a row and so before the window, and the rest are cached or have rows. -/
theorem listed_newer {s : State} (lookback : config.lookback = .startAfter start)
    (before : Deduplicated config start s) (empty : s.server.fileQueue = []) {now file : Int}
    (listed : file ∈ listAll s.store (after config s.server.latestFileTimestamp now) now)
    (fresh : s.isAlreadyProcessed file = false) :
    ∀ earlier ∈ s.recorded ++ s.channel, earlier < file := by
  simp only [listAll, List.mem_filter, decide_eq_true_eq] at listed
  obtain ⟨stored, afterStart, -⟩ := listed
  simp only [State.isAlreadyProcessed, pgExists, Bool.or_eq_false_iff] at fresh
  have notCached : file ∉ s.server.cache := by simpa using fresh.1
  have noRow : file ∉ s.filesProcessed := by simpa using fresh.2
  have covers := before.covers
  rw [after_startAfter lookback] at afterStart
  cases latestIs : s.server.latestFileTimestamp with
  | none =>
    simp only [LatestCovers, latestIs, State.pipeline, List.append_eq_nil_iff] at covers
    simp [covers.1, covers.2.1]
  | some latest =>
    simp only [LatestCovers, latestIs] at covers
    simp only [latestIs, Option.map_some, Option.getD_some] at afterStart
    obtain ⟨-, doneBelow, pipelineBelow, holes⟩ := covers
    have newer : latest < file := by
      by_contra notNewer
      rcases holes file stored (not_lt.mp notNewer) with recorded | inPipeline
      · -- recorded and without a row: `clean` deleted it, an offset below a row
        obtain ⟨row, isRow, far⟩ := before.deletedOld file recorded noRow
        have rowBelow := doneBelow row (before.rowsRecorded row isRow)
        omega
      · have inChannel : file ∈ s.channel := by simpa [State.pipeline, empty] using inPipeline
        exact notCached (before.channelCached file inChannel)
    intro earlier belongs
    rcases List.mem_append.mp belongs with recorded | sent
    · have below := doneBelow earlier recorded
      omega
    · have below := pipelineBelow earlier (by simp [State.pipeline, sent])
      omega

theorem listFiles_deduplicated {s : State} {now : Int} (offsetNonneg : 0 ≤ config.offset)
    (lookback : config.lookback = .startAfter start) (before : Deduplicated config start s)
    (empty : s.server.fileQueue = []) :
    Deduplicated config start { s with
      server := s.queueFiles (listAll s.store (after config s.server.latestFileTimestamp now) now)
        s.server } := by
  rw [queueFiles_eq, empty, List.nil_append]
  set listed := listAll s.store (after config s.server.latestFileTimestamp now) now with listedIs
  set queued := listed.filter (fun file => !s.isAlreadyProcessed file) with queuedIs
  have queuedListed : ∀ file ∈ queued, file ∈ listed ∧ s.isAlreadyProcessed file = false := by
    intro file belongs
    simpa [queuedIs] using List.mem_filter.mp belongs
  have queuedNewer : ∀ file ∈ queued, ∀ earlier ∈ s.recorded ++ s.channel, earlier < file :=
    fun file belongs =>
      listed_newer lookback before empty (queuedListed file belongs).1 (queuedListed file belongs).2
  have queuedStored : ∀ file ∈ queued, file ∈ s.store := fun file belongs =>
    (List.mem_filter.mp (queuedListed file belongs).1).1
  have queuedSorted : queued.Pairwise (· < ·) := (before.storeSorted.filter _).filter _
  have channelSorted : s.channel.Pairwise (· < ·) := by
    have sorted := before.pipelineSorted
    simp only [State.pipeline, empty, List.append_nil] at sorted
    exact sorted
  refine { before with
    pipelineStored := ?_
    pipelineNew := ?_
    pipelineSorted := ?_
    covers := ?_ }
  · simp only [State.pipeline]
    intro file belongs
    rcases List.mem_append.mp belongs with sent | isQueued
    · exact before.pipelineStored file (by simp [State.pipeline, sent])
    · exact queuedStored file isQueued
  · simp only [State.pipeline]
    intro file belongs done recorded
    rcases List.mem_append.mp belongs with sent | isQueued
    · exact before.pipelineNew file (by simp [State.pipeline, sent]) done recorded
    · exact queuedNewer file isQueued done (List.mem_append_left _ recorded)
  · simp only [State.pipeline]
    refine List.pairwise_append.mpr ⟨channelSorted, queuedSorted, ?_⟩
    intro earlier sent file isQueued
    exact queuedNewer file isQueued earlier (List.mem_append_right _ sent)
  · cases lastIs : queued.getLast? with
    | none =>
      -- nothing new: the latest timestamp and the pipeline stay
      have nothing : queued = [] := List.getLast?_eq_none_iff.mp lastIs
      refine before.covers.congr ?_ rfl rfl ?_
      · simp
      · simp [State.pipeline, nothing, empty]
    | some newest =>
      have newestQueued : newest ∈ queued := List.mem_of_getLast? lastIs
      have newestNewer := queuedNewer newest newestQueued
      simp only [LatestCovers, Option.some_or, State.pipeline]
      refine ⟨queuedStored newest newestQueued, ?_, ?_, ?_⟩
      · intro done recorded
        exact (newestNewer done (List.mem_append_left _ recorded)).le
      · intro file belongs
        rcases List.mem_append.mp belongs with sent | isQueued
        · exact (newestNewer file (List.mem_append_right _ sent)).le
        · exact le_of_getLast? queuedSorted lastIs file isQueued
      · intro file stored below
        have covers := before.covers
        have upToNow : newest ≤ now := by
          have inListing := (queuedListed newest newestQueued).1
          simp only [listedIs, listAll, List.mem_filter, decide_eq_true_eq] at inListing
          exact inListing.2.2
        -- a file the old latest timestamp covers is recorded or in the channel;
        -- any other file up to the newest queued one is in the listing
        by_cases old : ∃ latest, s.server.latestFileTimestamp = some latest ∧ file ≤ latest
        · obtain ⟨latest, latestIs, within⟩ := old
          simp only [LatestCovers, latestIs] at covers
          rcases covers.2.2.2 file stored within with recorded | inPipeline
          · exact .inl recorded
          · have sent : file ∈ s.channel := by simpa [State.pipeline, empty] using inPipeline
            exact .inr (List.mem_append_left _ sent)
        · have windowStart : after config s.server.latestFileTimestamp now < file := by
            rw [after_startAfter lookback]
            cases latestIs : s.server.latestFileTimestamp with
            | none => exact before.storeAfterStart file stored
            | some latest =>
              have newer : latest < file := by
                by_contra notNewer
                exact old ⟨latest, latestIs, not_lt.mp notNewer⟩
              simp only [Option.map_some, Option.getD_some]
              omega
          have inListing : file ∈ listed := by
            simp only [listedIs, listAll, List.mem_filter, decide_eq_true_eq]
            exact ⟨stored, windowStart, le_trans below upToNow⟩
          cases processed : s.isAlreadyProcessed file with
          | true =>
            simp only [State.isAlreadyProcessed, pgExists, Bool.or_eq_true, List.contains_iff_mem]
              at processed
            rcases processed with cached | hasRow
            · rcases before.cacheKnown file cached with recorded | sent
              · exact .inl recorded
              · exact .inr (List.mem_append_left _ sent)
            · exact .inl (before.rowsRecorded file hasRow)
          | false =>
            exact .inr (List.mem_append_right _ (List.mem_filter.mpr ⟨inListing, by simp [processed]⟩))

theorem sendNext_deduplicated {s : State} {file : Int} {rest : List Int}
    (before : Deduplicated config start s) (queued : s.server.fileQueue = file :: rest) :
    Deduplicated config start { s with
      server := { s.server with fileQueue := rest, cache := file :: s.server.cache }
      channel := s.channel ++ [file] } := by
  -- the file moves from the queue to the channel: the pipeline is the same list
  have samePipeline : (s.channel ++ [file]) ++ rest = s.pipeline := by
    simp [State.pipeline, queued]
  refine { before with
    pipelineStored := ?_
    pipelineNew := ?_
    pipelineSorted := ?_
    channelCached := ?_
    cacheKnown := ?_
    covers := before.covers.congr rfl rfl rfl samePipeline }
  · simpa only [State.pipeline, samePipeline] using before.pipelineStored
  · simpa only [State.pipeline, samePipeline] using before.pipelineNew
  · simpa only [State.pipeline, samePipeline] using before.pipelineSorted
  · intro sent belongs
    rcases List.mem_append.mp belongs with old | isNew
    · exact List.mem_cons_of_mem _ (before.channelCached sent old)
    · rw [List.mem_singleton] at isNew
      exact isNew ▸ List.mem_cons_self
  · intro key cached
    rcases List.mem_cons.mp cached with isNew | old
    · exact .inr (isNew ▸ List.mem_append_right _ List.mem_cons_self)
    · rcases before.cacheKnown key old with recorded | sent
      · exact .inl recorded
      · exact .inr (List.mem_append_left _ sent)

theorem record_deduplicated {s : State} {file : Int} {rest : List Int}
    (before : Deduplicated config start s) (sent : s.channel = file :: rest)
    (noRow : file ∉ s.filesProcessed) :
    Deduplicated config start { s with
      filesProcessed := s.filesProcessed ++ [file], channel := rest,
      recorded := s.recorded ++ [file] } := by
  have pipelineIs : s.pipeline = file :: (rest ++ s.server.fileQueue) := by
    simp [State.pipeline, sent]
  have inPipeline : file ∈ s.pipeline := by
    rw [pipelineIs]
    exact List.mem_cons_self
  -- the oldest stream of the channel is newer than everything recorded, and older
  -- than everything behind it
  have newest : ∀ done ∈ s.recorded, done < file := before.pipelineNew file inPipeline
  have behind : ∀ later ∈ rest ++ s.server.fileQueue, file < later := by
    have sorted := before.pipelineSorted
    rw [pipelineIs] at sorted
    exact (List.pairwise_cons.mp sorted).1
  have laterPipeline : ∀ later ∈ rest ++ s.server.fileQueue, later ∈ s.pipeline := by
    intro later belongs
    rw [pipelineIs]
    exact List.mem_cons_of_mem _ belongs
  have grown : ∀ done ∈ s.recorded ++ [file], done ∈ s.recorded ∨ done = file := by
    intro done belongs
    simpa using belongs
  refine ⟨?_, ?_, ?_, ?_, before.storeSorted, before.storeAfterStart, before.sparse, ?_, ?_, ?_, ?_,
    ?_, ?_, ?_⟩
  · refine List.nodup_append.mpr ⟨before.recordedUnique, List.nodup_singleton _, ?_⟩
    intro done recorded other isFile
    rw [List.mem_singleton] at isFile
    exact isFile ▸ (newest done recorded).ne
  · refine List.nodup_append.mpr ⟨before.rowsUnique, List.nodup_singleton _, ?_⟩
    intro row isRow other isFile same
    rw [List.mem_singleton] at isFile
    exact noRow (isFile ▸ same ▸ isRow)
  · intro row isRow
    rcases List.mem_append.mp isRow with old | isNew
    · exact List.mem_append_left _ (before.rowsRecorded row old)
    · exact List.mem_append_right _ isNew
  · intro done recorded
    rcases grown done recorded with old | rfl
    · exact before.recordedStored done old
    · exact before.pipelineStored done inPipeline
  · intro done recorded noLongerRow
    rcases grown done recorded with old | rfl
    · have oldNoRow : done ∉ s.filesProcessed := fun isRow =>
        noLongerRow (List.mem_append_left _ isRow)
      obtain ⟨row, isRow, far⟩ := before.deletedOld done old oldNoRow
      exact ⟨row, List.mem_append_left _ isRow, far⟩
    · exact absurd (List.mem_append_right _ List.mem_cons_self) noLongerRow
  · intro later belongs
    exact before.pipelineStored later (laterPipeline later belongs)
  · intro later belongs done recorded
    rcases grown done recorded with old | rfl
    · exact before.pipelineNew later (laterPipeline later belongs) done old
    · exact behind later belongs
  · have sorted := before.pipelineSorted
    rw [pipelineIs] at sorted
    exact (List.pairwise_cons.mp sorted).2
  · intro other belongs
    exact before.channelCached other (sent ▸ List.mem_cons_of_mem _ belongs)
  · intro key cached
    rcases before.cacheKnown key cached with recorded | inChannel
    · exact .inl (List.mem_append_left _ recorded)
    · rw [sent] at inChannel
      rcases List.mem_cons.mp inChannel with rfl | later
      · exact .inl (List.mem_append_right _ List.mem_cons_self)
      · exact .inr later
  · have covers := before.covers
    cases latestIs : s.server.latestFileTimestamp with
    | none =>
      simp only [LatestCovers, latestIs] at covers
      rw [pipelineIs] at covers
      exact absurd covers.2 (List.cons_ne_nil _ _)
    | some latest =>
      simp only [LatestCovers, latestIs] at covers ⊢
      obtain ⟨inStore, doneBelow, pipelineBelow, holes⟩ := covers
      refine ⟨inStore, ?_, ?_, ?_⟩
      · intro done recorded
        rcases grown done recorded with old | rfl
        · exact doneBelow done old
        · exact pipelineBelow done inPipeline
      · intro later belongs
        exact pipelineBelow later (laterPipeline later (by simpa [State.pipeline] using belongs))
      · intro other stored within
        rcases holes other stored within with recorded | inOld
        · exact .inl (List.mem_append_left _ recorded)
        · rw [pipelineIs] at inOld
          rcases List.mem_cons.mp inOld with rfl | later
          · exact .inl (List.mem_append_right _ List.mem_cons_self)
          · exact .inr (by simpa [State.pipeline] using later)

theorem expire_deduplicated {s : State} {key : Int} (before : Deduplicated config start s)
    (allowed : orderly config start s (.expire key) = true) :
    Deduplicated config start (s.expire key) := by
  have notSent : key ∉ s.channel := by simpa [orderly] using allowed
  refine { before with
    channelCached := ?_
    cacheKnown := ?_
    covers := before.covers.congr rfl rfl rfl rfl }
  · intro file sent
    have different : file ≠ key := fun same => notSent (same ▸ sent)
    simpa [State.expire, different] using before.channelCached file sent
  · intro other cached
    simp only [State.expire, List.mem_filter] at cached
    exact before.cacheKnown other cached.1

theorem clean_deduplicated {s : State} (before : Deduplicated config start s) :
    Deduplicated config start s.clean := by
  have kept : ∀ row ∈ pgClean s.filesProcessed, row ∈ s.filesProcessed := fun row belongs =>
    (List.mem_filter.mp belongs).1
  refine { before with
    rowsUnique := before.rowsUnique.filter _
    rowsRecorded := fun row belongs => before.rowsRecorded row (kept row belongs)
    deletedOld := ?_
    covers := before.covers.congr rfl rfl rfl rfl }
  intro done recorded noRow
  -- first a row an offset newer before the clean, then the newest row, which stays
  have farRow : ∃ row ∈ s.filesProcessed, done + config.offset ≤ row := by
    by_cases hadRow : done ∈ s.filesProcessed
    · exact far_row_of_cleaned before.rowsUnique
        (fun row isRow => before.recordedStored row (before.rowsRecorded row isRow))
        (before.sparse done (before.recordedStored done recorded)) hadRow noRow
    · exact before.deletedOld done recorded hadRow
  obtain ⟨row, isRow, far⟩ := farRow
  cases found : s.filesProcessed.max? with
  | none => simp [List.max?_eq_none_iff.mp found] at isRow
  | some newest =>
    have atMost := (List.max?_eq_some_iff.mp found).2 row isRow
    exact ⟨newest, max_mem_pgClean found, le_trans far atMost⟩

theorem restart_deduplicated {s : State} (offsetNonneg : 0 ≤ config.offset)
    (before : Deduplicated config start s) :
    Deduplicated config start s.restart := by
  have emptyPipeline : s.restart.pipeline = [] := rfl
  refine { before with
    pipelineStored := by simp [emptyPipeline]
    pipelineNew := by simp [emptyPipeline]
    pipelineSorted := by simp [emptyPipeline]
    channelCached := by simp [State.restart]
    cacheKnown := by simp [State.restart]
    covers := ?_ }
  -- every recorded file is a row or an offset below one, so the newest row bounds them
  have recordedBelow : ∀ newest, s.filesProcessed.max? = some newest →
      ∀ done ∈ s.recorded, done ≤ newest := by
    intro newest found done recorded
    have bound := (List.max?_eq_some_iff.mp found).2
    by_cases isRow : done ∈ s.filesProcessed
    · exact bound done isRow
    · obtain ⟨row, rowIsRow, far⟩ := before.deletedOld done recorded isRow
      have atMost := bound row rowIsRow
      omega
  simp only [LatestCovers, State.restart, pgLatestTimestamp]
  cases found : s.filesProcessed.max? with
  | none =>
    have noRows := List.max?_eq_none_iff.mp found
    refine ⟨List.eq_nil_iff_forall_not_mem.mpr fun done recorded => ?_, by simp [State.pipeline]⟩
    by_cases isRow : done ∈ s.filesProcessed
    · simp [noRows] at isRow
    · obtain ⟨row, rowIsRow, -⟩ := before.deletedOld done recorded isRow
      simp [noRows] at rowIsRow
  | some newest =>
    have newestRow := (List.max?_eq_some_iff.mp found).1
    have newestRecorded := before.rowsRecorded newest newestRow
    refine ⟨before.recordedStored newest newestRecorded, recordedBelow newest found, by simp [State.pipeline], ?_⟩
    intro file stored within
    -- the old latest timestamp is at least the newest row, and what it covered in the
    -- pipeline is newer than every record
    have covers := before.covers
    cases latestIs : s.server.latestFileTimestamp with
    | none =>
      simp only [LatestCovers, latestIs] at covers
      simp [covers.1] at newestRecorded
    | some latest =>
      simp only [LatestCovers, latestIs] at covers
      obtain ⟨-, doneBelow, -, holes⟩ := covers
      have newestBelow := doneBelow newest newestRecorded
      rcases holes file stored (le_trans within newestBelow) with recorded | inPipeline
      · exact .inl recorded
      · have newer := before.pipelineNew file inPipeline newest newestRecorded
        omega

/-- One orderly step keeps the invariant. -/
theorem orderly_step_deduplicated {s s' : State} {action : Action}
    (offsetNonneg : 0 ≤ config.offset) (lookback : config.lookback = .startAfter start)
    (before : Deduplicated config start s)
    (moved : restrict (step config) (fun s action => orderly config start s action = true) s action =
      some s') :
    Deduplicated config start s' := by
  obtain ⟨allowed, moved⟩ := restrict_some moved
  cases action with
  | arrive file =>
    obtain ⟨-, rfl⟩ := step_arrive moved
    exact arrive_deduplicated before allowed
  | listFiles now =>
    obtain ⟨empty, rfl⟩ := step_listFiles moved
    exact listFiles_deduplicated offsetNonneg lookback before empty
  | sendNext =>
    obtain ⟨file, rest, queued, -, rfl⟩ := step_sendNext moved
    exact sendNext_deduplicated before queued
  | record =>
    obtain ⟨file, rest, sent, noRow, rfl⟩ := step_record moved
    exact record_deduplicated before sent noRow
  | expire key =>
    cases moved
    exact expire_deduplicated before allowed
  | clean =>
    cases moved
    exact clean_deduplicated before
  | cleanWhileWaiting => simp [orderly] at allowed
  | restart =>
    cases moved
    exact restart_deduplicated offsetNonneg before

theorem reach_deduplicated {s : State} (offsetNonneg : 0 ≤ config.offset)
    (lookback : config.lookback = .startAfter start)
    (reached : Reach (restrict (step config) fun s action => orderly config start s action = true)
      State.initial s) :
    Deduplicated config start s :=
  reached.invariant (Deduplicated config start) deduplicated_initial
    fun _ _ _ before moved => orderly_step_deduplicated offsetNonneg lookback before moved

end Invariant

/-- In every orderly run of a poller with a `StartAfter` lookback and a
nonnegative offset, no file is recorded twice. -/
theorem recorded_at_most_once {config : FileInfoPollerConfig} {start : Int}
    (lookback : config.lookback = .startAfter start) (offsetNonneg : 0 ≤ config.offset)
    {s : State}
    (reached : Reach (restrict (step config) fun s action => orderly config start s action = true)
      State.initial s) :
    s.recorded.Nodup :=
  (reach_deduplicated offsetNonneg lookback reached).recordedUnique

/-- Two files listed, sent and recorded, a clean, a restart and a second listing. -/
def orderlyActions : List Action :=
  [.arrive 1, .arrive 2, .listFiles 10, .sendNext, .record, .sendNext, .record, .clean, .restart,
    .listFiles 20]

theorem recorded_once_after_restart :
    ∃ s, Reach (restrict (step defaultConfig) fun s action => orderly defaultConfig 0 s action = true)
      State.initial s ∧ s.recorded = [1, 2] ∧ s.recorded.Nodup := by
  have found : ∃ s, Reach (restrict (step defaultConfig)
      fun s action => orderly defaultConfig 0 s action = true) State.initial s ∧
      s.recorded = [1, 2] := exists_reach_of_run orderlyActions (by decide)
  obtain ⟨s, reached, recordedIs⟩ := found
  exact ⟨s, reached, recordedIs, recorded_at_most_once rfl (by decide) reached⟩

end HeliumOracles.FileStore
