import Mathlib.Data.List.Sort
import HeliumOracles.Lib.Transition

/-!
# The file info poller

Model of `FileInfoPollerServer` of `file_store/src/file_info_poller.rs` with the
parts of the system it talks to: the bucket listing of `FileStore::list_all`
(`file_store.rs`), the Postgres `files_processed` table behind
`FileInfoPollerState`, the channel of `FileInfoStream`s to the consumer, whose
transaction runs the `record` insert of `FileInfoStream::into_stream`, and
restarts of the process.

A file is its timestamp in milliseconds. The sinks name a file
`<prefix>.<millis>.gz` (`FileInfo::from`), so within one prefix a key and its
timestamp determine each other, and the bucket lists keys in timestamp order.
One process name and one prefix are modelled: the table holds the rows of that
process and type, and `file_name` is its primary key
(`migrations/3_files_processed.sql`).

An error of the listing, of `exists`, of `parse_file`, of `clean` or of the
consumer ends the task or the daemon and the process starts again: that is the
`restart` action, and a step that would fail is not enabled. The cache's
`CACHE_TTL` is an `expire` action that may come at any time; `purge` only drops
expired entries. Which branch of `run`'s `select!` wins is the environment's
choice, so each branch is an action of its own.
-/
namespace HeliumOracles.FileStore

open Lib.Transition

/-- `LookbackBehavior`; times in milliseconds. -/
inductive LookbackBehavior where
  | startAfter (start : Int)
  | max (maxLookback : Int)
deriving DecidableEq, Repr

/-- The fields of `FileInfoPollerConfig` the poller reads, with the builder's
defaults: an offset of ten minutes and a channel of five streams. -/
structure FileInfoPollerConfig where
  lookback : LookbackBehavior
  offset : Int := 600000
  queueSize : Nat := 5
deriving DecidableEq, Repr

/-- `FileInfoPollerServer::after`: the listing starts after the latest timestamp
less the offset, bounded below by the lookback. -/
def after (config : FileInfoPollerConfig) (latest : Option Int) (now : Int) : Int :=
  let latestOffset := latest.map (· - config.offset)
  match config.lookback with
  | .startAfter start => latestOffset.getD start
  | .max maxLookback =>
    let maxTs := now - maxLookback
    (latestOffset.map (max · maxTs)).getD maxTs

/-- `FileStore::list_all`: the files after `after` and up to `before`, in key order. -/
def listAll (store : List Int) (after before : Int) : List Int :=
  store.filter fun timestamp => after < timestamp ∧ timestamp ≤ before

/-- `latest_timestamp`: `SELECT MAX(file_timestamp)` over the rows. -/
def pgLatestTimestamp (rows : List Int) : Option Int := rows.max?

/-- `exists`. -/
def pgExists (rows : List Int) (file : Int) : Bool := rows.contains file

/-- `clean`: `ORDER BY file_timestamp DESC OFFSET 100` selects the rows after the
100 newest, and they are deleted; a row stays when fewer than 100 rows are newer. -/
def pgClean (rows : List Int) : List Int :=
  rows.filter fun row => rows.countP (row < ·) < 100

/-- `record`, the `INSERT` of `FileInfoStream::into_stream`: the primary key on
`file_name` refuses a file that has a row. -/
def pgRecord (rows : List Int) (file : Int) : Option (List Int) :=
  if pgExists rows file then none else some (rows ++ [file])

/-- The fields of `FileInfoPollerServer` that change. -/
structure FileInfoPollerServer where
  fileQueue : List Int
  latestFileTimestamp : Option Int
  /-- The keys whose `CACHE_TTL` has not run out. -/
  cache : List Int
deriving DecidableEq, Repr

structure State where
  /-- The files of the prefix in the bucket, in key order. -/
  store : List Int
  /-- The `files_processed` rows of the process and the prefix. -/
  filesProcessed : List Int
  server : FileInfoPollerServer
  /-- The `FileInfoStream`s sent to the consumer and not yet recorded. -/
  channel : List Int
  /-- Every file whose record was committed, in order; the property is about it. -/
  recorded : List Int
deriving DecidableEq, Repr

/-- At the first start the table is empty and `create` finds no latest timestamp. -/
def State.initial : State := ⟨[], [], ⟨[], none, []⟩, [], []⟩

/-- `is_already_processed`: the cache first, then `exists`. -/
def State.isAlreadyProcessed (s : State) (file : Int) : Bool :=
  s.server.cache.contains file || pgExists s.filesProcessed file

/-- The `for file in files` loop of `get_next_file`: a file not already processed
is queued and becomes the latest timestamp. -/
def State.queueFiles (s : State) : List Int → FileInfoPollerServer → FileInfoPollerServer
  | [], server => server
  | file :: files, server =>
    if s.isAlreadyProcessed file then s.queueFiles files server
    else s.queueFiles files
      { server with latestFileTimestamp := some file, fileQueue := server.fileQueue ++ [file] }

/-- A pass of `get_next_file`'s loop with an empty queue: list the window from
`after` to `now` and queue what is new. With a file in the queue the loop pops it
instead, which is `sendNext`. -/
def State.listFiles (config : FileInfoPollerConfig) (s : State) (now : Int) : Option State :=
  match s.server.fileQueue with
  | [] =>
    let files := listAll s.store (after config s.server.latestFileTimestamp now) now
    some { s with server := s.queueFiles files s.server }
  | _ :: _ => none

/-- The `try_join` branch of `run`: `get_next_file` pops the queue's front, a
permit of the channel is reserved, the parsed stream is sent and `cache_file`
caches its key. -/
def State.sendNext (config : FileInfoPollerConfig) (s : State) : Option State :=
  match s.server.fileQueue with
  | [] => none
  | file :: rest =>
    if s.channel.length < config.queueSize then
      some { s with
        server := { s.server with fileQueue := rest, cache := file :: s.server.cache }
        channel := s.channel ++ [file] }
    else none

/-- The consumer's transaction for the oldest stream of the channel: `into_stream`
records the file, and the transaction commits. -/
def State.record (s : State) : Option State :=
  match s.channel with
  | [] => none
  | file :: rest =>
    (pgRecord s.filesProcessed file).map fun rows =>
      { s with filesProcessed := rows, channel := rest, recorded := s.recorded ++ [file] }

/-- The cleanup branch of `run`: `FileInfoPollerServer::clean` purges the cache
and cleans the table. -/
def State.clean (s : State) : State :=
  { s with filesProcessed := pgClean s.filesProcessed }

/-- The cleanup tick wins the `select!` while the file that `get_next_file` popped
waits for a permit of the full channel: the dropped `try_join` takes the file
with it. -/
def State.cleanWhileWaiting (config : FileInfoPollerConfig) (s : State) : Option State :=
  match s.server.fileQueue with
  | [] => none
  | _ :: rest =>
    if config.queueSize ≤ s.channel.length then
      some { s.clean with server := { s.server with fileQueue := rest } }
    else none

/-- A cache entry's `CACHE_TTL` runs out. -/
def State.expire (s : State) (key : Int) : State :=
  { s with server := { s.server with cache := s.server.cache.filter (· ≠ key) } }

/-- The process starts again: the channel and the cache are lost, and `create`
reads the latest timestamp from the table. -/
def State.restart (s : State) : State :=
  { s with server := ⟨[], pgLatestTimestamp s.filesProcessed, []⟩, channel := [] }

/-- A sink uploads a file; a key that exists already is not a new file. -/
def State.arrive (s : State) (file : Int) : Option State :=
  if file ∈ s.store then none else some { s with store := s.store.orderedInsert (· ≤ ·) file }

inductive Action where
  | arrive (file : Int)
  | listFiles (now : Int)
  | sendNext
  | record
  | expire (key : Int)
  | clean
  | cleanWhileWaiting
  | restart
deriving DecidableEq, Repr

def step (config : FileInfoPollerConfig) (s : State) : Action → Option State
  | .arrive file => s.arrive file
  | .listFiles now => s.listFiles config now
  | .sendNext => s.sendNext config
  | .record => s.record
  | .expire key => some (s.expire key)
  | .clean => some s.clean
  | .cleanWhileWaiting => s.cleanWhileWaiting config
  | .restart => some s.restart

/-! ### What each step does -/

/-- The loop queues the listed files not already processed, in listing order, and
the last of them becomes the latest timestamp. -/
theorem queueFiles_eq (s : State) (files : List Int) (server : FileInfoPollerServer) :
    s.queueFiles files server =
      { server with
        fileQueue := server.fileQueue ++ files.filter (fun file => !s.isAlreadyProcessed file)
        latestFileTimestamp :=
          (files.filter fun file => !s.isAlreadyProcessed file).getLast?.or
            server.latestFileTimestamp } := by
  induction files generalizing server with
  | nil => simp [State.queueFiles]
  | cons file files ih =>
    by_cases processed : s.isAlreadyProcessed file
    · simp [State.queueFiles, processed, ih]
    · rw [State.queueFiles, if_neg processed, ih]
      simp [processed, List.getLast?_cons]

section Steps

variable {config : FileInfoPollerConfig} {s s' : State}

theorem step_arrive {file : Int} (moved : step config s (.arrive file) = some s') :
    file ∉ s.store ∧ s' = { s with store := s.store.orderedInsert (· ≤ ·) file } := by
  simp only [step, State.arrive] at moved
  split at moved
  · cases moved
  · rename_i fresh
    exact ⟨fresh, (Option.some.inj moved).symm⟩

theorem step_listFiles {now : Int} (moved : step config s (.listFiles now) = some s') :
    s.server.fileQueue = [] ∧
      s' = { s with
        server := s.queueFiles (listAll s.store (after config s.server.latestFileTimestamp now) now)
          s.server } := by
  simp only [step, State.listFiles] at moved
  split at moved
  · rename_i empty
    exact ⟨empty, (Option.some.inj moved).symm⟩
  · cases moved

theorem step_sendNext (moved : step config s .sendNext = some s') :
    ∃ file rest, s.server.fileQueue = file :: rest ∧ s.channel.length < config.queueSize ∧
      s' = { s with
        server := { s.server with fileQueue := rest, cache := file :: s.server.cache }
        channel := s.channel ++ [file] } := by
  simp only [step, State.sendNext] at moved
  split at moved
  · cases moved
  · rename_i file rest queued
    split at moved
    · rename_i room
      exact ⟨file, rest, queued, room, (Option.some.inj moved).symm⟩
    · cases moved

theorem step_record (moved : step config s .record = some s') :
    ∃ file rest, s.channel = file :: rest ∧ file ∉ s.filesProcessed ∧
      s' = { s with
        filesProcessed := s.filesProcessed ++ [file], channel := rest,
        recorded := s.recorded ++ [file] } := by
  simp only [step, State.record] at moved
  split at moved
  · cases moved
  · rename_i file rest sent
    obtain ⟨rows, inserted, rfl⟩ := Option.map_eq_some_iff.mp moved
    unfold pgRecord pgExists at inserted
    split at inserted
    · cases inserted
    · rename_i fresh
      cases inserted
      exact ⟨file, rest, sent, by simpa using fresh, rfl⟩

theorem step_cleanWhileWaiting (moved : step config s .cleanWhileWaiting = some s') :
    ∃ file rest, s.server.fileQueue = file :: rest ∧ config.queueSize ≤ s.channel.length ∧
      s' = { s.clean with server := { s.server with fileQueue := rest } } := by
  simp only [step, State.cleanWhileWaiting] at moved
  split at moved
  · cases moved
  · rename_i file rest queued
    split at moved
    · rename_i full
      exact ⟨file, rest, queued, full, (Option.some.inj moved).symm⟩
    · cases moved

end Steps

/-! ### A file recorded twice -/

/-- The builder's defaults, listing from the epoch on. -/
def defaultConfig : FileInfoPollerConfig := { lookback := .startAfter 0 }

/-- 101 files within one offset window are listed, sent and recorded one by one;
`clean` deletes the oldest row, and after a restart the window from the newest row
less ten minutes lists the oldest file again. -/
def crowdedWindowActions : List Action :=
  (List.range 101).map (fun index => .arrive (index + 1)) ++ [.listFiles 1000] ++
    (List.range 101).flatMap (fun _ => [.sendNext, .record]) ++
    [.clean, .restart, .listFiles 1000, .sendNext, .record]

theorem file_recorded_twice :
    ∃ s, Reach (step defaultConfig) State.initial s ∧ ¬ s.recorded.Nodup :=
  exists_reach_of_run crowdedWindowActions (by decide +kernel)

end HeliumOracles.FileStore
