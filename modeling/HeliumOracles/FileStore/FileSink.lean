import Mathlib
import HeliumOracles.Lib.Transition
import HeliumOracles.Lib.TransactionLog
import HeliumOracles.FileStore.FileInfo
import HeliumOracles.RewardScheduler.Scheduler

/-!
# The rolling file sink and its uploader

Source: `file_store/src/file_sink.rs` (`FileSinkBuilder::new` and `create`, `FileSink::init`,
`run`, `new_sink`, `commit`, `rollback`, `maybe_roll`, `maybe_close_active_sink`,
`deposit_sink`, `write`, `file_name`, `DEFAULT_SINK_ROLL_MINS`, `MAX_FRAME_LENGTH`) and
`file_store/src/file_upload.rs` (`upload_file`, `FileUploadServer::run`).

A sink writes the records it is sent into a file of its `tmp` directory, opens a new file
when the next record would make the open one reach `max_size` bytes, and on a commit
renames every file it opened since the last commit or rollback into the target directory
and hands each to the uploader, which stores it in the bucket and deletes it. A rollback
deletes those files instead. With `auto_commit` the sink commits by itself when a file is
full and when the open file is older than `roll_time`; a restart deposits what a stopped
sink left in `tmp`, or deletes it without `auto_commit`.

A file is named `<prefix>.<millis>.gz` after the time its sink opened (`fileKey`), and
within one prefix two names are the same file only for the same millisecond
(`fileKey_inj`): a directory is a list of files with their millisecond times, and a
rename, a create or a bucket put replaces a file of the same time. A record is the bytes
of one encoded message, a frame of the file; gzip and the length prefix are the encoding
and are not modelled. `ActiveSink.time` is the `DateTime` of the open file, in
nanoseconds. The sink's `select!` loop and the uploader's five workers interleave in any
order, and so do the events here; an upload may finish any queued file, which allows
more orders than five workers do. `deposits` and `file_upload` are one flag, as
`FileSinkBuilder` keeps at most one of them.

Failures of the file system (`create_dir_all`, `rename`, `shutdown`) are left out, and so
is a process that dies without running `run`'s shutdown: a stop is the graceful one, which
takes the staged list and the uploader's queue with it. `new_sink` opens its file without
truncating it, which matters only when a file of the same millisecond exists; the
refinement theorem assumes of the clock that this never happens (`Timely`), and the model
starts such a file empty.

The sink refines a transaction log (`Lib.TransactionLog`): what a reader lists, the
published files of the target directory and the bucket in the order of their names, holds
the committed records, and the files in `tmp` hold the open transaction (`toLog`). Each
event does what `effect` says to that log (`step_refines`).
-/
namespace HeliumOracles.FileStore.FileSink

open Lib.Transition Lib.TransactionLog
open scoped List

/-- The bytes of one record. -/
abbrev Bytes := List UInt8

/-- `DEFAULT_SINK_ROLL_MINS`. -/
def defaultSinkRollMins : ℤ := 3

/-- `MAX_FRAME_LENGTH` of the length-delimited codec: a longer frame is refused. -/
def maxFrameLength : ℕ := 15000000

/-- A file of the sink: the millisecond of its name and its frames, in order. -/
structure SinkFile where
  time : ℤ
  records : List Bytes
deriving DecidableEq, Repr

/-- The payload bytes of a file, which `ActiveSink::size` counts. -/
def SinkFile.size (file : SinkFile) : ℕ := (file.records.map List.length).sum

/-- A directory of the sink's files. -/
abbrev Dir := List SinkFile

namespace Dir

/-- The file of a name, if there is one: `Path::exists`. -/
def find (dir : Dir) (time : ℤ) : Option SinkFile := dir.find? (fun file => file.time = time)

/-- `fs::remove_file`, and the source side of a rename. -/
def remove (dir : Dir) (time : ℤ) : Dir := dir.filter (fun file => file.time ≠ time)

/-- A file created, renamed in or put under its name; it replaces a file of that name. -/
def put (dir : Dir) (file : SinkFile) : Dir := dir.remove file.time ++ [file]

/-- A frame written to the file of a name. -/
def append (dir : Dir) (time : ℤ) (record : Bytes) : Dir :=
  dir.map fun file => if file.time = time then ⟨file.time, file.records ++ [record]⟩ else file

end Dir

/-- The settings of `FileSinkBuilder` the sink reads, with the defaults of
`FileSinkBuilder::new`; `upload` is whether `deposits` or `file_upload` is set. -/
structure FileSinkBuilder where
  keyPrefix : String
  maxSize : ℕ := 50000000
  rollTime : ℤ := RewardScheduler.Duration.minutes defaultSinkRollMins
  autoCommit : Bool := true
  upload : Bool := false
deriving DecidableEq, Repr

/-- `ActiveSink`: the payload bytes written to the open file and its opening time. -/
structure ActiveSink where
  size : ℕ
  time : ℤ
deriving DecidableEq, Repr

/-- `FileManifest`: the names of the files a commit or a rollback handled. -/
abbrev FileManifest := List String

/-- The sink, the uploader and the three places files live. -/
structure State where
  running : Bool
  stagedFiles : List ℤ
  activeSink : Option ActiveSink
  tmp : Dir
  target : Dir
  uploads : List ℤ
  bucket : Dir
deriving DecidableEq, Repr

/-- Nothing written yet, and no process running. -/
def State.initial : State := ⟨false, [], none, [], [], [], []⟩

section Operations

variable (builder : FileSinkBuilder)

namespace State

/-- `new_sink`: a file named after `now`, staged and open. -/
def newSink (s : State) (now : ℤ) : State :=
  { s with
    tmp := s.tmp.put ⟨timestampMillis now, []⟩
    stagedFiles := s.stagedFiles ++ [timestampMillis now]
    activeSink := some ⟨0, now⟩ }

/-- `maybe_close_active_sink`. -/
def closeActiveSink (s : State) : State := { s with activeSink := none }

/-- `deposit_sink`: a file no longer in `tmp` is skipped; otherwise it is renamed into
the target directory and its path sent to the uploader. -/
def depositSink (s : State) (time : ℤ) : State :=
  match s.tmp.find time with
  | none => s
  | some file =>
    { s with
      tmp := s.tmp.remove time
      target := s.target.put file
      uploads := if builder.upload then s.uploads ++ [time] else s.uploads }

/-- `FileSink::commit`: the open file is closed and every staged file deposited, in the
order they were opened; the manifest lists their names. -/
def commit (s : State) : FileManifest × State :=
  (s.stagedFiles.map (keyOfMillis builder.keyPrefix),
    s.stagedFiles.foldl (depositSink builder) { s.closeActiveSink with stagedFiles := [] })

/-- The loop of `rollback`: each staged file is removed; a file that is missing fails the
removal, and with it the loop. -/
def removeStaged : Dir → List ℤ → Dir × Bool
  | tmp, [] => (tmp, true)
  | tmp, time :: rest =>
    if (tmp.find time).isSome then removeStaged (tmp.remove time) rest else (tmp, false)

/-- `FileSink::rollback`; `none` is the error of a failed removal. -/
def rollback (s : State) : Option FileManifest × State :=
  let (tmp, removed) := removeStaged s.tmp s.stagedFiles
  (if removed then some (s.stagedFiles.map (keyOfMillis builder.keyPrefix)) else none,
    { s.closeActiveSink with stagedFiles := [], tmp := tmp })

/-- `maybe_roll`: an open file older than `roll_time` is committed, or only closed
without `auto_commit`. -/
def maybeRoll (s : State) (now : ℤ) : State :=
  match s.activeSink with
  | some active =>
    if active.time + builder.rollTime ≤ now then
      if builder.autoCommit then (s.commit builder).2 else s.closeActiveSink
    else s
  | none => s

/-- Whether the record would make the open file reach `max_size`. -/
def overflows (s : State) (bytes : Bytes) : Bool :=
  match s.activeSink with
  | some active => decide (builder.maxSize ≤ active.size + bytes.length)
  | none => false

/-- The first half of `FileSink::write`: the file the record goes to. A full file is shut
down, the staged files are committed with `auto_commit`, and a new file is opened; with no
open file a new one is opened. -/
def sinkFor (s : State) (now : ℤ) (bytes : Bytes) : State :=
  match s.activeSink with
  | some _ =>
    if s.overflows builder bytes then
      (if builder.autoCommit then (s.commit builder).2 else s).newSink now
    else s
  | none => s.newSink now

/-- The second half of `FileSink::write`: the frame is sent to the open file and counted.
The codec refuses a frame over `MAX_FRAME_LENGTH`, and the write fails with it. -/
def send (s : State) (bytes : Bytes) : Bool × State :=
  match s.activeSink with
  | some active =>
    if bytes.length ≤ maxFrameLength then
      (true, { s with
        tmp := s.tmp.append (timestampMillis active.time) bytes
        activeSink := some ⟨active.size + bytes.length, active.time⟩ })
    else (false, s)
  | none => (false, s)

/-- `FileSink::write`; the flag is whether it returned `Ok`. -/
def write (s : State) (now : ℤ) (bytes : Bytes) : Bool × State :=
  (s.sinkFor builder now bytes).send bytes

/-- The end of `run` and of the process: the open file is shut down, and the staged list
and the uploader's queue go with the process. -/
def stop (s : State) : State :=
  { s with running := false, activeSink := none, stagedFiles := [], uploads := [] }

/-- `FileSink::init`, run by `create` with a new uploader: every file of the target
directory is sent to the uploader again, and every file left in `tmp` is deposited, or
removed without `auto_commit`. -/
def init (s : State) : State :=
  let notified := { s with uploads := s.uploads ++ if builder.upload then s.target.map SinkFile.time else [] }
  let moved := s.tmp.foldl (fun s file =>
    if builder.autoCommit then s.depositSink builder file.time else { s with tmp := s.tmp.remove file.time })
    notified
  { moved with running := true }

/-- A worker of `FileUploadServer::run` finishes the queued path at `index`: an absent file
is ignored, otherwise it is put in the bucket and removed. -/
def uploadFile (s : State) (index : ℕ) : Option State :=
  s.uploads[index]?.map fun time =>
    match s.target.find time with
    | none => { s with uploads := s.uploads.eraseIdx index }
    | some file =>
      { s with
        uploads := s.uploads.eraseIdx index
        bucket := s.bucket.put file
        target := s.target.remove time }

/-- A worker gives up on the queued path at `index` after its retries; the file stays. -/
def uploadFailed (s : State) (index : ℕ) : Option State :=
  s.uploads[index]?.map fun _ => { s with uploads := s.uploads.eraseIdx index }

end State

/-- What the sink and the uploader react to: a message of the sink's channel with the
clock `Utc::now()` reads while handling it, a tick of the rollover timer, the shutdown
trigger (or a closed channel), a new process over the same directories, and the end of one
upload. -/
inductive Event where
  | data (now : ℤ) (bytes : Bytes)
  | commit
  | rollback
  | tick (now : ℤ)
  | stop
  | restart
  | upload (index : ℕ)
  | uploadFailed (index : ℕ)
deriving DecidableEq, Repr

/-- One event; `none` where it cannot happen: nothing but a restart while stopped, and no
restart while running. -/
def step (s : State) : Event → Option State
  | .data now bytes => if s.running then some (s.write builder now bytes).2 else none
  | .commit => if s.running then some (s.commit builder).2 else none
  | .rollback => if s.running then some (s.rollback builder).2 else none
  | .tick now => if s.running then some (s.maybeRoll builder now) else none
  | .stop => if s.running then some s.stop else none
  | .restart => if s.running then none else some (s.init builder)
  | .upload index => if s.running then s.uploadFile index else none
  | .uploadFailed index => if s.running then s.uploadFailed index else none

end Operations

/-! ## Directories -/

namespace Dir

theorem remove_eq_self {dir : Dir} {time : ℤ} (absent : ∀ file ∈ dir, file.time ≠ time) :
    dir.remove time = dir :=
  List.filter_eq_self.mpr fun file member => by simpa using absent file member

theorem find_cons_self (file : SinkFile) (rest : Dir) : find (file :: rest) file.time = some file := by
  simp [find]

theorem remove_cons_self {file : SinkFile} {rest : Dir}
    (later : ∀ other ∈ rest, other.time ≠ file.time) : remove (file :: rest) file.time = rest := by
  rw [← remove_eq_self later]
  simp [remove]

theorem put_of_absent {dir : Dir} {file : SinkFile} (absent : ∀ other ∈ dir, other.time ≠ file.time) :
    dir.put file = dir ++ [file] := by
  rw [put, remove_eq_self absent]

theorem append_last {older : Dir} {file : SinkFile} (before : ∀ other ∈ older, other.time ≠ file.time)
    (record : Bytes) :
    (older ++ [file]).append file.time record = older ++ [⟨file.time, file.records ++ [record]⟩] := by
  have unchanged : older.append file.time record = older := by
    refine List.map_congr_left (fun other member => ?_) |>.trans (List.map_id older)
    simp [before other member]
  simpa [append] using unchanged

/-- Taking a file out by its name and putting it back at the end reorders the directory. -/
theorem remove_append_perm {dir : Dir} {file : SinkFile} (member : file ∈ dir)
    (unique : (dir.map SinkFile.time).Nodup) : (dir.remove file.time ++ [file]).Perm dir := by
  induction dir with
  | nil => simp at member
  | cons head rest ih =>
    obtain ⟨headAbsent, restUnique⟩ := List.nodup_cons.mp unique
    by_cases same : head = file
    · subst same
      have absent : ∀ other ∈ rest, other.time ≠ head.time := fun other inRest equal =>
        headAbsent (equal ▸ List.mem_map_of_mem inRest)
      rw [remove_cons_self absent]
      exact List.perm_append_singleton head rest
    · have inRest : file ∈ rest := (List.mem_cons.mp member).resolve_left (Ne.symm same)
      have differ : head.time ≠ file.time := fun equal =>
        headAbsent (equal ▸ List.mem_map_of_mem inRest)
      have kept : remove (head :: rest) file.time = head :: remove rest file.time := by
        simp [remove, differ]
      rw [kept, List.cons_append]
      exact (ih inRest restUnique).cons head

end Dir

/-! ## The loops of commit, rollback and init -/

section Loops

variable (builder : FileSinkBuilder)

/-- The paths a deposit of `files` sends to the uploader. -/
def notified (files : Dir) : List ℤ := if builder.upload then files.map SinkFile.time else []

/-- Depositing the files of `tmp`, oldest first, moves them all after the target's. -/
theorem foldl_depositSink {files : Dir} (ordered : files.Pairwise (fun a b => a.time < b.time)) :
    ∀ {s : State}, s.tmp = files → (∀ old ∈ s.target, ∀ file ∈ files, old.time < file.time) →
      (files.map SinkFile.time).foldl (State.depositSink builder) s =
        { s with tmp := [], target := s.target ++ files, uploads := s.uploads ++ notified builder files } := by
  induction files with
  | nil =>
    intro s emptyTmp _
    obtain ⟨running, staged, active, tmp, target, uploads, bucket⟩ := s
    simp only at emptyTmp
    subst emptyTmp
    simp [notified]
  | cons file rest ih =>
    intro s atTmp before
    obtain ⟨firstBelow, restOrdered⟩ := List.pairwise_cons.mp ordered
    have deposited : s.depositSink builder file.time =
        { s with tmp := rest, target := s.target ++ [file],
                 uploads := if builder.upload then s.uploads ++ [file.time] else s.uploads } := by
      simp only [State.depositSink, atTmp, Dir.find_cons_self]
      rw [Dir.remove_cons_self (fun other member => ne_of_gt (firstBelow other member)),
        Dir.put_of_absent (fun old member => ne_of_lt (before old member file List.mem_cons_self))]
    have stillBefore : ∀ old ∈ s.target ++ [file], ∀ later ∈ rest, old.time < later.time := by
      intro old member later inRest
      rcases List.mem_append.mp member with inTarget | isFile
      · exact before old inTarget later (List.mem_cons_of_mem _ inRest)
      · rw [List.mem_singleton.mp isFile]
        exact firstBelow later inRest
    rw [List.map_cons, List.foldl_cons, deposited, ih restOrdered rfl stillBefore]
    cases upload : builder.upload <;> simp [notified, upload]

theorem removeStaged_all {files : Dir} (ordered : files.Pairwise (fun a b => a.time < b.time)) :
    State.removeStaged files (files.map SinkFile.time) = ([], true) := by
  induction files with
  | nil => rfl
  | cons file rest ih =>
    obtain ⟨firstBelow, restOrdered⟩ := List.pairwise_cons.mp ordered
    rw [List.map_cons, State.removeStaged, Dir.find_cons_self, Option.isSome_some, if_pos rfl,
      Dir.remove_cons_self (fun other member => ne_of_gt (firstBelow other member)), ih restOrdered]

/-- Removing the files of `tmp` one by one, as `init` does without `auto_commit`, empties it. -/
theorem foldl_removeFile {files : Dir} (ordered : files.Pairwise (fun a b => a.time < b.time)) :
    ∀ {s : State}, s.tmp = files →
      files.foldl (fun s file => { s with tmp := s.tmp.remove file.time }) s = { s with tmp := [] } := by
  induction files with
  | nil =>
    intro s emptyTmp
    obtain ⟨running, staged, active, tmp, target, uploads, bucket⟩ := s
    simp only at emptyTmp
    subst emptyTmp
    rfl
  | cons file rest ih =>
    intro s atTmp
    obtain ⟨firstBelow, restOrdered⟩ := List.pairwise_cons.mp ordered
    have removed : s.tmp.remove file.time = rest := by
      rw [atTmp, Dir.remove_cons_self (fun other member => ne_of_gt (firstBelow other member))]
    rw [List.foldl_cons, ih restOrdered (by exact removed)]

end Loops

/-! ## The transaction log the files hold -/

section Refinement

variable (builder : FileSinkBuilder)

/-- Every file of the sink, wherever it is. -/
def State.files (s : State) : List SinkFile := s.tmp ++ s.target ++ s.bucket

/-- The files a reader lists: the bucket's and those waiting in the target directory, in
the order of their names. -/
def State.published (s : State) : List SinkFile := byKey SinkFile.time (s.target ++ s.bucket)

/-- The records the published files hold, and those of the files in `tmp`. -/
def State.toLog (s : State) : Log Bytes :=
  ⟨s.published.flatMap SinkFile.records, s.tmp.flatMap SinkFile.records⟩

/-- Whether `write` opens a file for the record. -/
def State.opensSink (s : State) (bytes : Bytes) : Bool :=
  match s.activeSink with
  | some _ => s.overflows builder bytes
  | none => true

/-- Whether `maybe_roll` finds the open file older than `roll_time`. -/
def State.rollDue (s : State) (now : ℤ) : Bool :=
  match s.activeSink with
  | some active => decide (active.time + builder.rollTime ≤ now)
  | none => false

/-- The clock assumption: a file that `write` opens is named after a later millisecond
than every file the sink has had. -/
def Timely (s : State) : Event → Prop
  | .data now bytes =>
    s.opensSink builder bytes = true → ∀ file ∈ s.files, file.time < timestampMillis now
  | _ => True

instance (s : State) : ∀ event, Decidable (Timely builder s event)
  | .data now bytes => inferInstanceAs
      (Decidable (s.opensSink builder bytes = true → ∀ file ∈ s.files, file.time < timestampMillis now))
  | .commit | .rollback | .tick _ | .stop | .restart | .upload _ | .uploadFailed _ =>
    inferInstanceAs (Decidable True)

/-- What an event does to the transaction log. A record the codec refuses is not written;
`auto_commit` commits before a full file and at a roll; a restart commits what was left
in `tmp`, or drops it without `auto_commit`. -/
def effect (s : State) : Event → List (Op Bytes)
  | .data _ bytes =>
    (if builder.autoCommit && s.overflows builder bytes then [.commit] else []) ++
      (if bytes.length ≤ maxFrameLength then [.write bytes] else [])
  | .commit => [.commit]
  | .rollback => [.rollback]
  | .tick now => if builder.autoCommit && s.rollDue builder now then [.commit] else []
  | .restart => [if builder.autoCommit then .commit else .rollback]
  | .stop | .upload _ | .uploadFailed _ => []

/-- What every reachable state keeps: `tmp` holds the staged files, oldest first, newer than
every published file; the open file is the newest and its size is the one counted; and
no file of two records or more reaches `max_size`. -/
structure Inv (s : State) : Prop where
  tmpOrdered : s.tmp.Pairwise (fun a b => a.time < b.time)
  publishedUnique : ((s.target ++ s.bucket).map SinkFile.time).Nodup
  publishedFirst : ∀ old ∈ s.target ++ s.bucket, ∀ file ∈ s.tmp, old.time < file.time
  staged : s.running = true → s.stagedFiles = s.tmp.map SinkFile.time
  stopped : s.running = false → s.stagedFiles = [] ∧ s.activeSink = none
  active : ∀ sink, s.activeSink = some sink →
    ∃ older file, s.tmp = older ++ [file] ∧ file.time = timestampMillis sink.time ∧ file.size = sink.size
  bounded : ∀ file ∈ s.files, 2 ≤ file.records.length → file.size < builder.maxSize

theorem inv_initial : Inv builder State.initial where
  tmpOrdered := List.Pairwise.nil
  publishedUnique := List.nodup_nil
  publishedFirst := by simp [State.initial]
  staged := by simp [State.initial]
  stopped := fun _ => ⟨rfl, rfl⟩
  active := by simp [State.initial]
  bounded := by simp [State.initial, State.files]

variable {builder}

theorem Inv.allUnique {s : State} (inv : Inv builder s) :
    ((s.target ++ s.bucket ++ s.tmp).map SinkFile.time).Nodup := by
  rw [List.map_append, List.nodup_append]
  refine ⟨inv.publishedUnique, List.pairwise_map.mpr (inv.tmpOrdered.imp ne_of_lt), ?_⟩
  simp only [List.mem_map]
  rintro _ ⟨old, isOld, rfl⟩ _ ⟨file, inTmp, rfl⟩
  exact ne_of_lt (inv.publishedFirst old isOld file inTmp)

/-- After a commit, or a restart with `auto_commit`, the files of `tmp` are the newest
published ones. -/
theorem published_deposit {s : State} (inv : Inv builder s) :
    byKey SinkFile.time (s.target ++ s.tmp ++ s.bucket) = s.published ++ s.tmp := by
  have perm : (s.target ++ s.bucket ++ s.tmp).Perm (s.target ++ s.tmp ++ s.bucket) := by
    simpa only [List.append_assoc] using List.perm_append_comm.append_left s.target
  rw [← byKey_eq_of_perm inv.allUnique perm]
  exact byKey_append inv.publishedUnique inv.tmpOrdered inv.publishedFirst

/-! ### What each operation does under the invariant -/

theorem newSink_eq {s : State} {now : ℤ} (fresh : ∀ file ∈ s.tmp, file.time < timestampMillis now) :
    s.newSink now = { s with
      tmp := s.tmp ++ [⟨timestampMillis now, []⟩]
      stagedFiles := s.stagedFiles ++ [timestampMillis now]
      activeSink := some ⟨0, now⟩ } := by
  rw [State.newSink, Dir.put_of_absent (fun file member => ne_of_lt (fresh file member))]

theorem commit_eq {s : State} (inv : Inv builder s) (running : s.running = true) :
    s.commit builder = (s.tmp.map (fun file => keyOfMillis builder.keyPrefix file.time),
      { s with
        activeSink := none, stagedFiles := [], tmp := [], target := s.target ++ s.tmp
        uploads := s.uploads ++ notified builder s.tmp }) := by
  rw [State.commit, inv.staged running, List.map_map,
    foldl_depositSink builder inv.tmpOrdered (s := { s.closeActiveSink with stagedFiles := [] }) rfl
      (fun old member => inv.publishedFirst old (List.mem_append_left _ member))]
  rfl

theorem rollback_eq {s : State} (inv : Inv builder s) (running : s.running = true) :
    s.rollback builder = (some (s.tmp.map (fun file => keyOfMillis builder.keyPrefix file.time)),
      { s with activeSink := none, stagedFiles := [], tmp := [] }) := by
  rw [State.rollback, inv.staged running, removeStaged_all inv.tmpOrdered, List.map_map]
  rfl

theorem init_eq {s : State} (inv : Inv builder s) :
    s.init builder =
      if builder.autoCommit then
        { s with running := true, tmp := [], target := s.target ++ s.tmp,
                 uploads := s.uploads ++ notified builder s.target ++ notified builder s.tmp }
      else { s with running := true, tmp := [], uploads := s.uploads ++ notified builder s.target } := by
  cases auto : builder.autoCommit
  · simp only [State.init, auto, Bool.false_eq_true, if_false]
    rw [foldl_removeFile inv.tmpOrdered
      (s := { s with uploads := s.uploads ++ if builder.upload then s.target.map SinkFile.time else [] }) rfl]
    rfl
  · have byTime : ∀ (init : State), s.tmp.foldl (fun s file => s.depositSink builder file.time) init =
        (s.tmp.map SinkFile.time).foldl (State.depositSink builder) init := fun _ => List.foldl_map.symm
    simp only [State.init, auto, if_true]
    rw [byTime, foldl_depositSink builder inv.tmpOrdered
      (s := { s with uploads := s.uploads ++ if builder.upload then s.target.map SinkFile.time else [] }) rfl
      (fun old member => inv.publishedFirst old (List.mem_append_left _ member))]
    simp [notified]

theorem Dir.find_spec {dir : Dir} {time : ℤ} {file : SinkFile} (found : dir.find time = some file) :
    file ∈ dir ∧ file.time = time :=
  ⟨List.mem_of_find?_eq_some found, by simpa using List.find?_some found⟩

/-- The uploader either ignores an absent file or moves one from the target directory to
the bucket. -/
theorem uploadFile_cases {s s' : State} {index : ℕ} (moved : s.uploadFile index = some s') :
    s' = { s with uploads := s.uploads.eraseIdx index } ∨
      ∃ file ∈ s.target, s' = { s with
        uploads := s.uploads.eraseIdx index
        bucket := s.bucket.put file
        target := s.target.remove file.time } := by
  obtain ⟨time, _, rfl⟩ := Option.map_eq_some_iff.mp moved
  cases found : s.target.find time with
  | none => exact .inl rfl
  | some file =>
    obtain ⟨member, rfl⟩ := Dir.find_spec found
    exact .inr ⟨file, member, rfl⟩

/-- Moving a published file from the target directory to the bucket reorders the
published files. -/
theorem upload_perm {s : State} (inv : Inv builder s) {file : SinkFile} (member : file ∈ s.target) :
    (s.target.remove file.time ++ s.bucket.put file).Perm (s.target ++ s.bucket) := by
  have targetUnique : (s.target.map SinkFile.time).Nodup :=
    (List.nodup_append.mp (List.map_append ▸ inv.publishedUnique)).1
  have absent : ∀ other ∈ s.bucket, other.time ≠ file.time := by
    intro other inBucket same
    have unique := List.map_append ▸ inv.publishedUnique
    exact (List.nodup_append.mp unique).2.2 _ (List.mem_map_of_mem member) _
      (List.mem_map_of_mem inBucket) same.symm
  rw [Dir.put_of_absent absent]
  calc (s.target.remove file.time ++ (s.bucket ++ [file])).Perm
        (s.target.remove file.time ++ ([file] ++ s.bucket)) :=
        List.perm_append_comm.append_left _
    _ = (s.target.remove file.time ++ [file]) ++ s.bucket := (List.append_assoc _ _ _).symm
    _ ~ s.target ++ s.bucket := (Dir.remove_append_perm member targetUnique).append_right _

/-! ### The invariant, operation by operation -/

theorem deposit_perm (s : State) : (s.target ++ s.bucket ++ s.tmp) ~ (s.target ++ s.tmp ++ s.bucket) := by
  simpa only [List.append_assoc] using List.perm_append_comm.append_left s.target

/-- A state whose files are files of an invariant state, or hold at most one record, keeps
the bound on file sizes. -/
theorem Inv.bounded_of_files {s s' : State} (inv : Inv builder s)
    (within : ∀ file ∈ s'.files, file ∈ s.files ∨ file.records.length ≤ 1) :
    ∀ file ∈ s'.files, 2 ≤ file.records.length → file.size < builder.maxSize := by
  intro file member long
  rcases within file member with old | short
  · exact inv.bounded file old long
  · omega

theorem Inv.closeActiveSink {s : State} (inv : Inv builder s) : Inv builder s.closeActiveSink where
  tmpOrdered := inv.tmpOrdered
  publishedUnique := inv.publishedUnique
  publishedFirst := inv.publishedFirst
  staged := inv.staged
  stopped := fun stopped => ⟨(inv.stopped stopped).1, rfl⟩
  active := by simp [State.closeActiveSink]
  bounded := inv.bounded

theorem Inv.newSink {s : State} {now : ℤ} (inv : Inv builder s) (running : s.running = true)
    (fresh : ∀ file ∈ s.files, file.time < timestampMillis now) : Inv builder (s.newSink now) := by
  have freshTmp : ∀ file ∈ s.tmp, file.time < timestampMillis now :=
    fun file member => fresh file (by simp [State.files, member])
  rw [newSink_eq freshTmp]
  refine { tmpOrdered := ?tmpOrdered, publishedUnique := inv.publishedUnique,
           publishedFirst := ?publishedFirst, staged := ?staged, stopped := by simp [running],
           active := ?active, bounded := ?bounded }
  case tmpOrdered =>
    refine List.pairwise_append.mpr ⟨inv.tmpOrdered, List.pairwise_singleton _ _, ?_⟩
    intro file member created isNew
    rw [List.mem_singleton.mp isNew]
    exact freshTmp file member
  case publishedFirst =>
    intro old isOld file member
    rcases List.mem_append.mp member with inTmp | isNew
    · exact inv.publishedFirst old isOld file inTmp
    · rw [List.mem_singleton.mp isNew]
      exact fresh old (by simp only [State.files, List.append_assoc, List.mem_append] at isOld ⊢; tauto)
  case staged => simp [inv.staged running]
  case active =>
    intro sink opened
    cases opened
    exact ⟨s.tmp, _, rfl, rfl, by simp [SinkFile.size]⟩
  case bounded =>
    refine inv.bounded_of_files fun file member => ?_
    simp only [State.files, List.mem_append, List.mem_singleton] at member
    rcases member with ((inTmp | isNew) | inTarget) | inBucket
    · exact .inl (by simp [State.files, inTmp])
    · exact .inr (by simp [isNew])
    · exact .inl (by simp [State.files, inTarget])
    · exact .inl (by simp [State.files, inBucket])

theorem Inv.commit {s : State} (inv : Inv builder s) (running : s.running = true) :
    Inv builder (s.commit builder).2 := by
  rw [commit_eq inv running]
  refine { tmpOrdered := List.Pairwise.nil, publishedUnique := ?publishedUnique,
           publishedFirst := by simp, staged := fun _ => rfl, stopped := fun _ => ⟨rfl, rfl⟩,
           active := by simp, bounded := ?bounded }
  case publishedUnique => exact ((deposit_perm s).map SinkFile.time).nodup_iff.mp inv.allUnique
  case bounded =>
    refine inv.bounded_of_files fun file member => .inl ?_
    simp only [State.files, List.nil_append, List.mem_append] at member ⊢
    tauto

theorem Inv.rollback {s : State} (inv : Inv builder s) (running : s.running = true) :
    Inv builder (s.rollback builder).2 := by
  rw [rollback_eq inv running]
  refine { publishedUnique := inv.publishedUnique, tmpOrdered := List.Pairwise.nil,
           publishedFirst := by simp, staged := fun _ => rfl, stopped := fun _ => ⟨rfl, rfl⟩,
           active := by simp, bounded := ?bounded }
  case bounded =>
    refine inv.bounded_of_files fun file member => .inl ?_
    simp only [State.files, List.nil_append, List.mem_append] at member ⊢
    tauto

theorem Inv.stop {s : State} (inv : Inv builder s) : Inv builder s.stop where
  tmpOrdered := inv.tmpOrdered
  publishedUnique := inv.publishedUnique
  publishedFirst := inv.publishedFirst
  staged := by simp [State.stop]
  stopped := fun _ => ⟨rfl, rfl⟩
  active := by simp [State.stop]
  bounded := inv.bounded

theorem Inv.init {s : State} (inv : Inv builder s) (stopped : s.running = false) :
    Inv builder (s.init builder) := by
  obtain ⟨noStaged, noActive⟩ := inv.stopped stopped
  rw [init_eq inv]
  by_cases auto : builder.autoCommit = true
  · rw [if_pos auto]
    refine { tmpOrdered := List.Pairwise.nil, publishedUnique := ?publishedUnique,
             publishedFirst := by simp, staged := fun _ => noStaged, stopped := by simp,
             active := by simp [noActive], bounded := ?bounded }
    case publishedUnique => exact ((deposit_perm s).map SinkFile.time).nodup_iff.mp inv.allUnique
    case bounded =>
      refine inv.bounded_of_files fun file member => .inl ?_
      simp only [State.files, List.nil_append, List.mem_append] at member ⊢
      tauto
  · rw [if_neg auto]
    refine { publishedUnique := inv.publishedUnique, tmpOrdered := List.Pairwise.nil,
             publishedFirst := by simp, staged := fun _ => noStaged, stopped := by simp,
             active := by simp [noActive], bounded := ?bounded }
    case bounded =>
      refine inv.bounded_of_files fun file member => .inl ?_
      simp only [State.files, List.nil_append, List.mem_append] at member ⊢
      tauto

theorem Inv.uploadFile {s s' : State} {index : ℕ} (inv : Inv builder s)
    (moved : s.uploadFile index = some s') : Inv builder s' := by
  rcases uploadFile_cases moved with rfl | ⟨file, member, rfl⟩
  · exact { inv with }
  · have perm := upload_perm inv member
    refine { tmpOrdered := inv.tmpOrdered, publishedUnique := ?publishedUnique,
             publishedFirst := ?publishedFirst, staged := inv.staged, stopped := inv.stopped,
             active := inv.active, bounded := ?bounded }
    case publishedUnique => exact (perm.map SinkFile.time).nodup_iff.mpr inv.publishedUnique
    case publishedFirst =>
      intro old isOld later inTmp
      exact inv.publishedFirst old (perm.subset isOld) later inTmp
    case bounded =>
      refine inv.bounded_of_files fun other inFiles => .inl ?_
      simp only [State.files, List.append_assoc, List.mem_append] at inFiles ⊢
      have published : other ∈ s.target.remove file.time ∨ other ∈ s.bucket.put file →
          other ∈ s.target ∨ other ∈ s.bucket :=
        fun inPublished => List.mem_append.mp (perm.subset (List.mem_append.mpr inPublished))
      tauto

theorem Inv.uploadFailed {s s' : State} {index : ℕ} (inv : Inv builder s)
    (moved : s.uploadFailed index = some s') : Inv builder s' := by
  obtain ⟨_, _, rfl⟩ := Option.map_eq_some_iff.mp moved
  exact { inv with }

/-! ### The log, operation by operation -/

theorem toLog_newSink {s : State} {now : ℤ} (fresh : ∀ file ∈ s.tmp, file.time < timestampMillis now) :
    (s.newSink now).toLog = s.toLog := by
  rw [newSink_eq fresh]
  simp [State.toLog, State.published]

theorem toLog_commit {s : State} (inv : Inv builder s) (running : s.running = true) :
    (s.commit builder).2.toLog = s.toLog.apply .commit := by
  rw [commit_eq inv running]
  change Log.mk (byKey SinkFile.time (s.target ++ s.tmp ++ s.bucket) |>.flatMap SinkFile.records) [] = _
  rw [published_deposit inv]
  simp [State.toLog, Log.apply]

theorem toLog_rollback {s : State} (inv : Inv builder s) (running : s.running = true) :
    (s.rollback builder).2.toLog = s.toLog.apply .rollback := by
  rw [rollback_eq inv running]
  rfl

theorem toLog_init {s : State} (inv : Inv builder s) :
    (s.init builder).toLog = s.toLog.apply (if builder.autoCommit then .commit else .rollback) := by
  rw [init_eq inv]
  by_cases auto : builder.autoCommit = true
  · rw [if_pos auto, if_pos auto]
    change Log.mk (byKey SinkFile.time (s.target ++ s.tmp ++ s.bucket) |>.flatMap SinkFile.records) [] = _
    rw [published_deposit inv]
    simp [State.toLog, Log.apply]
  · rw [if_neg auto, if_neg auto]
    rfl

theorem toLog_uploadFile {s s' : State} {index : ℕ} (inv : Inv builder s)
    (moved : s.uploadFile index = some s') : s'.toLog = s.toLog := by
  rcases uploadFile_cases moved with rfl | ⟨file, member, rfl⟩
  · rfl
  · have perm := upload_perm inv member
    have unique := (perm.map SinkFile.time).nodup_iff.mpr inv.publishedUnique
    simp only [State.toLog, State.published, byKey_eq_of_perm unique perm]

theorem toLog_uploadFailed {s s' : State} {index : ℕ} (moved : s.uploadFailed index = some s') :
    s'.toLog = s.toLog := by
  obtain ⟨_, _, rfl⟩ := Option.map_eq_some_iff.mp moved
  rfl

/-! ### The two halves of a write -/

/-- The open file can take the record: it is the newest file of `tmp`, and it is empty or
stays under `max_size` with the record. -/
def Room (builder : FileSinkBuilder) (s : State) (bytes : Bytes) : Prop :=
  ∃ sink older file, s.activeSink = some sink ∧ s.tmp = older ++ [file] ∧
    file.time = timestampMillis sink.time ∧ file.size = sink.size ∧
    (file.records = [] ∨ sink.size + bytes.length < builder.maxSize)

theorem room_newSink {s : State} {now : ℤ} (fresh : ∀ file ∈ s.tmp, file.time < timestampMillis now)
    (bytes : Bytes) : Room builder (s.newSink now) bytes := by
  rw [newSink_eq fresh]
  exact ⟨_, s.tmp, _, rfl, rfl, rfl, by simp [SinkFile.size], .inl rfl⟩

theorem fresh_commit {s : State} {now : ℤ} (inv : Inv builder s) (running : s.running = true)
    (fresh : ∀ file ∈ s.files, file.time < timestampMillis now) :
    ∀ file ∈ (s.commit builder).2.files, file.time < timestampMillis now := by
  rw [commit_eq inv running]
  intro file member
  refine fresh file ?_
  simp only [State.files, List.nil_append, List.mem_append] at member ⊢
  tauto

/-- The first half of a write keeps the invariant, leaves a file that can take the record,
and commits when `auto_commit` finds the open file full. -/
theorem sinkFor_spec {s : State} {now : ℤ} {bytes : Bytes} (inv : Inv builder s)
    (running : s.running = true) (timely : Timely builder s (.data now bytes)) :
    Inv builder (s.sinkFor builder now bytes) ∧ (s.sinkFor builder now bytes).running = true ∧
      Room builder (s.sinkFor builder now bytes) bytes ∧
      (s.sinkFor builder now bytes).toLog =
        s.toLog.replay (if builder.autoCommit && s.overflows builder bytes then [.commit] else []) := by
  have freshTmp {t : State} (fresh : ∀ file ∈ t.files, file.time < timestampMillis now) :
      ∀ file ∈ t.tmp, file.time < timestampMillis now :=
    fun file member => fresh file (by simp [State.files, member])
  cases opened : s.activeSink with
  | none =>
    have fresh := timely (by simp [State.opensSink, opened])
    have closed : s.overflows builder bytes = false := by simp [State.overflows, opened]
    simp only [State.sinkFor, opened, closed, Bool.and_false, Bool.false_eq_true, if_false,
      Log.replay_nil]
    exact ⟨inv.newSink running fresh, running, room_newSink (freshTmp fresh) bytes,
      toLog_newSink (freshTmp fresh)⟩
  | some sink =>
    by_cases full : s.overflows builder bytes = true
    · have fresh := timely (by simp [State.opensSink, opened, full])
      by_cases auto : builder.autoCommit = true
      · have committed := inv.commit running
        have stillRunning : (s.commit builder).2.running = true := by rw [commit_eq inv running]; exact running
        have freshAfter := fresh_commit inv running fresh
        simp only [State.sinkFor, opened, full, auto, if_true, Bool.and_self]
        refine ⟨committed.newSink stillRunning freshAfter, stillRunning,
          room_newSink (freshTmp freshAfter) bytes, ?_⟩
        rw [toLog_newSink (freshTmp freshAfter), toLog_commit inv running]
        rfl
      · simp only [State.sinkFor, opened, full, auto, if_true, if_false, Bool.false_and,
          Bool.false_eq_true, Log.replay_nil]
        exact ⟨inv.newSink running fresh, running, room_newSink (freshTmp fresh) bytes,
          toLog_newSink (freshTmp fresh)⟩
    · have roomy : sink.size + bytes.length < builder.maxSize := by
        simpa [State.overflows, opened] using full
      obtain ⟨older, file, split, named, sized⟩ := inv.active sink opened
      simp only [State.sinkFor, opened, full, Bool.false_eq_true, if_false, Bool.and_false,
        Log.replay_nil]
      exact ⟨inv, running, ⟨sink, older, file, opened, split, named, sized, .inr roomy⟩, trivial⟩

/-- The second half of a write: a frame within `MAX_FRAME_LENGTH` goes to the end of the
open file, and the invariant holds after it. -/
theorem send_spec {t : State} {bytes : Bytes} (inv : Inv builder t) (room : Room builder t bytes) :
    Inv builder (t.send bytes).2 ∧ (t.send bytes).2.running = t.running ∧
      (t.send bytes).2.toLog =
        t.toLog.replay (if bytes.length ≤ maxFrameLength then [.write bytes] else []) := by
  obtain ⟨sink, older, file, opened, split, named, sized, roomy⟩ := room
  by_cases fits : bytes.length ≤ maxFrameLength
  · have olderFirst : ∀ other ∈ older, other.time < file.time := by
      have ordered := inv.tmpOrdered
      rw [split] at ordered
      exact fun other member => (List.pairwise_append.mp ordered).2.2 other member file List.mem_cons_self
    have written : t.tmp.append (timestampMillis sink.time) bytes =
        older ++ [⟨file.time, file.records ++ [bytes]⟩] := by
      rw [split, ← named]
      exact Dir.append_last (fun other member => ne_of_lt (olderFirst other member)) bytes
    have grownSize : SinkFile.size ⟨file.time, file.records ++ [bytes]⟩ = sink.size + bytes.length := by
      simp [SinkFile.size, ← sized]
    simp only [State.send, opened, fits, if_true, written]
    refine ⟨?_, trivial, ?_⟩
    · refine { publishedUnique := inv.publishedUnique, staged := ?staged,
               stopped := fun stopped => by simp [inv.stopped stopped] at opened,
               tmpOrdered := ?tmpOrdered, publishedFirst := ?publishedFirst,
               active := ?active, bounded := ?bounded }
      case tmpOrdered =>
        refine List.pairwise_append.mpr ⟨?_, List.pairwise_singleton _ _, ?_⟩
        · have ordered := inv.tmpOrdered
          rw [split] at ordered
          exact (List.pairwise_append.mp ordered).1
        · intro other member grown isGrown
          rw [List.mem_singleton.mp isGrown]
          exact olderFirst other member
      case publishedFirst =>
        intro old isOld other member
        rcases List.mem_append.mp member with inOlder | isGrown
        · exact inv.publishedFirst old isOld other (by simp [split, inOlder])
        · rw [List.mem_singleton.mp isGrown]
          exact inv.publishedFirst old isOld file (by simp [split])
      case staged =>
        intro running
        rw [inv.staged running, split]
        simp
      case active =>
        intro grown isOpen
        cases isOpen
        exact ⟨older, _, rfl, named, grownSize⟩
      case bounded =>
        intro other member long
        simp only [State.files, List.append_assoc, List.mem_append, List.mem_singleton] at member
        rcases member with inOlder | isGrown | published
        · exact inv.bounded other (by simp [State.files, split, inOlder]) long
        · subst isGrown
          rcases roomy with empty | roomy
          · simp [empty] at long
          · rw [grownSize]
            exact roomy
        · exact inv.bounded other (by simp only [State.files, List.mem_append]; tauto) long
    · simp [State.toLog, split, Log.apply, State.published]
  · simp only [State.send, opened, fits, if_false, Log.replay_nil]
    exact ⟨inv, trivial, trivial⟩

/-! ### Every event -/

theorem running_of_step {s s' : State} {event : Event} (notRestart : event ≠ .restart)
    (moved : step builder s event = some s') : s.running = true := by
  by_contra stopped
  simp only [Bool.not_eq_true] at stopped
  cases event <;> simp_all [step]

theorem maybeRoll_cases (s : State) (now : ℤ) :
    (s.rollDue builder now = true ∧ builder.autoCommit = true ∧
        s.maybeRoll builder now = (s.commit builder).2) ∨
      (s.rollDue builder now = true ∧ builder.autoCommit = false ∧
        s.maybeRoll builder now = s.closeActiveSink) ∨
      (s.rollDue builder now = false ∧ s.maybeRoll builder now = s) := by
  unfold State.maybeRoll State.rollDue
  cases s.activeSink with
  | none => simp
  | some sink =>
    by_cases due : sink.time + builder.rollTime ≤ now <;>
      cases builder.autoCommit <;> simp [due]

theorem step_inv {s s' : State} {event : Event} (inv : Inv builder s)
    (timely : Timely builder s event) (moved : step builder s event = some s') : Inv builder s' := by
  cases event with
  | restart =>
    cases running : s.running
    · simp only [step, running, Bool.false_eq_true, if_false, Option.some.injEq] at moved
      subst moved
      exact inv.init running
    · simp [step, running] at moved
  | upload index =>
    simp only [step, running_of_step (by simp) moved, if_true] at moved
    exact inv.uploadFile moved
  | uploadFailed index =>
    simp only [step, running_of_step (by simp) moved, if_true] at moved
    exact inv.uploadFailed moved
  | data now bytes =>
    have running := running_of_step (by simp) moved
    simp only [step, running, if_true, Option.some.injEq] at moved
    subst moved
    obtain ⟨prepared, -, room, -⟩ := sinkFor_spec inv running timely
    exact (send_spec prepared room).1
  | commit =>
    have running := running_of_step (by simp) moved
    simp only [step, running, if_true, Option.some.injEq] at moved
    subst moved
    exact inv.commit running
  | rollback =>
    have running := running_of_step (by simp) moved
    simp only [step, running, if_true, Option.some.injEq] at moved
    subst moved
    exact inv.rollback running
  | tick now =>
    have running := running_of_step (by simp) moved
    simp only [step, running, if_true, Option.some.injEq] at moved
    subst moved
    rcases maybeRoll_cases s now with ⟨-, -, rolled⟩ | ⟨-, -, rolled⟩ | ⟨-, rolled⟩ <;> rw [rolled]
    · exact inv.commit running
    · exact inv.closeActiveSink
    · exact inv
  | stop =>
    simp only [step, running_of_step (by simp) moved, if_true, Option.some.injEq] at moved
    subst moved
    exact inv.stop

/-- The refinement: every event the clock allows does to the log of the files what
`effect` says. -/
theorem step_refines {s s' : State} {event : Event} (inv : Inv builder s)
    (timely : Timely builder s event) (moved : step builder s event = some s') :
    s'.toLog = s.toLog.replay (effect builder s event) := by
  cases event with
  | restart =>
    cases running : s.running
    · simp only [step, running, Bool.false_eq_true, if_false, Option.some.injEq] at moved
      subst moved
      rw [toLog_init inv]
      rfl
    · simp [step, running] at moved
  | upload index =>
    simp only [step, running_of_step (by simp) moved, if_true] at moved
    exact toLog_uploadFile inv moved
  | uploadFailed index =>
    simp only [step, running_of_step (by simp) moved, if_true] at moved
    exact toLog_uploadFailed moved
  | data now bytes =>
    have running := running_of_step (by simp) moved
    simp only [step, running, if_true, Option.some.injEq] at moved
    subst moved
    obtain ⟨prepared, -, room, logged⟩ := sinkFor_spec inv running timely
    rw [State.write, (send_spec prepared room).2.2, logged, ← Log.replay_append]
    rfl
  | commit =>
    have running := running_of_step (by simp) moved
    simp only [step, running, if_true, Option.some.injEq] at moved
    subst moved
    rw [toLog_commit inv running]
    rfl
  | rollback =>
    have running := running_of_step (by simp) moved
    simp only [step, running, if_true, Option.some.injEq] at moved
    subst moved
    rw [toLog_rollback inv running]
    rfl
  | tick now =>
    have running := running_of_step (by simp) moved
    simp only [step, running, if_true, Option.some.injEq] at moved
    subst moved
    rcases maybeRoll_cases s now with ⟨due, auto, rolled⟩ | ⟨due, auto, rolled⟩ | ⟨due, rolled⟩ <;>
      rw [rolled]
    · rw [toLog_commit inv running]
      simp [effect, due, auto]
    · simp [effect, auto]
      rfl
    · simp [effect, due]
  | stop =>
    simp only [step, running_of_step (by simp) moved, if_true, Option.some.injEq] at moved
    subst moved
    rfl

/-! ## Whole runs -/

/-- The log operations of a run from `s`, event by event, as far as the run goes. -/
def runEffect (builder : FileSinkBuilder) : State → List Event → List (Op Bytes)
  | _, [] => []
  | s, event :: rest =>
    match restrict (step builder) (Timely builder) s event with
    | some s' => effect builder s event ++ runEffect builder s' rest
    | none => []

theorem reach_inv {s : State}
    (reached : Reach (restrict (step builder) (Timely builder)) State.initial s) : Inv builder s :=
  Reach.invariant (Inv builder) (inv_initial builder)
    (fun _ _ _ inv moved => step_inv inv (restrict_some moved).1 (restrict_some moved).2) reached

/-- The refinement over a run: the log of the files at its end is the log at its start
with the operations of every event replayed. -/
theorem run_refines {events : List Event} :
    ∀ {s s' : State}, Inv builder s →
      run (restrict (step builder) (Timely builder)) s events = some s' →
      s'.toLog = s.toLog.replay (runEffect builder s events) ∧ Inv builder s' := by
  induction events with
  | nil =>
    intro s s' inv ran
    simp only [run_nil, Option.some.injEq] at ran
    subst ran
    exact ⟨rfl, inv⟩
  | cons event rest ih =>
    intro s s' inv ran
    rw [run_cons] at ran
    cases moved : restrict (step builder) (Timely builder) s event with
    | none => simp [moved] at ran
    | some t =>
      rw [moved, Option.bind_some] at ran
      obtain ⟨timely, stepped⟩ := restrict_some moved
      obtain ⟨logged, after⟩ := ih (step_inv inv timely stepped) ran
      refine ⟨?_, after⟩
      simp only [runEffect, moved]
      rw [logged, step_refines inv timely stepped, Log.replay_append]

/-- The records of an event that the sink takes: a data message within the frame limit. -/
def Event.accepted : Event → List Bytes
  | .data _ bytes => if bytes.length ≤ maxFrameLength then [bytes] else []
  | _ => []

/-- The transaction an event stands for without `auto_commit`: a record, a commit, or a
rollback, which a restart is as well. -/
def Event.transactionOps : Event → List (Op Bytes)
  | .data _ bytes => if bytes.length ≤ maxFrameLength then [.write bytes] else []
  | .commit => [.commit]
  | .rollback | .restart => [.rollback]
  | .tick _ | .stop | .upload _ | .uploadFailed _ => []

theorem toLog_initial : State.initial.toLog = Log.empty := by
  simp [State.toLog, State.published, byKey, State.initial, Log.empty]

theorem writes_effect (s : State) (event : Event) :
    writes (effect builder s event) = event.accepted := by
  cases event with
  | data now bytes =>
    rw [effect, writes_append]
    by_cases fits : bytes.length ≤ maxFrameLength <;>
      cases builder.autoCommit && s.overflows builder bytes <;> simp [fits, writes, Event.accepted]
  | tick now =>
    simp only [effect, Event.accepted]
    split_ifs <;> rfl
  | restart =>
    simp only [effect, Event.accepted]
    split_ifs <;> rfl
  | _ => rfl

theorem effect_of_manual (manual : builder.autoCommit = false) (s : State) (event : Event) :
    effect builder s event = event.transactionOps := by
  cases event <;> simp [effect, Event.transactionOps, manual]

theorem rollback_not_mem_effect (auto : builder.autoCommit = true) (s : State) {event : Event}
    (notRollback : event ≠ .rollback) : Op.rollback ∉ effect builder s event := by
  cases event <;> simp_all [effect]

theorem runEffect_cons {s t : State} {event : Event} (rest : List Event)
    (moved : restrict (step builder) (Timely builder) s event = some t) :
    runEffect builder s (event :: rest) = effect builder s event ++ runEffect builder t rest := by
  simp only [runEffect, moved]

/-- Over a run that goes through, the operations write every record the sink took. -/
theorem runEffect_writes {events : List Event} : ∀ {s s' : State},
    run (restrict (step builder) (Timely builder)) s events = some s' →
      writes (runEffect builder s events) = events.flatMap Event.accepted := by
  induction events with
  | nil => intro _ _ _; rfl
  | cons event rest ih =>
    intro s s' ran
    rw [run_cons] at ran
    cases moved : restrict (step builder) (Timely builder) s event with
    | none => simp [moved] at ran
    | some t =>
      rw [moved, Option.bind_some] at ran
      rw [runEffect_cons rest moved, writes_append, writes_effect, ih ran, List.flatMap_cons]

theorem runEffect_of_manual (manual : builder.autoCommit = false) {events : List Event} :
    ∀ {s s' : State}, run (restrict (step builder) (Timely builder)) s events = some s' →
      runEffect builder s events = events.flatMap Event.transactionOps := by
  induction events with
  | nil => intro _ _ _; rfl
  | cons event rest ih =>
    intro s s' ran
    rw [run_cons] at ran
    cases moved : restrict (step builder) (Timely builder) s event with
    | none => simp [moved] at ran
    | some t =>
      rw [moved, Option.bind_some] at ran
      rw [runEffect_cons rest moved, effect_of_manual manual, ih ran, List.flatMap_cons]

theorem rollback_not_mem_runEffect (auto : builder.autoCommit = true) {events : List Event}
    (noRollback : Event.rollback ∉ events) : ∀ s : State, Op.rollback ∉ runEffect builder s events := by
  induction events with
  | nil => intro _; simp [runEffect]
  | cons event rest ih =>
    intro s
    have notRollback : event ≠ .rollback := fun same => noRollback (same ▸ List.mem_cons_self)
    cases moved : restrict (step builder) (Timely builder) s event with
    | none => simp [runEffect, moved]
    | some t =>
      rw [runEffect_cons rest moved, List.mem_append, not_or]
      exact ⟨rollback_not_mem_effect auto s notRollback,
        ih (fun member => noRollback (List.mem_cons_of_mem _ member)) t⟩

/-! ## What the sink guarantees -/

/-- Without `auto_commit` the sink's files are a transaction log: over every run the clock
allows from an empty start, the published files hold the records of the committed
transactions and `tmp` those of the open one, exactly what a log replaying the sink's
messages holds, a restart counting as a rollback. -/
theorem manual_sink_is_transaction_log (manual : builder.autoCommit = false) {events : List Event}
    {s : State} (ran : run (restrict (step builder) (Timely builder)) State.initial events = some s) :
    s.toLog = Log.empty.replay (events.flatMap Event.transactionOps) := by
  rw [(run_refines (inv_initial builder) ran).1, toLog_initial, runEffect_of_manual manual ran]

/-- With `auto_commit`, over every run the clock allows from an empty start with no rollback
message, the published records followed by those in `tmp` are every record the sink took,
in the order it was sent: none is lost or written twice, across rolls, full files,
restarts and uploads. -/
theorem auto_commit_sink_keeps_every_record (auto : builder.autoCommit = true)
    {events : List Event} {s : State}
    (ran : run (restrict (step builder) (Timely builder)) State.initial events = some s)
    (noRollback : Event.rollback ∉ events) :
    s.toLog.committed ++ s.toLog.pending = events.flatMap Event.accepted := by
  rw [(run_refines (inv_initial builder) ran).1, toLog_initial,
    replay_eq_writes _ (rollback_not_mem_runEffect auto noRollback _), runEffect_writes ran]
  simp [Log.empty]

/-- In every state the clock allows, a file with two records or more is under `max_size`
bytes: only a single record can make a file reach it. -/
theorem sink_files_stay_under_max_size {s : State}
    (reached : Reach (restrict (step builder) (Timely builder)) State.initial s) :
    ∀ file ∈ s.files, 2 ≤ file.records.length → file.size < builder.maxSize :=
  (reach_inv reached).bounded

/-- What a reader has listed stays listed: from every reachable state, over every further
run the clock allows, the published records keep their order and only grow at the end. -/
theorem published_records_only_grow {s s' : State} {events : List Event}
    (reached : Reach (restrict (step builder) (Timely builder)) State.initial s)
    (ran : run (restrict (step builder) (Timely builder)) s events = some s') :
    s.toLog.committed <+: s'.toLog.committed := by
  rw [(run_refines (reach_inv reached) ran).1]
  exact committed_prefix_replay _ _

end Refinement

/-! ## Two runs -/

/-- A sink without `auto_commit` whose files take four bytes. -/
def manualBuilder : FileSinkBuilder := { keyPrefix := "price_report", maxSize := 4, autoCommit := false }

/-- Two records, the second in a new file, a commit, then a record rolled back. -/
def manualRun : List Event :=
  [.restart, .data 1000000 [1, 2], .data 2000000 [3, 4, 5], .commit, .data 3000000 [6], .rollback]

def manualEnd : State :=
  ⟨true, [], none, [], [⟨1, [[1, 2]]⟩, ⟨2, [[3, 4, 5]]⟩], [], []⟩

theorem manual_sink_is_transaction_log_on_run :
    run (restrict (step manualBuilder) (Timely manualBuilder)) State.initial manualRun = some manualEnd ∧
      manualEnd.toLog = Log.empty.replay (manualRun.flatMap Event.transactionOps) :=
  ⟨by decide, @manual_sink_is_transaction_log manualBuilder rfl manualRun manualEnd (by decide)⟩

/-- A sink with `auto_commit` and an uploader, whose files take four bytes. -/
def autoBuilder : FileSinkBuilder := { keyPrefix := "price_report", maxSize := 4, upload := true }

/-- Two records in one file, a third that fills it, a roll, an upload and a restart. -/
def autoRun : List Event :=
  [.restart, .data 1000000 [1], .data 1500000 [2], .data 2000000 [3, 4, 5], .tick 190000000000,
    .upload 0, .stop, .restart]

def autoEnd : State :=
  ⟨true, [], none, [], [⟨2, [[3, 4, 5]]⟩], [2], [⟨1, [[1], [2]]⟩]⟩

theorem auto_commit_sink_keeps_every_record_on_run :
    run (restrict (step autoBuilder) (Timely autoBuilder)) State.initial autoRun = some autoEnd ∧
      Event.rollback ∉ autoRun ∧
      autoEnd.toLog.committed ++ autoEnd.toLog.pending = autoRun.flatMap Event.accepted :=
  ⟨by decide, by decide,
    @auto_commit_sink_keeps_every_record autoBuilder rfl autoRun autoEnd (by decide) (by decide)⟩

theorem sink_files_stay_under_max_size_on_run :
    Reach (restrict (step autoBuilder) (Timely autoBuilder)) State.initial autoEnd ∧
      ∀ file ∈ autoEnd.files, 2 ≤ file.records.length → file.size < autoBuilder.maxSize :=
  ⟨reach_of_run autoRun .start (by decide),
    sink_files_stay_under_max_size (reach_of_run autoRun .start (by decide))⟩

/-- The state of `autoRun` after its first four events: one file published, one open. -/
def autoMid : State :=
  ⟨true, [2], some ⟨3, 2000000⟩, [⟨2, [[3, 4, 5]]⟩], [⟨1, [[1], [2]]⟩], [1], []⟩

theorem published_records_only_grow_on_run :
    Reach (restrict (step autoBuilder) (Timely autoBuilder)) State.initial autoMid ∧
      run (restrict (step autoBuilder) (Timely autoBuilder)) autoMid (autoRun.drop 4) = some autoEnd ∧
      autoMid.toLog.committed <+: autoEnd.toLog.committed :=
  ⟨reach_of_run (autoRun.take 4) .start (by decide), by decide,
    @published_records_only_grow autoBuilder autoMid autoEnd (autoRun.drop 4)
      (reach_of_run (autoRun.take 4) .start (by decide)) (by decide)⟩

end HeliumOracles.FileStore.FileSink
