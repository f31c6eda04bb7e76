/-
# PassiveBitcoin.Writer.FileWriter — the text log writer and its rotation

`FileWriter` receives lines on `txtQ`, a channel of capacity one, and its goroutine
`goWriter` loops on a select over `sigWriter`, the file timer and `txtQ`: a line is
written to the current file with a newline and `checkSize` may rotate; a timer
expiry makes `checkTime` rotate; a closed `sigWriter` ends the loop and closes the
file. `rotateLog` creates `filePath + time.Now().Format(time.RFC3339) + ".txt"`, writes
the version header, copies the old file through the compressor into `<name>.out`,
closes it, and makes the new file current. `Stop` closes `sigWriter` and waits for
`goWriter`.

`LogFiles` is what rotation touches: the disk, `w.file`, the timer, and the names
created so far; `FileWriter` adds the channels, the goroutine and the bookkeeping of
the model (the lines `Line` accepted, the lines `goWriter` wrote, and the accepted
lines when `Stop` was called). `FileWriter.step` is one action of one goroutine;
`step_moves` says once what a step can do, and each invariant of a run is a case
analysis on it.

The results:

* `content_rotateLog` — what a rotation leaves on the disk, from `content_compressLog`;
  a rotation to a new name keeps the old file and copies it into `<name>.out`
  (`rotateLog_new_name`), but RFC 3339 names have one-second resolution, and
  `os.Create` of the name of the file still open truncates it: a rotation in the same
  second as the current file's wipes every line written since (`rotateLog_same_second`,
  and `same_second_rotation_loses_line` for a whole run);
* `stop_drops_buffered_line` — `goWriter`'s select may take the closed `sigWriter`
  while a line waits in `txtQ`; that line is never written;
* `written_all_but_last` — what does hold: when `Stop` returns, every line accepted
  before it was called has been written except possibly the last, and the written
  lines are the accepted ones in order (`Writer.Durability` reads this off the files).
-/
import PassiveBitcoin.Go.Sync
import PassiveBitcoin.Go.Trace
import PassiveBitcoin.Writer.FileSystem

namespace PassiveBitcoin

set_option autoImplicit false

/-- `Version`. -/
def version : String := "PBTC Log Version 1"

/-- The header line `rotateLog` starts every file with. -/
def header : String := "#" ++ version ++ "\n"

/-- The options of a writer: `SetFilePath`, `SetSizeLimit` (an `int64`), `SetAgeLimit`
(a `time.Duration`, in nanoseconds), what the writer `SetCompressor` gives emits for
the bytes copied into it, and whether `SetLog` gave a log (`w.log` is nil otherwise). -/
structure WriterConfig where
  filePath : String
  fileSize : Int
  fileAge : Int
  compress : List UInt8 → List UInt8
  log : Bool

/-- The options `NewFileWriter` defaults to: `logs/`, 1 MiB, one hour in nanoseconds,
the dummy compressor, taken to copy its input, and no log. -/
def defaultConfig : WriterConfig := ⟨"logs/", 1 * 1024 * 1024, 60 * 60 * 1000000000, id, false⟩

/-- What rotation touches: the disk, the handle `w.file` (`none` for nil), whether the
file timer is armed, and the names `rotateLog` created, oldest first. -/
structure LogFiles where
  fs : FileSystem
  file : Option Nat
  timerArmed : Bool
  created : List String

namespace LogFiles

/-- `compressLog` on the handle `fd`: seek to the start, create `<name>.out`, and copy the
file into it through the compressor. The output is never closed. -/
def compressLog (cfg : WriterConfig) (fs : FileSystem) (fd : Nat) : FileSystem :=
  if fd ∈ fs.handles then
    let output := (fs.seekStart fd).create (fs.name fd ++ ".out")
    let copied := output.1.readRest fd
    copied.2.write output.2 (cfg.compress copied.1)
  else fs

/-- `rotateLog` when `time.Now().Format(time.RFC3339)` reads `now`. -/
def rotateLog (cfg : WriterConfig) (lf : LogFiles) (now : String) : LogFiles :=
  let name := cfg.filePath ++ now ++ ".txt"
  let file := lf.fs.create name
  let fs := file.1.write file.2 (bytesOf header)
  let fs := match lf.file with
    | some old => (compressLog cfg fs old).close old
    | none => fs
  { lf with fs, file := some file.2, created := lf.created ++ [name] }

/-- `w.file.WriteString(txt + "\n")`; on a nil file the call fails and nothing is written. -/
def writeLine (lf : LogFiles) (txt : String) : LogFiles :=
  match lf.file with
  | some fd => { lf with fs := lf.fs.write fd (bytesOf (txt ++ "\n")) }
  | none => lf

/-- `checkSize`: `Stat` failing panics. -/
def checkSize (cfg : WriterConfig) (lf : LogFiles) (now : String) : Except GoPanic LogFiles :=
  if cfg.fileSize = 0 then .ok lf
  else
    match lf.file.bind lf.fs.stat with
    | none => .error .explicit
    | some size => if (size : Int) < cfg.fileSize then .ok lf else .ok (rotateLog cfg lf now)

/-- `checkTime`, after the timer fired: rotate and re-arm, unless `fileAge` is zero. -/
def checkTime (cfg : WriterConfig) (lf : LogFiles) (now : String) : LogFiles :=
  if cfg.fileAge = 0 then lf else { rotateLog cfg lf now with timerArmed := true }

/-! ## What rotation does to the disk -/

theorem out_ne (n : String) : n ++ ".out" ≠ n := by
  intro h
  have hlen := congrArg String.length h
  have : ".out".length = 4 := rfl
  simp only [String.length_append] at hlen
  omega

theorem ne_out (n : String) : n ≠ n ++ ".out" := (out_ne n).symm

/-- `compressLog` copies the whole file into `<name>.out` through the compressor and
changes no other file. -/
theorem content_compressLog (cfg : WriterConfig) {fs : FileSystem} {fd : Nat} {o : OpenFile}
    (ho : fs.handles.get fd = some o) (n : String) :
    (compressLog cfg fs fd).content n =
      if n = o.name ++ ".out" then cfg.compress (fs.content o.name) else fs.content n := by
  -- the old handle, sought to the start, and the new output handle
  have hfd : (fs.seekStart fd).handles.get fd = some { o with offset := 0 } := by
    rw [FileSystem.get_handles_seekStart ho, if_pos rfl]
  have hout := FileSystem.get_handles_create (fs.seekStart fd) (o.name ++ ".out")
  have hfd' : ((fs.seekStart fd).create (o.name ++ ".out")).1.handles.get fd = some { o with offset := 0 } := by
    rw [hout, if_neg (FileSystem.ne_nextFd hfd), hfd]
  have hnew : (((fs.seekStart fd).create (o.name ++ ".out")).1.readRest fd).2.handles.get fs.nextFd =
      some ⟨o.name ++ ".out", 0⟩ := by
    rw [FileSystem.get_handles_readRest_ne _ (by simpa using (FileSystem.ne_nextFd hfd).symm), hout,
      FileSystem.nextFd_seekStart, if_pos rfl]
  simp only [compressLog, if_pos (GoMap.mem_of_get_eq_some ho), FileSystem.name_of_get ho,
    FileSystem.create_snd, FileSystem.nextFd_seekStart, FileSystem.content_write hnew,
    FileSystem.readRest_fst hfd', FileSystem.content_readRest, FileSystem.content_create,
    FileSystem.content_seekStart, if_neg (out_ne o.name), if_neg (ne_out o.name), List.drop_zero]
  split <;> simp

/-- What `rotateLog` leaves on the disk when there is a current file: the new file holds
the header alone, and `<old name>.out` the compressed content the old file had once the
new one was created. -/
theorem content_rotateLog (cfg : WriterConfig) (lf : LogFiles) (now : String) {fd : Nat} {o : OpenFile}
    (hfile : lf.file = some fd) (ho : lf.fs.handles.get fd = some o) (n : String) :
    let created := fun m => if m = cfg.filePath ++ now ++ ".txt" then bytesOf header else lf.fs.content m
    (lf.rotateLog cfg now).fs.content n =
      if n = o.name ++ ".out" then cfg.compress (created o.name) else created n := by
  intro created
  have hnew : (lf.fs.create (cfg.filePath ++ now ++ ".txt")).1.handles.get lf.fs.nextFd =
      some ⟨cfg.filePath ++ now ++ ".txt", 0⟩ := by
    rw [FileSystem.get_handles_create, if_pos rfl]
  have hc : ∀ m, ((lf.fs.create (cfg.filePath ++ now ++ ".txt")).1.write lf.fs.nextFd (bytesOf header)).content m =
      created m := by
    intro m
    simp only [FileSystem.content_write hnew, FileSystem.content_create, created]
    split <;> simp_all
  have hold : ((lf.fs.create (cfg.filePath ++ now ++ ".txt")).1.write lf.fs.nextFd (bytesOf header)).handles.get fd =
      some o := by
    rw [FileSystem.get_handles_write hnew, if_neg (FileSystem.ne_nextFd ho), FileSystem.get_handles_create,
      if_neg (FileSystem.ne_nextFd ho), ho]
  simp only [rotateLog, hfile, FileSystem.create_snd, FileSystem.content_close, content_compressLog cfg hold, hc]

/-- A rotation within the second of the current file's name truncates that file:
whatever it held, it holds the header alone afterwards, and so does its `.out` copy. -/
theorem rotateLog_same_second (cfg : WriterConfig) (lf : LogFiles) (now : String) {fd : Nat} {o : OpenFile}
    (hfile : lf.file = some fd) (ho : lf.fs.handles.get fd = some o) (hname : o.name = cfg.filePath ++ now ++ ".txt") :
    (lf.rotateLog cfg now).fs.content o.name = bytesOf header ∧
      (lf.rotateLog cfg now).fs.content (o.name ++ ".out") = cfg.compress (bytesOf header) := by
  simp [content_rotateLog cfg lf now hfile ho, out_ne, ne_out, hname]

/-- The first file, rotated again within its second. -/
theorem rotateLog_same_second_first_file :
    let lf := rotateLog defaultConfig ⟨FileSystem.ofFiles ∅, none, true, []⟩ "2016-01-01T00:00:00Z"
    let o : OpenFile := ⟨"logs/2016-01-01T00:00:00Z.txt", 20⟩
    lf.file = some 0 ∧ lf.fs.handles.get 0 = some o ∧ o.name = defaultConfig.filePath ++ "2016-01-01T00:00:00Z" ++ ".txt" ∧
      ((lf.rotateLog defaultConfig "2016-01-01T00:00:00Z").fs.content o.name = bytesOf header ∧
        (lf.rotateLog defaultConfig "2016-01-01T00:00:00Z").fs.content (o.name ++ ".out") =
          defaultConfig.compress (bytesOf header)) := by
  intro lf o
  exact ⟨rfl, by decide, rfl, rotateLog_same_second defaultConfig lf _ rfl (by decide) rfl⟩

theorem txt_ne_out (a b : String) : a ++ ".txt" ≠ b ++ ".out" := by
  intro h
  have := congrArg (fun s : String => s.data.reverse.take 2) h
  simp at this

/-- A rotation to a new name keeps the old file as it was and copies all of it into
`<old name>.out`. -/
theorem rotateLog_new_name (cfg : WriterConfig) (lf : LogFiles) (now : String) {fd : Nat} {o : OpenFile}
    (hfile : lf.file = some fd) (ho : lf.fs.handles.get fd = some o) (hname : o.name ≠ cfg.filePath ++ now ++ ".txt") :
    (lf.rotateLog cfg now).fs.content o.name = lf.fs.content o.name ∧
      (lf.rotateLog cfg now).fs.content (o.name ++ ".out") = cfg.compress (lf.fs.content o.name) ∧
      (lf.rotateLog cfg now).fs.content (cfg.filePath ++ now ++ ".txt") = bytesOf header := by
  simp [content_rotateLog cfg lf now hfile ho, out_ne, ne_out, hname, txt_ne_out]

/-- The first file, rotated one second later. -/
theorem rotateLog_new_name_next_second :
    let lf := rotateLog defaultConfig ⟨FileSystem.ofFiles ∅, none, true, []⟩ "2016-01-01T00:00:00Z"
    let o : OpenFile := ⟨"logs/2016-01-01T00:00:00Z.txt", 20⟩
    lf.file = some 0 ∧ lf.fs.handles.get 0 = some o ∧ o.name ≠ defaultConfig.filePath ++ "2016-01-01T00:00:01Z" ++ ".txt" ∧
      ((lf.rotateLog defaultConfig "2016-01-01T00:00:01Z").fs.content o.name = lf.fs.content o.name ∧
        (lf.rotateLog defaultConfig "2016-01-01T00:00:01Z").fs.content (o.name ++ ".out") =
          defaultConfig.compress (lf.fs.content o.name) ∧
        (lf.rotateLog defaultConfig "2016-01-01T00:00:01Z").fs.content
          (defaultConfig.filePath ++ "2016-01-01T00:00:01Z" ++ ".txt") = bytesOf header) := by
  intro lf o
  exact ⟨rfl, by decide, by decide, rotateLog_new_name defaultConfig lf _ rfl (by decide) (by decide)⟩

end LogFiles

/-- Where the first call of `Stop` is. -/
inductive StopCall where
  | notCalled
  /-- `sigWriter` is closed; `wg.Wait()` blocks. -/
  | waiting
  | returned
  deriving DecidableEq, Repr

/-- A `FileWriter` and its goroutine. `written`, `accepted` and `acceptedAtStop` are
bookkeeping of the model, oldest first. -/
structure FileWriter where
  files : LogFiles
  txtQ : List String
  sigWriter : Signal
  done : Bool
  writer : Routine
  stopCall : StopCall
  panicked : Option GoPanic
  /-- The lines `goWriter` took from `txtQ` and wrote. -/
  written : List String
  /-- The lines whose `Line` call returned. -/
  accepted : List String
  /-- `accepted` when `Stop` was first called. -/
  acceptedAtStop : List String

/-- One atomic action of one goroutine. `now` is the time `rotateLog` would read. -/
inductive WriterEvent where
  /-- `Line(txt)` puts the line into `txtQ`'s buffer and returns. -/
  | line (txt : String)
  /-- `goWriter` takes a line from `txtQ`. -/
  | take (now : String)
  /-- `goWriter` takes the expiry of the file timer. -/
  | tick (now : String)
  /-- `goWriter` takes the closed `sigWriter`. -/
  | quit
  | stop
  /-- `wg.Wait()` returns in `Stop`. -/
  | stopReturn
  deriving DecidableEq, Repr

namespace FileWriter

/-- `NewFileWriter` over a disk holding `disk`, the first rotation reading `now`. -/
def newFileWriter (cfg : WriterConfig) (disk : GoMap String (List UInt8)) (now : String) : FileWriter :=
  ⟨LogFiles.rotateLog cfg ⟨FileSystem.ofFiles disk, none, true, []⟩ now, [], .make, false, .running,
    .notCalled, none, [], [], []⟩

/-- One step of a live process; `none` when the event is not enabled. -/
def stepLive (cfg : WriterConfig) (w : FileWriter) : WriterEvent → Option FileWriter
  | .line txt =>
      if w.txtQ.length < 1 then some { w with txtQ := w.txtQ ++ [txt], accepted := w.accepted ++ [txt] }
      else none
  | .take now =>
      match w.txtQ with
      | txt :: rest =>
          if w.writer = .running then
            let w' := { w with txtQ := rest, written := w.written ++ [txt] }
            match (w.files.writeLine txt).checkSize cfg now with
            | .ok files => some { w' with files }
            | .error p => some { w' with panicked := some p }
          else none
      | [] => none
  | .tick now =>
      if w.writer = .running ∧ w.files.timerArmed then
        some { w with files := LogFiles.checkTime cfg { w.files with timerArmed := false } now }
      else none
  | .quit =>
      if w.writer = .running ∧ w.sigWriter.closed then
        let fs := match w.files.file with
          | some fd => w.files.fs.close fd
          | none => w.files.fs
        some { w with files := { w.files with fs }, writer := .returned }
      else none
  | .stop =>
      if w.done then some w
      else
        match w.sigWriter.close with
        | .ok sigWriter =>
            some { w with done := true, sigWriter, stopCall := .waiting, acceptedAtStop := w.accepted }
        | .error p => some { w with panicked := some p }
  | .stopReturn =>
      if w.stopCall = .waiting ∧ w.writer = .returned then some { w with stopCall := .returned } else none

/-- One step: nothing moves after a panic. -/
def step (cfg : WriterConfig) (w : FileWriter) (e : WriterEvent) : Option FileWriter :=
  if w.panicked.isSome then none else stepLive cfg w e

/-- The states reached from `newFileWriter cfg disk now`. -/
abbrev Reachable (cfg : WriterConfig) (disk : GoMap String (List UInt8)) (now : String) : FileWriter → Prop :=
  Trace.Reachable (step cfg) (newFileWriter cfg disk now)

/-- Replays a sequence of events. -/
abbrev run (cfg : WriterConfig) : FileWriter → List WriterEvent → Option FileWriter := Trace.run (step cfg)

/-! ## Rotation within one second -/

/-- With `SetSizeLimit(1)` every line rotates. A line written in the second the writer
was created rotates to the same name: `os.Create` truncates the open file, and the only
`.txt` file left holds the header alone. -/
theorem same_second_rotation_loses_line :
    let cfg : WriterConfig := { defaultConfig with fileSize := 1 }
    let now := "2016-01-01T00:00:00Z"
    ∃ w, run cfg (newFileWriter cfg ∅ now) [.line "a", .take now] = some w ∧
      w.written = ["a"] ∧
      w.files.created = ["logs/2016-01-01T00:00:00Z.txt", "logs/2016-01-01T00:00:00Z.txt"] ∧
      w.files.fs.content "logs/2016-01-01T00:00:00Z.txt" = bytesOf header :=
  ⟨_, rfl, by decide, by decide, by decide⟩

/-! ## Stop -/

/-- `goWriter`'s select takes the closed `sigWriter` while a line waits in `txtQ`. -/
theorem stop_drops_buffered_line :
    let now := "2016-01-01T00:00:00Z"
    ∃ w, Reachable defaultConfig ∅ now w ∧ w.stopCall = .returned ∧ "a" ∈ w.acceptedAtStop ∧
      "a" ∉ w.written :=
  ⟨_, Trace.reachable_run [.line "a", .stop, .quit, .stopReturn] .init rfl, by decide, by decide, by decide⟩

/-! ## What one step can do -/

/-- Everything one step can do to the writer, with the guards the invariants need. -/
inductive Moves (cfg : WriterConfig) (w : FileWriter) : FileWriter → Prop where
  /-- `Stop` after the first, which returns at once. -/
  | same : Moves cfg w w
  | line (txt : String) : w.txtQ.length < 1 →
      Moves cfg w { w with txtQ := w.txtQ ++ [txt], accepted := w.accepted ++ [txt] }
  /-- `goWriter` writes a line and `checkSize` returns. -/
  | write {txt : String} {rest : List String} {files : LogFiles} (now : String) : w.txtQ = txt :: rest →
      w.writer = .running → (w.files.writeLine txt).checkSize cfg now = .ok files →
      Moves cfg w { w with txtQ := rest, written := w.written ++ [txt], files }
  /-- `goWriter` writes a line and `checkSize` panics. -/
  | writePanic {txt : String} {rest : List String} {now : String} (p : GoPanic) : w.txtQ = txt :: rest →
      w.writer = .running → (w.files.writeLine txt).checkSize cfg now = .error p →
      Moves cfg w { w with txtQ := rest, written := w.written ++ [txt], panicked := some p }
  | tick (now : String) : w.writer = .running →
      Moves cfg w { w with files := LogFiles.checkTime cfg { w.files with timerArmed := false } now }
  | quit : w.writer = .running →
      Moves cfg w { w with files := { w.files with fs := match w.files.file with
                                                          | some fd => w.files.fs.close fd
                                                          | none => w.files.fs },
                           writer := .returned }
  /-- The first `Stop` closes `sigWriter`. -/
  | stop (sigWriter : Signal) : w.done = false → w.sigWriter.close = .ok sigWriter →
      Moves cfg w { w with done := true, sigWriter, stopCall := .waiting, acceptedAtStop := w.accepted }
  /-- The first `Stop` panics at `close(sigWriter)`. -/
  | panic (p : GoPanic) : w.done = false → w.sigWriter.close = .error p → Moves cfg w { w with panicked := some p }
  | stopReturn : w.stopCall = .waiting → Moves cfg w { w with stopCall := .returned }

theorem step_moves {cfg : WriterConfig} {w w' : FileWriter} {e : WriterEvent}
    (h : step cfg w e = some w') : Moves cfg w w' := by
  unfold step at h
  split at h
  · cases h
  cases e with
  | line txt =>
      simp only [stepLive] at h
      split at h <;> cases h
      exact .line txt ‹_›
  | take now =>
      simp only [stepLive] at h
      split at h
      · split at h
        · split at h <;> cases h
          · exact .write now ‹_› ‹_› ‹_›
          · exact .writePanic _ ‹_› ‹_› ‹_›
        · cases h
      · cases h
  | tick now =>
      simp only [stepLive] at h
      split at h <;> cases h
      exact .tick now ‹_ ∧ _›.1
  | quit =>
      simp only [stepLive] at h
      split at h <;> cases h
      exact .quit ‹_ ∧ _›.1
  | stop =>
      simp only [stepLive] at h
      split at h
      · cases h; exact .same
      · split at h <;> cases h
        · exact .stop _ (eq_false_of_ne_true ‹_›) ‹_›
        · exact .panic _ (eq_false_of_ne_true ‹_›) ‹_›
  | stopReturn =>
      simp only [stepLive] at h
      split at h <;> cases h
      exact .stopReturn ‹_ ∧ _›.1

/-! ## Every line but the last -/

/-- The invariant behind `written_all_but_last`: `txtQ` holds the accepted lines not yet
written, at most one of them, and the lines accepted before `Stop` stay a prefix. -/
structure LinesInv (w : FileWriter) : Prop where
  queue : w.written ++ w.txtQ = w.accepted
  cap : w.txtQ.length ≤ 1
  atStop : w.stopCall ≠ .notCalled → w.acceptedAtStop <+: w.accepted

theorem init_linesInv (cfg : WriterConfig) (disk : GoMap String (List UInt8)) (now : String) :
    LinesInv (newFileWriter cfg disk now) :=
  ⟨rfl, Nat.zero_le _, fun h => absurd rfl h⟩

theorem step_linesInv {cfg : WriterConfig} {w w' : FileWriter} {e : WriterEvent} (hi : LinesInv w)
    (h : step cfg w e = some w') : LinesInv w' := by
  cases step_moves h with
  | same => exact hi
  | line txt hlen =>
      refine ⟨by rw [← List.append_assoc, hi.queue], ?_, fun hs => (hi.atStop hs).trans (List.prefix_append _ _)⟩
      simp only [List.length_append, List.length_singleton]
      omega
  | write _ hq | writePanic _ hq =>
      have hcap := hi.cap
      simp only [hq, List.length_cons] at hcap
      exact ⟨by simp [← hi.queue, hq], Nat.le_of_lt hcap, hi.atStop⟩
  | stop _ _ _ => exact ⟨hi.queue, hi.cap, fun _ => List.prefix_refl _⟩
  | stopReturn hs => exact ⟨hi.queue, hi.cap, fun _ => hi.atStop (by rw [hs]; decide)⟩
  | _ => exact ⟨hi.queue, hi.cap, hi.atStop⟩

theorem linesInv_of_reachable {cfg : WriterConfig} {disk : GoMap String (List UInt8)} {now : String}
    {w : FileWriter} (h : Reachable cfg disk now w) : LinesInv w :=
  Trace.ReachableUnder.inv _ (init_linesInv cfg disk now) (fun _ _ _ _ hs hi => step_linesInv hi hs) h

/-- When `Stop` returns, every line accepted before it was called has been written,
except possibly the last; and the written lines are the accepted ones, in order. -/
theorem written_all_but_last (cfg : WriterConfig) (disk : GoMap String (List UInt8)) (now : String)
    (w : FileWriter) (h : Reachable cfg disk now w) (hret : w.stopCall = .returned) :
    w.acceptedAtStop.dropLast <+: w.written ∧ w.written <+: w.accepted := by
  have hi := linesInv_of_reachable h
  have hstop := hi.atStop (by rw [hret]; decide)
  rw [← hi.queue] at hstop ⊢
  refine ⟨List.prefix_of_prefix_length_le ((List.dropLast_prefix _).trans hstop) (List.prefix_append _ _) ?_,
    List.prefix_append _ _⟩
  have := hstop.length_le
  have := hi.cap
  simp only [List.length_dropLast, List.length_append] at *
  omega

end FileWriter

end PassiveBitcoin
