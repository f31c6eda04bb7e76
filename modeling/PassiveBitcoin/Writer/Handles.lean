/-
# PassiveBitcoin.Writer.Handles — the files the writer keeps open

The writer is meant to own one open file, its current log `w.file`. `compressLog`
opens `<name>.out` with `os.Create`, copies the old file into it through the
compressor's writer and returns without closing the output (the compressor's writer
over it is not closed either): every rotation that has an old file to compress leaves
one more handle open. This module counts the handles:

* `compressLog_handles` — `compressLog` opens the output and closes nothing;
* `rotateLog_filesOk` — a rotation opens the new file and, through `compressLog`, the
  output, and closes the old file: one handle more for one more created file, and the
  new file current and open;
* `handles_of_reachable` — over every run, while `goWriter` runs, the writer holds
  exactly as many open handles as `rotateLog` has created files;
* `rotation_leaks_output_handle` — so from the first rotation on it holds more than
  its current file: after one expiry of the file timer, two handles.
-/
import PassiveBitcoin.Writer.FileWriter

namespace PassiveBitcoin

set_option autoImplicit false

open FileSystem

namespace LogFiles

/-- `compressLog` on an open handle opens one handle, numbered `nextFd`, and closes none. -/
theorem compressLog_handles (cfg : WriterConfig) {fs : FileSystem} {fd : Nat} (hfd : fd ∈ fs.handles) :
    (∀ k, k ∈ (compressLog cfg fs fd).handles ↔ k = fs.nextFd ∨ k ∈ fs.handles) ∧
      (compressLog cfg fs fd).handles.len = fs.handles.len + 1 := by
  have hseek := sameHandles_seekStart fs fd
  -- the output's handle is the only one the copy leaves besides those it found
  have hcopy : SameHandles ((fs.seekStart fd).create (fs.name fd ++ ".out")).1 (compressLog cfg fs fd) := by
    rw [compressLog, if_pos hfd]
    exact (sameHandles_readRest _ _).trans (sameHandles_write _ _ _)
  refine ⟨fun k => ?_, ?_⟩
  · rw [hcopy.mem, mem_handles_create, hseek.nextFd, hseek.mem]
  · rw [hcopy.len, len_handles_create, hseek.len]

/-- What the writer's files are meant to be: the current file is open, and there are
as many open handles as created files. -/
structure FilesOk (lf : LogFiles) : Prop where
  count : lf.fs.handles.len = lf.created.length
  current : ∃ fd, lf.file = some fd ∧ fd ∈ lf.fs.handles

/-- A rotation from files whose handles number the created files, with the current
file open if there is one, leaves its new file current and open and one handle more. -/
theorem rotateLog_filesOk (cfg : WriterConfig) (lf : LogFiles) (now : String)
    (hcount : lf.fs.handles.len = lf.created.length) (hfile : ∀ fd, lf.file = some fd → fd ∈ lf.fs.handles) :
    FilesOk (rotateLog cfg lf now) := by
  have hw := sameHandles_write (lf.fs.create (cfg.filePath ++ now ++ ".txt")).1 lf.fs.nextFd (bytesOf header)
  have hnew : lf.fs.nextFd ∈ ((lf.fs.create (cfg.filePath ++ now ++ ".txt")).1.write lf.fs.nextFd
      (bytesOf header)).handles := (hw.mem _).mpr ((mem_handles_create _ _).mpr (.inl rfl))
  have hlen := hw.len.trans (len_handles_create lf.fs (cfg.filePath ++ now ++ ".txt"))
  cases hf : lf.file with
  | none =>
      simp only [rotateLog, hf, create_snd]
      exact ⟨by simp [hlen, hcount], _, rfl, hnew⟩
  | some old =>
      have hold := (hw.mem old).mpr ((mem_handles_create _ _).mpr (.inr (hfile old hf)))
      obtain ⟨hmem, hlen'⟩ := compressLog_handles cfg hold
      have hclose := len_handles_close ((hmem old).mpr (.inr hold))
      have hne : lf.fs.nextFd ≠ old := Nat.ne_of_gt (lf.fs.handles_lt old (hfile old hf))
      simp only [rotateLog, hf, create_snd]
      refine ⟨by simp only [List.length_append, List.length_singleton]; omega, _, rfl, ?_⟩
      exact (mem_handles_close _ _).mpr ⟨hne, (hmem _).mpr (.inr hnew)⟩

theorem FilesOk.rotateLog {lf : LogFiles} (h : FilesOk lf) (cfg : WriterConfig) (now : String) :
    FilesOk (lf.rotateLog cfg now) := by
  obtain ⟨fd, hfd, hopen⟩ := h.current
  exact rotateLog_filesOk cfg lf now h.count fun _ h' => (Option.some.inj (hfd.symm.trans h')) ▸ hopen

theorem FilesOk.writeLine {lf : LogFiles} (h : FilesOk lf) (txt : String) : FilesOk (lf.writeLine txt) := by
  obtain ⟨fd, hfd, hopen⟩ := h.current
  have hs := sameHandles_write lf.fs fd (bytesOf (txt ++ "\n"))
  simp only [LogFiles.writeLine, hfd]
  exact ⟨hs.len.trans h.count, fd, rfl, (hs.mem fd).mpr hopen⟩

theorem FilesOk.checkSize {lf lf' : LogFiles} (h : FilesOk lf) {cfg : WriterConfig} {now : String}
    (hc : checkSize cfg lf now = .ok lf') : FilesOk lf' := by
  unfold LogFiles.checkSize at hc
  split at hc
  · cases hc; exact h
  · split at hc
    · cases hc
    · split at hc <;> cases hc
      · exact h
      · exact h.rotateLog cfg now

theorem FilesOk.checkTime {lf : LogFiles} (h : FilesOk lf) (cfg : WriterConfig) (now : String) :
    FilesOk (checkTime cfg { lf with timerArmed := false } now) := by
  unfold LogFiles.checkTime
  split
  · exact ⟨h.count, h.current⟩
  · have hr := @FilesOk.rotateLog { lf with timerArmed := false } ⟨h.count, h.current⟩ cfg now
    exact ⟨hr.count, hr.current⟩

end LogFiles

namespace FileWriter

open LogFiles

/-- The handles while `goWriter` runs, and after it closed its file and returned. -/
structure HandlesInv (w : FileWriter) : Prop where
  running : w.writer = .running → FilesOk w.files
  returned : w.writer = .returned → w.files.fs.handles.len + 1 = w.files.created.length

theorem init_handlesInv (cfg : WriterConfig) (disk : GoMap String (List UInt8)) (now : String) :
    HandlesInv (newFileWriter cfg disk now) :=
  ⟨fun _ => rotateLog_filesOk cfg ⟨FileSystem.ofFiles disk, none, true, []⟩ now rfl (fun _ h => nomatch h),
    fun h => nomatch h⟩

theorem step_handlesInv {cfg : WriterConfig} {w w' : FileWriter} {e : WriterEvent} (hi : HandlesInv w)
    (h : step cfg w e = some w') : HandlesInv w' := by
  cases step_moves h with
  | write _ _ hr hc =>
      exact ⟨fun _ => ((hi.running hr).writeLine _).checkSize hc, fun h' => nomatch hr.symm.trans h'⟩
  | tick now hr => exact ⟨fun _ => (hi.running hr).checkTime cfg now, fun h' => nomatch hr.symm.trans h'⟩
  | quit hr =>
      obtain ⟨hcount, fd, hfd, hopen⟩ := hi.running hr
      refine ⟨(fun h' => nomatch h'), fun _ => ?_⟩
      simp only [hfd]
      exact (len_handles_close hopen).trans hcount
  | _ => exact ⟨hi.running, hi.returned⟩

theorem handlesInv_of_reachable {cfg : WriterConfig} {disk : GoMap String (List UInt8)} {now : String}
    {w : FileWriter} (h : Reachable cfg disk now w) : HandlesInv w :=
  Trace.ReachableUnder.inv _ (init_handlesInv cfg disk now) (fun _ _ _ _ hs hi => step_handlesInv hi hs) h

/-- While `goWriter` runs, the writer holds one open handle per file `rotateLog` has
created: its current file and the `.out` output of every rotation since. -/
theorem handles_of_reachable {cfg : WriterConfig} {disk : GoMap String (List UInt8)} {now : String}
    {w : FileWriter} (h : Reachable cfg disk now w) (hr : w.writer = .running) :
    w.files.fs.handles.len = w.files.created.length :=
  ((handlesInv_of_reachable h).running hr).count

/-- In every run the handles held while `goWriter` runs number the created files; one
expiry of the file timer rotates, and the writer holds two handles: the new file and
the old file's `.out` output. -/
theorem rotation_leaks_output_handle :
    (∀ (cfg : WriterConfig) (disk : GoMap String (List UInt8)) (now : String) (w : FileWriter),
        Reachable cfg disk now w → w.writer = .running → w.files.fs.handles.len = w.files.created.length) ∧
      ∃ w, run defaultConfig (newFileWriter defaultConfig ∅ "2016-01-01T00:00:00Z") [.tick "2016-01-01T01:00:00Z"] =
          some w ∧
        w.writer = .running ∧ w.files.file = some 1 ∧ w.files.fs.handles.len = 2 ∧
        w.files.fs.handles.get 2 = some ⟨"logs/2016-01-01T00:00:00Z.txt.out", 20⟩ :=
  ⟨fun _ _ _ _ h hr => handles_of_reachable h hr, _, rfl, rfl, rfl, by decide, by decide⟩

end FileWriter

end PassiveBitcoin
