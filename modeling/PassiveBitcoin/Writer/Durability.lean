/-
# PassiveBitcoin.Writer.Durability — no line is lost while file names are fresh

`same_second_rotation_loses_line` shows a line lost when `rotateLog` creates the name
of the file still open. This module shows that this is the only way a line is lost.
In every run in which `rotateLog` never creates a name twice, the `.txt` files it
created hold, in order, the version header and consecutive segments of the lines
`goWriter` wrote, which together are exactly those lines; and each file it rotated
away from has a `.out` copy holding the compression of the whole file.

`Segmented` is that state of the files, with the current file open at its end.
`goWriter`'s write appends to the current segment (`Segmented.writeLine`), a rotation
to a fresh name closes it and starts an empty one (`Segmented.rotateLog`), and every
other step leaves the files' contents alone. `lines_kept_of_fresh_names` is the
result over every run, from the step lemma `step_durable` and the handle invariant of
`Writer.Handles`, which keeps the current file open while `goWriter` runs.

`accepted_in_files_at_stop` reads `written_all_but_last` off the files: when `Stop`
returns, the files hold every line accepted before it was called but possibly the
last. Every file-system call succeeds here; `Writer.Faults` lets them fail.
-/
import PassiveBitcoin.Writer.Handles

namespace PassiveBitcoin

set_option autoImplicit false

open FileSystem

/-- What a log file written with `lines` holds: the version header, then each line with
its newline. -/
def logBytes (lines : List String) : List UInt8 :=
  bytesOf header ++ (lines.map fun txt => bytesOf (txt ++ "\n")).flatten

theorem logBytes_append (lines : List String) (txt : String) :
    logBytes (lines ++ [txt]) = logBytes lines ++ bytesOf (txt ++ "\n") := by
  simp [logBytes]

@[simp] theorem logBytes_nil : logBytes [] = bytesOf header := by simp [logBytes]

theorem out_inj {n m : String} (h : n ++ ".out" = m ++ ".out") : n = m :=
  String.ext (List.append_cancel_right (congrArg String.data h))

theorem forall₂_imp_of_mem {α β : Type} {R S : α → β → Prop} {l : List α} {u : List β}
    (h : List.Forall₂ R l u) (himp : ∀ a ∈ l, ∀ b, R a b → S a b) : List.Forall₂ S l u :=
  ((List.forall₂_and_left l u).mpr ⟨fun _ ha => ha, h⟩).imp fun a b hab => himp a hab.1 b hab.2

theorem nodup_concat_iff {α : Type} {l : List α} {a : α} : (l ++ [a]).Nodup ↔ a ∉ l ∧ l.Nodup :=
  List.nodup_append_comm.trans List.nodup_cons

namespace LogFiles

/-- `compressLog` touches no handle but the file's own and the output it opens. -/
theorem get_handles_compressLog (cfg : WriterConfig) {fs : FileSystem} {fd k : Nat} (hk : k ≠ fd)
    (hnext : k ≠ fs.nextFd) : (compressLog cfg fs fd).handles.get k = fs.handles.get k := by
  unfold compressLog
  split
  · rw [get_handles_write_ne _ _ (by simpa using hnext), get_handles_readRest_ne _ hk, get_handles_create,
      if_neg (by simpa using hnext), get_handles_seekStart_ne _ hk]
  · rfl

theorem mem_handles_of_open {lf : LogFiles} (h : ∃ fd, lf.file = some fd ∧ fd ∈ lf.fs.handles) :
    ∀ fd, lf.file = some fd → fd ∈ lf.fs.handles := by
  obtain ⟨fd, hfd, hmem⟩ := h
  exact fun _ h' => Option.some.inj (hfd.symm.trans h') ▸ hmem

/-- A rotation from an open current file, or from none, makes the new file current: open
on its name at the end of the header, which is all it holds. -/
theorem rotateLog_current (cfg : WriterConfig) (lf : LogFiles) (now : String)
    (hfile : ∀ fd, lf.file = some fd → fd ∈ lf.fs.handles) :
    (lf.rotateLog cfg now).file = some lf.fs.nextFd ∧
      (lf.rotateLog cfg now).fs.handles.get lf.fs.nextFd =
        some ⟨cfg.filePath ++ now ++ ".txt", (bytesOf header).length⟩ ∧
      (lf.rotateLog cfg now).fs.content (cfg.filePath ++ now ++ ".txt") = bytesOf header := by
  have hnew : (lf.fs.create (cfg.filePath ++ now ++ ".txt")).1.handles.get lf.fs.nextFd =
      some ⟨cfg.filePath ++ now ++ ".txt", 0⟩ := by
    rw [get_handles_create, if_pos rfl]
  -- the new file with its header, before the old one is compressed and closed
  have hh : ((lf.fs.create (cfg.filePath ++ now ++ ".txt")).1.write lf.fs.nextFd (bytesOf header)).handles.get
      lf.fs.nextFd = some ⟨cfg.filePath ++ now ++ ".txt", (bytesOf header).length⟩ := by
    rw [get_handles_write hnew, if_pos rfl, Nat.zero_add]
  have hc : ((lf.fs.create (cfg.filePath ++ now ++ ".txt")).1.write lf.fs.nextFd (bytesOf header)).content
      (cfg.filePath ++ now ++ ".txt") = bytesOf header := by
    rw [content_write hnew, if_pos rfl, content_create, if_pos rfl, writeAt_nil]
  cases hf : lf.file with
  | none =>
      refine ⟨rfl, ?_, ?_⟩ <;> simp only [rotateLog, hf, create_snd]
      exacts [hh, hc]
  | some old =>
      obtain ⟨o, ho⟩ := Option.isSome_iff_exists.mp (GoMap.mem_iff_get.mp (hfile old hf))
      have hlt : old < lf.fs.nextFd := lf.fs.handles_lt old (hfile old hf)
      refine ⟨rfl, ?_, ?_⟩
      · simp only [rotateLog, hf, create_snd]
        rw [FileSystem.close, GoMap.get_delete_ne _ (Nat.ne_of_gt hlt),
          get_handles_compressLog cfg (Nat.ne_of_gt hlt)
            (by rw [(sameHandles_write _ _ _).nextFd, nextFd_create]; omega), hh]
      · simp [content_rotateLog cfg lf now hf ho, txt_ne_out]

/-- The handle a rotation makes current is on the new file, at the end of its header. -/
theorem rotateLog_handle (cfg : WriterConfig) (lf : LogFiles) (now : String)
    (hfile : ∀ fd, lf.file = some fd → fd ∈ lf.fs.handles) {fd : Nat} {o : OpenFile}
    (hfd : (lf.rotateLog cfg now).file = some fd) (ho : (lf.rotateLog cfg now).fs.handles.get fd = some o) :
    o = ⟨cfg.filePath ++ now ++ ".txt", (logBytes []).length⟩ := by
  obtain ⟨hcur, hget, -⟩ := rotateLog_current cfg lf now hfile
  cases hcur.symm.trans hfd
  rw [hget, Option.some.injEq] at ho
  rw [← ho, logBytes_nil]

/-- The files while `goWriter` writes to `name`: those rotated away from, `old`, each
hold the header and their segment of `done`, and their `.out` copies its compression;
`name` holds the header and the lines `cur` written since, and the current handle,
while open, is on `name` at its end. -/
structure Segmented (cfg : WriterConfig) (lf : LogFiles) (old : List String) (name : String)
    (done : List (List String)) (cur : List String) : Prop where
  created : lf.created = old ++ [name]
  nodup : lf.created.Nodup
  txt : ∀ n ∈ lf.created, ∃ p, n = p ++ ".txt"
  rotated : List.Forall₂ (fun n seg => lf.fs.content n = logBytes seg ∧
    lf.fs.content (n ++ ".out") = cfg.compress (logBytes seg)) old done
  current : lf.fs.content name = logBytes cur
  handle : ∀ fd o, lf.file = some fd → lf.fs.handles.get fd = some o → o = ⟨name, (logBytes cur).length⟩

section

variable {cfg : WriterConfig} {lf : LogFiles} {old : List String} {name : String}
  {done : List (List String)} {cur : List String}

theorem Segmented.ne_of_mem_old (h : Segmented cfg lf old name done cur) {n : String} (hn : n ∈ old) :
    n ≠ name := by
  have hnd := h.created ▸ h.nodup
  rintro rfl
  exact (List.nodup_append.mp hnd).2.2 hn (List.mem_singleton_self _)

/-- No created file is an `.out` copy. -/
theorem Segmented.ne_out (h : Segmented cfg lf old name done cur) {n : String} (hn : n ∈ lf.created)
    (m : String) : n ≠ m ++ ".out" := by
  obtain ⟨p, rfl⟩ := h.txt n hn
  exact txt_ne_out p m

/-- `goWriter`'s write of a line on the open current file appends it to the current
segment. -/
theorem Segmented.writeLine (h : Segmented cfg lf old name done cur)
    (hopen : ∃ fd, lf.file = some fd ∧ fd ∈ lf.fs.handles) (txt : String) :
    Segmented cfg (lf.writeLine txt) old name done (cur ++ [txt]) := by
  obtain ⟨fd, hfd, hmem⟩ := hopen
  obtain ⟨o, ho⟩ := Option.isSome_iff_exists.mp (GoMap.mem_iff_get.mp hmem)
  obtain rfl := h.handle fd o hfd ho
  have hname : name ∈ lf.created := h.created ▸ List.mem_append_right _ (List.mem_singleton_self _)
  have hw : lf.writeLine txt = { lf with fs := lf.fs.write fd (bytesOf (txt ++ "\n")) } := by
    simp only [LogFiles.writeLine, hfd]
  -- the write changes the current file alone, appending the line
  have hcontent : ∀ n, (lf.fs.write fd (bytesOf (txt ++ "\n"))).content n =
      if n = name then logBytes (cur ++ [txt]) else lf.fs.content n := by
    intro n
    rw [content_write ho, h.current, writeAt_length, ← logBytes_append]
  rw [hw]
  refine ⟨h.created, h.nodup, h.txt, forall₂_imp_of_mem h.rotated fun n hn seg hseg => ?_, ?_, ?_⟩
  · rw [hcontent, hcontent, if_neg (h.ne_of_mem_old hn), if_neg (h.ne_out hname n).symm]
    exact hseg
  · rw [hcontent, if_pos rfl]
  · intro fd' o' hfd' ho'
    cases hfd.symm.trans hfd'
    rw [get_handles_write ho, if_pos rfl, Option.some.injEq] at ho'
    rw [← ho', logBytes_append, List.length_append]

/-- A rotation to a name no file was created under ends the current segment, the old
file keeping it and its `.out` copy its compression, and starts an empty one in the
new file. -/
theorem Segmented.rotateLog (h : Segmented cfg lf old name done cur)
    (hopen : ∃ fd, lf.file = some fd ∧ fd ∈ lf.fs.handles) (now : String)
    (hfresh : cfg.filePath ++ now ++ ".txt" ∉ lf.created) :
    Segmented cfg (lf.rotateLog cfg now) (old ++ [name]) (cfg.filePath ++ now ++ ".txt") (done ++ [cur]) [] := by
  obtain ⟨fd, hfd, hmem⟩ := hopen
  obtain ⟨o, ho⟩ := Option.isSome_iff_exists.mp (GoMap.mem_iff_get.mp hmem)
  obtain rfl := h.handle fd o hfd ho
  have hname : name ∈ lf.created := h.created ▸ List.mem_append_right _ (List.mem_singleton_self _)
  have hnew : name ≠ cfg.filePath ++ now ++ ".txt" := fun he => hfresh (he ▸ hname)
  -- the disk after the rotation: the old file's `.out` copy and the new file
  have hc : ∀ n, (lf.rotateLog cfg now).fs.content n =
      if n = name ++ ".out" then cfg.compress (lf.fs.content name)
      else if n = cfg.filePath ++ now ++ ".txt" then bytesOf header else lf.fs.content n := by
    intro n
    have := content_rotateLog cfg lf now hfd ho n
    simp only [if_neg hnew] at this
    exact this
  -- a created file, old or current, keeps its content
  have hkeep : ∀ n ∈ lf.created, (lf.rotateLog cfg now).fs.content n = lf.fs.content n := fun n hn => by
    rw [hc, if_neg (h.ne_out hn name), if_neg (ne_of_mem_of_not_mem hn hfresh)]
  have hcreated : (lf.rotateLog cfg now).created = lf.created ++ [cfg.filePath ++ now ++ ".txt"] := rfl
  refine ⟨by rw [hcreated, h.created], ?_, ?_, List.rel_append ?_ (.cons ?_ .nil), ?_, ?_⟩
  · exact hcreated ▸ nodup_concat_iff.mpr ⟨hfresh, h.nodup⟩
  · intro n hn
    rcases List.mem_append.mp (hcreated ▸ hn) with hn | hn
    · exact h.txt n hn
    · exact ⟨_, List.mem_singleton.mp hn⟩
  · refine forall₂_imp_of_mem h.rotated fun n hn seg hseg => ?_
    have hn' : n ∈ lf.created := h.created ▸ List.mem_append_left _ hn
    rw [hkeep n hn', hc, if_neg fun he => h.ne_of_mem_old hn (out_inj he),
      if_neg (Ne.symm (txt_ne_out _ n))]
    exact hseg
  · rw [hkeep name hname, hc, if_pos rfl, h.current]
    exact ⟨rfl, rfl⟩
  · rw [hc, if_neg (txt_ne_out _ name), if_pos rfl, logBytes_nil]
  · exact fun _ _ => rotateLog_handle cfg lf now (mem_handles_of_open ⟨fd, hfd, hmem⟩)

/-- The timer does not matter to the files. -/
theorem Segmented.timerArmed (h : Segmented cfg lf old name done cur) (b : Bool) :
    Segmented cfg { lf with timerArmed := b } old name done cur :=
  ⟨h.created, h.nodup, h.txt, h.rotated, h.current, h.handle⟩

/-- `goWriter`'s final `Close` changes no content. -/
theorem Segmented.close (h : Segmented cfg lf old name done cur) :
    Segmented cfg { lf with fs := match lf.file with
                                  | some fd => lf.fs.close fd
                                  | none => lf.fs } old name done cur := by
  split
  · next fd hfd =>
      refine ⟨h.created, h.nodup, h.txt, h.rotated, h.current, fun fd' o hfd' ho => ?_⟩
      cases hfd.symm.trans hfd'
      simp [FileSystem.close] at ho
  · exact h

end

theorem writeLine_created (lf : LogFiles) (txt : String) : (lf.writeLine txt).created = lf.created := by
  unfold LogFiles.writeLine
  split <;> rfl

/-- `checkTime` keeps the files or rotates them. -/
theorem checkTime_cases (cfg : WriterConfig) (lf : LogFiles) (now : String) :
    checkTime cfg { lf with timerArmed := false } now = { lf with timerArmed := false } ∨
      checkTime cfg { lf with timerArmed := false } now = { lf.rotateLog cfg now with timerArmed := true } := by
  unfold LogFiles.checkTime
  split
  · exact .inl rfl
  · exact .inr rfl

/-- `checkSize` keeps the files or rotates them. -/
theorem checkSize_eq_ok {cfg : WriterConfig} {lf lf' : LogFiles} {now : String} (h : checkSize cfg lf now = .ok lf') :
    lf' = lf ∨ lf' = lf.rotateLog cfg now := by
  unfold LogFiles.checkSize at h
  split at h
  · cases h; exact .inl rfl
  · split at h
    · cases h
    · split at h <;> cases h
      · exact .inl rfl
      · exact .inr rfl

/-- `Stat` of an open file succeeds, so `checkSize` does not panic. -/
theorem checkSize_ne_error (cfg : WriterConfig) {lf : LogFiles} (now : String)
    (hopen : ∃ fd, lf.file = some fd ∧ fd ∈ lf.fs.handles) (p : GoPanic) : checkSize cfg lf now ≠ .error p := by
  obtain ⟨fd, hfd, hmem⟩ := hopen
  obtain ⟨o, ho⟩ := Option.isSome_iff_exists.mp (GoMap.mem_iff_get.mp hmem)
  unfold LogFiles.checkSize
  split
  · nofun
  · simp only [hfd, Option.some_bind, FileSystem.stat, ho, Option.map_some']
    split <;> nofun

end LogFiles

namespace FileWriter

open LogFiles

/-- While `rotateLog` has created no name twice, the files hold the written lines in
segments. -/
def Durable (cfg : WriterConfig) (w : FileWriter) : Prop :=
  w.files.created.Nodup →
    ∃ old name done cur, Segmented cfg w.files old name done cur ∧ done.flatten ++ cur = w.written

theorem init_durable (cfg : WriterConfig) (disk : GoMap String (List UInt8)) (now : String) :
    Durable cfg (newFileWriter cfg disk now) := by
  intro _
  have hfile : ∀ fd, (⟨FileSystem.ofFiles disk, none, true, []⟩ : LogFiles).file = some fd →
      fd ∈ (FileSystem.ofFiles disk).handles := fun _ h => nomatch h
  refine ⟨[], cfg.filePath ++ now ++ ".txt", [], [], ⟨rfl, List.nodup_singleton _,
    fun n hn => ⟨_, List.mem_singleton.mp hn⟩, .nil, ?_, fun _ _ => rotateLog_handle cfg _ now hfile⟩, rfl⟩
  rw [logBytes_nil]
  exact (rotateLog_current cfg _ now hfile).2.2

theorem step_durable {cfg : WriterConfig} {w w' : FileWriter} {e : WriterEvent} (hi : HandlesInv w)
    (hd : Durable cfg w) (h : step cfg w e = some w') : Durable cfg w' := by
  cases step_moves h with
  | @write txt _ _ now _ hr hc =>
      intro hnd
      have hopen := (hi.running hr).current
      have hopen' := ((hi.running hr).writeLine txt).current
      rcases checkSize_eq_ok hc with rfl | rfl
      · obtain ⟨old, name, done, cur, hs, hw⟩ := hd (writeLine_created w.files txt ▸ hnd)
        exact ⟨old, name, done, _, hs.writeLine hopen txt, by rw [← List.append_assoc, hw]⟩
      · obtain ⟨hfresh, hnd⟩ := nodup_concat_iff.mp (writeLine_created w.files txt ▸ hnd :
          (w.files.created ++ [cfg.filePath ++ now ++ ".txt"]).Nodup)
        obtain ⟨old, name, done, cur, hs, hw⟩ := hd hnd
        exact ⟨_, _, _, _, (hs.writeLine hopen txt).rotateLog hopen' now (writeLine_created w.files txt ▸ hfresh),
          by simp [← hw]⟩
  | writePanic p _ hr hc => exact absurd hc (checkSize_ne_error cfg _ ((hi.running hr).writeLine _).current p)
  | tick now hr =>
      intro hnd
      rcases checkTime_cases cfg w.files now with hct | hct <;> rw [hct] at hnd ⊢
      · obtain ⟨old, name, done, cur, hs, hw⟩ := hd hnd
        exact ⟨old, name, done, cur, hs.timerArmed false, hw⟩
      · obtain ⟨hfresh, hnd⟩ := nodup_concat_iff.mp (hnd : (w.files.created ++ [cfg.filePath ++ now ++ ".txt"]).Nodup)
        obtain ⟨old, name, done, cur, hs, hw⟩ := hd hnd
        exact ⟨_, _, _, [], (hs.rotateLog (hi.running hr).current now hfresh).timerArmed true, by simp [← hw]⟩
  | quit hr =>
      intro hnd
      obtain ⟨old, name, done, cur, hs, hw⟩ := hd hnd
      exact ⟨old, name, done, cur, hs.close, hw⟩
  | _ => exact hd

/-- Over every run in which `rotateLog` never creates a name twice, the files it created
hold the header and consecutive segments of the written lines, and each file it rotated
away from a `.out` copy of all of it. -/
theorem segments_of_reachable {cfg : WriterConfig} {disk : GoMap String (List UInt8)} {now : String}
    {w : FileWriter} (h : Reachable cfg disk now w) (hfresh : w.files.created.Nodup) :
    ∃ segs : List (List String), segs.flatten = w.written ∧
      List.Forall₂ (fun n seg => w.files.fs.content n = logBytes seg) w.files.created segs ∧
      List.Forall₂ (fun n seg => w.files.fs.content (n ++ ".out") = cfg.compress (logBytes seg))
        w.files.created.dropLast segs.dropLast := by
  have hinv := Trace.ReachableUnder.inv (fun w => HandlesInv w ∧ Durable cfg w)
    ⟨init_handlesInv cfg disk now, init_durable cfg disk now⟩
    (fun _ _ _ _ hs hi => ⟨step_handlesInv hi.1 hs, step_durable hi.1 hi.2 hs⟩) h
  obtain ⟨old, name, done, cur, hs, hw⟩ := hinv.2 hfresh
  refine ⟨done ++ [cur], by simp [hw], ?_, ?_⟩
  · rw [hs.created]
    exact List.rel_append (hs.rotated.imp fun _ _ h => h.1) (.cons hs.current .nil)
  · rw [hs.created, List.dropLast_concat, List.dropLast_concat]
    exact hs.rotated.imp fun _ _ h => h.2

/-- In every run in which `rotateLog` never creates a name twice, no line is lost: the
files it created hold, in order, the header and consecutive segments of the lines
`goWriter` wrote, which together are exactly those lines, and every file it rotated
away from has a `.out` copy holding the compression of all of it. -/
theorem lines_kept_of_fresh_names (cfg : WriterConfig) (disk : GoMap String (List UInt8)) (now : String)
    (w : FileWriter) (h : Reachable cfg disk now w) (hfresh : w.files.created.Nodup) :
    ∃ segs : List (List String), segs.flatten = w.written ∧
      List.Forall₂ (fun n seg => w.files.fs.content n = logBytes seg) w.files.created segs ∧
      List.Forall₂ (fun n seg => w.files.fs.content (n ++ ".out") = cfg.compress (logBytes seg))
        w.files.created.dropLast segs.dropLast :=
  segments_of_reachable h hfresh

/-- A line in the first hour's file, a rotation an hour later, a line in the second. -/
theorem lines_kept_over_one_rotation :
    ∃ w, run defaultConfig (newFileWriter defaultConfig ∅ "2016-01-01T00:00:00Z")
        [.line "a", .take "2016-01-01T00:00:00Z", .tick "2016-01-01T01:00:00Z", .line "b",
          .take "2016-01-01T01:00:00Z"] = some w ∧
      w.written = ["a", "b"] ∧ w.files.created.Nodup ∧
      ∃ segs : List (List String), segs.flatten = w.written ∧
        List.Forall₂ (fun n seg => w.files.fs.content n = logBytes seg) w.files.created segs ∧
        List.Forall₂ (fun n seg => w.files.fs.content (n ++ ".out") = defaultConfig.compress (logBytes seg))
          w.files.created.dropLast segs.dropLast := by
  refine ⟨_, (Option.some_get ?h).symm, ?written, ?nodup,
    lines_kept_of_fresh_names _ _ _ _ (Trace.reachable_run_get _ ?h) ?nodup⟩
  all_goals decide

/-! ## The log files when `Stop` returns -/

/-- When `Stop` returns, in a run in which `rotateLog` never creates a name twice, the
files it created hold, in order, the header and consecutive segments of lines, each
line with its newline; together the segments are a prefix of the lines whose `Line`
call returned, and they hold every line accepted before `Stop` was called but
possibly the last. -/
theorem accepted_in_files_at_stop (cfg : WriterConfig) (disk : GoMap String (List UInt8)) (now : String)
    (w : FileWriter) (h : Reachable cfg disk now w) (hret : w.stopCall = .returned)
    (hfresh : w.files.created.Nodup) :
    ∃ segs : List (List String),
      List.Forall₂ (fun n seg => w.files.fs.content n = logBytes seg) w.files.created segs ∧
      w.acceptedAtStop.dropLast <+: segs.flatten ∧ segs.flatten <+: w.accepted := by
  obtain ⟨segs, hw, hfiles, -⟩ := segments_of_reachable h hfresh
  refine ⟨segs, hfiles, ?_⟩
  rw [hw]
  exact written_all_but_last cfg disk now w h hret

/-- Two lines before `Stop`, the second still in `txtQ` when `goWriter` quits: the one
log file holds the first. -/
theorem accepted_in_files_two_lines :
    ∃ w, run defaultConfig (newFileWriter defaultConfig ∅ "2016-01-01T00:00:00Z")
        [.line "a", .take "2016-01-01T00:00:00Z", .line "b", .stop, .quit, .stopReturn] = some w ∧
      w.acceptedAtStop = ["a", "b"] ∧ w.stopCall = .returned ∧ w.files.created.Nodup ∧
      ∃ segs : List (List String),
        List.Forall₂ (fun n seg => w.files.fs.content n = logBytes seg) w.files.created segs ∧
        w.acceptedAtStop.dropLast <+: segs.flatten ∧ segs.flatten <+: w.accepted := by
  refine ⟨_, (Option.some_get ?h).symm, ?acc, ?ret, ?nodup,
    accepted_in_files_at_stop _ _ _ _ (Trace.reachable_run_get _ ?h) ?ret ?nodup⟩
  all_goals decide

end FileWriter

end PassiveBitcoin
