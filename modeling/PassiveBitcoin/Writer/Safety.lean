/-
# PassiveBitcoin.Writer.Safety — no panic, no stuck `Stop`, no full file left open

What the file writer does and does not do over every run in which its file-system
calls succeed (`Writer.Faults` lets them fail): any interleaving of `Line`, any number
of `Stop` calls, and `goWriter`'s writes, timer expiries and return.

* `never_panics` — `Stop` swaps `done` before it closes `sigWriter`, so only its first
  call closes the channel; and while `goWriter` runs its file is open, so the `Stat` in
  `checkSize` succeeds. No reachable writer has panicked. (The repository's and the
  manager's `Stop` have no such guard and panic on a second `Stop` after a restart.)
* `stop_returns` — a `Stop` that has closed `sigWriter` can always return: `goWriter`
  can take the closed signal, and `wg.Wait()` then returns. `Line` has no such
  guarantee: once `goWriter` has returned with a line in `txtQ`, every later `Line`
  blocks in every continuation (`line_blocks_after_return`);
* `size_lt_fileSize` — after every write `checkSize` rotates a file that reached
  `fileSize`, and a rotation leaves the header alone in the new file: once the limit
  exceeds the header, the file open as `w.file` always holds fewer than `fileSize`
  bytes.
-/
import PassiveBitcoin.Writer.Durability

namespace PassiveBitcoin

set_option autoImplicit false

open FileSystem

namespace LogFiles

/-- What `checkSize` reads of the current file is below the limit. -/
def SizeBelow (cfg : WriterConfig) (lf : LogFiles) : Prop :=
  ∀ fd n, lf.file = some fd → lf.fs.stat fd = some n → n < cfg.fileSize

section

variable {cfg : WriterConfig} (hlim : (bytesOf header).length < cfg.fileSize)
include hlim

theorem sizeBelow_rotateLog (lf : LogFiles) (now : String) (hfile : ∀ fd, lf.file = some fd → fd ∈ lf.fs.handles) :
    SizeBelow cfg (lf.rotateLog cfg now) := by
  intro fd n hfd hn
  obtain ⟨hcur, hget, hc⟩ := rotateLog_current cfg lf now hfile
  cases hcur.symm.trans hfd
  simp only [stat, hget, hc, Option.map_some', Option.some.injEq] at hn
  exact hn ▸ hlim

/-- `checkSize` keeps a file below the limit and rotates one that reached it. -/
theorem sizeBelow_checkSize {lf lf' : LogFiles} (hok : FilesOk lf) {now : String}
    (h : checkSize cfg lf now = .ok lf') : SizeBelow cfg lf' := by
  unfold checkSize at h
  split at h
  · omega
  split at h
  · cases h
  next size hsize =>
    split at h <;> cases h
    · intro fd n hfd hn
      rw [hfd, Option.some_bind, hn, Option.some.injEq] at hsize
      omega
    · exact sizeBelow_rotateLog hlim lf now (mem_handles_of_open hok.current)

end

end LogFiles

namespace FileWriter

open LogFiles

/-! ## No panic -/

/-- `done` tells exactly whether `sigWriter` is closed, nothing has panicked, a called
`Stop` has set `done`, and `goWriter` was launched. -/
structure Calm (w : FileWriter) : Prop where
  signal : w.sigWriter.closed = w.done
  calm : w.panicked = none
  stopped : w.stopCall ≠ .notCalled → w.done = true
  launched : w.writer ≠ .notLaunched

theorem step_calm {cfg : WriterConfig} {w w' : FileWriter} {e : WriterEvent} (hi : HandlesInv w) (hc : Calm w)
    (h : step cfg w e = some w') : Calm w' := by
  have hopen : w.sigWriter.closed = false → w.sigWriter.close = .ok ⟨true⟩ := fun h' => by
    rw [Signal.close, if_neg (by rw [h']; decide)]
  cases step_moves h with
  | writePanic p _ hr hcs => exact absurd hcs (checkSize_ne_error cfg _ ((hi.running hr).writeLine _).current p)
  | stop sig hd hclose =>
      cases hclose.symm.trans (hopen (hc.signal.trans hd))
      exact ⟨rfl, hc.calm, fun _ => rfl, hc.launched⟩
  | panic p hd hclose => nomatch hclose.symm.trans (hopen (hc.signal.trans hd))
  | quit _ => exact ⟨hc.signal, hc.calm, hc.stopped, nofun⟩
  | stopReturn hs => exact ⟨hc.signal, hc.calm, fun _ => hc.stopped (by rw [hs]; nofun), hc.launched⟩
  | _ => exact ⟨hc.signal, hc.calm, hc.stopped, hc.launched⟩

theorem calm_of_reachable {cfg : WriterConfig} {disk : GoMap String (List UInt8)} {now : String} {w : FileWriter}
    (h : Reachable cfg disk now w) : HandlesInv w ∧ Calm w :=
  Trace.ReachableUnder.inv (fun w => HandlesInv w ∧ Calm w) ⟨init_handlesInv cfg disk now, rfl, rfl, nofun, nofun⟩
    (fun _ _ _ _ hs hi => ⟨step_handlesInv hi.1 hs, step_calm hi.1 hi.2 hs⟩) h

/-- However `Line`, `Stop` (called any number of times) and `goWriter` interleave, the
writer never panics: neither at `close(sigWriter)` nor at the `Stat` in `checkSize`. -/
theorem never_panics (cfg : WriterConfig) (disk : GoMap String (List UInt8)) (now : String) (w : FileWriter)
    (h : Reachable cfg disk now w) : w.panicked = none :=
  (calm_of_reachable h).2.calm

/-- `Stop` three times, around a write and `goWriter`'s return. -/
theorem no_panic_on_repeated_stop :
    ∃ w, run defaultConfig (newFileWriter defaultConfig ∅ "2016-01-01T00:00:00Z")
        [.line "a", .stop, .stop, .take "2016-01-01T00:00:00Z", .quit, .stopReturn, .stop] = some w ∧
      w.stopCall = .returned ∧ w.panicked = none := by
  refine ⟨_, (Option.some_get ?h).symm, ?ret, never_panics _ _ _ _ (Trace.reachable_run_get _ ?h)⟩
  all_goals decide

/-! ## `Stop` returns; a `Line` after it can hang -/

/-- A `Stop` that has closed `sigWriter` can always return: `goWriter`'s select can take
the closed signal, after which `wg.Wait()` returns. -/
theorem stop_returns (cfg : WriterConfig) (disk : GoMap String (List UInt8)) (now : String) (w : FileWriter)
    (h : Reachable cfg disk now w) (hw : w.stopCall = .waiting) :
    ∃ w', run cfg w (if w.writer = .running then [.quit, .stopReturn] else [.stopReturn]) = some w' ∧
      w'.stopCall = .returned := by
  obtain ⟨-, hc⟩ := calm_of_reachable h
  have hclosed : w.sigWriter.closed = true := hc.signal.trans (hc.stopped (by rw [hw]; nofun))
  cases hr : w.writer with
  | notLaunched => exact absurd hr hc.launched
  | running => exact ⟨_, by simp [step, stepLive, hc.calm, hr, hclosed, hw]; rfl, by rfl⟩
  | returned => exact ⟨_, by simp [step, stepLive, hc.calm, hr, hw]; rfl, by rfl⟩

/-- `Line`, at the start of a `Stop` that returns. -/
theorem stop_returns_after_line :
    ∃ w, run defaultConfig (newFileWriter defaultConfig ∅ "2016-01-01T00:00:00Z") [.line "a", .stop] = some w ∧
      w.stopCall = .waiting ∧
      ∃ w', run defaultConfig w (if w.writer = .running then [.quit, .stopReturn] else [.stopReturn]) = some w' ∧
        w'.stopCall = .returned := by
  refine ⟨_, (Option.some_get ?h).symm, ?w, stop_returns _ _ _ _ (Trace.reachable_run_get _ ?h) ?w⟩
  all_goals decide

/-- Once `goWriter` has returned, nothing receives from `txtQ`. -/
theorem step_returned_queued {cfg : WriterConfig} {w w' : FileWriter} {e : WriterEvent} (h : step cfg w e = some w')
    (hr : w.writer = .returned) (hq : w.txtQ ≠ []) : w'.writer = .returned ∧ w'.txtQ ≠ [] := by
  cases step_moves h with
  | line _ _ => exact ⟨hr, by simp⟩
  | write _ _ hr' _ | writePanic _ _ hr' _ | tick _ hr' | quit hr' => nomatch hr.symm.trans hr'
  | _ => exact ⟨hr, hq⟩

/-- Once `goWriter` has returned with a line left in `txtQ`, `Line` blocks in every
continuation: the buffer of one is full and nothing receives from it. -/
theorem line_blocks_after_return (cfg : WriterConfig) {w : FileWriter} (hr : w.writer = .returned)
    (hq : w.txtQ ≠ []) (es : List WriterEvent) {w' : FileWriter} (hrun : run cfg w es = some w') (txt : String) :
    step cfg w' (.line txt) = none := by
  obtain ⟨-, hq'⟩ := Trace.run_inv (fun w => w.writer = .returned ∧ w.txtQ ≠ [])
    (fun _ _ _ hs hi => step_returned_queued hs hi.1 hi.2) es hrun ⟨hr, hq⟩
  unfold step
  split
  · rfl
  · rw [stepLive, if_neg (by cases h : w'.txtQ <;> simp_all)]

/-- After `Stop` has returned, one `Line` fills `txtQ`, and every later one blocks. -/
theorem line_hangs_after_stop :
    ∃ w, run defaultConfig (newFileWriter defaultConfig ∅ "2016-01-01T00:00:00Z")
        [.stop, .quit, .stopReturn, .line "a"] = some w ∧ w.writer = .returned ∧ w.txtQ ≠ [] ∧
      ∀ es w', run defaultConfig w es = some w' → step defaultConfig w' (.line "b") = none := by
  refine ⟨_, (Option.some_get ?h).symm, ?r, ?q,
    fun es _ hrun => line_blocks_after_return defaultConfig ?r ?q es hrun "b"⟩
  all_goals decide

/-! ## The size limit -/

theorem step_sizeBelow {cfg : WriterConfig} {w w' : FileWriter} {e : WriterEvent}
    (hlim : (bytesOf header).length < cfg.fileSize) (hi : HandlesInv w) (hs : SizeBelow cfg w.files)
    (h : step cfg w e = some w') : SizeBelow cfg w'.files := by
  cases step_moves h with
  | write _ _ hr hc => exact sizeBelow_checkSize hlim ((hi.running hr).writeLine _) hc
  | tick now hr =>
      rcases checkTime_cases cfg w.files now with hct | hct <;> simp only [hct]
      · exact hs
      · exact sizeBelow_rotateLog hlim w.files now (mem_handles_of_open (hi.running hr).current)
  | quit _ =>
      intro fd n hfd hn
      change w.files.file = some fd at hfd
      simp only [hfd, stat, FileSystem.close, GoMap.get_delete_self, Option.map_none'] at hn
      cases hn
  | _ => exact hs

/-- Once `fileSize` exceeds the header, in every run the file open as `w.file` is
below the limit: `Stat` on it reports fewer than `fileSize` bytes. -/
theorem size_lt_fileSize (cfg : WriterConfig) (disk : GoMap String (List UInt8)) (now : String) (w : FileWriter)
    (hlim : (bytesOf header).length < cfg.fileSize) (h : Reachable cfg disk now w) {fd n : Nat}
    (hfd : w.files.file = some fd) (hn : w.files.fs.stat fd = some n) : n < cfg.fileSize :=
  (Trace.ReachableUnder.inv (fun w => HandlesInv w ∧ SizeBelow cfg w.files)
    ⟨init_handlesInv cfg disk now, sizeBelow_rotateLog hlim _ now fun _ h' => nomatch h'⟩
    (fun _ _ _ _ hs hi => ⟨step_handlesInv hi.1 hs, step_sizeBelow hlim hi.1 hi.2 hs⟩) h).2 fd n hfd hn

/-- A 24-byte limit: the first line leaves 22 bytes, the second reaches 24 and rotates,
and the new file holds the 20-byte header. -/
theorem size_below_after_rotation :
    let cfg : WriterConfig := { defaultConfig with fileSize := 24 }
    ∃ w, run cfg (newFileWriter cfg ∅ "2016-01-01T00:00:00Z")
        [.line "a", .take "2016-01-01T00:00:00Z", .line "b", .take "2016-01-01T00:00:01Z"] = some w ∧
      (bytesOf header).length < cfg.fileSize ∧ w.files.file = some 1 ∧ w.files.fs.stat 1 = some 20 ∧
      20 < cfg.fileSize := by
  intro cfg
  refine ⟨_, (Option.some_get ?h).symm, ?lim, ?file, ?stat,
    size_lt_fileSize cfg ∅ _ _ ?lim (Trace.reachable_run_get _ ?h) ?file ?stat⟩
  all_goals decide

end FileWriter

end PassiveBitcoin
