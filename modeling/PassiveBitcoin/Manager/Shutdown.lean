/-
# PassiveBitcoin.Manager.Shutdown — `Stop` returns

`Stop` closes `sigConn`, every listener and `sigPeer`, and then waits in `wg.Wait()`
for `handleConnections`, `handlePeers` and each listener's `handleListener`. Each of
them can then leave its loop: the two handlers' selects can take their closed signal,
and a closed listener's `AcceptTCP` returns the error `handleListener` recognises.

* `Closing` — while `Stop` is under way the manager is busy, and once it waits,
  everything it closes is closed; every step keeps this (`step_closing`);
* `exit_step` — while `wg` counts a goroutine, one of them can return, which lowers
  `wg` by one;
* `stop_completes` — so from every reachable state in which `Stop` waits and nothing
  has panicked, one return per count of `wg`, then the return of `wg.Wait()`, leave the
  manager idle: `Stop` never hangs. Peers are not counted in `wg`, and none needs to
  act.
-/
import PassiveBitcoin.Manager.System

namespace PassiveBitcoin

set_option autoImplicit false

namespace Manager

/-- While `Stop` is under way the manager is busy, and once `Stop` waits, both signals
and every listener are closed. -/
structure Closing (s : ManagerState) : Prop where
  busy : s.stop ≠ .notStopping → s.state = .busy
  closed : s.stop = .waiting → s.sigConn.closed ∧ s.sigPeer.closed ∧
    ∀ key l, s.listenIndex.get key = some l → l.closed

theorem step_closing {cfg : ManagerConfig} {s s' : ManagerState} {e : ManagerEvent} (hc : Closing s)
    (h : step cfg s e = some s') : Closing s' := by
  cases step_moves h with
  | start hidle =>
      have hstop : s.stop = .notStopping := by
        by_contra hs
        nomatch hidle.symm.trans (hc.busy hs)
      exact ⟨fun hs => absurd hstop hs, fun hs => nomatch hstop.symm.trans hs⟩
  | stopPeers _ => exact ⟨fun _ => rfl, nofun⟩
  | stopSignals hpc =>
      refine ⟨fun _ => hc.busy (by rw [hpc]; nofun), fun _ => ⟨rfl, rfl, fun key l hl => ?_⟩⟩
      rw [GoMap.get_mapValues, Option.map_eq_some'] at hl
      obtain ⟨l₀, -, rfl⟩ := hl
      rfl
  | stopWait _ _ => exact ⟨fun h => absurd rfl h, nofun⟩
  | listenerExit hl _ =>
      refine ⟨hc.busy, fun hw => ?_⟩
      obtain ⟨hconn, hpeer, hls⟩ := hc.closed hw
      refine ⟨hconn, hpeer, fun key l hl' => ?_⟩
      rw [GoMap.get_set] at hl'
      split at hl'
      · cases hl'
        have := hls _ _ hl
        exact this
      · exact hls _ _ hl'
  | _ => exact ⟨hc.busy, hc.closed⟩

theorem closing_of_reachable {cfg : ManagerConfig} {s : ManagerState} (h : Reachable cfg s) : Closing s :=
  Trace.ReachableUnder.inv Closing (show Closing newManager from ⟨fun h => absurd rfl h, nofun⟩)
    (fun _ _ _ _ hs hc => step_closing hc hs) h

/-- A listener's goroutine that returns lowers `wg` by one. -/
theorem wg_listenerExit {s : ManagerState} {key : String} {l : Listener} (hl : s.listenIndex.get key = some l)
    (hh : l.handling) :
    wg { s with listenIndex := s.listenIndex.set key { l with handling := false } } + 1 = wg s := by
  have hk : key ∈ s.listenIndex.entries.keys := GoMap.mem_of_get_eq_some hl
  obtain ⟨b, l₁, l₂, -, heq, hker⟩ := List.exists_of_kerase hk
  have hb : s.listenIndex.get key = some b :=
    AList.mem_lookup_iff.mpr (heq ▸ List.mem_append_right l₁ (List.mem_cons_self _ _))
  cases hl.symm.trans hb
  simp only [wg, GoMap.set, AList.insert_entries, hker]
  rw [heq]
  simp only [List.filter_append, List.filter_cons, hh, List.length_append, List.length_cons, if_true, if_false,
    Bool.false_eq_true]
  omega

/-- While `Stop` waits and `wg` counts a goroutine, one of them can return: a handler
takes its closed signal, or a listener's handler its listener's close error. -/
theorem exit_step (cfg : ManagerConfig) {s : ManagerState} (hp : s.panicked = none) (hw : s.stop = .waiting)
    (hc : Closing s) (hpos : 0 < wg s) :
    ∃ e s', step cfg s e = some s' ∧ wg s' + 1 = wg s ∧ s'.panicked = none ∧ s'.stop = .waiting := by
  obtain ⟨hconn, hpeer, hls⟩ := hc.closed hw
  by_cases h1 : 0 < s.connHandlers
  · refine ⟨.connSignal, { s with connHandlers := s.connHandlers - 1 }, ?_, by simp only [wg]; omega, hp, hw⟩
    simp [step, stepLive, hp, h1, hconn]
  by_cases h2 : 0 < s.peerHandlers
  · refine ⟨.peerSignal, { s with peerHandlers := s.peerHandlers - 1 }, ?_, by simp only [wg]; omega, hp, hw⟩
    simp [step, stepLive, hp, h2, hpeer]
  have hlen : 0 < (s.listenIndex.entries.filter (·.2.handling)).length := by
    unfold wg at hpos
    omega
  obtain ⟨⟨key, l⟩, hmem⟩ := List.exists_mem_of_length_pos hlen
  obtain ⟨hmem, hh⟩ := List.mem_filter.mp hmem
  have hl : s.listenIndex.get key = some l := AList.mem_lookup_iff.mpr hmem
  refine ⟨.accept key (.error ⟨closedConnectionText⟩),
    { s with listenIndex := s.listenIndex.set key { l with handling := false } }, ?_,
    wg_listenerExit hl (by simpa using hh), hp, hw⟩
  have hclosed : l.closed = true := hls key l hl
  simp only at hh
  simp [step, stepLive, hp, hl, hh, hclosed, acceptPossible, acceptStep_error, Accepted.err,
    show stringsContains closedConnectionText closedConnectionText = true by decide]

/-- From a waiting `Stop` with `n` goroutines in `wg`, `n` returns and the return of
`wg.Wait()` leave the manager idle. -/
theorem exits_then_idle (cfg : ManagerConfig) :
    ∀ (n : Nat) (s : ManagerState), wg s = n → s.panicked = none → s.stop = .waiting → Closing s →
      ∃ es s', es.length = n + 1 ∧ run cfg s es = some s' ∧ s'.state = .idle ∧ s'.stop = .notStopping
  | 0, s, hn, hp, hw, _ => ⟨[.stopWait], { s with state := .idle, stop := .notStopping }, rfl,
      by simp [step, stepLive, hp, hw, hn], rfl, rfl⟩
  | n + 1, s, hn, hp, hw, hc => by
      obtain ⟨e, s₁, hstep, hwg, hp₁, hw₁⟩ := exit_step cfg hp hw hc (by omega)
      obtain ⟨es, s', hlen, hrun, hidle, hstop⟩ :=
        exits_then_idle cfg n s₁ (by omega) hp₁ hw₁ (step_closing hc hstep)
      exact ⟨e :: es, s', by simp [hlen], Trace.run_cons_eq_some.mpr ⟨s₁, hstep, hrun⟩, hidle, hstop⟩

/-- From every reachable state in which `Stop` waits in `wg.Wait()` and nothing has
panicked, `Stop` can return: one return per goroutine `wg` counts, then `wg.Wait()`,
leave the manager idle. -/
theorem stop_completes (cfg : ManagerConfig) (s : ManagerState) (h : Reachable cfg s) (hw : s.stop = .waiting)
    (hp : s.panicked = none) :
    ∃ es s', es.length = wg s + 1 ∧ run cfg s es = some s' ∧ s'.state = .idle ∧ s'.stop = .notStopping :=
  exits_then_idle cfg (wg s) s rfl hp hw (closing_of_reachable h)

/-- A `Stop` waiting for both handlers and one listener's goroutine: four steps return it. -/
theorem stop_completes_with_listener :
    let cfg : ManagerConfig := ⟨1000, 8, 8, ["10.0.0.5:8333"]⟩
    ∃ s, run cfg newManager [.start, .stopPeers, .stopSignal] = some s ∧ s.stop = .waiting ∧
      s.panicked = none ∧ wg s = 3 ∧
      ∃ es s', es.length = wg s + 1 ∧ run cfg s es = some s' ∧ s'.state = .idle ∧ s'.stop = .notStopping := by
  intro cfg
  refine ⟨_, (Option.some_get ?h).symm, ?w, ?p, ?wg,
    stop_completes cfg _ (Trace.reachable_run_get _ ?h) ?w ?p⟩
  all_goals decide

end Manager

end PassiveBitcoin
