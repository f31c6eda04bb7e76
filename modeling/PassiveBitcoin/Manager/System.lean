/-
# PassiveBitcoin.Manager.System — the manager with its goroutines

The manager is driven by `Start`, `Stop`, the connection handler `handleConnections`,
the peer handler `handlePeers`, one `handleListener` per listener, and the peers
themselves, which send themselves on `peerNew` once connected and on `peerDone` once
they shut down. `ManagerState` holds the manager record, the goroutines that run and
the position of a running `Stop`; `ManagerState.step` is one atomic action:

* `start` — `Start`: the CAS from idle, `createListeners`, launching both handlers;
* `stopPeers`, `stopSignal`, `stopWait` — the three phases of `Stop`: the CAS from
  running and `peer.Stop()` on every indexed peer; `close(sigConn)`, `Close()` on every
  listener and `close(sigPeer)`; `wg.Wait()` returning and the store of idle. Every
  other goroutine may act between them;
* `connTick` and `connSignal` — the two cases of `handleConnections`' select, a tick
  calling `addPeer` with the address `repo.Get()` returned;
* `deliver`, `terminate` — a peer sending itself on `peerNew` or `peerDone`;
* `takeNew`, `takeDone`, `peerSignal` — the three cases of `handlePeers`' select, the
  first two being the steps of `PeerHandler`;
* `accept` — one pass of a listener's loop, through `Manager.acceptStep`.

The peer part of every step is a step of `PeerHandler` or leaves it alone
(`step_peers`), so every reachable manager holds a reachable peer handler
(`reachable_peers`) and all of that module's invariants; in particular the index never
exceeds `maxPeerCount` (`peerIndex_len_le`). `Stop` waits for every goroutine it
launched: an idle manager has none running (`wg_eq_zero_of_idle`).

Two results say what the code does not:

* `stop_leaves_peers_running` — a peer delivered on `peerNew` can outlive `Stop` with
  `peer.Stop()` never called on it: a duplicate that `processNewPeer` drops without
  stopping it, and a peer dialled between `Stop`'s loop over `peerIndex` and the close
  of `sigConn`;
* `restart_runs_with_closed_signals` — `Start` remakes neither the signals nor the
  listeners `Stop` closed (nor does the repository's `Start`): after `Start`, `Stop`,
  `Start` the component runs with closed channels, and the next `Stop` panics; over
  every run, once a `Stop` has closed the signals every later one panics
  (`stopSignal_panics_after_restart`).
-/
import PassiveBitcoin.Manager.Listener
import PassiveBitcoin.Manager.PeerHandler
import PassiveBitcoin.Repository.System

namespace PassiveBitcoin

set_option autoImplicit false

/-- The constants and the environment of the manager: `maxPeerCount`, the capacities
of `peerNew` and `peerDone`, and the keys `createListeners` finds for the local IPs
(`FindLocalIPs` with `GetDefaultPort`). -/
structure ManagerConfig where
  maxPeerCount : Nat
  bufferManagerNew : Nat
  bufferManagerDone : Nat
  localAddrs : List String
  deriving DecidableEq, Repr

/-- A `*net.TCPListener` of `listenIndex`: whether it is closed, and whether its
`handleListener` goroutine runs. -/
structure Listener where
  closed : Bool
  handling : Bool
  deriving DecidableEq, Repr

/-- Where a call of `Stop` is, past its CAS. -/
inductive StopPc where
  | notStopping
  /-- `peer.Stop()` has been called on every indexed peer. -/
  | peersStopped
  /-- The signals and the listeners are closed; `wg.Wait()` blocks. -/
  | waiting
  deriving DecidableEq, Repr

/-- The manager record and its goroutines. `created` and `stopCalled` are bookkeeping
of the model: the peers `addPeer` created and those `Stop` called `peer.Stop()` on,
newest first. -/
structure ManagerState where
  state : LifecycleState
  /-- `peerIndex`, `peerNew` and `peerDone`, with the peer handler's log. -/
  peers : PeerHandler
  listenIndex : GoMap String Listener
  sigConn : Signal
  sigPeer : Signal
  connHandlers : Nat
  peerHandlers : Nat
  stop : StopPc
  created : List Peer
  stopCalled : List Peer
  panicked : Option GoPanic

/-- One atomic action of one goroutine. -/
inductive ManagerEvent where
  | start
  | stopPeers
  | stopSignal
  | stopWait
  /-- A tick of `connTicker`; `repo.Get()` returns `addr`. -/
  | connTick (addr : TCPAddr)
  | connSignal
  /-- A created peer, connected, sends itself on `peerNew`. -/
  | deliver (p : Peer)
  /-- A peer shuts down on its own and sends itself on `peerDone`. -/
  | terminate (p : Peer)
  | takeNew
  | takeDone
  | peerSignal
  /-- One `AcceptTCP` of the handler of the listener under `key`, and what it returned. -/
  | accept (key : String) (a : Accepted Unit)
  deriving DecidableEq, Repr

namespace Manager

/-- `NewManager()`. -/
def newManager : ManagerState :=
  ⟨.idle, PeerHandler.init, ∅, .make, .make, 0, 0, .notStopping, [], [], none⟩

/-- `createListeners`: a listener and its handler for every local address not yet in
`listenIndex`. -/
def createListeners (listenIndex : GoMap String Listener) : List String → GoMap String Listener
  | [] => listenIndex
  | key :: rest =>
      createListeners (if key ∈ listenIndex then listenIndex else listenIndex.set key ⟨false, true⟩) rest

/-- The counter of `wg`: the goroutines `Stop` waits for. -/
def wg (s : ManagerState) : Nat :=
  s.connHandlers + s.peerHandlers + (s.listenIndex.entries.filter (·.2.handling)).length

/-- `addPeer` once `repo.Get()` returned `addr`: a new outgoing peer, unless the address
is indexed already (the code then asks `Get` again, as a later tick does here). -/
def addPeer (s : ManagerState) (addr : TCPAddr) : ManagerState :=
  if addr.string ∈ s.peers.peerIndex then s
  else { s with created := ⟨s.created.length, addr.string⟩ :: s.created }

/-- What `AcceptTCP` can return: on a closed listener its close error, on an open one a
connection or another error. -/
def acceptPossible (l : Listener) (a : Accepted Unit) : Bool :=
  l.closed == a.err.any fun e => stringsContains e.text closedConnectionText

/-- `close(sigConn)`, `Close()` on every listener, `close(sigPeer)`. -/
def stopSignals (s : ManagerState) : Except GoPanic ManagerState := do
  let sigConn ← s.sigConn.close
  let listenIndex := s.listenIndex.mapValues fun l => { l with closed := true }
  let sigPeer ← s.sigPeer.close
  return { s with sigConn, listenIndex, sigPeer, stop := .waiting }

/-- A step of the peer handler, as a step of the manager. -/
def peerStep (cfg : ManagerConfig) (s : ManagerState) (e : PeerEvent) : Option ManagerState :=
  (PeerHandler.step cfg.maxPeerCount s.peers e).map fun peers => { s with peers }

/-- One step of a live process; `none` when the event is not enabled. -/
def stepLive (cfg : ManagerConfig) (s : ManagerState) : ManagerEvent → Option ManagerState
  | .start =>
      if s.state = .idle then
        some { s with state := .running, listenIndex := createListeners s.listenIndex cfg.localAddrs,
                      connHandlers := s.connHandlers + 1, peerHandlers := s.peerHandlers + 1 }
      else some s
  | .stopPeers =>
      if s.state = .running then
        some { s with state := .busy, stop := .peersStopped,
                      stopCalled := s.peers.peerIndex.entries.map (·.2) ++ s.stopCalled }
      else some s
  | .stopSignal =>
      if s.stop = .peersStopped then
        match stopSignals s with
        | .ok s' => some s'
        | .error p => some { s with panicked := some p }
      else none
  | .stopWait =>
      if s.stop = .waiting ∧ wg s = 0 then some { s with state := .idle, stop := .notStopping } else none
  | .connTick addr =>
      if 0 < s.connHandlers then
        some (if s.peers.peerIndex.len < cfg.maxPeerCount then addPeer s addr else s)
      else none
  | .connSignal =>
      if 0 < s.connHandlers ∧ s.sigConn.closed then some { s with connHandlers := s.connHandlers - 1 }
      else none
  | .deliver p =>
      if p ∈ s.created ∧ p ∉ s.peers.sentDone ∧ s.peers.peerNew.length < cfg.bufferManagerNew then
        peerStep cfg s (.sendNew p)
      else none
  | .terminate p =>
      if p ∈ s.created ∧ s.peers.peerDone.length < cfg.bufferManagerDone then peerStep cfg s (.sendDone p)
      else none
  | .takeNew => if 0 < s.peerHandlers then peerStep cfg s .takeNew else none
  | .takeDone => if 0 < s.peerHandlers then peerStep cfg s .takeDone else none
  | .peerSignal =>
      if 0 < s.peerHandlers ∧ s.sigPeer.closed then some { s with peerHandlers := s.peerHandlers - 1 }
      else none
  | .accept key a =>
      match s.listenIndex.get key with
      | some l =>
          if l.handling ∧ acceptPossible l a then
            match acceptStep a with
            | .panicked p => some { s with panicked := some p }
            -- never taken (`acceptStep_ne_incoming`): `newIncomingPeer` is not reached
            | .incoming _ => some s
            | _ => some { s with listenIndex := s.listenIndex.set key { l with handling := false } }
          else none
      | none => none

/-- One step: nothing moves after a panic. -/
def step (cfg : ManagerConfig) (s : ManagerState) (e : ManagerEvent) : Option ManagerState :=
  if s.panicked.isSome then none else stepLive cfg s e

/-- The states some interleaving reaches from `newManager`. -/
abbrev Reachable (cfg : ManagerConfig) : ManagerState → Prop := Trace.Reachable (step cfg) newManager

/-- Replays a sequence of events. -/
abbrev run (cfg : ManagerConfig) : ManagerState → List ManagerEvent → Option ManagerState :=
  Trace.run (step cfg)

/-! ## What a step can do -/

theorem stopSignals_eq_ok {s s' : ManagerState} (h : stopSignals s = .ok s') :
    s' = { s with sigConn := ⟨true⟩, listenIndex := s.listenIndex.mapValues fun l => { l with closed := true },
                  sigPeer := ⟨true⟩, stop := .waiting } := by
  obtain ⟨_, _, _, ⟨c⟩, ⟨p⟩⟩ := s
  cases c <;> cases p <;> cases h
  rfl

theorem addPeer_eq (s : ManagerState) (addr : TCPAddr) : ∃ created, addPeer s addr = { s with created } := by
  unfold addPeer
  split
  · exact ⟨s.created, rfl⟩
  · exact ⟨_, rfl⟩

/-- Everything one step can do to the manager, with the guards the invariants need. -/
inductive Moves (cfg : ManagerConfig) (s : ManagerState) : ManagerState → Prop where
  /-- A CAS that fails, or a tick at the peer limit. -/
  | same : Moves cfg s s
  | start : s.state = .idle →
      Moves cfg s { s with state := .running, listenIndex := createListeners s.listenIndex cfg.localAddrs,
                           connHandlers := s.connHandlers + 1, peerHandlers := s.peerHandlers + 1 }
  | stopPeers : s.state = .running →
      Moves cfg s { s with state := .busy, stop := .peersStopped,
                           stopCalled := s.peers.peerIndex.entries.map (·.2) ++ s.stopCalled }
  | stopSignals : s.stop = .peersStopped →
      Moves cfg s { s with sigConn := ⟨true⟩, listenIndex := s.listenIndex.mapValues fun l => { l with closed := true },
                           sigPeer := ⟨true⟩, stop := .waiting }
  | stopWait : s.stop = .waiting → wg s = 0 → Moves cfg s { s with state := .idle, stop := .notStopping }
  | panic (p : GoPanic) : Moves cfg s { s with panicked := some p }
  | dial (created : List Peer) : 0 < s.connHandlers → Moves cfg s { s with created }
  | connExit : 0 < s.connHandlers → Moves cfg s { s with connHandlers := s.connHandlers - 1 }
  | peers {peers : PeerHandler} (e : PeerEvent) : PeerHandler.step cfg.maxPeerCount s.peers e = some peers →
      Moves cfg s { s with peers }
  | peerExit : 0 < s.peerHandlers → Moves cfg s { s with peerHandlers := s.peerHandlers - 1 }
  | listenerExit {key : String} {l : Listener} : s.listenIndex.get key = some l → l.handling →
      Moves cfg s { s with listenIndex := s.listenIndex.set key { l with handling := false } }

theorem step_moves {cfg : ManagerConfig} {s s' : ManagerState} {e : ManagerEvent}
    (h : step cfg s e = some s') : Moves cfg s s' := by
  unfold step at h
  split at h
  · cases h
  cases e
  case start | stopPeers =>
    simp only [stepLive] at h
    split at h <;> cases h
    · first | exact .start ‹_› | exact .stopPeers ‹_›
    · exact .same
  case stopSignal =>
    simp only [stepLive] at h
    split at h
    · split at h <;> cases h
      · rename_i hpc _ hb
        rw [stopSignals_eq_ok hb]
        exact .stopSignals hpc
      · exact .panic _
    · cases h
  case stopWait =>
    simp only [stepLive] at h
    split at h
    · rename_i hw
      cases h
      exact .stopWait hw.1 hw.2
    · cases h
  case connTick addr =>
    simp only [stepLive] at h
    split at h
    · rename_i hc
      cases h
      split
      · obtain ⟨created, heq⟩ := addPeer_eq s addr
        rw [heq]
        exact .dial created hc
      · exact .same
    · cases h
  case connSignal | peerSignal =>
    simp only [stepLive] at h
    split at h
    · rename_i hc
      cases h
      first | exact .connExit hc.1 | exact .peerExit hc.1
    · cases h
  case deliver p | terminate p | takeNew | takeDone =>
    simp only [stepLive] at h
    split at h
    · obtain ⟨peers, hp, rfl⟩ := Option.map_eq_some'.mp h
      exact .peers _ hp
    · cases h
  case accept key a =>
    simp only [stepLive] at h
    split at h
    · rename_i l hl
      split at h
      · rename_i hg
        split at h <;> cases h
        · exact .panic _
        · exact .same
        · exact .listenerExit hl (by simpa using hg.1)
      · cases h
    · cases h

/-! ## The peer handler inside the manager -/

/-- Every step moves the peer part by one step of `PeerHandler`, or not at all. -/
theorem step_peers {cfg : ManagerConfig} {s s' : ManagerState} {e : ManagerEvent}
    (h : step cfg s e = some s') :
    s'.peers = s.peers ∨ ∃ pe, PeerHandler.step cfg.maxPeerCount s.peers pe = some s'.peers := by
  cases step_moves h with
  | peers pe hp => exact .inr ⟨pe, hp⟩
  | _ => exact .inl rfl

/-- Every reachable manager holds a reachable peer handler. -/
theorem reachable_peers {cfg : ManagerConfig} {s : ManagerState} (h : Reachable cfg s) :
    PeerHandler.Reachable cfg.maxPeerCount s.peers := by
  refine Trace.ReachableUnder.inv (fun s => PeerHandler.Reachable cfg.maxPeerCount s.peers) .init ?_ h
  intro s s' e _ hstep ih
  rcases step_peers hstep with heq | ⟨pe, hpe⟩
  · exact heq ▸ ih
  · exact .step pe ih trivial hpe

/-- The manager never indexes more than `maxPeerCount` peers. -/
theorem peerIndex_len_le {cfg : ManagerConfig} {s : ManagerState} (h : Reachable cfg s) :
    s.peers.peerIndex.len ≤ cfg.maxPeerCount :=
  (PeerHandler.reachable_inv (reachable_peers h)).bound

/-- With room for one peer, the second of two dialled peers is dropped. -/
theorem peerIndex_len_le_one :
    ∃ s, run ⟨1, 8, 8, []⟩ newManager [.start, .connTick ⟨[10, 0, 0, 1], 8333, ""⟩,
        .connTick ⟨[10, 0, 0, 2], 8333, ""⟩, .deliver ⟨0, "10.0.0.1:8333"⟩, .deliver ⟨1, "10.0.0.2:8333"⟩,
        .takeNew, .takeNew] = some s ∧ s.peers.peerIndex.len ≤ 1 := by
  refine ⟨_, (Option.some_get ?h).symm, peerIndex_len_le (Trace.reachable_run_get _ ?h)⟩
  decide

/-! ## `Stop` joins every goroutine it launched -/

theorem wg_pos_of_handling {s : ManagerState} {key : String} {l : Listener}
    (hl : s.listenIndex.get key = some l) (hh : l.handling) : 0 < wg s := by
  have hmem : (⟨key, l⟩ : Σ _ : String, Listener) ∈ s.listenIndex.entries := AList.mem_lookup_iff.mp hl
  have : 0 < (s.listenIndex.entries.filter (·.2.handling)).length :=
    List.length_pos_of_mem (List.mem_filter.mpr ⟨hmem, hh⟩)
  unfold wg
  omega

/-- An idle manager has no goroutine left in `wg` and no `Stop` under way. -/
def IdleInv (s : ManagerState) : Prop := s.state = .idle → wg s = 0 ∧ s.stop = .notStopping

theorem step_idleInv {cfg : ManagerConfig} {s s' : ManagerState} {e : ManagerEvent} (hi : IdleInv s)
    (h : step cfg s e = some s') : IdleInv s' := by
  intro hidle
  cases step_moves h with
  | start _ | stopPeers _ => cases hidle
  | stopSignals hpc => exact absurd ((hi hidle).2.symm.trans hpc) (by decide)
  | stopWait _ hw => exact ⟨hw, rfl⟩
  | connExit hc => exact absurd (hi hidle).1 (by unfold wg; omega)
  | peerExit hc => exact absurd (hi hidle).1 (by unfold wg; omega)
  | listenerExit hl hh => exact absurd (hi hidle).1 (wg_pos_of_handling hl hh).ne'
  | _ => exact hi hidle

/-- Unlike the repository's, the manager's `Stop` waits: whenever the manager is idle,
before its first `Start` or after a `Stop` returned, no handler goroutine and no
listener's goroutine runs. -/
theorem wg_eq_zero_of_idle {cfg : ManagerConfig} {s : ManagerState} (h : Reachable cfg s)
    (hidle : s.state = .idle) : wg s = 0 :=
  (Trace.ReachableUnder.inv IdleInv (show IdleInv newManager from fun _ => ⟨rfl, rfl⟩)
    (fun _ _ _ _ hs hi => step_idleInv hi hs) h hidle).1

/-- A `Start` and a whole `Stop`, with one listener whose handler sees it closed. -/
theorem wg_eq_zero_after_stop :
    ∃ s, run ⟨1000, 8, 8, ["10.0.0.5:8333"]⟩ newManager [.start, .stopPeers, .stopSignal, .connSignal,
        .peerSignal, .accept "10.0.0.5:8333" (.error ⟨"use of closed network connection"⟩), .stopWait] = some s ∧
      s.state = .idle ∧ wg s = 0 := by
  refine ⟨_, (Option.some_get ?h).symm, ?idle, wg_eq_zero_of_idle (Trace.reachable_run_get _ ?h) ?idle⟩
  all_goals decide

/-! ## Restart -/

/-- No step reopens a closed signal: nothing remakes `sigConn` or `sigPeer`. -/
theorem step_signals_closed {cfg : ManagerConfig} {s s' : ManagerState} {e : ManagerEvent}
    (h : step cfg s e = some s') :
    (s.sigConn.closed → s'.sigConn.closed) ∧ (s.sigPeer.closed → s'.sigPeer.closed) := by
  cases step_moves h with
  | stopSignals _ => exact ⟨fun _ => rfl, fun _ => rfl⟩
  | _ => exact ⟨id, id⟩

theorem stopSignals_of_closed {s : ManagerState} (hc : s.sigConn.closed) :
    stopSignals s = .error .closeOfClosedChannel := by
  obtain ⟨_, _, _, ⟨c⟩, _⟩ := s
  cases hc
  rfl

/-- `Start` never remakes the signals: once a `Stop` has closed them, every later
`Stop` that finds the manager running again panics at `close(sigConn)`. -/
theorem stopSignal_panics_after_restart {cfg : ManagerConfig} {s s₁ s' : ManagerState}
    (hpc : s.stop = .peersStopped) (hstop : step cfg s .stopSignal = some s₁) (hdone : s₁.panicked = none)
    (es : List ManagerEvent) (hrun : run cfg s₁ es = some s') (hpc' : s'.stop = .peersStopped)
    (hlive : s'.panicked = none) :
    step cfg s' .stopSignal = some { s' with panicked := some .closeOfClosedChannel } := by
  have hclosed : s₁.sigConn.closed := by
    simp only [step, stepLive, hpc, if_true] at hstop
    split at hstop
    · cases hstop
    · split at hstop <;> cases hstop
      · rename_i hb
        rw [stopSignals_eq_ok hb]
      · cases hdone
  have hclosed' := Trace.run_inv (fun t => t.sigConn.closed = true) (fun _ _ _ hs => (step_signals_closed hs).1)
    es hrun hclosed
  simp [step, stepLive, hlive, hpc', stopSignals_of_closed hclosed']

/-- `Start`, a whole `Stop`, `Start`, and the second `Stop`'s close of `sigConn`. -/
theorem stopSignal_panics_on_second_stop :
    let cfg : ManagerConfig := ⟨1000, 8, 8, []⟩
    let stopping : ManagerState :=
      { newManager with state := .busy, connHandlers := 1, peerHandlers := 1, stop := .peersStopped }
    run cfg newManager [.start, .stopPeers] = some stopping ∧
      ∃ s₁ s', step cfg stopping .stopSignal = some s₁ ∧
        run cfg s₁ [.connSignal, .peerSignal, .stopWait, .start, .stopPeers] = some s' ∧
        step cfg s' .stopSignal = some { s' with panicked := some .closeOfClosedChannel } := by
  intro cfg stopping
  exact ⟨rfl, _, _, rfl, rfl, @stopSignal_panics_after_restart cfg stopping _ _ rfl rfl rfl
    [.connSignal, .peerSignal, .stopWait, .start, .stopPeers] rfl rfl rfl⟩

/-! ## Peers that outlive `Stop` -/

/-- Two peers outlive `Stop` without `peer.Stop()`. A duplicate: two ticks dial one
address before the first peer is indexed, and `processNewPeer` drops the second. A
late peer: a tick between `Stop`'s loop over `peerIndex` and `close(sigConn)` dials a
peer that is started and indexed after the loop. -/
theorem stop_leaves_peers_running :
    let cfg : ManagerConfig := ⟨1000, 8, 8, []⟩
    let a : TCPAddr := ⟨[10, 0, 0, 1], 8333, ""⟩
    let first : Peer := ⟨0, "10.0.0.1:8333"⟩
    let dup : Peer := ⟨1, "10.0.0.1:8333"⟩
    (∃ s, run cfg newManager [.start, .connTick a, .connTick a, .deliver first, .deliver dup, .takeNew,
          .takeNew, .stopPeers, .stopSignal, .connSignal, .peerSignal, .stopWait] = some s ∧
        s.state = .idle ∧ Handled.new dup .existing ∈ s.peers.handled ∧ dup ∈ s.peers.sentNew ∧
        dup ∉ s.stopCalled ∧ dup ∉ s.peers.sentDone) ∧
      (∃ s, run cfg newManager [.start, .stopPeers, .connTick a, .deliver first, .takeNew, .stopSignal,
          .connSignal, .peerSignal, .stopWait] = some s ∧
        s.state = .idle ∧ Handled.new first .started ∈ s.peers.handled ∧ s.peers.peerIndex.get first.string = some first ∧
        first ∉ s.stopCalled ∧ first ∉ s.peers.sentDone) :=
  ⟨⟨_, rfl, by decide, by decide, by decide, by decide, by decide⟩,
    ⟨_, rfl, by decide, by decide, by decide, by decide, by decide⟩⟩

/-- `Start` after `Stop` remakes neither the signals nor the listeners `Stop` closed:
the manager runs with `sigConn` and `sigPeer` closed and a closed listener without a
handler, and its next `Stop` panics; the repository likewise. -/
theorem restart_runs_with_closed_signals :
    (let cfg : ManagerConfig := ⟨1000, 8, 8, ["10.0.0.5:8333"]⟩
     let closedErr : Accepted Unit := .error ⟨"accept tcp 10.0.0.5:8333: use of closed network connection"⟩
     ∃ s, run cfg newManager [.start, .stopPeers, .stopSignal, .connSignal, .peerSignal,
          .accept "10.0.0.5:8333" closedErr, .stopWait, .start] = some s ∧
        s.state = .running ∧ s.sigConn.closed ∧ s.sigPeer.closed ∧
        s.listenIndex.get "10.0.0.5:8333" = some ⟨true, false⟩ ∧
        (run cfg s [.stopPeers, .stopSignal]).map (·.panicked) = some (some .closeOfClosedChannel)) ∧
    (let cfg : RepoConfig := ⟨1000, 16⟩
     let restarted := Repository.run cfg (Repository.newRepository none) [.start false, .stop true [], .start false]
     restarted.map (fun s => (s.state, s.sigSave.closed, s.sigNode.closed)) = some (.running, true, true) ∧
      (restarted.bind (Repository.run cfg · [.stop true []])).map (·.panicked) =
        some (some .closeOfClosedChannel)) :=
  ⟨⟨_, rfl, by decide, by decide, by decide, by decide, by decide⟩, Repository.restart_leaves_signals_closed⟩

end Manager

end PassiveBitcoin
