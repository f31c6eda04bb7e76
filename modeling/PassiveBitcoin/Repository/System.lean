/-
# PassiveBitcoin.Repository.System — the repository with its goroutines

`repository` is one shared record driven by several goroutines: callers of
`Update`, `Attempt`, `Connected` and `Good` (peers, and `bootstrap` inside `Start`),
the node handler `handleNodes`, the save handler `handleSave`, and the callers of
`Start` and `Stop`. `RepoState` is the record together with `nodes.dat` and the
goroutines that run; `RepoState.step` is one atomic action of one of them:

* `start` — `Start`: the CAS from idle, `restore`, launching both handlers;
* `stop` — `Stop`: the CAS from running, `close(sigSave)`, `close(sigNode)`, the final
  `save`, back to idle. It never waits for the handlers;
* `update`, `bootstrap`, `attempt`, `connected`, `good` — the index operations;
* `nodesSignal` / `nodesTake`, `saveSignal` / `saveTick` — the two cases of each
  handler's select. A select may take any ready case, also a queued node or a tick
  after its signal channel was closed.

A save takes whether `os.Create` succeeds and the order in which `range` visits the
index; `Encode` panics on a node with a nil address, and the panic ends the process.

The results:

* `stop_returns_before_handlers` — `Stop` returns with both handlers still running;
  one then inserts a node and the other saves again, so `nodes.dat` no longer holds
  what the final save wrote;
* `restart_leaves_signals_closed` — `Start` does not remake the signal channels that
  `Stop` closed: after `Start`, `Stop`, `Start` the repository runs with both closed,
  and the next `Stop` panics; over every run, once a `Stop` has completed, every later
  `Stop` that finds the repository running panics (`stop_panics_after_restart`);
* `restore_breaks_keys` and `index_inv_of_reachable` — `restore` merges the entries of
  `nodes.dat` it decodes into the index unchecked, also those before an entry that
  fails; every other action keeps `KeysMatch` and `Bounded`;
* `update_completes_unless_full` — `Update` of a new address is a plain send on
  `nodeQ`: it completes at once while the buffer has room, and on a full buffer it
  waits for the node handler to take a node; once the handler has returned, such an
  `Update` stays blocked in every continuation without a `Stop`
  (`update_blocked_until_stop`).
-/
import PassiveBitcoin.Go.Sync
import PassiveBitcoin.Go.Trace
import PassiveBitcoin.Repository.NodesDat

namespace PassiveBitcoin

set_option autoImplicit false

/-- The constants the repository uses that are not under src/. -/
structure RepoConfig where
  maxNodeCount : Nat
  /-- The capacity of `nodeQ`. -/
  bufferRepoNode : Nat
  deriving DecidableEq, Repr

/-- The repository record, `nodes.dat`, and the number of running goroutines of each
handler. -/
structure RepoState where
  nodeIndex : NodeIndex
  sigSave : Signal
  sigNode : Signal
  nodeQ : List Node
  state : LifecycleState
  nodesHandlers : Nat
  saveHandlers : Nat
  nodesDat : Repository.DatFile
  panicked : Option GoPanic

/-- One atomic action of one goroutine. A save takes whether `os.Create` succeeds and
the order in which `range` visits the index. -/
inductive RepoEvent where
  /-- `Start`; `openOk` tells whether `os.Open("nodes.dat")` succeeds. -/
  | start (openOk : Bool)
  | stop (createOk : Bool) (order : List (Σ _ : String, Node))
  | update (addr src : Option TCPAddr)
  /-- One address of `bootstrap`'s loop over the resolved seed addresses. -/
  | bootstrap (addr : TCPAddr)
  | attempt (addr : Option TCPAddr) (now : Time)
  | connected (addr : Option TCPAddr) (now : Time)
  | good (addr : Option TCPAddr) (now : Time)
  | nodesSignal
  | nodesTake
  | saveSignal
  | saveTick (createOk : Bool) (order : List (Σ _ : String, Node))
  deriving DecidableEq, Repr

namespace Repository

/-- `NewRepository()`, over a disk holding `nodesDat`. -/
def newRepository (nodesDat : DatFile) : RepoState :=
  ⟨∅, .make, .make, [], .idle, 0, 0, nodesDat, none⟩

/-- `local(addr)`: the zero address of the family of `addr`. -/
def «local» (addr : TCPAddr) : TCPAddr :=
  if (TCPAddr.to4 addr.ip).isSome then ⟨List.replicate 10 0 ++ [0xff, 0xff, 0, 0, 0, 0], 0, ""⟩
  else ⟨List.replicate 16 0, 0, ""⟩

/-- `restore()`, when `os.Open("nodes.dat")` succeeds (`openOk`). -/
def restore (nodeIndex : NodeIndex) (nodesDat : DatFile) (openOk : Bool) : NodeIndex :=
  if openOk then restoreFile nodeIndex nodesDat else nodeIndex

/-- The body of `Stop` after its CAS succeeded: `close(sigSave)`, `close(sigNode)`, the
final `save` and the store of `stateIdle`; a panic ends it where it happens. `none`
when `order` is not an order in which `range` visits the index. -/
def stopBody (s : RepoState) (createOk : Bool) (order : List (Σ _ : String, Node)) : Option RepoState :=
  match s.sigSave.close with
  | .error p => some { s with state := .busy, panicked := some p }
  | .ok sigSave =>
      match s.sigNode.close with
      | .error p => some { s with sigSave, state := .busy, panicked := some p }
      | .ok sigNode =>
          if order.Perm s.nodeIndex.entries then
            some { s with sigSave, sigNode, nodesDat := save s.nodesDat createOk order,
                          state := if (savePanic createOk order).isSome then .busy else .idle,
                          panicked := savePanic createOk order }
          else none

/-- `Update(addr, src)` as one action; `none` while `nodeQ` is full. -/
def updateStep (cfg : RepoConfig) (s : RepoState) (addr src : Option TCPAddr) : Option RepoState :=
  match update s.nodeIndex addr src with
  | .refreshed idx => some { s with nodeIndex := idx }
  | .enqueue n => if s.nodeQ.length < cfg.bufferRepoNode then some { s with nodeQ := s.nodeQ ++ [n] } else none

/-- One step of a live process; `none` when the event is not enabled. -/
def stepLive (cfg : RepoConfig) (s : RepoState) : RepoEvent → Option RepoState
  | .start openOk =>
      if s.state = .idle then
        some { s with nodeIndex := restore s.nodeIndex s.nodesDat openOk, state := .running,
                      nodesHandlers := s.nodesHandlers + 1, saveHandlers := s.saveHandlers + 1 }
      else some s
  | .stop createOk order => if s.state = .running then stopBody s createOk order else some s
  | .update addr src => updateStep cfg s addr src
  | .bootstrap addr =>
      if TCPAddr.string addr ∈ s.nodeIndex then some s else updateStep cfg s addr («local» addr)
  | .attempt addr now => some { s with nodeIndex := attempt s.nodeIndex addr now }
  | .connected addr now => some { s with nodeIndex := connected s.nodeIndex addr now }
  | .good addr now => some { s with nodeIndex := good s.nodeIndex addr now }
  | .nodesSignal =>
      if 0 < s.nodesHandlers ∧ s.sigNode.closed then some { s with nodesHandlers := s.nodesHandlers - 1 }
      else none
  | .nodesTake =>
      match s.nodeQ with
      | n :: rest =>
          if 0 < s.nodesHandlers then
            match handleNode cfg.maxNodeCount s.nodeIndex n with
            | some idx => some { s with nodeIndex := idx, nodeQ := rest }
            | none => some { s with nodeQ := rest, nodesHandlers := s.nodesHandlers - 1 }
          else none
      | [] => none
  | .saveSignal =>
      if 0 < s.saveHandlers ∧ s.sigSave.closed then some { s with saveHandlers := s.saveHandlers - 1 }
      else none
  | .saveTick createOk order =>
      if 0 < s.saveHandlers ∧ order.Perm s.nodeIndex.entries then
        some { s with nodesDat := save s.nodesDat createOk order, panicked := savePanic createOk order }
      else none

/-- One step: nothing moves after a panic. -/
def step (cfg : RepoConfig) (s : RepoState) (e : RepoEvent) : Option RepoState :=
  if s.panicked.isSome then none else stepLive cfg s e

/-- The states reached from `newRepository nodesDat` by steps that `allowed` admits. -/
abbrev ReachableUnder (cfg : RepoConfig) (nodesDat : DatFile)
    (allowed : RepoState → RepoEvent → Prop) : RepoState → Prop :=
  Trace.ReachableUnder (step cfg) allowed (newRepository nodesDat)

/-- The run of the code: every step allowed. -/
abbrev Reachable (cfg : RepoConfig) (nodesDat : DatFile) : RepoState → Prop :=
  Trace.Reachable (step cfg) (newRepository nodesDat)

/-- Replays a sequence of events. -/
abbrev run (cfg : RepoConfig) : RepoState → List RepoEvent → Option RepoState := Trace.run (step cfg)

/-! ## What each step does to the index -/

/-- The changes to `nodeIndex` that everything but `restore` makes. -/
inductive IndexChange (maxNodeCount : Nat) (nodeIndex : NodeIndex) : NodeIndex → Prop where
  | same : IndexChange maxNodeCount nodeIndex nodeIndex
  | touched (addr : Option TCPAddr) (f : Node → Node) (hf : ∀ n, (f n).addr = n.addr) :
      IndexChange maxNodeCount nodeIndex (touch nodeIndex addr f)
  | inserted {idx : NodeIndex} (n : Node) (h : handleNode maxNodeCount nodeIndex n = some idx) :
      IndexChange maxNodeCount nodeIndex idx

theorem IndexChange.inv {maxNodeCount : Nat} {nodeIndex idx : NodeIndex}
    (h : IndexChange maxNodeCount nodeIndex idx) (hk : KeysMatch nodeIndex)
    (hb : Bounded maxNodeCount nodeIndex) : KeysMatch idx ∧ Bounded maxNodeCount idx := by
  cases h with
  | same => exact ⟨hk, hb⟩
  | touched addr f hf => exact ⟨touch_keysMatch hk addr hf, (len_touch _ _ _).trans_le hb⟩
  | inserted n h => exact ⟨handleNode_keysMatch hk h, handleNode_bounded h⟩

theorem restore_cases (nodeIndex : NodeIndex) (nodesDat : DatFile) (openOk : Bool) :
    (∃ value rest, openOk = true ∧ nodesDat = some (value :: rest) ∧
        restore nodeIndex nodesDat openOk = (decodeInto nodeIndex value).1) ∨
      restore nodeIndex nodesDat openOk = nodeIndex := by
  cases openOk
  · exact .inr rfl
  · rcases nodesDat with _ | _ | ⟨value, rest⟩
    · exact .inr rfl
    · exact .inr rfl
    · exact .inl ⟨value, rest, rfl, rfl, rfl⟩

theorem stopBody_eq (s : RepoState) (createOk : Bool) (order : List (Σ _ : String, Node)) :
    stopBody s createOk order =
      if s.sigSave.closed then some { s with state := .busy, panicked := some .closeOfClosedChannel }
      else if s.sigNode.closed then
        some { s with sigSave := ⟨true⟩, state := .busy, panicked := some .closeOfClosedChannel }
      else if order.Perm s.nodeIndex.entries then
        some { s with sigSave := ⟨true⟩, sigNode := ⟨true⟩, nodesDat := save s.nodesDat createOk order,
                      state := if (savePanic createOk order).isSome then .busy else .idle,
                      panicked := savePanic createOk order }
      else none := by
  obtain ⟨_, ⟨a⟩, ⟨b⟩⟩ := s
  cases a <;> cases b <;> rfl

/-- What a `Stop` past its CAS leaves: the index as it was, a closed signal closed,
and both signals closed unless it panicked. -/
theorem stopBody_some {s s' : RepoState} {createOk : Bool} {order : List (Σ _ : String, Node)}
    (h : stopBody s createOk order = some s') :
    s'.nodeIndex = s.nodeIndex ∧ (s.sigSave.closed → s'.sigSave.closed) ∧ (s.sigNode.closed → s'.sigNode.closed) ∧
      (s'.panicked = none → s'.sigSave.closed ∧ s'.sigNode.closed) := by
  rw [stopBody_eq] at h
  split_ifs at h <;> cases h
  · exact ⟨rfl, id, id, nofun⟩
  · exact ⟨rfl, fun _ => rfl, id, nofun⟩
  all_goals exact ⟨rfl, fun _ => rfl, fun _ => rfl, fun _ => ⟨rfl, rfl⟩⟩

theorem updateStep_index {cfg : RepoConfig} {s s' : RepoState} {addr src : Option TCPAddr}
    (h : updateStep cfg s addr src = some s') : IndexChange cfg.maxNodeCount s.nodeIndex s'.nodeIndex := by
  unfold updateStep at h
  by_cases hm : TCPAddr.ptrString addr ∈ s.nodeIndex
  · rw [update_of_mem src hm] at h
    cases h
    exact .touched addr _ fun _ => rfl
  · rw [update_of_not_mem src hm] at h
    simp only at h
    split at h
    · cases h; exact .same
    · cases h

/-- Only a `Start` whose restore reads `nodes.dat` changes the index other than by an
`IndexChange`: it decodes the file's first value into the index. -/
theorem step_index {cfg : RepoConfig} {s s' : RepoState} {e : RepoEvent} (h : step cfg s e = some s') :
    (∃ value rest, e = .start true ∧ s.state = .idle ∧ s.nodesDat = some (value :: rest) ∧
        s'.nodeIndex = (decodeInto s.nodeIndex value).1) ∨
      IndexChange cfg.maxNodeCount s.nodeIndex s'.nodeIndex := by
  unfold step at h
  split at h
  · cases h
  cases e
  case start openOk =>
    simp only [stepLive] at h
    split at h
    · rename_i hidle
      cases h
      rcases restore_cases s.nodeIndex s.nodesDat openOk with ⟨value, rest, rfl, hf, hr⟩ | hr
      · exact .inl ⟨value, rest, rfl, hidle, hf, hr⟩
      · exact .inr (by rw [hr]; exact .same)
    · cases h; exact .inr .same
  case stop createOk order =>
    simp only [stepLive] at h
    split at h
    · exact .inr (by rw [(stopBody_some h).1]; exact .same)
    · cases h; exact .inr .same
  case update addr src => exact .inr (updateStep_index h)
  case bootstrap addr =>
    simp only [stepLive] at h
    split at h
    · cases h; exact .inr .same
    · exact .inr (updateStep_index h)
  case attempt addr _ | connected addr _ | good addr _ => cases h; exact .inr (.touched addr _ fun _ => rfl)
  case nodesTake =>
    simp only [stepLive] at h
    (repeat' split at h) <;> cases h
    · exact .inr (.inserted _ ‹_›)
    · exact .inr .same
  all_goals
    simp only [stepLive] at h
    split at h <;> cases h
    exact .inr .same

/-! ## The index invariant -/

/-- A `nodes.dat` that decodes without error, its one entry stored under another address
than its node's: `restore` takes it as it is. -/
theorem restore_breaks_keys :
    let a : TCPAddr := ⟨[10, 0, 0, 1], 8333, ""⟩
    let n : Node := newNode (some a) (some («local» a))
    let file : DatFile := some [[("10.0.0.2:8333", n.gobEncode.toOption.getD [])]]
    ∃ s, Reachable ⟨1000, 16⟩ file s ∧ ¬ KeysMatch s.nodeIndex := by
  intro a n file
  refine ⟨_, Trace.reachable_run_get [.start true] (by decide), fun h => ?_⟩
  exact absurd (h "10.0.0.2:8333" n (by decide)) (by decide)

/-- The restores under which the index invariant holds: a `Start` from idle that reads
`nodes.dat` decodes only entries stored under their own node's address, up to the first
that fails, and the merge leaves at most `maxNodeCount` nodes. -/
def RestoreFits (maxNodeCount : Nat) (s : RepoState) : RepoEvent → Prop
  | .start true => s.state = .idle → ∀ value rest, s.nodesDat = some (value :: rest) →
      (∀ p ∈ decodedEntries value, p.2.key = p.1) ∧ Bounded maxNodeCount (decodeInto s.nodeIndex value).1
  | _ => True

/-- Every action but `restore` keeps each node under its own address and the index
within `maxNodeCount`, and a restore that fits does too. -/
theorem index_inv_of_reachable (cfg : RepoConfig) (nodesDat : DatFile) (s : RepoState)
    (h : ReachableUnder cfg nodesDat (RestoreFits cfg.maxNodeCount) s) :
    KeysMatch s.nodeIndex ∧ Bounded cfg.maxNodeCount s.nodeIndex := by
  induction h with
  | init => exact ⟨keysMatch_empty, Nat.zero_le _⟩
  | step e _ hfits hstep ih =>
      rcases step_index hstep with ⟨value, rest, rfl, hidle, hfile, heq⟩ | hc
      · obtain ⟨hk, hb⟩ := hfits hidle value rest hfile
        exact heq ▸ ⟨keysMatch_decodeInto hk ih.1, hb⟩
      · exact hc.inv ih.1 ih.2

/-- A `nodes.dat` whose first entry decodes under its own address and whose second
fails: the restore keeps the first; then a new address through the handler. -/
theorem index_inv_after_restore :
    let a : TCPAddr := ⟨[10, 0, 0, 1], 8333, ""⟩
    let n : Node := newNode (some a) (some («local» a))
    let file : DatFile := some [[(n.key, n.gobEncode.toOption.getD []), ("10.0.0.3:8333", [])]]
    ∃ s, ReachableUnder ⟨1000, 16⟩ file (RestoreFits 1000) s ∧
      s.nodeIndex.len = 2 ∧ KeysMatch s.nodeIndex ∧ Bounded 1000 s.nodeIndex := by
  intro a n file
  let b : TCPAddr := ⟨[10, 0, 0, 2], 8333, ""⟩
  have hfits : RestoreFits 1000 (newRepository file) (.start true) := by
    rintro - value rest hf
    cases hf
    exact ⟨by decide, by unfold Bounded; decide⟩
  -- the restore, then `Update` and the handler's take, which every state admits
  have hrun : (run ⟨1000, 16⟩ (newRepository file) [.start true, .update (some b) (some («local» b)), .nodesTake]).map
      (·.nodeIndex.len) = some 2 := by decide
  obtain ⟨s, hs, hlen⟩ := Option.map_eq_some'.mp hrun
  obtain ⟨t, hstart, hrest⟩ := Trace.run_cons_eq_some.mp hs
  have hall : ∀ t, ∀ e ∈ [RepoEvent.update (some b) (some («local» b)), .nodesTake], RestoreFits 1000 t e := by
    intro t e he
    rcases List.mem_pair.mp he with rfl | rfl <;> trivial
  have h : ReachableUnder ⟨1000, 16⟩ file (RestoreFits 1000) s :=
    Trace.reachableUnder_run _ hall (.step _ .init hfits hstart) hrest
  exact ⟨s, h, hlen, index_inv_of_reachable ⟨1000, 16⟩ _ _ h⟩

/-! ## Stop and restart -/

/-- `Stop` returns while both handlers still run: the node handler then takes a node
queued before the `Stop`, and the save handler's next tick writes it over the empty
map the final save wrote. -/
theorem stop_returns_before_handlers :
    let a : TCPAddr := ⟨[10, 0, 0, 1], 8333, ""⟩
    let n : Node := newNode (some a) (some («local» a))
    let cfg : RepoConfig := ⟨1000, 16⟩
    let stopped := run cfg (newRepository none) [.start false, .update (some a) (some («local» a)), .stop true []]
    stopped.map (fun s => (s.state, s.nodesHandlers, s.saveHandlers)) = some (.idle, 1, 1) ∧
      stopped.bind (fun s => (s.nodesDat.bind List.head?).map List.length) = some 0 ∧
      (stopped.bind (run cfg · [.nodesTake, .saveTick true [⟨n.key, n⟩]])).bind
        (fun s => (s.nodesDat.bind List.head?).map List.length) = some 1 := by
  decide

/-- `Start` after `Stop` runs with both signals closed, and the next `Stop` panics. -/
theorem restart_leaves_signals_closed :
    let cfg : RepoConfig := ⟨1000, 16⟩
    let restarted := run cfg (newRepository none) [.start false, .stop true [], .start false]
    restarted.map (fun s => (s.state, s.sigSave.closed, s.sigNode.closed)) = some (.running, true, true) ∧
      (restarted.bind (run cfg · [.stop true []])).map (·.panicked) = some (some .closeOfClosedChannel) := by
  decide

/-- No step reopens a closed signal: nothing remakes `sigSave` or `sigNode`. -/
theorem step_signals_closed {cfg : RepoConfig} {s s' : RepoState} {e : RepoEvent}
    (h : step cfg s e = some s') :
    (s.sigSave.closed → s'.sigSave.closed) ∧ (s.sigNode.closed → s'.sigNode.closed) := by
  unfold step at h
  split at h
  · cases h
  cases e
  case stop createOk order =>
    simp only [stepLive] at h
    split at h
    · exact ⟨(stopBody_some h).2.1, (stopBody_some h).2.2.1⟩
    · cases h; exact ⟨id, id⟩
  all_goals
    simp only [stepLive, updateStep] at h
    (repeat' split at h) <;> cases h <;> exact ⟨id, id⟩

/-- A `Stop` that passes its CAS and returns has closed both signals. -/
theorem step_stop_closes {cfg : RepoConfig} {s s' : RepoState} {createOk : Bool} {order : List (Σ _ : String, Node)}
    (hr : s.state = .running) (h : step cfg s (.stop createOk order) = some s') (hlive : s'.panicked = none) :
    s'.sigSave.closed ∧ s'.sigNode.closed := by
  simp only [step, stepLive, hr, if_true] at h
  split at h
  · cases h
  · exact (stopBody_some h).2.2.2 hlive

/-- A `Stop` that passes its CAS while `sigSave` is closed panics, whatever its save
would do. -/
theorem step_stop_of_closed {cfg : RepoConfig} {s : RepoState} (createOk : Bool) (order : List (Σ _ : String, Node))
    (hlive : s.panicked = none) (hr : s.state = .running) (hc : s.sigSave.closed) :
    step cfg s (.stop createOk order) = some { s with state := .busy, panicked := some .closeOfClosedChannel } := by
  simp [step, stepLive, stopBody_eq, hlive, hr, hc]

/-- `Start` never remakes the signals a `Stop` closed: once a `Stop` has completed,
every later `Stop` that finds the repository running again panics. -/
theorem stop_panics_after_restart {cfg : RepoConfig} {s s₁ s' : RepoState} {createOk : Bool}
    {order : List (Σ _ : String, Node)} (hr : s.state = .running) (hstop : step cfg s (.stop createOk order) = some s₁)
    (hdone : s₁.panicked = none) (es : List RepoEvent) (hrun : run cfg s₁ es = some s') (hr' : s'.state = .running)
    (hlive : s'.panicked = none) (createOk' : Bool) (order' : List (Σ _ : String, Node)) :
    step cfg s' (.stop createOk' order') = some { s' with state := .busy, panicked := some .closeOfClosedChannel } :=
  step_stop_of_closed createOk' order' hlive hr' <| Trace.run_inv (fun t => t.sigSave.closed = true)
    (fun _ _ _ hs => (step_signals_closed hs).1) es hrun (step_stop_closes hr hstop hdone).1

/-- `Start`, `Stop`, `Start`, and the second `Stop`. -/
theorem stop_panics_on_second_stop :
    let cfg : RepoConfig := ⟨1000, 16⟩
    let started : RepoState := { newRepository none with state := .running, nodesHandlers := 1, saveHandlers := 1 }
    run cfg (newRepository none) [.start false] = some started ∧
      ∃ s₁ s', step cfg started (.stop true []) = some s₁ ∧ run cfg s₁ [.start false] = some s' ∧
        step cfg s' (.stop true []) = some { s' with state := .busy, panicked := some .closeOfClosedChannel } := by
  intro cfg started
  exact ⟨rfl, _, _, rfl, rfl, @stop_panics_after_restart cfg started _ _ true [] rfl rfl rfl [.start false]
    rfl rfl rfl true []⟩

/-! ## Update on a full nodeQ -/

/-- `Update` of an address the index does not hold sends a fresh node on `nodeQ`, and
does so in one step only while the buffer has room. -/
theorem updateStep_of_not_mem (cfg : RepoConfig) (s : RepoState) (addr src : Option TCPAddr)
    (h : TCPAddr.ptrString addr ∉ s.nodeIndex) :
    updateStep cfg s addr src =
      if s.nodeQ.length < cfg.bufferRepoNode then some { s with nodeQ := s.nodeQ ++ [newNode addr src] } else none := by
  rw [updateStep, update_of_not_mem src h]

/-- The repository running with no node handler left, `nodeQ` full, and `key` not in
the index. -/
structure Stuck (cfg : RepoConfig) (key : String) (s : RepoState) : Prop where
  running : s.state = .running
  noHandler : s.nodesHandlers = 0
  full : s.nodeQ.length = cfg.bufferRepoNode
  unknown : key ∉ s.nodeIndex

/-- No `Update` gets a node into a full `nodeQ`, and an index change by `Update`
adds no key. -/
theorem updateStep_stuck {cfg : RepoConfig} {key : String} {s s' : RepoState} {addr src : Option TCPAddr}
    (hs : Stuck cfg key s) (h : updateStep cfg s addr src = some s') : Stuck cfg key s' := by
  unfold updateStep at h
  split at h
  · rename_i idx hu
    cases h
    unfold update at hu
    split at hu <;> cases hu
    exact ⟨hs.running, hs.noHandler, hs.full, mem_touch.not.mpr hs.unknown⟩
  · split at h
    · have := hs.full; omega
    · cases h

/-- Every step but a `Stop` keeps the repository stuck. -/
theorem step_stuck {cfg : RepoConfig} {key : String} {s s' : RepoState} {e : RepoEvent}
    (hs : Stuck cfg key s) (he : ∀ createOk order, e ≠ .stop createOk order) (h : step cfg s e = some s') :
    Stuck cfg key s' := by
  unfold step at h
  split at h
  · cases h
  cases e
  case stop createOk order => exact absurd rfl (he createOk order)
  case start => simp only [stepLive, hs.running] at h; cases h; exact hs
  case update => exact updateStep_stuck hs h
  case bootstrap =>
    simp only [stepLive] at h
    split at h
    · cases h; exact hs
    · exact updateStep_stuck hs h
  case attempt | connected | good =>
    cases h
    exact ⟨hs.running, hs.noHandler, hs.full, mem_touch.not.mpr hs.unknown⟩
  case nodesSignal => simp [stepLive, hs.noHandler] at h
  case nodesTake =>
    simp only [stepLive, hs.noHandler, Nat.lt_irrefl, if_false] at h
    split at h <;> cases h
  case saveSignal | saveTick =>
    simp only [stepLive] at h
    split at h <;> cases h
    exact ⟨hs.running, hs.noHandler, hs.full, hs.unknown⟩

/-- Once the node handler has returned and `nodeQ` is full, an `Update` of an unknown
address blocks until a `Stop`: no run without one ever enables it. -/
theorem update_blocked_until_stop {cfg : RepoConfig} {s s' : RepoState} {a : TCPAddr}
    (hs : Stuck cfg (TCPAddr.string a) s) (es : List RepoEvent)
    (hes : ∀ createOk order, RepoEvent.stop createOk order ∉ es)
    (hrun : run cfg s es = some s') (src : Option TCPAddr) : step cfg s' (.update (some a) src) = none := by
  have hstuck : Stuck cfg (TCPAddr.string a) s' := by
    induction es generalizing s with
    | nil => cases hrun; exact hs
    | cons e es ih =>
        obtain ⟨t, hstep, hrest⟩ := Trace.run_cons_eq_some.mp hrun
        exact ih (step_stuck hs (fun c o he => hes c o (he ▸ List.mem_cons_self _ _)) hstep)
          (fun c o hm => hes c o (List.mem_cons_of_mem _ hm)) hrest
  unfold step
  split
  · rfl
  · rw [stepLive, updateStep_of_not_mem cfg _ (some a) src hstuck.unknown, if_neg (by rw [hstuck.full]; omega)]

/-- Two `Update`s of one new address and a buffer of two: the handler inserts the first
node and returns on the second; two `Update`s of another address fill `nodeQ`, and
every later `Update` of it blocks until a `Stop`. -/
theorem update_blocked_after_duplicate :
    let a : TCPAddr := ⟨[10, 0, 0, 1], 8333, ""⟩
    let b : TCPAddr := ⟨[10, 0, 0, 2], 8333, ""⟩
    ∃ s, run ⟨1000, 2⟩ (newRepository none)
        [.start false, .update (some a) (some («local» a)), .update (some a) (some («local» a)), .nodesTake,
          .nodesTake, .update (some b) (some («local» b)), .update (some b) (some («local» b))] = some s ∧
      Stuck ⟨1000, 2⟩ (TCPAddr.string b) s ∧
      ∀ es s', (∀ createOk order, RepoEvent.stop createOk order ∉ es) → run ⟨1000, 2⟩ s es = some s' →
        step ⟨1000, 2⟩ s' (.update (some b) (some («local» b))) = none := by
  intro a b
  have hs : Stuck ⟨1000, 2⟩ (TCPAddr.string b)
      { newRepository none with
          nodeIndex := (∅ : NodeIndex).set (TCPAddr.string a) (newNode (some a) (some («local» a))),
          state := .running, saveHandlers := 1,
          nodeQ := [newNode (some b) (some («local» b)), newNode (some b) (some («local» b))] } :=
    ⟨rfl, rfl, rfl, by decide⟩
  exact ⟨_, rfl, hs, fun es s' hes hrun => update_blocked_until_stop hs es hes hrun _⟩

end Repository

end PassiveBitcoin
