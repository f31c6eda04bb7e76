/-
# PassiveBitcoin.Manager.AddPeer — `addPeer`'s retry loop

On a tick of `connTicker` below the peer limit, `handleConnections` calls `addPeer`,
which asks `repo.Get()` for an address up to `maxAddrAttempts` times: it returns when
`Get` fails, asks again when the address is already in `peerIndex`, and otherwise
dials it with `newOutgoingPeer`, calling `repo.Attempt` when that succeeds. The system
model (`Manager.System`) takes a tick as one atomic `connTick addr`, `addr` being the
address `Get` returned.

`addPeerLoop` is the loop itself, over the results of the successive calls of `Get`
and of `newOutgoingPeer`:

* `addPeerLoop_eq` — the loop ends as `addPeerEnd` of the first result, among the first
  `maxAddrAttempts`, that is not an address in `peerIndex`;
* `addPeer_dials_first_unindexed` — so it dials `addr` exactly when, within
  `maxAddrAttempts` calls, every earlier call of `Get` returned an address already in
  `peerIndex` and this one returned `addr`, which is not, and `newOutgoingPeer`
  succeeded: it never dials a connected address and calls `Get` at most
  `maxAddrAttempts` times;
* `step_connTick_of_dialed` — a tick whose loop dials an address is the system model's
  step `connTick` with that address, which creates the outgoing peer.
-/
import PassiveBitcoin.Manager.System

namespace PassiveBitcoin

set_option autoImplicit false

/-- How one call of `addPeer` ends. -/
inductive AddPeerEnd where
  /-- `tries > maxAddrAttempts`: "Could not find good address". -/
  | gaveUp
  /-- `repo.Get()` returned an error. -/
  | getFailed (err : String)
  /-- `newOutgoingPeer` returned an error. -/
  | dialFailed (addr : Option TCPAddr) (err : String)
  /-- A new outgoing peer for `addr`, and `repo.Attempt(addr)`. -/
  | dialed (addr : Option TCPAddr)
  deriving DecidableEq, Repr

namespace Manager

section

variable (maxAddrAttempts : Nat) (peerIndex : GoMap String Peer) (get : Nat → Except String (Option TCPAddr))
  (newOutgoingPeer : Option TCPAddr → Option String)

/-- `addPeer`'s loop once `tries` calls of `Get` were made: the call numbered `i`, from
0, returns `get i`, and `newOutgoingPeer addr` is the error dialing `addr` returns. -/
def addPeerFrom (tries : Nat) : AddPeerEnd :=
  if tries + 1 > maxAddrAttempts then .gaveUp
  else
    match get tries with
    | .error err => .getFailed err
    | .ok addr =>
        if TCPAddr.ptrString addr ∈ peerIndex then addPeerFrom (tries + 1)
        else
          match newOutgoingPeer addr with
          | some err => .dialFailed addr err
          | none => .dialed addr
termination_by maxAddrAttempts - tries

/-- `addPeer`. -/
def addPeerLoop : AddPeerEnd := addPeerFrom maxAddrAttempts peerIndex get newOutgoingPeer 0

/-- Whether a result of `Get` sends the loop round again: an address in `peerIndex`. -/
def indexed : Except String (Option TCPAddr) → Bool
  | .ok addr => decide (TCPAddr.ptrString addr ∈ peerIndex)
  | .error _ => false

/-- How the loop ends once it stops at a result of `Get`, or runs out of tries. -/
def addPeerEnd : Option (Except String (Option TCPAddr)) → AddPeerEnd
  | none => .gaveUp
  | some (.error err) => .getFailed err
  | some (.ok addr) =>
      match newOutgoingPeer addr with
      | some err => .dialFailed addr err
      | none => .dialed addr

/-- The first call of `Get`, among the first `maxAddrAttempts`, whose result is not an
address in `peerIndex`. -/
def firstUnindexed : Option Nat := (List.range maxAddrAttempts).find? fun i => !indexed peerIndex (get i)

theorem indexed_eq_true {r : Except String (Option TCPAddr)} :
    indexed peerIndex r = true ↔ ∃ a, r = .ok a ∧ TCPAddr.ptrString a ∈ peerIndex := by
  cases r <;> simp [indexed]

theorem addPeerEnd_eq_dialed {r : Option (Except String (Option TCPAddr))} {addr : Option TCPAddr} :
    addPeerEnd newOutgoingPeer r = .dialed addr ↔ r = some (.ok addr) ∧ newOutgoingPeer addr = none := by
  rcases r with _ | _ | a
  · simp [addPeerEnd]
  · simp [addPeerEnd]
  · cases h : newOutgoingPeer a <;> simp only [addPeerEnd, h] <;> aesop

/-- The loop from `tries` on ends at the first of the results `tries ..` below
`maxAddrAttempts` that is not an indexed address. -/
theorem addPeerFrom_eq (tries : Nat) :
    addPeerFrom maxAddrAttempts peerIndex get newOutgoingPeer tries =
      addPeerEnd newOutgoingPeer
        (((List.range' tries (maxAddrAttempts - tries)).find? fun i => !indexed peerIndex (get i)).map get) := by
  rw [addPeerFrom]
  split
  · rw [Nat.sub_eq_zero_of_le (by omega)]
    rfl
  · rw [show maxAddrAttempts - tries = maxAddrAttempts - (tries + 1) + 1 by omega, List.range'_succ,
      List.find?_cons]
    split
    next err hget => simp [indexed, hget, addPeerEnd]
    next addr hget =>
      split
      next hin =>
        simp only [indexed, hget, decide_eq_true hin, Bool.not_true]
        exact addPeerFrom_eq (tries + 1)
      next hin => simp [indexed, hget, hin, addPeerEnd]
termination_by maxAddrAttempts - tries

theorem addPeerLoop_eq :
    addPeerLoop maxAddrAttempts peerIndex get newOutgoingPeer =
      addPeerEnd newOutgoingPeer ((firstUnindexed maxAddrAttempts peerIndex get).map get) := by
  rw [addPeerLoop, addPeerFrom_eq, firstUnindexed, List.range_eq_range', Nat.sub_zero]

/-- `addPeer` dials `addr` exactly when, within `maxAddrAttempts` calls of `Get`, every
earlier call returned an address already in `peerIndex`, this one returned `addr`, which
is not in it, and `newOutgoingPeer` succeeded. -/
theorem addPeer_dials_first_unindexed (addr : Option TCPAddr) :
    addPeerLoop maxAddrAttempts peerIndex get newOutgoingPeer = .dialed addr ↔
      ∃ i < maxAddrAttempts, (∀ j < i, ∃ a, get j = .ok a ∧ TCPAddr.ptrString a ∈ peerIndex) ∧
        get i = .ok addr ∧ TCPAddr.ptrString addr ∉ peerIndex ∧ newOutgoingPeer addr = none := by
  rw [addPeerLoop_eq, addPeerEnd_eq_dialed, Option.map_eq_some', firstUnindexed, List.range_eq_range']
  simp only [List.find?_range'_eq_some, List.mem_range'_1, Nat.zero_le, Nat.zero_add, true_and, true_implies,
    Bool.not_not, indexed_eq_true]
  constructor
  · rintro ⟨⟨i, ⟨hfresh, hi, hbefore⟩, hget⟩, hdial⟩
    refine ⟨i, hi, hbefore, hget, fun hin => ?_, hdial⟩
    simp [indexed, hget, hin] at hfresh
  · rintro ⟨i, hi, hbefore, hget, hfresh, hdial⟩
    exact ⟨⟨i, ⟨by simp [indexed, hget, hfresh], hi, hbefore⟩, hget⟩, hdial⟩

end

/-- A tick whose loop dials `addr` is the system model's step `connTick addr`: the
address is not in `peerIndex`, and the step creates its outgoing peer. -/
theorem step_connTick_of_dialed (cfg : ManagerConfig) (maxAddrAttempts : Nat)
    (get : Nat → Except String (Option TCPAddr)) (newOutgoingPeer : Option TCPAddr → Option String)
    {s : ManagerState} (hp : s.panicked = none) (hc : 0 < s.connHandlers)
    (hlen : s.peers.peerIndex.len < cfg.maxPeerCount) {addr : TCPAddr}
    (h : addPeerLoop maxAddrAttempts s.peers.peerIndex get newOutgoingPeer = .dialed (some addr)) :
    step cfg s (.connTick addr) = some { s with created := ⟨s.created.length, addr.string⟩ :: s.created } := by
  obtain ⟨-, -, -, -, hfresh, -⟩ := (addPeer_dials_first_unindexed _ _ _ _ _).mp h
  have hfresh' : addr.string ∉ s.peers.peerIndex := hfresh
  simp only [step, hp, Option.isSome_none, Bool.false_eq_true, if_false, stepLive, if_pos hc, if_pos hlen,
    addPeer, if_neg hfresh']

end Manager

end PassiveBitcoin
