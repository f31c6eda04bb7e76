/-
# PassiveBitcoin.Manager.PeerHandler — the peer index under any order of messages

The manager's peer handler (`handlePeers`) multiplexes two buffered channels:
`peerNew`, on which a peer sends itself once it is set up, and `peerDone`, on which it
sends itself once it has shut down. `processNewPeer` starts the peer and indexes it
under `peer.String()` unless the key is present or the index is full;
`processDonePeer` deletes the key of the done peer. The select may take any channel
that holds a message.

`PeerHandler` is that handler with the messages in flight and a log of what it
handled; `PeerHandler.step` is one send by a peer or one message taken by the
handler. The index is keyed by `String()`, not by peer, and the two channels are not
ordered with each other, so the index is not the set of live peers: a peer whose done
message is taken before its new message is started and indexed afterwards
(`done_before_new_indexes_dead_peer`). What every reachable state does satisfy is
`IndexSound`: every entry is a started peer under its own key whose own done message
has not been handled since, every started peer stays indexed while no done message of
its key has been handled since its start, and there are at most `maxPeerCount`
entries (`indexSound_of_reachable`).

The proof goes through `keyState`, which reads the entry of a key off the log: the
latest handled start or done with that key decides it (`Inv.get_eq`), and a start is
only ever logged for a key that was empty (`StartsFresh`).
-/
import PassiveBitcoin.Go.Map
import PassiveBitcoin.Go.Trace

namespace PassiveBitcoin

set_option autoImplicit false

/-- A `*peer` as the manager handles it: the pointer's identity and the remote
address the peer reports. Two peers may report the same address. -/
structure Peer where
  id : Nat
  addr : String
  deriving DecidableEq, Repr

/-- `peer.String()`, the peer's canonical remote address, the key of `peerIndex`. -/
def Peer.string (p : Peer) : String := p.addr

/-- What `processNewPeer` did with a peer. -/
inductive NewPeerOutcome where
  /-- Its key was already in the index; the peer is dropped. -/
  | existing
  /-- The index was full; the peer is dropped. -/
  | full
  /-- `peer.Start()` was called and the peer indexed. -/
  | started
  deriving DecidableEq, Repr

namespace Manager

/-- `processNewPeer`: the outcome and the index afterwards. -/
def processNewPeer (maxPeerCount : Nat) (peerIndex : GoMap String Peer) (peer : Peer) :
    NewPeerOutcome × GoMap String Peer :=
  if peer.string ∈ peerIndex then (.existing, peerIndex)
  else if peerIndex.len ≥ maxPeerCount then (.full, peerIndex)
  else (.started, peerIndex.set peer.string peer)

/-- `processDonePeer`. -/
def processDonePeer (peerIndex : GoMap String Peer) (peer : Peer) : GoMap String Peer :=
  if peer.string ∈ peerIndex then peerIndex.delete peer.string else peerIndex

theorem processNewPeer_started {maxPeerCount : Nat} {peerIndex : GoMap String Peer} {peer : Peer}
    {idx : GoMap String Peer} (h : processNewPeer maxPeerCount peerIndex peer = (.started, idx)) :
    peer.string ∉ peerIndex ∧ peerIndex.len < maxPeerCount ∧ idx = peerIndex.set peer.string peer := by
  unfold processNewPeer at h
  split at h
  · simp at h
  · split at h
    · simp at h
    · simp only [Prod.mk.injEq] at h
      exact ⟨‹_›, by omega, h.2.symm⟩

theorem processNewPeer_dropped {maxPeerCount : Nat} {peerIndex : GoMap String Peer} {peer : Peer}
    {o : NewPeerOutcome} {idx : GoMap String Peer}
    (h : processNewPeer maxPeerCount peerIndex peer = (o, idx)) (ho : o ≠ .started) :
    idx = peerIndex := by
  unfold processNewPeer at h
  split at h
  · exact (Prod.mk.inj h).2.symm
  · split at h
    · exact (Prod.mk.inj h).2.symm
    · exact absurd (Prod.mk.inj h).1.symm ho

theorem get_processDonePeer (peerIndex : GoMap String Peer) (peer : Peer) (k : String) :
    (processDonePeer peerIndex peer).get k = if k = peer.string then none else peerIndex.get k := by
  unfold processDonePeer
  split
  · exact GoMap.get_delete _ _ _
  · split
    · subst k; exact GoMap.not_mem_iff_get.mp ‹_›
    · rfl

theorem len_processDonePeer_le (peerIndex : GoMap String Peer) (peer : Peer) :
    (processDonePeer peerIndex peer).len ≤ peerIndex.len := by
  unfold processDonePeer
  split
  · exact GoMap.len_delete_le _ _
  · exact le_rfl

end Manager

/-! ## The handler and its messages -/

/-- A message the peer handler has taken, with what `processNewPeer` did for a new
peer. -/
inductive Handled where
  | new (p : Peer) (outcome : NewPeerOutcome)
  | done (p : Peer)
  deriving DecidableEq, Repr

/-- The peer handler: `peerIndex`, the messages in flight on `peerNew` and `peerDone`
(oldest first), the peers that have sent on each, and the log of handled messages
(newest first). The last three are bookkeeping of the model. -/
structure PeerHandler where
  peerIndex : GoMap String Peer
  peerNew : List Peer
  peerDone : List Peer
  sentNew : List Peer
  sentDone : List Peer
  handled : List Handled

/-- One step: a peer sends itself on a channel, at most once per channel, or the
handler's select takes the oldest message of a channel. -/
inductive PeerEvent where
  | sendNew (p : Peer)
  | sendDone (p : Peer)
  | takeNew
  | takeDone
  deriving DecidableEq, Repr

namespace PeerHandler

/-- The handler as `NewManager` leaves it: everything empty. -/
def init : PeerHandler := ⟨∅, [], [], [], [], []⟩

/-- One step; `none` when the event is not enabled. -/
def step (maxPeerCount : Nat) (s : PeerHandler) : PeerEvent → Option PeerHandler
  | .sendNew p =>
      if p ∈ s.sentNew then none
      else some { s with peerNew := s.peerNew ++ [p], sentNew := p :: s.sentNew }
  | .sendDone p =>
      if p ∈ s.sentDone then none
      else some { s with peerDone := s.peerDone ++ [p], sentDone := p :: s.sentDone }
  | .takeNew =>
      match s.peerNew with
      | [] => none
      | p :: rest =>
          let r := Manager.processNewPeer maxPeerCount s.peerIndex p
          some { s with peerIndex := r.2, peerNew := rest, handled := .new p r.1 :: s.handled }
  | .takeDone =>
      match s.peerDone with
      | [] => none
      | p :: rest =>
          some { s with peerIndex := Manager.processDonePeer s.peerIndex p, peerDone := rest,
                        handled := .done p :: s.handled }

/-- The states some interleaving reaches from `init`. -/
abbrev Reachable (maxPeerCount : Nat) : PeerHandler → Prop := Trace.Reachable (step maxPeerCount) init

/-- Replays a sequence of events. -/
abbrev run (maxPeerCount : Nat) : PeerHandler → List PeerEvent → Option PeerHandler :=
  Trace.run (step maxPeerCount)

/-! ## The index as the set of live started peers -/

/-- The index as `processDonePeer`'s comment has it, a done peer being one already
removed: the values of `peerIndex` are exactly the peers started and whose done
message has not been handled, each under its own key, at most `maxPeerCount` of
them. -/
def IndexIsLive (maxPeerCount : Nat) (s : PeerHandler) : Prop :=
  (∀ p, (∃ k, s.peerIndex.get k = some p) ↔
      Handled.new p .started ∈ s.handled ∧ Handled.done p ∉ s.handled) ∧
    (∀ k p, s.peerIndex.get k = some p → p.string = k) ∧ s.peerIndex.len ≤ maxPeerCount

/-- The select takes a peer's done message before its new message: the dead peer is
started and indexed, and keeps its slot. -/
theorem done_before_new_indexes_dead_peer :
    ∃ s, Reachable 1000 s ∧ ¬ IndexIsLive 1000 s := by
  let p : Peer := ⟨0, "10.0.0.1:8333"⟩
  refine ⟨_, Trace.reachable_run [.sendNew p, .sendDone p, .takeDone, .takeNew] .init rfl, ?_⟩
  intro h
  have hp := (h.1 p).mp ⟨p.string, by decide⟩
  exact hp.2 (by decide)

/-! ## What holds: the index read off the log -/

/-- The entry the handled messages leave under key `k`: the latest start or done
with that key decides. -/
def keyState (k : String) : List Handled → Option Peer
  | [] => none
  | .new p .started :: rest => if p.string = k then some p else keyState k rest
  | .done p :: rest => if p.string = k then none else keyState k rest
  | .new _ _ :: rest => keyState k rest

/-- Every logged start found its key empty. -/
def StartsFresh : List Handled → Prop
  | [] => True
  | .new p .started :: rest => keyState p.string rest = none ∧ StartsFresh rest
  | _ :: rest => StartsFresh rest

/-- The invariant of every reachable state. -/
structure Inv (maxPeerCount : Nat) (s : PeerHandler) : Prop where
  get_eq : ∀ k, s.peerIndex.get k = keyState k s.handled
  fresh : StartsFresh s.handled
  bound : s.peerIndex.len ≤ maxPeerCount

theorem init_inv (maxPeerCount : Nat) : Inv maxPeerCount init :=
  ⟨fun _ => rfl, trivial, Nat.zero_le _⟩

theorem takeNew_inv {maxPeerCount : Nat} {s : PeerHandler} (hi : Inv maxPeerCount s) {p : Peer}
    {o : NewPeerOutcome} {idx : GoMap String Peer}
    (hr : Manager.processNewPeer maxPeerCount s.peerIndex p = (o, idx)) :
    (∀ k, idx.get k = keyState k (.new p o :: s.handled)) ∧ StartsFresh (.new p o :: s.handled) ∧
      idx.len ≤ maxPeerCount := by
  cases o with
  | started =>
      obtain ⟨hk, hlen, rfl⟩ := Manager.processNewPeer_started hr
      refine ⟨fun k => ?_, ⟨?_, hi.fresh⟩, ?_⟩
      · rw [GoMap.get_set]; simp only [keyState, eq_comm (a := k), hi.get_eq]
      · rw [← hi.get_eq]; exact GoMap.not_mem_iff_get.mp hk
      · rw [GoMap.len_set_of_not_mem _ hk]; omega
  | existing | full =>
      obtain rfl := Manager.processNewPeer_dropped hr (by simp)
      simp only [keyState, StartsFresh]
      exact ⟨hi.get_eq, hi.fresh, hi.bound⟩

theorem step_inv {maxPeerCount : Nat} {s s' : PeerHandler} {e : PeerEvent}
    (hi : Inv maxPeerCount s) (h : step maxPeerCount s e = some s') : Inv maxPeerCount s' := by
  cases e with
  | sendNew p | sendDone p =>
      simp only [step] at h; split at h <;> cases h; exact ⟨hi.1, hi.2, hi.3⟩
  | takeNew =>
      simp only [step] at h
      split at h
      · cases h
      · rename_i p rest _
        cases h
        obtain ⟨hget, hfresh, hbound⟩ := takeNew_inv hi (Prod.mk.eta (p := Manager.processNewPeer _ _ p))
        exact ⟨hget, hfresh, hbound⟩
  | takeDone =>
      simp only [step] at h
      split at h
      · cases h
      · rename_i p rest _
        cases h
        refine ⟨fun k => ?_, hi.fresh, (Manager.len_processDonePeer_le _ _).trans hi.bound⟩
        simp only [Manager.get_processDonePeer, keyState, eq_comm (a := k), hi.get_eq]

theorem reachable_inv {maxPeerCount : Nat} {s : PeerHandler} (h : Reachable maxPeerCount s) :
    Inv maxPeerCount s :=
  Trace.ReachableUnder.inv _ (init_inv maxPeerCount) (fun _ _ _ _ hs hi => step_inv hi hs) h

/-! ## From the log to the started peers -/

/-- The messages handled since `p` was started, newest first. -/
def sinceStart (p : Peer) (handled : List Handled) : List Handled :=
  handled.takeWhile (· ≠ .new p .started)

theorem sinceStart_cons_of_ne {p : Peer} {e : Handled} (h : e ≠ .new p .started)
    (rest : List Handled) : sinceStart p (e :: rest) = e :: sinceStart p rest := by
  simp [sinceStart, List.takeWhile_cons, h]

theorem keyState_key {k : String} {p : Peer} :
    ∀ {hs : List Handled}, keyState k hs = some p → p.string = k
  | [], h => by simp [keyState] at h
  | .new q .started :: rest, h
  | .done q :: rest, h => by
      simp only [keyState] at h
      split at h
      · cases h <;> assumption
      · exact keyState_key h
  | .new q .existing :: rest, h | .new q .full :: rest, h => keyState_key (by simpa [keyState] using h)

/-- The entry of a key is a started peer whose own done message has not been handled
since its start. -/
theorem keyState_started {k : String} {p : Peer} :
    ∀ {hs : List Handled}, keyState k hs = some p →
      Handled.new p .started ∈ hs ∧ Handled.done p ∉ sinceStart p hs
  | [], h => by simp [keyState] at h
  | .new q .started :: rest, h => by
      simp only [keyState] at h
      split at h
      · cases h; simp [sinceStart]
      · obtain ⟨hm, hd⟩ := keyState_started h
        have hne : Handled.new q .started ≠ .new p .started := by
          intro he; cases he; exact ‹¬_› (keyState_key h)
        rw [sinceStart_cons_of_ne hne]
        simp [hm, hd]
  | .done q :: rest, h => by
      simp only [keyState] at h
      split at h
      · cases h
      · obtain ⟨hm, hd⟩ := keyState_started h
        have hne : p ≠ q := by rintro rfl; exact ‹¬_› (keyState_key h)
        rw [sinceStart_cons_of_ne (by simp)]
        simp [hm, hd, hne]
  | .new q .existing :: rest, h | .new q .full :: rest, h => by
      obtain ⟨hm, hd⟩ := keyState_started (by simpa [keyState] using h)
      rw [sinceStart_cons_of_ne (by simp)]
      simp [hm, hd]

/-- A started peer keeps its key while no done message of that key is handled. -/
theorem keyState_of_started {p : Peer} :
    ∀ {hs : List Handled}, StartsFresh hs → Handled.new p .started ∈ hs →
      (∀ q, Handled.done q ∈ sinceStart p hs → q.string ≠ p.string) →
      keyState p.string hs = some p
  | [], _, hm, _ => by simp at hm
  | .new q .started :: rest, hf, hm, hd => by
      by_cases hq : q = p
      · subst hq; simp [keyState]
      · have hne : Handled.new q .started ≠ .new p .started := by simpa using hq
        rw [sinceStart_cons_of_ne hne] at hd
        have ih := keyState_of_started hf.2 (by simpa [Ne.symm hq] using hm)
          (fun r hr => hd r (List.mem_cons_of_mem _ hr))
        simp only [keyState]
        split
        · rename_i hk; rw [← hk, hf.1] at ih; cases ih
        · exact ih
  | .done q :: rest, hf, hm, hd => by
      rw [sinceStart_cons_of_ne (by simp)] at hd
      simp only [keyState, hd q (List.mem_cons_self _ _), if_false]
      exact keyState_of_started hf (by simpa using hm) (fun r hr => hd r (List.mem_cons_of_mem _ hr))
  | .new q .existing :: rest, hf, hm, hd | .new q .full :: rest, hf, hm, hd => by
      rw [sinceStart_cons_of_ne (by simp)] at hd
      simp only [keyState]
      exact keyState_of_started hf (by simpa using hm) (fun r hr => hd r (List.mem_cons_of_mem _ hr))

/-- The index in terms of the handled messages. -/
structure IndexSound (maxPeerCount : Nat) (s : PeerHandler) : Prop where
  /-- Every entry is stored under its own `String()`. -/
  key : ∀ k p, s.peerIndex.get k = some p → p.string = k
  /-- Every entry was started, and its own done message has not been handled since. -/
  live : ∀ k p, s.peerIndex.get k = some p →
    Handled.new p .started ∈ s.handled ∧ Handled.done p ∉ sinceStart p s.handled
  /-- A started peer stays indexed while no done message of its key is handled. -/
  kept : ∀ p, Handled.new p .started ∈ s.handled →
    (∀ q, Handled.done q ∈ sinceStart p s.handled → q.string ≠ p.string) →
    s.peerIndex.get p.string = some p
  bound : s.peerIndex.len ≤ maxPeerCount

theorem indexSound_of_reachable (maxPeerCount : Nat) (s : PeerHandler)
    (h : Reachable maxPeerCount s) : IndexSound maxPeerCount s := by
  have hi := reachable_inv h
  refine ⟨fun k p hp => keyState_key ((hi.get_eq k).symm.trans hp),
    fun k p hp => keyState_started ((hi.get_eq k).symm.trans hp),
    fun p hm hd => (hi.get_eq _).trans (keyState_of_started hi.fresh hm hd), hi.bound⟩

/-- The run of `done_before_new_indexes_dead_peer` keeps the index sound. -/
theorem indexSound_dead_peer_run :
    ∃ s, run 1000 init [.sendNew ⟨0, "10.0.0.1:8333"⟩, .sendDone ⟨0, "10.0.0.1:8333"⟩, .takeDone, .takeNew] = some s ∧
      IndexSound 1000 s :=
  ⟨_, rfl, indexSound_of_reachable 1000 _ (Trace.reachable_run [.sendNew ⟨0, "10.0.0.1:8333"⟩,
    .sendDone ⟨0, "10.0.0.1:8333"⟩, .takeDone, .takeNew] .init rfl)⟩

end PeerHandler

end PassiveBitcoin
