/-
# PassiveBitcoin.Manager.Dial — `addPeer` against the repository

`addPeer` takes each address from `repo.Get()` and, once it has dialed one, calls
`repo.Attempt(addr)`, which ignores an address the index does not hold. Between the
two, every goroutine of the repository may act.

* `key_mem_of_get_eq_ok` — an address `Get` returns is the key of a node of the index
  it was drawn from, as long as every node sits under its own key (`KeysMatch`, which
  every reachable state whose restores fit keeps);
* `attempt_finds_dialed` — so the address `addPeer` dials was returned by one of its
  calls of `Get`, and after any run of the repository from that call on (the node
  handler, the save handler, `Update`, `Attempt`, `Connected`, `Good`, `Stop`, a
  restoring `Start`), `Attempt` finds that node and counts the attempt: it is never
  the ignored case.
-/
import PassiveBitcoin.Manager.AddPeer
import PassiveBitcoin.Repository.Bookkeeping

namespace PassiveBitcoin

set_option autoImplicit false

namespace Repository

/-- An address `Get` returns is the key of one of the index's nodes. -/
theorem key_mem_of_get_eq_ok {nodeIndex : NodeIndex} {order : List Node} (hk : KeysMatch nodeIndex)
    (horder : order.Perm (nodeIndex.entries.map Sigma.snd)) {rand : Nat} {addr : Option TCPAddr}
    (h : get nodeIndex order rand = .ok addr) : TCPAddr.ptrString addr ∈ nodeIndex := by
  unfold get at h
  split at h
  · cases h
  rw [getLoop_eq _ 0 order (Nat.zero_le _), Nat.sub_zero] at h
  split at h
  next n hn =>
    cases h
    obtain ⟨⟨k, m⟩, hkm, rfl⟩ := List.mem_map.mp (horder.subset (List.getElem?_mem hn))
    have hget : nodeIndex.get k = some m := AList.mem_lookup_iff.mpr hkm
    have hkey : TCPAddr.ptrString m.addr = k := hk k m hget
    show TCPAddr.ptrString m.addr ∈ nodeIndex
    rw [hkey]
    exact GoMap.mem_of_get_eq_some hget
  next => cases h

end Repository

namespace Manager

/-- The address `addPeer` dials came from its `i`-th call of `Get`, on the repository
in state `states i`; from that state on, whatever the repository runs, `Attempt` on
the address finds its node and counts the attempt. -/
theorem attempt_finds_dialed (maxAddrAttempts : Nat) (peerIndex : GoMap String Peer)
    (newOutgoingPeer : Option TCPAddr → Option String) (cfg : RepoConfig) (states : Nat → RepoState)
    (orders : Nat → List Node) (rands : Nat → Nat) (hk : ∀ i, KeysMatch (states i).nodeIndex)
    (horder : ∀ i, (orders i).Perm ((states i).nodeIndex.entries.map Sigma.snd)) {addr : Option TCPAddr}
    (hdial : addPeerLoop maxAddrAttempts peerIndex (fun i => Repository.get (states i).nodeIndex (orders i) (rands i))
      newOutgoingPeer = .dialed addr) :
    ∃ i < maxAddrAttempts, Repository.get (states i).nodeIndex (orders i) (rands i) = .ok addr ∧
      ∀ es s' now, Repository.run cfg (states i) es = some s' →
        ∃ n, s'.nodeIndex.get (TCPAddr.ptrString addr) = some n ∧
          (Repository.attempt s'.nodeIndex addr now).get (TCPAddr.ptrString addr) =
            some { n with attempts := n.attempts + 1, lastAttempt := now } := by
  rw [addPeerLoop_eq, addPeerEnd_eq_dialed, Option.map_eq_some'] at hdial
  obtain ⟨⟨i, hi, hget⟩, -⟩ := hdial
  refine ⟨i, List.mem_range.mp (List.mem_of_find?_eq_some hi), hget, fun es s' now hrun => ?_⟩
  have hmem : TCPAddr.ptrString addr ∈ s'.nodeIndex :=
    Trace.run_inv (fun s => TCPAddr.ptrString addr ∈ s.nodeIndex) (fun _ _ _ hs hk => Repository.mem_step_of_mem hs hk)
      es hrun (Repository.key_mem_of_get_eq_ok (hk i) (horder i) hget)
  obtain ⟨n, hn⟩ := Option.isSome_iff_exists.mp (GoMap.mem_iff_get.mp hmem)
  refine ⟨n, hn, ?_⟩
  rw [Repository.attempt, Repository.get_touch_of_get hn, if_pos rfl]

/-- One node in the index, no peer yet: the first `Get` returns it, `addPeer` dials it,
and its `Attempt` is counted whatever the repository ran meanwhile. -/
theorem attempt_finds_dialed_node :
    let a : TCPAddr := ⟨[10, 0, 0, 1], 8333, ""⟩
    let n : Node := newNode (some a) none
    let s : RepoState := { Repository.newRepository none with nodeIndex := (∅ : NodeIndex).set n.key n }
    (∀ _ : Nat, KeysMatch s.nodeIndex) ∧ (∀ _ : Nat, [n].Perm (s.nodeIndex.entries.map Sigma.snd)) ∧
      addPeerLoop 3 ∅ (fun _ => Repository.get s.nodeIndex [n] 5) (fun _ => none) = .dialed (some a) ∧
      ∃ i < 3, Repository.get s.nodeIndex [n] 5 = .ok (some a) ∧
        ∀ es s' now, Repository.run ⟨1000, 16⟩ s es = some s' →
          ∃ m, s'.nodeIndex.get (TCPAddr.ptrString (some a)) = some m ∧
            (Repository.attempt s'.nodeIndex (some a) now).get (TCPAddr.ptrString (some a)) =
              some { m with attempts := m.attempts + 1, lastAttempt := now } := by
  intro a n s
  have hk : ∀ _ : Nat, KeysMatch s.nodeIndex := fun _ => keysMatch_empty.set n
  have horder : ∀ _ : Nat, [n].Perm (s.nodeIndex.entries.map Sigma.snd) := fun _ => by decide
  have hdial : addPeerLoop 3 ∅ (fun _ => Repository.get s.nodeIndex [n] 5) (fun _ => none) = .dialed (some a) := by
    rw [addPeerLoop_eq]
    decide
  exact ⟨hk, horder, hdial,
    attempt_finds_dialed 3 ∅ (fun _ => none) ⟨1000, 16⟩ (fun _ => s) (fun _ => [n]) (fun _ => 5) hk horder hdial⟩

end Manager

end PassiveBitcoin
