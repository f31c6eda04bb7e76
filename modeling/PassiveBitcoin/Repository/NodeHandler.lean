/-
# PassiveBitcoin.Repository.NodeHandler — concurrent `Update`s and the node handler

`Update(addr, src)` reads `nodeIndex`: a known address gets its node's `src`
overwritten in place, a new one is wrapped in a fresh node and sent on `nodeQ`. The
node handler takes the nodes from `nodeQ` in order and inserts each through
`handleNode`. `NodeHandler` is that pair of parties with a log of the `Update` calls;
`NodeHandler.step` is one whole `Update` call or one node taken by the handler.

Between a call that queues a node and the handler taking it, the address is still
unknown, so a second `Update` of it queues a second node. The handler inserts the
first and, the address now known, drops the second (and returns, `handleNode`): the
second call's `src` is lost (`second_update_src_lost`). What every reachable state
does satisfy is `srcOfLastKept`: the `src` of an indexed address is that of the last
`Update` of it that took effect — one that found it in the index, or whose node the
handler inserted.

The proof keeps, for each call, whether it took effect (`UpdateCall.kept`) and for
each queued node the call that sent it (`pending`); `Inv` ties them to the index.
-/
import PassiveBitcoin.Go.Trace
import PassiveBitcoin.Repository.Node

namespace PassiveBitcoin

set_option autoImplicit false

/-- One `Update` call: a fresh identity, its arguments, and whether it took effect. -/
structure UpdateCall where
  id : Nat
  addr : Option TCPAddr
  src : Option TCPAddr
  kept : Bool
  deriving DecidableEq, Repr

/-- The key the call's address has in `nodeIndex`. -/
def UpdateCall.key (c : UpdateCall) : String := TCPAddr.ptrString c.addr

/-- The node the call sends on `nodeQ` when its address is new. -/
def UpdateCall.node (c : UpdateCall) : Node := newNode c.addr c.src

/-- `Update` callers and the node handler. `calls` (newest first) and `pending` (the
calls whose nodes wait in `nodeQ`, oldest first) are bookkeeping of the model. -/
structure NodeHandler where
  nodeIndex : NodeIndex
  nodeQ : List Node
  running : Bool
  calls : List UpdateCall
  pending : List UpdateCall

/-- One `Update(addr, src)` call, or the handler taking the oldest node of `nodeQ`. -/
inductive NodeEvent where
  | update (addr src : Option TCPAddr)
  | take
  deriving DecidableEq, Repr

namespace NodeHandler

/-- The handler running over the index `Start` left, with nothing queued yet. -/
def init (nodeIndex : NodeIndex) : NodeHandler := ⟨nodeIndex, [], true, [], []⟩

/-- Mark the call with identity `i` as having taken effect. -/
def keep (i : Nat) (calls : List UpdateCall) : List UpdateCall :=
  calls.map fun c => if c.id = i then { c with kept := true } else c

/-- One step; `none` when the event is not enabled. -/
def step (maxNodeCount : Nat) (s : NodeHandler) : NodeEvent → Option NodeHandler
  | .update addr src =>
      match Repository.update s.nodeIndex addr src with
      | .refreshed idx =>
          some { s with nodeIndex := idx, calls := ⟨s.calls.length, addr, src, true⟩ :: s.calls }
      | .enqueue n =>
          let c : UpdateCall := ⟨s.calls.length, addr, src, false⟩
          some { s with nodeQ := s.nodeQ ++ [n], calls := c :: s.calls, pending := s.pending ++ [c] }
  | .take =>
      match s.running, s.nodeQ, s.pending with
      | true, n :: rest, c :: cs =>
          match Repository.handleNode maxNodeCount s.nodeIndex n with
          | some idx => some { s with nodeIndex := idx, nodeQ := rest, pending := cs, calls := keep c.id s.calls }
          | none => some { s with nodeQ := rest, pending := cs, running := false }
      | _, _, _ => none

/-- The states some interleaving reaches from `init nodeIndex`. -/
abbrev Reachable (maxNodeCount : Nat) (nodeIndex : NodeIndex) : NodeHandler → Prop :=
  Trace.Reachable (step maxNodeCount) (init nodeIndex)

/-- Replays a sequence of events. -/
abbrev run (maxNodeCount : Nat) : NodeHandler → List NodeEvent → Option NodeHandler :=
  Trace.run (step maxNodeCount)

/-! ## `src` as `Update`'s comment has it: the address that last saw the node -/

/-- The last `Update` call of key `k`, in call order. -/
def lastCall (k : String) (s : NodeHandler) : Option UpdateCall := s.calls.find? (·.key = k)

/-- Once the handler has taken every queued node, an indexed address has the `src` of
its last `Update`. -/
def LastSrcWins (s : NodeHandler) : Prop :=
  s.nodeQ = [] → ∀ k n c, s.nodeIndex.get k = some n → lastCall k s = some c → n.src = c.src

/-- Two `Update`s of one new address before the handler runs: the handler takes both
nodes, inserts the first and drops the second, whose `src` is lost. -/
theorem second_update_src_lost :
    ∃ s, Reachable 1000 ∅ s ∧ ¬ LastSrcWins s := by
  let a : TCPAddr := ⟨[10, 0, 0, 1], 8333, ""⟩
  let s1 : TCPAddr := ⟨[10, 0, 0, 2], 8333, ""⟩
  let s2 : TCPAddr := ⟨[10, 0, 0, 3], 8333, ""⟩
  refine ⟨_, Trace.reachable_run_get [.update a s1, .update a s2, .take, .take] (by decide), fun h => ?_⟩
  have := h (by decide) (TCPAddr.ptrString a) (newNode a s1) ⟨1, a, s2, false⟩ (by decide) (by decide)
  exact absurd this (by decide)

/-! ## What holds: the last call that took effect wins -/

/-- Whether a call is of key `k` and took effect. -/
def keptFor (k : String) (c : UpdateCall) : Bool := c.kept && c.key == k

/-- The last `Update` call of key `k`, in call order, that took effect. -/
def lastKept (k : String) (s : NodeHandler) : Option UpdateCall := s.calls.find? (keptFor k)

theorem keptFor_iff {k : String} {c : UpdateCall} : keptFor k c = true ↔ c.kept = true ∧ c.key = k := by
  simp [keptFor]

/-- The invariant of every reachable state. -/
structure Inv (s : NodeHandler) : Prop where
  /-- Call identities are distinct and below the number of calls. -/
  ids : (s.calls.map (·.id)).Nodup ∧ ∀ c ∈ s.calls, c.id < s.calls.length
  /-- A call that took effect has its address in the index. -/
  kept_mem : ∀ c ∈ s.calls, c.kept → c.key ∈ s.nodeIndex
  /-- Each queued node was sent by a pending call that has not taken effect. -/
  queue : s.nodeQ = s.pending.map (·.node) ∧ (s.pending.map (·.id)).Nodup ∧
    ∀ c ∈ s.pending, c ∈ s.calls ∧ c.kept = false
  /-- An indexed node has the `src` of the last call of its key that took effect. -/
  src_eq : ∀ k n c, s.nodeIndex.get k = some n → lastKept k s = some c → n.src = c.src
  /-- An indexed address that some call named has a call that took effect. -/
  kept_exists : ∀ k n, s.nodeIndex.get k = some n → (∃ c ∈ s.calls, c.key = k) → lastKept k s ≠ none

/-! ## The bookkeeping of `keep` -/

theorem keep_cons (i : Nat) (d : UpdateCall) (rest : List UpdateCall) :
    keep i (d :: rest) = (if d.id = i then { d with kept := true } else d) :: keep i rest := rfl

theorem map_id_keep (i : Nat) (calls : List UpdateCall) : (keep i calls).map (·.id) = calls.map (·.id) := by
  induction calls with
  | nil => rfl
  | cons d rest ih => rw [keep_cons, List.map_cons, List.map_cons, ih]; split <;> rfl

theorem mem_keep_of_ne {i : Nat} {calls : List UpdateCall} {c : UpdateCall} (hc : c ∈ calls) (h : c.id ≠ i) :
    c ∈ keep i calls :=
  List.mem_map.mpr ⟨c, hc, if_neg h⟩

theorem mem_keep {i : Nat} {calls : List UpdateCall} {c : UpdateCall} (h : c ∈ keep i calls) :
    ∃ d ∈ calls, d.key = c.key ∧ (c.kept = true → d.kept = true ∨ d.id = i) := by
  obtain ⟨d, hd, rfl⟩ := List.mem_map.mp h
  refine ⟨d, hd, by split <;> rfl, fun hk => ?_⟩
  split at hk
  · exact .inr ‹_›
  · exact .inl hk

/-- The call with identity `i` has another key: keeping it leaves the last kept call
of `k` as it was. -/
theorem find_keep_of_key_ne {k : String} {i : Nat} :
    ∀ {calls : List UpdateCall}, (∀ d ∈ calls, d.id = i → d.key ≠ k) →
      (keep i calls).find? (keptFor k) = calls.find? (keptFor k)
  | [], _ => rfl
  | d :: rest, h => by
      have ih := find_keep_of_key_ne (fun d' hd' => h d' (List.mem_cons_of_mem _ hd'))
      rw [keep_cons]
      by_cases hd : d.id = i
      · have hne : ¬TCPAddr.ptrString d.addr = k := h d (List.mem_cons_self _ _) hd
        have hk : keptFor k d = false := by simp [keptFor, UpdateCall.key, hne]
        have hk' : keptFor k { d with kept := true } = false := by simp [keptFor, UpdateCall.key, hne]
        rw [if_pos hd, List.find?_cons_of_neg _ (by simp [hk']), List.find?_cons_of_neg _ (by simp [hk]), ih]
      · rw [if_neg hd, List.find?_cons, List.find?_cons, ih]

/-- Keeping the only call of `k` that could take effect makes it the last kept one. -/
theorem find_keep_self {k : String} {c : UpdateCall} :
    ∀ {calls : List UpdateCall}, c ∈ calls → (calls.map (·.id)).Nodup → c.key = k →
      calls.find? (keptFor k) = none →
      (keep c.id calls).find? (keptFor k) = some { c with kept := true }
  | [], hc, _, _, _ => by simp at hc
  | d :: rest, hc, hnd, hk, hnone => by
      rw [List.map_cons, List.nodup_cons] at hnd
      have hdk : keptFor k d = false := by
        cases h : keptFor k d
        · rfl
        · rw [List.find?_cons_of_pos _ h] at hnone; cases hnone
      rw [List.find?_cons_of_neg _ (by simp [hdk])] at hnone
      rw [keep_cons]
      by_cases hd : d.id = c.id
      · have : d = c := by
          rcases List.mem_cons.mp hc with rfl | hc'
          · rfl
          · exact absurd (List.mem_map.mpr ⟨c, hc', hd.symm⟩) hnd.1
        subst this
        rw [if_pos rfl, List.find?_cons_of_pos _
          (keptFor_iff.mpr ⟨rfl, hk⟩ : keptFor k { d with kept := true } = true)]
      · rcases List.mem_cons.mp hc with rfl | hc'
        · exact absurd rfl hd
        · rw [if_neg hd, List.find?_cons_of_neg _ (by simp [hdk])]
          exact find_keep_self hc' hnd.2 hk hnone

/-! ## The invariant -/

theorem init_inv (nodeIndex : NodeIndex) : Inv (init nodeIndex) where
  ids := ⟨List.nodup_nil, by simp [init]⟩
  kept_mem := by simp [init]
  queue := ⟨rfl, List.nodup_nil, by simp [init]⟩
  src_eq := by simp [init, lastKept]
  kept_exists := by simp [init]

/-- A call with a fresh identity keeps the identities distinct and bounded. -/
theorem ids_cons {calls : List UpdateCall} (h : (calls.map (·.id)).Nodup ∧ ∀ c ∈ calls, c.id < calls.length)
    (c : UpdateCall) (hc : c.id = calls.length) :
    ((c :: calls).map (·.id)).Nodup ∧ ∀ d ∈ c :: calls, d.id < (c :: calls).length := by
  refine ⟨List.nodup_cons.mpr ⟨fun hm => ?_, h.1⟩, ?_⟩
  · obtain ⟨d, hd, he⟩ := List.mem_map.mp hm
    have := h.2 d hd
    simp only at he
    omega
  · simp only [List.mem_cons, List.length_cons, forall_eq_or_imp]
    exact ⟨by omega, fun d hd => Nat.lt_succ_of_lt (h.2 d hd)⟩

theorem refreshed_inv {s : NodeHandler} (hi : Inv s) {addr src : Option TCPAddr}
    (hk : TCPAddr.ptrString addr ∈ s.nodeIndex) :
    Inv { s with nodeIndex := Repository.touch s.nodeIndex addr fun n => { n with src := src },
                 calls := ⟨s.calls.length, addr, src, true⟩ :: s.calls } := by
  obtain ⟨hids, hkept, hq, hsrc, hex⟩ := hi
  have hnew : ∀ k, k = TCPAddr.ptrString addr →
      (⟨s.calls.length, addr, src, true⟩ :: s.calls).find? (keptFor k) = some ⟨s.calls.length, addr, src, true⟩ :=
    fun k hke => List.find?_cons_of_pos _ (keptFor_iff.mpr ⟨rfl, hke.symm⟩)
  have hold : ∀ k, k ≠ TCPAddr.ptrString addr →
      (⟨s.calls.length, addr, src, true⟩ :: s.calls).find? (keptFor k) = lastKept k s :=
    fun k hke => List.find?_cons_of_neg _ (by simp [keptFor, UpdateCall.key, Ne.symm hke])
  refine ⟨ids_cons hids _ rfl, ?_, ?_, fun k n c hn hc => ?_, fun k n hn hcall => ?_⟩
  · simp only [List.mem_cons, forall_eq_or_imp, Repository.mem_touch]
    exact ⟨fun _ => hk, hkept⟩
  · exact ⟨hq.1, hq.2.1, fun c hc => ⟨List.mem_cons_of_mem _ (hq.2.2 c hc).1, (hq.2.2 c hc).2⟩⟩
  · rw [Repository.get_touch] at hn
    split at hn
    · rw [lastKept, hnew k ‹_›, Option.some.injEq] at hc
      subst hc
      obtain ⟨m, -, rfl⟩ := Option.map_eq_some'.mp hn
      rfl
    · rw [lastKept, hold k ‹_›] at hc
      exact hsrc k n c hn hc
  · rw [lastKept]
    by_cases hke : k = TCPAddr.ptrString addr
    · simp [hnew k hke]
    · rw [Repository.get_touch, if_neg hke] at hn
      rw [hold k hke]
      obtain ⟨c, hc, hck⟩ := hcall
      rcases List.mem_cons.mp hc with rfl | hc'
      · exact absurd hck.symm hke
      · exact hex k n hn ⟨c, hc', hck⟩

theorem enqueued_inv {s : NodeHandler} (hi : Inv s) {addr src : Option TCPAddr}
    (hk : TCPAddr.ptrString addr ∉ s.nodeIndex) :
    Inv { s with nodeQ := s.nodeQ ++ [newNode addr src],
                 calls := ⟨s.calls.length, addr, src, false⟩ :: s.calls,
                 pending := s.pending ++ [⟨s.calls.length, addr, src, false⟩] } := by
  obtain ⟨hids, hkept, hq, hsrc, hex⟩ := hi
  have hold : ∀ k, (⟨s.calls.length, addr, src, false⟩ :: s.calls).find? (keptFor k) = lastKept k s :=
    fun k => List.find?_cons_of_neg _ (by simp [keptFor])
  refine ⟨ids_cons hids _ rfl, ?_, ⟨by simp [hq.1, UpdateCall.node], ?_, ?_⟩,
    fun k n c hn hc => hsrc k n c hn ((hold k).symm.trans hc), fun k n hn hcall => ?_⟩
  · simp only [List.mem_cons, forall_eq_or_imp, Bool.false_eq_true, false_implies, true_and]
    exact hkept
  · simp only [List.map_append, List.map_cons, List.map_nil]
    refine List.nodup_append.mpr ⟨hq.2.1, List.nodup_singleton _, fun x hx hy => ?_⟩
    obtain ⟨c, hc, rfl⟩ := List.mem_map.mp hx
    exact (hids.2 c (hq.2.2 c hc).1).ne (List.mem_singleton.mp hy)
  · intro c hc
    rcases List.mem_append.mp hc with hc | hc
    · exact ⟨List.mem_cons_of_mem _ (hq.2.2 c hc).1, (hq.2.2 c hc).2⟩
    · rw [List.mem_singleton.mp hc]
      exact ⟨List.mem_cons_self _ _, rfl⟩
  · rw [lastKept, hold k]
    obtain ⟨c, hc, hck⟩ := hcall
    rcases List.mem_cons.mp hc with rfl | hc'
    · exact absurd ((show TCPAddr.ptrString addr = k from hck) ▸ GoMap.mem_of_get_eq_some hn) hk
    · exact hex k n hn ⟨c, hc', hck⟩

theorem inserted_inv {s : NodeHandler} (hi : Inv s) {n : Node} {rest : List Node} {c : UpdateCall}
    {cs : List UpdateCall} {maxNodeCount : Nat} {idx : NodeIndex} (hq : s.nodeQ = n :: rest)
    (hp : s.pending = c :: cs) (hh : Repository.handleNode maxNodeCount s.nodeIndex n = some idx) :
    Inv { s with nodeIndex := idx, nodeQ := rest, pending := cs, calls := keep c.id s.calls } := by
  obtain ⟨hids, hkept, ⟨hqn, hqnd, hqc⟩, hsrc, hex⟩ := hi
  rw [hq, hp, List.map_cons, List.cons.injEq] at hqn
  obtain ⟨rfl, hrest⟩ := hqn
  rw [hp, List.map_cons, List.nodup_cons] at hqnd
  have hc : c ∈ s.calls := (hqc c (hp ▸ List.mem_cons_self _ _)).1
  obtain ⟨hfresh, -, rfl⟩ := Repository.handleNode_eq_some hh
  have hkey : c.node.key = c.key := rfl
  have hunique : ∀ d ∈ s.calls, d.id = c.id → d = c :=
    fun d hd he => List.inj_on_of_nodup_map hids.1 hd hc he
  have hnone : s.calls.find? (keptFor c.key) = none :=
    List.find?_eq_none.mpr fun d hd hk => hfresh (hkey ▸ (keptFor_iff.mp hk).2 ▸ hkept d hd (keptFor_iff.mp hk).1)
  have hold : ∀ k, k ≠ c.key → (keep c.id s.calls).find? (keptFor k) = lastKept k s :=
    fun k hk => find_keep_of_key_ne fun d hd he => hunique d hd he ▸ hk.symm
  have hmem : ∀ k, k ∈ s.nodeIndex → k ∈ s.nodeIndex.set c.node.key c.node := fun k h =>
    (AList.mem_insert _).mpr (.inr h)
  refine ⟨⟨by rw [map_id_keep]; exact hids.1, fun d hd => ?_⟩, fun d hd hk => ?_, ⟨hrest, hqnd.2, fun d hd => ?_⟩,
    fun k m e hm he => ?_, fun k m hm hcall => ?_⟩
  · have : d.id ∈ s.calls.map (·.id) := map_id_keep c.id s.calls ▸ List.mem_map_of_mem (·.id) hd
    obtain ⟨d', hd', he⟩ := List.mem_map.mp this
    rw [keep, List.length_map, ← he]
    exact hids.2 d' hd'
  · obtain ⟨d', hd', hdk, hk'⟩ := mem_keep hd
    rcases hk' hk with hk' | he
    · exact hdk ▸ hmem _ (hkept d' hd' hk')
    · rw [← hdk, hunique d' hd' he]; exact (AList.mem_insert _).mpr (.inl rfl)
  · have hdc := (hqc d (hp ▸ List.mem_cons_of_mem _ hd))
    refine ⟨mem_keep_of_ne hdc.1 fun he => hqnd.1 (he ▸ List.mem_map_of_mem _ hd), hdc.2⟩
  · rw [GoMap.get_set] at hm
    split at hm
    · rename_i hke
      rw [lastKept, hke, hkey, find_keep_self hc hids.1 rfl hnone, Option.some.injEq] at he
      cases hm; cases he; rfl
    · exact hsrc k m e hm ((hold k (hkey ▸ ‹_›)).symm.trans he)
  · by_cases hke : k = c.key
    · subst hke; simp [lastKept, find_keep_self hc hids.1 rfl hnone]
    · rw [GoMap.get_set, if_neg (hkey ▸ hke)] at hm
      obtain ⟨d, hd, hdk⟩ := hcall
      obtain ⟨d', hd', hdk', -⟩ := mem_keep hd
      show (keep c.id s.calls).find? (keptFor k) ≠ none
      exact (hold k hke).symm ▸ hex k m hm ⟨d', hd', hdk'.trans hdk⟩

theorem dropped_inv {s : NodeHandler} (hi : Inv s) {n : Node} {rest : List Node} {c : UpdateCall}
    {cs : List UpdateCall} (hq : s.nodeQ = n :: rest) (hp : s.pending = c :: cs) :
    Inv { s with nodeQ := rest, pending := cs, running := false } := by
  obtain ⟨hids, hkept, ⟨hqn, hqnd, hqc⟩, hsrc, hex⟩ := hi
  rw [hq, hp, List.map_cons, List.cons.injEq] at hqn
  rw [hp, List.map_cons, List.nodup_cons] at hqnd
  exact ⟨hids, hkept, ⟨hqn.2, hqnd.2, fun d hd => hqc d (hp ▸ List.mem_cons_of_mem _ hd)⟩, hsrc, hex⟩

theorem step_inv {maxNodeCount : Nat} {s s' : NodeHandler} {e : NodeEvent} (hi : Inv s)
    (h : step maxNodeCount s e = some s') : Inv s' := by
  cases e with
  | update addr src =>
      by_cases hk : TCPAddr.ptrString addr ∈ s.nodeIndex
      · simp only [step, Repository.update_of_mem src hk, Option.some.injEq] at h
        exact h ▸ refreshed_inv hi hk
      · simp only [step, Repository.update_of_not_mem src hk, Option.some.injEq] at h
        exact h ▸ enqueued_inv hi hk
  | take =>
      simp only [step] at h
      split at h
      · rename_i n rest c cs hr hq hp
        split at h
        · rename_i idx hh
          cases h; exact inserted_inv hi hq hp hh
        · cases h; exact dropped_inv hi hq hp
      · cases h

theorem reachable_inv {maxNodeCount : Nat} {nodeIndex : NodeIndex} {s : NodeHandler}
    (h : Reachable maxNodeCount nodeIndex s) : Inv s :=
  Trace.ReachableUnder.inv _ (init_inv nodeIndex) (fun _ _ _ _ hs hi => step_inv hi hs) h

/-- In every reachable state, an indexed address that some `Update` named has the `src`
of the last `Update` of it that took effect. -/
theorem srcOfLastKept (maxNodeCount : Nat) (nodeIndex : NodeIndex) (s : NodeHandler)
    (h : Reachable maxNodeCount nodeIndex s) (k : String) (n : Node) (hn : s.nodeIndex.get k = some n)
    (hcall : ∃ c ∈ s.calls, c.key = k) : ∃ c, lastKept k s = some c ∧ n.src = c.src := by
  have hi := reachable_inv h
  obtain ⟨c, hc⟩ := Option.ne_none_iff_exists'.mp (hi.kept_exists k n hn hcall)
  exact ⟨c, hc, hi.src_eq k n c hn hc⟩

/-- Two `Update`s of one new address before the handler runs: the indexed node has the
`src` of the first call, the last one of its address that took effect. -/
theorem srcOfLastKept_after_duplicate :
    let a : TCPAddr := ⟨[10, 0, 0, 1], 8333, ""⟩
    let s1 : TCPAddr := ⟨[10, 0, 0, 2], 8333, ""⟩
    let s2 : TCPAddr := ⟨[10, 0, 0, 3], 8333, ""⟩
    ∃ s, run 1000 (init ∅) [.update a s1, .update a s2, .take, .take] = some s ∧
      ∃ c, lastKept (TCPAddr.ptrString a) s = some c ∧ (newNode a s1).src = c.src :=
  ⟨_, rfl, srcOfLastKept 1000 ∅ _ (Trace.reachable_run [.update (some ⟨[10, 0, 0, 1], 8333, ""⟩)
    (some ⟨[10, 0, 0, 2], 8333, ""⟩), .update (some ⟨[10, 0, 0, 1], 8333, ""⟩) (some ⟨[10, 0, 0, 3], 8333, ""⟩),
    .take, .take] .init rfl) _ _ (by decide) ⟨_, List.mem_cons_self _ _, rfl⟩⟩

end NodeHandler

end PassiveBitcoin
