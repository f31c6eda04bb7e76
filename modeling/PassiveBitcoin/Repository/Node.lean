/-
# PassiveBitcoin.Repository.Node — nodes and the operations on `nodeIndex`

The repository keeps what it knows about peer addresses in `nodeIndex`, a map from
`addr.String()` to a `node`. This module models the node record and every operation
of `repository` on the index, each as the index it leaves:

* `update` (`Update`) refreshes the source of a known node, or hands a new node to
  `nodeQ` for the handler;
* `attempt`, `connected` and `good` (`Attempt`, `Connected`, `Good`) change one
  known node, all through `touch`;
* `get` (`Get`) picks the node at a random position of the map's iteration order:
  for every index and iteration order, the node at position `rand % len`
  (`get_returns_position`); its fallback error is never reached;
* `handleNode` is the body of `handleNodes`' select case for one node from `nodeQ`,
  and `handleNodes` the handler's loop over the nodes it takes while `sigNode` stays
  open.

The handler's body does not do what its comments say. "if we already know this
address, skip" and "if we have reached our limit of nodes, skip" are both a `return`:
the goroutine exits at the first known or over-limit node, and no later node is ever
taken (`handleNodes_of_handleNode_none`). `handleNodes_stops_at_duplicate` is the
smallest case: two updates of one new address before the handler runs.

`KeysMatch` and `Bounded` are the two halves of the index invariant; every operation
here keeps both (`touch_keysMatch`, `handleNode_keysMatch`, `handleNode_bounded`).
-/
import PassiveBitcoin.Go.Map
import PassiveBitcoin.Go.Time
import PassiveBitcoin.Net.TCPAddr

namespace PassiveBitcoin

set_option autoImplicit false

/-- A `node`. `addr` and `src` are `*net.TCPAddr` pointers, `none` for nil. -/
structure Node where
  addr : Option TCPAddr
  src : Option TCPAddr
  attempts : UInt32
  lastAttempt : Time
  lastSuccess : Time
  lastConnect : Time
  deriving DecidableEq, Repr

/-- `newNode(addr, src)`. -/
def newNode (addr src : Option TCPAddr) : Node := ⟨addr, src, 0, .zero, .zero, .zero⟩

/-- `node.addr.String()`, the node's key in `nodeIndex`. -/
def Node.key (n : Node) : String := TCPAddr.ptrString n.addr

@[simp] theorem newNode_key (addr src : Option TCPAddr) :
    (newNode addr src).key = TCPAddr.ptrString addr := rfl

/-- The repository's `nodeIndex`. -/
abbrev NodeIndex := GoMap String Node

/-! ## The index invariant -/

/-- Every key is the address string of its node (and so each address appears once). -/
def KeysMatch (nodeIndex : NodeIndex) : Prop := ∀ k n, nodeIndex.get k = some n → n.key = k

/-- The index holds at most `maxNodeCount` nodes. -/
def Bounded (maxNodeCount : Nat) (nodeIndex : NodeIndex) : Prop := nodeIndex.len ≤ maxNodeCount

theorem keysMatch_empty : KeysMatch ∅ := by simp [KeysMatch]

theorem KeysMatch.set {nodeIndex : NodeIndex} (h : KeysMatch nodeIndex) (n : Node) :
    KeysMatch (nodeIndex.set n.key n) := by
  intro k m hm
  rw [GoMap.get_set] at hm
  split at hm
  · cases hm; exact (‹k = _›).symm
  · exact h k m hm

namespace Repository

/-! ## Update, Attempt, Connected, Good -/

/-- Change the node stored under `addr.String()`, if there is one. `Attempt`,
`Connected`, `Good` and the known branch of `Update` are all of this form. -/
def touch (nodeIndex : NodeIndex) (addr : Option TCPAddr) (f : Node → Node) : NodeIndex :=
  match nodeIndex.get (TCPAddr.ptrString addr) with
  | some n => nodeIndex.set (TCPAddr.ptrString addr) (f n)
  | none => nodeIndex

/-- What `Update` does with the index. -/
inductive UpdateResult where
  /-- The address is known: its node's `src` was overwritten in place. -/
  | refreshed (nodeIndex : NodeIndex)
  /-- The address is new: a fresh node is sent on `nodeQ`. -/
  | enqueue (n : Node)

/-- `Update(addr, src)`. -/
def update (nodeIndex : NodeIndex) (addr src : Option TCPAddr) : UpdateResult :=
  if TCPAddr.ptrString addr ∈ nodeIndex then .refreshed (touch nodeIndex addr fun n => { n with src := src })
  else .enqueue (newNode addr src)

theorem update_of_mem {nodeIndex : NodeIndex} {addr : Option TCPAddr} (src : Option TCPAddr)
    (h : TCPAddr.ptrString addr ∈ nodeIndex) :
    update nodeIndex addr src = .refreshed (touch nodeIndex addr fun n => { n with src := src }) :=
  if_pos h

theorem update_of_not_mem {nodeIndex : NodeIndex} {addr : Option TCPAddr} (src : Option TCPAddr)
    (h : TCPAddr.ptrString addr ∉ nodeIndex) : update nodeIndex addr src = .enqueue (newNode addr src) :=
  if_neg h

/-- `Attempt(addr)`, at time `now`. `attempts` is a `uint32` and wraps. -/
def attempt (nodeIndex : NodeIndex) (addr : Option TCPAddr) (now : Time) : NodeIndex :=
  touch nodeIndex addr fun n => { n with attempts := n.attempts + 1, lastAttempt := now }

/-- `Connected(addr)`, at time `now`. -/
def connected (nodeIndex : NodeIndex) (addr : Option TCPAddr) (now : Time) : NodeIndex :=
  touch nodeIndex addr fun n => { n with lastConnect := now }

/-- `Good(addr)`, at time `now`. -/
def good (nodeIndex : NodeIndex) (addr : Option TCPAddr) (now : Time) : NodeIndex :=
  touch nodeIndex addr fun n => { n with attempts := 0, lastSuccess := now }

theorem mem_touch {nodeIndex : NodeIndex} {addr : Option TCPAddr} {f : Node → Node} {k : String} :
    k ∈ touch nodeIndex addr f ↔ k ∈ nodeIndex := by
  unfold touch
  split
  · rename_i n hn
    simp only [GoMap.set, AList.mem_insert]
    exact ⟨fun h => h.elim (fun e => e ▸ GoMap.mem_of_get_eq_some hn) id, .inr⟩
  · rfl

theorem get_touch (nodeIndex : NodeIndex) (addr : Option TCPAddr) (f : Node → Node) (k : String) :
    (touch nodeIndex addr f).get k =
      if k = TCPAddr.ptrString addr then (nodeIndex.get k).map f else nodeIndex.get k := by
  unfold touch
  split
  · rename_i n hn
    rw [GoMap.get_set]
    split
    · subst k; simp [hn]
    · rfl
  · split
    · subst k; simp [*]
    · rfl

theorem len_touch (nodeIndex : NodeIndex) (addr : Option TCPAddr) (f : Node → Node) :
    (touch nodeIndex addr f).len = nodeIndex.len := by
  unfold touch
  split
  · exact GoMap.len_set_of_mem _ (GoMap.mem_of_get_eq_some ‹_›)
  · rfl

/-- A change that keeps the node's address keeps every key matched. -/
theorem touch_keysMatch {nodeIndex : NodeIndex} (h : KeysMatch nodeIndex) (addr : Option TCPAddr)
    {f : Node → Node} (hf : ∀ n, (f n).addr = n.addr) : KeysMatch (touch nodeIndex addr f) := by
  unfold touch
  split
  · rename_i n hn
    have hkey : (f n).key = TCPAddr.ptrString addr := by
      rw [Node.key, hf, ← Node.key, h _ _ hn]
    simpa [hkey] using h.set (f n)
  · exact h

/-! ## Get -/

/-- The loop of `Get` over the map's iteration order. -/
def getLoop (index : Nat) : Nat → List Node → Except String (Option TCPAddr)
  | _, [] => .error "No qualified node found"
  | i, n :: rest => if i = index then .ok n.addr else getLoop index (i + 1) rest

/-- `Get()`, where `rand` is the value `rand.Int()` drew and `order` the order in
which `range` visits the nodes. -/
def get (nodeIndex : NodeIndex) (order : List Node) (rand : Nat) :
    Except String (Option TCPAddr) :=
  if nodeIndex.len = 0 then .error "No nodes in repository"
  else getLoop (rand % nodeIndex.len) 0 order

/-- The loop, started at count `i ≤ index`, returns the node at position `index - i`
of what is left of the order, and runs off the end only when there is none. -/
theorem getLoop_eq (index : Nat) :
    ∀ (i : Nat) (l : List Node), i ≤ index →
      getLoop index i l = match l[index - i]? with
        | some n => .ok n.addr
        | none => .error "No qualified node found"
  | _, [], _ => rfl
  | i, n :: rest, hi => by
      rw [getLoop]
      split
      · subst i; rw [Nat.sub_self, List.getElem?_cons_zero]
      · have hpos : index - i = index - (i + 1) + 1 := by omega
        rw [getLoop_eq index (i + 1) rest (by omega), hpos, List.getElem?_cons_succ]

/-- A range over the map visits each of its nodes once. -/
theorem length_order {nodeIndex : NodeIndex} {order : List Node}
    (horder : order.Perm (nodeIndex.entries.map Sigma.snd)) : order.length = nodeIndex.len := by
  rw [horder.length_eq, List.length_map, GoMap.len, AList.keys, List.keys, List.length_map]

/-- `Get` errs exactly on an empty index, and otherwise returns the address of the node
at position `rand % len(nodeIndex)` of the iteration order: its last `return`, "No
qualified node found", is never reached. -/
theorem get_returns_position (nodeIndex : NodeIndex) (order : List Node)
    (horder : order.Perm (nodeIndex.entries.map Sigma.snd)) (rand : Nat) :
    (get nodeIndex order rand = .error "No nodes in repository" ↔ nodeIndex.len = 0) ∧
      (0 < nodeIndex.len → ∃ n, order[rand % nodeIndex.len]? = some n ∧ get nodeIndex order rand = .ok n.addr) ∧
      get nodeIndex order rand ≠ .error "No qualified node found" := by
  by_cases hlen : nodeIndex.len = 0
  · simp [get, hlen]
  · have hlt : rand % nodeIndex.len < order.length := by
      rw [length_order horder]
      exact Nat.mod_lt _ (by omega)
    have hget : get nodeIndex order rand = .ok order[rand % nodeIndex.len].addr := by
      rw [get, if_neg hlen, getLoop_eq _ 0 order (Nat.zero_le _), Nat.sub_zero, List.getElem?_eq_getElem hlt]
    exact ⟨by simp [hget, hlen], fun _ => ⟨_, List.getElem?_eq_getElem hlt, hget⟩, by simp [hget]⟩

/-- Two nodes, ranged over in the order they were inserted; `rand.Int()` drew 3. -/
theorem get_returns_position_of_two :
    let a : TCPAddr := ⟨[10, 0, 0, 1], 8333, ""⟩
    let b : TCPAddr := ⟨[10, 0, 0, 2], 8333, ""⟩
    let nodeIndex : NodeIndex := ((∅ : NodeIndex).set a.string (newNode (some a) none)).set b.string (newNode (some b) none)
    let order := [newNode (some a) none, newNode (some b) none]
    order.Perm (nodeIndex.entries.map Sigma.snd) ∧
      ((get nodeIndex order 3 = .error "No nodes in repository" ↔ nodeIndex.len = 0) ∧
        (0 < nodeIndex.len → ∃ n, order[3 % nodeIndex.len]? = some n ∧ get nodeIndex order 3 = .ok n.addr) ∧
        get nodeIndex order 3 ≠ .error "No qualified node found") := by
  intro a b nodeIndex order
  have horder : order.Perm (nodeIndex.entries.map Sigma.snd) := by decide
  exact ⟨horder, get_returns_position nodeIndex order horder 3⟩

/-! ## The node handler -/

/-- `handleNodes`' case for one node taken from `nodeQ`: the index afterwards, or
`none` when the goroutine returns. -/
def handleNode (maxNodeCount : Nat) (nodeIndex : NodeIndex) (node : Node) : Option NodeIndex :=
  if node.key ∈ nodeIndex then none
  else if nodeIndex.len ≥ maxNodeCount then none
  else some (nodeIndex.set node.key node)

/-- `handleNodes` while `sigNode` is open, over the nodes it takes from `nodeQ` in
order: the index it leaves, and, when it returned, the nodes it never took. -/
def handleNodes (maxNodeCount : Nat) (nodeIndex : NodeIndex) : List Node → NodeIndex × Option (List Node)
  | [] => (nodeIndex, none)
  | n :: rest =>
      match handleNode maxNodeCount nodeIndex n with
      | some idx => handleNodes maxNodeCount idx rest
      | none => (nodeIndex, some rest)

theorem handleNode_eq_some {maxNodeCount : Nat} {nodeIndex idx : NodeIndex} {node : Node}
    (h : handleNode maxNodeCount nodeIndex node = some idx) :
    node.key ∉ nodeIndex ∧ nodeIndex.len < maxNodeCount ∧ idx = nodeIndex.set node.key node := by
  unfold handleNode at h
  split at h
  · cases h
  · split at h
    · cases h
    · cases h; exact ⟨‹_›, by omega, rfl⟩

theorem handleNode_keysMatch {maxNodeCount : Nat} {nodeIndex idx : NodeIndex} {node : Node}
    (hk : KeysMatch nodeIndex) (h : handleNode maxNodeCount nodeIndex node = some idx) :
    KeysMatch idx := by
  obtain ⟨-, -, rfl⟩ := handleNode_eq_some h
  exact hk.set node

theorem handleNode_bounded {maxNodeCount : Nat} {nodeIndex idx : NodeIndex} {node : Node}
    (h : handleNode maxNodeCount nodeIndex node = some idx) : Bounded maxNodeCount idx := by
  obtain ⟨hn, hlen, rfl⟩ := handleNode_eq_some h
  rw [Bounded, GoMap.len_set_of_not_mem _ hn]
  omega

/-- Once the body returns, the loop is over: the rest of the nodes stay in `nodeQ`. -/
theorem handleNodes_of_handleNode_none {maxNodeCount : Nat} {nodeIndex : NodeIndex} {n : Node}
    (h : handleNode maxNodeCount nodeIndex n = none) (rest : List Node) :
    handleNodes maxNodeCount nodeIndex (n :: rest) = (nodeIndex, some rest) := by
  simp [handleNodes, h]

/-- The handler's step as its comment "skip" reads, with `continue` where the source
has `return`: skip a known or over-limit node, insert any other. -/
def skipStep (maxNodeCount : Nat) (nodeIndex : NodeIndex) (node : Node) : NodeIndex :=
  if node.key ∈ nodeIndex ∨ nodeIndex.len ≥ maxNodeCount then nodeIndex
  else nodeIndex.set node.key node

/-- Two `Update`s of one new address from `bootstrap`, whose `src` is the IPv4 zero
address, queue two nodes; the handler inserts the first, returns on the second, and
never takes a third node for another address, which a fold of `skipStep` inserts. -/
theorem handleNodes_stops_at_duplicate :
    let zero : TCPAddr := ⟨List.replicate 10 0 ++ [0xff, 0xff, 0, 0, 0, 0], 0, ""⟩
    let a : Node := newNode (some ⟨[10, 0, 0, 1], 8333, ""⟩) (some zero)
    let b : Node := newNode (some ⟨[10, 0, 0, 2], 8333, ""⟩) (some zero)
    (handleNodes 1000 ∅ [a, a, b]).2 = some [b] ∧
      (handleNodes 1000 ∅ [a, a, b]).1.get b.key = none ∧
      ([a, a, b].foldl (skipStep 1000) ∅).get b.key = some b := by
  decide

end Repository

end PassiveBitcoin
