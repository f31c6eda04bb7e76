/-
# PassiveBitcoin.Repository.Gob — the index as a gob stream

`save` writes the index with `gob.NewEncoder(file).Encode(repo.nodeIndex)`; `restore`
reads it back with `Decode(&repo.nodeIndex)` into the repository's map. A `*node` is a
`GobEncoder`: for every entry of the map gob stores the key and the bytes
`node.GobEncode` returns, and when decoding it calls `GobDecode` on a fresh node. Those
bytes are a gob stream of their own, of six values sent by six `Encode` calls: `addr`,
`src`, `attempts`, and the three times, each a `GobEncoder` whose bytes are those of
`MarshalBinary`.

gob's wire format is not under src/. A stream is modelled as the sequence of values
its `Encode` calls sent, each with the type gob sent it as, which is what a `Decoder`
reads back (`FieldValue`): a struct is sent as its fields that are not zero, a
`GobEncoder` as its bytes, and a nil pointer cannot be sent. `Decode` into a value of
another type fails, and so does reading past the end (`io.EOF`).

* `Node.gobEncode` / `Node.gobDecode`, with `gobDecode_gobEncode`: what `GobEncode`
  writes, `GobDecode` reads back as the same node; `gobEncode_ok_iff`: `GobEncode` fails
  exactly on a nil address or source, or on a time `MarshalBinary` refuses; together,
  `gob_round_trip_iff`;
* `encodeIndex` — `Encode` of the map, over its entries in the order `range` visits
  them; `decodeInto` — `Decode` into an existing map, each entry's node decoded and set
  in turn, the first failure ending it with the entries before it set;
* `restore_save_round_trip` — for every index whose nodes have both addresses and
  times `MarshalBinary` accepts, and every iteration order, decoding what `Encode`
  wrote into an empty map gives back every key and every node;
* `save_fails_on_zone_offsets` — a node whose time is in a zone one minute west of
  UTC, or at a fractional-minute offset, makes `Encode` fail: `save` writes no index.
-/
import PassiveBitcoin.Repository.Node

namespace PassiveBitcoin

set_option autoImplicit false

/-- A value of a `node.GobEncode` stream, with the type gob sent it as. -/
inductive FieldValue where
  /-- A `*net.TCPAddr`: the fields `IP`, `Port` and `Zone`, each `none` when it was zero
  and so not sent. -/
  | tcpAddr (ip : Option (List UInt8)) (port : Option Int) (zone : Option String)
  /-- An unsigned integer. -/
  | uint (n : Nat)
  /-- The bytes of a `GobEncoder`. -/
  | gobEncoder (bytes : List UInt8)
  deriving DecidableEq, Repr

/-- Why an `Encode` fails: it returns an error, or it panics, as gob's `EncodeValue`
does on a nil pointer ("Passing a nil pointer to EncodeValue will panic"); the panic
unwinds through every encoder that called it. -/
inductive EncodeFailure where
  | returned (text : String)
  | panicked (text : String)
  deriving DecidableEq, Repr

/-- Why a `Decode` fails. -/
inductive DecodeError where
  /-- `io.EOF`: the stream ended. -/
  | eof
  /-- The value was sent as another type than the destination's. -/
  | typeMismatch
  /-- An unsigned value too large for the destination. -/
  | overflow
  /-- The destination's `GobDecode` returned this error. -/
  | gobDecoder (text : String)
  deriving DecidableEq, Repr

theorem bind_eq_ok {ε α β : Type} {x : Except ε α} {f : α → Except ε β} {b : β} :
    x >>= f = .ok b ↔ ∃ a, x = .ok a ∧ f a = .ok b := by
  cases x <;> simp [bind, Except.bind]

theorem pure_eq_ok {ε α : Type} {a b : α} : (pure a : Except ε α) = .ok b ↔ a = b := by
  simp [pure, Except.pure]

/-! ## Sending and receiving one value -/

namespace Gob

/-- How gob sends a `net.TCPAddr`: the struct's fields that are not zero. -/
def encodeStruct (a : TCPAddr) : FieldValue :=
  .tcpAddr (if a.ip = [] then none else some a.ip) (if a.port = 0 then none else some a.port)
    (if a.zone = "" then none else some a.zone)

/-- `enc.Encode(p)` for `p : *net.TCPAddr`. -/
def encodeAddr : Option TCPAddr → Except EncodeFailure FieldValue
  | none => .error (.panicked "gob: cannot encode nil pointer of type *net.TCPAddr")
  | some a => .ok (encodeStruct a)

/-- `enc.Encode(t)` for `t : time.Time`, a `GobEncoder`: `MarshalBinary`'s error is
returned. -/
def encodeTime (t : Time) : Except EncodeFailure (List UInt8) := t.marshalBinary.mapError .returned

/-- `dec.Decode(&x)`: the next value, converted by `f` into `x`'s type. -/
def decodeNext {α : Type} (f : FieldValue → Except DecodeError α) :
    List FieldValue → Except DecodeError (α × List FieldValue)
  | [] => .error .eof
  | v :: rest => (f v).map (·, rest)

end Gob

namespace FieldValue

/-- Into a `*net.TCPAddr`: gob allocates a zero struct and sets the fields sent. -/
def toTCPAddr : FieldValue → Except DecodeError (Option TCPAddr)
  | .tcpAddr ip port zone => .ok (some ⟨ip.getD [], port.getD 0, zone.getD ""⟩)
  | _ => .error .typeMismatch

/-- Into a `uint32`. -/
def toUInt32 : FieldValue → Except DecodeError UInt32
  | .uint n => if n < 2 ^ 32 then .ok (UInt32.ofNat n) else .error .overflow
  | _ => .error .typeMismatch

/-- Into a `time.Time`, through its `GobDecode`, which is `UnmarshalBinary`. -/
def toTime : FieldValue → Except DecodeError Time
  | .gobEncoder b => (Time.unmarshalBinary b).mapError .gobDecoder
  | _ => .error .typeMismatch

theorem getD_ite {α : Type} [DecidableEq α] (x zero : α) : (if x = zero then none else some x).getD zero = x := by
  split
  · next h => exact h.symm
  · rfl

theorem toTCPAddr_encodeStruct (a : TCPAddr) : (Gob.encodeStruct a).toTCPAddr = .ok (some a) := by
  simp [Gob.encodeStruct, toTCPAddr, getD_ite]

theorem toUInt32_uint (v : UInt32) : (FieldValue.uint v.toNat).toUInt32 = .ok v := by
  have hv : v.toNat < 2 ^ 32 := v.toNat_lt_size
  simp only [toUInt32, if_pos hv]
  exact congrArg _ (UInt32.toNat.inj (UInt32.toNat_ofNat_of_lt hv))

theorem toTime_gobEncoder {t : Time} {b : List UInt8} (h : t.marshalBinary = .ok b) :
    (FieldValue.gobEncoder b).toTime = .ok t := by
  simp [toTime, Time.unmarshalBinary_marshalBinary h, Except.mapError]

end FieldValue

/-! ## `GobEncode` and `GobDecode` -/

namespace Node

/-- `node.GobEncode()`: six `Encode` calls, the first failure returned. -/
def gobEncode (node : Node) : Except EncodeFailure (List FieldValue) := do
  let addr ← Gob.encodeAddr node.addr
  let src ← Gob.encodeAddr node.src
  let lastAttempt ← Gob.encodeTime node.lastAttempt
  let lastSuccess ← Gob.encodeTime node.lastSuccess
  let lastConnect ← Gob.encodeTime node.lastConnect
  pure [addr, src, .uint node.attempts.toNat, .gobEncoder lastAttempt, .gobEncoder lastSuccess,
    .gobEncoder lastConnect]

/-- `node.GobDecode(buf)`: six `Decode` calls into the node's fields, in the order
`GobEncode` sent them; what follows them is not read. -/
def gobDecode (buf : List FieldValue) : Except DecodeError Node := do
  let (addr, buf) ← Gob.decodeNext FieldValue.toTCPAddr buf
  let (src, buf) ← Gob.decodeNext FieldValue.toTCPAddr buf
  let (attempts, buf) ← Gob.decodeNext FieldValue.toUInt32 buf
  let (lastAttempt, buf) ← Gob.decodeNext FieldValue.toTime buf
  let (lastSuccess, buf) ← Gob.decodeNext FieldValue.toTime buf
  let (lastConnect, _) ← Gob.decodeNext FieldValue.toTime buf
  pure ⟨addr, src, attempts, lastAttempt, lastSuccess, lastConnect⟩

theorem encodeAddr_eq_ok {p : Option TCPAddr} {v : FieldValue} :
    Gob.encodeAddr p = .ok v ↔ ∃ a, p = some a ∧ v = Gob.encodeStruct a := by
  cases p <;> simp [Gob.encodeAddr, eq_comm]

theorem encodeTime_eq_ok {t : Time} {b : List UInt8} : Gob.encodeTime t = .ok b ↔ t.marshalBinary = .ok b := by
  cases h : t.marshalBinary <;> simp [Gob.encodeTime, Except.mapError, h]

/-- What a successful `GobEncode` wrote. -/
theorem gobEncode_eq_ok {n : Node} {b : List FieldValue} (h : n.gobEncode = .ok b) :
    ∃ a s bA bS bC, n.addr = some a ∧ n.src = some s ∧ n.lastAttempt.marshalBinary = .ok bA ∧
      n.lastSuccess.marshalBinary = .ok bS ∧ n.lastConnect.marshalBinary = .ok bC ∧
      b = [Gob.encodeStruct a, Gob.encodeStruct s, .uint n.attempts.toNat, .gobEncoder bA, .gobEncoder bS,
        .gobEncoder bC] := by
  simp only [gobEncode, bind_eq_ok, pure_eq_ok, encodeAddr_eq_ok, encodeTime_eq_ok] at h
  obtain ⟨_, ⟨a, ha, rfl⟩, _, ⟨s, hs, rfl⟩, bA, hA, bS, hS, bC, hC, rfl⟩ := h
  exact ⟨a, s, bA, bS, bC, ha, hs, hA, hS, hC, rfl⟩

/-- `GobEncode` fails exactly on a nil `addr` or `src`, or on a time whose location
`MarshalBinary` refuses. -/
theorem gobEncode_ok_iff (n : Node) :
    (∃ b, n.gobEncode = .ok b) ↔ n.addr.isSome ∧ n.src.isSome ∧ n.lastAttempt.loc.Marshalable ∧
      n.lastSuccess.loc.Marshalable ∧ n.lastConnect.loc.Marshalable := by
  simp only [← Time.marshalBinary_ok_iff]
  constructor
  · rintro ⟨b, h⟩
    obtain ⟨a, s, bA, bS, bC, ha, hs, hA, hS, hC, -⟩ := gobEncode_eq_ok h
    exact ⟨by simp [ha], by simp [hs], ⟨bA, hA⟩, ⟨bS, hS⟩, ⟨bC, hC⟩⟩
  · rintro ⟨ha, hs, ⟨bA, hA⟩, ⟨bS, hS⟩, ⟨bC, hC⟩⟩
    obtain ⟨a, ha⟩ := Option.isSome_iff_exists.mp ha
    obtain ⟨s, hs⟩ := Option.isSome_iff_exists.mp hs
    exact ⟨[Gob.encodeStruct a, Gob.encodeStruct s, .uint n.attempts.toNat, .gobEncoder bA, .gobEncoder bS,
      .gobEncoder bC], by
        simp only [gobEncode, ha, hs, Gob.encodeTime, hA, hS, hC, Gob.encodeAddr, Except.mapError, bind, Except.bind,
          pure, Except.pure]⟩

/-- `GobEncode` of a node with a nil address or source panics: its `Encode` of the nil
pointer comes before every other. -/
theorem gobEncode_panics (n : Node) (h : n.addr = none ∨ n.src = none) :
    ∃ text, n.gobEncode = .error (.panicked text) := by
  obtain ⟨addr, src, _, _, _, _⟩ := n
  rcases h with h | h <;> simp only at h <;> subst h
  · exact ⟨_, rfl⟩
  · cases addr <;> exact ⟨_, rfl⟩

/-- With both addresses set, `GobEncode` only returns errors: those of `MarshalBinary`. -/
theorem gobEncode_ne_panicked {n : Node} (h : n.addr.isSome ∧ n.src.isSome) (text : String) :
    n.gobEncode ≠ .error (.panicked text) := by
  obtain ⟨a, ha⟩ := Option.isSome_iff_exists.mp h.1
  obtain ⟨s, hs⟩ := Option.isSome_iff_exists.mp h.2
  simp only [gobEncode, ha, hs, Gob.encodeAddr, Gob.encodeTime]
  cases n.lastAttempt.marshalBinary <;> cases n.lastSuccess.marshalBinary <;> cases n.lastConnect.marshalBinary <;>
    simp [Except.mapError, bind, Except.bind, pure, Except.pure]

/-- What `GobEncode` writes, `GobDecode` reads back as the same node. -/
theorem gobDecode_gobEncode {n : Node} {b : List FieldValue} (h : n.gobEncode = .ok b) : gobDecode b = .ok n := by
  obtain ⟨a, s, bA, bS, bC, ha, hs, hA, hS, hC, rfl⟩ := gobEncode_eq_ok h
  obtain ⟨addr, src, attempts, lastAttempt, lastSuccess, lastConnect⟩ := n
  simp only at ha hs
  subst ha hs
  simp [gobDecode, Gob.decodeNext, FieldValue.toTCPAddr_encodeStruct, FieldValue.toUInt32_uint,
    FieldValue.toTime_gobEncoder hA, FieldValue.toTime_gobEncoder hS, FieldValue.toTime_gobEncoder hC,
    Except.map, bind, Except.bind, pure, Except.pure]

/-- A node survives `GobEncode` then `GobDecode` exactly when both its addresses are
set and `MarshalBinary` accepts the locations of its three times; otherwise
`GobEncode` itself fails, by a panic when an address is nil. -/
theorem gob_round_trip_iff (n : Node) :
    ((∃ b, n.gobEncode = .ok b ∧ gobDecode b = .ok n) ↔ n.addr.isSome ∧ n.src.isSome ∧
      n.lastAttempt.loc.Marshalable ∧ n.lastSuccess.loc.Marshalable ∧ n.lastConnect.loc.Marshalable) ∧
    ((∃ b, n.gobEncode = .ok b) ↔ n.addr.isSome ∧ n.src.isSome ∧
      n.lastAttempt.loc.Marshalable ∧ n.lastSuccess.loc.Marshalable ∧ n.lastConnect.loc.Marshalable) ∧
    (n.addr = none ∨ n.src = none → ∃ text, n.gobEncode = .error (.panicked text)) :=
  ⟨⟨fun ⟨b, hb, _⟩ => (gobEncode_ok_iff n).mp ⟨b, hb⟩,
    fun h => let ⟨b, hb⟩ := (gobEncode_ok_iff n).mpr h; ⟨b, hb, gobDecode_gobEncode hb⟩⟩,
   gobEncode_ok_iff n, gobEncode_panics n⟩

end Node

/-! ## The map -/

namespace Repository

/-- `Encode(repo.nodeIndex)` over the entries in the order `range` visits them: the
key and `GobEncode`'s stream of each node, or the first node's failure. -/
def encodeIndex : List (Σ _ : String, Node) → Except EncodeFailure (List (String × List FieldValue))
  | [] => .ok []
  | ⟨k, n⟩ :: rest => do
      let b ← n.gobEncode
      let r ← encodeIndex rest
      pure ((k, b) :: r)

/-- `Decode(&nodeIndex)` of a map value into the existing `nodeIndex`: each entry's node
is decoded into a fresh node and set; a failing `GobDecode` ends the decoding, and the
entries set before it stay. -/
def decodeInto (nodeIndex : NodeIndex) : List (String × List FieldValue) → NodeIndex × Option DecodeError
  | [] => (nodeIndex, none)
  | (k, b) :: rest =>
      match Node.gobDecode b with
      | .ok n => decodeInto (nodeIndex.set k n) rest
      | .error e => (nodeIndex, some e)

/-- `Encode` succeeds exactly when every node's `GobEncode` does. -/
theorem encodeIndex_ok {order : List (Σ _ : String, Node)} (h : ∀ e ∈ order, ∃ b, e.2.gobEncode = .ok b) :
    ∃ entries, encodeIndex order = .ok entries := by
  induction order with
  | nil => exact ⟨[], rfl⟩
  | cons e rest ih =>
      obtain ⟨k, n⟩ := e
      obtain ⟨b, hb⟩ := h _ (List.mem_cons_self _ _)
      obtain ⟨r, hr⟩ := ih fun e he => h e (List.mem_cons_of_mem _ he)
      exact ⟨(k, b) :: r, by simp only [encodeIndex, hb, hr, bind, Except.bind, pure, Except.pure]⟩

/-- `Encode` of the map succeeds exactly when every node's `GobEncode` does. -/
theorem encodeIndex_ok_iff {order : List (Σ _ : String, Node)} :
    (∃ entries, encodeIndex order = .ok entries) ↔ ∀ e ∈ order, ∃ b, e.2.gobEncode = .ok b := by
  refine ⟨?_, encodeIndex_ok⟩
  induction order with
  | nil => exact fun _ e he => absurd he (List.not_mem_nil e)
  | cons e rest ih =>
      obtain ⟨k, n⟩ := e
      rintro ⟨entries, h⟩
      simp only [encodeIndex, bind_eq_ok, pure_eq_ok] at h
      obtain ⟨b, hb, r, hr, -⟩ := h
      rw [List.forall_mem_cons]
      exact ⟨⟨b, hb⟩, ih ⟨r, hr⟩⟩

/-- With every address set, `Encode` of the map never panics. -/
theorem encodeIndex_ne_panicked {order : List (Σ _ : String, Node)} (h : ∀ e ∈ order, e.2.addr.isSome ∧ e.2.src.isSome)
    (text : String) : encodeIndex order ≠ .error (.panicked text) := by
  induction order with
  | nil => nofun
  | cons e rest ih =>
      obtain ⟨k, n⟩ := e
      obtain ⟨hn, hrest⟩ := List.forall_mem_cons.mp h
      have hne := Node.gobEncode_ne_panicked hn text
      simp only [encodeIndex]
      cases hb : n.gobEncode with
      | error f => simpa [bind, Except.bind, hb] using hne
      | ok b =>
          have := ih hrest
          cases hr : encodeIndex rest <;> simp_all [bind, Except.bind, pure, Except.pure]

/-- Decoding what `Encode` wrote sets every key of the order to its node, over what the
map held. -/
theorem decodeInto_encodeIndex :
    ∀ (order : List (Σ _ : String, Node)) (entries : List (String × List FieldValue)) (m : NodeIndex),
      order.NodupKeys → encodeIndex order = .ok entries →
      (decodeInto m entries).2 = none ∧ ∀ k, (decodeInto m entries).1.get k = (order.dlookup k).or (m.get k)
  | [], entries, m, _, h => by
      cases h
      exact ⟨rfl, fun _ => rfl⟩
  | ⟨k', n⟩ :: rest, entries, m, hnd, h => by
      simp only [encodeIndex, bind_eq_ok, pure_eq_ok] at h
      obtain ⟨b, hb, r, hr, rfl⟩ := h
      obtain ⟨hk', hnd⟩ := List.nodupKeys_cons.mp hnd
      obtain ⟨hnone, hget⟩ := decodeInto_encodeIndex rest r (m.set k' n) hnd hr
      simp only [decodeInto, Node.gobDecode_gobEncode hb]
      refine ⟨hnone, fun k => ?_⟩
      rw [hget k]
      by_cases hk : k = k'
      · subst k
        rw [List.dlookup_eq_none.mpr hk', List.dlookup_cons_eq, GoMap.get_set_self]
        rfl
      · rw [List.dlookup_cons_ne _ _ hk, GoMap.get_set_ne _ _ hk]

/-- Decoding into an empty map what `Encode` wrote over an iteration order of an index
gives back the index, key by key. -/
theorem decodeInto_encodeIndex_perm {nodeIndex : NodeIndex} {order : List (Σ _ : String, Node)}
    (horder : order.Perm nodeIndex.entries) {entries : List (String × List FieldValue)}
    (henc : encodeIndex order = .ok entries) :
    (decodeInto ∅ entries).2 = none ∧ ∀ k, (decodeInto ∅ entries).1.get k = nodeIndex.get k := by
  have hnd : order.NodupKeys := (List.perm_nodupKeys horder).mpr nodeIndex.nodupKeys
  obtain ⟨hnone, hget⟩ := decodeInto_encodeIndex order entries ∅ hnd henc
  refine ⟨hnone, fun k => ?_⟩
  rw [hget k, GoMap.get_empty, Option.or_none, List.perm_dlookup k hnd nodeIndex.nodupKeys horder]
  rfl

/-- `Encode` over an iteration order of an index succeeds when every node's
`GobEncode` does. -/
theorem encodeIndex_ok_of_perm {nodeIndex : NodeIndex} {order : List (Σ _ : String, Node)}
    (horder : order.Perm nodeIndex.entries) (h : ∀ k n, nodeIndex.get k = some n → ∃ b, n.gobEncode = .ok b) :
    ∃ entries, encodeIndex order = .ok entries :=
  encodeIndex_ok fun e he => h e.1 e.2 (AList.mem_lookup_iff.mpr (horder.subset he))

/-- For every index whose nodes have an address and a source, and every order in which
`range` visits it: if `MarshalBinary` accepts the locations of all its times, `Encode`
succeeds, and decoding what it wrote into an empty map, as `restore` does into a fresh
repository, succeeds and gives back the same keys, each with a node of the same `addr`,
`src` and `attempts` and the same three instants; if it refuses one, `Encode` returns
an error. -/
theorem restore_save_round_trip (nodeIndex : NodeIndex) (order : List (Σ _ : String, Node))
    (horder : order.Perm nodeIndex.entries)
    (hptr : ∀ k n, nodeIndex.get k = some n → n.addr.isSome ∧ n.src.isSome) :
    ((∀ k n, nodeIndex.get k = some n →
        n.lastAttempt.loc.Marshalable ∧ n.lastSuccess.loc.Marshalable ∧ n.lastConnect.loc.Marshalable) →
      ∃ entries, encodeIndex order = .ok entries ∧ (decodeInto ∅ entries).2 = none ∧
        (∀ k, k ∈ (decodeInto ∅ entries).1 ↔ k ∈ nodeIndex) ∧
        ∀ k n, nodeIndex.get k = some n → ∃ n', (decodeInto ∅ entries).1.get k = some n' ∧
          n'.addr = n.addr ∧ n'.src = n.src ∧ n'.attempts = n.attempts ∧ n'.lastAttempt.equal n.lastAttempt ∧
          n'.lastSuccess.equal n.lastSuccess ∧ n'.lastConnect.equal n.lastConnect) ∧
    ((∃ k n, nodeIndex.get k = some n ∧
        ¬ (n.lastAttempt.loc.Marshalable ∧ n.lastSuccess.loc.Marshalable ∧ n.lastConnect.loc.Marshalable)) →
      ∃ text, encodeIndex order = .error (.returned text)) := by
  have hmem : ∀ e ∈ order, nodeIndex.get e.1 = some e.2 := fun e he => AList.mem_lookup_iff.mpr (horder.subset he)
  refine ⟨fun htime => ?_, fun ⟨k, n, hn, hbad⟩ => ?_⟩
  · obtain ⟨entries, henc⟩ := encodeIndex_ok_of_perm horder fun k n hn =>
      (Node.gobEncode_ok_iff n).mpr ⟨(hptr k n hn).1, (hptr k n hn).2, htime k n hn⟩
    obtain ⟨hnone, hsame⟩ := decodeInto_encodeIndex_perm horder henc
    refine ⟨entries, henc, hnone, fun k => by simp only [GoMap.mem_iff_get, hsame], fun k n hn => ?_⟩
    exact ⟨n, (hsame k).trans hn, rfl, rfl, rfl, Time.equal_self _, Time.equal_self _, Time.equal_self _⟩
  · -- the node in the order that `GobEncode` refuses
    have hin : ⟨k, n⟩ ∈ order := horder.symm.subset (AList.mem_lookup_iff.mp hn)
    have hfail : ¬ ∃ entries, encodeIndex order = .ok entries := fun h => by
      obtain ⟨b, hb⟩ := encodeIndex_ok_iff.mp h _ hin
      exact hbad ((Node.gobEncode_ok_iff n).mp ⟨b, hb⟩).2.2
    cases henc : encodeIndex order with
    | ok entries => exact absurd ⟨entries, henc⟩ hfail
    | error f =>
        cases f with
        | returned text => exact ⟨text, rfl⟩
        | panicked text =>
            exact absurd henc (encodeIndex_ne_panicked (fun e he => hptr e.1 e.2 (hmem e he)) text)

/-- One node, with both addresses and zero times, ranged over as it is stored. -/
theorem restore_save_round_trip_one_node :
    let a : TCPAddr := ⟨[10, 0, 0, 1], 8333, ""⟩
    let nodeIndex : NodeIndex := (∅ : NodeIndex).set a.string (newNode (some a) (some a))
    nodeIndex.entries.Perm nodeIndex.entries ∧ (∀ k n, nodeIndex.get k = some n → n.addr.isSome ∧ n.src.isSome) ∧
    ((∀ k n, nodeIndex.get k = some n →
        n.lastAttempt.loc.Marshalable ∧ n.lastSuccess.loc.Marshalable ∧ n.lastConnect.loc.Marshalable) →
      ∃ entries, encodeIndex nodeIndex.entries = .ok entries ∧ (decodeInto ∅ entries).2 = none ∧
        (∀ k, k ∈ (decodeInto ∅ entries).1 ↔ k ∈ nodeIndex) ∧
        ∀ k n, nodeIndex.get k = some n → ∃ n', (decodeInto ∅ entries).1.get k = some n' ∧
          n'.addr = n.addr ∧ n'.src = n.src ∧ n'.attempts = n.attempts ∧ n'.lastAttempt.equal n.lastAttempt ∧
          n'.lastSuccess.equal n.lastSuccess ∧ n'.lastConnect.equal n.lastConnect) ∧
    ((∃ k n, nodeIndex.get k = some n ∧
        ¬ (n.lastAttempt.loc.Marshalable ∧ n.lastSuccess.loc.Marshalable ∧ n.lastConnect.loc.Marshalable)) →
      ∃ text, encodeIndex nodeIndex.entries = .error (.returned text)) := by
  intro a nodeIndex
  -- the one node of the index
  have hone : ∀ k n, nodeIndex.get k = some n → n = newNode (some a) (some a) := fun k n hn => by
    rw [GoMap.get_set] at hn
    split at hn
    · exact (Option.some.inj hn).symm
    · simp at hn
  have hptr : ∀ k n, nodeIndex.get k = some n → n.addr.isSome ∧ n.src.isSome := fun k n hn => hone k n hn ▸ ⟨rfl, rfl⟩
  exact ⟨List.Perm.refl _, hptr, restore_save_round_trip nodeIndex nodeIndex.entries (List.Perm.refl _) hptr⟩

/-- A node with both addresses whose `lastAttempt` is 2016-01-01T00:00:00Z in a zone
one minute west of UTC, or thirty seconds east of it: `Encode` of the map fails with
`MarshalBinary`'s error, so `save` writes no index for `restore` to read. -/
theorem save_fails_on_zone_offsets :
    let a : TCPAddr := ⟨[10, 0, 0, 1], 8333, ""⟩
    let n₁ : Node := { newNode (some a) (some a) with lastAttempt := ⟨63587203200, 0, .zone (-60)⟩ }
    let n₂ : Node := { newNode (some a) (some a) with lastAttempt := ⟨63587203200, 0, .zone 30⟩ }
    encodeIndex [⟨a.string, n₁⟩] = .error (.returned "Time.MarshalBinary: unexpected zone offset") ∧
      encodeIndex [⟨a.string, n₂⟩] = .error (.returned "Time.MarshalBinary: zone offset has fractional minute") :=
  ⟨rfl, rfl⟩

end Repository

end PassiveBitcoin
