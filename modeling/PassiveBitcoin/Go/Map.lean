/-
# PassiveBitcoin.Go.Map — Go maps as association lists

The program keeps its shared state in Go maps: the manager's `peerIndex` and
`listenIndex` and the repository's `nodeIndex`, each keyed by an address's
`String()`. A Go map is a finite association with distinct keys, so it is modelled by
Mathlib's `AList`, whose entries carry the proof that no key appears twice; a map with
a repeated key cannot be built. The Go operations are

* `m[k] = v` — `GoMap.set`, which replaces the entry of `k`;
* `delete(m, k)` — `GoMap.delete`;
* `v, ok := m[k]` — `GoMap.get`, with `ok` as `k ∈ m`;
* `len(m)` — `GoMap.len`, the number of keys;
* `for k, v := range m` — the entries, in an order the runtime chooses.

Every size bound of the development (`maxPeerCount`, `maxNodeCount`) is derived from
the `len_*` lemmas below, one per write.
-/
import Mathlib.Data.List.AList

namespace PassiveBitcoin

set_option autoImplicit false

/-- A Go `map[K]V`. -/
abbrev GoMap (K V : Type) := AList (fun _ : K => V)

namespace GoMap

variable {K V : Type}

/-- `len(m)`. -/
def len (m : GoMap K V) : Nat := m.keys.length

@[simp] theorem len_empty : (∅ : GoMap K V).len = 0 := rfl

variable [DecidableEq K]

/-- `m[k]`, as the pair `v, ok`: `none` when `ok` is false. -/
def get (m : GoMap K V) (k : K) : Option V := m.lookup k

/-- `m[k] = v`. -/
def set (m : GoMap K V) (k : K) (v : V) : GoMap K V := AList.insert k v m

/-- `delete(m, k)`. -/
def delete (m : GoMap K V) (k : K) : GoMap K V := AList.erase k m

@[simp] theorem get_empty (k : K) : (∅ : GoMap K V).get k = none := rfl

@[simp] theorem get_set_self (m : GoMap K V) (k : K) (v : V) : (m.set k v).get k = some v :=
  AList.lookup_insert m

@[simp] theorem get_set_ne (m : GoMap K V) {k k' : K} (v : V) (h : k' ≠ k) :
    (m.set k v).get k' = m.get k' :=
  AList.lookup_insert_ne h

@[simp] theorem get_delete_self (m : GoMap K V) (k : K) : (m.delete k).get k = none :=
  AList.lookup_erase k m

@[simp] theorem get_delete_ne (m : GoMap K V) {k k' : K} (h : k' ≠ k) :
    (m.delete k).get k' = m.get k' :=
  AList.lookup_erase_ne h

theorem mem_iff_get {m : GoMap K V} {k : K} : k ∈ m ↔ (m.get k).isSome :=
  AList.lookup_isSome.symm

theorem not_mem_iff_get {m : GoMap K V} {k : K} : k ∉ m ↔ m.get k = none :=
  AList.lookup_eq_none.symm

theorem mem_of_get_eq_some {m : GoMap K V} {k : K} {v : V} (h : m.get k = some v) : k ∈ m :=
  mem_iff_get.mpr (by simp [h])

theorem mem_set {m : GoMap K V} {k k' : K} {v : V} : k' ∈ m.set k v ↔ k' = k ∨ k' ∈ m :=
  AList.mem_insert m

theorem mem_delete {m : GoMap K V} {k k' : K} : k' ∈ m.delete k ↔ k' ≠ k ∧ k' ∈ m :=
  AList.mem_erase

theorem get_set (m : GoMap K V) (k k' : K) (v : V) :
    (m.set k v).get k' = if k' = k then some v else m.get k' := by
  split
  · subst k'; simp
  · simp [*]

theorem get_delete (m : GoMap K V) (k k' : K) :
    (m.delete k).get k' = if k' = k then none else m.get k' := by
  split
  · subst k'; simp
  · simp [*]

theorem len_set_of_not_mem {m : GoMap K V} {k : K} (v : V) (h : k ∉ m) :
    (m.set k v).len = m.len + 1 := by
  simp [len, set, AList.keys_insert, List.erase_of_not_mem (AList.mem_keys.not.mp h)]

theorem len_set_of_mem {m : GoMap K V} {k : K} (v : V) (h : k ∈ m) :
    (m.set k v).len = m.len := by
  have := List.length_erase_of_mem (AList.mem_keys.mp h)
  have := List.length_pos_of_mem (AList.mem_keys.mp h)
  simp only [len, set, AList.keys_insert, List.length_cons]
  omega

theorem len_delete_of_mem {m : GoMap K V} {k : K} (h : k ∈ m) :
    (m.delete k).len + 1 = m.len := by
  have := List.length_erase_of_mem (AList.mem_keys.mp h)
  have := List.length_pos_of_mem (AList.mem_keys.mp h)
  simp only [len, delete, AList.keys_erase]
  omega

theorem len_delete_le (m : GoMap K V) (k : K) : (m.delete k).len ≤ m.len := by
  simpa only [len, delete, AList.keys_erase] using List.length_erase_le k m.keys

/-- `for k, v := range m { m[k] = f(v) }`, or a loop calling a method on every value. -/
def mapValues (f : V → V) (m : GoMap K V) : GoMap K V :=
  ⟨m.entries.map fun e => ⟨e.1, f e.2⟩, by
    have : (m.entries.map fun e => (⟨e.1, f e.2⟩ : Σ _ : K, V)).keys = m.entries.keys := by
      simp [List.keys, Function.comp_def]
    unfold List.NodupKeys
    rw [this]
    exact m.nodupKeys⟩

@[simp] theorem get_mapValues (f : V → V) (m : GoMap K V) (k : K) :
    (m.mapValues f).get k = (m.get k).map f := by
  obtain ⟨l, hl⟩ := m
  simp only [get, mapValues, AList.lookup]
  clear hl
  induction l with
  | nil => rfl
  | cons e l ih =>
      obtain ⟨k', v⟩ := e
      by_cases h : k = k'
      · subst k; simp [List.dlookup_cons_eq]
      · rw [List.map_cons, List.dlookup_cons_ne _ _ h, List.dlookup_cons_ne _ _ h, ih]

end GoMap

end PassiveBitcoin
