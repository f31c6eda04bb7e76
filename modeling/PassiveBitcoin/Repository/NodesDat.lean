/-
# PassiveBitcoin.Repository.NodesDat — `nodes.dat` and the calls on it

`save` does three things to the disk: `os.Create("nodes.dat")`, which truncates the
file; the write of `Encode`'s map value, which gob sends only once every node's
`GobEncode` has succeeded; and the deferred `Close`, which also runs when `Encode`
panics. `restore` opens the file and decodes its first value into the `nodeIndex`
the repository already holds. This module makes `nodes.dat` explicit state
(`DatFile`, the values written to it) and each call a step on it (`DatOp.apply`):

* `saveOps`, `save`, `savePanic` — a whole `save()` over the index in the order `range`
  visits it; `saveStoppedAt` — the file after any prefix of those calls, where a
  crash may stop it;
* `restoreFile` — `restore()`: gob decodes the map's entries one by one and stops at
  the first whose `GobDecode` fails, the entries before it staying set
  (`decodeInto_eq_foldl`, over `decodedEntries`);
* `keysMatch_decodeInto`, `mem_decodeInto` — a restore keeps every node under its own
  address when every decoded entry is, and it removes no key.
-/
import PassiveBitcoin.Go.Sync
import PassiveBitcoin.Repository.Gob

namespace PassiveBitcoin

set_option autoImplicit false

namespace Repository

/-- `nodes.dat`: `none` when there is no such file, else the map values `Encode` calls
wrote to it, in order. gob's type descriptors, written before a map value, are not
modelled; alone they decode to nothing. -/
abbrev DatFile := Option (List (List (String × List FieldValue)))

/-- A call of `save` on `nodes.dat`. -/
inductive DatOp where
  /-- `os.Create("nodes.dat")`: the file is made empty. -/
  | create
  /-- The write of the map value by `Encode`. -/
  | write (value : List (String × List FieldValue))
  /-- The deferred `file.Close()`. -/
  | close

/-- What a call leaves of `nodes.dat`. -/
def DatOp.apply : DatFile → DatOp → DatFile
  | _, .create => some []
  | file, .write value => file.map (· ++ [value])
  | file, .close => file

/-- The calls of `save()` over the index in the order `range` visits it, when
`os.Create` succeeds (`createOk`). A failing or panicking `Encode` writes no value. -/
def saveOps (createOk : Bool) (order : List (Σ _ : String, Node)) : List DatOp :=
  if createOk then
    match encodeIndex order with
    | .ok entries => [.create, .write entries, .close]
    | .error _ => [.create, .close]
  else []

/-- `nodes.dat` after the whole of `save()`. -/
def save (file : DatFile) (createOk : Bool) (order : List (Σ _ : String, Node)) : DatFile :=
  (saveOps createOk order).foldl DatOp.apply file

/-- The panic `save()` ends in: `Encode`'s, on a nil pointer. -/
def savePanic (createOk : Bool) (order : List (Σ _ : String, Node)) : Option GoPanic :=
  if createOk then
    match encodeIndex order with
    | .error (.panicked text) => some (.message text)
    | _ => none
  else none

/-- `nodes.dat` after the first `k` calls of `save()`. -/
def saveStoppedAt (file : DatFile) (createOk : Bool) (order : List (Σ _ : String, Node)) (k : Nat) : DatFile :=
  ((saveOps createOk order).take k).foldl DatOp.apply file

theorem saveStoppedAt_length (file : DatFile) (createOk : Bool) (order : List (Σ _ : String, Node)) :
    saveStoppedAt file createOk order (saveOps createOk order).length = save file createOk order := by
  rw [saveStoppedAt, List.take_length, save]

/-! ## Restore -/

/-- The entries `Decode` sets, each with its decoded node: those before the first whose
`GobDecode` fails. -/
def decodedEntries : List (String × List FieldValue) → List (String × Node)
  | [] => []
  | (k, b) :: rest =>
      match Node.gobDecode b with
      | .ok n => (k, n) :: decodedEntries rest
      | .error _ => []

/-- `restore()` into the index `nodeIndex`: `os.Open` fails on a missing file and
`Decode` on one that holds no value (`io.EOF`), leaving the index; otherwise the first
value is decoded into it. -/
def restoreFile (nodeIndex : NodeIndex) : DatFile → NodeIndex
  | some (value :: _) => (decodeInto nodeIndex value).1
  | _ => nodeIndex

theorem decodeInto_eq_foldl (value : List (String × List FieldValue)) :
    ∀ nodeIndex : NodeIndex,
      (decodeInto nodeIndex value).1 = (decodedEntries value).foldl (fun m p => m.set p.1 p.2) nodeIndex := by
  induction value with
  | nil => exact fun _ => rfl
  | cons e rest ih =>
      obtain ⟨k, b⟩ := e
      intro nodeIndex
      simp only [decodeInto, decodedEntries]
      cases Node.gobDecode b with
      | ok n => exact ih _
      | error _ => rfl

/-- Setting entries each under its own node's address keeps every node under its own. -/
theorem keysMatch_foldl_set {l : List (String × Node)} (he : ∀ p ∈ l, p.2.key = p.1) :
    ∀ {nodeIndex : NodeIndex}, KeysMatch nodeIndex → KeysMatch (l.foldl (fun m p => m.set p.1 p.2) nodeIndex) := by
  induction l with
  | nil => exact fun hk => hk
  | cons p rest ih =>
      obtain ⟨hp, hrest⟩ := List.forall_mem_cons.mp he
      intro nodeIndex hk
      have hset : KeysMatch (nodeIndex.set p.1 p.2) := by
        rw [← hp]
        exact hk.set p.2
      exact ih hrest hset

theorem mem_foldl_set (l : List (String × Node)) {nodeIndex : NodeIndex} {k : String} (hk : k ∈ nodeIndex) :
    k ∈ l.foldl (fun m p => m.set p.1 p.2) nodeIndex := by
  induction l generalizing nodeIndex with
  | nil => exact hk
  | cons p rest ih => exact ih (GoMap.mem_set.mpr (.inr hk))

/-- A restore keeps every node under its own address when every entry it decodes is. -/
theorem keysMatch_decodeInto {value : List (String × List FieldValue)}
    (he : ∀ p ∈ decodedEntries value, p.2.key = p.1) {nodeIndex : NodeIndex} (hk : KeysMatch nodeIndex) :
    KeysMatch (decodeInto nodeIndex value).1 := by
  rw [decodeInto_eq_foldl]
  exact keysMatch_foldl_set he hk

/-- A restore removes no key. -/
theorem mem_decodeInto (value : List (String × List FieldValue)) {nodeIndex : NodeIndex} {k : String}
    (hk : k ∈ nodeIndex) : k ∈ (decodeInto nodeIndex value).1 := by
  rw [decodeInto_eq_foldl]
  exact mem_foldl_set _ hk

end Repository

end PassiveBitcoin
