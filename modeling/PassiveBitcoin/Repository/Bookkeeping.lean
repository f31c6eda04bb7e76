/-
# PassiveBitcoin.Repository.Bookkeeping — no node is forgotten

`Get` draws an address from the index, and the manager calls `Attempt` on it once it
has dialed it. Nothing in the repository removes a node: `restore` decodes
`nodes.dat` into the index it already holds, the node handler only inserts, and
`Update`, `Attempt`, `Connected` and `Good` change a known node in place.

* `mem_step_of_mem`, `mem_run_of_mem` — over every run, from any state, an address the
  index holds stays in it, across `Stop` and a restoring `Start` as well;
* `get_touch_of_get` — what `Attempt`, `Connected` and `Good` leave under each key.
-/
import PassiveBitcoin.Repository.Save

namespace PassiveBitcoin

set_option autoImplicit false

namespace Repository

theorem get_touch_of_get {nodeIndex : NodeIndex} {k : String} {n : Node} (hn : nodeIndex.get k = some n)
    (addr : Option TCPAddr) (f : Node → Node) :
    (touch nodeIndex addr f).get k = some (if TCPAddr.ptrString addr = k then f n else n) := by
  rw [get_touch]
  by_cases hk : k = TCPAddr.ptrString addr
  · subst hk
    simp [hn]
  · simp [hk, Ne.symm hk, hn]

/-! ## No node is forgotten -/

theorem IndexChange.mem {maxNodeCount : Nat} {nodeIndex idx : NodeIndex}
    (h : IndexChange maxNodeCount nodeIndex idx) {k : String} (hk : k ∈ nodeIndex) : k ∈ idx := by
  cases h with
  | same => exact hk
  | touched => exact mem_touch.mpr hk
  | inserted _ hn =>
      obtain ⟨-, -, rfl⟩ := handleNode_eq_some hn
      exact GoMap.mem_set.mpr (.inr hk)

/-- No action removes an address from the index: `restore` merges `nodes.dat` into it,
the node handler only inserts, and the other calls change a node in place. -/
theorem mem_step_of_mem {cfg : RepoConfig} {s s' : RepoState} {e : RepoEvent} {k : String}
    (h : step cfg s e = some s') (hk : k ∈ s.nodeIndex) : k ∈ s'.nodeIndex := by
  rcases step_index h with ⟨value, -, -, -, -, heq⟩ | hc
  · exact heq ▸ mem_decodeInto value hk
  · exact hc.mem hk

/-- Over every run, from any state, an address the index holds stays in it: the
repository never forgets a node, across `Stop` and a restoring `Start` as well. -/
theorem mem_run_of_mem (cfg : RepoConfig) (k : String) (es : List RepoEvent) (s s' : RepoState)
    (h : run cfg s es = some s') (hk : k ∈ s.nodeIndex) : k ∈ s'.nodeIndex :=
  Trace.run_inv (fun s => k ∈ s.nodeIndex) (fun _ _ _ hs hk => mem_step_of_mem hs hk) es h hk

/-- A known node through a `Start` that restores a `nodes.dat` a save wrote for another
node, a `Stop` that saves both, and a second restoring `Start`: both nodes are in the
index. -/
theorem node_kept_through_restart :
    let a : TCPAddr := ⟨[10, 0, 0, 1], 8333, ""⟩
    let b : TCPAddr := ⟨[10, 0, 0, 2], 8333, ""⟩
    let na : Node := newNode (some a) (some («local» a))
    let nb : Node := newNode (some b) (some («local» b))
    let s : RepoState := { newRepository (save none true [⟨b.string, nb⟩]) with
      nodeIndex := (∅ : NodeIndex).set a.string na }
    let es : List RepoEvent := [.start true, .stop true [⟨b.string, nb⟩, ⟨a.string, na⟩], .start true]
    ∃ s', run ⟨1000, 16⟩ s es = some s' ∧ a.string ∈ s.nodeIndex ∧ a.string ∈ s'.nodeIndex ∧
      s'.nodeIndex.len = 2 := by
  intro a b na nb s es
  have hrun : (run ⟨1000, 16⟩ s es).map (·.nodeIndex.len) = some 2 := by decide
  obtain ⟨s', hs', hlen⟩ := Option.map_eq_some'.mp hrun
  have hk : a.string ∈ s.nodeIndex := by decide
  exact ⟨s', hs', hk, mem_run_of_mem ⟨1000, 16⟩ _ es s s' hs' hk, hlen⟩

end Repository

end PassiveBitcoin
