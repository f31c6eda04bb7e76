/-
# PassiveBitcoin.Go.Trace — interleavings as runs of a step function

Every concurrent component of the program is modelled the same way: a state record,
the atomic actions of its goroutines as events, and `step : S → E → Option S`, which
is `none` when the event is not enabled (a receive on an empty channel, a send on a
full one, a goroutine that has returned). This module is what the components share:

* `ReachableUnder step allowed init` — the states reached from `init` by steps that
  `allowed` admits, and `Reachable` when it admits every step;
* `ReachableUnder.inv` — a property that holds initially and that every admitted step
  keeps holds in every reachable state;
* `run` — the replay of a list of events, in which counterexample traces are written,
  with `reachable_run` turning a replay into reachability and `run_inv` carrying a
  property kept by every step along it.
-/
import Mathlib.Init

namespace PassiveBitcoin

set_option autoImplicit false

namespace Trace

variable {S E : Type}

/-- The states reached from `init` by steps that `allowed` admits. -/
inductive ReachableUnder (step : S → E → Option S) (allowed : S → E → Prop) (init : S) : S → Prop where
  | init : ReachableUnder step allowed init init
  | step {s s' : S} (e : E) : ReachableUnder step allowed init s → allowed s e → step s e = some s' →
      ReachableUnder step allowed init s'

/-- The states some interleaving reaches from `init`. -/
abbrev Reachable (step : S → E → Option S) (init : S) : S → Prop :=
  ReachableUnder step (fun _ _ => True) init

/-- Replays a sequence of events. -/
def run (step : S → E → Option S) (s : S) : List E → Option S
  | [] => some s
  | e :: es => (step s e).bind (run step · es)

section

variable {step : S → E → Option S} {allowed : S → E → Prop} {init : S}

theorem ReachableUnder.inv (P : S → Prop) (h0 : P init)
    (hstep : ∀ s s' e, allowed s e → step s e = some s' → P s → P s') {s : S}
    (h : ReachableUnder step allowed init s) : P s := by
  induction h with
  | init => exact h0
  | step e _ ha hs ih => exact hstep _ _ e ha hs ih

@[simp] theorem run_nil (s : S) : run step s [] = some s := rfl

@[simp] theorem run_cons (s : S) (e : E) (es : List E) :
    run step s (e :: es) = (step s e).bind (run step · es) := rfl

theorem run_cons_eq_some {s s' : S} {e : E} {es : List E} :
    run step s (e :: es) = some s' ↔ ∃ t, step s e = some t ∧ run step t es = some s' :=
  Option.bind_eq_some

/-- A replay of steps that `allowed` admits from every state reaches a reachable state. -/
theorem reachableUnder_run :
    ∀ {s s' : S} (es : List E), (∀ t, ∀ e ∈ es, allowed t e) → ReachableUnder step allowed init s →
      run step s es = some s' → ReachableUnder step allowed init s'
  | _, _, [], _, hs, h => by cases h; exact hs
  | _, _, e :: es, hall, hs, h => by
      obtain ⟨t, hstep, hrun⟩ := run_cons_eq_some.mp h
      exact reachableUnder_run es (fun t e' he => hall t e' (List.mem_cons_of_mem _ he))
        (.step e hs (hall _ e (List.mem_cons_self _ _)) hstep) hrun

theorem reachable_run {s s' : S} (es : List E) (hs : Reachable step init s)
    (h : run step s es = some s') : Reachable step init s' :=
  reachableUnder_run es (fun _ _ _ => trivial) hs h

/-- A replay that runs to its end reaches a reachable state. With `h` closed by
`decide`, the kernel evaluates the replay, which elaborating a `rfl` would not. -/
theorem reachable_run_get (es : List E) (h : (run step init es).isSome) :
    Reachable step init ((run step init es).get h) :=
  reachable_run es .init (Option.some_get h).symm

/-- A property every step keeps holds along every replay. -/
theorem run_inv (P : S → Prop) (hstep : ∀ s s' e, step s e = some s' → P s → P s') :
    ∀ {s s' : S} (es : List E), run step s es = some s' → P s → P s'
  | _, _, [], h, hp => by cases h; exact hp
  | _, _, e :: es, h, hp => by
      obtain ⟨t, hs, hrun⟩ := run_cons_eq_some.mp h
      exact run_inv P hstep es hrun (hstep _ _ e hs hp)

end

end Trace

end PassiveBitcoin
