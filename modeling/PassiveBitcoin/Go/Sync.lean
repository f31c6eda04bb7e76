/-
# PassiveBitcoin.Go.Sync — signals, goroutines and the lifecycle word

The manager, the repository and the file writer share one concurrency pattern. A
component holds a lifecycle word `state` changed by `atomic.CompareAndSwapUint32`;
`Start` launches handler goroutines counted by a `sync.WaitGroup`; each handler loops
on a `select` until a signal channel (`sigConn`, `sigPeer`, `sigNode`, `sigSave`,
`sigWriter`) is closed; `Stop` closes the signals. This module models those pieces:

* `LifecycleState` — the `state` word; each system tests it and sets it within one
  atomic step, as `CompareAndSwapUint32` followed by the store at the end of `Start` or
  `Stop` does for the outcome;
* `Signal` — a `chan struct{}` nothing is ever sent on, so its only state is whether
  it is closed, and `Signal.close`, which panics on a closed channel;
* `Routine` — where a goroutine is: not yet launched, running, or returned;
* `GoPanic` — the run-time panics the code can reach;
* `GoError` — a non-nil `error` value, and `errorString`, the call `err.Error()`,
  which panics when `err` is nil.

A panic is fatal to the process; the system models treat it as a terminal state.
-/
import Mathlib.Data.List.Infix

namespace PassiveBitcoin

set_option autoImplicit false

/-- The values of a component's `state` word. The constants `stateIdle`, `stateBusy`
and `stateRunning` are not under src/; only their being distinct matters. -/
inductive LifecycleState where
  | idle
  | busy
  | running
  deriving DecidableEq, Repr

/-- The run-time panics the modelled code can reach. -/
inductive GoPanic where
  /-- `close` of a channel that is already closed. -/
  | closeOfClosedChannel
  /-- A method called on a nil interface or pointer. -/
  | nilDereference
  /-- An explicit `panic(err)`. -/
  | explicit
  /-- A `panic` with a string value, as gob's encoder raises on a nil pointer. -/
  | message (text : String)
  deriving DecidableEq, Repr

/-- A non-nil value of Go's `error` interface, seen through its `Error()` text. -/
structure GoError where
  text : String
  deriving DecidableEq, Repr

/-- `err.Error()` for `err : error`, `none` standing for a nil `err`: a method call on
a nil interface value panics. -/
def errorString : Option GoError → Except GoPanic String
  | none => .error .nilDereference
  | some e => .ok e.text

/-- `strings.Contains(s, substr)`. -/
def stringsContains (s substr : String) : Bool := decide (substr.data <:+: s.data)

/-- A `chan struct{}` used only as a shutdown signal. Nothing is sent on it, so a
receive `_, ok := <-ch` blocks until it is closed and then yields `ok = false`. -/
structure Signal where
  closed : Bool
  deriving DecidableEq, Repr

namespace Signal

/-- A signal as `make(chan struct{}, n)` returns it. -/
def make : Signal := ⟨false⟩

/-- `close(ch)`. -/
def close (c : Signal) : Except GoPanic Signal :=
  if c.closed then .error .closeOfClosedChannel else .ok ⟨true⟩

@[simp] theorem close_open : (⟨false⟩ : Signal).close = .ok ⟨true⟩ := rfl

@[simp] theorem close_closed : (⟨true⟩ : Signal).close = .error .closeOfClosedChannel := rfl

end Signal

/-- Where a goroutine is. -/
inductive Routine where
  | notLaunched
  | running
  | returned
  deriving DecidableEq, Repr

end PassiveBitcoin
