/-
# PassiveBitcoin.Manager.Listener — the accept loop of one listener

`Manager.handleListener` runs one loop per local listener: it calls
`listener.AcceptTCP()`, breaks on an error, and hands each accepted connection to
`newIncomingPeer`. The loop's first test is

    if strings.Contains(err.Error(), "use of closed network connection") { break }

and only the second is `if err != nil { break }`. `acceptStep` is one pass of the loop
body, `handleListener` the loop over the results of successive accepts.

The test order decides the loop. On an accepted connection `err` is nil, and
`err.Error()` is a method call on a nil interface value: the goroutine panics before
`newIncomingPeer` is reached (`acceptStep_conn`). So `handleListener` never hands a
connection to `newIncomingPeer` (`handleListener_incoming`), and the first accepted
connection ends the process (`handleListener_accepted_panics`). Errors behave as
intended: the listener's own close ends the loop as `stopped`, any other error as
`failed` (`acceptStep_error`). Either way the loop ends at its first accept
(`handleListener_exit`).
-/
import PassiveBitcoin.Go.Sync

namespace PassiveBitcoin

set_option autoImplicit false

/-- What one `listener.AcceptTCP()` returns: a connection and a nil error, or a nil
connection and an error. -/
inductive Accepted (Conn : Type) where
  | conn (c : Conn)
  | error (e : GoError)
  deriving DecidableEq, Repr

namespace Accepted

variable {Conn : Type}

/-- The `conn` result, `none` for nil. -/
def conn? : Accepted Conn → Option Conn
  | .conn c => some c
  | .error _ => none

/-- The `err` result, `none` for nil. -/
def err : Accepted Conn → Option GoError
  | .conn _ => none
  | .error e => some e

end Accepted

/-- The text by which `handleListener` recognises the close of its own listener. -/
def closedConnectionText : String := "use of closed network connection"

/-- How one pass of the accept loop ends. -/
inductive ListenerStep (Conn : Type) where
  /-- The goroutine panicked. -/
  | panicked (p : GoPanic)
  /-- `break` on the listener's own close. -/
  | stopped
  /-- `break` on another accept error. -/
  | failed
  /-- `newIncomingPeer` was called with the connection, and the loop continues
  whatever it returned. -/
  | incoming (conn : Option Conn)
  deriving DecidableEq, Repr

/-- The whole result of the accept loop over a sequence of accepts. -/
structure ListenerRun (Conn : Type) where
  /-- The connections handed to `newIncomingPeer`, in order. -/
  incoming : List (Option Conn)
  /-- How the loop ended; `none` while it still waits in `AcceptTCP`. -/
  exit : Option (ListenerStep Conn)
  deriving DecidableEq, Repr

namespace Manager

variable {Conn : Type}

/-- One pass of the body of `handleListener`'s loop on an `AcceptTCP` result. -/
def acceptStep (a : Accepted Conn) : ListenerStep Conn :=
  match errorString a.err with
  | .error p => .panicked p
  | .ok text =>
      if stringsContains text closedConnectionText then .stopped
      else if a.err.isSome then .failed
      else .incoming a.conn?

/-- `handleListener`: the accept loop over the results of successive accepts. -/
def handleListener : List (Accepted Conn) → ListenerRun Conn
  | [] => ⟨[], none⟩
  | a :: rest =>
      match acceptStep a with
      | .incoming conn =>
          let run := handleListener rest
          ⟨conn :: run.incoming, run.exit⟩
      | last => ⟨[], some last⟩

/-- An accepted connection makes the loop call `Error()` on a nil error. -/
theorem acceptStep_conn (c : Conn) : acceptStep (.conn c) = .panicked .nilDereference := rfl

theorem acceptStep_error (e : GoError) :
    acceptStep (.error e : Accepted Conn) =
      if stringsContains e.text closedConnectionText then .stopped else .failed := by
  simp only [acceptStep, Accepted.err, errorString, Option.isSome_some, if_true]

theorem acceptStep_ne_incoming (a : Accepted Conn) (conn : Option Conn) :
    acceptStep a ≠ .incoming conn := by
  cases a with
  | conn c => simp [acceptStep_conn]
  | error e => rw [acceptStep_error]; split <;> simp

/-- The loop never reaches `newIncomingPeer`, whatever the accepts return. -/
theorem handleListener_incoming (as : List (Accepted Conn)) : (handleListener as).incoming = [] := by
  cases as with
  | nil => rfl
  | cons a rest =>
      simp only [handleListener]
      split
      · exact absurd ‹_› (acceptStep_ne_incoming a _)
      · rfl

/-- The first accepted connection panics the listener's goroutine, and with it the
process, before any peer is created for it. -/
theorem handleListener_accepted_panics (c : Conn) (rest : List (Accepted Conn)) :
    handleListener (.conn c :: rest) = ⟨[], some (.panicked .nilDereference)⟩ := rfl

/-- The loop ends at its first accept: by a panic on a connection, by `stopped` or
`failed` on an error. -/
theorem handleListener_exit (a : Accepted Conn) (rest : List (Accepted Conn)) :
    (handleListener (a :: rest)).exit = some (acceptStep a) := by
  simp only [handleListener]
  split
  · exact absurd ‹_› (acceptStep_ne_incoming a _)
  · simp_all

end Manager

end PassiveBitcoin
