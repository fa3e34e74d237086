import Brainfuck.Machine

/-! Runs of a machine under a listener.
A listener hears the notice of every step and may refuse one: it admits a fixed number of
them, its allowance. A refused step changes nothing.
-/

namespace Brainfuck

/-- How an activity of many steps ended. -/
inductive Ending where
  /-- It did all that it was asked to do. -/
  | returned
  | failed (fault : Fault)
  /-- The listener refused the notice of the next step. -/
  | refused
deriving DecidableEq, Repr

/-- What an activity leaves behind: the state that it worked on, what the listener has
heard, how many more notices it would have admitted, and how the activity ended.
-/
structure Run (σ α : Type) where
  state : σ
  heard : α
  allowance : Nat
  ending : Ending := .returned

namespace Machine

/-- Attempts one step under a listener. -/
@[inline] def attempt {α : Type} (hear : α → Notice → α) (allowance : Nat) (heard : α)
    (machine : Machine) : Run Machine α :=
  match machine.notice with
  | .error fault => { state := machine, heard, allowance, ending := .failed fault }
  | .ok notice =>
      match allowance with
      | 0 => { state := machine, heard, allowance := 0, ending := .refused }
      | left + 1 =>
          match machine.perform notice.unit with
          | { machine := next, fault? := none } =>
              { state := next, heard := hear heard notice, allowance := left }
          | { machine := next, fault? := some fault } =>
              {
                state := next
                heard := hear heard notice
                allowance := left
                ending := .failed fault
              }

/-- Attempts steps up to a number of them, as long as none fails. -/
@[specialize] def steps {α : Type} (hear : α → Notice → α)
    : Nat → Nat → α → Machine → Run Machine α
  | 0, allowance, heard, machine => { state := machine, heard, allowance }
  | count + 1, allowance, heard, machine =>
      match machine.attempt hear allowance heard with
      | { state := next, heard, allowance, ending := .returned } =>
          next.steps hear count allowance heard
      | stopped => stopped

/-- Attempts steps until the machine has finished, as long as none fails. -/
@[specialize] def run {α : Type} (hear : α → Notice → α)
    : Nat → α → Machine → Run Machine α
  | 0, heard, machine =>
      if machine.finished then { state := machine, heard, allowance := 0 }
      else machine.attempt hear 0 heard
  | left + 1, heard, machine =>
      if machine.finished then { state := machine, heard, allowance := left + 1 }
      else match machine.attempt hear (left + 1) heard with
        | { state := next, heard, ending := .returned, .. } => next.run hear left heard
        | stopped => stopped

/-- A run that nobody listens to. -/
def runSilently (allowance : Nat) (machine : Machine) : Run Machine Unit :=
  machine.run (fun _ _ => ()) allowance ()

end Machine

end Brainfuck
