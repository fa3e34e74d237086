import Brainfuck.Machine.Run
import Brainfuck.Proofs.Execution.Effect

/-! Writing behind what was written before.
Machines write and never look at what they have written. A machine whose output holds more
bytes to begin with takes the same steps, and holds the same bytes more afterwards.
-/

namespace Brainfuck

namespace Output

/-- The output with more bytes in front of its own, unless it keeps none. -/
def behind (front : Array UInt8) : Output → Output
  | .discarded => .discarded
  | .collected bytes => .collected (front ++ bytes)

/-- An output of the same kind that holds nothing. -/
def cleared : Output → Output
  | .discarded => .discarded
  | .collected _ => .empty

theorem write_behind (front : Array UInt8) (output : Output) (value : Int)
    : (output.behind front).write value = (output.write value).behind front := by
  cases output with
  | discarded => rfl
  | collected bytes => simp only [behind, write, Array.push_append]

theorem cleared_behind (front : Array UInt8) (output : Output)
    : (output.behind front).cleared = output.cleared := by
  cases output <;> rfl

/-- Every output is an empty one behind its own bytes. -/
theorem behind_cleared (output : Output) : output.cleared.behind output.bytes = output := by
  cases output with
  | discarded => rfl
  | collected bytes => simp [behind, cleared, empty, Output.bytes]

/-- What is written meanwhile is the same, whatever was written before. -/
theorem drop_behind (front bytes : Array UInt8) (output : Output)
    : (output.behind front).bytes.toList.drop (front ++ bytes).toList.length
      = output.bytes.toList.drop bytes.toList.length := by
  cases output with
  | discarded => simp [behind, Output.bytes]
  | collected later =>
      simp only [behind, Output.bytes, Array.toList_append, List.length_append,
        List.drop_length_add_append]

end Output

/-- The store with more bytes in front of its output. -/
def Store.behind (front : Array UInt8) (store : Store) : Store :=
  { store with output := store.output.behind front }

/-- Actions do not look at what was written before. -/
theorem Store.act_behind (front : Array UInt8) (store : Store) (action : Action)
    : (store.behind front).act action
      = match store.act action with
        | .error fault => .error fault
        | .ok next => .ok (next.behind front) := by
  have tape : (store.behind front).tape = store.tape := rfl
  cases action with
  | move distance =>
      simp only [act, tape]
      cases store.tape.moved distance <;> rfl
  | add amount =>
      simp only [act, tape]
      cases store.tape.added amount <;> rfl
  | read => rfl
  | write => simp only [act, Store.behind, Output.write_behind]

namespace Machine

/-- The machine with more bytes in front of its output. -/
def behind (front : Array UInt8) (machine : Machine) : Machine :=
  { machine with output := machine.output.behind front }

/-- Units have the same effect, whatever was written before. -/
theorem effect_behind (front : Array UInt8) (machine : Machine) (unit : CodeUnit)
    : (machine.behind front).effect unit
      = match machine.effect unit with
        | .error fault => .error fault
        | .ok (store, passage) => .ok (store.behind front, passage) := by
  have store : (machine.behind front).store = machine.store.behind front := rfl
  cases does : unit.action? with
  | none =>
      rw [effect_of_no_action _ does, effect_of_no_action _ does, store]
      have same
          : unit.passage (machine.behind front).code (machine.behind front).counter
                (machine.behind front).tape.current
              = unit.passage machine.code machine.counter machine.tape.current :=
        rfl
      rw [same]
      cases unit.passage machine.code machine.counter machine.tape.current <;> rfl
  | some action =>
      rw [effect_of_action _ does, effect_of_action _ does, store, Store.act_behind]
      cases machine.store.act action <;> rfl

theorem perform_behind (front : Array UInt8) (machine : Machine) (unit : CodeUnit)
    : (machine.behind front).perform unit
      = {
          machine := (machine.perform unit).machine.behind front
          fault? := (machine.perform unit).fault?
        } := by
  rw [perform_eq, perform_eq, effect_behind]
  cases machine.effect unit <;> rfl

/-- Attempts are announced and refused in the same way, whatever was written before. -/
theorem attempt_behind (front : Array UInt8) (machine : Machine) {α : Type}
    (hear : α → Notice → α) (allowance : Nat) (heard : α)
    : (machine.behind front).attempt hear allowance heard
      = {
          machine.attempt hear allowance heard with
            state := (machine.attempt hear allowance heard).state.behind front
        } := by
  have notice : (machine.behind front).notice = machine.notice := rfl
  unfold attempt
  rw [notice]
  cases machine.notice with
  | error fault => rfl
  | ok notice =>
      cases allowance with
      | zero => rfl
      | succ left =>
          simp only [perform_behind]
          rcases machine.perform notice.unit with ⟨next, _ | fault⟩ <;> rfl

end Machine

end Brainfuck
