import Brainfuck.Configuration
import Brainfuck.Proofs.Memory.Arithmetic

/-! Stores: what is left of a machine when code, program counter and metrics are taken away.
Every action works on the store alone, whatever executes it, so both engines and the
structured view of a program share one meaning of actions.
-/

namespace Brainfuck

/-- The tape, and both channels of a program. -/
structure Store where
  tape : Tape
  input : Input
  output : Output
deriving DecidableEq, Repr

namespace Store

/-- The store in front of the first step: a blank tape and untouched channels. -/
def fresh (configuration : Configuration) (input : Input) (output : Output) : Store :=
  { tape := .blank configuration.tapeSize configuration.policy, input, output }

/-- The store with the tape that an operation results in. -/
def withTape (store : Store) : Except Fault Tape → Except Fault Store
  | .error fault => .error fault
  | .ok tape => .ok { store with tape }

/-- What an action makes of a store, or why it cannot be done. -/
def act (store : Store) : Action → Except Fault Store
  | .move distance => store.withTape (store.tape.moved distance)
  | .add amount => store.withTape (store.tape.added amount)
  | .read =>
      let (byte, unread) := store.input.next
      .ok { store with tape := store.tape.write byte.toNat, input := unread }
  | .write => .ok { store with output := store.output.write store.tape.current }

/-- Why an action cannot be done: a move would leave the tape, or a checked cell overflow. -/
inductive Refuses (store : Store) : Action → Fault → Prop
  | move {distance : Int}
    (outside
      : ¬ (0 ≤ store.tape.pointer + distance
          ∧ store.tape.pointer + distance < store.tape.size))
    : Refuses store (.move distance)
        (.pointerOutOfRange (store.tape.pointer + distance) store.tape.size)
  | add {amount : Int} (checked : store.tape.policy = .checked)
    (overflows : ¬ IsSignedByte (store.tape.current + amount))
    : Refuses store (.add amount) (.cellOverflow store.tape.current store.tape.pointer)

/-- Actions that fail do so for one of these reasons, by cases on the action. -/
theorem refuses_of_act {store : Store} {action : Action} {fault : Fault}
    (h : store.act action = .error fault)
    : store.Refuses action fault := by
  cases action with
  | move distance =>
      simp only [act, Tape.moved_eq] at h
      by_cases inside : 0 ≤ (store.tape.pointer : Int) + distance
          ∧ (store.tape.pointer : Int) + distance < store.tape.size
      · simp [inside, withTape] at h
      · simp only [inside, if_false, withTape, Except.error.injEq] at h
        subst h
        exact .move inside
  | add amount =>
      cases policy : store.tape.policy with
      | wrapping => simp [act, Tape.added_of_wrapping policy, withTape] at h
      | checked =>
          simp only [act, Tape.added_of_checked policy] at h
          by_cases signed : IsSignedByte (store.tape.current + amount)
          · simp [signed, withTape] at h
          · simp only [signed, if_false, withTape, Except.error.injEq] at h
            subst h
            exact .add policy signed
  | read => simp [act] at h
  | write => simp [act] at h

/-- Actions fail at the ends of the tape or of the signed bytes, and nowhere else. -/
theorem kind_of_act {store : Store} {action : Action} {fault : Fault}
    (h : store.act action = .error fault)
    : fault.kind = .pointerOutOfRange ∨ fault.kind = .cellOverflow := by
  cases refuses_of_act h with
  | move outside => exact Or.inl rfl
  | add checked overflows => exact Or.inr rfl

/-- Actions change the tape in one place at most, by cases on the action. -/
theorem change_of_act {store next : Store} {action : Action} (h : store.act action = .ok next)
    : store.tape.Change next.tape := by
  cases action with
  | move distance =>
      cases moved : store.tape.moved distance with
      | error fault => simp [act, moved, withTape] at h
      | ok tape =>
          simp only [act, moved, withTape, Except.ok.injEq] at h
          subst h
          exact Tape.change_of_moved moved
  | add amount =>
      cases added : store.tape.added amount with
      | error fault => simp [act, added, withTape] at h
      | ok tape =>
          simp only [act, added, withTape, Except.ok.injEq] at h
          subst h
          exact Tape.change_of_added added
  | read =>
      cases h
      exact .puts (isSignedByte_signedByte _)
  | write =>
      cases h
      exact .rests

/-- Actions keep the tape well formed, because what they store is a signed byte and where
they move to is on the tape.
-/
theorem wellFormed_of_act {store next : Store} {action : Action}
    (wellFormed : store.tape.WellFormed) (h : store.act action = .ok next)
    : next.tape.WellFormed :=
  wellFormed.change (change_of_act h)

-----------------------------------------------------------------------------------------
-- Repeated actions
-----------------------------------------------------------------------------------------

/-- Agreement about the tape is agreement about the store. -/
theorem agree_withTape (store : Store) {left right : Except Fault Tape}
    (h : AgreeUpToKind left right)
    : AgreeUpToKind (store.withTape left) (store.withTape right) := by
  cases h with
  | ok tape => exact .ok _
  | error same => exact .error same

/-- Repeating an action of the tape changes nothing but the tape, by induction on the turns.
-/
theorem repeated_act {action : Action} (operation : Tape → Except Fault Tape)
    (onTape : ∀ store : Store, store.act action = store.withTape (operation store.tape))
    (times : Nat) (store : Store)
    : repeated (·.act action) times store
      = store.withTape (repeated operation times store.tape) := by
  induction times generalizing store with
  | zero => rfl
  | succ times ih =>
      unfold repeated
      rw [onTape]
      cases done : operation store.tape with
      | error fault => rfl
      | ok tape =>
          simp only [withTape, ih]

end Store

/-- A move to a neighbouring cell, or an addition of one, in either direction. -/
inductive Action.IsUnit : Action → Prop
  | move {sign : Int} (unit : Tape.IsUnit sign) : IsUnit (.move sign)
  | add {sign : Int} (unit : Tape.IsUnit sign) : IsUnit (.add sign)

/-- The action that takes the place of a repeated one; only moves and additions have one.
-/
def Action.times : Action → Nat → Action
  | .move distance, count => .move (distance * count)
  | .add amount, count => .add (amount * count)
  | action, _ => action

/-- An action that takes the place of repeated ones does what they do, or fails with the
same kind of fault.
-/
theorem Store.agree_repeated_act {store : Store} (wellFormed : store.tape.WellFormed)
    {action : Action} (unit : action.IsUnit) (times : Nat)
    : AgreeUpToKind (store.act (action.times times))
        (repeated (·.act action) times store) := by
  cases unit with
  | @move sign unit =>
      rw [Store.repeated_act (Tape.moved · sign) fun _ => rfl]
      exact store.agree_withTape (Tape.agree_repeated_moved wellFormed unit times)
  | @add sign unit =>
      rw [Store.repeated_act (Tape.added · sign) fun _ => rfl]
      exact store.agree_withTape (Tape.agree_repeated_added wellFormed unit times)

end Brainfuck
