import Brainfuck.Tape

/-! Input and output of a program, one byte at a time.
Behind the end of the input every read gives zero, and so does every read without input.
-/

namespace Brainfuck

/-- Where reads come from: nowhere, or the bytes of a stream that are still unread. -/
inductive Input where
  | absent
  | stream (unread : List UInt8)
deriving DecidableEq, Repr

/-- The next byte, and the input without it. -/
def Input.next : Input → UInt8 × Input
  | .stream (byte :: unread) => (byte, .stream unread)
  | .stream [] => (0, .stream [])
  | .absent => (0, .absent)

/-- Where writes go: nowhere, or behind the bytes written before. -/
inductive Output where
  | discarded
  | collected (bytes : Array UInt8)
deriving DecidableEq, Repr

/-- An output that keeps what is written and is still empty. -/
def Output.empty : Output :=
  .collected #[]

/-- Writes the low byte of a number. -/
def Output.write : Output → Int → Output
  | .discarded, _ => .discarded
  | .collected bytes, value => .collected (bytes.push (lowByte value))

/-- The bytes written so far. -/
def Output.bytes : Output → Array UInt8
  | .discarded => #[]
  | .collected bytes => bytes

end Brainfuck
