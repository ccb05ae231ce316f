namespace Flashcards

/-!
# Output

Text is written to a sink, which may stop taking bytes.

* `Sink.write` — the longest part of a text that the sink takes, and whether it took all of it.
-/

/-- Why a text was not written whole. -/
inductive OutputError where
  /-- Nobody takes the rest. -/
  | closed
  deriving DecidableEq, Repr

/-- The wording of an output error. -/
def OutputError.message : OutputError → String
  | .closed => "broken pipe"

/-- What was written so far, and how many bytes are taken in all. -/
structure Sink where
  limit : Option Nat
  accepted : ByteArray

namespace Sink

/-- A sink that takes everything. -/
def unlimited : Sink :=
  ⟨none, ByteArray.empty⟩

/-- A sink that takes some number of bytes. -/
def limited (limit : Nat) : Sink :=
  ⟨some limit, ByteArray.empty⟩

/-- A sink that takes no more. -/
def close (s : Sink) : Sink :=
  { s with limit := some s.accepted.size }

/-- A text written to a sink.  A text that does not fit is cut where the room ends; the empty
    text always fits. -/
def write (s : Sink) (text : String) : Except OutputError Unit × Sink :=
  match s.limit with
  | none => (.ok (), { s with accepted := s.accepted ++ text.toUTF8 })
  | some n =>
    if s.accepted.size + text.utf8ByteSize ≤ n then
      (.ok (), { s with accepted := s.accepted ++ text.toUTF8 })
    else
      (.error .closed,
        { s with accepted := s.accepted ++ text.toUTF8.extract 0 (n - s.accepted.size) })

end Sink

/-- The longest start of some bytes that is UTF-8 text, if it leaves out at most `n` bytes. -/
def decodeStart? (bytes : ByteArray) : Nat → Option String
  | 0 => String.fromUTF8? bytes
  | n + 1 =>
    match String.fromUTF8? bytes with
    | some text => some text
    | none => decodeStart? (bytes.extract 0 (bytes.size - 1)) n

/-- The text of bytes cut from a text: a character cut in two is shown as one `U+FFFD`. -/
def decodeCut (bytes : ByteArray) : String :=
  match decodeStart? bytes 3 with
  | some text => if text.utf8ByteSize = bytes.size then text else text.push '\uFFFD'
  | none => "\uFFFD"

end Flashcards
