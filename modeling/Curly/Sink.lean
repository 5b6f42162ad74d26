/-!
# Sinks

A sink gathers text. It takes a text whole or not at all: one that would bring
it over its capacity is refused and leaves it as it was.
-/

namespace Curly

structure Sink where
  text : String
  /-- The most bytes that the sink holds, if there is a limit. -/
  capacity : Option Nat

namespace Sink

def ofCapacity (capacity : Option Nat) : Sink :=
  ⟨"", capacity⟩

def accepts (sink : Sink) (text : String) : Bool :=
  match sink.capacity with
  | none => true
  | some n => sink.text.utf8ByteSize + text.utf8ByteSize ≤ n

def append (sink : Sink) (text : String) : Sink :=
  { sink with text := sink.text ++ text }

/-- Writes texts up to the first that is refused. Says whether all were taken. -/
def write (sink : Sink) : List String → Sink × Bool
  | [] => (sink, true)
  | text :: texts =>
    if sink.accepts text then (sink.append text).write texts else (sink, false)

end Sink

end Curly
