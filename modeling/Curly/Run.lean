import Curly.Diagnostic
import Curly.Severity
import Curly.Sink
import Curly.Text.Entity

/-!
# Runs

A run gives a value or fails, and leaves behind it a trace of what it did: the
texts it wrote, what it logged, and the templates it entered and left. What a
run did before it failed stays in the trace.
-/

namespace Curly

inductive Journal where
  /-- The messages of templates, gathered for the caller. -/
  | messages
  /-- The journal of the whole program, in which the library notes its own
  steps. -/
  | shared
deriving DecidableEq, Repr

inductive Event where
  | write (text : String)
  | log (journal : Journal) (severity : Severity) (message : String)
  | enter (name : String)
  | leave
deriving DecidableEq, Repr

namespace Event

def written? : Event → Option String
  | .write text => some text
  | _ => none

def logged? (journal : Journal) : Event → Option (Severity × String)
  | .log j severity message => if j = journal then some (severity, message) else none
  | _ => none

end Event

def textOf (events : List Event) : String :=
  String.join (events.filterMap Event.written?)

structure Run (α : Type) where
  events : List Event
  outcome : Except Diagnostic α

namespace Run

variable {α β : Type}

/-- The second run after the first, unless that failed. -/
def bind (r : Run α) (f : α → Run β) : Run β :=
  match r.outcome with
  | .ok a =>
    let s := f a
    ⟨r.events ++ s.events, s.outcome⟩
  | .error d => ⟨r.events, .error d⟩

instance : Monad Run where
  pure a := ⟨[], .ok a⟩
  bind := bind

instance : Inhabited (Run α) := ⟨⟨[], .error .writeFailure⟩⟩

@[simp] theorem pure_eq (a : α) : (pure a : Run α) = ⟨[], .ok a⟩ := rfl

@[simp] theorem bind_ok (es : List Event) (a : α) (f : α → Run β) :
    (⟨es, .ok a⟩ : Run α) >>= f = ⟨es ++ (f a).events, (f a).outcome⟩ := rfl

@[simp] theorem bind_error (es : List Event) (d : Diagnostic) (f : α → Run β) :
    (⟨es, .error d⟩ : Run α) >>= f = ⟨es, .error d⟩ := rfl

instance : LawfulMonad Run := LawfulMonad.mk' Run
  (fun ⟨_, o⟩ => by cases o <;> simp [Functor.map, bind])
  (fun _ _ => by simp)
  (fun ⟨_, o⟩ f g => by
    cases o with
    | error d => rfl
    | ok a =>
      rcases h : f a with ⟨es, o⟩
      cases o <;> simp [h])

/-! ## Steps -/

def fail (d : Diagnostic) : Run α :=
  ⟨[], .error d⟩

def ofExcept (outcome : Except Diagnostic α) : Run α :=
  ⟨[], outcome⟩

def emit (event : Event) : Run Unit :=
  ⟨[event], .ok ()⟩

def write (text : String) : Run Unit :=
  emit (.write text)

def writeEscaped (text : String) : Run Unit :=
  ⟨(Text.escapedPieces text).map .write, .ok ()⟩

/-- Notes a step of the library. -/
def note (severity : Severity) (message : String) : Run Unit :=
  emit (.log .shared severity message)

/-! ## Runs within runs -/

def mapError (f : Diagnostic → Diagnostic) (r : Run α) : Run α :=
  ⟨r.events, r.outcome.mapError f⟩

def within (name : String) (r : Run α) : Run α :=
  ⟨.enter name :: r.events ++ [.leave], r.outcome⟩

/-- The run with its text for a value. What a failed run wrote is lost. -/
def capture (r : Run Unit) : Run String :=
  ⟨r.events.filter (·.written?.isNone), r.outcome.map fun _ => textOf r.events⟩

def attempt (r : Run α) : Run (Except Diagnostic α) :=
  ⟨r.events, .ok r.outcome⟩

/-! ## Into a sink -/

/-- Writes the texts of a trace to a sink, up to the first that it refuses.
Gives the sink and the events that came about. -/
def deliver (sink : Sink) : List Event → Sink × List Event × Bool
  | [] => (sink, [], true)
  | .write text :: events =>
    if sink.accepts text then
      let (sink', done, taken) := deliver (sink.append text) events
      (sink', .write text :: done, taken)
    else (sink, [], false)
  | event :: events =>
    let (sink', done, taken) := deliver sink events
    (sink', event :: done, taken)

/-- The run with its texts written to a sink. A refused text ends it. -/
def into (r : Run α) (sink : Sink) : Sink × Run α :=
  let (sink', done, taken) := deliver sink r.events
  (sink', ⟨done, if taken then r.outcome else .error .writeFailure⟩)

def logged (journal : Journal) (r : Run α) : List (Severity × String) :=
  r.events.filterMap (Event.logged? journal)

end Run

end Curly
