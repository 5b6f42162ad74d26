import Curly.Config
import Curly.Helper

/-!
# Built-in helpers

The helpers that every engine begins with: conditions, iterations and changes
of context as blocks, and plain helpers that look up a part of a value and log
messages.
-/

namespace Curly.Builtin

/-- The only positional argument. -/
def single (name : String) (arguments : Arguments) : Except Diagnostic Value :=
  match arguments.positional with
  | [v] => .ok v
  | vs => .error (.arity name 1 vs.length)

def ifHelper : BlockHelper := fun block _ arguments => do
  let v ← Run.ofExcept (single "if" arguments)
  if v.isTruthy then block.renderBody else block.renderInverse

def unlessHelper : BlockHelper := fun block _ arguments => do
  let v ← Run.ofExcept (single "unless" arguments)
  if v.isTruthy then block.renderInverse else block.renderBody

/-- Goes through entries, of which there are `size` in all, counted from the
given index. -/
def renderEntries (size : Nat) (render : Value → Iteration → Run Unit) :
    Nat → List (Value × Value) → Run Unit
  | _, [] => pure ()
  | index, (key, v) :: entries => do
    render v (.of key index size)
    renderEntries size render (index + 1) entries

/-- The body for each entry of the argument, the inverse if it has none. -/
def eachHelper : BlockHelper := fun block _ arguments => do
  let v ← Run.ofExcept (single "each" arguments)
  match v.entries? with
  | some (e :: es) => renderEntries (es.length + 1) block.renderItem 0 (e :: es)
  | _ => block.renderInverse

/-- The body in the context of the argument if that is truthy. -/
def withHelper : BlockHelper := fun block _ arguments => do
  let v ← Run.ofExcept (single "with" arguments)
  if v.isTruthy then block.renderBodyWith v else block.renderInverse

/-- Writes the part of the first argument that the text of the second names. -/
def lookupHelper : Helper := fun _ arguments =>
  match arguments.positional with
  | [v, key] =>
    match v.segment? key.text with
    | some part => Run.writeEscaped part.text
    | none => pure ()
  | vs => Run.fail (.arity "lookup" 2 vs.length)

def severityOf (arguments : Arguments) : Severity :=
  (((arguments.named? "level").bind Value.string?).bind Severity.ofName?).getD .info

def logEach (journal : Journal) (severity : Severity) : List Value → Run Unit
  | [] => pure ()
  | v :: vs => do
    Run.emit (.log journal severity v.text)
    logEach journal severity vs

/-- Logs the text of each positional argument, unless there is no journal or
the threshold drops them. -/
def logHelper (journal : Option Journal) (threshold : Option Severity) : Helper :=
    fun _ arguments =>
  match journal with
  | none => pure ()
  | some journal =>
    let severity := severityOf arguments
    if severity.passes threshold then logEach journal severity arguments.positional else pure ()

def all : List (String × Registered) :=
  [("if", .block ifHelper), ("unless", .block unlessHelper), ("each", .block eachHelper),
   ("with", .block withHelper), ("lookup", .plain lookupHelper), ("log", .log)]

end Curly.Builtin
