import Curly.Frame
import Curly.Run

/-!
# Helpers

A helper is called by a template with values for arguments and writes what it
makes of them. A block helper decides besides which branch of its block is
rendered, how often, and in which frame.
-/

namespace Curly

/-- The values that a helper is called with. Of two named ones with one name
the later counts. -/
structure Arguments where
  positional : List Value
  named : List (String × Value)

def Arguments.named? (arguments : Arguments) (name : String) : Option Value :=
  valueAt name arguments.named

/-- Writes a text, given the value of the current frame. -/
abbrev Helper := Value → Arguments → Run Unit

/-- A block as its helper sees it: the frame that it stands in, its named
arguments, and its branches, to be rendered in a frame. -/
structure Block where
  frame : Frame
  named : List (String × Value)
  body : Frame → Run Unit
  inverse : Option (Frame → Run Unit)

abbrev BlockHelper := Block → Value → Arguments → Run Unit

namespace Block

def renderBody (block : Block) : Run Unit :=
  block.body block.frame

def renderBodyWith (block : Block) (value : Value) : Run Unit :=
  block.body (block.frame.child value)

def renderItem (block : Block) (value : Value) (iteration : Iteration) : Run Unit :=
  block.body (block.frame.item value iteration)

def renderIn (frame : Frame) : Option (Frame → Run Unit) → Run Unit
  | some branch => branch frame
  | none => pure ()

def renderInverse (block : Block) : Run Unit :=
  renderIn block.frame block.inverse

def renderInverseWith (block : Block) (value : Value) : Run Unit :=
  renderIn (block.frame.child value) block.inverse

end Block

inductive Registered where
  | plain (helper : Helper)
  | block (helper : BlockHelper)
  /-- The built-in helper that logs with the engine's settings. -/
  | log

end Curly
