import Curly.Template.Path
import Curly.Value

/-!
# Frames

The values that a template is in the middle of, the innermost first. A path
resolves in a frame: it begins at a value of the chain or at a datum of an
iteration and goes down segment by segment.
-/

namespace Curly

/-- The place of an entry among those of an iteration. -/
structure Iteration where
  key : Value
  index : Nat
  first : Bool
  last : Bool

def Iteration.of (key : Value) (index size : Nat) : Iteration :=
  ⟨key, index, index = 0, index + 1 = size⟩

inductive Frame where
  | root (value : Value)
  | nested (value : Value) (iteration : Option Iteration) (parent : Frame)

namespace Frame

def value : Frame → Value
  | .root value => value
  | .nested value _ _ => value

def child (frame : Frame) (value : Value) : Frame :=
  .nested value none frame

def item (frame : Frame) (value : Value) (iteration : Iteration) : Frame :=
  .nested value (some iteration) frame

/-- The frame some hops outward, if there are as many. -/
def ancestor? : Nat → Frame → Option Frame
  | 0, frame => some frame
  | _ + 1, .root _ => none
  | hops + 1, .nested _ _ parent => parent.ancestor? hops

def rootValue : Frame → Value
  | .root value => value
  | .nested _ _ parent => parent.rootValue

/-- A datum of the iteration that made the frame. -/
def datum? : Frame → String → Option Value
  | .nested value (some iteration) _, name =>
    match name with
    | "key" => some iteration.key
    | "index" => some (.ofNat iteration.index)
    | "first" => some (.bool iteration.first)
    | "last" => some (.bool iteration.last)
    | "value" => some value
    | _ => none
  | _, _ => none

/-! ## Resolution -/

inductive Missing where
  /-- The chain has fewer frames than the path has hops. -/
  | frame
  | datum (name : String)
  | segment (name : String)
deriving DecidableEq, Repr

def Missing.key : Missing → String
  | .frame => ".."
  | .datum name => "@" ++ name
  | .segment name => name

/-- Goes down from a value, up to the first segment that names no part. -/
def descend (v : Value) : List String → Except Missing Value
  | [] => .ok v
  | segment :: segments =>
    match v.segment? segment with
    | some part => descend part segments
    | none => .error (.segment segment)

def start (frame : Frame) : Path.Origin → Except Missing Value
  | .root => .ok frame.rootValue
  | .context hops =>
    match frame.ancestor? hops with
    | some f => .ok f.value
    | none => .error .frame
  | .metadata hops name =>
    match frame.ancestor? hops with
    | some f =>
      match f.datum? name with
      | some v => .ok v
      | none => .error (.datum name)
    | none => .error .frame

def resolve (frame : Frame) (p : Path) : Except Missing Value :=
  match frame.start p.origin with
  | .ok v => descend v p.segments
  | .error missing => .error missing

end Frame

end Curly
