import Curly.Engine

/-!
# Evaluation

The values of the expressions inside tags. A path that does not resolve is
null, and a call is the text that its helper writes.
-/

namespace Curly

/-- What the nodes of a template are rendered with. -/
structure Scene where
  engine : Engine
  template : Template
  /-- Renders an included template, unless inclusions are nested as deep as
  they may be. -/
  included : Option (Template → Frame → Run Unit)

namespace Scene

def source (scene : Scene) : List Char :=
  scene.template.source.toList

/-- The run with its failure pointing at a region of the template. -/
def pointing {α : Type} (scene : Scene) (region : Region) (r : Run α) : Run α :=
  r.mapError (·.pointing scene.source region)

def missingHelper {α : Type} (scene : Scene) (region : Region) : Run α :=
  scene.pointing region (Run.fail (.missingHelper (String.ofList (region.slice scene.source))))

end Scene

def Literal.toValue : Literal → Value
  | .null => .null
  | .bool b => .bool b
  | .number n => .number n
  | .string s => .string s

/-- The value of a path, null if it does not resolve. -/
def Frame.valueOf (frame : Frame) (p : Path) : Value :=
  match frame.resolve p with
  | .ok v => v
  | .error _ => .null

namespace Scene

def helper? (scene : Scene) (name : Option String) : Option Helper :=
  name.bind scene.engine.helper?

def callText (scene : Scene) (frame : Frame) (callee : Path) (region : Region)
    (arguments : Run Arguments) : Run String :=
  match scene.helper? callee.helperName with
  | none => scene.missingHelper callee.region
  | some helper => do
    let arguments ← arguments
    scene.pointing region (helper frame.value arguments).capture

mutual

def evaluate (scene : Scene) (frame : Frame) : Expression → Run Value
  | .literal l _ => pure l.toValue
  | .path p => pure (frame.valueOf p)
  | .call callee operands region => do
    let text ← scene.callText frame callee region (evaluateOperands scene frame operands)
    return .string text

def evaluateOperands (scene : Scene) (frame : Frame) : Operands → Run Arguments
  | ⟨positional, named⟩ => do
    let vs ← evaluateAll scene frame positional
    return ⟨vs, ← evaluateNamed scene frame [] named⟩

def evaluateAll (scene : Scene) (frame : Frame) : List Expression → Run (List Value)
  | [] => pure []
  | e :: es => do
    let v ← evaluate scene frame e
    return v :: (← evaluateAll scene frame es)

def evaluateNamed (scene : Scene) (frame : Frame) (seen : List (String × Value)) :
    List (String × Expression) → Run (List (String × Value))
  | [] => pure seen
  | (name, e) :: es => do
    let v ← evaluate scene frame e
    evaluateNamed scene frame (put name v seen) es

end

end Scene

end Curly
