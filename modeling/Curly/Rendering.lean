import Curly.Data
import Curly.Evaluation

/-!
# Rendering

A template is rendered node by node in a frame. Rendering recurs on the tree,
and for inclusions on how much deeper they may be nested, so it always ends. A
failure points at the innermost node or call it arose in, and carries the name
of the innermost template that has one.
-/

namespace Curly

/-! ## Nodes -/

/-- Whether a block headed by a path renders its body for the value. An empty
mapping is truthy, but there is nothing in it to go through. -/
def Value.isEntered : Value → Bool
  | .map entries => !entries.isEmpty
  | v => v.isTruthy

namespace Scene

def renderUnresolved (scene : Scene) (p : Path) (missing : Frame.Missing) : Run Unit :=
  match scene.engine.config.unresolved with
  | .empty => pure ()
  | .format text => Run.write (Config.filled text p.lastSegment)
  | .throw => scene.pointing p.region (Run.fail (.undefined p.dotted missing.key))

def writeValue (v : Value) : Bool → Run Unit
  | true => Run.writeEscaped v.text
  | false => Run.write v.text

/-- A helper's name is called, other heads are evaluated and written. -/
def renderOutput (scene : Scene) (frame : Frame) (call : Call Expression) (escaped : Bool) :
    Run Unit :=
  match scene.helper? call.head.helperName with
  | some helper => do
    let arguments ← scene.evaluateOperands frame call.operands
    scene.pointing call.region (helper frame.value arguments)
  | none =>
    if !call.operands.isEmpty then scene.missingHelper call.head.region
    else
      match call.head with
      | .path p =>
        match frame.resolve p with
        | .ok v => writeValue v escaped
        | .error missing => scene.renderUnresolved p missing
      | head => do writeValue (← scene.evaluate frame head) escaped

/-- A branch of a block headed by a path, entered with its value. Arrays and
mappings are gone through, `true` keeps the frame, other values get a frame of
their own. -/
def renderSection (frame : Frame) (v : Value) (branch : Frame → Run Unit) : Run Unit :=
  match v with
  | .array items =>
    Builtin.renderEntries items.length (fun v i => branch (frame.item v i)) 0
      (Value.numbered 0 items)
  | .map entries =>
    Builtin.renderEntries entries.length (fun v i => branch (frame.item v i)) 0
      (entries.map fun (k, v) => (Value.ofKey k, v))
  | .bool true => branch frame
  | v => branch (frame.child v)

/-- A block that renders its inverse where others render their body. -/
def renderNegated (frame : Frame) (v : Value) (body : Frame → Run Unit)
    (inverse : Option (Frame → Run Unit)) : Run Unit :=
  if v.isEntered then
    match inverse with
    | some inverse => renderSection frame v inverse
    | none => pure ()
  else body frame

def renderBlock (scene : Scene) (frame : Frame) (call : Call Path) (body : Frame → Run Unit)
    (inverse : Option (Frame → Run Unit)) : Run Unit :=
  match call.head.helperName.bind scene.engine.blockHelper? with
  | some helper => do
    let arguments ← scene.evaluateOperands frame call.operands
    scene.pointing call.region
      (helper ⟨frame, arguments.named, body, inverse⟩ frame.value arguments)
  | none =>
    if !call.operands.isEmpty then scene.missingHelper call.head.region
    else
      let v := frame.valueOf call.head
      if v.isEntered then renderSection frame v body else Block.renderIn frame inverse

def partialName (scene : Scene) (frame : Frame) : PartialName → Run String
  | .fixed name => pure name
  | .computed call =>
    scene.callText frame call.head call.region (scene.evaluateOperands frame call.operands)

def inclusionFrame (scene : Scene) (frame : Frame) : Option Expression → Run Frame
  | none => pure frame
  | some e => do return frame.child (← scene.evaluate frame e)

def renderInclusion (scene : Scene) (frame : Frame) (name : PartialName)
    (context : Option Expression) : Run Unit := do
  let name ← scene.partialName frame name
  match scene.engine.included? name with
  | none =>
    if scene.engine.config.tolerateMissing then
      Run.note .trace ("partial `" ++ name ++ "` not found, rendering nothing")
    else Run.fail (.missingPartial name)
  | some template => do
    Run.note .trace ("including partial `" ++ name ++ "`")
    let inner ← scene.inclusionFrame frame context
    match scene.included with
    | none => Run.fail (.recursion scene.engine.config.recursionLimit)
    | some render => ((render template inner).mapError (·.named name)).within name

mutual

def renderNode (scene : Scene) : Node → Frame → Run Unit
  | .raw text _, _ => Run.write text
  | .output call escaped region, frame =>
    scene.pointing region (scene.renderOutput frame call escaped)
  | .block call negated body inverse region, frame =>
    let body := renderNodes scene body
    let inverse := renderBranch scene inverse
    scene.pointing region
      (if negated then renderNegated frame (frame.valueOf call.head) body inverse
      else scene.renderBlock frame call body inverse)
  | .inclusion name context region, frame =>
    scene.pointing region (scene.renderInclusion frame name context)

def renderNodes (scene : Scene) : List Node → Frame → Run Unit
  | [], _ => pure ()
  | node :: nodes, frame => do
    renderNode scene node frame
    renderNodes scene nodes frame

def renderBranch (scene : Scene) : Option (List Node) → Option (Frame → Run Unit)
  | none => none
  | some nodes => some (renderNodes scene nodes)

end

end Scene

/-! ## Templates -/

def Diagnostic.inside (template : Template) (d : Diagnostic) : Diagnostic :=
  template.name.elim d d.named

namespace Engine

/-- Renders a template in which inclusions may be nested as deep as given. -/
def renderTemplate (engine : Engine) : Nat → Template → Frame → Run Unit
  | 0, template, frame =>
    (Scene.renderNodes ⟨engine, template, none⟩ template.nodes frame).mapError (·.inside template)
  | depth + 1, template, frame =>
    (Scene.renderNodes ⟨engine, template, some (renderTemplate engine depth)⟩ template.nodes
      frame).mapError (·.inside template)

def render (engine : Engine) (template : Template) (value : Value) : Run String :=
  (engine.renderTemplate engine.config.recursionLimit template (.root value)).capture

/-- Renders a template with data that has yet to become a value. -/
def renderData (engine : Engine) (template : Template) (data : Data) : Run String := do
  engine.render template (← Run.ofExcept data.value)

def renderTo (engine : Engine) (template : Template) (data : Data) : Run Unit := do
  Run.write (← engine.renderData template data)

def renderNamed (engine : Engine) (name : String) (data : Data) : Run String :=
  match engine.template? name with
  | some template => engine.renderData template data
  | none => Run.fail (.missingTemplate name)

end Engine

/-- Renders a template with the built-in helpers and the default settings. -/
def Template.render (template : Template) (data : Data) : Run String :=
  (Engine.new {}).renderData template data

end Curly
