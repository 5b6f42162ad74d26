import Curly.Proofs.Concat
import Curly.Proofs.Written.Segment

/-!
# Outputs

What an output writes that is headed by a path or calls the helper that looks up
parts. Neither fails, and a template that is nothing but such an output writes the
same (`Engine.renderTemplate_output`).
-/

namespace Curly

/-! ## Texts -/

theorem Run.textOf_writeEscaped (text : String) : textOf (writeEscaped text).events = Text.escaped text := by
  have hwritten : ((Text.escapedPieces text).map Event.write).filterMap Event.written? = Text.escapedPieces text := by
    rw [List.filterMap_map]
    exact List.filterMap_some
  rw [textOf, writeEscaped, hwritten, Text.join_escapedPieces]

/-- A text as it is written between two braces, or as it is. -/
def Text.writtenIn (escaped : Bool) (text : String) : String :=
  if escaped then Text.escaped text else text

theorem Run.capture_writeEscaped (text : String) : (writeEscaped text).capture = pure (Text.escaped text) := by
  have hsilent : (writeEscaped text).events.filter (·.written?.isNone) = [] := by
    simp [writeEscaped, Event.written?]
  rw [capture, hsilent, textOf_writeEscaped]
  rfl

theorem Scene.writeValue_ok (v : Value) (escaped : Bool) : (writeValue v escaped).outcome = .ok () := by
  cases escaped <;> rfl

theorem Scene.capture_writeValue (v : Value) (escaped : Bool) :
    (writeValue v escaped).capture = pure (Text.writtenIn escaped v.text) := by
  cases escaped with
  | true => exact Run.capture_writeEscaped v.text
  | false => simp [writeValue, Run.write, Run.emit, Run.capture, textOf, Event.written?, Text.writtenIn, Except.map]

/-! ## Paths -/

theorem Frame.valueOf_congr (frame : Frame) {p q : Path} (h : SamePath p q) : frame.valueOf p = frame.valueOf q := by
  unfold valueOf resolve
  rw [h.origin, h.segments]

namespace Scene

variable {scene : Scene} {frame : Frame} {q : Path}

theorem renderOutput_path (hq : q.isSimple = false) (region : Region) (escaped : Bool) :
    scene.renderOutput frame ⟨.path q, ⟨[], []⟩, region⟩ escaped =
      match frame.resolve q with
      | .ok v => writeValue v escaped
      | .error missing => scene.renderUnresolved q missing := by
  have hname : (Expression.path q).helperName = none := by
    simp [Expression.helperName, Path.helperName, hq]
  unfold renderOutput
  rw [hname]
  rfl

end Scene

/-! ## Looking up -/

/-- Writes the part of the value that the text names, if there is one. -/
def Value.writePart (v : Value) (name : String) (escaped : Bool) : Run Unit :=
  match v.segment? name with
  | some part => Scene.writeValue part escaped
  | none => pure ()

/-- The text of the part, empty if there is none. -/
def Value.partText (v : Value) (name : String) : String :=
  ((v.segment? name).map text).getD ""

theorem Value.writePart_ok (v : Value) (name : String) (escaped : Bool) : (v.writePart name escaped).outcome = .ok () := by
  unfold writePart
  split
  · exact Scene.writeValue_ok ..
  · rfl

theorem Value.capture_writePart (v : Value) (name : String) (escaped : Bool) :
    (v.writePart name escaped).capture = pure (Text.writtenIn escaped (v.partText name)) := by
  unfold writePart partText
  cases v.segment? name with
  | some part => exact Scene.capture_writeValue part escaped
  | none => cases escaped <;> rfl

theorem Run.mapError_of_ok {α : Type} {r : Run α} {a : α} (h : r.outcome = .ok a) (f : Diagnostic → Diagnostic) :
    r.mapError f = r := by
  rw [mapError, h, Except.mapError, ← h]

namespace Scene

variable {scene : Scene} {frame : Frame} {lookup : Path} {e e' : Expression} {v key : Value}

theorem evaluateOperands_pair (he : scene.evaluate frame e = pure v) (he' : scene.evaluate frame e' = pure key) :
    scene.evaluateOperands frame ⟨[e, e'], []⟩ = pure ⟨[v, key], []⟩ := by
  simp only [evaluateOperands, evaluateAll, evaluateNamed, he, he', pure_bind]

/-- Whatever the braces are like, what is found is written escaped. -/
theorem renderOutput_lookup (hlookup : scene.helper? lookup.helperName = some Builtin.lookupHelper)
    (he : scene.evaluate frame e = pure v) (he' : scene.evaluate frame e' = pure key) (region : Region) (escaped : Bool) :
    scene.renderOutput frame ⟨.path lookup, ⟨[e, e'], []⟩, region⟩ escaped = v.writePart key.text true := by
  have hname : (Expression.path lookup).helperName = lookup.helperName := rfl
  unfold renderOutput
  rw [hname, hlookup]
  dsimp only
  rw [evaluateOperands_pair he he', pure_bind]
  exact Run.mapError_of_ok (v.writePart_ok key.text true) _

/-- A call for its value gives what is found as escaped text. -/
theorem evaluate_lookup (hlookup : scene.helper? lookup.helperName = some Builtin.lookupHelper)
    (he : scene.evaluate frame e = pure v) (he' : scene.evaluate frame e' = pure key) (region : Region) :
    scene.evaluate frame (.call lookup ⟨[e, e'], []⟩ region) =
      pure (.string (Text.escaped (v.partText key.text))) := by
  have hcall : Builtin.lookupHelper frame.value ⟨[v, key], []⟩ = v.writePart key.text true := rfl
  rw [evaluate, callText, hlookup]
  dsimp only
  rw [evaluateOperands_pair he he', pure_bind, hcall, Value.capture_writePart]
  rfl

end Scene

/-! ## Templates of one output -/

theorem Engine.renderTemplate_output {engine : Engine} {depth : Nat} {t : Template} {call : Call Expression} {escaped : Bool}
    {region : Region} (ht : t.nodes = [.output call escaped region]) {frame : Frame} {r : Run Unit}
    (hr : (engine.scene depth t).renderOutput frame call escaped = r) (hok : r.outcome = .ok ()) :
    engine.renderTemplate depth t frame = r := by
  have hpointing := Run.mapError_of_ok hok (·.pointing (engine.scene depth t).source region)
  rw [renderTemplate_eq, ht, Scene.renderNodes_singleton, Scene.renderNode, hr, Scene.pointing, hpointing]
  exact Run.mapError_of_ok hok _

end Curly
