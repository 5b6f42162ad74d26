import Curly.Proofs.Render.Work

/-!
# Sections

A block that is headed by a path stands for a block headed by a built-in helper
that is called with the path: `each` for an array or a mapping, `if` for a
Boolean, `with` for any other value. Both render the same branch in the same
frames, so they do the same whatever is in their branches
(`Scene.renderNode_section`).
-/

namespace Curly

namespace Builtin

/-- The helper that a block headed by a path stands for, with its name. -/
def sectionHelper : Value → String × BlockHelper
  | .array _ | .map _ => ("each", eachHelper)
  | .bool _ => ("if", ifHelper)
  | _ => ("with", withHelper)

theorem length_numbered (index : Nat) (items : List Value) : (Value.numbered index items).length = items.length := by
  induction items generalizing index with
  | nil => rfl
  | cons v items ih => rw [Value.numbered, List.length_cons, ih, List.length_cons]

variable (block : Block) (context : Value) (named : List (String × Value))

theorem eachHelper_eq {v : Value} {entries : List (Value × Value)} (h : v.entries? = some entries) :
    eachHelper block context ⟨[v], named⟩ =
      if entries.isEmpty then block.renderInverse else renderEntries entries.length block.renderItem 0 entries := by
  have hsingle : Run.ofExcept (single "each" ⟨[v], named⟩) = pure v := rfl
  rw [eachHelper, hsingle, pure_bind, h]
  cases entries <;> rfl

theorem eachHelper_array (items : List Value) : eachHelper block context ⟨[.array items], named⟩ =
    if (Value.array items).isEntered then Scene.renderSection block.frame (.array items) block.body
    else block.renderInverse := by
  have hentries : (Value.array items).entries? = some (Value.numbered 0 items) := rfl
  rw [eachHelper_eq block context named hentries, length_numbered]
  cases items <;> rfl

theorem eachHelper_map (entries : List (Key × Value)) : eachHelper block context ⟨[.map entries], named⟩ =
    if (Value.map entries).isEntered then Scene.renderSection block.frame (.map entries) block.body
    else block.renderInverse := by
  have hentries : (Value.map entries).entries? = some (entries.map fun e => (Value.ofKey e.1, e.2)) := rfl
  rw [eachHelper_eq block context named hentries, List.length_map]
  cases entries <;> rfl

theorem sectionHelper_eq (v : Value) : (sectionHelper v).2 block context ⟨[v], named⟩ =
    if v.isEntered then Scene.renderSection block.frame v block.body else block.renderInverse := by
  cases v with
  | array items => exact eachHelper_array block context named items
  | map entries => exact eachHelper_map block context named entries
  | bool b => cases b <;> rfl
  | _ => rfl

end Builtin

namespace Scene

variable {scene : Scene} {frame : Frame} {x head : Path}

theorem renderBlock_path (hx : x.helperName.bind scene.engine.blockHelper? = none) (region : Region)
    (body : Frame → Run Unit) (inverse : Option (Frame → Run Unit)) :
    scene.renderBlock frame ⟨x, ⟨[], []⟩, region⟩ body inverse =
      if (frame.valueOf x).isEntered then renderSection frame (frame.valueOf x) body
      else Block.renderIn frame inverse := by
  unfold renderBlock
  rw [hx]
  rfl

theorem renderBlock_sectionHelper (hhead : head.helperName = some (Builtin.sectionHelper (frame.valueOf x)).1)
    (hhelper : scene.engine.blockHelper? (Builtin.sectionHelper (frame.valueOf x)).1 =
      some (Builtin.sectionHelper (frame.valueOf x)).2) (region : Region) (body : Frame → Run Unit)
    (inverse : Option (Frame → Run Unit)) :
    scene.renderBlock frame ⟨head, ⟨[.path x], []⟩, region⟩ body inverse = scene.pointing region
      (if (frame.valueOf x).isEntered then renderSection frame (frame.valueOf x) body
      else Block.renderIn frame inverse) := by
  unfold renderBlock
  rw [hhead, Option.bind_some, hhelper]
  dsimp only
  rw [evaluateOperands_single, evaluate, pure_bind, pure_bind]
  exact congrArg (scene.pointing region) (Builtin.sectionHelper_eq ⟨frame, [], body, inverse⟩ frame.value [] _)

theorem renderSection_fails (v : Value) (body : List Node) (inverse : Option (List Node)) :
    (if v.isEntered then renderSection frame v (scene.renderNodes body)
      else Block.renderIn frame (scene.renderBranch inverse)).FailsWith (·.excerpt.isSome) := by
  rw [Plan.render_ofValue, ← renderWork_ofPlan]
  exact renderWork_fails _

/-- A block headed by a path renders as the block with the same branches that is
headed by the built-in helper for the path's value. The frames of the branches
are the same, too: whatever is done in a frame, the blocks differ in nothing but
that the helper's failures point at its call. -/
theorem renderNode_section (hx : x.helperName.bind scene.engine.blockHelper? = none)
    (hhead : head.helperName = some (Builtin.sectionHelper (frame.valueOf x)).1)
    (hhelper : scene.engine.blockHelper? (Builtin.sectionHelper (frame.valueOf x)).1 =
      some (Builtin.sectionHelper (frame.valueOf x)).2) (r r' : Region) :
    (∀ body inverse region region', scene.renderNode (.block ⟨x, ⟨[], []⟩, r⟩ false body inverse region) frame =
      scene.renderNode (.block ⟨head, ⟨[.path x], []⟩, r'⟩ false body inverse region') frame) ∧
    ∀ body inverse, scene.renderBlock frame ⟨head, ⟨[.path x], []⟩, r'⟩ body inverse =
      scene.pointing r' (scene.renderBlock frame ⟨x, ⟨[], []⟩, r⟩ body inverse) := by
  constructor
  · intro body inverse region region'
    have hfails := @renderSection_fails scene frame (frame.valueOf x) body inverse
    rw [renderNode, renderNode, if_neg Bool.false_ne_true, if_neg Bool.false_ne_true, renderBlock_path hx,
      renderBlock_sectionHelper hhead hhelper, pointing_eq hfails, pointing_eq hfails, pointing_eq hfails]
  · intro body inverse
    rw [renderBlock_path hx, renderBlock_sectionHelper hhead hhelper]

/-- The index and the value of an entry. -/
def entryNodes : List Node :=
  [.output ⟨.path ⟨.metadata 0 "index", [], ['@', 'i', 'n', 'd', 'e', 'x'], default⟩, ⟨[], []⟩, default⟩ true default,
    .output ⟨.path ⟨.context 0, [], ['t', 'h', 'i', 's'], default⟩, ⟨[], []⟩, default⟩ true default]

theorem renderNode_section_items :
    let scene : Scene := ⟨.new {}, ⟨none, "", []⟩, none⟩
    let frame : Frame := .root (.record [("xs", .array [.string "a", .string "b"])])
    let x : Path := ⟨.context 0, ["xs"], ['x', 's'], default⟩
    let each : Path := ⟨.context 0, ["each"], ['e', 'a', 'c', 'h'], default⟩
    x.helperName.bind scene.engine.blockHelper? = none ∧ each.helperName = some "each" ∧
      scene.engine.blockHelper? "each" = some Builtin.eachHelper ∧
      textOf (scene.renderNode (.block ⟨x, ⟨[], []⟩, default⟩ false entryNodes none default) frame).events = "0a1b" ∧
      scene.renderNode (.block ⟨x, ⟨[], []⟩, default⟩ false entryNodes none default) frame =
        scene.renderNode (.block ⟨each, ⟨[.path x], []⟩, default⟩ false entryNodes none default) frame := by
  intro scene frame x each
  have hx : x.helperName.bind scene.engine.blockHelper? = none := rfl
  have htext : textOf (scene.renderNode (.block ⟨x, ⟨[], []⟩, default⟩ false entryNodes none default) frame).events =
      "0a1b" := by decide +kernel
  exact ⟨hx, rfl, rfl, htext, (renderNode_section hx rfl rfl default default).1 entryNodes none default default⟩

end Scene

end Curly
