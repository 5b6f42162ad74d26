import Curly.Proofs.Sections

/-!
# Negated blocks

A negated block stands for the block with its branches swapped: its inverse is
entered as the body of the other one is, and its body is rendered where the other one
renders its inverse (`Scene.renderNode_negated`). Without an inverse it stands for a
block with an empty body.
-/

namespace Curly

/-- The branches change places, and the frames stay. -/
theorem Plan.render_ofNegated (frame : Frame) (v : Value) (body : Frame → Run Unit)
    (inverse : Option (Frame → Run Unit)) :
    (ofNegated frame v).render body inverse =
      (ofValue frame v).render (fun f => Block.renderIn f inverse) (some body) := by
  unfold ofNegated ofValue
  split <;> rfl

/-- The frames of an array or a mapping that is entered, one for each entry. -/
theorem Frame.sections_entries {frame : Frame} {v : Value} {entries : List (Value × Value)}
    (hv : (∃ items, v = .array items) ∨ ∃ es, v = .map es) (hentries : v.entries? = some entries) :
    frame.sections v = entries.mapIdx fun i e => frame.item e.2 (.of e.1 i entries.length) := by
  rcases hv with ⟨items, rfl⟩ | ⟨es, rfl⟩
  · obtain rfl := Option.some.inj hentries
    rw [sections, items_eq_mapIdx, Builtin.length_numbered]
    simp only [Nat.zero_add]
  · obtain rfl := Option.some.inj hentries
    rw [sections, items_eq_mapIdx, List.length_map]
    simp only [Nat.zero_add]

theorem Value.isEntered_entries {v : Value} {entries : List (Value × Value)}
    (hv : (∃ items, v = .array items) ∨ ∃ es, v = .map es) (hentries : v.entries? = some entries) :
    v.isEntered = !entries.isEmpty := by
  rcases hv with ⟨items, rfl⟩ | ⟨es, rfl⟩
  · obtain rfl := Option.some.inj hentries
    cases items <;> rfl
  · obtain rfl := Option.some.inj hentries
    cases es <;> rfl

namespace Scene

variable {scene : Scene} {frame : Frame} {x : Path}

theorem renderIn_branch (branch : Option (List Node)) (f : Frame) :
    Block.renderIn f (scene.renderBranch branch) = scene.renderNodes (branch.getD []) f := by
  cases branch with
  | none => rw [renderBranch, Option.getD_none, renderNodes]; rfl
  | some nodes => rw [renderBranch]; rfl

/-- Whatever the branches do, the negated block does what the block with swapped branches does. -/
theorem renderNegated_swapped (hx : x.helperName.bind scene.engine.blockHelper? = none) (region : Region)
    (body : Frame → Run Unit) (inverse : Option (Frame → Run Unit)) :
    renderNegated frame (frame.valueOf x) body inverse =
      scene.renderBlock frame ⟨x, ⟨[], []⟩, region⟩ (fun f => Block.renderIn f inverse) (some body) := by
  rw [renderNegated_eq, renderBlock_path hx, Plan.render_ofValue, Plan.render_ofNegated]

theorem renderNode_block_negated (o : Operands) (body : List Node) (inverse : Option (List Node)) (r region : Region) :
    scene.renderNode (.block ⟨x, o, r⟩ true body inverse region) frame =
      scene.renderWork (.ofPlan body inverse (.ofNegated frame (frame.valueOf x))) := by
  rw [renderNode, if_pos rfl, renderNegated_eq, ← renderWork_ofPlan, pointing_eq (renderWork_fails _)]

/-- A negated block renders as the block that is not negated, with the same head and its branches
swapped, an inverse that is left out being an empty body. Whatever is done in a frame, both do it in
the same frames: the inverse of the negated block is rendered once for each entry of an array or a
mapping, in the frame of that entry, and its body is rendered where it stands. -/
theorem renderNode_negated (hx : x.helperName.bind scene.engine.blockHelper? = none) (o : Operands) (r r' : Region) :
    (∀ body inverse region region',
      scene.renderNode (.block ⟨x, o, r⟩ true body inverse region) frame =
        scene.renderNode (.block ⟨x, ⟨[], []⟩, r'⟩ false (inverse.getD []) (some body) region') frame) ∧
    (∀ body inverse, renderNegated frame (frame.valueOf x) body inverse =
      scene.renderBlock frame ⟨x, ⟨[], []⟩, r'⟩ (fun f => Block.renderIn f inverse) (some body)) ∧
    (∀ entries, ((∃ items, frame.valueOf x = .array items) ∨ ∃ es, frame.valueOf x = .map es) →
      (frame.valueOf x).entries? = some entries → entries ≠ [] → ∀ body inverse region,
        scene.renderNode (.block ⟨x, o, r⟩ true body (some inverse) region) frame =
          forM (entries.mapIdx fun i e => frame.item e.2 (.of e.1 i entries.length)) (scene.renderNodes inverse)) ∧
    ((frame.valueOf x).isEntered = false → ∀ body inverse region,
      scene.renderNode (.block ⟨x, o, r⟩ true body inverse region) frame = scene.renderNodes body frame) := by
  refine ⟨?swapped, ?branches, ?entered, ?kept⟩
  case swapped =>
    intro body inverse region region'
    have hbranch : (fun f => Block.renderIn f (scene.renderBranch inverse)) = scene.renderNodes (inverse.getD []) :=
      funext (renderIn_branch inverse)
    have hsome : scene.renderBranch (some body) = some (scene.renderNodes body) := by rw [renderBranch]
    have hfails := @renderSection_fails scene frame (frame.valueOf x) (inverse.getD []) (some body)
    rw [renderNode_block_negated, renderWork_ofPlan, Plan.render_ofNegated, hbranch, renderNode,
      if_neg Bool.false_ne_true, renderBlock_path hx, pointing_eq hfails, Plan.render_ofValue, hsome]
  case branches =>
    intro body inverse
    exact renderNegated_swapped hx r' body inverse
  case entered =>
    intro entries hv hentries hne body inverse region
    have hentered : (frame.valueOf x).isEntered = true := by
      rw [Value.isEntered_entries hv hentries]
      simpa using hne
    rw [renderNode_block_negated, Plan.ofNegated, if_pos hentered, renderWork_ofPlan, Frame.sections_entries hv hentries]
    rfl
  case kept =>
    intro hentered body inverse region
    rw [renderNode_block_negated, Plan.ofNegated, if_neg (by simp [hentered]), renderWork_ofPlan]
    exact Run.forM_singleton ..

theorem renderNode_negated_entries :
    let scene : Scene := ⟨.new {}, ⟨none, "", []⟩, none⟩
    let entries : List (Key × Value) := [(.string "k", .string "a"), (.int32 7, .string "b")]
    let frame : Frame := .root (.record [("m", .map entries), ("n", .map [])])
    let m : Path := ⟨.context 0, ["m"], ['m'], default⟩
    let n : Path := ⟨.context 0, ["n"], ['n'], default⟩
    let call (x : Path) : Call Path := ⟨x, ⟨[], []⟩, default⟩
    let body : List Node := [.raw "-" default]
    m.helperName.bind scene.engine.blockHelper? = none ∧ n.helperName.bind scene.engine.blockHelper? = none ∧
      frame.valueOf m = .map entries ∧ (frame.valueOf n).isEntered = false ∧
      textOf (scene.renderNode (.block (call m) true body (some entryNodes) default) frame).events = "0a1b" ∧
      scene.renderNode (.block (call m) true body (some entryNodes) default) frame =
        scene.renderNode (.block (call m) false entryNodes (some body) default) frame ∧
      scene.renderNode (.block (call m) true body none default) frame =
        scene.renderNode (.block (call m) false [] (some body) default) frame ∧
      scene.renderNode (.block (call m) true body (some entryNodes) default) frame =
        forM [frame.item (.string "a") ⟨.string "k", 0, true, false⟩,
          frame.item (.string "b") ⟨.number (.ofInt64 7), 1, false, true⟩] (scene.renderNodes entryNodes) ∧
      scene.renderNode (.block (call n) true body (some entryNodes) default) frame = scene.renderNodes body frame := by
  intro scene entries frame m n call body
  have hm : m.helperName.bind scene.engine.blockHelper? = none := rfl
  have hn : n.helperName.bind scene.engine.blockHelper? = none := rfl
  have hvalue : frame.valueOf m = .map entries := rfl
  have hempty : (frame.valueOf n).isEntered = false := rfl
  have htext : textOf (scene.renderNode (.block (call m) true body (some entryNodes) default) frame).events = "0a1b" := by
    decide +kernel
  obtain ⟨hswapped, -, hentered, -⟩ := @renderNode_negated scene frame m hm ⟨[], []⟩ default default
  obtain ⟨-, -, -, hkept⟩ := @renderNode_negated scene frame n hn ⟨[], []⟩ default default
  have hitems := hentered _ (.inr ⟨entries, hvalue⟩) rfl nofun body entryNodes default
  exact ⟨hm, hn, hvalue, hempty, htext, hswapped body (some entryNodes) default default,
    hswapped body none default default, hitems, hkept hempty body (some entryNodes) default⟩

end Scene

end Curly
