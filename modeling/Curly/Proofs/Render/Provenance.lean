import Curly.Proofs.Inclusion
import Curly.Proofs.Render.Depth

/-!
# The provenance of failures

A failure of a render is that of one node. It points into the source of the
template that the node is in, at the node or at a call or a head in its tag, and
carries the name of that template, or the one that it is included by
(`Engine.render_error`).
-/

namespace Curly

/-! ## Regions of a tag -/

mutual

def Expression.regions : Expression → List Region
  | .literal _ _ => []
  | .path p => [p.region]
  | .call callee o region => callee.region :: region :: o.regions

def Operands.regions : Operands → List Region
  | ⟨positional, named⟩ => regionsOfAll positional ++ regionsOfNamed named

def regionsOfAll : List Expression → List Region
  | [] => []
  | e :: es => e.regions ++ regionsOfAll es

def regionsOfNamed : List (String × Expression) → List Region
  | [] => []
  | (_, e) :: es => e.regions ++ regionsOfNamed es

end

def PartialName.regions : PartialName → List Region
  | .fixed _ => []
  | .computed call => call.head.region :: call.region :: call.operands.regions

/-- The regions of a node's own tag, and of the calls, paths and heads in it. -/
def Node.regions : Node → List Region
  | .raw _ region => [region]
  | .output call _ region => region :: call.head.region :: call.region :: call.head.regions ++ call.operands.regions
  | .block call _ _ _ region => region :: call.head.region :: call.region :: call.operands.regions
  | .inclusion name context region => region :: name.regions ++ context.elim [] Expression.regions

/-! ## Failures of a tag -/

/-- The causes of failures that arise at a tag, and not for a template that the tag includes. -/
def Diagnostic.Cause.OfTag : Diagnostic.Cause → Prop
  | .partialNotFound _ | .recursionLimit _ => False
  | _ => True

/-- A failure that does not point anywhere yet. -/
structure Diagnostic.Bare (d : Diagnostic) : Prop where
  name : d.name = none
  excerpt : d.excerpt = none
  cause : d.cause.OfTag

namespace Scene

/-- A failure that points at one of the regions. -/
structure Marks (scene : Scene) (regions : List Region) (d : Diagnostic) : Prop where
  name : d.name = none
  excerpt : ∃ region ∈ regions, d.excerpt = some (.ofSource scene.source region)
  cause : d.cause.OfTag

variable {scene : Scene} {regions regions' : List Region}

theorem Marks.mono {d : Diagnostic} (h : scene.Marks regions d) (hsub : regions ⊆ regions') : scene.Marks regions' d := by
  obtain ⟨region, hmem, he⟩ := h.excerpt
  exact ⟨h.name, ⟨region, hsub hmem, he⟩, h.cause⟩

theorem fails_mono {α : Type} {r : Run α} (h : r.FailsWith (scene.Marks regions)) (hsub : regions ⊆ regions') :
    r.FailsWith (scene.Marks regions') :=
  fun d hd => (h d hd).mono hsub

theorem fails_pointing {α : Type} {r : Run α} {region : Region} (hmem : region ∈ regions)
    (h : r.FailsWith fun d => d.Bare ∨ scene.Marks regions d) : (scene.pointing region r).FailsWith (scene.Marks regions) := by
  refine Run.FailsWith.mapError h fun d hd => ?_
  rcases hd with hd | hd
  · refine ⟨hd.name, ⟨region, hmem, ?_⟩, hd.cause⟩
    rw [Diagnostic.pointing, hd.excerpt]
    rfl
  · obtain ⟨region', hmem', he⟩ := hd.excerpt
    refine ⟨hd.name, ⟨region', hmem', ?_⟩, hd.cause⟩
    rw [Diagnostic.pointing, he]
    rfl

theorem fails_pointing_bare {α : Type} {r : Run α} {region : Region} (hmem : region ∈ regions)
    (h : r.FailsWith Diagnostic.Bare) : (scene.pointing region r).FailsWith (scene.Marks regions) :=
  fails_pointing hmem fun d hd => .inl (h d hd)

theorem fails_missingHelper {α : Type} {region : Region} (hmem : region ∈ regions) :
    (scene.missingHelper region : Run α).FailsWith (scene.Marks regions) :=
  fails_pointing_bare hmem (.fail ⟨rfl, rfl, trivial⟩)

end Scene

theorem Diagnostic.bare_arity (name : String) (expected received : Nat) : (arity name expected received).Bare :=
  ⟨rfl, rfl, trivial⟩

theorem Engine.fails_helper {engine : Engine} (he : engine.helpers = Builtin.all) {name : String} {helper : Helper}
    (h : engine.helper? name = some helper) (v : Value) (arguments : Arguments) :
    (helper v arguments).FailsWith Diagnostic.Bare := by
  intro d hd
  obtain ⟨_, _, _, rfl⟩ := Engine.helper_error he h v arguments d hd
  exact Diagnostic.bare_arity ..

theorem Plan.builtin?_bare {name : String} {plan : Frame → Arguments → Except Diagnostic Plan}
    (h : builtin? name = some plan) {frame : Frame} {arguments : Arguments} {d : Diagnostic}
    (hd : plan frame arguments = .error d) : d.Bare := by
  obtain ⟨_, _, _, rfl⟩ := Plan.builtin?_error h hd
  exact Diagnostic.bare_arity ..

namespace Scene

variable {scene : Scene} {regions : List Region}

theorem fails_callText (he : scene.engine.helpers = Builtin.all) {arguments : Run Arguments} (frame : Frame)
    {callee : Path} {region : Region} (hcallee : callee.region ∈ regions) (hregion : region ∈ regions)
    (ha : arguments.FailsWith (scene.Marks regions)) :
    (scene.callText frame callee region arguments).FailsWith (scene.Marks regions) := by
  unfold callText
  cases h : scene.helper? callee.helperName with
  | none => exact fails_missingHelper hcallee
  | some helper =>
    obtain ⟨name, hname⟩ := helper?_eq_some h
    exact ha.bind fun arguments _ => fails_pointing_bare hregion (Engine.fails_helper he hname _ _).capture

mutual

theorem fails_evaluate (he : scene.engine.helpers = Builtin.all) (frame : Frame) :
    ∀ e, (scene.evaluate frame e).FailsWith (scene.Marks e.regions)
  | .literal _ _ => by rw [evaluate]; exact .pure _
  | .path _ => by rw [evaluate]; exact .pure _
  | .call callee operands region => by
    have ho := fails_evaluateOperands he frame operands
    rw [evaluate, Expression.regions]
    refine Run.FailsWith.bind (fails_callText he frame (by simp) (by simp) (fails_mono ho ?_)) fun _ _ => .pure _
    exact List.subset_cons_of_subset _ (List.subset_cons_of_subset _ (List.Subset.refl _))

theorem fails_evaluateOperands (he : scene.engine.helpers = Builtin.all) (frame : Frame) :
    ∀ o, (scene.evaluateOperands frame o).FailsWith (scene.Marks o.regions)
  | ⟨positional, named⟩ => by
    have hp := fails_evaluateAll he frame positional
    have hn := fails_evaluateNamed he frame named
    rw [evaluateOperands, Operands.regions]
    refine (fails_mono hp (List.subset_append_left ..)).bind fun _ _ => ?_
    exact (fails_mono (hn []) (List.subset_append_right ..)).bind fun _ _ => .pure _

theorem fails_evaluateAll (he : scene.engine.helpers = Builtin.all) (frame : Frame) :
    ∀ es, (scene.evaluateAll frame es).FailsWith (scene.Marks (regionsOfAll es))
  | [] => by rw [evaluateAll]; exact .pure _
  | e :: es => by
    have hhead := fails_evaluate he frame e
    have htail := fails_evaluateAll he frame es
    rw [evaluateAll, regionsOfAll]
    refine (fails_mono hhead (List.subset_append_left ..)).bind fun _ _ => ?_
    exact (fails_mono htail (List.subset_append_right ..)).bind fun _ _ => .pure _

theorem fails_evaluateNamed (he : scene.engine.helpers = Builtin.all) (frame : Frame) :
    ∀ es seen, (scene.evaluateNamed frame seen es).FailsWith (scene.Marks (regionsOfNamed es))
  | [], _ => by rw [evaluateNamed]; exact .pure _
  | (_, e) :: es, _ => by
    have hhead := fails_evaluate he frame e
    have htail := fails_evaluateNamed he frame es
    rw [evaluateNamed, regionsOfNamed]
    refine (fails_mono hhead (List.subset_append_left ..)).bind fun _ _ => ?_
    exact fails_mono (htail _) (List.subset_append_right ..)

end

/-! ## Failures of a node -/

theorem fails_renderOutput (he : scene.engine.helpers = Builtin.all) (frame : Frame) (call : Call Expression)
    (escaped : Bool) (region : Region) :
    (scene.renderOutput frame call escaped).FailsWith (scene.Marks (Node.output call escaped region).regions) := by
  have hvalue : ∀ v, (writeValue v escaped).FailsWith (scene.Marks (Node.output call escaped region).regions) := fun v => by
    cases escaped <;> exact .of_ok rfl
  have hoperands : call.operands.regions ⊆ (Node.output call escaped region).regions :=
    List.subset_append_right ..
  have hhead : call.head.regions ⊆ (Node.output call escaped region).regions := fun r hr => by
    simp [Node.regions, hr]
  unfold renderOutput
  split
  · rename_i helper hhelper
    obtain ⟨name, hname⟩ := helper?_eq_some hhelper
    refine (fails_mono (fails_evaluateOperands he frame _) hoperands).bind fun arguments _ => ?_
    exact fails_pointing_bare (by simp [Node.regions]) (Engine.fails_helper he hname _ _)
  · split
    · exact fails_missingHelper (by simp [Node.regions])
    · split
      · rename_i p hp
        split
        · exact hvalue _
        · unfold renderUnresolved
          split
          · exact .pure _
          · exact .of_ok rfl
          · refine fails_pointing_bare ?_ (.fail ⟨rfl, rfl, trivial⟩)
            simp [Node.regions, hp, Expression.region]
      · exact (fails_mono (fails_evaluate he frame _) hhead).bind fun v _ => hvalue v

theorem fails_plan (he : scene.engine.helpers = Builtin.all) (frame : Frame) (call : Call Path) (negated : Bool)
    (body : List Node) (inverse : Option (List Node)) (region : Region) :
    (scene.plan frame call negated).FailsWith (scene.Marks (Node.block call negated body inverse region).regions) := by
  have hoperands : call.operands.regions ⊆ (Node.block call negated body inverse region).regions := fun r hr => by
    simp [Node.regions, hr]
  unfold plan
  split
  · exact .pure _
  · split
    · rename_i plan hplan
      obtain ⟨name, -, hname⟩ := Option.bind_eq_some_iff.mp hplan
      refine (fails_mono (fails_evaluateOperands he frame _) hoperands).bind fun arguments _ => ?_
      exact fails_pointing_bare (by simp [Node.regions]) (.ofExcept fun d hd => Plan.builtin?_bare hname hd)
    · split
      · exact fails_missingHelper (by simp [Node.regions])
      · exact .pure _

/-- The failure of an inclusion that there is no template for, or none that may be entered. -/
structure MarksInclusion (scene : Scene) (region : Region) (d : Diagnostic) : Prop where
  name : d.name = none
  excerpt : d.excerpt = some (.ofSource scene.source region)

theorem fails_target (he : scene.engine.helpers = Builtin.all) (frame : Frame) (name : PartialName)
    (context : Option Expression) (region : Region) :
    (scene.target frame name context).FailsWith fun d =>
      scene.Marks (Node.inclusion name context region).regions d ∨ d.name = none ∧ d.excerpt = none := by
  have hname : (scene.partialName frame name).FailsWith (scene.Marks (Node.inclusion name context region).regions) := by
    cases name with
    | fixed name => exact .pure _
    | computed call =>
      refine fails_callText he frame ?_ ?_ (fails_mono (fails_evaluateOperands he frame _) fun r hr => ?_)
      all_goals simp [Node.regions, PartialName.regions, *]
  have hcontext : (scene.inclusionFrame frame context).FailsWith
      (scene.Marks (Node.inclusion name context region).regions) := by
    cases context with
    | none => exact .pure _
    | some e =>
      refine (fails_mono (fails_evaluate he frame e) fun r hr => ?_).bind fun _ _ => .pure _
      simp [Node.regions, hr]
  refine Run.FailsWith.bind (fun d hd => .inl (hname d hd)) fun name _ => ?_
  split
  · split
    · exact .of_ok rfl
    · exact .fail (.inr ⟨rfl, rfl⟩)
  · refine Run.FailsWith.bind (.of_ok rfl) fun _ _ => ?_
    exact Run.FailsWith.bind (fun d hd => .inl (hcontext d hd)) fun _ _ => .pure _

theorem fails_inclusion (he : scene.engine.helpers = Builtin.all) (frame : Frame) (name : PartialName)
    (context : Option Expression) (region : Region) :
    (scene.own (.inclusion name context region) frame).FailsWith fun d =>
      scene.Marks (Node.inclusion name context region).regions d ∨ scene.MarksInclusion region d := by
  refine Run.FailsWith.mapError ((fails_target he frame name context region).bind fun found _ => ?_) fun d hd => ?_
  · split
    · split
      · exact .pure _
      · exact .fail (.inr ⟨rfl, rfl⟩)
    · exact .pure _
  · rcases hd with hd | ⟨hname, hexcerpt⟩
    · obtain ⟨region', hmem', he⟩ := hd.excerpt
      refine .inl ⟨hd.name, ⟨region', hmem', ?_⟩, hd.cause⟩
      rw [Diagnostic.pointing, he]
      rfl
    · refine .inr ⟨hname, ?_⟩
      rw [Diagnostic.pointing, hexcerpt]
      rfl

/-- A node by itself fails without a name, and points into its own tag. The
failures that are not of the tag alone are those of an inclusion. -/
theorem fails_own (he : scene.engine.helpers = Builtin.all) (node : Node) (frame : Frame) :
    (scene.own node frame).FailsWith fun d => d.name = none ∧ ∃ region ∈ node.regions,
      d.excerpt = some (.ofSource scene.source region) ∧
      (d.cause.OfTag ∨ ∃ name context, node = .inclusion name context region) := by
  have hmarks : ∀ {d}, scene.Marks node.regions d → d.name = none ∧ ∃ region ∈ node.regions,
      d.excerpt = some (.ofSource scene.source region) ∧
      (d.cause.OfTag ∨ ∃ name context, node = .inclusion name context region) := by
    intro d hd
    obtain ⟨region, hmem, hexcerpt⟩ := hd.excerpt
    exact ⟨hd.name, region, hmem, hexcerpt, .inl hd.cause⟩
  intro d hd
  cases node with
  | raw text region => cases hd
  | output call escaped region =>
    refine hmarks (fails_pointing ?_ (fun d hd => .inr (fails_renderOutput he frame call escaped region d hd)) d hd)
    simp [Node.regions]
  | block call negated body inverse region =>
    have hplan : (scene.pointing region (scene.plan frame call negated)).FailsWith
        (scene.Marks (Node.block call negated body inverse region).regions) := by
      refine fails_pointing ?_ fun d hd => .inr (fails_plan he frame call negated body inverse region d hd)
      simp [Node.regions]
    exact hmarks (Run.FailsWith.bind hplan (fun _ _ => .pure _) d hd)
  | inclusion name context region =>
    rcases fails_inclusion he frame name context region d hd with hd | hd
    · exact hmarks hd
    · exact ⟨hd.name, region, by simp [Node.regions], hd.excerpt, .inr ⟨name, context, rfl⟩⟩

end Scene

/-! ## Nodes of a template -/

/-- The node is one of the nodes or stands in the branch of a block among them. -/
inductive Node.Within (node : Node) : List Node → Prop
  | here {nodes : List Node} (h : node ∈ nodes) : node.Within nodes
  | body {call : Call Path} {negated : Bool} {body nodes : List Node} {inverse : Option (List Node)} {region : Region}
      (hblock : .block call negated body inverse region ∈ nodes) (h : node.Within body) : node.Within nodes
  | inverse {call : Call Path} {negated : Bool} {body inverse nodes : List Node} {region : Region}
      (hblock : .block call negated body (some inverse) region ∈ nodes) (h : node.Within inverse) : node.Within nodes

theorem Node.Within.of_block {block node : Node} {nodes : List Node} (h : block.Within nodes)
    (hnode : ∀ {nodes}, block ∈ nodes → node.Within nodes) : node.Within nodes := by
  induction h with
  | here h => exact hnode h
  | body hblock _ ih => exact .body hblock ih
  | inverse hblock _ ih => exact .inverse hblock ih

namespace Place

variable {engine : Engine} {p q : Place}

/-- What is left to render is of the place's template, which is the given one or included by the innermost name. -/
structure Belongs (engine : Engine) (template : Template) (p : Place) : Prop where
  within : ∀ s ∈ p.work, s.1.Within p.template.nodes
  template : p.names = [] ∧ p.template = template ∨ ∃ name names, p.names = name :: names ∧
    engine.included? name = some p.template

theorem Leads.belongs {template : Template} (h : Leads engine p q) (hp : p.Belongs engine template) :
    q.Belongs engine template := by
  cases h with
  | next hwork hok => exact ⟨fun s hs => hp.within s (hwork ▸ List.mem_cons_of_mem _ hs), hp.template⟩
  | branch hwork hok =>
    refine ⟨fun s hs => ?_, hp.template⟩
    have hblock := hp.within _ (hwork ▸ List.mem_cons_self ..)
    rcases List.mem_append.mp hs with hs | hs
    · rcases Work.mem_of_mem_ofPlan hs with hbody | ⟨nodes, rfl, hinverse⟩
      · exact hblock.of_block fun hmem => .body hmem (.here hbody)
      · exact hblock.of_block fun hmem => .inverse hmem (.here hinverse)
    · exact hp.within s (hwork ▸ List.mem_cons_of_mem _ hs)
  | @enter name context region frame work found hwork hok hlimit =>
    refine ⟨fun s hs => ?_, .inr ⟨found.name, p.names, rfl, Scene.included?_of_target hok⟩⟩
    obtain ⟨node, hn, rfl⟩ := List.mem_map.mp hs
    exact .here hn

theorem belongs_start (template : Template) (value : Value) : (start template value).Belongs engine template := by
  refine ⟨fun s hs => ?_, .inl ⟨rfl, rfl⟩⟩
  obtain ⟨node, hn, rfl⟩ := List.mem_map.mp hs
  exact .here hn

theorem Reaches.belongs {template : Template} {value : Value} (h : Reaches engine (start template value) p) :
    p.Belongs engine template := by
  induction h with
  | refl => exact belongs_start template value
  | tail _ hleads ih => exact hleads.belongs ih

/-- The failure arises at the node, which is the next in the place's template, and points at the region in its tag. -/
structure FailsAt (engine : Engine) (p : Place) (node : Node) (region : Region) (d : Diagnostic) : Prop where
  own : ∃ frame work d', p.work = (node, frame) :: work ∧ ((p.scene engine).own node frame).outcome = .error d' ∧
    d = { d' with name := d.name }
  within : node.Within p.template.nodes
  mem : region ∈ node.regions
  excerpt : d.excerpt = some (.ofSource p.template.source.toList region)
  name : d.name = p.template.name.or (opened [] p.past).head?
  /-- A template that is missing or nested too deep is told of at the tag that includes it. -/
  tag : d.cause.OfTag ∨ ∃ name context, node = .inclusion name context region

theorem settle_start (template : Template) (value : Value) (d : Diagnostic) :
    (start template value).settle d = d.inside template := by
  unfold settle owner start Diagnostic.inside
  cases hname : template.name with
  | none => simp
  | some name => rfl

end Place

/-- A failure arises at a node of the template that is being rendered, and tells
of that template alone: it points into its source at a region of the node's tag,
and carries its name, or the name that it is included by if it has none. -/
theorem Engine.render_error {engine : Engine} (he : engine.helpers = Builtin.all) {template : Template} {value : Value}
    {d : Diagnostic} (h : (engine.render template value).outcome = .error d) :
    ∃ p node region, Place.Reaches engine (.start template value) p ∧ opened [] p.past = p.names ∧
      p.Belongs engine template ∧ p.FailsAt engine node region d := by
  have hrender : (engine.render template value).outcome =
      (((Place.start template value).run engine).outcome.mapError (·.inside template)).map fun _ =>
        textOf ((Place.start template value).run engine).events := by
    rw [Engine.render, Engine.renderTemplate_eq, Place.run, Place.start, Scene.renderWork_of]
    rfl
  rw [hrender] at h
  cases hrun : ((Place.start template value).run engine).outcome with
  | ok _ =>
    rw [hrun] at h
    cases h
  | error d₀ =>
    rw [hrun] at h
    have hd₀ : d₀.inside template = d := Except.error.inj h
    obtain ⟨p, node, frame, work, d', hp, hwork, hown, hsettle⟩ := Place.exists_failed he _ hrun
    obtain ⟨hname, region, hmem, hexcerpt, hcause⟩ := Scene.fails_own he node frame d' hown
    have hopened := hp.opened he rfl
    have hd : d = { d' with name := p.template.name.or (opened [] p.past).head? } := by
      rw [← hd₀, ← Place.settle_start, hsettle, hopened, Place.settle, hname, Option.none_or]
      rfl
    have hfails : p.FailsAt engine node region d := by
      rw [hd]
      exact ⟨⟨frame, work, d', hwork, hown, rfl⟩, hp.belongs.within _ (hwork ▸ List.mem_cons_self ..), hmem, hexcerpt,
        rfl, hcause⟩
    exact ⟨p, node, region, hp, hopened, hp.belongs, hfails⟩

/-- A template without a name that a resolver supplies is told of by the name it is asked for by. -/
theorem Engine.render_error_resolved :
    ∃ t u d, Template.compile none (inclusionTag "q") = .ok t ∧ Template.compile none (tagText "x y") = .ok u ∧
      (((new {}).withResolver fun _ => some u).render t .null).outcome = .error d ∧ d.name = some "q" ∧
      ∃ (p : Place) (node : Node) (region : Region), p.Belongs ((new {}).withResolver fun _ => some u) t ∧
        p.FailsAt ((new {}).withResolver fun _ => some u) node region d := by
  have hok : (Template.compile none (inclusionTag "q")).isOk := by decide +kernel
  have hoku : (Template.compile none (tagText "x y")).isOk := by decide +kernel
  have hrender : (do
      let t ← (Template.compile none (inclusionTag "q")).toOption
      let u ← (Template.compile none (tagText "x y")).toOption
      match (((new {}).withResolver fun _ => some u).render t .null).outcome with
      | .ok _ => none
      | .error d => d.name) = some "q" := by decide +kernel
  obtain ⟨t, ht⟩ := Template.exists_of_isOk hok
  obtain ⟨u, hu⟩ := Template.exists_of_isOk hoku
  rw [ht, hu] at hrender
  cases ho : (((new {}).withResolver fun _ => some u).render t .null).outcome with
  | ok text => simp [Except.toOption, ho] at hrender
  | error d =>
    have hname : d.name = some "q" := by simpa [Except.toOption, ho] using hrender
    obtain ⟨p, node, region, -, -, hbelongs, hfails⟩ := Engine.render_error rfl ho
    exact ⟨t, u, d, ht, hu, ho, hname, p, node, region, hbelongs, hfails⟩

end Curly
