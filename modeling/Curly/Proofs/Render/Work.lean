import Curly.Proofs.Render.Effects

/-!
# Blocks as work

A block evaluates its arguments, and then renders one of its branches in frames
that follow from them. So rendering goes through a list of nodes with their
frames in which a block is replaced by the nodes of its branch, once for each
frame (`Scene.renderNode_block`). An inclusion finds a template and a frame, and
then enters it (`Scene.renderInclusion_target`).
-/

namespace Curly

/-! ## Plans -/

inductive Branch where
  | body
  | inverse

/-- The branch of a block that is rendered, and the frames that it is rendered in. -/
structure Plan where
  branch : Branch
  frames : List Frame

namespace Frame

def items (frame : Frame) (size : Nat) : Nat → List (Value × Value) → List Frame
  | _, [] => []
  | index, (key, v) :: entries => frame.item v (.of key index size) :: frame.items size (index + 1) entries

theorem items_eq_mapIdx (frame : Frame) (size index : Nat) (entries : List (Value × Value)) :
    frame.items size index entries = entries.mapIdx fun i e => frame.item e.2 (.of e.1 (index + i) size) := by
  induction entries generalizing index with
  | nil => rfl
  | cons e entries ih =>
    rw [items, ih, List.mapIdx_cons]
    simp only [Nat.add_zero, Nat.add_assoc, Nat.add_comm 1]

/-- The frames that a path opens for the branch that is entered. -/
def sections (frame : Frame) : Value → List Frame
  | .array items => frame.items items.length 0 (Value.numbered 0 items)
  | .map entries => frame.items entries.length 0 (entries.map fun (k, v) => (Value.ofKey k, v))
  | .bool true => [frame]
  | v => [frame.child v]

end Frame

namespace Plan

def ofValue (frame : Frame) (v : Value) : Plan :=
  if v.isEntered then ⟨.body, frame.sections v⟩ else ⟨.inverse, [frame]⟩

def ofNegated (frame : Frame) (v : Value) : Plan :=
  if v.isEntered then ⟨.inverse, frame.sections v⟩ else ⟨.body, [frame]⟩

def ofCondition (frame : Frame) (holds : Bool) : Plan :=
  if holds then ⟨.body, [frame]⟩ else ⟨.inverse, [frame]⟩

def ofEntries (frame : Frame) (v : Value) : Plan :=
  match v.entries? with
  | some (e :: es) => ⟨.body, frame.items (es.length + 1) 0 (e :: es)⟩
  | _ => ⟨.inverse, [frame]⟩

def ofContext (frame : Frame) (v : Value) : Plan :=
  if v.isTruthy then ⟨.body, [frame.child v]⟩ else ⟨.inverse, [frame]⟩

/-- Evaluates to a plan that follows from the only positional argument. -/
def ofSingle (name : String) (make : Frame → Value → Plan) (frame : Frame) (arguments : Arguments) :
    Except Diagnostic Plan :=
  (Builtin.single name arguments).map (make frame)

/-- What the built-in block helper of a name plans. -/
def builtin? : String → Option (Frame → Arguments → Except Diagnostic Plan)
  | "if" => some (ofSingle "if" fun frame v => ofCondition frame v.isTruthy)
  | "unless" => some (ofSingle "unless" fun frame v => ofCondition frame !v.isTruthy)
  | "each" => some (ofSingle "each" ofEntries)
  | "with" => some (ofSingle "with" ofContext)
  | _ => none

/-- The plan with its branch as a run in each frame. -/
def render (body : Frame → Run Unit) (inverse : Option (Frame → Run Unit)) (plan : Plan) : Run Unit :=
  match plan.branch with
  | .body => forM plan.frames body
  | .inverse => forM plan.frames fun frame => Block.renderIn frame inverse

end Plan

theorem Run.exists_of_bind_ok {α β : Type} {r : Run α} {f : α → Run β} {b : β} (h : (r >>= f).outcome = .ok b) :
    ∃ a, r.outcome = .ok a ∧ (f a).outcome = .ok b := by
  rcases r with ⟨events, d | a⟩
  · cases h
  · exact ⟨a, rfl, h⟩

/-! ## Helpers follow plans -/

def BlockHelper.Follows (helper : BlockHelper) (plan : Frame → Arguments → Except Diagnostic Plan) : Prop :=
  ∀ frame named body inverse v arguments, helper ⟨frame, named, body, inverse⟩ v arguments = (do
    let plan ← Run.ofExcept (plan frame arguments)
    plan.render body inverse)

theorem BlockHelper.follows_single (name : String) {render : Block → Value → Run Unit} {make : Frame → Value → Plan}
    (h : ∀ frame named body inverse v, render ⟨frame, named, body, inverse⟩ v = (make frame v).render body inverse) :
    BlockHelper.Follows (fun block _ arguments => do render block (← Run.ofExcept (Builtin.single name arguments)))
      (Plan.ofSingle name make) := by
  intro frame named body inverse _ arguments
  dsimp only
  unfold Plan.ofSingle
  cases Builtin.single name arguments with
  | error d => rfl
  | ok v => exact congrArg (fun r => Run.ofExcept (.ok v) >>= fun _ => r) (h frame named body inverse v)

theorem Run.forM_singleton {α : Type} (a : α) (f : α → Run Unit) : forM [a] f = f a := by
  rw [List.forM_cons, List.forM_nil]
  exact bind_pure_unit

theorem Builtin.renderEntries_eq (frame : Frame) (size : Nat) (branch : Frame → Run Unit) (index : Nat)
    (entries : List (Value × Value)) :
    renderEntries size (fun v i => branch (frame.item v i)) index entries =
      forM (frame.items size index entries) branch := by
  induction entries generalizing index with
  | nil => rfl
  | cons e entries ih => rw [renderEntries, Frame.items, List.forM_cons, ih]

theorem Builtin.ifHelper_follows : ifHelper.Follows (Plan.ofSingle "if" fun frame v => .ofCondition frame v.isTruthy) := by
  refine BlockHelper.follows_single "if" fun frame named body inverse v => ?_
  unfold Plan.ofCondition
  split <;> exact (Run.forM_singleton ..).symm

theorem Builtin.unlessHelper_follows :
    unlessHelper.Follows (Plan.ofSingle "unless" fun frame v => .ofCondition frame !v.isTruthy) := by
  refine BlockHelper.follows_single "unless" fun frame named body inverse v => ?_
  unfold Plan.ofCondition
  cases v.isTruthy <;> exact (Run.forM_singleton ..).symm

theorem Builtin.eachHelper_follows : eachHelper.Follows (Plan.ofSingle "each" .ofEntries) := by
  refine BlockHelper.follows_single "each" fun frame named body inverse v => ?_
  unfold Plan.ofEntries
  rcases v.entries? with _ | _ | ⟨e, es⟩
  · exact (Run.forM_singleton ..).symm
  · exact (Run.forM_singleton ..).symm
  · exact renderEntries_eq frame _ body 0 _

theorem Builtin.withHelper_follows : withHelper.Follows (Plan.ofSingle "with" .ofContext) := by
  refine BlockHelper.follows_single "with" fun frame named body inverse v => ?_
  unfold Plan.ofContext
  split <;> exact (Run.forM_singleton ..).symm

/-- The block helpers are those that plan, and do what they plan. -/
theorem Engine.blockHelper?_follows {engine : Engine} (he : engine.helpers = Builtin.all) (name : String) :
    Option.Rel BlockHelper.Follows (engine.blockHelper? name) (Plan.builtin? name) := by
  unfold Engine.blockHelper?
  rw [he]
  by_cases hif : name = "if"
  · subst hif
    exact .some (Builtin.ifHelper_follows)
  by_cases hunless : name = "unless"
  · subst hunless
    exact .some (Builtin.unlessHelper_follows)
  by_cases heach : name = "each"
  · subst heach
    exact .some (Builtin.eachHelper_follows)
  by_cases hwith : name = "with"
  · subst hwith
    exact .some (Builtin.withHelper_follows)
  have hplan : Plan.builtin? name = none := by
    unfold Plan.builtin?
    split <;> first | contradiction | rfl
  rw [hplan]
  split
  · rename_i hv
    have hm := mem_of_valueAt hv
    simp [Builtin.all, hif, hunless, heach, hwith] at hm
  · exact .none

/-- There is no plan only where the number of arguments is wrong. -/
theorem Plan.builtin?_error {name : String} {plan : Frame → Arguments → Except Diagnostic Plan}
    (h : builtin? name = some plan) {frame : Frame} {arguments : Arguments} {d : Diagnostic}
    (hd : plan frame arguments = .error d) : ∃ name expected received, d = .arity name expected received := by
  have hsingle : ∀ name make, ofSingle name make frame arguments = .error d →
      ∃ name expected received, d = .arity name expected received := by
    intro name make hd
    unfold ofSingle Builtin.single at hd
    split at hd
    · cases hd
    · obtain rfl := Except.error.inj hd
      exact ⟨_, _, _, rfl⟩
  unfold builtin? at h
  split at h
  all_goals first
    | cases h
      exact hsingle _ _ hd
    | cases h

/-! ## Paths -/

theorem Scene.renderSection_eq (frame : Frame) (v : Value) (branch : Frame → Run Unit) :
    renderSection frame v branch = forM (frame.sections v) branch := by
  cases v with
  | array items => exact Builtin.renderEntries_eq frame _ branch 0 _
  | map entries => exact Builtin.renderEntries_eq frame _ branch 0 _
  | bool b => cases b <;> exact (Run.forM_singleton ..).symm
  | _ => exact (Run.forM_singleton ..).symm

theorem Scene.renderSection_none (frame : Frame) (v : Value) :
    pure () = forM (frame.sections v) fun frame => Block.renderIn frame none := by
  induction frame.sections v with
  | nil => rfl
  | cons f frames ih => rw [List.forM_cons, ← ih]; rfl

theorem Scene.renderNegated_eq (frame : Frame) (v : Value) (body : Frame → Run Unit)
    (inverse : Option (Frame → Run Unit)) :
    renderNegated frame v body inverse = (Plan.ofNegated frame v).render body inverse := by
  unfold renderNegated Plan.ofNegated
  split
  · cases inverse with
    | none => exact renderSection_none frame v
    | some inverse => exact renderSection_eq frame v inverse
  · exact (Run.forM_singleton ..).symm

theorem Plan.render_ofValue (frame : Frame) (v : Value) (body : Frame → Run Unit)
    (inverse : Option (Frame → Run Unit)) :
    (if v.isEntered then Scene.renderSection frame v body else Block.renderIn frame inverse) =
      (ofValue frame v).render body inverse := by
  unfold ofValue
  split
  · exact Scene.renderSection_eq frame v body
  · exact (Run.forM_singleton ..).symm

/-! ## Work -/

/-- The nodes that are to be rendered next, each in its frame. -/
abbrev Work := List (Node × Frame)

namespace Work

def of (nodes : List Node) (frame : Frame) : Work :=
  nodes.map (·, frame)

def ofPlan (body : List Node) (inverse : Option (List Node)) (plan : Plan) : Work :=
  match plan.branch with
  | .body => plan.frames.flatMap (of body)
  | .inverse => plan.frames.flatMap (of (inverse.getD []))

theorem mem_of_mem_flatMap {nodes : List Node} {frames : List Frame} {s : Node × Frame}
    (h : s ∈ frames.flatMap (of nodes)) : s.1 ∈ nodes := by
  obtain ⟨frame, -, hs⟩ := List.mem_flatMap.mp h
  obtain ⟨node, hn, rfl⟩ := List.mem_map.mp hs
  exact hn

theorem mem_of_mem_ofPlan {body : List Node} {inverse : Option (List Node)} {plan : Plan} {s : Node × Frame}
    (h : s ∈ ofPlan body inverse plan) : s.1 ∈ body ∨ ∃ nodes, inverse = some nodes ∧ s.1 ∈ nodes := by
  unfold ofPlan at h
  split at h
  · exact .inl (mem_of_mem_flatMap h)
  · have hs := mem_of_mem_flatMap h
    cases inverse with
    | none => cases hs
    | some nodes => exact .inr ⟨nodes, rfl, hs⟩

end Work

namespace Scene

variable {scene : Scene}

def renderWork (scene : Scene) (work : Work) : Run Unit :=
  forM work fun (node, frame) => scene.renderNode node frame

theorem renderWork_cons (node : Node) (frame : Frame) (work : Work) :
    scene.renderWork ((node, frame) :: work) = scene.renderNode node frame >>= fun _ => scene.renderWork work :=
  List.forM_cons ..

theorem renderWork_append (a b : Work) :
    scene.renderWork (a ++ b) = scene.renderWork a >>= fun _ => scene.renderWork b := by
  induction a with
  | nil => rfl
  | cons s a ih => rw [List.cons_append, renderWork_cons, renderWork_cons, ih, bind_assoc]

theorem renderWork_of (nodes : List Node) (frame : Frame) :
    scene.renderWork (.of nodes frame) = scene.renderNodes nodes frame := by
  induction nodes with
  | nil => rw [renderNodes]; rfl
  | cons node nodes ih =>
    rw [renderNodes, ← ih]
    exact renderWork_cons node frame _

theorem renderWork_flatMap (nodes : List Node) (frames : List Frame) :
    scene.renderWork (frames.flatMap (Work.of nodes)) = forM frames (scene.renderNodes nodes) := by
  induction frames with
  | nil => rfl
  | cons frame frames ih => rw [List.flatMap_cons, renderWork_append, renderWork_of, ih, List.forM_cons]

theorem renderWork_ofPlan (body : List Node) (inverse : Option (List Node)) (plan : Plan) :
    scene.renderWork (.ofPlan body inverse plan) =
      plan.render (scene.renderNodes body) (scene.renderBranch inverse) := by
  obtain ⟨branch, frames⟩ := plan
  cases branch with
  | body => exact renderWork_flatMap body frames
  | inverse =>
    refine (renderWork_flatMap (inverse.getD []) frames).trans ?_
    cases inverse <;> simp only [Plan.render, renderBranch, Block.renderIn, Option.getD, renderNodes]

/-- Nodes point at where they fail. -/
theorem renderWork_fails (work : Work) : (scene.renderWork work).FailsWith (·.excerpt.isSome) := by
  refine Run.FailsWith.forM fun (node, frame) _ => ?_
  dsimp only
  have hpointing : ∀ {r : Run Unit} region, (scene.pointing region r).FailsWith (·.excerpt.isSome) := fun _ =>
    Run.FailsWith.mapError (P := fun _ => True) (fun _ _ => trivial) fun d _ => by simp [Diagnostic.pointing]
  cases node with
  | raw text region =>
    rw [renderNode]
    exact fun _ h => nomatch h
  | output call escaped region => rw [renderNode]; exact hpointing _
  | block call negated body inverse region => rw [renderNode]; exact hpointing _
  | inclusion name context region => rw [renderNode]; exact hpointing _

theorem renderNodes_fails (nodes : List Node) (frame : Frame) :
    (scene.renderNodes nodes frame).FailsWith (·.excerpt.isSome) := by
  rw [← renderWork_of]
  exact renderWork_fails _

theorem pointing_eq {α : Type} {r : Run α} (h : r.FailsWith (·.excerpt.isSome)) (region : Region) :
    scene.pointing region r = r := by
  rcases r with ⟨es, d | a⟩
  · have hd := h d rfl
    obtain ⟨excerpt, he⟩ := Option.isSome_iff_exists.mp hd
    have hp : d.pointing scene.source region = d := by rw [Diagnostic.pointing, he]; cases d; cases he; rfl
    exact congrArg (fun d => Run.mk es (.error d)) hp
  · rfl

theorem pointing_bind {α β : Type} (region : Region) (r : Run α) (f : α → Run β) :
    scene.pointing region (r >>= f) = scene.pointing region r >>= fun a => scene.pointing region (f a) := by
  rcases r with ⟨es, d | a⟩ <;> rfl

/-! ## Blocks -/

theorem evaluateOperands_single (frame : Frame) (e : Expression) :
    scene.evaluateOperands frame ⟨[e], []⟩ = (do return ⟨[← scene.evaluate frame e], []⟩) := by
  simp [evaluateOperands, evaluateAll, evaluateNamed]

/-- A block of a helper that makes a plan of its only argument. -/
theorem renderBlock_single {helper : BlockHelper} {name : String} {make : Frame → Value → Plan}
    (hfollows : helper.Follows (Plan.ofSingle name make)) {frame : Frame} {head : Path} {o : Operands} {v : Value}
    {named : List (String × Value)} (hhead : head.helperName.bind scene.engine.blockHelper? = some helper)
    (ho : (scene.evaluateOperands frame o).outcome = .ok ⟨[v], named⟩) (region : Region) (body : Frame → Run Unit)
    (inverse : Option (Frame → Run Unit)) :
    scene.renderBlock frame ⟨head, o, region⟩ body inverse = (do
      let _ ← scene.evaluateOperands frame o
      scene.pointing region ((make frame v).render body inverse)) := by
  obtain ⟨events, hevents⟩ : ∃ events, scene.evaluateOperands frame o = ⟨events, .ok ⟨[v], named⟩⟩ :=
    ⟨_, congrArg (Run.mk _) ho⟩
  have hhelper : helper ⟨frame, named, body, inverse⟩ frame.value ⟨[v], named⟩ = (make frame v).render body inverse := by
    rw [hfollows]
    rfl
  rw [renderBlock, hhead]
  dsimp only
  rw [hevents, Run.bind_ok, Run.bind_ok, hhelper]

theorem renderNode_single {helper : BlockHelper} {name : String} {make : Frame → Value → Plan}
    (hfollows : helper.Follows (Plan.ofSingle name make)) {frame : Frame} {head : Path} {o : Operands} {v : Value}
    {named : List (String × Value)} (hhead : head.helperName.bind scene.engine.blockHelper? = some helper)
    (ho : (scene.evaluateOperands frame o).outcome = .ok ⟨[v], named⟩) (r region : Region) (body : List Node)
    (inverse : Option (List Node)) :
    scene.renderNode (.block ⟨head, o, r⟩ false body inverse region) frame = (do
      let _ ← scene.evaluateOperands frame o
      scene.renderWork (.ofPlan body inverse (make frame v))) := by
  have hfails : (scene.evaluateOperands frame o).FailsWith (·.excerpt.isSome) := .of_ok ho
  rw [renderNode, if_neg Bool.false_ne_true, renderBlock_single hfollows hhead ho, pointing_bind, pointing_eq hfails,
    ← renderWork_ofPlan]
  congr 1
  funext _
  rw [pointing_eq (renderWork_fails _), pointing_eq (renderWork_fails _)]

/-- What a block does before it renders a branch. -/
def plan (scene : Scene) (frame : Frame) (call : Call Path) (negated : Bool) : Run Plan :=
  if negated then pure (.ofNegated frame (frame.valueOf call.head))
  else
    match call.head.helperName.bind Plan.builtin? with
    | some plan => do
      let arguments ← scene.evaluateOperands frame call.operands
      scene.pointing call.region (Run.ofExcept (plan frame arguments))
    | none =>
      if !call.operands.isEmpty then scene.missingHelper call.head.region
      else pure (.ofValue frame (frame.valueOf call.head))

theorem renderBlock_eq (he : scene.engine.helpers = Builtin.all) (frame : Frame) (call : Call Path)
    (body : List Node) (inverse : Option (List Node)) :
    scene.renderBlock frame call (scene.renderNodes body) (scene.renderBranch inverse) = (do
      let plan ← scene.plan frame call false
      scene.renderWork (.ofPlan body inverse plan)) := by
  have hrel : Option.Rel BlockHelper.Follows (call.head.helperName.bind scene.engine.blockHelper?)
      (call.head.helperName.bind Plan.builtin?) := by
    cases call.head.helperName with
    | none => exact .none
    | some name => exact Engine.blockHelper?_follows he name
  unfold renderBlock plan
  rw [if_neg Bool.false_ne_true]
  generalize call.head.helperName.bind scene.engine.blockHelper? = helper at hrel ⊢
  generalize call.head.helperName.bind Plan.builtin? = plan at hrel ⊢
  cases hrel with
  | none =>
    dsimp only
    split
    · rfl
    · rw [pure_bind, renderWork_ofPlan]
      exact Plan.render_ofValue ..
  | some hfollows =>
    dsimp only
    rw [bind_assoc]
    congr 1
    funext arguments
    rw [hfollows, pointing_bind]
    congr 1
    funext plan
    rw [← renderWork_ofPlan]
    exact pointing_eq (renderWork_fails _) _

/-- A block plans, and renders its branch as planned. -/
theorem renderNode_block (he : scene.engine.helpers = Builtin.all) (call : Call Path) (negated : Bool)
    (body : List Node) (inverse : Option (List Node)) (region : Region) (frame : Frame) :
    scene.renderNode (.block call negated body inverse region) frame = (do
      let plan ← scene.pointing region (scene.plan frame call negated)
      scene.renderWork (.ofPlan body inverse plan)) := by
  have hblock : scene.renderNode (.block call negated body inverse region) frame = scene.pointing region (do
      let plan ← scene.plan frame call negated
      scene.renderWork (.ofPlan body inverse plan)) := by
    rw [renderNode]
    cases negated with
    | false => exact congrArg _ (renderBlock_eq he frame call body inverse)
    | true =>
      rw [if_pos rfl, plan, if_pos rfl, pure_bind, renderWork_ofPlan]
      exact congrArg _ (renderNegated_eq ..)
  rw [hblock, pointing_bind]
  congr 1
  funext plan
  exact pointing_eq (renderWork_fails _) _

/-! ## Inclusions -/

/-- An included template with the name it is asked for by, and the frame that it is rendered in. -/
structure Found where
  name : String
  template : Template
  frame : Frame

/-- What an inclusion does before it enters a template. There may be none, where that is let pass. -/
def target (scene : Scene) (frame : Frame) (name : PartialName) (context : Option Expression) :
    Run (Option Found) := do
  let name ← scene.partialName frame name
  match scene.engine.included? name with
  | none =>
    if scene.engine.config.tolerateMissing then do
      Run.note .trace ("partial `" ++ name ++ "` not found, rendering nothing")
      return none
    else Run.fail (.missingPartial name)
  | some template => do
    Run.note .trace ("including partial `" ++ name ++ "`")
    return some ⟨name, template, ← scene.inclusionFrame frame context⟩

theorem renderInclusion_target (frame : Frame) (name : PartialName) (context : Option Expression) :
    scene.renderInclusion frame name context = (do
      match ← scene.target frame name context with
      | none => pure ()
      | some found => scene.enter found.name found.template found.frame) := by
  rw [renderInclusion_eq, target, bind_assoc]
  congr 1
  funext name
  cases scene.engine.included? name with
  | none =>
    dsimp only
    split <;> rfl
  | some template => simp only [bind_assoc, pure_bind]

theorem included?_of_target {frame : Frame} {name : PartialName} {context : Option Expression} {found : Found}
    (h : (scene.target frame name context).outcome = .ok (some found)) :
    scene.engine.included? found.name = some found.template := by
  obtain ⟨name, -, h⟩ := Run.exists_of_bind_ok h
  cases hincluded : scene.engine.included? name with
  | none =>
    rw [hincluded] at h
    dsimp only at h
    split at h <;> cases h
  | some template =>
    rw [hincluded] at h
    obtain ⟨-, -, h⟩ := Run.exists_of_bind_ok h
    obtain ⟨inner, -, h⟩ := Run.exists_of_bind_ok h
    cases h
    exact hincluded

end Scene

end Curly
