import Curly.Proofs.Lift.Tree
import Curly.Proofs.Render.InStep

/-!
# Templates in the context of a block

A template of built-in blocks can be moved into the body of a `with` block if it is
lifted: it renders as it did before (`Scene.renderNode_with_lift`). There is one
exception. A plain helper is handed the value of the frame that it is called in,
so those that are called outside the frames of the template's own blocks must do
the same for either value. The built-in ones do.
-/

namespace Curly

/-! ## Trees of built-in blocks -/

/-- The name is that of a built-in block helper, and the engine has the helper under it. -/
def Engine.Keeps (engine : Engine) (name : String) : Prop :=
  ∃ helper, (name, .block helper) ∈ Builtin.all ∧ engine.blockHelper? name = some helper

mutual

/-- Texts, outputs, and blocks of the built-in helpers. -/
def Node.Structured (engine : Engine) : Node → Prop
  | .raw _ _ | .output _ _ _ => True
  | .block call negated body inverse _ =>
    negated = false ∧ (∃ name, call.head.helperName = some name ∧ engine.Keeps name) ∧
      StructuredNodes engine body ∧ StructuredBranch engine inverse
  | .inclusion _ _ _ => False

def StructuredNodes (engine : Engine) : List Node → Prop
  | [] => True
  | node :: nodes => node.Structured engine ∧ StructuredNodes engine nodes

def StructuredBranch (engine : Engine) : Option (List Node) → Prop
  | none => True
  | some nodes => StructuredNodes engine nodes

end

mutual

/-- The names of the helpers that are called for an expression. -/
def Expression.callees : Expression → List String
  | .literal _ _ | .path _ => []
  | .call callee operands _ => callee.helperName.toList ++ operands.callees

def Operands.callees : Operands → List String
  | ⟨positional, named⟩ => calleesOfAll positional ++ calleesOfNamed named

def calleesOfAll : List Expression → List String
  | [] => []
  | e :: es => e.callees ++ calleesOfAll es

def calleesOfNamed : List (String × Expression) → List String
  | [] => []
  | (_, e) :: es => e.callees ++ calleesOfNamed es

end

mutual

/-- The names of the plain helpers that are called outside the bodies for which frames are made. -/
def Node.callees : Node → List String
  | .raw _ _ => []
  | .output call _ _ => call.head.helperName.toList ++ (call.head.callees ++ call.operands.callees)
  | .block call _ body inverse _ =>
    call.operands.callees ++ ((if call.head.makesFrame then [] else calleesOfNodes body) ++ calleesOfBranch inverse)
  | .inclusion _ _ _ => []

def calleesOfNodes : List Node → List String
  | [] => []
  | node :: nodes => node.callees ++ calleesOfNodes nodes

def calleesOfBranch : Option (List Node) → List String
  | none => []
  | some nodes => calleesOfNodes nodes

end

/-- The helpers of these names do the same in the context of either value. -/
def Engine.Indifferent (engine : Engine) (names : List String) (v w : Value) : Prop :=
  ∀ name ∈ names, ∀ helper, engine.helper? name = some helper → ∀ arguments, helper v arguments = helper w arguments

/-! ## Evaluation -/

namespace Engine.Indifferent

variable {engine : Engine} {names names' : List String} {v w : Value}

theorem refl (names : List String) (v : Value) : engine.Indifferent names v v :=
  fun _ _ _ _ _ => rfl

theorem append : engine.Indifferent (names ++ names') v w ↔
    engine.Indifferent names v w ∧ engine.Indifferent names' v w :=
  List.forall_mem_append

theorem apply {name : Option String} {helper : Helper} (h : engine.Indifferent name.toList v w)
    (hname : name.bind engine.helper? = some helper) (arguments : Arguments) : helper w arguments = helper v arguments := by
  obtain ⟨name, rfl, hhelper⟩ := Option.bind_eq_some_iff.mp hname
  exact (h name (List.mem_singleton_self name) helper hhelper arguments).symm

/-- The built-in helpers take no notice of the context that they are called in. -/
theorem of_builtin (he : engine.helpers = Builtin.all) (names : List String) (v w : Value) :
    engine.Indifferent names v w := by
  intro name _ helper hhelper arguments
  rcases Engine.helper?_builtin he hhelper with rfl | rfl
  · rfl
  · rfl

end Engine.Indifferent

namespace Scene

variable {scene : Scene} {v : Value} {f f' : Frame} {depth : Nat}

theorem callText_indifferent {callee : Path}
    (h : scene.engine.Indifferent callee.helperName.toList f.value f'.value) (region : Region)
    (arguments : Run Arguments) : scene.callText f' callee region arguments = scene.callText f callee region arguments := by
  unfold callText
  cases hhelper : scene.helper? callee.helperName with
  | none => rfl
  | some helper =>
    dsimp only
    congr 1
    funext arguments
    rw [h.apply hhelper]

mutual

theorem evaluate_lift (h : Frame.Inserted v depth f f') :
    ∀ e : Expression, scene.engine.Indifferent e.callees f.value f'.value →
      scene.evaluate f' (e.lift depth) = scene.evaluate f e
  | .literal value region, _ => by
    rw [Expression.lift, evaluate, evaluate]
  | .path p, _ => by
    rw [Expression.lift, evaluate, evaluate, h.valueOf_lift]
  | .call callee operands region, hcallees => by
    rw [Expression.callees] at hcallees
    obtain ⟨hcallee, hoperands⟩ := Engine.Indifferent.append.mp hcallees
    have ho := evaluateOperands_lift h operands hoperands
    rw [Expression.lift, evaluate, evaluate, ho, callText_indifferent hcallee]

theorem evaluateOperands_lift (h : Frame.Inserted v depth f f') :
    ∀ o : Operands, scene.engine.Indifferent o.callees f.value f'.value →
      scene.evaluateOperands f' (o.lift depth) = scene.evaluateOperands f o
  | ⟨positional, named⟩, hcallees => by
    rw [Operands.callees] at hcallees
    obtain ⟨hpositional, hnamed⟩ := Engine.Indifferent.append.mp hcallees
    have hp := evaluateAll_lift h positional hpositional
    have hn := evaluateNamed_lift h named hnamed
    rw [Operands.lift, evaluateOperands, evaluateOperands, hp, hn []]

theorem evaluateAll_lift (h : Frame.Inserted v depth f f') :
    ∀ es : List Expression, scene.engine.Indifferent (calleesOfAll es) f.value f'.value →
      scene.evaluateAll f' (liftAll depth es) = scene.evaluateAll f es
  | [], _ => by
    rw [liftAll, evaluateAll, evaluateAll]
  | e :: es, hcallees => by
    rw [calleesOfAll] at hcallees
    obtain ⟨he, hes⟩ := Engine.Indifferent.append.mp hcallees
    have hhead := evaluate_lift h e he
    have htail := evaluateAll_lift h es hes
    rw [liftAll, evaluateAll, evaluateAll, hhead, htail]

theorem evaluateNamed_lift (h : Frame.Inserted v depth f f') :
    ∀ es : List (String × Expression), scene.engine.Indifferent (calleesOfNamed es) f.value f'.value →
      ∀ seen, scene.evaluateNamed f' seen (liftNamed depth es) = scene.evaluateNamed f seen es
  | [], _, seen => by
    rw [liftNamed, evaluateNamed, evaluateNamed]
  | (name, e) :: es, hcallees, seen => by
    rw [calleesOfNamed] at hcallees
    obtain ⟨he, hes⟩ := Engine.Indifferent.append.mp hcallees
    have hhead := evaluate_lift h e he
    have htail := evaluateNamed_lift h es hes
    rw [liftNamed, evaluateNamed, evaluateNamed, hhead]
    congr 1
    funext v
    exact htail _

end

/-! ## Outputs -/

theorem renderOutput_called {call : Call Expression} (h : Frame.Inserted v depth f f')
    (hcalls : scene.engine.calls call) (hhead : scene.engine.Indifferent call.head.helperName.toList f.value f'.value)
    (hoperands : scene.engine.Indifferent call.operands.callees f.value f'.value) (escaped : Bool) :
    scene.renderOutput f' ⟨call.head, call.operands.lift depth, call.region⟩ escaped =
      scene.renderOutput f call escaped := by
  unfold renderOutput
  dsimp only
  rw [evaluateOperands_lift h _ hoperands, Operands.isEmpty_lift]
  cases hhelper : scene.helper? call.head.helperName with
  | some helper =>
    dsimp only
    congr 1
    funext arguments
    rw [hhead.apply hhelper]
  | none =>
    have hnone : call.head.helperName.bind scene.engine.helper? = none := hhelper
    have hmissing : !call.operands.isEmpty := by
      rw [Engine.calls, hnone] at hcalls
      exact (Bool.and_eq_true_iff.mp hcalls).2
    dsimp only
    rw [if_pos hmissing, if_pos hmissing]

/-- The head of an output that is not called names no helper, and names none if it is lifted. -/
theorem helper?_lift {call : Call Expression} (hcalls : ¬ scene.engine.calls call) :
    scene.helper? call.head.helperName = none ∧ scene.helper? (call.head.lift depth).helperName = none := by
  have hhead : scene.helper? call.head.helperName = none := by
    cases hhelper : call.head.helperName.bind scene.engine.helper? with
    | none => exact hhelper
    | some helper => simp [Engine.calls, hhelper] at hcalls
  refine ⟨hhead, ?_⟩
  rcases Expression.helperName_lift depth call.head with hname | hname
  · rwa [hname]
  · rw [hname]
    rfl

theorem renderOutput_evaluated {call : Call Expression} (hempty : scene.engine.config.unresolved = .empty)
    (h : Frame.Inserted v depth f f') (hcalls : ¬ scene.engine.calls call)
    (hhead : scene.engine.Indifferent call.head.callees f.value f'.value) (escaped : Bool) :
    scene.renderOutput f' ⟨call.head.lift depth, call.operands.lift depth, call.region⟩ escaped =
      scene.renderOutput f call escaped := by
  obtain ⟨hname, hname'⟩ := @helper?_lift scene depth call hcalls
  have hunresolved : ∀ p missing, scene.renderUnresolved p missing = pure () := by
    intro p missing
    unfold renderUnresolved
    rw [hempty]
  have hvalue : scene.evaluate f' (call.head.lift depth) = scene.evaluate f call.head := evaluate_lift h _ hhead
  unfold renderOutput
  dsimp only
  rw [hname, hname', Operands.isEmpty_lift, Expression.region_lift]
  dsimp only
  split
  · rfl
  · cases hcall : call.head with
    | path p =>
      simp only [Expression.lift, h.resolve_lift, hunresolved]
    | literal value region =>
      rw [hcall] at hvalue
      simp only [Expression.lift] at hvalue ⊢
      rw [hvalue]
    | call callee operands region =>
      rw [hcall] at hvalue
      simp only [Expression.lift] at hvalue ⊢
      rw [hvalue]

theorem renderOutput_lift {call : Call Expression} (hempty : scene.engine.config.unresolved = .empty)
    (h : Frame.Inserted v depth f f')
    (hcallees : scene.engine.Indifferent
      (call.head.helperName.toList ++ (call.head.callees ++ call.operands.callees)) f.value f'.value) (escaped : Bool) :
    scene.renderOutput f' (call.lift scene.engine depth) escaped = scene.renderOutput f call escaped := by
  obtain ⟨hname, hcallees⟩ := Engine.Indifferent.append.mp hcallees
  obtain ⟨hhead, hoperands⟩ := Engine.Indifferent.append.mp hcallees
  unfold Call.lift
  split
  · rename_i hcalls
    exact renderOutput_called h hcalls hname hoperands escaped
  · rename_i hcalls
    exact renderOutput_evaluated hempty h hcalls hhead escaped

end Scene

/-! ## Blocks -/

namespace Builtin

section
variable {f f' : Frame} {body body' : Frame → Run Unit} {inverse inverse' : Option (Frame → Run Unit)}
variable (hinverse : Block.renderIn f' inverse' = Block.renderIn f inverse)
variable (named : List (String × Value)) (v v' : Value) (arguments : Arguments)
include hinverse

theorem ifHelper_congr (hbody : body' f' = body f) :
    ifHelper ⟨f', named, body', inverse'⟩ v' arguments = ifHelper ⟨f, named, body, inverse⟩ v arguments := by
  unfold ifHelper Block.renderBody Block.renderInverse
  dsimp only
  rw [hbody, hinverse]

theorem unlessHelper_congr (hbody : body' f' = body f) :
    unlessHelper ⟨f', named, body', inverse'⟩ v' arguments = unlessHelper ⟨f, named, body, inverse⟩ v arguments := by
  unfold unlessHelper Block.renderBody Block.renderInverse
  dsimp only
  rw [hbody, hinverse]

theorem eachHelper_congr (hbody : ∀ value iteration, body' (f'.item value iteration) = body (f.item value iteration)) :
    eachHelper ⟨f', named, body', inverse'⟩ v' arguments = eachHelper ⟨f, named, body, inverse⟩ v arguments := by
  have hitem : Block.renderItem ⟨f', named, body', inverse'⟩ = Block.renderItem ⟨f, named, body, inverse⟩ :=
    funext₂ hbody
  unfold eachHelper Block.renderInverse
  dsimp only
  rw [hitem, hinverse]

theorem withHelper_congr (hbody : ∀ value, body' (f'.child value) = body (f.child value)) :
    withHelper ⟨f', named, body', inverse'⟩ v' arguments = withHelper ⟨f, named, body, inverse⟩ v arguments := by
  have hchild : Block.renderBodyWith ⟨f', named, body', inverse'⟩ = Block.renderBodyWith ⟨f, named, body, inverse⟩ :=
    funext hbody
  unfold withHelper Block.renderInverse
  dsimp only
  rw [hchild, hinverse]

/-- The built-in block helpers render the inverse in the frame of the block, and the
body either there or in frames that they make just inside. -/
theorem blockHelper_congr {name : String} {helper : BlockHelper} (h : (name, .block helper) ∈ all)
    (hkept : ¬ makesFrame name → body' f' = body f)
    (hmade : makesFrame name → ∀ value iteration, body' (.nested value iteration f') = body (.nested value iteration f)) :
    helper ⟨f', named, body', inverse'⟩ v' arguments = helper ⟨f, named, body, inverse⟩ v arguments := by
  simp only [all, List.mem_cons, Prod.mk.injEq, Registered.block.injEq, reduceCtorEq, and_false,
    List.not_mem_nil, or_false] at h
  rcases h with ⟨rfl, rfl⟩ | ⟨rfl, rfl⟩ | ⟨rfl, rfl⟩ | ⟨rfl, rfl⟩
  · exact ifHelper_congr hinverse named v v' arguments (hkept (by decide))
  · exact unlessHelper_congr hinverse named v v' arguments (hkept (by decide))
  · exact eachHelper_congr hinverse named v v' arguments fun value iteration => hmade (by decide) value (some iteration)
  · exact withHelper_congr hinverse named v v' arguments fun value => hmade (by decide) value none

end

end Builtin

/-! ## Nodes -/

namespace Scene

variable {scene : Scene} {v : Value} {f f' : Frame} {depth : Nat}

-- By induction on the tree, over all places where the frame may be put in.
mutual

theorem renderNode_lift (hempty : scene.engine.config.unresolved = .empty) :
    ∀ (node : Node) (depth : Nat) (f f' : Frame), node.Structured scene.engine → Frame.Inserted v depth f f' →
      scene.engine.Indifferent node.callees f.value f'.value →
      scene.renderNode (node.lift scene.engine depth) f' = scene.renderNode node f
  | .raw text region, depth, f, f', _, _, _ => by
    rw [Node.lift, renderNode, renderNode]
  | .output call escaped region, depth, f, f', _, h, hcallees => by
    rw [Node.callees] at hcallees
    rw [Node.lift, renderNode, renderNode, renderOutput_lift hempty h hcallees]
  | .block call negated body inverse region, depth, f, f', hnode, h, hcallees => by
    rw [Node.Structured] at hnode
    rw [Node.callees] at hcallees
    obtain ⟨rfl, ⟨name, hname, helper, hall, hhelper⟩, hbody, hinverse⟩ := hnode
    obtain ⟨hoperands, hcallees⟩ := Engine.Indifferent.append.mp hcallees
    obtain ⟨hcallees, hinverseCallees⟩ := Engine.Indifferent.append.mp hcallees
    have hframe : call.head.makesFrame = Builtin.makesFrame name := by
      rw [Path.makesFrame, hname]
      rfl
    have hinverse' := renderBranch_lift hempty inverse depth f f' hinverse h hinverseCallees
    rw [hframe] at hcallees
    rw [Node.lift, renderNode, renderNode, if_neg Bool.false_ne_true, if_neg Bool.false_ne_true, hframe]
    unfold renderBlock
    dsimp only
    rw [hname, Option.bind_some, hhelper]
    dsimp only
    rw [evaluateOperands_lift h _ hoperands]
    congr 2
    funext arguments
    congr 1
    refine Builtin.blockHelper_congr hinverse' _ _ _ _ hall (fun hkept => ?_) fun hmade value iteration => ?_
    · rw [if_neg hkept] at hcallees ⊢
      exact renderNodes_lift hempty body depth f f' hbody h hcallees
    · -- The frame is put on both chains, so its helpers have the same value for their context.
      rw [if_pos hmade]
      exact renderNodes_lift hempty body (depth + 1) _ _ hbody (.nested value iteration h) (.refl _ _)
  | .inclusion name context region, depth, f, f', hnode, _, _ => by
    rw [Node.Structured] at hnode
    exact hnode.elim

theorem renderNodes_lift (hempty : scene.engine.config.unresolved = .empty) :
    ∀ (nodes : List Node) (depth : Nat) (f f' : Frame), StructuredNodes scene.engine nodes →
      Frame.Inserted v depth f f' → scene.engine.Indifferent (calleesOfNodes nodes) f.value f'.value →
      scene.renderNodes (liftNodes scene.engine depth nodes) f' = scene.renderNodes nodes f
  | [], depth, f, f', _, _, _ => by
    rw [liftNodes, renderNodes, renderNodes]
  | node :: nodes, depth, f, f', hnodes, h, hcallees => by
    rw [StructuredNodes] at hnodes
    rw [calleesOfNodes] at hcallees
    obtain ⟨hnode, hnodes⟩ := hnodes
    obtain ⟨hcallees, hrest⟩ := Engine.Indifferent.append.mp hcallees
    have hhead := renderNode_lift hempty node depth f f' hnode h hcallees
    have htail := renderNodes_lift hempty nodes depth f f' hnodes h hrest
    rw [liftNodes, renderNodes, renderNodes, hhead, htail]

theorem renderBranch_lift (hempty : scene.engine.config.unresolved = .empty) :
    ∀ (inverse : Option (List Node)) (depth : Nat) (f f' : Frame), StructuredBranch scene.engine inverse →
      Frame.Inserted v depth f f' → scene.engine.Indifferent (calleesOfBranch inverse) f.value f'.value →
      Block.renderIn f' (scene.renderBranch (liftBranch scene.engine depth inverse)) =
        Block.renderIn f (scene.renderBranch inverse)
  | none, depth, f, f', _, _, _ => by
    rw [liftBranch, renderBranch]
    rfl
  | some nodes, depth, f, f', hnodes, h, hcallees => by
    rw [StructuredBranch] at hnodes
    rw [calleesOfBranch] at hcallees
    have hbranch := renderNodes_lift hempty nodes depth f f' hnodes h hcallees
    rw [liftBranch, renderBranch, renderBranch]
    exact hbranch

end

/-! ## Contexts -/

variable {frame : Frame} {head : Path} {x : Expression}

/-- A block headed by `with` renders its body in the context of its argument, if that is truthy. -/
theorem renderNode_with (hhead : head.helperName = some "with")
    (hwith : scene.engine.blockHelper? "with" = some Builtin.withHelper)
    (hx : (scene.evaluate frame x).outcome = .ok v) (hv : v.isTruthy) (body : List Node)
    (inverse : Option (List Node)) (r region : Region) :
    scene.renderNode (.block ⟨head, ⟨[x], []⟩, r⟩ false body inverse region) frame = (do
      let _ ← scene.evaluate frame x
      scene.renderNodes body (frame.child v)) := by
  have hfails : (scene.renderNodes body (frame.child v)).FailsWith (·.excerpt.isSome) :=
    renderNodes_fails body _
  have hhelper : Builtin.withHelper ⟨frame, [], scene.renderNodes body, scene.renderBranch inverse⟩ frame.value
      ⟨[v], []⟩ = scene.renderNodes body (frame.child v) :=
    if_pos hv
  rcases hr : scene.evaluate frame x with ⟨events, o⟩
  rw [hr] at hx
  obtain rfl : o = .ok v := hx
  rw [renderNode, if_neg Bool.false_ne_true]
  unfold renderBlock
  dsimp only
  rw [hhead, Option.bind_some, hwith]
  dsimp only
  rw [evaluateOperands_single, hr, bind_assoc]
  simp only [pure_bind, Run.bind_ok, hhelper, pointing_eq hfails]
  refine pointing_eq ?_ region
  exact hfails

/-- A tree renders as it does when it is lifted into a block headed by `with`. The plain
helpers that are called for it outside the frames of its own blocks must not tell the
context of the block from the one around it, since that is the one thing that paths with
another hop do not bring back. -/
theorem renderNode_with_lift {nodes : List Node} (hempty : scene.engine.config.unresolved = .empty)
    (htree : StructuredNodes scene.engine nodes) (hhead : head.helperName = some "with")
    (hwith : scene.engine.blockHelper? "with" = some Builtin.withHelper)
    (hx : (scene.evaluate frame x).outcome = .ok v) (hv : v.isTruthy)
    (hcallees : scene.engine.Indifferent (calleesOfNodes nodes) frame.value v) (inverse : Option (List Node))
    (r region : Region) :
    let wrapped := Node.block ⟨head, ⟨[x], []⟩, r⟩ false (liftNodes scene.engine 0 nodes) inverse region
    (scene.renderNode wrapped frame).outcome = (scene.renderNodes nodes frame).outcome ∧
      textOf (scene.renderNode wrapped frame).events = textOf (scene.renderNodes nodes frame).events := by
  intro wrapped
  have hlift : scene.renderNodes (liftNodes scene.engine 0 nodes) (frame.child v) = scene.renderNodes nodes frame :=
    renderNodes_lift hempty nodes 0 frame (frame.child v) htree (.base frame) hcallees
  have hwrapped : scene.renderNode wrapped frame = (do
      let _ ← scene.evaluate frame x
      scene.renderNodes nodes frame) := by
    rw [renderNode_with hhead hwith hx hv, hlift]
  have hsilent : textOf (scene.evaluate frame x).events = "" := textOf_evaluate scene frame x
  rw [hwrapped]
  rcases hr : scene.evaluate frame x with ⟨events, o⟩
  rw [hr] at hx hsilent
  obtain rfl : o = .ok v := hx
  refine ⟨rfl, ?_⟩
  rw [Run.bind_ok, Run.textOf_append, hsilent]
  exact String.empty_append

/-- Each of some values, and another value after it. -/
def pairNodes : List Node :=
  [.block ⟨⟨.context 0, ["each"], ['e', 'a', 'c', 'h'], default⟩,
    ⟨[.path ⟨.context 0, ["xs"], ['x', 's'], default⟩], []⟩, default⟩ false
    [.output ⟨.path ⟨.context 0, [], ['t', 'h', 'i', 's'], default⟩, ⟨[], []⟩, default⟩ true default,
      .output ⟨.path ⟨.context 1, ["y"], ['.', '.', '/', 'y'], default⟩, ⟨[], []⟩, default⟩ true default] none default]

theorem renderNode_with_lift_pairs :
    let scene : Scene := ⟨.new {}, ⟨none, "", []⟩, none⟩
    let frame : Frame := .root (.record [("xs", .array [.string "a", .string "b"]), ("y", .string "c")])
    let head : Path := ⟨.context 0, ["with"], ['w', 'i', 't', 'h'], default⟩
    let x : Expression := .path ⟨.context 0, ["y"], ['y'], default⟩
    let wrapped := Node.block ⟨head, ⟨[x], []⟩, default⟩ false (liftNodes scene.engine 0 pairNodes) none default
    scene.engine.config.unresolved = .empty ∧ StructuredNodes scene.engine pairNodes ∧
      head.helperName = some "with" ∧ scene.engine.blockHelper? "with" = some Builtin.withHelper ∧
      (scene.evaluate frame x).outcome = .ok (.string "c") ∧ (Value.string "c").isTruthy ∧
      scene.engine.Indifferent (calleesOfNodes pairNodes) frame.value (.string "c") ∧
      textOf (scene.renderNodes pairNodes frame).events = "acbc" ∧
      (scene.renderNode wrapped frame).outcome = (scene.renderNodes pairNodes frame).outcome ∧
      textOf (scene.renderNode wrapped frame).events = textOf (scene.renderNodes pairNodes frame).events := by
  intro scene frame head x wrapped
  have htree : StructuredNodes scene.engine pairNodes := by
    have heach : scene.engine.Keeps "each" := ⟨Builtin.eachHelper, by simp [Builtin.all], rfl⟩
    simp only [pairNodes, StructuredNodes, Node.Structured, StructuredBranch, and_true, true_and]
    exact ⟨"each", rfl, heach⟩
  have hx : (scene.evaluate frame x).outcome = .ok (.string "c") := rfl
  have hcallees : scene.engine.Indifferent (calleesOfNodes pairNodes) frame.value (.string "c") := .of_builtin rfl _ _ _
  have htext : textOf (scene.renderNodes pairNodes frame).events = "acbc" := by decide +kernel
  exact ⟨rfl, htree, rfl, rfl, hx, rfl, hcallees, htext,
    renderNode_with_lift rfl htree rfl rfl hx rfl hcallees none default default⟩

/-- Writes the value that it is called in. -/
def hereHelper : Helper := fun context _ =>
  Run.write context.text

/-- A helper that writes its context writes the value of the block's argument there. -/
theorem renderNode_with_lift_here :
    let engine := (Engine.new {}).register "here" (.plain hereHelper)
    let scene : Scene := ⟨engine, ⟨none, "", []⟩, none⟩
    let frame : Frame := .root (.record [("y", .string "c")])
    let head : Path := ⟨.context 0, ["with"], ['w', 'i', 't', 'h'], default⟩
    let x : Expression := .path ⟨.context 0, ["y"], ['y'], default⟩
    let here : Path := ⟨.context 0, ["here"], ['h', 'e', 'r', 'e'], default⟩
    let nodes : List Node := [.output ⟨.path here, ⟨[], []⟩, default⟩ true default]
    let wrapped := Node.block ⟨head, ⟨[x], []⟩, default⟩ false (liftNodes engine 0 nodes) none default
    engine.config.unresolved = .empty ∧ StructuredNodes engine nodes ∧ head.helperName = some "with" ∧
      engine.blockHelper? "with" = some Builtin.withHelper ∧
      (scene.evaluate frame x).outcome = .ok (.string "c") ∧ (Value.string "c").isTruthy ∧
      (scene.renderNode wrapped frame).outcome = .ok () ∧ (scene.renderNodes nodes frame).outcome = .ok () ∧
      textOf (scene.renderNode wrapped frame).events = "c" ∧ textOf (scene.renderNodes nodes frame).events ≠ "c" := by
  intro engine scene frame head x here nodes wrapped
  have htree : StructuredNodes engine nodes := by
    simp [nodes, StructuredNodes, Node.Structured]
  have hwrapped : textOf (scene.renderNode wrapped frame).events = "c" := by decide +kernel
  have hnodes : textOf (scene.renderNodes nodes frame).events ≠ "c" := by decide +kernel
  exact ⟨rfl, htree, rfl, rfl, rfl, rfl, rfl, rfl, hwrapped, hnodes⟩

end Scene

end Curly
