import Curly.Proofs.Concat
import Curly.Proofs.Render.Work

/-!
# Renders in step

Two engines render the same template. A relation between runs that is kept by the
ways in which rendering puts runs together holds between the two renders if it
holds between the calls of helpers, between what is done about paths that do not
resolve, and between the renders of included templates
(`Scene.InStep.renderNodes`). A property of one render is such a relation, too:
it looks at the first run only.
-/

namespace Curly

/-- Causes of failures that only rendering a path by itself can have. -/
def Diagnostic.Cause.Undefined : Diagnostic.Cause → Prop
  | .undefinedBinding _ _ => True
  | _ => False

/-- A relation that evaluation keeps. -/
structure Congruence (rel : ∀ α : Type, Run α → Run α → Prop) : Prop where
  pure : ∀ {α : Type} (a : α), rel α (pure a) (pure a)
  fail : ∀ {α : Type} {d : Diagnostic}, ¬ d.cause.Undefined → rel α (Run.fail d) (Run.fail d)
  bind : ∀ {α β : Type} {r r' : Run α} {f f' : α → Run β},
    rel α r r' → (∀ a, rel β (f a) (f' a)) → rel β (r >>= f) (r' >>= f')
  mapError : ∀ {α : Type} {r r' : Run α} {f : Diagnostic → Diagnostic}, (∀ d, (f d).cause = d.cause) →
    rel α r r' → rel α (r.mapError f) (r'.mapError f)

/-- A relation that rendering keeps. -/
structure RenderCongruence (rel : ∀ α : Type, Run α → Run α → Prop) : Prop extends Congruence rel where
  write : ∀ texts : List String, rel Unit ⟨texts.map .write, .ok ()⟩ ⟨texts.map .write, .ok ()⟩
  note : ∀ severity message, rel Unit (Run.note severity message) (Run.note severity message)
  within : ∀ {r r' : Run Unit} (name : String), rel Unit r r' → rel Unit (r.within name) (r'.within name)

namespace Scene

/-- Scenes of one source in which helpers give related texts. -/
structure Matches (rel : ∀ α : Type, Run α → Run α → Prop) (s s' : Scene) : Prop where
  source : s'.source = s.source
  text : ∀ name, Option.Rel (fun h h' : Helper => ∀ v arguments, rel String (h v arguments).capture
    (h' v arguments).capture) (s.engine.helper? name) (s'.engine.helper? name)

/-- Scenes in which the steps of a render are related. -/
structure InStep (rel : ∀ α : Type, Run α → Run α → Prop) (s s' : Scene) : Prop extends Matches rel s s' where
  builtin : s.engine.helpers = Builtin.all
  builtin' : s'.engine.helpers = Builtin.all
  included : ∀ name, s'.engine.included? name = s.engine.included? name
  tolerate : s'.engine.config.tolerateMissing = s.engine.config.tolerateMissing
  helper : ∀ name, Option.Rel (fun h h' : Helper => ∀ v arguments, rel Unit (h v arguments) (h' v arguments))
    (s.engine.helper? name) (s'.engine.helper? name)
  unresolved : ∀ p missing, rel Unit (s.renderUnresolved p missing) (s'.renderUnresolved p missing)
  enter : ∀ name template frame, rel Unit (s.enter name template frame) (s'.enter name template frame)

variable {rel : ∀ α : Type, Run α → Run α → Prop} {s s' : Scene}

theorem rel_helper? {R : Helper → Helper → Prop}
    (h : ∀ name, Option.Rel R (s.engine.helper? name) (s'.engine.helper? name)) (name : Option String) :
    Option.Rel R (s.helper? name) (s'.helper? name) := by
  cases name with
  | none => exact .none
  | some name => exact h name

/-! ## Evaluation -/

namespace Matches

theorem pointing (c : Congruence rel) (h : Matches rel s s') {α : Type} {r r' : Run α} (hr : rel α r r')
    (region : Region) : rel α (s.pointing region r) (s'.pointing region r') := by
  unfold Scene.pointing
  rw [h.source]
  exact c.mapError (fun _ => rfl) hr

theorem missingHelper (c : Congruence rel) (h : Matches rel s s') {α : Type} (region : Region) :
    rel α (s.missingHelper region) (s'.missingHelper region) := by
  unfold Scene.missingHelper
  rw [h.source]
  exact h.pointing c (c.fail id) region

theorem callText (c : Congruence rel) (h : Matches rel s s') (frame : Frame) (callee : Path) (region : Region)
    {a a' : Run Arguments} (ha : rel Arguments a a') :
    rel String (s.callText frame callee region a) (s'.callText frame callee region a') := by
  have hhelper := rel_helper? h.text callee.helperName
  unfold Scene.callText
  generalize s.helper? callee.helperName = helper at hhelper ⊢
  generalize s'.helper? callee.helperName = helper' at hhelper ⊢
  cases hhelper with
  | none => exact h.missingHelper c _
  | some hhelper => exact c.bind ha fun arguments => h.pointing c (hhelper _ _) region

mutual

theorem evaluate (c : Congruence rel) (h : Matches rel s s') (frame : Frame) :
    ∀ e, rel Value (s.evaluate frame e) (s'.evaluate frame e)
  | .literal _ _ => by
    rw [Scene.evaluate, Scene.evaluate]
    exact c.pure _
  | .path _ => by
    rw [Scene.evaluate, Scene.evaluate]
    exact c.pure _
  | .call callee operands region => by
    have ho := evaluateOperands c h frame operands
    rw [Scene.evaluate, Scene.evaluate]
    exact c.bind (callText c h frame callee region ho) fun _ => c.pure _

theorem evaluateOperands (c : Congruence rel) (h : Matches rel s s') (frame : Frame) :
    ∀ o, rel Arguments (s.evaluateOperands frame o) (s'.evaluateOperands frame o)
  | ⟨positional, named⟩ => by
    have hp := evaluateAll c h frame positional
    have hn := evaluateNamed c h frame named
    rw [Scene.evaluateOperands, Scene.evaluateOperands]
    exact c.bind hp fun _ => c.bind (hn []) fun _ => c.pure _

theorem evaluateAll (c : Congruence rel) (h : Matches rel s s') (frame : Frame) :
    ∀ es, rel (List Value) (s.evaluateAll frame es) (s'.evaluateAll frame es)
  | [] => by
    rw [Scene.evaluateAll, Scene.evaluateAll]
    exact c.pure _
  | e :: es => by
    have hhead := evaluate c h frame e
    have htail := evaluateAll c h frame es
    rw [Scene.evaluateAll, Scene.evaluateAll]
    exact c.bind hhead fun _ => c.bind htail fun _ => c.pure _

theorem evaluateNamed (c : Congruence rel) (h : Matches rel s s') (frame : Frame) :
    ∀ es seen, rel (List (String × Value)) (s.evaluateNamed frame seen es) (s'.evaluateNamed frame seen es)
  | [], _ => by
    rw [Scene.evaluateNamed, Scene.evaluateNamed]
    exact c.pure _
  | (_, e) :: es, _ => by
    have hhead := evaluate c h frame e
    have htail := evaluateNamed c h frame es
    rw [Scene.evaluateNamed, Scene.evaluateNamed]
    exact c.bind hhead fun _ => htail _

end

end Matches

theorem textOf_congruence : Congruence fun _ r _ => textOf r.events = "" where
  pure _ := rfl
  fail _ := rfl
  bind := by
    rintro α β ⟨es, d | a⟩ r' f f' h hf
    · exact h
    · show textOf (es ++ (f a).events) = ""
      rw [Run.textOf_append, show textOf es = "" from h, hf a]
      rfl
  mapError _ h := h

/-- Whatever helpers there are, what they write inside a tag goes into values, and nowhere else. -/
theorem textOf_evaluate (scene : Scene) (frame : Frame) (e : Expression) :
    textOf (scene.evaluate frame e).events = "" := by
  have hmatches : Matches (fun _ r _ => textOf r.events = "") scene scene := by
    refine ⟨rfl, fun name => ?_⟩
    cases scene.engine.helper? name with
    | none => exact .none
    | some helper => exact .some fun v arguments => Run.textOf_capture _
  exact hmatches.evaluate textOf_congruence frame e

/-! ## Steps -/

namespace InStep

theorem plan (c : Congruence rel) (h : InStep rel s s') (frame : Frame) (call : Call Path) (negated : Bool) :
    rel Plan (s.plan frame call negated) (s'.plan frame call negated) := by
  unfold Scene.plan
  cases negated with
  | true => exact c.pure _
  | false =>
    rw [if_neg Bool.false_ne_true, if_neg Bool.false_ne_true]
    cases hplan : call.head.helperName.bind Plan.builtin? with
    | some plan =>
      obtain ⟨name, -, hname⟩ := Option.bind_eq_some_iff.mp hplan
      refine c.bind (h.evaluateOperands c frame _) fun arguments => h.pointing c ?_ _
      cases ho : plan frame arguments with
      | ok plan => exact c.pure plan
      | error d =>
        obtain ⟨_, _, _, rfl⟩ := Plan.builtin?_error hname ho
        exact c.fail id
    | none =>
      dsimp only
      split
      · exact h.missingHelper c _
      · exact c.pure _

theorem target (c : RenderCongruence rel) (h : InStep rel s s') (frame : Frame) (name : PartialName)
    (context : Option Expression) : rel (Option Found) (s.target frame name context) (s'.target frame name context) := by
  have hname : rel String (s.partialName frame name) (s'.partialName frame name) := by
    cases name with
    | fixed name => exact c.pure _
    | computed call => exact h.callText c.toCongruence frame _ _ (h.evaluateOperands c.toCongruence frame _)
  have hcontext : rel Frame (s.inclusionFrame frame context) (s'.inclusionFrame frame context) := by
    cases context with
    | none => exact c.pure _
    | some e => exact c.bind (h.evaluate c.toCongruence frame e) fun _ => c.pure _
  refine c.bind hname fun name => ?_
  rw [h.included, h.tolerate]
  cases s.engine.included? name with
  | none =>
    dsimp only
    split
    · exact c.bind (c.note _ _) fun _ => c.pure _
    · exact c.fail id
  | some template => exact c.bind (c.note _ _) fun _ => c.bind hcontext fun _ => c.pure _

theorem renderOutput (c : RenderCongruence rel) (h : InStep rel s s') (frame : Frame) (call : Call Expression)
    (escaped : Bool) : rel Unit (s.renderOutput frame call escaped) (s'.renderOutput frame call escaped) := by
  have hvalue : ∀ v, rel Unit (writeValue v escaped) (writeValue v escaped) := fun v => by
    cases escaped with
    | true => exact c.write _
    | false => exact c.write [v.text]
  have hhelper := rel_helper? h.helper call.head.helperName
  unfold Scene.renderOutput
  generalize s.helper? call.head.helperName = helper at hhelper ⊢
  generalize s'.helper? call.head.helperName = helper' at hhelper ⊢
  cases hhelper with
  | some hhelper =>
    exact c.bind (h.evaluateOperands c.toCongruence frame _) fun _ => h.pointing c.toCongruence (hhelper _ _) _
  | none =>
    dsimp only
    split
    · exact h.missingHelper c.toCongruence _
    · split
      · split
        · exact hvalue _
        · exact h.unresolved _ _
      · exact c.bind (h.evaluate c.toCongruence frame _) hvalue

/-! ## Nodes -/

theorem forM (c : RenderCongruence rel) {branch branch' : Frame → Run Unit} (h : RelBranch rel branch branch')
    (frames : List Frame) : rel Unit (forM frames branch) (forM frames branch') := by
  induction frames with
  | nil => exact c.pure ()
  | cons frame frames ih =>
    rw [List.forM_cons, List.forM_cons]
    exact c.bind (h frame) fun _ => ih

theorem render (c : RenderCongruence rel) {body body' : Frame → Run Unit} {inverse inverse' : Option (Frame → Run Unit)}
    (hbody : RelBranch rel body body') (hinverse : Option.Rel (RelBranch rel) inverse inverse') (plan : Plan) :
    rel Unit (plan.render body inverse) (plan.render body' inverse') := by
  unfold Plan.render
  cases plan.branch with
  | body => exact forM c hbody _
  | inverse =>
    refine forM c (fun frame => ?_) _
    cases hinverse with
    | none => exact c.pure ()
    | some hinverse => exact hinverse frame

mutual

theorem renderNode (c : RenderCongruence rel) (h : InStep rel s s') :
    ∀ node frame, rel Unit (s.renderNode node frame) (s'.renderNode node frame)
  | .raw text region, frame => by
    rw [Scene.renderNode, Scene.renderNode]
    exact c.write [text]
  | .output call escaped region, frame => by
    rw [Scene.renderNode, Scene.renderNode]
    exact h.pointing c.toCongruence (h.renderOutput c frame call escaped) region
  | .block call negated body inverse region, frame => by
    have hbody := renderNodes c h body
    have hinverse := renderBranch c h inverse
    rw [Scene.renderNode_block h.builtin, Scene.renderNode_block h.builtin']
    refine c.bind (h.pointing c.toCongruence (h.plan c.toCongruence frame call negated) region) fun plan => ?_
    rw [renderWork_ofPlan, renderWork_ofPlan]
    exact render c hbody hinverse plan
  | .inclusion name context region, frame => by
    rw [Scene.renderNode, Scene.renderNode, renderInclusion_target, renderInclusion_target]
    refine h.pointing c.toCongruence (c.bind (h.target c frame name context) fun found => ?_) region
    cases found with
    | none => exact c.pure ()
    | some found => exact h.enter found.name found.template found.frame

theorem renderNodes (c : RenderCongruence rel) (h : InStep rel s s') :
    ∀ nodes frame, rel Unit (s.renderNodes nodes frame) (s'.renderNodes nodes frame)
  | [], frame => by
    rw [Scene.renderNodes, Scene.renderNodes]
    exact c.pure ()
  | node :: nodes, frame => by
    have hnode := renderNode c h node frame
    have hnodes := renderNodes c h nodes frame
    rw [Scene.renderNodes, Scene.renderNodes]
    exact c.bind hnode fun _ => hnodes

theorem renderBranch (c : RenderCongruence rel) (h : InStep rel s s') :
    ∀ inverse, Option.Rel (RelBranch rel) (s.renderBranch inverse) (s'.renderBranch inverse)
  | none => by
    rw [Scene.renderBranch, Scene.renderBranch]
    exact .none
  | some nodes => by
    have hnodes := renderNodes c h nodes
    rw [Scene.renderBranch, Scene.renderBranch]
    exact .some hnodes

end

end InStep

end Scene

/-! ## Engines -/

namespace Engine

/-- Engines that take each step in related ways, apart from how deep they let inclusions nest. -/
structure InStep (rel : ∀ α : Type, Run α → Run α → Prop) (e e' : Engine) : Prop where
  builtin : e.helpers = Builtin.all
  builtin' : e'.helpers = Builtin.all
  included : ∀ name, e'.included? name = e.included? name
  tolerate : e'.config.tolerateMissing = e.config.tolerateMissing
  text : ∀ name, Option.Rel (fun h h' : Helper => ∀ v arguments, rel String (h v arguments).capture
    (h' v arguments).capture) (e.helper? name) (e'.helper? name)
  helper : ∀ name, Option.Rel (fun h h' : Helper => ∀ v arguments, rel Unit (h v arguments) (h' v arguments))
    (e.helper? name) (e'.helper? name)
  unresolved : ∀ template depth depth' p missing,
    rel Unit ((e.scene depth template).renderUnresolved p missing) ((e'.scene depth' template).renderUnresolved p missing)

variable {rel : ∀ α : Type, Run α → Run α → Prop} {e e' : Engine}

theorem InStep.scene (h : InStep rel e e') {depth depth' : Nat} {template : Template}
    (henter : ∀ name inner frame, rel Unit ((e.scene depth template).enter name inner frame)
      ((e'.scene depth' template).enter name inner frame)) :
    Scene.InStep rel (e.scene depth template) (e'.scene depth' template) where
  source := rfl
  text := h.text
  builtin := h.builtin
  builtin' := h.builtin'
  included := h.included
  tolerate := h.tolerate
  helper := h.helper
  unresolved := h.unresolved template depth depth'
  enter := henter

def withConfig (engine : Engine) (config : Config) : Engine :=
  { engine with config := config }

/-- Settings may differ, apart from those that helpers and inclusions go by. -/
theorem inStep_withConfig (hrefl : ∀ {α : Type} (r : Run α), rel α r r) {engine : Engine}
    (he : engine.helpers = Builtin.all) {config config' : Config} (hlevel : config'.logLevel = config.logLevel)
    (htolerate : config'.tolerateMissing = config.tolerateMissing)
    (hunresolved : ∀ template depth depth' p missing,
      rel Unit (((engine.withConfig config).scene depth template).renderUnresolved p missing)
        (((engine.withConfig config').scene depth' template).renderUnresolved p missing)) :
    InStep rel (engine.withConfig config) (engine.withConfig config') := by
  have hhelper : ∀ name, (engine.withConfig config').helper? name = (engine.withConfig config).helper? name := by
    intro name
    unfold helper? withConfig
    rw [hlevel]
  refine ⟨he, he, fun _ => rfl, htolerate, fun name => ?_, fun name => ?_, hunresolved⟩
  all_goals
    rw [hhelper]
    cases (engine.withConfig config).helper? name with
    | none => exact .none
    | some helper => exact .some fun _ _ => hrefl _

theorem InStep.renderTemplate (c : RenderCongruence rel) (h : InStep rel e e')
    (hlimit : e'.config.recursionLimit = e.config.recursionLimit) (depth : Nat) :
    ∀ template frame, rel Unit (e.renderTemplate depth template frame) (e'.renderTemplate depth template frame) := by
  induction depth with
  | zero =>
    intro template frame
    rw [renderTemplate_eq, renderTemplate_eq]
    refine c.mapError (Diagnostic.cause_inside _) (Scene.InStep.renderNodes c (h.scene fun name inner frame => ?_) _ _)
    show rel Unit (Run.fail (.recursion _)) (Run.fail (.recursion _))
    rw [show (e'.scene 0 template).engine.config.recursionLimit = _ from hlimit]
    exact c.fail id
  | succ depth ih =>
    intro template frame
    rw [renderTemplate_eq, renderTemplate_eq]
    refine c.mapError (Diagnostic.cause_inside _) (Scene.InStep.renderNodes c (h.scene fun name inner frame => ?_) _ _)
    exact c.within name (c.mapError (fun _ => rfl) (ih inner frame))

end Engine

/-! ## Runs that differ only where the first fails -/

namespace Run

/-- The runs are the same, unless the first fails for one of the causes. -/
def Unless (causes : Diagnostic.Cause → Prop) (α : Type) (r r' : Run α) : Prop :=
  r = r' ∨ ∃ d, r.outcome = .error d ∧ causes d.cause

variable {causes : Diagnostic.Cause → Prop}

theorem Unless.refl {α : Type} (r : Run α) : Unless causes α r r :=
  .inl rfl

theorem Unless.mapError {α : Type} {r r' : Run α} {f : Diagnostic → Diagnostic} (hf : ∀ d, (f d).cause = d.cause)
    (h : Unless causes α r r') : Unless causes α (r.mapError f) (r'.mapError f) := by
  rcases h with rfl | ⟨d, hd, hcause⟩
  · exact .refl _
  · exact .inr ⟨f d, by rw [Run.mapError, hd]; rfl, by rwa [hf]⟩

theorem Unless.capture {r r' : Run Unit} (h : Unless causes Unit r r') : Unless causes String r.capture r'.capture := by
  rcases h with rfl | ⟨d, hd, hcause⟩
  · exact .refl _
  · exact .inr ⟨d, by rw [Run.capture, hd]; rfl, hcause⟩

theorem Unless.congruence (causes : Diagnostic.Cause → Prop) : RenderCongruence (Unless causes) where
  pure _ := .refl _
  fail _ := .refl _
  bind := by
    rintro α β r r' f f' (rfl | ⟨d, hd, hcause⟩) hf
    · rcases r with ⟨es, d | a⟩
      · exact .refl _
      · rcases hf a with ha | ⟨d, hd, hcause⟩
        · exact .inl (by rw [bind_ok, bind_ok, ha])
        · exact .inr ⟨d, hd, hcause⟩
    · rcases r with ⟨es, o⟩
      obtain rfl : o = .error d := hd
      exact .inr ⟨d, rfl, hcause⟩
  mapError hf h := h.mapError hf
  write _ := .refl _
  note _ _ := .refl _
  within := by
    rintro r r' name (rfl | h)
    · exact .refl _
    · exact .inr h

end Run

/-! ## Runs that differ in some events -/

namespace Run

/-- The runs have the same outcome, and through one view of events each show the same. -/
def Seen (view view' : Event → Option Event) (α : Type) (r r' : Run α) : Prop :=
  r.outcome = r'.outcome ∧ r.events.filterMap view = r'.events.filterMap view'

variable {view view' : Event → Option Event}

/-- What rendering does besides calling helpers looks the same through both views if they differ in the messages of
templates alone. -/
theorem Seen.congruence (h : ∀ e, e.logged? .messages = none → view e = view' e) :
    RenderCongruence (Seen view view') where
  pure _ := ⟨rfl, rfl⟩
  fail _ := ⟨rfl, rfl⟩
  bind := by
    rintro α β ⟨es, o⟩ ⟨es', o'⟩ f f' ⟨ho, hes⟩ hf
    obtain rfl : o = o' := ho
    cases o with
    | error d => exact ⟨rfl, hes⟩
    | ok a =>
      obtain ⟨ho, hevents⟩ := hf a
      refine ⟨ho, ?_⟩
      rw [bind_ok, bind_ok]
      simp only [List.filterMap_append]
      exact congrArg₂ (· ++ ·) hes hevents
  mapError _ h := ⟨congrArg (Except.mapError _) h.1, h.2⟩
  write texts := by
    refine ⟨rfl, List.filterMap_congr fun e he => ?_⟩
    obtain ⟨text, -, rfl⟩ := List.mem_map.mp he
    exact h _ rfl
  note severity message := by
    refine ⟨rfl, List.filterMap_congr fun e he => ?_⟩
    obtain rfl := List.mem_singleton.mp he
    exact h _ rfl
  within := by
    rintro r r' name ⟨ho, hes⟩
    refine ⟨ho, ?_⟩
    have hsplit : ∀ r : Run Unit, (r.within name).events = [.enter name] ++ r.events ++ [.leave] := fun _ => rfl
    have henter : view (.enter name) = view' (.enter name) := h _ rfl
    have hleave : view .leave = view' .leave := h _ rfl
    rw [hsplit, hsplit]
    simp only [List.filterMap_append, List.filterMap_cons, List.filterMap_nil, hes, henter, hleave]

end Run

end Curly
