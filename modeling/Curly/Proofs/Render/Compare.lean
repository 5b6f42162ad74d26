import Curly.Proofs.Grammar.Alike
import Curly.Rendering

/-!
# Comparing renderings

A relation between runs that is kept by the ways in which rendering puts runs
together is kept by rendering: trees that are alike render to runs that are
related (`AlikeNodes.render`). Two such relations are of use. One is equality up
to what failures tell besides their cause (`Run.Same`). The other looks at
successes only: where the first run succeeds, the second does with the same
value and the same text (`Run.Refines`).
-/

namespace Curly

structure Comparison (rel : ∀ α : Type, Run α → Run α → Prop) : Prop where
  refl : ∀ {α : Type} (r : Run α), rel α r r
  bind : ∀ {α β : Type} {r r' : Run α} {f f' : α → Run β},
    rel α r r' → (∀ a, rel β (f a) (f' a)) → rel β (r >>= f) (r' >>= f')
  capture : ∀ {r r' : Run Unit}, rel Unit r r' → rel String r.capture r'.capture
  mapError : ∀ {α : Type} {r r' : Run α} {f f' : Diagnostic → Diagnostic}, (∀ d, (f d).cause = d.cause) →
    (∀ d, (f' d).cause = d.cause) → rel α r r' → rel α (r.mapError f) (r'.mapError f')
  within : ∀ {α : Type} {r r' : Run α} (name : String), rel α r r' → rel α (r.within name) (r'.within name)

namespace Run

variable {α β : Type}

/-! ## Equality up to causes -/

/-- The outcome, with the cause of a failure alone. -/
def result (r : Run α) : Except Diagnostic.Cause α :=
  r.outcome.mapError Diagnostic.cause

def Same (α : Type) (r r' : Run α) : Prop :=
  r.events = r'.events ∧ r.result = r'.result

theorem result_mapError {f : Diagnostic → Diagnostic} (hf : ∀ d, (f d).cause = d.cause) (r : Run α) :
    (r.mapError f).result = r.result := by
  rcases r with ⟨es, d | a⟩
  · exact congrArg Except.error (hf d)
  · rfl

theorem Same.comparison : Comparison Same where
  refl r := ⟨rfl, rfl⟩
  bind := by
    rintro α β ⟨es, o⟩ ⟨es', o'⟩ f f' ⟨hes, hr⟩ hf
    cases o with
    | error d =>
      cases o' with
      | error d' => exact ⟨hes, congrArg Except.error (Except.error.inj hr)⟩
      | ok a' => cases hr
    | ok a =>
      cases o' with
      | error d' => cases hr
      | ok a' =>
        obtain rfl := Except.ok.inj hr
        exact ⟨congrArg₂ (· ++ ·) hes (hf a).1, (hf a).2⟩
  capture := by
    rintro ⟨es, o⟩ ⟨es', o'⟩ ⟨rfl, hr⟩
    refine ⟨rfl, ?_⟩
    cases o <;> cases o' <;> simp_all [result, Run.capture, Except.map, Except.mapError]
  mapError hf hf' h := ⟨h.1, (result_mapError hf _).trans (h.2.trans (result_mapError hf' _).symm)⟩
  within name h := ⟨by simp [Run.within, h.1], h.2⟩

/-! ## Successes -/

/-- Where the first run succeeds, so does the second, with the same value and text. -/
def Refines (α : Type) (r r' : Run α) : Prop :=
  ∀ a, r.outcome = .ok a → r'.outcome = .ok a ∧ textOf r'.events = textOf r.events

theorem textOf_append (a b : List Event) : textOf (a ++ b) = textOf a ++ textOf b := by
  simp [textOf]

theorem textOf_capture (r : Run Unit) : textOf r.capture.events = "" := by
  have h : r.capture.events.filterMap Event.written? = [] := by
    rw [List.filterMap_eq_nil_iff]
    intro e he
    simpa using (List.mem_filter.mp he).2
  rw [textOf, h]
  rfl

theorem textOf_within (r : Run α) (name : String) : textOf (r.within name).events = textOf r.events := by
  simp only [textOf, Run.within, List.cons_append, List.filterMap_cons, List.filterMap_append, Event.written?,
    List.filterMap_nil, List.append_nil]

theorem mapError_ok {r : Run α} {f : Diagnostic → Diagnostic} {a : α} :
    (r.mapError f).outcome = .ok a ↔ r.outcome = .ok a := by
  rcases r with ⟨es, d | a'⟩ <;> simp [Run.mapError, Except.mapError]

theorem ok_of_toOption {r : Run α} {a : α} (h : r.outcome.toOption = some a) : r.outcome = .ok a := by
  rcases r with ⟨es, d | a'⟩
  · cases h
  · exact congrArg Except.ok (Option.some.inj h)

theorem Refines.comparison : Comparison Refines where
  refl r a h := ⟨h, rfl⟩
  bind := by
    rintro α β ⟨es, o⟩ ⟨es', o'⟩ f f' h hf b hb
    cases o with
    | error d => cases hb
    | ok a =>
      obtain ⟨ho, hes⟩ := h a rfl
      obtain ⟨ho', hes'⟩ := hf a b hb
      subst ho
      exact ⟨ho', by simp only [bind_ok, textOf_append, hes, hes']⟩
  capture := by
    intro r r' h s hs
    cases ho : r.outcome with
    | error d => simp [Run.capture, ho, Except.map] at hs
    | ok a =>
      obtain ⟨ho', htext⟩ := h a ho
      refine ⟨?_, by rw [textOf_capture, textOf_capture]⟩
      simpa [Run.capture, ho, ho', Except.map, htext] using hs
  mapError := by
    intro α r r' f f' _ _ h a ha
    obtain ⟨ho, htext⟩ := h a (mapError_ok.mp ha)
    exact ⟨mapError_ok.mpr ho, htext⟩
  within := by
    intro α r r' name h a ha
    obtain ⟨ho, htext⟩ := h a ha
    exact ⟨ho, by rw [textOf_within, textOf_within, htext]⟩

theorem Refines.of_error {r r' : Run α} {d : Diagnostic} (h : r.outcome = .error d) : Refines α r r' := by
  intro a ha
  rw [h] at ha
  cases ha

end Run

/-! ## Helpers -/

variable {rel : ∀ α : Type, Run α → Run α → Prop}

def RelBranch (rel : ∀ α : Type, Run α → Run α → Prop) (b b' : Frame → Run Unit) : Prop :=
  ∀ frame, rel Unit (b frame) (b' frame)

def BlockHelper.Keeps (rel : ∀ α : Type, Run α → Run α → Prop) (helper : BlockHelper) : Prop :=
  ∀ frame named body body' inverse inverse' v arguments, RelBranch rel body body' →
    Option.Rel (RelBranch rel) inverse inverse' →
    rel Unit (helper ⟨frame, named, body, inverse⟩ v arguments) (helper ⟨frame, named, body', inverse'⟩ v arguments)

namespace Comparison

theorem renderIn (c : Comparison rel) {b b' : Option (Frame → Run Unit)} (h : Option.Rel (RelBranch rel) b b')
    (frame : Frame) : rel Unit (Block.renderIn frame b) (Block.renderIn frame b') := by
  cases h with
  | some h => exact h frame
  | none => exact c.refl _

theorem renderEntries (c : Comparison rel) (size : Nat) {render render' : Value → Iteration → Run Unit}
    (h : ∀ v i, rel Unit (render v i) (render' v i)) (index : Nat) (entries : List (Value × Value)) :
    rel Unit (Builtin.renderEntries size render index entries) (Builtin.renderEntries size render' index entries) := by
  induction entries generalizing index with
  | nil => exact c.refl _
  | cons e entries ih => exact c.bind (h _ _) fun _ => ih _

theorem ifHelper (c : Comparison rel) : Builtin.ifHelper.Keeps rel := by
  intro frame named body body' inverse inverse' v arguments hbody hinverse
  refine c.bind (c.refl _) fun v => ?_
  split
  · exact hbody _
  · exact c.renderIn hinverse _

theorem unlessHelper (c : Comparison rel) : Builtin.unlessHelper.Keeps rel := by
  intro frame named body body' inverse inverse' v arguments hbody hinverse
  refine c.bind (c.refl _) fun v => ?_
  split
  · exact c.renderIn hinverse _
  · exact hbody _

theorem eachHelper (c : Comparison rel) : Builtin.eachHelper.Keeps rel := by
  intro frame named body body' inverse inverse' v arguments hbody hinverse
  refine c.bind (c.refl _) fun v => ?_
  split
  · exact c.renderEntries _ (fun v i => hbody _) 0 _
  · exact c.renderIn hinverse _

theorem withHelper (c : Comparison rel) : Builtin.withHelper.Keeps rel := by
  intro frame named body body' inverse inverse' v arguments hbody hinverse
  refine c.bind (c.refl _) fun v => ?_
  split
  · exact hbody _
  · exact c.renderIn hinverse _

theorem blockHelper (c : Comparison rel) {engine : Engine} (he : engine.helpers = Builtin.all) {name : String}
    {helper : BlockHelper} (h : engine.blockHelper? name = some helper) : helper.Keeps rel := by
  have hm : (name, .block helper) ∈ Builtin.all := by
    unfold Engine.blockHelper? at h
    rw [he] at h
    split at h
    · rename_i hv
      exact Option.some.inj h ▸ mem_of_valueAt hv
    · cases h
  simp only [Builtin.all, List.mem_cons, Prod.mk.injEq, Registered.block.injEq, reduceCtorEq, and_false,
    List.not_mem_nil, or_false] at hm
  rcases hm with ⟨-, rfl⟩ | ⟨-, rfl⟩ | ⟨-, rfl⟩ | ⟨-, rfl⟩
  · exact c.ifHelper
  · exact c.unlessHelper
  · exact c.eachHelper
  · exact c.withHelper

/-! ## Blocks of paths -/

theorem renderSection (c : Comparison rel) (frame : Frame) (v : Value) {branch branch' : Frame → Run Unit}
    (h : RelBranch rel branch branch') :
    rel Unit (Scene.renderSection frame v branch) (Scene.renderSection frame v branch') := by
  unfold Scene.renderSection
  split
  · exact c.renderEntries _ (fun v i => h _) 0 _
  · exact c.renderEntries _ (fun v i => h _) 0 _
  · exact h _
  · exact h _

theorem renderNegated (c : Comparison rel) (frame : Frame) (v : Value) {body body' : Frame → Run Unit}
    {inverse inverse' : Option (Frame → Run Unit)} (hbody : RelBranch rel body body')
    (hinverse : Option.Rel (RelBranch rel) inverse inverse') :
    rel Unit (Scene.renderNegated frame v body inverse) (Scene.renderNegated frame v body' inverse') := by
  unfold Scene.renderNegated
  split
  · cases hinverse with
    | some h => exact c.renderSection frame v h
    | none => exact c.refl _
  · exact hbody _

end Comparison

/-! ## Scenes -/

/-- Rendering an included template in a scene. -/
def Scene.enter (scene : Scene) (name : String) (template : Template) (frame : Frame) : Run Unit :=
  match scene.included with
  | none => Run.fail (.recursion scene.engine.config.recursionLimit)
  | some render => ((render template frame).mapError (·.named name)).within name

theorem Scene.renderInclusion_eq (scene : Scene) (frame : Frame) (name : PartialName) (context : Option Expression) :
    scene.renderInclusion frame name context = (do
      let name ← scene.partialName frame name
      match scene.engine.included? name with
      | none =>
        if scene.engine.config.tolerateMissing then
          Run.note .trace ("partial `" ++ name ++ "` not found, rendering nothing")
        else Run.fail (.missingPartial name)
      | some template => do
        Run.note .trace ("including partial `" ++ name ++ "`")
        let inner ← scene.inclusionFrame frame context
        scene.enter name template inner) := rfl

/-- Scenes of one engine that treat related regions and what stands for a node in related ways. -/
structure RelScene (rel : ∀ α : Type, Run α → Run α → Prop) (ok : Region → Region → Prop)
    (splice : Node → List Node → Prop) (s s' : Scene) : Prop where
  engine : s'.engine = s.engine
  helpers : s.engine.helpers = Builtin.all
  missing : ∀ {α : Type} {r r' : Region}, ok r r' → rel α (s.missingHelper r) (s'.missingHelper r')
  enter : ∀ name template frame, rel Unit (s.enter name template frame) (s'.enter name template frame)
  splice : ∀ {n : Node} {inner : List Node}, splice n inner → ∀ frame,
    rel Unit (s.renderNode n frame) (s'.renderNodes inner frame)

variable {ok : Region → Region → Prop} {splice : Node → List Node → Prop} {s s' : Scene}

theorem AlikePath.valueOf {p p' : Path} (h : AlikePath ok p p') (frame : Frame) : frame.valueOf p' = frame.valueOf p := by
  cases h
  rfl

theorem AlikeCall.valueOf {call call' : Call Path} (h : AlikeCall ok (AlikePath ok) call call') (frame : Frame) :
    frame.valueOf call'.head = frame.valueOf call.head := by
  cases h with
  | mk hp _ _ => exact hp.valueOf frame

namespace RelScene

theorem pointing (c : Comparison rel) {α : Type} {a a' : Run α} (h : rel α a a') (r r' : Region) :
    rel α (s.pointing r a) (s'.pointing r' a') :=
  c.mapError (fun _ => rfl) (fun _ => rfl) h

theorem helper? (h : RelScene rel ok splice s s') (name : Option String) : s'.helper? name = s.helper? name := by
  unfold Scene.helper?
  rw [h.engine]

theorem callText (c : Comparison rel) (h : RelScene rel ok splice s s') {p p' : Path} (hp : AlikePath ok p p')
    (frame : Frame) (r r' : Region) {a a' : Run Arguments} (ha : rel _ a a') :
    rel _ (s.callText frame p r a) (s'.callText frame p' r' a') := by
  unfold Scene.callText
  rw [h.helper?, hp.helperName]
  cases s.helper? p.helperName with
  | none =>
    cases hp with
    | mk hr => exact h.missing hr
  | some helper => exact c.bind ha fun a => pointing c (c.refl _) r r'

theorem evaluateOperands_of_parts (c : Comparison rel) {o o' : Operands} {frame : Frame}
    (h : rel _ (s.evaluateAll frame o.positional) (s'.evaluateAll frame o'.positional) ∧
      ∀ seen, rel _ (s.evaluateNamed frame seen o.named) (s'.evaluateNamed frame seen o'.named)) :
    rel _ (s.evaluateOperands frame o) (s'.evaluateOperands frame o') := by
  obtain ⟨es, ns⟩ := o
  obtain ⟨es', ns'⟩ := o'
  rw [Scene.evaluateOperands, Scene.evaluateOperands]
  exact c.bind h.1 fun vs => c.bind (h.2 []) fun _ => c.refl _

mutual

theorem evaluate (c : Comparison rel) (h : RelScene rel ok splice s s') {e e' : Expression}
    (he : AlikeExpression ok e e') (frame : Frame) : rel _ (s.evaluate frame e) (s'.evaluate frame e') := by
  match he with
  | .literal _ =>
    rw [Scene.evaluate, Scene.evaluate]
    exact c.refl _
  | .path hp =>
    rw [Scene.evaluate, Scene.evaluate, hp.valueOf]
    exact c.refl _
  | .call hp ho hr =>
    rw [Scene.evaluate, Scene.evaluate]
    have hparts := evaluateParts c h ho frame
    exact c.bind (callText c h hp frame _ _ (evaluateOperands_of_parts c hparts)) fun _ => c.refl _

theorem evaluateParts (c : Comparison rel) (h : RelScene rel ok splice s s') {o o' : Operands}
    (ho : AlikeOperands ok o o') (frame : Frame) :
    rel _ (s.evaluateAll frame o.positional) (s'.evaluateAll frame o'.positional) ∧
      ∀ seen, rel _ (s.evaluateNamed frame seen o.named) (s'.evaluateNamed frame seen o'.named) := by
  match ho with
  | .nil => exact ⟨c.refl _, fun seen => c.refl _⟩
  | .positional he ho =>
    obtain ⟨hall, hnamed⟩ := evaluateParts c h ho frame
    refine ⟨?_, hnamed⟩
    simp only [Scene.evaluateAll]
    exact c.bind (evaluate c h he frame) fun _ => c.bind hall fun _ => c.refl _
  | .named he ho =>
    obtain ⟨hall, hnamed⟩ := evaluateParts c h ho frame
    refine ⟨hall, fun seen => ?_⟩
    simp only [Scene.evaluateNamed]
    exact c.bind (evaluate c h he frame) fun _ => hnamed _

end

theorem evaluateOperands (c : Comparison rel) (h : RelScene rel ok splice s s') {o o' : Operands}
    (ho : AlikeOperands ok o o') (frame : Frame) :
    rel _ (s.evaluateOperands frame o) (s'.evaluateOperands frame o') :=
  evaluateOperands_of_parts c (evaluateParts c h ho frame)

/-! ## Nodes -/

theorem renderUnresolved (c : Comparison rel) (h : RelScene rel ok splice s s') {p p' : Path} (hp : AlikePath ok p p')
    (missing : Frame.Missing) : rel _ (s.renderUnresolved p missing) (s'.renderUnresolved p' missing) := by
  unfold Scene.renderUnresolved
  rw [h.engine]
  cases hp
  split
  · exact c.refl _
  · exact c.refl _
  · exact pointing c (c.refl _) _ _

theorem renderOutput (c : Comparison rel) (h : RelScene rel ok splice s s') {call call' : Call Expression}
    (hc : AlikeCall ok (AlikeExpression ok) call call') (frame : Frame) (escaped : Bool) :
    rel _ (s.renderOutput frame call escaped) (s'.renderOutput frame call' escaped) := by
  cases hc with
  | @mk head head' o o' r r' hh ho hr =>
    have hname : head'.helperName = head.helperName := by
      cases hh with
      | path hp => exact hp.helperName
      | _ => rfl
    unfold Scene.renderOutput
    dsimp only
    rw [h.helper?, hname]
    cases s.helper? head.helperName with
    | some helper => exact c.bind (evaluateOperands c h ho frame) fun a => pointing c (c.refl _) _ _
    | none =>
      dsimp only
      rw [ho.isEmpty]
      split
      · exact h.missing hh.region
      · cases hh with
        | @path p p' hp =>
          have hresolve : frame.resolve p' = frame.resolve p := by
            cases hp
            rfl
          dsimp only
          rw [hresolve]
          cases frame.resolve p with
          | ok v => exact c.refl _
          | error missing => exact renderUnresolved c h hp missing
        | literal hr => exact c.bind (evaluate c h (.literal hr) frame) fun _ => c.refl _
        | call hp ho hr => exact c.bind (evaluate c h (.call hp ho hr) frame) fun _ => c.refl _

theorem renderInclusion (c : Comparison rel) (h : RelScene rel ok splice s s') {name name' : PartialName}
    {context context' : Option Expression} (hn : AlikePartialName ok name name')
    (hc : AlikeContext ok context context') (frame : Frame) :
    rel _ (s.renderInclusion frame name context) (s'.renderInclusion frame name' context') := by
  rw [Scene.renderInclusion_eq, Scene.renderInclusion_eq]
  have hname : rel _ (s.partialName frame name) (s'.partialName frame name') := by
    cases hn with
    | fixed name => exact c.refl _
    | computed hcall =>
      cases hcall with
      | mk hp ho hr => exact callText c h hp frame _ _ (evaluateOperands c h ho frame)
  have hcontext : rel _ (s.inclusionFrame frame context) (s'.inclusionFrame frame context') := by
    cases hc with
    | none => exact c.refl _
    | some he => exact c.bind (evaluate c h he frame) fun _ => c.refl _
  refine c.bind hname fun name => ?_
  rw [h.engine]
  cases s.engine.included? name with
  | none => exact c.refl _
  | some template => exact c.bind (c.refl _) fun _ => c.bind hcontext fun inner => h.enter name template inner

theorem leaf (c : Comparison rel) (h : RelScene rel ok splice s s') {n n' : Node} (hn : AlikeLeaf ok n n')
    (frame : Frame) : rel _ (s.renderNode n frame) (s'.renderNode n' frame) := by
  cases hn with
  | raw _ =>
    rw [Scene.renderNode, Scene.renderNode]
    exact c.refl _
  | output hc _ =>
    rw [Scene.renderNode, Scene.renderNode]
    exact pointing c (renderOutput c h hc frame _) _ _
  | inclusion hn hc _ =>
    rw [Scene.renderNode, Scene.renderNode]
    exact pointing c (renderInclusion c h hn hc frame) _ _

theorem renderBlock (c : Comparison rel) (h : RelScene rel ok splice s s') {call call' : Call Path}
    (hc : AlikeCall ok (AlikePath ok) call call') (frame : Frame) {body body' : Frame → Run Unit}
    {inverse inverse' : Option (Frame → Run Unit)} (hbody : RelBranch rel body body')
    (hinverse : Option.Rel (RelBranch rel) inverse inverse') :
    rel _ (s.renderBlock frame call body inverse) (s'.renderBlock frame call' body' inverse') := by
  cases hc with
  | @mk p p' o o' r r' hp ho hr =>
    unfold Scene.renderBlock
    dsimp only
    rw [h.engine, hp.helperName]
    cases hb : p.helperName.bind s.engine.blockHelper? with
    | some helper =>
      obtain ⟨name, -, hname⟩ := Option.bind_eq_some_iff.mp hb
      exact c.bind (evaluateOperands c h ho frame) fun a =>
        pointing c (c.blockHelper h.helpers hname _ _ _ _ _ _ _ _ hbody hinverse) _ _
    | none =>
      dsimp only
      rw [ho.isEmpty, hp.valueOf]
      split
      · cases hp with
        | mk hr => exact h.missing hr
      · split
        · exact c.renderSection _ _ hbody
        · exact c.renderIn hinverse frame

end RelScene

theorem Scene.renderNodes_append (s : Scene) (a b : List Node) (frame : Frame) :
    s.renderNodes (a ++ b) frame = (s.renderNodes a frame >>= fun _ => s.renderNodes b frame) := by
  induction a with
  | nil => simp [renderNodes]
  | cons n a ih => rw [List.cons_append, renderNodes, renderNodes, ih, bind_assoc]

theorem Scene.renderNodes_singleton (s : Scene) (n : Node) (frame : Frame) :
    s.renderNodes [n] frame = s.renderNode n frame := by
  rw [renderNodes, renderNodes]
  exact bind_pure_unit

mutual

theorem AlikeNode.render (c : Comparison rel) (h : RelScene rel ok splice s s') {n : Node} {inner : List Node}
    (hn : AlikeNode ok splice n inner) (frame : Frame) :
    rel _ (s.renderNode n frame) (s'.renderNodes inner frame) := by
  match hn with
  | .leaf hl =>
    rw [Scene.renderNodes_singleton]
    exact h.leaf c hl frame
  | .splice hs => exact h.splice hs frame
  | .block hc hbody hinverse _ =>
    rw [Scene.renderNodes_singleton, Scene.renderNode, Scene.renderNode]
    refine RelScene.pointing c ?_ _ _
    have hbody' := AlikeNodes.render c h hbody
    have hinverse' := AlikeBranch.render c h hinverse
    split
    · rw [hc.valueOf frame]
      exact c.renderNegated _ _ hbody' hinverse'
    · exact h.renderBlock c hc frame hbody' hinverse'

theorem AlikeNodes.render (c : Comparison rel) (h : RelScene rel ok splice s s') {nodes nodes' : List Node}
    (hn : AlikeNodes ok splice nodes nodes') (frame : Frame) :
    rel _ (s.renderNodes nodes frame) (s'.renderNodes nodes' frame) := by
  match hn with
  | .nil => exact c.refl _
  | .cons hn hrest =>
    rw [Scene.renderNodes_append, Scene.renderNodes]
    exact c.bind (AlikeNode.render c h hn frame) fun _ => AlikeNodes.render c h hrest frame

theorem AlikeBranch.render (c : Comparison rel) (h : RelScene rel ok splice s s')
    {inverse inverse' : Option (List Node)} (hn : AlikeBranch ok splice inverse inverse') :
    Option.Rel (RelBranch rel) (s.renderBranch inverse) (s'.renderBranch inverse') := by
  match hn with
  | .none =>
    rw [Scene.renderBranch, Scene.renderBranch]
    exact .none
  | .some hn =>
    rw [Scene.renderBranch, Scene.renderBranch]
    exact .some fun frame => AlikeNodes.render c h hn frame

end

end Curly
