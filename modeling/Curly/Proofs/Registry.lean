import Curly.Proofs.Concat
import Curly.Proofs.Lift.Render

/-!
# Names in use

A render looks helpers up under the plain names that head the calls of its
template, and of those that the template may include. So engines that hold the
same under these names render alike, whatever else was registered with them and
in whatever order (`Engine.render_registered`).
-/

namespace Curly

/-! ## Names -/

def PartialName.callees : PartialName → List String
  | .fixed _ => []
  | .computed call => call.head.helperName.toList ++ call.operands.callees

mutual

/-- The plain names that head the calls of a node. -/
def Node.heads : Node → List String
  | .raw _ _ => []
  | .output call _ _ => call.head.helperName.toList ++ (call.head.callees ++ call.operands.callees)
  | .block call _ body inverse _ =>
    call.head.helperName.toList ++ (call.operands.callees ++ (headsOfNodes body ++ headsOfBranch inverse))
  | .inclusion name context _ => name.callees ++ (context.map Expression.callees).getD []

def headsOfNodes : List Node → List String
  | [] => []
  | node :: nodes => node.heads ++ headsOfNodes nodes

def headsOfBranch : Option (List Node) → List String
  | none => []
  | some nodes => headsOfNodes nodes

end

def Template.heads (t : Template) : List String :=
  headsOfNodes t.nodes

/-- The name heads a call of the template, or of one that can be included. -/
def Engine.Uses (engine : Engine) (t : Template) (name : String) : Prop :=
  name ∈ t.heads ∨ ∃ n inner, engine.included? n = some inner ∧ name ∈ inner.heads

/-! ## Rendering with other helpers -/

/-- The engines differ in nothing but helpers, and not in those of the names. -/
structure Engine.AgreeOn (names : String → Prop) (e e' : Engine) : Prop where
  config : e'.config = e.config
  included : ∀ name, e'.included? name = e.included? name
  helper : ∀ name, names name → e'.helper? name = e.helper? name
  blockHelper : ∀ name, names name → e'.blockHelper? name = e.blockHelper? name

structure Scene.AgreeOn (names : String → Prop) (s s' : Scene) : Prop where
  engine : s.engine.AgreeOn names s'.engine
  template : s'.template = s.template
  /-- Included templates are rendered alike, if they are such as can be included. -/
  enter : ∀ name inner, s.engine.included? name = some inner → s'.included.map (· inner) = s.included.map (· inner)

namespace Scene.AgreeOn

variable {names : String → Prop} {s s' : Scene}

theorem pointing (h : s.AgreeOn names s') {α : Type} (region : Region) (r : Run α) :
    s'.pointing region r = s.pointing region r := by
  rw [Scene.pointing, Scene.pointing, Scene.source, Scene.source, h.template]

theorem missingHelper (h : s.AgreeOn names s') {α : Type} (region : Region) :
    s'.missingHelper (α := α) region = s.missingHelper region := by
  rw [Scene.missingHelper, Scene.missingHelper, h.pointing, Scene.source, Scene.source, h.template]

theorem helper? (h : s.AgreeOn names s') {name : Option String} (hname : ∀ n ∈ name.toList, names n) :
    s'.helper? name = s.helper? name := by
  cases name with
  | none => rfl
  | some n => exact h.engine.helper n (hname n (List.mem_singleton_self n))

theorem blockHelper? (h : s.AgreeOn names s') {name : Option String} (hname : ∀ n ∈ name.toList, names n) :
    name.bind s'.engine.blockHelper? = name.bind s.engine.blockHelper? := by
  cases name with
  | none => rfl
  | some n => exact h.engine.blockHelper n (hname n (List.mem_singleton_self n))

theorem callText (h : s.AgreeOn names s') {callee : Path} (hcallee : ∀ n ∈ callee.helperName.toList, names n)
    (frame : Frame) (region : Region) (arguments : Run Arguments) :
    s'.callText frame callee region arguments = s.callText frame callee region arguments := by
  simp only [Scene.callText, h.helper? hcallee, h.missingHelper, h.pointing]

/-! ### Expressions -/

mutual

theorem evaluate (h : s.AgreeOn names s') (frame : Frame) :
    ∀ e : Expression, (∀ n ∈ e.callees, names n) → s'.evaluate frame e = s.evaluate frame e
  | .literal value region, _ => by
    rw [Scene.evaluate, Scene.evaluate]
  | .path p, _ => by
    rw [Scene.evaluate, Scene.evaluate]
  | .call callee operands region, hnames => by
    rw [Expression.callees] at hnames
    obtain ⟨hcallee, hoperands⟩ := List.forall_mem_append.mp hnames
    have ho := evaluateOperands h frame operands hoperands
    rw [Scene.evaluate, Scene.evaluate, ho, h.callText hcallee]

theorem evaluateOperands (h : s.AgreeOn names s') (frame : Frame) :
    ∀ o : Operands, (∀ n ∈ o.callees, names n) → s'.evaluateOperands frame o = s.evaluateOperands frame o
  | ⟨positional, named⟩, hnames => by
    rw [Operands.callees] at hnames
    obtain ⟨hpositional, hnamed⟩ := List.forall_mem_append.mp hnames
    have hp := evaluateAll h frame positional hpositional
    have hn := evaluateNamed h frame named hnamed
    rw [Scene.evaluateOperands, Scene.evaluateOperands, hp, hn []]

theorem evaluateAll (h : s.AgreeOn names s') (frame : Frame) :
    ∀ es : List Expression, (∀ n ∈ calleesOfAll es, names n) → s'.evaluateAll frame es = s.evaluateAll frame es
  | [], _ => by
    rw [Scene.evaluateAll, Scene.evaluateAll]
  | e :: es, hnames => by
    rw [calleesOfAll] at hnames
    obtain ⟨he, hes⟩ := List.forall_mem_append.mp hnames
    have hhead := evaluate h frame e he
    have htail := evaluateAll h frame es hes
    rw [Scene.evaluateAll, Scene.evaluateAll, hhead, htail]

theorem evaluateNamed (h : s.AgreeOn names s') (frame : Frame) :
    ∀ es : List (String × Expression), (∀ n ∈ calleesOfNamed es, names n) →
      ∀ seen, s'.evaluateNamed frame seen es = s.evaluateNamed frame seen es
  | [], _, seen => by
    rw [Scene.evaluateNamed, Scene.evaluateNamed]
  | (name, e) :: es, hnames, seen => by
    rw [calleesOfNamed] at hnames
    obtain ⟨he, hes⟩ := List.forall_mem_append.mp hnames
    have hhead := evaluate h frame e he
    have htail := evaluateNamed h frame es hes
    rw [Scene.evaluateNamed, Scene.evaluateNamed, hhead]
    congr 1
    funext v
    exact htail _

end

/-! ### Nodes -/

theorem renderUnresolved (h : s.AgreeOn names s') (p : Path) (missing : Frame.Missing) :
    s'.renderUnresolved p missing = s.renderUnresolved p missing := by
  simp only [Scene.renderUnresolved, h.engine.config, h.pointing]

theorem renderOutput (h : s.AgreeOn names s') (frame : Frame) (call : Call Expression)
    (hnames : ∀ n ∈ call.head.helperName.toList ++ (call.head.callees ++ call.operands.callees), names n)
    (escaped : Bool) : s'.renderOutput frame call escaped = s.renderOutput frame call escaped := by
  obtain ⟨hname, hnames⟩ := List.forall_mem_append.mp hnames
  obtain ⟨hhead, hoperands⟩ := List.forall_mem_append.mp hnames
  have he := h.evaluate frame call.head hhead
  simp only [Scene.renderOutput, h.helper? hname, h.evaluateOperands frame _ hoperands, h.pointing,
    h.missingHelper, h.renderUnresolved]
  obtain ⟨head, operands, region⟩ := call
  cases head with
  | path p => rfl
  | literal value region => simp only [he]
  | call callee operands region => simp only [he]

theorem renderBlock (h : s.AgreeOn names s') (frame : Frame) (call : Call Path)
    (hname : ∀ n ∈ call.head.helperName.toList, names n) (hoperands : ∀ n ∈ call.operands.callees, names n)
    (body : Frame → Run Unit) (inverse : Option (Frame → Run Unit)) :
    s'.renderBlock frame call body inverse = s.renderBlock frame call body inverse := by
  simp only [Scene.renderBlock, h.blockHelper? hname, h.evaluateOperands frame _ hoperands, h.pointing,
    h.missingHelper]

theorem partialName (h : s.AgreeOn names s') (frame : Frame) (name : PartialName)
    (hnames : ∀ n ∈ name.callees, names n) : s'.partialName frame name = s.partialName frame name := by
  cases name with
  | fixed name => rfl
  | computed call =>
    obtain ⟨hcallee, hoperands⟩ := List.forall_mem_append.mp hnames
    simp only [Scene.partialName, h.callText hcallee, h.evaluateOperands frame _ hoperands]

theorem inclusionFrame (h : s.AgreeOn names s') (frame : Frame) (context : Option Expression)
    (hnames : ∀ n ∈ (context.map Expression.callees).getD [], names n) :
    s'.inclusionFrame frame context = s.inclusionFrame frame context := by
  cases context with
  | none => rfl
  | some e => simp only [Scene.inclusionFrame, h.evaluate frame e hnames]

theorem renderInclusion (h : s.AgreeOn names s') (frame : Frame) (name : PartialName) (context : Option Expression)
    (hname : ∀ n ∈ name.callees, names n) (hcontext : ∀ n ∈ (context.map Expression.callees).getD [], names n) :
    s'.renderInclusion frame name context = s.renderInclusion frame name context := by
  simp only [Scene.renderInclusion, h.partialName frame name hname, h.inclusionFrame frame context hcontext,
    h.engine.included, h.engine.config]
  congr 1
  funext text
  cases hfound : s.engine.included? text with
  | none => rfl
  | some inner =>
    have henter := h.enter text inner hfound
    cases hs : s.included with
    | none =>
      rw [hs, Option.map_none, Option.map_eq_none_iff] at henter
      rw [henter]
    | some render =>
      rw [hs, Option.map_some, Option.map_eq_some_iff] at henter
      obtain ⟨render', hs', hrender⟩ := henter
      simp only [hs', hrender]

mutual

theorem renderNode (h : s.AgreeOn names s') :
    ∀ node : Node, (∀ n ∈ node.heads, names n) → ∀ frame, s'.renderNode node frame = s.renderNode node frame
  | .raw text region, _, frame => by
    rw [Scene.renderNode, Scene.renderNode]
  | .output call escaped region, hnames, frame => by
    rw [Node.heads] at hnames
    rw [Scene.renderNode, Scene.renderNode, h.pointing, h.renderOutput frame call hnames]
  | .block call negated body inverse region, hnames, frame => by
    rw [Node.heads] at hnames
    obtain ⟨hname, hnames⟩ := List.forall_mem_append.mp hnames
    obtain ⟨hoperands, hnames⟩ := List.forall_mem_append.mp hnames
    obtain ⟨hbody, hinverse⟩ := List.forall_mem_append.mp hnames
    have hb : s'.renderNodes body = s.renderNodes body := funext (renderNodes h body hbody)
    have hi := renderBranch h inverse hinverse
    simp only [Scene.renderNode, hb, hi, h.pointing, h.renderBlock frame call hname hoperands]
  | .inclusion name context region, hnames, frame => by
    rw [Node.heads] at hnames
    obtain ⟨hname, hcontext⟩ := List.forall_mem_append.mp hnames
    rw [Scene.renderNode, Scene.renderNode, h.pointing, h.renderInclusion frame name context hname hcontext]

theorem renderNodes (h : s.AgreeOn names s') :
    ∀ nodes : List Node, (∀ n ∈ headsOfNodes nodes, names n) →
      ∀ frame, s'.renderNodes nodes frame = s.renderNodes nodes frame
  | [], _, frame => by
    rw [Scene.renderNodes, Scene.renderNodes]
  | node :: nodes, hnames, frame => by
    rw [headsOfNodes] at hnames
    obtain ⟨hnode, hnodes⟩ := List.forall_mem_append.mp hnames
    rw [Scene.renderNodes, Scene.renderNodes, renderNode h node hnode, renderNodes h nodes hnodes]

theorem renderBranch (h : s.AgreeOn names s') :
    ∀ branch : Option (List Node), (∀ n ∈ headsOfBranch branch, names n) →
      s'.renderBranch branch = s.renderBranch branch
  | none, _ => by
    rw [Scene.renderBranch, Scene.renderBranch]
  | some nodes, hnames => by
    rw [headsOfBranch] at hnames
    rw [Scene.renderBranch, Scene.renderBranch, funext (renderNodes h nodes hnames)]

end

end Scene.AgreeOn

namespace Engine

/-- A template renders alike if it and those that can be included call no other names. -/
theorem AgreeOn.renderTemplate {names : String → Prop} {e e' : Engine} (h : e.AgreeOn names e')
    (hincluded : ∀ name inner, e.included? name = some inner → ∀ n ∈ inner.heads, names n) (depth : Nat) :
    ∀ t : Template, (∀ n ∈ t.heads, names n) →
      ∀ frame, e'.renderTemplate depth t frame = e.renderTemplate depth t frame := by
  induction depth with
  | zero =>
    intro t hnames frame
    have hscene : Scene.AgreeOn names (e.scene 0 t) (e'.scene 0 t) := ⟨h, rfl, fun _ _ _ => rfl⟩
    rw [renderTemplate_eq, renderTemplate_eq, hscene.renderNodes t.nodes hnames]
  | succ depth ih =>
    intro t hnames frame
    have hscene : Scene.AgreeOn names (e.scene (depth + 1) t) (e'.scene (depth + 1) t) := by
      refine ⟨h, rfl, fun name inner hfound => congrArg some (funext fun frame => ?_)⟩
      exact ih inner (hincluded name inner hfound) frame
    rw [renderTemplate_eq, renderTemplate_eq, hscene.renderNodes t.nodes hnames]

theorem AgreeOn.render {e e' : Engine} {t : Template} (h : e.AgreeOn (e.Uses t) e') (value : Value) :
    e'.render t value = e.render t value := by
  rw [Engine.render, Engine.render, h.config, h.renderTemplate]
  · intro name inner hfound n hn
    exact .inr ⟨name, inner, hfound, hn⟩
  · intro n hn
    exact .inl hn

end Engine

/-! ## Registering -/

inductive Registration where
  | helper (name : String) (helper : Helper)
  | blockHelper (name : String) (helper : BlockHelper)
  | template (name source : String)

/-- Where a registration puts what it registers. Helpers of both kinds share their names. -/
inductive Slot where
  | helper (name : String)
  | template (name : String)
deriving DecidableEq, Repr

namespace Registration

def slot : Registration → Slot
  | .helper name _ => .helper name
  | .blockHelper name _ => .helper name
  | .template name _ => .template name

/-- What the registration puts into its slot, unless it fails. -/
def content? : Registration → Option (Registered ⊕ Template)
  | .helper _ plain => some (.inl (.plain plain))
  | .blockHelper _ block => some (.inl (.block block))
  | .template name source => (Template.compile (some name) source).toOption.map .inr

def writes (name : String) : Registration :=
  .helper name fun _ _ => Run.write name

end Registration

namespace Engine

def content? (engine : Engine) : Slot → Option (Registered ⊕ Template)
  | .helper name => (valueAt name engine.helpers).map .inl
  | .template name => (engine.template? name).map .inr

def registered (engine : Engine) : Registration → Run Engine
  | .helper name helper => engine.registerHelper name helper
  | .blockHelper name helper => engine.registerBlockHelper name helper
  | .template name source => engine.registerTemplate name source

/-- The engine after a registration. One that fails leaves it as it was. -/
def next (engine : Engine) (r : Registration) : Engine :=
  match (engine.registered r).outcome with
  | .ok engine' => engine'
  | .error _ => engine

def after (engine : Engine) (rs : List Registration) : Engine :=
  rs.foldl next engine

/-- The engines were set up alike, whatever has been registered with them. -/
structure SameSetup (e e' : Engine) : Prop where
  config : e'.config = e.config
  resolver : e'.resolver = e.resolver
  journal : e'.journal = e.journal

theorem SameSetup.symm {e e' : Engine} (h : e.SameSetup e') : e'.SameSetup e :=
  ⟨h.config.symm, h.resolver.symm, h.journal.symm⟩

theorem SameSetup.trans {e e' e'' : Engine} (h : e.SameSetup e') (h' : e'.SameSetup e'') : e.SameSetup e'' :=
  ⟨h'.config.trans h.config, h'.resolver.trans h.resolver, h'.journal.trans h.journal⟩

/-! ### What a registration does -/

variable {e e' : Engine}

theorem next_template (e : Engine) (name source : String) :
    (∃ t, Template.compile (some name) source = .ok t ∧
      e.next (.template name source) = { e with templates := put name t e.templates }) ∨
    (∃ d, Template.compile (some name) source = .error d ∧ e.next (.template name source) = e) := by
  cases hcompile : Template.compile (some name) source with
  | ok t =>
    refine .inl ⟨t, rfl, ?_⟩
    simp [next, registered, registerTemplate, Run.note, Run.emit, Run.ofExcept, hcompile]
  | error d =>
    refine .inr ⟨d, rfl, ?_⟩
    simp [next, registered, registerTemplate, Run.note, Run.emit, Run.ofExcept, hcompile]

theorem next_sameSetup (e : Engine) (r : Registration) : e.SameSetup (e.next r) := by
  cases r with
  | helper name helper => exact ⟨rfl, rfl, rfl⟩
  | blockHelper name helper => exact ⟨rfl, rfl, rfl⟩
  | template name source =>
    obtain ⟨t, -, hnext⟩ | ⟨d, -, hnext⟩ := e.next_template name source
    · rw [hnext]
      exact ⟨rfl, rfl, rfl⟩
    · rw [hnext]
      exact ⟨rfl, rfl, rfl⟩

theorem content?_register (e : Engine) (name : String) (helper : Registered) (slot : Slot) :
    (e.register name helper).content? slot =
      if Slot.helper name = slot then some (.inl helper) else e.content? slot := by
  cases slot with
  | template name' => rfl
  | helper name' =>
    by_cases hname : name = name'
    · subst hname
      simp [content?, register, valueAt_put_self]
    · simp [content?, register, valueAt_put_of_ne (Ne.symm hname), hname]

theorem content?_putTemplate (e : Engine) (name : String) (t : Template) (slot : Slot) :
    { e with templates := put name t e.templates }.content? slot =
      if Slot.template name = slot then some (.inr t) else e.content? slot := by
  cases slot with
  | helper name' => rfl
  | template name' =>
    by_cases hname : name = name'
    · subst hname
      simp [content?, template?, valueAt_put_self]
    · simp [content?, template?, valueAt_put_of_ne (Ne.symm hname), hname]

/-- A registration that does not fail fills its slot, and leaves all others as they were. -/
theorem content?_next (e : Engine) (r : Registration) (slot : Slot) :
    (e.next r).content? slot = if r.slot = slot then r.content? <|> e.content? slot else e.content? slot := by
  cases r with
  | helper name helper => exact e.content?_register name (.plain helper) slot
  | blockHelper name helper => exact e.content?_register name (.block helper) slot
  | template name source =>
    obtain ⟨t, hcompile, hnext⟩ | ⟨d, hcompile, hnext⟩ := e.next_template name source
    · rw [hnext, content?_putTemplate, Registration.content?, hcompile]
      rfl
    · rw [hnext, Registration.content?, hcompile]
      simp [Except.toOption]

/-! ### What registrations do one after another -/

theorem after_append (e : Engine) (rs : List Registration) (r : Registration) :
    e.after (rs ++ [r]) = (e.after rs).next r :=
  List.foldl_concat ..

theorem after_sameSetup (rs : List Registration) : ∀ e : Engine, e.SameSetup (e.after rs) := by
  induction rs with
  | nil =>
    intro e
    exact ⟨rfl, rfl, rfl⟩
  | cons r rs ih =>
    intro e
    exact (e.next_sameSetup r).trans (ih (e.next r))

theorem content?_after (rs : List Registration) :
    ∀ e e' : Engine, (∀ slot, e'.content? slot = e.content? slot) →
      ∀ slot, (e'.after rs).content? slot = (e.after rs).content? slot := by
  induction rs with
  | nil =>
    intro e e' h
    exact h
  | cons r rs ih =>
    intro e e' h
    apply ih (e.next r) (e'.next r)
    intro slot
    rw [content?_next, content?_next, h]

theorem content?_next_next (e : Engine) {r r' : Registration} (hne : r.slot ≠ r'.slot) (slot : Slot) :
    ((e.next r).next r').content? slot = ((e.next r').next r).content? slot := by
  simp only [content?_next]
  by_cases h : r.slot = slot
  · have h' : r'.slot ≠ slot := fun h' => hne (h.trans h'.symm)
    simp [h, h']
  · simp [h]

/-- Registrations in different slots may change places. -/
theorem content?_after_perm {rs rs' : List Registration} (hperm : rs.Perm rs') :
    (rs.map Registration.slot).Nodup →
      ∀ (e : Engine) (slot : Slot), (e.after rs').content? slot = (e.after rs).content? slot := by
  induction hperm with
  | nil =>
    intro _ e slot
    rfl
  | cons r _ ih =>
    intro hnodup e slot
    rw [List.map_cons, List.nodup_cons] at hnodup
    exact ih hnodup.2 (e.next r) slot
  | swap r r' rs =>
    intro hnodup e slot
    simp only [List.map_cons, List.nodup_cons, List.mem_cons, not_or] at hnodup
    exact content?_after rs _ _ (e.content?_next_next (Ne.symm hnodup.1.1)) slot
  | trans hp _ ih ih' =>
    intro hnodup e slot
    have hnodup' := (hp.map Registration.slot).nodup_iff.mp hnodup
    rw [ih' hnodup' e slot, ih hnodup e slot]

/-! ### What renders depend on -/

theorem included?_eq (h : e.SameSetup e') (htemplates : ∀ name, e'.template? name = e.template? name) (name : String) :
    e'.included? name = e.included? name := by
  rw [included?, included?, htemplates, h.resolver]

theorem agreeOn_of_content {names : String → Prop} (h : e.SameSetup e')
    (htemplates : ∀ name, e'.content? (.template name) = e.content? (.template name))
    (hhelpers : ∀ name, names name → e'.content? (.helper name) = e.content? (.helper name)) : e.AgreeOn names e' := by
  have htemplate : ∀ name, e'.template? name = e.template? name := by
    intro name
    exact Option.map_injective (fun _ _ => Sum.inr.inj) (htemplates name)
  have hvalueAt : ∀ name, names name → valueAt name e'.helpers = valueAt name e.helpers := by
    intro name hname
    exact Option.map_injective (fun _ _ => Sum.inl.inj) (hhelpers name hname)
  refine ⟨h.config, included?_eq h htemplate, ?_, ?_⟩
  · intro name hname
    rw [helper?, helper?, hvalueAt name hname, h.journal, h.config]
  · intro name hname
    rw [blockHelper?, blockHelper?, hvalueAt name hname]

/-- What a template renders to depends on the templates, and on the helpers under the names that head calls. A
helper under another name makes no difference, nor does the order of registrations in different slots. -/
theorem render_registered {start start' : Engine} (hstart : start.SameSetup start') (rs rs' : List Registration)
    (t : Template) :
    ((∀ name, (start'.after rs').template? name = (start.after rs).template? name) →
      (∀ name, (start.after rs).Uses t name → (start'.after rs').helper? name = (start.after rs).helper? name ∧
        (start'.after rs').blockHelper? name = (start.after rs).blockHelper? name) →
      ∀ value, (start'.after rs').render t value = (start.after rs).render t value) ∧
    (∀ r name, r.slot = .helper name → ¬ (start.after rs).Uses t name →
      ∀ value, (start.after (rs ++ [r])).render t value = (start.after rs).render t value) ∧
    (rs.Perm rs' → (rs.map Registration.slot).Nodup →
      ∀ value, (start.after rs').render t value = (start.after rs).render t value) := by
  have hsetup := after_sameSetup rs start
  refine ⟨?_, ?_, ?_⟩
  · intro htemplates hhelpers
    have hsame := hsetup.symm.trans (hstart.trans (after_sameSetup rs' start'))
    apply AgreeOn.render
    refine ⟨hsame.config, included?_eq hsame htemplates, ?_, ?_⟩
    · intro name hname
      exact (hhelpers name hname).1
    · intro name hname
      exact (hhelpers name hname).2
  · intro r name hr hunused
    rw [after_append]
    apply AgreeOn.render
    apply agreeOn_of_content (next_sameSetup _ r)
    · intro other
      rw [content?_next, hr, if_neg nofun]
    · intro other hother
      rw [content?_next, hr, if_neg]
      intro heq
      exact hunused (Slot.helper.inj heq ▸ hother)
  · intro hperm hnodup
    have hcontent := content?_after_perm hperm hnodup start
    apply AgreeOn.render
    apply agreeOn_of_content (hsetup.symm.trans (after_sameSetup rs' start))
    · intro name
      exact hcontent (.template name)
    · intro name _
      exact hcontent (.helper name)

/-- Nothing that is registered under another name makes a difference to a template that calls one helper. -/
theorem render_registered_apart :
    ∃ t, Template.compile none (tagText "up") = .ok t ∧
      (∀ value, ((new {}).after [.writes "up"]).render t value =
        ((new {}).after [.writes "up", .writes "down"]).render t value) ∧
      (∀ value, ((new {}).after ([.writes "up", .writes "down"] ++ [.blockHelper "down" Builtin.ifHelper])).render t
          value = ((new {}).after [.writes "up", .writes "down"]).render t value) ∧
      ∀ value, ((new {}).after [.writes "down", .writes "up"]).render t value =
        ((new {}).after [.writes "up", .writes "down"]).render t value := by
  have hok : (Template.compile none (tagText "up")).isOk := by decide +kernel
  have hheads : (Template.compile none (tagText "up")).toOption.map Template.heads = some ["up"] := by decide +kernel
  obtain ⟨t, ht⟩ := Template.exists_of_isOk hok
  rw [ht] at hheads
  have huses : ∀ name, ((new {}).after [.writes "up", .writes "down"]).Uses t name → name = "up" := by
    intro name huses
    rcases huses with hname | ⟨n, inner, hinner, -⟩
    · rw [Option.some.inj hheads] at hname
      exact List.mem_singleton.mp hname
    · cases hinner
  have hsetup : (new {}).SameSetup (new {}) := ⟨rfl, rfl, rfl⟩
  refine ⟨t, ht, ?_, ?_, ?_⟩
  · refine (render_registered hsetup _ _ t).1 (fun _ => rfl) fun name hname => ?_
    obtain rfl := huses name hname
    exact ⟨rfl, rfl⟩
  · refine (render_registered hsetup _ [] t).2.1 (.blockHelper "down" Builtin.ifHelper) "down" rfl fun hdown => ?_
    exact absurd (huses "down" hdown) (by decide)
  · exact (render_registered hsetup _ _ t).2.2 (.swap ..) (by decide)

end Engine

end Curly
