import Curly.Proofs.Concat
import Curly.Proofs.Render.Work
import Mathlib.Logic.Hydra

/-!
# The course of a render

A render is followed place by place. A place is what is left to render in the
innermost template, with the templates around it and the trace so far. It leads
on to the next node, to the branch of a block, or into an included template, and
this comes to an end (`Place.leads_wf`). Every place takes one of a few courses
(`Place.course`), which say how its run is made up of those that it leads to.
-/

namespace Curly

/-! ## Entered templates -/

/-- The names of the templates that have been entered and not left, the innermost first. -/
def opened : List String → List Event → List String
  | names, [] => names
  | names, .enter name :: events => opened (name :: names) events
  | names, .leave :: events => opened names.tail events
  | names, _ :: events => opened names events

theorem opened_append (names : List String) (a b : List Event) :
    opened names (a ++ b) = opened (opened names a) b := by
  induction a generalizing names with
  | nil => rfl
  | cons e a ih => cases e <;> exact ih _

/-- Events that neither enter nor leave a template. -/
def Event.Stays : Event → Prop
  | .enter _ | .leave => False
  | _ => True

theorem Event.Logs.stays {e : Event} (h : e.Logs) : e.Stays := by
  cases e with
  | log => trivial
  | _ => cases h

/-- Events of which each that enters a template is followed by one that leaves it. -/
def Balanced (events : List Event) : Prop :=
  ∀ names, opened names events = names

theorem Balanced.append {a b : List Event} (ha : Balanced a) (hb : Balanced b) : Balanced (a ++ b) := by
  intro names
  rw [opened_append, ha, hb]

theorem Balanced.within {events : List Event} (h : Balanced events) (name : String) :
    Balanced (.enter name :: events ++ [.leave]) := by
  intro names
  rw [List.cons_append, opened, opened_append, h]
  rfl

theorem balanced_of_stays {events : List Event} (h : ∀ e ∈ events, e.Stays) : Balanced events := by
  intro names
  induction events with
  | nil => rfl
  | cons e events ih =>
    have he := h e (List.mem_cons_self ..)
    have htail := ih fun e he => h e (List.mem_cons_of_mem _ he)
    cases e <;> first | exact htail | cases he

theorem Run.Emits.balanced {α : Type} {r : Run α} (h : r.Emits Event.Logs) : Balanced r.events :=
  balanced_of_stays fun e he => (h e he).stays

theorem Run.mapError_mapError {α : Type} (r : Run α) (f g : Diagnostic → Diagnostic) :
    (r.mapError f).mapError g = r.mapError fun d => g (f d) := by
  rcases r with ⟨events, d | a⟩ <;> rfl

theorem Run.prefix_bind {α β : Type} (r : Run α) (f : α → Run β) : r.events <+: (r >>= f).events := by
  rcases r with ⟨events, d | a⟩
  · exact List.prefix_refl _
  · exact List.prefix_append ..

theorem Diagnostic.excerpt_inside (template : Template) (d : Diagnostic) : (d.inside template).excerpt = d.excerpt := by
  unfold Diagnostic.inside
  cases template.name <;> rfl

/-! ## Nodes by themselves -/

namespace Scene

variable {scene : Scene}

/-- What a node does apart from the branch that it renders or the template that it enters. -/
def own (scene : Scene) : Node → Frame → Run Unit
  | .raw text _, _ => Run.write text
  | .output call escaped region, frame => scene.pointing region (scene.renderOutput frame call escaped)
  | .block call negated _ _ region, frame => do
    let _ ← scene.pointing region (scene.plan frame call negated)
  | .inclusion name context region, frame => scene.pointing region do
    match ← scene.target frame name context with
    | some _ => if scene.included.isSome then pure () else Run.fail (.recursion scene.engine.config.recursionLimit)
    | none => pure ()

theorem emits_plan (he : scene.engine.helpers = Builtin.all) (frame : Frame) (call : Call Path) (negated : Bool) :
    (scene.plan frame call negated).Emits Event.Logs := by
  unfold plan
  split
  · exact .pure _
  · split
    · exact (emits_evaluateOperands he frame _).bind fun _ _ => .ofExcept _
    · split
      · exact emits_missingHelper _
      · exact .pure _

theorem emits_target (he : scene.engine.helpers = Builtin.all) (frame : Frame) (name : PartialName)
    (context : Option Expression) : (scene.target frame name context).Emits Event.Logs := by
  have hname : (scene.partialName frame name).Emits Event.Logs := by
    cases name with
    | fixed name => exact .pure _
    | computed call => exact emits_callText he (emits_evaluateOperands he frame _) frame _ _
  have hcontext : (scene.inclusionFrame frame context).Emits Event.Logs := by
    cases context with
    | none => exact .pure _
    | some e => exact (emits_evaluate he frame e).bind fun _ _ => .pure _
  refine hname.bind fun name _ => ?_
  split
  · split
    · exact Run.Emits.bind (.emit trivial) fun _ _ => .pure _
    · exact .fail _
  · exact Run.Emits.bind (.emit trivial) fun _ _ => hcontext.bind fun _ _ => .pure _

/-- An output writes what it is given as escaped text, unless it is raw or a path that does not resolve. -/
theorem emits_renderOutput (he : scene.engine.helpers = Builtin.all) (frame : Frame) (call : Call Expression)
    (escaped : Bool) {P : Event → Prop} (hlog : ∀ e : Event, e.Logs → P e)
    (hwrite : ∀ text, ∀ piece ∈ Text.escapedPieces text, P (.write piece))
    (hraw : escaped = false → ∀ text, P (.write text))
    (hmissing : ∀ p text, call.head = .path p → scene.engine.config.unresolved = .format text →
      P (.write (Config.filled text p.lastSegment))) :
    (scene.renderOutput frame call escaped).Emits P := by
  have hvalue : ∀ v, (writeValue v escaped).Emits P := fun v => by
    cases escaped with
    | true => exact Run.emits_writeEscaped (hwrite _)
    | false => exact .emit (hraw rfl _)
  unfold renderOutput
  split
  · rename_i helper hhelper
    obtain ⟨name, hname⟩ := helper?_eq_some hhelper
    refine ((emits_evaluateOperands he frame _).mono hlog).bind fun arguments _ => Run.Emits.mapError ?_ _
    exact Engine.emits_helper he hname hwrite (fun _ _ _ => hlog _ trivial) _ _
  · split
    · exact emits_missingHelper _
    · split
      · rename_i p hp
        split
        · exact hvalue _
        · unfold renderUnresolved
          split
          · exact .pure _
          · rename_i text htext
            exact .emit (hmissing p text hp htext)
          · exact Run.Emits.mapError (.fail _) _
      · exact ((emits_evaluate he frame _).mono hlog).bind fun v _ => hvalue v

theorem emits_own_block (he : scene.engine.helpers = Builtin.all) (call : Call Path) (negated : Bool) (body : List Node)
    (inverse : Option (List Node)) (region : Region) (frame : Frame) :
    (scene.own (.block call negated body inverse region) frame).Emits Event.Logs :=
  (Run.Emits.mapError (emits_plan he frame call negated) _).bind fun _ _ => .pure _

theorem emits_own_inclusion (he : scene.engine.helpers = Builtin.all) (name : PartialName) (context : Option Expression)
    (region : Region) (frame : Frame) : (scene.own (.inclusion name context region) frame).Emits Event.Logs := by
  refine Run.Emits.mapError ((emits_target he frame name context).bind fun found _ => ?_) _
  split
  · split
    · exact .pure _
    · exact .fail _
  · exact .pure _

theorem emits_own (he : scene.engine.helpers = Builtin.all) (node : Node) (frame : Frame) :
    (scene.own node frame).Emits Event.Stays := by
  cases node with
  | raw text region => exact .emit trivial
  | output call escaped region =>
    exact Run.Emits.mapError (emits_renderOutput he frame call escaped (fun _ h => h.stays) (fun _ _ _ => trivial)
      (fun _ _ => trivial) fun _ _ _ _ => trivial) _
  | block call negated body inverse region =>
    exact (emits_own_block he call negated body inverse region frame).mono fun _ h => h.stays
  | inclusion name context region =>
    exact (emits_own_inclusion he name context region frame).mono fun _ h => h.stays

end Scene

/-! ## Places -/

structure Place where
  template : Template
  work : Work
  /-- The names that templates have been entered by and not left, the innermost first. -/
  names : List String
  /-- What has come about. -/
  past : List Event

namespace Place

variable {engine : Engine} {p q : Place} {node : Node} {frame : Frame} {work : Work}

def start (template : Template) (value : Value) : Place :=
  ⟨template, .of template.nodes (.root value), [], []⟩

def scene (engine : Engine) (p : Place) : Scene :=
  engine.scene (engine.config.recursionLimit - p.names.length) p.template

def run (engine : Engine) (p : Place) : Run Unit :=
  (p.scene engine).renderWork p.work

def forward (p : Place) (work : Work) (events : List Event) : Place :=
  { p with work := work, past := p.past ++ events }

def inside (p : Place) (found : Scene.Found) (events : List Event) : Place :=
  ⟨found.template, .of found.template.nodes found.frame, found.name :: p.names, p.past ++ events ++ [.enter found.name]⟩

/-- Where a render that is at a place comes to next. -/
inductive Leads (engine : Engine) (p : Place) : Place → Prop
  | next {node : Node} {frame : Frame} {work : Work} (hwork : p.work = (node, frame) :: work)
      (hok : ((p.scene engine).renderNode node frame).outcome = .ok ()) :
      Leads engine p (p.forward work ((p.scene engine).renderNode node frame).events)
  | branch {call : Call Path} {negated : Bool} {body : List Node} {inverse : Option (List Node)} {region : Region}
      {frame : Frame} {work : Work} {plan : Plan}
      (hwork : p.work = (.block call negated body inverse region, frame) :: work)
      (hok : ((p.scene engine).plan frame call negated).outcome = .ok plan) :
      Leads engine p
        (p.forward (.ofPlan body inverse plan ++ work) ((p.scene engine).plan frame call negated).events)
  | enter {name : PartialName} {context : Option Expression} {region : Region} {frame : Frame} {work : Work}
      {found : Scene.Found} (hwork : p.work = (.inclusion name context region, frame) :: work)
      (hok : ((p.scene engine).target frame name context).outcome = .ok (some found))
      (hlimit : p.names.length < engine.config.recursionLimit) :
      Leads engine p (p.inside found ((p.scene engine).target frame name context).events)

abbrev Reaches (engine : Engine) : Place → Place → Prop :=
  Relation.ReflTransGen (Leads engine)

/-! ## The end of the course -/

theorem sizeOf_lt_of_mem_ofPlan {body : List Node} {inverse : Option (List Node)} {plan : Plan} {s : Node × Frame}
    (h : s ∈ Work.ofPlan body inverse plan) (call : Call Path) (negated : Bool) (region : Region) :
    sizeOf s.1 < sizeOf (Node.block call negated body inverse region) := by
  rw [Node.block.sizeOf_spec]
  rcases Work.mem_of_mem_ofPlan h with hs | ⟨nodes, rfl, hs⟩
  · have := List.sizeOf_lt_of_mem hs
    omega
  · have := List.sizeOf_lt_of_mem hs
    rw [Option.some.sizeOf_spec]
    omega

noncomputable def sizes (work : Work) : Multiset Nat :=
  Multiset.ofList (work.map fun s => sizeOf s.1)

/-- A node gives way to finitely many smaller ones, or to those of a template that is nested deeper. -/
theorem leads_wf (engine : Engine) : WellFounded fun q p => Leads engine p q := by
  have hwf : WellFounded (Prod.Lex (· < ·) (Relation.CutExpand (· < · : Nat → Nat → Prop))) :=
    WellFounded.prod_lex Nat.lt_wfRel.wf Nat.lt_wfRel.wf.cutExpand
  refine Subrelation.wf ?_ (InvImage.wf (fun p => (engine.config.recursionLimit - p.names.length, sizes p.work)) hwf)
  intro q p h
  cases h with
  | @next node frame work hwork hok =>
    refine Prod.Lex.right _ ⟨0, sizeOf node, fun _ h => absurd h (Multiset.notMem_zero _), ?_⟩
    rw [hwork, add_zero, add_comm]
    rfl
  | @branch call negated body inverse region frame work plan hwork hok =>
    refine Prod.Lex.right _ ⟨sizes (.ofPlan body inverse plan), sizeOf (Node.block call negated body inverse region), ?_, ?_⟩
    · intro k hk
      obtain ⟨s, hs, rfl⟩ := List.mem_map.mp (Multiset.mem_coe.mp hk)
      exact sizeOf_lt_of_mem_ofPlan hs call negated region
    · rw [hwork]
      simp only [sizes, forward, List.map_append, List.map_cons, ← Multiset.coe_add, ← Multiset.cons_coe,
        ← Multiset.singleton_add]
      ac_rfl
  | enter hwork hok hlimit =>
    refine Prod.Lex.left _ _ ?_
    simp only [inside, List.length_cons]
    omega

/-! ## Courses -/

/-- The events of a template that is entered and left. -/
def visit (engine : Engine) (p : Place) (found : Scene.Found) (events : List Event) : List Event :=
  .enter found.name :: ((p.inside found events).run engine).events ++ [.leave]

/-- How the run of a place is made up. -/
inductive Course (engine : Engine) (p : Place) : Prop
  | done (hwork : p.work = []) (hrun : p.run engine = pure ())
  | failed {node : Node} {frame : Frame} {work : Work} {events : List Event} {d : Diagnostic}
      (hwork : p.work = (node, frame) :: work) (hown : (p.scene engine).own node frame = ⟨events, .error d⟩)
      (hrun : p.run engine = ⟨events, .error d⟩)
  | on {node : Node} {frame : Frame} {work later : Work} {events : List Event}
      (hwork : p.work = (node, frame) :: work) (hown : (p.scene engine).own node frame = ⟨events, .ok ()⟩)
      (hleads : Leads engine p (p.forward later events))
      (hrun : p.run engine = (Run.mk events (.ok ()) >>= fun _ => (p.forward later events).run engine))
  /-- An included template fails. -/
  | lost {node : Node} {frame : Frame} {work : Work} {events : List Event} {found : Scene.Found} {d : Diagnostic}
      (hwork : p.work = (node, frame) :: work) (hown : (p.scene engine).own node frame = ⟨events, .ok ()⟩)
      (hinside : Leads engine p (p.inside found events))
      (hlost : ((p.inside found events).run engine).outcome = .error d)
      (hrun : p.run engine = ⟨events ++ visit engine p found events, .error ((d.inside found.template).named found.name)⟩)
  /-- An included template is rendered. -/
  | back {node : Node} {frame : Frame} {work : Work} {events : List Event} {found : Scene.Found}
      (hwork : p.work = (node, frame) :: work) (hown : (p.scene engine).own node frame = ⟨events, .ok ()⟩)
      (hinside : Leads engine p (p.inside found events))
      (hleads : Leads engine p (p.forward work (events ++ visit engine p found events)))
      (hrun : p.run engine = (Run.mk (events ++ visit engine p found events) (.ok ()) >>= fun _ =>
        (p.forward work (events ++ visit engine p found events)).run engine))

theorem run_cons (hwork : p.work = (node, frame) :: work) :
    p.run engine = (p.scene engine).renderNode node frame >>= fun _ => (p.scene engine).renderWork work := by
  rw [run, hwork, Scene.renderWork_cons]

theorem course_of_own (hwork : p.work = (node, frame) :: work)
    (hnode : (p.scene engine).renderNode node frame = (p.scene engine).own node frame) : Course engine p := by
  have hrun : p.run engine = _ := run_cons hwork
  have hleads : ((p.scene engine).own node frame).outcome = .ok () →
      Leads engine p (p.forward work ((p.scene engine).own node frame).events) := by
    rw [← hnode]
    exact .next hwork
  rw [hnode] at hrun
  rcases hown : (p.scene engine).own node frame with ⟨events, d | _⟩
  · rw [hown] at hrun
    exact .failed hwork hown hrun
  · rw [hown] at hrun hleads
    exact .on hwork hown (hleads rfl) hrun

section
variable {call : Call Path} {negated : Bool} {body : List Node} {inverse : Option (List Node)} {region : Region}

theorem run_block (he : engine.helpers = Builtin.all)
    (hwork : p.work = (.block call negated body inverse region, frame) :: work) :
    p.run engine = (do
      let plan ← (p.scene engine).pointing region ((p.scene engine).plan frame call negated)
      (p.scene engine).renderWork (.ofPlan body inverse plan ++ work)) := by
  rw [run_cons hwork, Scene.renderNode_block (show (p.scene engine).engine.helpers = _ from he), bind_assoc]
  congr 1
  funext plan
  exact (Scene.renderWork_append ..).symm

theorem course_block (he : engine.helpers = Builtin.all)
    (hwork : p.work = (.block call negated body inverse region, frame) :: work) : Course engine p := by
  have hrun := run_block he hwork
  have hbranch : ∀ plan, ((p.scene engine).plan frame call negated).outcome = .ok plan → Leads engine p
      (p.forward (.ofPlan body inverse plan ++ work) ((p.scene engine).plan frame call negated).events) :=
    fun _ => .branch hwork
  have hown : (p.scene engine).own (.block call negated body inverse region) frame =
      (p.scene engine).pointing region ((p.scene engine).plan frame call negated) >>= fun _ => pure () := rfl
  rcases hplan : (p.scene engine).plan frame call negated with ⟨events, d | plan⟩
  · rw [hplan] at hrun hown
    exact .failed hwork hown hrun
  · rw [hplan] at hrun hown hbranch
    refine .on hwork (hown.trans ?_) (hbranch plan rfl) hrun
    exact congrArg (Run.mk · (.ok ())) (List.append_nil events)

end

theorem renderNode_inclusion {s : Scene} {name : PartialName} {context : Option Expression} {region : Region}
    (h : ∀ found, (s.target frame name context).outcome = .ok (some found) → s.included = none) :
    s.renderNode (.inclusion name context region) frame = s.own (.inclusion name context region) frame := by
  rw [Scene.renderNode, Scene.renderInclusion_target, Scene.own]
  rcases htarget : s.target frame name context with ⟨events, d | _ | found⟩
  · rfl
  · rfl
  · have hnone := h found (by rw [htarget])
    simp only [Run.bind_ok, Scene.enter, hnone]
    rfl

theorem enter_eq (hlimit : p.names.length < engine.config.recursionLimit) (found : Scene.Found) (events : List Event) :
    (p.scene engine).enter found.name found.template found.frame =
      (((p.inside found events).run engine).mapError fun d => (d.inside found.template).named found.name).within
        found.name := by
  obtain ⟨depth, hdepth⟩ := Nat.exists_eq_add_of_lt hlimit
  have houter : engine.config.recursionLimit - p.names.length = depth + 1 := by omega
  have hinner : engine.config.recursionLimit - (p.names.length + 1) = depth := by omega
  rw [run, inside, Scene.renderWork_of, Place.scene, Place.scene, List.length_cons, hinner, houter]
  show (((engine.renderTemplate depth found.template found.frame).mapError _).within _) = _
  rw [Engine.renderTemplate_eq, Run.mapError_mapError]

theorem renderNode_visit {name : PartialName} {context : Option Expression} {region : Region} {found : Scene.Found}
    {events : List Event} (hlimit : p.names.length < engine.config.recursionLimit)
    (htarget : (p.scene engine).target frame name context = ⟨events, .ok (some found)⟩) :
    (p.scene engine).renderNode (.inclusion name context region) frame = ⟨events ++ visit engine p found events,
      ((p.inside found events).run engine).outcome.mapError fun d => (d.inside found.template).named found.name⟩ := by
  have hfails : (((p.inside found events).run engine).mapError fun d =>
      (d.inside found.template).named found.name).FailsWith (·.excerpt.isSome) := by
    refine Run.FailsWith.mapError (Scene.renderWork_fails _) fun d hd => ?_
    rw [Diagnostic.named, Diagnostic.excerpt_inside]
    exact hd
  rw [Scene.renderNode, Scene.renderInclusion_target, htarget, Run.bind_ok]
  dsimp only
  rw [enter_eq hlimit found events]
  refine Scene.pointing_eq ?_ region
  exact hfails

theorem course_inclusion {name : PartialName} {context : Option Expression}
    {region : Region} (hwork : p.work = (.inclusion name context region, frame) :: work) : Course engine p := by
  by_cases hlimit : p.names.length < engine.config.recursionLimit
  case neg =>
    have hnone : (p.scene engine).included = none := by
      rw [scene, Nat.sub_eq_zero_of_le (Nat.le_of_not_lt hlimit)]
      rfl
    exact course_of_own hwork (renderNode_inclusion fun _ _ => hnone)
  have hrun : p.run engine = _ := run_cons hwork
  have hnext : ((p.scene engine).renderNode (.inclusion name context region) frame).outcome = .ok () →
      Leads engine p _ := .next hwork
  have henter : ∀ found, ((p.scene engine).target frame name context).outcome = .ok (some found) →
      Leads engine p (p.inside found ((p.scene engine).target frame name context).events) :=
    fun _ hok => .enter hwork hok hlimit
  rcases htarget : (p.scene engine).target frame name context with ⟨events, d | _ | found⟩
  · refine course_of_own hwork (renderNode_inclusion fun found h => ?_)
    rw [htarget] at h
    cases h
  · refine course_of_own hwork (renderNode_inclusion fun found h => ?_)
    rw [htarget] at h
    cases h
  · rw [htarget] at henter
    have hinside := henter found rfl
    have hown : (p.scene engine).own (.inclusion name context region) frame = ⟨events, .ok ()⟩ := by
      have hsome : (p.scene engine).included.isSome := by
        obtain ⟨depth, hdepth⟩ := Nat.exists_eq_add_of_lt hlimit
        rw [scene, show engine.config.recursionLimit - p.names.length = depth + 1 by omega]
        rfl
      rw [Scene.own, htarget, Run.bind_ok]
      dsimp only
      rw [if_pos hsome]
      exact congrArg (Run.mk · (.ok ())) (List.append_nil events)
    rw [renderNode_visit hlimit htarget] at hrun hnext
    rcases hin : ((p.inside found events).run engine).outcome with d | _
    · rw [hin] at hrun
      exact .lost hwork hown hinside hin hrun
    · rw [hin] at hrun hnext
      exact .back hwork hown hinside (hnext rfl) hrun

theorem course (he : engine.helpers = Builtin.all) (p : Place) : Course engine p := by
  rcases hwork : p.work with _ | ⟨⟨node, frame⟩, work⟩
  · refine .done hwork ?_
    rw [run, hwork]
    rfl
  · cases node with
    | raw text region => exact course_of_own hwork (by rw [Scene.renderNode, Scene.own])
    | output call escaped region => exact course_of_own hwork (by rw [Scene.renderNode, Scene.own])
    | block call negated body inverse region => exact course_block he hwork
    | inclusion name context region => exact course_inclusion hwork

/-! ## Nesting -/

/-- What a render enters it leaves, also where it fails. -/
theorem run_balanced (he : engine.helpers = Builtin.all) (p : Place) : Balanced (p.run engine).events := by
  induction p using (leads_wf engine).induction with
  | _ p ih =>
    have hown : ∀ {node frame events o}, (p.scene engine).own node frame = ⟨events, o⟩ → Balanced events := by
      intro node frame events o h
      have hemits : ((p.scene engine).own node frame).Emits Event.Stays := Scene.emits_own he node frame
      rw [h] at hemits
      exact balanced_of_stays hemits
    have hvisit : ∀ {found events}, Leads engine p (p.inside found events) → Balanced (visit engine p found events) :=
      fun hinside => (ih _ hinside).within _
    cases course he p with
    | done _ hrun =>
      rw [hrun]
      exact balanced_of_stays (fun _ h => nomatch h)
    | failed _ h hrun =>
      rw [hrun]
      exact hown h
    | on _ h hleads hrun =>
      rw [hrun]
      exact (hown h).append (ih _ hleads)
    | lost _ h hinside _ hrun =>
      rw [hrun]
      exact (hown h).append (hvisit hinside)
    | back _ h hinside hleads hrun =>
      rw [hrun]
      exact ((hown h).append (hvisit hinside)).append (ih _ hleads)

theorem renderNode_balanced (he : engine.helpers = Builtin.all) (p : Place) (node : Node) (frame : Frame) :
    Balanced ((p.scene engine).renderNode node frame).events := by
  have h := run_balanced he ⟨p.template, [(node, frame)], p.names, []⟩
  rw [run_cons rfl] at h
  have hlast : (p.scene engine).renderNode node frame >>= (fun _ => (p.scene engine).renderWork []) =
      (p.scene engine).renderNode node frame := bind_pure_unit
  exact hlast ▸ h

/-- The names are those of the templates that the trace has entered and not left. -/
theorem Leads.opened (he : engine.helpers = Builtin.all) (h : Leads engine p q) (hp : opened [] p.past = p.names) :
    Curly.opened [] q.past = q.names := by
  cases h with
  | next hwork hok => rw [forward, opened_append, hp, renderNode_balanced he]
  | branch hwork hok => rw [forward, opened_append, hp, (Scene.emits_plan he _ _ _).balanced]
  | enter hwork hok hlimit =>
    rw [inside, opened_append, opened_append, hp, (Scene.emits_target he _ _ _).balanced]
    rfl

theorem Leads.names_le (h : Leads engine p q) (hp : p.names.length ≤ engine.config.recursionLimit) :
    q.names.length ≤ engine.config.recursionLimit := by
  cases h with
  | next hwork hok => exact hp
  | branch hwork hok => exact hp
  | enter hwork hok hlimit => exact hlimit

/-- What has come about at a place is the beginning of the whole trace, which the run of the place goes on with. -/
theorem Leads.past (he : engine.helpers = Builtin.all) (h : Leads engine p q) :
    q.past ++ (q.run engine).events <+: p.past ++ (p.run engine).events := by
  cases h with
  | @next node frame work hwork hok =>
    rcases hnode : (p.scene engine).renderNode node frame with ⟨events, o⟩
    rw [hnode] at hok
    obtain rfl : o = .ok () := hok
    rw [run_cons hwork, hnode, forward, List.append_assoc]
    exact List.prefix_refl _
  | @branch call negated body inverse region frame work plan hwork hok =>
    rcases hplan : (p.scene engine).plan frame call negated with ⟨events, o⟩
    rw [hplan] at hok
    obtain rfl : o = .ok plan := hok
    rw [run_block he hwork, hplan, forward, List.append_assoc]
    exact List.prefix_refl _
  | @enter name context region frame work found hwork hok hlimit =>
    rcases htarget : (p.scene engine).target frame name context with ⟨events, o⟩
    rw [htarget] at hok
    obtain rfl : o = .ok (some found) := hok
    have hnode : ((p.scene engine).renderNode (.inclusion name context region) frame).events <+: (p.run engine).events := by
      rw [run_cons hwork]
      exact Run.prefix_bind ..
    rw [renderNode_visit hlimit htarget] at hnode
    rw [inside, List.append_assoc, List.append_assoc]
    refine (List.prefix_append_right_inj _).mpr (List.IsPrefix.trans ?_ hnode)
    refine (List.prefix_append_right_inj _).mpr ?_
    exact List.prefix_append (Event.enter found.name :: _) [Event.leave]

/-! ## Where events come from -/

/-- An event comes about at a place, next after the given ones. -/
inductive Does (engine : Engine) (p : Place) : List Event → Event → Prop
  | own {node : Node} {frame : Frame} {work : Work} {before : List Event} {e : Event}
      (hwork : p.work = (node, frame) :: work) (h : before ++ [e] <+: ((p.scene engine).own node frame).events) :
      Does engine p (p.past ++ before) e
  | enter {q : Place} {past : List Event} {name : String} (hleads : Leads engine p q)
      (hpast : q.past = past ++ [.enter name]) (hnames : q.names = name :: p.names) : Does engine p past (.enter name)

theorem concat_prefix_append {α : Type} {before a b : List α} {e : α} (h : before ++ [e] <+: a ++ b) :
    before ++ [e] <+: a ∨ ∃ rest, before = a ++ rest ∧ rest ++ [e] <+: b := by
  rcases List.prefix_or_prefix_of_prefix h (List.prefix_append a b) with ha | ha
  · exact .inl ha
  · rcases List.prefix_concat_iff.mp ha with rfl | ⟨rest, rfl⟩
    · exact .inl (List.prefix_refl _)
    · rw [List.append_assoc] at h
      exact .inr ⟨rest, rfl, (List.prefix_append_right_inj a).mp h⟩

theorem exists_does_visit {found : Scene.Found} {events before : List Event} {e : Event}
    (hinside : Leads engine p (p.inside found events))
    (ih : ∀ {before e}, e ≠ .leave → before ++ [e] <+: ((p.inside found events).run engine).events →
      ∃ q, Reaches engine (p.inside found events) q ∧ Does engine q ((p.inside found events).past ++ before) e)
    (hleave : e ≠ .leave) (h : before ++ [e] <+: visit engine p found events) :
    ∃ q, Reaches engine p q ∧ Does engine q (p.past ++ (events ++ before)) e := by
  have hsplit : visit engine p found events =
      [.enter found.name] ++ (((p.inside found events).run engine).events ++ [.leave]) := by
    rw [visit, List.cons_append]
    rfl
  rw [hsplit] at h
  rcases concat_prefix_append h with henter | ⟨inner, rfl, hinner⟩
  · obtain ⟨rfl, rfl⟩ : before = [] ∧ e = .enter found.name := by
      cases before with
      | nil => simpa using henter
      | cons _ _ => simp at henter
    refine ⟨p, .refl, .enter hinside ?_ rfl⟩
    rw [List.append_nil]
    rfl
  · rcases concat_prefix_append hinner with hrun | ⟨rest, rfl, hlast⟩
    · obtain ⟨q, hq, hdoes⟩ := ih hleave hrun
      refine ⟨q, .head hinside hq, ?_⟩
      simpa only [inside, List.append_assoc] using hdoes
    · cases rest with
      | nil => exact absurd (by simpa using hlast) hleave
      | cons _ _ => simp at hlast

/-- What comes about in the run of a place does so at a place that is reached from there. -/
theorem exists_does (he : engine.helpers = Builtin.all) (p : Place) {before : List Event} {e : Event} (hleave : e ≠ .leave)
    (h : before ++ [e] <+: (p.run engine).events) :
    ∃ q, Reaches engine p q ∧ Does engine q (p.past ++ before) e := by
  induction p using (leads_wf engine).induction generalizing before e with
  | _ p ih =>
    have hown : ∀ {node frame work events o before}, p.work = (node, frame) :: work →
        (p.scene engine).own node frame = ⟨events, o⟩ → before ++ [e] <+: events →
        ∃ q, Reaches engine p q ∧ Does engine q (p.past ++ before) e := by
      intro node frame work events o before hwork hown h
      exact ⟨p, .refl, .own hwork (by rw [hown]; exact h)⟩
    have hlater : ∀ {work events before}, Leads engine p (p.forward work events) →
        before ++ [e] <+: ((p.forward work events).run engine).events →
        ∃ q, Reaches engine p q ∧ Does engine q (p.past ++ (events ++ before)) e := by
      intro work events before hleads h
      obtain ⟨q, hq, hdoes⟩ := ih _ hleads hleave h
      exact ⟨q, .head hleads hq, by simpa only [forward, List.append_assoc] using hdoes⟩
    cases course he p with
    | done _ hrun =>
      rw [hrun] at h
      exact absurd (List.prefix_nil.mp h) (by simp)
    | failed hwork ho hrun =>
      rw [hrun] at h
      exact hown hwork ho h
    | on hwork ho hleads hrun =>
      rw [hrun] at h
      rcases concat_prefix_append h with h | ⟨rest, rfl, hrest⟩
      · exact hown hwork ho h
      · exact hlater hleads hrest
    | lost hwork ho hinside _ hrun =>
      rw [hrun] at h
      rcases concat_prefix_append h with h | ⟨rest, rfl, hrest⟩
      · exact hown hwork ho h
      · exact exists_does_visit hinside (fun hleave h => ih _ hinside hleave h) hleave hrest
    | back hwork ho hinside hleads hrun =>
      rw [hrun] at h
      rcases concat_prefix_append h with h | ⟨rest, rfl, hrest⟩
      · rcases concat_prefix_append h with h | ⟨rest, rfl, hrest⟩
        · exact hown hwork ho h
        · exact exists_does_visit hinside (fun hleave h => ih _ hinside hleave h) hleave hrest
      · exact hlater hleads hrest

/-! ## Where failures come from -/

/-- The name that a failure at the place carries. -/
def owner (p : Place) : Option String :=
  p.template.name.or p.names.head?

def settle (p : Place) (d : Diagnostic) : Diagnostic :=
  { d with name := d.name.or p.owner }

theorem settle_inside (p : Place) (found : Scene.Found) (events : List Event) (d : Diagnostic) :
    p.settle ((d.inside found.template).named found.name) = (p.inside found events).settle d := by
  unfold settle owner inside Diagnostic.inside
  cases hd : d.name <;> cases ht : found.template.name <;> simp [Diagnostic.named, hd]

/-- A failure is that of a node by itself, under the name of the place. -/
theorem exists_failed (he : engine.helpers = Builtin.all) (p : Place) {d : Diagnostic}
    (h : (p.run engine).outcome = .error d) :
    ∃ q node frame work d₀, Reaches engine p q ∧ q.work = (node, frame) :: work ∧
      ((q.scene engine).own node frame).outcome = .error d₀ ∧ p.settle d = q.settle d₀ := by
  induction p using (leads_wf engine).induction generalizing d with
  | _ p ih =>
    cases course he p with
    | done _ hrun =>
      rw [hrun] at h
      cases h
    | @failed node frame work events d' hwork ho hrun =>
      rw [hrun] at h
      obtain rfl := Except.error.inj h
      exact ⟨p, node, frame, work, d', .refl, hwork, by rw [ho], rfl⟩
    | on hwork ho hleads hrun =>
      rw [hrun] at h
      obtain ⟨q, node, frame, work, d₀, hq, hrest⟩ := ih _ hleads h
      exact ⟨q, node, frame, work, d₀, .head hleads hq, hrest⟩
    | lost hwork ho hinside hlost hrun =>
      rw [hrun] at h
      obtain rfl := Except.error.inj h
      obtain ⟨q, node, frame, work, d₀, hq, hwork', ho', hsettle⟩ := ih _ hinside hlost
      exact ⟨q, node, frame, work, d₀, .head hinside hq, hwork', ho', (settle_inside p _ _ _).trans hsettle⟩
    | back hwork ho hinside hleads hrun =>
      rw [hrun] at h
      obtain ⟨q, node, frame, work, d₀, hq, hrest⟩ := ih _ hleads h
      exact ⟨q, node, frame, work, d₀, .head hleads hq, hrest⟩

end Place

end Curly
