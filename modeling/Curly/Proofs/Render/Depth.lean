import Curly.Proofs.Inclusion
import Curly.Proofs.Render.Course

/-!
# Depth

Inclusions nest as deep as the engine allows and no deeper. The number of the
templates that are entered and not left never exceeds the limit, an inclusion
leaves it as it was, and one that finds its template is refused if and only if
the limit is reached (`Engine.render_nested`). So rendering may count the
templates that it enters and need not count anything else to come to an end
(`Engine.counts_iff`).
-/

namespace Curly

/-! ## Counting -/

/-- Rendering that is told how many templates have been entered and not left. -/
def Engine.Counts (engine : Engine) (render : Nat → Template → Frame → Run Unit) : Prop :=
  ∀ entered template frame, render entered template frame =
    (Scene.renderNodes ⟨engine, template,
      if entered < engine.config.recursionLimit then some (render (entered + 1)) else none⟩
      template.nodes frame).mapError (·.inside template)

theorem Engine.Counts.eq {engine : Engine} {render : Nat → Template → Frame → Run Unit} (h : engine.Counts render)
    (depth : Nat) : ∀ entered, engine.config.recursionLimit - entered = depth → render entered = engine.renderTemplate depth := by
  induction depth with
  | zero =>
    intro entered hdepth
    have hlimit : ¬ entered < engine.config.recursionLimit := by omega
    funext template frame
    rw [h, if_neg hlimit, Engine.renderTemplate]
  | succ depth ih =>
    intro entered hdepth
    have hlimit : entered < engine.config.recursionLimit := by omega
    funext template frame
    rw [h, if_pos hlimit, ih (entered + 1) (by omega), Engine.renderTemplate]

/-- There is one way of rendering that counts, and it leaves as much depth as has not been used. -/
theorem Engine.counts_iff {engine : Engine} {render : Nat → Template → Frame → Run Unit} :
    engine.Counts render ↔ render = fun entered => engine.renderTemplate (engine.config.recursionLimit - entered) := by
  constructor
  · intro h
    funext entered
    exact h.eq _ entered rfl
  · rintro rfl entered template frame
    dsimp only
    by_cases hlimit : entered < engine.config.recursionLimit
    · obtain ⟨depth, hdepth⟩ := Nat.exists_eq_add_of_lt hlimit
      rw [if_pos hlimit, show engine.config.recursionLimit - entered = depth + 1 by omega,
        show engine.config.recursionLimit - (entered + 1) = depth by omega, Engine.renderTemplate]
    · rw [if_neg hlimit, Nat.sub_eq_zero_of_le (Nat.le_of_not_lt hlimit), Engine.renderTemplate]

/-! ## Reached places -/

namespace Place

variable {engine : Engine} {p q : Place} {frame : Frame} {work : Work}

theorem run_start (engine : Engine) (template : Template) (value : Value) :
    ((start template value).run engine).events =
      (engine.renderTemplate engine.config.recursionLimit template (.root value)).events := by
  rw [Engine.renderTemplate_eq, run, start, Scene.renderWork_of]
  rfl

theorem Reaches.opened (he : engine.helpers = Builtin.all) (h : Reaches engine p q)
    (hp : opened [] p.past = p.names) : Curly.opened [] q.past = q.names := by
  induction h with
  | refl => exact hp
  | tail _ hleads ih => exact hleads.opened he ih

theorem Reaches.names_le (h : Reaches engine p q) (hp : p.names.length ≤ engine.config.recursionLimit) :
    q.names.length ≤ engine.config.recursionLimit := by
  induction h with
  | refl => exact hp
  | tail _ hleads ih => exact hleads.names_le ih

theorem Reaches.past (he : engine.helpers = Builtin.all) (h : Reaches engine p q) :
    q.past ++ (q.run engine).events <+: p.past ++ (p.run engine).events := by
  induction h with
  | refl => exact List.prefix_refl _
  | tail _ hleads ih => exact (hleads.past he).trans ih

theorem exists_enter (he : engine.helpers = Builtin.all) {past : List Event} {name : String}
    (h : past ++ [.enter name] <+: (p.run engine).events) :
    ∃ q r, Reaches engine p q ∧ Leads engine q r ∧ r.past = p.past ++ past ++ [.enter name] ∧ r.names = name :: q.names := by
  obtain ⟨q, hq, hdoes⟩ := exists_does he p (by simp) h
  generalize hpast : p.past ++ past = before at hdoes
  cases hdoes with
  | own hwork hown =>
    have hstays : (Event.enter name).Stays := Scene.emits_own he _ _ _ (hown.subset (List.mem_concat_self ..))
    cases hstays
  | enter hleads hr hnames => exact ⟨q, _, hq, hleads, hr, hnames⟩

/-- There are never more templates entered than the limit allows. -/
theorem opened_le (he : engine.helpers = Builtin.all) (hnames : p.names.length ≤ engine.config.recursionLimit)
    (hp : opened [] p.past = p.names) (past : List Event) (h : past <+: (p.run engine).events) :
    (opened [] (p.past ++ past)).length ≤ engine.config.recursionLimit := by
  induction past using List.reverseRecOn with
  | nil =>
    rw [List.append_nil, hp]
    exact hnames
  | append_singleton past e ih =>
    have hbefore := ih ((List.prefix_append past [e]).trans h)
    cases e with
    | enter name =>
      obtain ⟨q, r, hq, hleads, hr, -⟩ := exists_enter he h
      have hreach : Reaches engine p r := hq.tail hleads
      rw [← List.append_assoc, ← hr, hreach.opened he hp]
      exact hreach.names_le hnames
    | leave =>
      rw [← List.append_assoc, opened_append]
      exact (List.tail_sublist _).length_le.trans hbefore
    | _ =>
      rw [← List.append_assoc, opened_append]
      exact hbefore

end Place

/-! ## Refused inclusions -/

/-- The run fails for the limit, and has entered nothing. -/
def Run.Refused (limit : Nat) (r : Run Unit) : Prop :=
  (∃ d, r.outcome = .error d ∧ d.cause = .recursionLimit limit) ∧ ∀ name, Event.enter name ∉ r.events

theorem Place.refused_iff {engine : Engine} (he : engine.helpers = Builtin.all) {p : Place} {frame : Frame}
    (hnames : p.names.length ≤ engine.config.recursionLimit) {name : PartialName} {context : Option Expression}
    (region : Region) {found : Scene.Found}
    (htarget : ((p.scene engine).target frame name context).outcome = .ok (some found)) :
    ((p.scene engine).renderNode (.inclusion name context region) frame).Refused engine.config.recursionLimit ↔
      p.names.length = engine.config.recursionLimit := by
  rcases ht : (p.scene engine).target frame name context with ⟨events, o⟩
  rw [ht] at htarget
  obtain rfl : o = .ok (some found) := htarget
  constructor
  · rintro ⟨-, henter⟩
    by_contra hne
    rw [renderNode_visit (lt_of_le_of_ne hnames hne) ht] at henter
    exact henter found.name (List.mem_append_right _ (List.mem_cons_self ..))
  · intro hlimit
    have hnone : (p.scene engine).included = none := by
      rw [Place.scene, hlimit, Nat.sub_self]
      rfl
    have hown : (p.scene engine).renderNode (.inclusion name context region) frame =
        (p.scene engine).own (.inclusion name context region) frame := renderNode_inclusion fun _ _ => hnone
    rw [hown]
    refine ⟨?_, fun n hn => ?_⟩
    · rw [Scene.own, ht, Run.bind_ok]
      dsimp only
      rw [hnone]
      exact ⟨_, rfl, rfl⟩
    · have hstays : (Event.enter n).Stays := Scene.emits_own he _ _ _ hn
      cases hstays

/-- Rendering comes to an end, and counts no more than the templates that are
entered and not left. There are never more of them than the limit, as many after
an inclusion as before it, and the limit is what an inclusion is refused for. -/
theorem Engine.render_nested {engine : Engine} (he : engine.helpers = Builtin.all) (template : Template)
    (value : Value) :
    let limit := engine.config.recursionLimit
    let trace := (engine.renderTemplate limit template (.root value)).events
    (∃! render, engine.Counts render) ∧
    (∀ render, engine.Counts render → engine.render template value = (render 0 template (.root value)).capture) ∧
    ((∃ text, (engine.render template value).outcome = .ok text) ∨ ∃ d, (engine.render template value).outcome = .error d) ∧
    (WellFounded fun q p => Place.Leads engine p q) ∧
    (∀ past, past <+: trace → (opened [] past).length ≤ limit) ∧
    (∀ past name, past ++ [.enter name] <+: trace → ∃ p q, Place.Reaches engine (.start template value) p ∧
      Place.Leads engine p q ∧ q.past = past ++ [.enter name] ∧ q.names = name :: p.names) ∧
    ∀ p, Place.Reaches engine (.start template value) p →
      p.past ++ (p.run engine).events <+: trace ∧ opened [] p.past = p.names ∧
      ∀ name context region frame work, p.work = (.inclusion name context region, frame) :: work →
        let tag := (p.scene engine).renderNode (.inclusion name context region) frame
        opened [] (p.past ++ tag.events) = opened [] p.past ∧
        ∀ found, ((p.scene engine).target frame name context).outcome = .ok (some found) →
          (tag.Refused limit ↔ (opened [] p.past).length = limit) := by
  intro limit trace
  have htrace : trace = ((Place.start template value).run engine).events := (Place.run_start engine template value).symm
  refine ⟨⟨_, Engine.counts_iff.mpr rfl, fun _ h => Engine.counts_iff.mp h⟩, ?_, ?_, Place.leads_wf engine, ?_, ?_, ?_⟩
  · intro render h
    rw [Engine.counts_iff.mp h]
    rfl
  · cases (engine.render template value).outcome with
    | ok text => exact .inl ⟨text, rfl⟩
    | error d => exact .inr ⟨d, rfl⟩
  · intro past h
    rw [htrace] at h
    exact Place.opened_le he (Nat.zero_le _) rfl past h
  · intro past name h
    rw [htrace] at h
    exact Place.exists_enter he h
  · intro p hp
    have hopened := hp.opened he rfl
    refine ⟨htrace ▸ hp.past he, hopened, fun name context region frame work hwork => ⟨?_, fun found hfound => ?_⟩⟩
    · rw [opened_append, Place.renderNode_balanced he]
    · rw [hopened]
      exact Place.refused_iff he (hp.names_le (Nat.zero_le _)) region hfound

/-- The engine in which a template may be included, as deep as given. -/
def Engine.nesting (limit : Nat) (name : String) (template : Template) : Engine :=
  { including name template with config := { recursionLimit := limit } }

/-- A template that includes itself is refused the third time. -/
theorem Engine.render_nested_cycle :
    ∃ t, Template.compile (some "p") (inclusionTag "p") = .ok t ∧
      ((nesting 2 "p" t).render t .null).result = .error (.recursionLimit 2) ∧
      ∀ past, past <+: ((nesting 2 "p" t).renderTemplate 2 t (.root .null)).events → (opened [] past).length ≤ 2 := by
  have hok : (Template.compile (some "p") (inclusionTag "p")).isOk := by decide +kernel
  have hrender : (Template.compile (some "p") (inclusionTag "p")).toOption.map
      (fun t => ((nesting 2 "p" t).render t .null).result) = some (.error (.recursionLimit 2)) := by decide +kernel
  obtain ⟨t, ht⟩ := Template.exists_of_isOk hok
  rw [ht] at hrender
  obtain ⟨-, -, -, -, hopened, -⟩ := @Engine.render_nested (nesting 2 "p" t) rfl t .null
  exact ⟨t, ht, Option.some.inj hrender, hopened⟩

end Curly
