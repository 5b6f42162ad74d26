import Curly.Proofs.Render.InStep

/-!
# Logging

Templates log while they are rendered, wherever a helper can be called, and
nothing else hears of it. So a render does the same whatever is done about the
messages, and what is gathered of them under a threshold is what the lowest one
gathers, less the messages that do not pass (`Engine.render_logging`).
-/

namespace Curly

/-- What is left of an event of a render that gathers all messages where they go to another journal, if to any, and
only past a threshold. -/
def Event.heard? (journal : Option Journal) (threshold : Option Severity) : Event → Option Event
  | .log .messages severity message =>
    if severity.passes threshold then journal.map fun j => .log j severity message else none
  | e => some e

section
variable {journal : Option Journal} {threshold : Option Severity}

theorem Event.heard?_silent {e : Event} (h : e.written? = none) :
    ∀ e' ∈ e.heard? journal threshold, e'.written? = none := by
  intro e' he'
  cases e with
  | log j severity message =>
    cases j with
    | messages =>
      rw [heard?] at he'
      split at he'
      · obtain ⟨j, -, rfl⟩ := Option.map_eq_some_iff.mp he'
        rfl
      · cases he'
    | shared =>
      obtain rfl := Option.some.inj he'
      rfl
  | write text => cases h
  | enter | leave =>
    obtain rfl := Option.some.inj he'
    rfl

/-- Messages are no text, so hearing them differently leaves the text as it is. -/
theorem textOf_heard (events : List Event) :
    textOf (events.filterMap (Event.heard? journal threshold)) = textOf events := by
  unfold textOf
  rw [List.filterMap_filterMap]
  congr 2
  funext e
  cases hw : e.written? with
  | some text =>
    cases e with
    | write text => exact hw
    | _ => cases hw
  | none =>
    refine Option.bind_eq_none_iff.mpr fun e' he' => ?_
    exact Event.heard?_silent hw e' he'

theorem filter_silent_heard (events : List Event) :
    (events.filter (·.written?.isNone)).filterMap (Event.heard? journal threshold) =
      (events.filterMap (Event.heard? journal threshold)).filter (·.written?.isNone) := by
  rw [List.filterMap_filter, List.filter_filterMap]
  congr 1
  funext e
  cases hw : e.written? with
  | some text =>
    cases e with
    | write text => rfl
    | _ => cases hw
  | none =>
    rw [Option.isNone_none, if_pos rfl]
    cases he : e.heard? journal threshold with
    | none => rfl
    | some e' => rw [Option.filter_some, Event.heard?_silent hw e' he, Option.isNone_none, if_pos rfl]

theorem logged_heard (events : List Event) :
    (events.filterMap (Event.heard? (some .messages) threshold)).filterMap (Event.logged? .messages) =
      (events.filterMap (Event.logged? .messages)).filter fun m => m.1.passes threshold := by
  rw [List.filterMap_filterMap, List.filter_filterMap]
  congr 1
  funext e
  cases e with
  | log j severity message =>
    cases j with
    | messages =>
      by_cases hpass : severity.passes threshold = true
      · simp [Event.heard?, Event.logged?, Option.filter_some, hpass]
      · simp [Event.heard?, Event.logged?, Option.filter_some, hpass]
    | shared => rfl
  | write | enter | leave => rfl

end

theorem Severity.passes_trace (severity : Severity) : severity.passes (some .trace) = true := by
  cases severity <;> rfl

/-! ## Helpers -/

/-- The plain helpers of two engines are related if each of the built-in ones is to itself. -/
theorem Engine.rel_helper? {rel : Helper → Helper → Prop} {e e' : Engine} (he : e.helpers = Builtin.all)
    (he' : e'.helpers = Builtin.all) (hlookup : rel Builtin.lookupHelper Builtin.lookupHelper)
    (hlog : rel (Builtin.logHelper e.journal e.config.logLevel) (Builtin.logHelper e'.journal e'.config.logLevel))
    (name : String) : Option.Rel rel (e.helper? name) (e'.helper? name) := by
  unfold helper?
  rw [he, he']
  cases hv : valueAt name Builtin.all with
  | none => exact .none
  | some registered =>
    cases registered with
    | block helper => exact .none
    | log => exact .some hlog
    | plain helper =>
      obtain rfl := Builtin.eq_lookupHelper hv
      exact .some hlookup

/-! ## Runs -/

namespace Run

/-- The second run is the first as it is heard through a journal and a threshold. -/
def Heard (journal : Option Journal) (threshold : Option Severity) (α : Type) (r r' : Run α) : Prop :=
  Seen (Event.heard? journal threshold) some α r r'

variable {journal : Option Journal} {threshold : Option Severity}

theorem Heard.congruence (journal : Option Journal) (threshold : Option Severity) :
    RenderCongruence (Heard journal threshold) := by
  apply Seen.congruence
  intro e he
  cases e with
  | log j severity message =>
    cases j with
    | messages => cases he
    | shared => rfl
  | write | enter | leave => rfl

theorem Heard.events_eq {α : Type} {r r' : Run α} (h : Heard journal threshold α r r') :
    r'.events = r.events.filterMap (Event.heard? journal threshold) := by
  rw [h.2, List.filterMap_some]

theorem Heard.capture {r r' : Run Unit} (h : Heard journal threshold Unit r r') :
    Heard journal threshold String r.capture r'.capture := by
  have htext : textOf r'.events = textOf r.events := by
    rw [h.events_eq, textOf_heard]
  refine ⟨?_, ?_⟩
  · show r.outcome.map _ = r'.outcome.map _
    rw [h.1, htext]
  · show (r.events.filter _).filterMap _ = (r'.events.filter _).filterMap _
    rw [h.events_eq, List.filterMap_some, filter_silent_heard]

end Run

theorem Builtin.heard_logHelper (journal : Option Journal) (threshold : Option Severity) (v : Value)
    (arguments : Arguments) :
    Run.Heard journal threshold Unit (logHelper (some .messages) (some .trace) v arguments)
      (logHelper journal threshold v arguments) := by
  unfold logHelper
  dsimp only
  rw [if_pos (Severity.passes_trace _), logEach_eq]
  generalize severityOf arguments = severity
  have hheard : (arguments.positional.map fun v => Event.log .messages severity v.text).filterMap
      (Event.heard? journal threshold) = arguments.positional.filterMap fun v =>
        if severity.passes threshold then journal.map fun j => .log j severity v.text else none :=
    List.filterMap_map
  cases journal with
  | none => exact ⟨rfl, by simp [hheard]⟩
  | some j =>
    dsimp only
    by_cases hpass : severity.passes threshold = true
    · rw [if_pos hpass, logEach_eq]
      exact ⟨rfl, by simp [hheard, hpass]⟩
    · rw [if_neg hpass]
      exact ⟨rfl, by simp [hheard, hpass]⟩

theorem Builtin.rel_lookupHelper {rel : ∀ α : Type, Run α → Run α → Prop} (c : RenderCongruence rel)
    (v : Value) (arguments : Arguments) : rel Unit (lookupHelper v arguments) (lookupHelper v arguments) := by
  unfold lookupHelper
  split
  · split
    · exact c.write _
    · exact c.pure ()
  · exact c.fail id

/-! ## Engines -/

namespace Engine

/-- The engine that gathers the messages of templates in the journal, if any, as far as they pass the threshold. -/
def logging (engine : Engine) (journal : Option Journal) (threshold : Option Severity) : Engine :=
  { engine with journal := journal, config := { engine.config with logLevel := threshold } }

variable {engine : Engine}

theorem logging_inStep (he : engine.helpers = Builtin.all) (journal : Option Journal) (threshold : Option Severity) :
    InStep (Run.Heard journal threshold) (engine.logging (some .messages) (some .trace))
      (engine.logging journal threshold) where
  builtin := he
  builtin' := he
  included _ := rfl
  tolerate := rfl
  text := by
    refine rel_helper? he he ?_ ?_
    · intro v arguments
      exact (Builtin.rel_lookupHelper (Run.Heard.congruence journal threshold) v arguments).capture
    · intro v arguments
      exact (Builtin.heard_logHelper journal threshold v arguments).capture
  helper := by
    refine rel_helper? he he ?_ ?_
    · exact Builtin.rel_lookupHelper (Run.Heard.congruence journal threshold)
    · exact Builtin.heard_logHelper journal threshold
  unresolved template depth depth' p missing := by
    unfold Scene.renderUnresolved
    dsimp only [scene, logging]
    cases engine.config.unresolved with
    | empty => exact ⟨rfl, rfl⟩
    | format text => exact ⟨rfl, rfl⟩
    | throw => exact ⟨rfl, rfl⟩

theorem render_heard (he : engine.helpers = Builtin.all) (journal : Option Journal) (threshold : Option Severity)
    (template : Template) (value : Value) :
    Run.Heard journal threshold String ((engine.logging (some .messages) (some .trace)).render template value)
      ((engine.logging journal threshold).render template value) :=
  ((logging_inStep he journal threshold).renderTemplate (Run.Heard.congruence journal threshold) rfl
    engine.config.recursionLimit template (.root value)).capture

/-- What is done about messages changes nothing but what becomes of them: the outcome stays, and the trace is that of
a render that gathers all messages, each of them passed on or dropped. What a threshold lets through of them is those
that matter enough, in their order, however the render ends. -/
theorem render_logging (he : engine.helpers = Builtin.all) (template : Template) (value : Value) :
    let gathered := (engine.logging (some .messages) (some .trace)).render template value
    (∀ journal threshold,
      ((engine.logging journal threshold).render template value).outcome = gathered.outcome ∧
      ((engine.logging journal threshold).render template value).events =
        gathered.events.filterMap (Event.heard? journal threshold)) ∧
    ∀ threshold, ((engine.logging (some .messages) threshold).render template value).logged .messages =
      (gathered.logged .messages).filter fun m => m.1.passes threshold := by
  intro gathered
  refine ⟨fun journal threshold => ?_, fun threshold => ?_⟩
  · have hheard := render_heard he journal threshold template value
    exact ⟨hheard.1.symm, hheard.events_eq⟩
  · unfold Run.logged
    rw [(render_heard he (some .messages) threshold template value).events_eq]
    exact logged_heard _

/-- A tag that logs while its arguments are evaluated, and then fails for how many they are. -/
theorem render_logging_failing :
    ∃ t d, Template.compile none (tagText "log 1 level='warn'" ++ tagText "log 2 level='debug'" ++
        tagText "lookup (log 3)") = .ok t ∧
      (((new {}).logging (some .messages) (some .trace)).render t .null).logged .messages =
        [(.warn, "1"), (.debug, "2"), (.info, "3")] ∧
      (((new {}).logging none none).render t .null).outcome = .error d ∧
      (((new {}).logging (some .messages) (some .info)).render t .null).outcome = .error d ∧
      (((new {}).logging (some .messages) (some .info)).render t .null).logged .messages =
        [(.warn, "1"), (.info, "3")] := by
  generalize hsource : tagText "log 1 level='warn'" ++ tagText "log 2 level='debug'" ++
    tagText "lookup (log 3)" = source
  have hok : (Template.compile none source).isOk := by
    subst hsource
    decide +kernel
  have hfails : (do
      let t ← (Template.compile none source).toOption
      (((new {}).logging (some .messages) (some .trace)).render t .null).outcome.toOption) = none := by
    subst hsource
    decide +kernel
  have hlogged : (do
      let t ← (Template.compile none source).toOption
      some ((((new {}).logging (some .messages) (some .trace)).render t .null).logged .messages)) =
        some [(.warn, "1"), (.debug, "2"), (.info, "3")] := by
    subst hsource
    decide +kernel
  obtain ⟨t, ht⟩ := Template.exists_of_isOk hok
  rw [ht] at hfails hlogged
  have hgathered : (((new {}).logging (some .messages) (some .trace)).render t .null).logged .messages =
      [(.warn, "1"), (.debug, "2"), (.info, "3")] := Option.some.inj hlogged
  obtain ⟨hsame, hpassed⟩ := @render_logging (new {}) rfl t .null
  cases ho : (((new {}).logging (some .messages) (some .trace)).render t .null).outcome with
  | ok text => simp [Except.toOption, ho] at hfails
  | error d =>
    refine ⟨t, d, ht, hgathered, (hsame none none).1.trans ho, (hsame (some .messages) (some .info)).1.trans ho, ?_⟩
    rw [hpassed, hgathered]
    decide

end Engine

end Curly
