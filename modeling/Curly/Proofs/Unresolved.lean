import Curly.Proofs.Render.InStep

/-!
# Policies for paths that do not resolve

What an engine is told to do about paths that do not resolve is asked for where a
path is written, and for nothing else: not for arguments, heads of blocks and
contexts, and what it writes is read by no helper. So renders under different
policies take the same course up to the first such path
(`Engine.render_unresolved`).
-/

namespace Curly

/-! ## Runs that differ in some events -/

/-- The event writes no text. -/
def Event.silent (e : Event) : Bool :=
  e.written?.isNone

/-- The event is anything but the writing of the empty text. -/
def Event.telling (e : Event) : Bool :=
  e ≠ .write ""

namespace Run

/-- The runs have the same outcome, and the same events among those that are kept. -/
def SameBut (keep : Event → Bool) (α : Type) (r r' : Run α) : Prop :=
  r.outcome = r'.outcome ∧ r.events.filter keep = r'.events.filter keep

variable {keep : Event → Bool}

theorem SameBut.refl {α : Type} (r : Run α) : SameBut keep α r r :=
  ⟨rfl, rfl⟩

theorem sameBut_eq_seen : SameBut keep = Seen (Option.guard keep) (Option.guard keep) := by
  funext α r r'
  rw [SameBut, Seen, List.filterMap_eq_filter]

theorem SameBut.congruence (keep : Event → Bool) : RenderCongruence (SameBut keep) := by
  rw [sameBut_eq_seen]
  exact Seen.congruence fun _ _ => rfl

theorem textOf_telling (events : List Event) : textOf (events.filter Event.telling) = textOf events := by
  induction events with
  | nil => rfl
  | cons e events ih =>
    have hcons : textOf (e :: events) = textOf [e] ++ textOf events := textOf_append [e] events
    by_cases he : e = .write ""
    · subst he
      rw [hcons, List.filter_cons_of_neg (by simp [Event.telling]), ih]
      rfl
    · rw [List.filter_cons_of_pos (by simpa [Event.telling] using he), hcons, ← ih]
      exact textOf_append [e] _

theorem silent_telling (events : List Event) :
    (events.filter Event.telling).filter Event.silent = events.filter Event.silent := by
  rw [List.filter_filter]
  congr 1
  funext e
  by_cases he : e = .write ""
  · subst he
    rfl
  · simp [Event.telling, he]

theorem SameBut.capture_eq {r r' : Run Unit} (h : SameBut Event.telling Unit r r') : r.capture = r'.capture := by
  obtain ⟨ho, hes⟩ := h
  have htext : textOf r.events = textOf r'.events := by
    rw [← textOf_telling r.events, hes, textOf_telling]
  have hsilent : r.events.filter Event.silent = r'.events.filter Event.silent := by
    rw [← silent_telling r.events, hes, silent_telling]
  show Run.mk (r.events.filter Event.silent) _ = Run.mk (r'.events.filter Event.silent) _
  rw [ho, htext, hsilent]

/-- How a run fails is kept by rendering, as a relation that looks at the first run only. -/
theorem fails_congruence : RenderCongruence fun _ r _ => r.FailsWith (¬ ·.cause.Undefined) where
  pure _ := .pure _
  fail h := .fail h
  bind h hf := h.bind fun a _ => hf a
  mapError hf h := h.mapError fun d hd => by rwa [hf]
  write _ := .of_ok rfl
  note _ _ := .of_ok rfl
  within _ h := h

end Run

/-! ## Policies -/

namespace Engine

def withUnresolved (engine : Engine) (policy : Unresolved) : Engine :=
  engine.withConfig { engine.config with unresolved := policy }

variable {engine : Engine} {rel : ∀ α : Type, Run α → Run α → Prop}

/-- Renders under two policies are related if what is done about a path that does not resolve is. -/
theorem renderTemplate_unresolved (c : RenderCongruence rel) (hrefl : ∀ {α : Type} (r : Run α), rel α r r)
    (he : engine.helpers = Builtin.all) {policy policy' : Unresolved}
    (h : ∀ template depth depth' p missing,
      rel Unit (((engine.withUnresolved policy).scene depth template).renderUnresolved p missing)
        (((engine.withUnresolved policy').scene depth' template).renderUnresolved p missing))
    (depth : Nat) (template : Template) (frame : Frame) :
    rel Unit ((engine.withUnresolved policy).renderTemplate depth template frame)
      ((engine.withUnresolved policy').renderTemplate depth template frame) := by
  have hstep : InStep rel (engine.withUnresolved policy) (engine.withUnresolved policy') :=
    inStep_withConfig hrefl he rfl rfl h
  exact hstep.renderTemplate c rfl depth template frame

/-- Paths that do not resolve make a render fail only if the engine is told to throw. -/
theorem render_fails_unresolved (he : engine.helpers = Builtin.all) {policy : Unresolved} (hpolicy : policy ≠ .throw)
    (template : Template) (value : Value) :
    ((engine.withUnresolved policy).render template value).FailsWith (¬ ·.cause.Undefined) := by
  have hhelper : ∀ name helper, (engine.withUnresolved policy).helper? name = some helper → ∀ v arguments,
      (helper v arguments).FailsWith (¬ ·.cause.Undefined) := by
    intro name helper hname v arguments d hd
    obtain ⟨_, _, _, rfl⟩ := helper_error he hname v arguments d hd
    exact id
  have hstep : InStep (fun _ r _ => r.FailsWith (¬ ·.cause.Undefined)) (engine.withUnresolved policy)
      (engine.withUnresolved policy) := by
    refine ⟨he, he, fun _ => rfl, rfl, fun name => ?_, fun name => ?_, fun template depth depth' p missing => ?_⟩
    · cases hname : (engine.withUnresolved policy).helper? name with
      | none => exact .none
      | some helper => exact .some fun v arguments => (hhelper name helper hname v arguments).capture
    · cases hname : (engine.withUnresolved policy).helper? name with
      | none => exact .none
      | some helper => exact .some fun v arguments => hhelper name helper hname v arguments
    · cases policy with
      | empty => exact .pure ()
      | format format => exact .of_ok rfl
      | throw => exact absurd rfl hpolicy
  exact (hstep.renderTemplate Run.fails_congruence rfl _ template (.root value)).capture

/-- Whether something or nothing is written for a path that does not resolve, the render ends the same way. -/
theorem render_format (he : engine.helpers = Builtin.all) (format : String) (template : Template) (value : Value) :
    (∃ text text', ((engine.withUnresolved .empty).render template value).outcome = .ok text ∧
      ((engine.withUnresolved (.format format)).render template value).outcome = .ok text') ∨
    ∃ d, ((engine.withUnresolved .empty).render template value).outcome = .error d ∧
      ((engine.withUnresolved (.format format)).render template value).outcome = .error d := by
  have hpath : ∀ template depth depth' p missing, Run.SameBut Event.silent Unit
      (((engine.withUnresolved .empty).scene depth template).renderUnresolved p missing)
      (((engine.withUnresolved (.format format)).scene depth' template).renderUnresolved p missing) :=
    fun _ _ _ _ _ => ⟨rfl, rfl⟩
  obtain ⟨ho, -⟩ := renderTemplate_unresolved (Run.SameBut.congruence Event.silent) .refl he hpath
    engine.config.recursionLimit template (.root value)
  cases hempty : ((engine.withUnresolved .empty).renderTemplate engine.config.recursionLimit template
      (.root value)).outcome with
  | ok _ => exact .inl ⟨_, _, congrArg (Except.map _) hempty, congrArg (Except.map _) (ho.symm.trans hempty)⟩
  | error d => exact .inr ⟨d, congrArg (Except.map _) hempty, congrArg (Except.map _) (ho.symm.trans hempty)⟩

/-- To write the empty format is to write nothing. -/
theorem render_format_empty (he : engine.helpers = Builtin.all) (template : Template) (value : Value) :
    (engine.withUnresolved (.format "")).render template value = (engine.withUnresolved .empty).render template value := by
  have hpath : ∀ template depth depth' p missing, Run.SameBut Event.telling Unit
      (((engine.withUnresolved (.format "")).scene depth template).renderUnresolved p missing)
      (((engine.withUnresolved .empty).scene depth' template).renderUnresolved p missing) :=
    fun _ _ _ _ _ => ⟨rfl, rfl⟩
  exact Run.SameBut.capture_eq
    (renderTemplate_unresolved (Run.SameBut.congruence Event.telling) .refl he hpath _ template (.root value))

/-- A render that throws for nothing does the same under any policy. -/
theorem render_throw (he : engine.helpers = Builtin.all) (policy : Unresolved) (template : Template) (value : Value) :
    Run.Unless Diagnostic.Cause.Undefined String ((engine.withUnresolved .throw).render template value)
      ((engine.withUnresolved policy).render template value) := by
  have hpath : ∀ template depth depth' p missing, Run.Unless Diagnostic.Cause.Undefined Unit
      (((engine.withUnresolved .throw).scene depth template).renderUnresolved p missing)
      (((engine.withUnresolved policy).scene depth' template).renderUnresolved p missing) :=
    fun _ _ _ _ _ => .inr ⟨_, rfl, trivial⟩
  exact (renderTemplate_unresolved (Run.Unless.congruence _) .refl he hpath _ template (.root value)).capture

/-- How renders differ that differ in the policy for paths that do not resolve.
To write nothing and to write a format end the same way, and never for such a
path; the empty format is nothing. What throwing renders, all policies render,
and where it alone fails, it fails for such a path. -/
theorem render_unresolved (he : engine.helpers = Builtin.all) (template : Template) (value : Value) :
    let render policy := (engine.withUnresolved policy).render template value
    (∀ format,
      (∀ d, (render .empty).outcome = .error d ∨ (render (.format format)).outcome = .error d →
        ∀ path missing, d.cause ≠ .undefinedBinding path missing) ∧
      ((∃ text text', (render .empty).outcome = .ok text ∧ (render (.format format)).outcome = .ok text') ∨
        ∃ d, (render .empty).outcome = .error d ∧ (render (.format format)).outcome = .error d)) ∧
    render (.format "") = render .empty ∧
    (∀ text, (render .throw).outcome = .ok text → ∀ policy, (render policy).outcome = .ok text) ∧
    ∀ d text, (render .throw).outcome = .error d → (render .empty).outcome = .ok text →
      ∃ path missing, d.cause = .undefinedBinding path missing := by
  intro render
  refine ⟨fun format => ⟨?_, render_format he format template value⟩, render_format_empty he template value, ?_, ?_⟩
  · rintro d (hd | hd) path missing hcause
    · exact render_fails_unresolved he (by simp) template value d hd (hcause ▸ trivial)
    · exact render_fails_unresolved he (by simp) template value d hd (hcause ▸ trivial)
  · intro text ho policy
    rcases render_throw he policy template value with hsame | ⟨d, hd, -⟩
    · exact (congrArg Run.outcome hsame).symm.trans ho
    · cases ho.symm.trans hd
  · intro d text hd ho
    rcases render_throw he .empty template value with hsame | ⟨d', hd', hcause⟩
    · cases ho.symm.trans ((congrArg Run.outcome hsame).symm.trans hd)
    · obtain rfl := Except.error.inj (hd'.symm.trans hd)
      cases hd : d'.cause with
      | undefinedBinding path missing => exact ⟨path, missing, rfl⟩
      | _ => simp [hd, Diagnostic.Cause.Undefined] at hcause

/-- A name that is missing is written as nothing or in a format, or makes the render fail. -/
theorem render_unresolved_name :
    ∃ t d, Template.compile none ("a" ++ tagText "x") = .ok t ∧
      (((new {}).withUnresolved .empty).render t .null).outcome = .ok "a" ∧
      (((new {}).withUnresolved (.format "?\x7b0\x7d")).render t .null).outcome = .ok "a?x" ∧
      (((new {}).withUnresolved .throw).render t .null).outcome = .error d ∧
      ∃ path missing, d.cause = .undefinedBinding path missing := by
  have hok : (Template.compile none ("a" ++ tagText "x")).isOk := by decide +kernel
  have hempty : (do
      let t ← (Template.compile none ("a" ++ tagText "x")).toOption
      (((new {}).withUnresolved .empty).render t .null).outcome.toOption) = some "a" := by decide +kernel
  have hformat : (do
      let t ← (Template.compile none ("a" ++ tagText "x")).toOption
      (((new {}).withUnresolved (.format "?\x7b0\x7d")).render t .null).outcome.toOption) = some "a?x" := by
    decide +kernel
  have hthrow : (do
      let t ← (Template.compile none ("a" ++ tagText "x")).toOption
      (((new {}).withUnresolved .throw).render t .null).outcome.toOption) = none := by decide +kernel
  obtain ⟨t, ht⟩ := Template.exists_of_isOk hok
  rw [ht] at hempty hformat hthrow
  have htext : (((new {}).withUnresolved .empty).render t .null).outcome = .ok "a" := Run.ok_of_toOption hempty
  cases ho : (((new {}).withUnresolved .throw).render t .null).outcome with
  | ok text => simp [Except.toOption, ho] at hthrow
  | error d =>
    obtain ⟨-, -, -, hundefined⟩ := @render_unresolved (new {}) rfl t .null
    exact ⟨t, d, ht, htext, Run.ok_of_toOption hformat, ho, hundefined d "a" ho htext⟩

end Engine

end Curly
