import Curly.Proofs.Render.Compare

/-!
# Effects of runs

What a run emits and how it fails follows from the same of its parts. The plain
built-in helpers write escaped text and log, so what is evaluated inside a tag
logs and does nothing else (`Scene.emits_evaluate`).
-/

namespace Curly

namespace Run

variable {α β : Type}

/-! ## Events -/

def Emits (P : Event → Prop) (r : Run α) : Prop :=
  ∀ e ∈ r.events, P e

section
variable {P : Event → Prop}

theorem Emits.pure (a : α) : (pure a : Run α).Emits P := by
  intro e he
  cases he

theorem Emits.fail (d : Diagnostic) : (Run.fail d : Run α).Emits P := by
  intro e he
  cases he

theorem Emits.ofExcept (o : Except Diagnostic α) : (Run.ofExcept o).Emits P := by
  intro e he
  cases he

theorem Emits.emit {e : Event} (h : P e) : (Run.emit e).Emits P := by
  intro e' he
  obtain rfl := List.mem_singleton.mp he
  exact h

theorem Emits.bind {r : Run α} {f : α → Run β} (h : r.Emits P) (hf : ∀ a, r.outcome = .ok a → (f a).Emits P) :
    (r >>= f).Emits P := by
  rcases r with ⟨es, d | a⟩
  · exact h
  · intro e he
    rcases List.mem_append.mp he with he | he
    · exact h e he
    · exact hf a rfl e he

theorem Emits.mapError {r : Run α} (h : r.Emits P) (f : Diagnostic → Diagnostic) : (r.mapError f).Emits P :=
  h

theorem Emits.mono {Q : Event → Prop} {r : Run α} (h : r.Emits P) (hpq : ∀ e, P e → Q e) : r.Emits Q :=
  fun e he => hpq e (h e he)

end

/-! ## Failures -/

def FailsWith (P : Diagnostic → Prop) (r : Run α) : Prop :=
  ∀ d, r.outcome = .error d → P d

section
variable {P Q : Diagnostic → Prop}

theorem FailsWith.of_ok {r : Run α} {a : α} (h : r.outcome = .ok a) : r.FailsWith P := by
  intro d hd
  rw [h] at hd
  cases hd

theorem FailsWith.pure (a : α) : (pure a : Run α).FailsWith P :=
  fun _ h => nomatch h

theorem FailsWith.fail {d : Diagnostic} (h : P d) : (Run.fail d : Run α).FailsWith P := by
  intro d' hd
  obtain rfl := Except.error.inj hd
  exact h

theorem FailsWith.ofExcept {o : Except Diagnostic α} (h : ∀ d, o = .error d → P d) : (Run.ofExcept o).FailsWith P :=
  h

theorem FailsWith.bind {r : Run α} {f : α → Run β} (h : r.FailsWith P)
    (hf : ∀ a, r.outcome = .ok a → (f a).FailsWith P) : (r >>= f).FailsWith P := by
  rcases r with ⟨es, d | a⟩
  · exact fun d' hd => h d' (congrArg Except.error (Except.error.inj hd))
  · exact hf a rfl

theorem FailsWith.mapError {r : Run α} {f : Diagnostic → Diagnostic} (h : r.FailsWith P) (hf : ∀ d, P d → Q (f d)) :
    (r.mapError f).FailsWith Q := by
  rcases r with ⟨es, d | a⟩
  · intro d' hd
    obtain rfl := Except.error.inj hd
    exact hf d (h d rfl)
  · exact fun _ hd => nomatch hd

theorem FailsWith.capture {r : Run Unit} (h : r.FailsWith P) : r.capture.FailsWith P := by
  rcases r with ⟨es, d | a⟩
  · exact fun d' hd => h d' (congrArg Except.error (Except.error.inj hd))
  · exact fun _ hd => nomatch hd

theorem FailsWith.forM {render : α → Run Unit} {steps : List α} (h : ∀ a ∈ steps, (render a).FailsWith P) :
    (forM steps render).FailsWith P := by
  induction steps with
  | nil => exact .pure ()
  | cons a steps ih =>
    rw [List.forM_cons]
    exact (h a (List.mem_cons_self ..)).bind fun _ _ => ih fun b hb => h b (List.mem_cons_of_mem _ hb)

end

end Run

/-! ## Plain helpers -/

/-- Events that neither write nor enter or leave a template. -/
def Event.Logs : Event → Prop
  | .log .. => True
  | _ => False

theorem Run.emits_capture {P : Event → Prop} {r : Run Unit} (h : r.Emits fun e => P e ∨ ∃ text, e = .write text) :
    r.capture.Emits P := by
  intro e he
  obtain ⟨he, hw⟩ := List.mem_filter.mp he
  refine (h e he).resolve_right ?_
  rintro ⟨text, rfl⟩
  cases hw

theorem Builtin.eq_lookupHelper {name : String} {helper : Helper}
    (h : valueAt name all = some (.plain helper)) : helper = lookupHelper := by
  have hm := mem_of_valueAt h
  simp only [all, List.mem_cons, Prod.mk.injEq, Registered.plain.injEq, reduceCtorEq, and_false,
    List.not_mem_nil, or_false, false_or] at hm
  exact hm.2

theorem Engine.helper?_builtin {engine : Engine} (he : engine.helpers = Builtin.all) {name : String} {helper : Helper}
    (h : engine.helper? name = some helper) :
    helper = Builtin.lookupHelper ∨ helper = Builtin.logHelper engine.journal engine.config.logLevel := by
  unfold Engine.helper? at h
  rw [he] at h
  split at h
  · rename_i hv
    obtain rfl := Option.some.inj h
    exact .inl (Builtin.eq_lookupHelper hv)
  · exact .inr (Option.some.inj h).symm
  · cases h

theorem Run.emits_writeEscaped {P : Event → Prop} {text : String}
    (h : ∀ piece ∈ Text.escapedPieces text, P (.write piece)) : (Run.writeEscaped text).Emits P := by
  intro e he
  obtain ⟨piece, hp, rfl⟩ := List.mem_map.mp he
  exact h piece hp

theorem Builtin.logEach_eq (journal : Journal) (severity : Severity) (vs : List Value) :
    logEach journal severity vs = ⟨vs.map fun v => .log journal severity v.text, .ok ()⟩ := by
  induction vs with
  | nil => rfl
  | cons v vs ih =>
    rw [logEach, ih]
    rfl

theorem Builtin.emits_logEach {P : Event → Prop} (h : ∀ j s m, P (.log j s m)) (journal : Journal)
    (severity : Severity) (vs : List Value) : (logEach journal severity vs).Emits P := by
  rw [logEach_eq]
  intro e he
  obtain ⟨v, -, rfl⟩ := List.mem_map.mp he
  exact h _ _ _

/-- The plain helpers write escaped text, and log. -/
theorem Engine.emits_helper {engine : Engine} (he : engine.helpers = Builtin.all) {name : String} {helper : Helper}
    (h : engine.helper? name = some helper) {P : Event → Prop}
    (hwrite : ∀ text, ∀ piece ∈ Text.escapedPieces text, P (.write piece)) (hlog : ∀ j s m, P (.log j s m))
    (v : Value) (arguments : Arguments) : (helper v arguments).Emits P := by
  rcases Engine.helper?_builtin he h with rfl | rfl
  · unfold Builtin.lookupHelper
    split
    · split
      · exact Run.emits_writeEscaped (hwrite _)
      · exact .pure ()
    · exact .fail _
  · unfold Builtin.logHelper
    split
    · exact .pure ()
    · dsimp only
      split
      · exact Builtin.emits_logEach hlog _ _ _
      · exact .pure ()

/-- The plain helpers fail for the number of their arguments and nothing else. -/
theorem Engine.helper_error {engine : Engine} (he : engine.helpers = Builtin.all) {name : String} {helper : Helper}
    (h : engine.helper? name = some helper) (v : Value) (arguments : Arguments) :
    (helper v arguments).FailsWith fun d => ∃ name expected received, d = .arity name expected received := by
  rcases Engine.helper?_builtin he h with rfl | rfl
  · unfold Builtin.lookupHelper
    split
    · split
      · exact .of_ok rfl
      · exact .pure _
    · exact .fail ⟨_, _, _, rfl⟩
  · unfold Builtin.logHelper
    split
    · exact .pure _
    · dsimp only
      split
      · exact .of_ok (congrArg Run.outcome (Builtin.logEach_eq ..))
      · exact .pure _

/-! ## Evaluation -/

namespace Scene

variable {scene : Scene}

theorem helper?_eq_some {name : Option String} {helper : Helper} (h : scene.helper? name = some helper) :
    ∃ n, scene.engine.helper? n = some helper := by
  obtain ⟨n, -, hn⟩ := Option.bind_eq_some_iff.mp h
  exact ⟨n, hn⟩

theorem emits_callText (he : scene.engine.helpers = Builtin.all) {arguments : Run Arguments}
    (ha : arguments.Emits Event.Logs) (frame : Frame) (callee : Path) (region : Region) :
    (scene.callText frame callee region arguments).Emits Event.Logs := by
  unfold callText
  cases h : scene.helper? callee.helperName with
  | none => exact .fail _
  | some helper =>
    obtain ⟨name, hname⟩ := helper?_eq_some h
    refine ha.bind fun arguments _ => Run.Emits.mapError (Run.emits_capture ?_) _
    exact Engine.emits_helper he hname (fun _ piece _ => .inr ⟨piece, rfl⟩) (fun _ _ _ => .inl trivial) _ _

mutual

theorem emits_evaluate (he : scene.engine.helpers = Builtin.all) (frame : Frame) :
    ∀ e, (scene.evaluate frame e).Emits Event.Logs
  | .literal _ _ => by rw [evaluate]; exact .pure _
  | .path _ => by rw [evaluate]; exact .pure _
  | .call callee operands region => by
    have ho := emits_evaluateOperands he frame operands
    rw [evaluate]
    exact (emits_callText he ho frame callee region).bind fun _ _ => .pure _

theorem emits_evaluateOperands (he : scene.engine.helpers = Builtin.all) (frame : Frame) :
    ∀ o, (scene.evaluateOperands frame o).Emits Event.Logs
  | ⟨positional, named⟩ => by
    have hp := emits_evaluateAll he frame positional
    have hn := emits_evaluateNamed he frame named
    rw [evaluateOperands]
    exact hp.bind fun _ _ => (hn []).bind fun _ _ => .pure _

theorem emits_evaluateAll (he : scene.engine.helpers = Builtin.all) (frame : Frame) :
    ∀ es, (scene.evaluateAll frame es).Emits Event.Logs
  | [] => by rw [evaluateAll]; exact .pure _
  | e :: es => by
    have hhead := emits_evaluate he frame e
    have htail := emits_evaluateAll he frame es
    rw [evaluateAll]
    exact hhead.bind fun _ _ => htail.bind fun _ _ => .pure _

theorem emits_evaluateNamed (he : scene.engine.helpers = Builtin.all) (frame : Frame) :
    ∀ es seen, (scene.evaluateNamed frame seen es).Emits Event.Logs
  | [], _ => by rw [evaluateNamed]; exact .pure _
  | (_, e) :: es, _ => by
    have hhead := emits_evaluate he frame e
    have htail := emits_evaluateNamed he frame es
    rw [evaluateNamed]
    exact hhead.bind fun _ _ => htail _

end

theorem emits_missingHelper {α : Type} {P : Event → Prop} (region : Region) :
    (scene.missingHelper region : Run α).Emits P :=
  .fail _

end Scene

end Curly
