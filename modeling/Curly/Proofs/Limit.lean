import Curly.Proofs.Inclusion
import Curly.Proofs.Render.InStep

/-!
# The recursion limit

Nothing depends on how deep inclusions may be nested but where they are refused.
With a higher limit, a render that has not failed for the limit does exactly the
same (`Engine.render_limited`).
-/

namespace Curly

namespace Engine

/-- The engine that lets inclusions be nested as deep as given. -/
def limited (engine : Engine) (limit : Nat) : Engine :=
  engine.withConfig { engine.config with recursionLimit := limit }

variable {engine : Engine}

theorem limited_inStep (he : engine.helpers = Builtin.all) (causes : Diagnostic.Cause → Prop) (limit limit' : Nat) :
    InStep (Run.Unless causes) (engine.limited limit) (engine.limited limit') :=
  inStep_withConfig (fun _ => .refl _) he rfl rfl fun _ _ _ _ _ => .refl _

/-- A render that may nest deeper than another does the same, unless the other is refused an inclusion. -/
theorem renderTemplate_limited (he : engine.helpers = Builtin.all) (limit limit' depth : Nat) :
    ∀ depth', depth ≤ depth' → ∀ template frame, Run.Unless (· = .recursionLimit limit) Unit
      ((engine.limited limit).renderTemplate depth template frame)
      ((engine.limited limit').renderTemplate depth' template frame) := by
  induction depth with
  | zero =>
    intro depth' _ template frame
    rw [renderTemplate_eq, renderTemplate_eq]
    refine Run.Unless.mapError (Diagnostic.cause_inside _) (Scene.InStep.renderNodes (Run.Unless.congruence _) ?_ _ _)
    exact (limited_inStep he _ limit limit').scene fun name inner frame => .inr ⟨.recursion limit, rfl, rfl⟩
  | succ depth ih =>
    intro depth' hdepth template frame
    obtain ⟨rest, rfl⟩ := Nat.exists_eq_add_of_le hdepth
    rw [Nat.add_right_comm, renderTemplate_eq, renderTemplate_eq]
    refine Run.Unless.mapError (Diagnostic.cause_inside _) (Scene.InStep.renderNodes (Run.Unless.congruence _) ?_ _ _)
    refine (limited_inStep he _ limit limit').scene fun name inner frame => ?_
    have hinner := ih (depth + rest) (Nat.le_add_right ..) inner frame
    exact (Run.Unless.congruence _).within name (hinner.mapError fun _ => rfl)

/-- A render that does not fail for its limit does the same under any higher one. -/
theorem render_limited (he : engine.helpers = Builtin.all) {limit limit' : Nat} (h : limit ≤ limit')
    {template : Template} {value : Value}
    (hother : ∀ d, ((engine.limited limit).render template value).outcome = .error d →
      ∀ refused, d.cause ≠ .recursionLimit refused) :
    (engine.limited limit').render template value = (engine.limited limit).render template value := by
  have hrender : Run.Unless (· = .recursionLimit limit) String ((engine.limited limit).render template value)
      ((engine.limited limit').render template value) :=
    (renderTemplate_limited he limit limit' limit limit' h template (.root value)).capture
  rcases hrender with hsame | ⟨d, hd, hcause⟩
  · exact hsame.symm
  · exact absurd hcause (hother d hd limit)

/-- A template that includes another needs to nest no deeper than that. -/
theorem render_limited_including :
    ∃ t inner, Template.compile none ("a" ++ inclusionTag "p") = .ok t ∧ Template.compile none "b" = .ok inner ∧
      1 ≤ 64 ∧ (((including "p" inner).limited 1).render t .null).outcome = .ok "ab" ∧
      ((including "p" inner).limited 64).render t .null = ((including "p" inner).limited 1).render t .null := by
  have hok : (Template.compile none ("a" ++ inclusionTag "p")).isOk := by decide +kernel
  have hinner : (Template.compile none "b").isOk := by decide +kernel
  have hrender : (do
      let t ← (Template.compile none ("a" ++ inclusionTag "p")).toOption
      let inner ← (Template.compile none "b").toOption
      (((including "p" inner).limited 1).render t .null).outcome.toOption) = some "ab" := by decide +kernel
  obtain ⟨t, ht⟩ := Template.exists_of_isOk hok
  obtain ⟨inner, hi⟩ := Template.exists_of_isOk hinner
  rw [ht, hi] at hrender
  have ho : (((including "p" inner).limited 1).render t .null).outcome = .ok "ab" := Run.ok_of_toOption hrender
  refine ⟨t, inner, ht, hi, by decide, ho, render_limited rfl (by decide) fun d hd => ?_⟩
  rw [ho] at hd
  cases hd

end Engine

end Curly
