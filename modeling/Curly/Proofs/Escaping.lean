import Curly.Text.Entity
import Mathlib.Data.List.Basic
import Mathlib.Tactic.ByContra

/-!
# Escaped texts

Escaping makes a text longer unless it has no special character
(`Text.escaped_eq_self_iff`), and brings no brackets into it.
-/

namespace Curly

namespace Text

theorem toList_escaped (t : String) : (escaped t).toList = t.toList.flatMap fun c => (escapedChar c).toList := by
  simp [escaped, String.toList_join, List.flatMap_map]

theorem escapedChar_of_none {c : Char} (h : entity? c = none) : (escapedChar c).toList = [c] := by
  simp [escapedChar, h]

/-- An entity has more characters than the one that it stands for, and no brackets. -/
theorem entity_cases {c : Char} {entity : String} (h : entity? c = some entity) :
    1 < entity.toList.length ∧ ']' ∉ entity.toList := by
  unfold entity? at h
  split at h
  case h_8 => cases h
  all_goals
    obtain rfl := Option.some.inj h
    decide

theorem length_escaped (cs : List Char) :
    cs.length ≤ (cs.flatMap fun c => (escapedChar c).toList).length ∧
      ((∃ c ∈ cs, entity? c ≠ none) → cs.length < (cs.flatMap fun c => (escapedChar c).toList).length) := by
  induction cs with
  | nil => simp
  | cons c cs ih =>
    rw [List.flatMap_cons, List.length_append, List.length_cons]
    cases hc : entity? c with
    | none =>
      rw [escapedChar_of_none hc, List.length_singleton]
      refine ⟨by omega, ?_⟩
      rintro ⟨d, hd, hentity⟩
      rcases List.mem_cons.mp hd with rfl | hmem
      · exact absurd hc hentity
      · have := ih.2 ⟨d, hmem, hentity⟩
        omega
    | some entity =>
      have hchar : escapedChar c = entity := by simp [escapedChar, hc]
      have hlong := (entity_cases hc).1
      rw [hchar]
      exact ⟨by omega, fun _ => by omega⟩

theorem escaped_eq_self_iff {t : String} : escaped t = t ↔ ∀ c ∈ t.toList, entity? c = none := by
  constructor
  · intro h c hc
    by_contra hentity
    have hlong := (length_escaped t.toList).2 ⟨c, hc, hentity⟩
    rw [← toList_escaped, h] at hlong
    exact Nat.lt_irrefl _ hlong
  · intro h
    apply String.toList_injective
    rw [toList_escaped]
    have hself : ∀ c ∈ t.toList, (escapedChar c).toList = [c] := fun c hc => escapedChar_of_none (h c hc)
    rw [List.flatMap_congr hself]
    simp

theorem not_mem_escaped {t : String} (h : ']' ∉ t.toList) : ']' ∉ (escaped t).toList := by
  rw [toList_escaped]
  intro hmem
  obtain ⟨c, hc, hchar⟩ := List.mem_flatMap.mp hmem
  cases hentity : entity? c with
  | none =>
    rw [escapedChar_of_none hentity] at hchar
    obtain rfl := List.mem_singleton.mp hchar
    exact h hc
  | some entity =>
    have heq : escapedChar c = entity := by simp [escapedChar, hentity]
    rw [heq] at hchar
    exact (entity_cases hentity).2 hchar

end Text

end Curly
