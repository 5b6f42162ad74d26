import Curly.Proofs.Written.Path

/-!
# A segment behind a written path

A segment in brackets, with a point before it, goes on any written path, and what
is read goes one step further than the path (`Path.Writable.reads_behind`).
-/

namespace Curly.Path

/-- The written path with one more segment in brackets. -/
def part (p : Path) (segment : String) : List Char :=
  p.written ++ behind [segment]

/-- The path is the first one with one more segment. -/
structure Extends (p : Path) (segment : String) (q : Path) : Prop where
  origin : q.origin = p.origin
  segments : q.segments = p.segments ++ [segment]
  isSimple : q.isSimple = false

variable {p : Path} {segment : String}

/-! ## Reading -/

theorem spellsSegments_segment (h : ']' ∉ segment.toList) : SpellsSegments (joined [segment]) [segment] :=
  spellsSegments_joined (List.forall_mem_singleton.mpr h)

theorem spells_namePart {name : List Char} (h : isName name = true) (hsegment : ']' ∉ segment.toList) :
    Spells (name ++ behind [segment]) (.context 0) [String.ofList name, segment] := by
  have hname := isIdentifier_of_isName h
  have hbare := isBare_of_isIdentifier hname
  have hsegments : SpellsSegments (name ++ behind [segment]) [String.ofList name, segment] :=
    .cons (.bare hbare) rfl (spellsSegments_segment hsegment)
  have hword : (name ++ behind [segment]).takeWhile (!isSeparator ·) = name :=
    takeWhile_name_append (fun c hc => (hbare.chars c hc).1) (by simp [behind, isSeparator])
  have hhead : (name ++ behind [segment]).head? ≠ some '@' := by
    rw [List.head?_append_of_ne_nil _ hbare.nonempty]
    exact head?_of_isIdentifier hname rfl
  have hhere : SpellsHere (name ++ behind [segment]) [String.ofList name, segment] := by
    refine .segments hsegments ?_
    rw [hword]
    exact ne_this_of_isName h
  exact @Spells.context 0 _ _ hhere hhead

theorem spells_herePart (hops : Nat) (hsegment : ']' ∉ segment.toList) :
    Spells (hopsText hops ++ (target [] ++ behind [segment])) (.context hops) [segment] := by
  have hhere : SpellsHere (['t', 'h', 'i', 's', '.'] ++ joined [segment]) [segment] :=
    .lead (by decide) (.some (spellsSegments_segment hsegment))
  exact .context hhere (head?_hopsText hops (by simp [target]))

theorem behind_append (a b : List String) : behind (a ++ b) = behind a ++ behind b :=
  List.flatMap_append

/-- A path that is no plain name, and has a segment if it begins at a frame, is
written with one more as the path that has one more. -/
theorem part_eq_written (hsimple : p.isSimple = false) (hsegments : p.segments = [] → ∀ hops, p.origin ≠ .context hops)
    {q : Path} (hq : Extends p segment q) : p.part segment = q.written := by
  rw [part, written, written, hq.isSimple, hsimple, hq.origin, hq.segments]
  simp only [Bool.false_eq_true, if_false]
  cases ho : p.origin with
  | root => simp [behind_append]
  | metadata hops name => simp [behind_append]
  | context hops =>
    cases hs : p.segments with
    | nil => exact absurd ho (hsegments hs hops)
    | cons s segments => simp [target, joined, behind_append]

/-- The segment would be the whole text, and hold a bracket. -/
theorem isSimple_part (p : Path) (hsegment : ']' ∉ segment.toList) (origin : Origin) (segments : List String)
    (region : Region) : (⟨origin, segments ++ [segment], p.part segment, region⟩ : Path).isSimple = false := by
  refine Bool.eq_false_iff.mpr fun hsimple => ?_
  simp only [isSimple, Bool.and_eq_true, beq_iff_eq] at hsimple
  have hlast := congrArg List.getLast? hsimple.2
  have htext : segment = String.ofList (p.part segment) := by simpa using hlast
  apply hsegment
  rw [htext, String.toList_ofList]
  simp [part, behind, bracketed]

theorem spells_part (h : p.Writable) (hsegment : ']' ∉ segment.toList) :
    Spells (p.part segment) p.origin (p.segments ++ [segment]) := by
  rcases h with ⟨hsimple, hname⟩ | ⟨hsimple, horigin, hsegments⟩
  · have htext : p.written = p.text := if_pos hsimple
    obtain ⟨ho, hs⟩ := isSimple_iff.mp hsimple
    rw [part, htext, ho, hs]
    exact spells_namePart hname hsegment
  · by_cases hhere : p.segments = [] ∧ ∃ hops, p.origin = .context hops
    · obtain ⟨hs, hops, ho⟩ := hhere
      rw [part, written, if_neg (by rw [hsimple]; decide), ho, hs, List.append_assoc]
      exact spells_herePart hops hsegment
    · have hextends : Extends p segment ⟨p.origin, p.segments ++ [segment], p.part segment, default⟩ :=
        ⟨rfl, rfl, isSimple_part p hsegment ..⟩
      have hall : ∀ s ∈ p.segments ++ [segment], ']' ∉ s.toList :=
        List.forall_mem_append.mpr ⟨hsegments, List.forall_mem_singleton.mpr hsegment⟩
      rw [part_eq_written hsimple (fun hs hops ho => hhere ⟨hs, hops, ho⟩) hextends]
      exact spells_written (.inr ⟨hextends.isSimple, horigin, hall⟩)

/-- What is read is the path with one more segment. -/
theorem ofText_part (h : p.Writable) (hsegment : ']' ∉ segment.toList) (region : Region) :
    ∃ q, ofText (p.part segment) region = .ok q ∧ Extends p segment q :=
  ⟨_, ofText_of_spells (spells_part h hsegment) region, rfl, rfl, isSimple_part p hsegment ..⟩

/-! ## As a token -/

open Lexeme

theorem wordKind_of_bracket {word : List Char} (h : ']' ∈ word) : wordKind word = .path := by
  have hne : ∀ w : List Char, ']' ∉ w → word ≠ w := by
    rintro w hw rfl
    exact hw h
  rw [wordKind, if_neg (hne _ (by decide)), if_neg (hne _ (by decide)), if_neg (hne _ (by decide)),
    if_neg (hne _ (by decide)), if_neg (hne _ (by decide))]

/-- A written path with a segment behind it is one token. -/
theorem Writable.reads_part (h : p.Writable) (hsegment : ']' ∉ segment.toList) :
    Reads (p.part segment) fun used =>
      ∃ t q, used = [t] ∧ t.kind = .path ∧ Reading.path t = .ok q ∧ Extends p segment q := by
  have hgoes : GoesOn (p.part segment) :=
    (goesOn_written h).append (goesOn_behind (List.forall_mem_singleton.mpr hsegment))
  have hkind : wordKind (p.part segment) = .path := wordKind_of_bracket (by simp [part, behind, bracketed])
  obtain ⟨c, cs, htext, hc⟩ := head_written h
  have hpart : p.part segment = c :: (cs ++ behind [segment]) := by
    rw [part, htext]
    rfl
  rw [hpart] at hgoes hkind ⊢
  refine (Reads.word hc hgoes).mono ?_
  rintro _ ⟨region, rfl⟩
  obtain ⟨q, hread, hq⟩ := ofText_part h hsegment region
  refine ⟨_, q, rfl, hkind, ?_, hq⟩
  rw [hpart] at hread
  rw [Reading.path, hread]

end Curly.Path
