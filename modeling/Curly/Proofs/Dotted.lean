import Curly.Proofs.Grammar.Path
import Curly.Rendering

/-!
# Paths in dotted form

A failure tells the path that did not resolve in dotted form. Read again, that form
is the path itself, unless a segment stands in it without brackets and needs them, or
the first one is taken for a word of its own (`Path.ofText_dotted_iff`).
-/

namespace Curly

namespace Path

/-! ## Legible paths -/

/-- The segment has neither a separator nor a blank, and is written without brackets. -/
def IsPlain (segment : String) : Prop :=
  ∀ c ∈ segment.toList, isSeparator c = false ∧ Text.isBlank c = false

/-- Written without brackets, the segment is read as it is. -/
def Stands (segment : String) : Prop :=
  IsPlain segment → segment ≠ "" ∧ '[' ∉ segment.toList

/-- Behind so many hops, the first segment is taken for nothing else. -/
def Leads (hops : Nat) (first : String) : Prop :=
  first ≠ "this" ∧ (hops = 0 → IsPlain first → first.toList.head? ≠ some '@')

/-- The dotted form of the path can be read. -/
structure Legible (p : Path) : Prop where
  stands : ∀ segment ∈ p.segments, Stands segment
  leads : ∀ hops, p.origin = .context hops → ∀ first ∈ p.segments.head?, Leads hops first

/-! ## The form -/

theorem isPlain_iff {segment : String} :
    IsPlain segment ↔ (segment.toList.any fun c => isSeparator c || Text.isBlank c) = false := by
  simp only [IsPlain, List.any_eq_false, Bool.or_eq_true, not_or, Bool.not_eq_true]

theorem writtenSegment_plain {segment : String} (h : IsPlain segment) : writtenSegment segment = segment := by
  rw [writtenSegment, isPlain_iff.mp h, if_neg Bool.false_ne_true]

theorem toList_writtenSegment {segment : String} (h : ¬ IsPlain segment) :
    (writtenSegment segment).toList = bracketed segment := by
  rw [isPlain_iff, Bool.not_eq_false] at h
  rw [writtenSegment, h, if_pos rfl]
  simp [bracketed]

/-- The written segments, each behind a point. -/
def pointedBehind (segments : List String) : List Char :=
  segments.flatMap fun segment => '.' :: (writtenSegment segment).toList

/-- The written segments with points between them. -/
def pointed : List String → List Char
  | [] => []
  | segment :: segments => (writtenSegment segment).toList ++ pointedBehind segments

/-- What the dotted form has behind the hops. -/
def pointedHere : List String → List Char
  | [] => ['t', 'h', 'i', 's']
  | segment :: segments => pointed (segment :: segments)

theorem pointedBehind_cons (segment : String) (segments : List String) :
    pointedBehind (segment :: segments) = '.' :: pointed (segment :: segments) :=
  List.flatMap_cons

theorem toList_writtenHops (hops : Nat) : (writtenHops hops).toList = hopsText hops := by
  induction hops with
  | zero => rfl
  | succ hops ih => simp [writtenHops, hopsText, ih]

theorem toList_intercalate_behind (head : String) (segments : List String) :
    (".".intercalate (head :: segments.map writtenSegment)).toList = head.toList ++ pointedBehind segments := by
  induction segments generalizing head with
  | nil => simp [pointedBehind]
  | cons segment segments ih =>
    rw [List.map_cons, String.intercalate_cons_cons, String.toList_append, String.toList_append, ih,
      pointedBehind_cons, List.append_assoc]
    rfl

theorem toList_dotted (p : Path) :
    p.dotted.toList =
      match p.origin with
      | .context hops => hopsText hops ++ pointedHere p.segments
      | .metadata hops name => '@' :: (hopsText hops ++ (name.toList ++ pointedBehind p.segments))
      | .root => '@' :: 'r' :: 'o' :: 'o' :: 't' :: pointedBehind p.segments := by
  unfold dotted
  cases p.origin with
  | context hops =>
    dsimp only
    rw [String.toList_append, toList_writtenHops]
    cases p.segments with
    | nil => simp [pointedHere]
    | cons segment segments =>
      have hsegments := toList_intercalate_behind (writtenSegment segment) segments
      rw [List.map_cons, List.isEmpty_cons, if_neg Bool.false_ne_true, hsegments]
      rfl
  | metadata hops name =>
    dsimp only
    rw [toList_intercalate_behind]
    simp [toList_writtenHops]
  | root =>
    dsimp only
    rw [toList_intercalate_behind]
    simp

theorem head?_pointedBehind (segments : List String) : ∀ c ∈ (pointedBehind segments).head?, isSeparator c = true := by
  cases segments with
  | nil => intro c hc; cases hc
  | cons segment segments =>
    rintro _ ⟨⟩
    rfl

/-- A plain segment is what stands before the first separator. -/
theorem takeWhile_pointed {segment : String} (h : IsPlain segment) (segments : List String) :
    (pointed (segment :: segments)).takeWhile (!isSeparator ·) = segment.toList := by
  rw [pointed, writtenSegment_plain h]
  exact takeWhile_name_append (fun c hc => (h c hc).1) (head?_pointedBehind segments)

theorem head?_pointed_plain {segment : String} (h : IsPlain segment) (hne : segment ≠ "") (segments : List String) :
    (pointed (segment :: segments)).head? = segment.toList.head? := by
  obtain ⟨c, cs, hcs⟩ := List.exists_cons_of_ne_nil fun hnil => hne (String.toList_injective hnil)
  rw [pointed, writtenSegment_plain h, hcs]
  rfl

theorem head?_pointed_bracketed {segment : String} (h : ¬ IsPlain segment) (segments : List String) :
    (pointed (segment :: segments)).head? = some '[' := by
  rw [pointed, toList_writtenSegment h]
  rfl

/-! ## Reading what is legible -/

theorem SpellsSegment.closed {text : List Char} {segment : String} (h : SpellsSegment text segment) :
    ']' ∉ segment.toList := by
  cases h with
  | bare hbare =>
    rw [String.toList_ofList]
    exact fun hmem => (hbare.chars _ hmem).2.2 rfl
  | brackets hclosed => exact hclosed

theorem SpellsSegments.closed {text : List Char} {segments : List String} (h : SpellsSegments text segments) :
    ∀ segment ∈ segments, ']' ∉ segment.toList := by
  induction h with
  | last hsegment => exact List.forall_mem_singleton.mpr hsegment.closed
  | cons hsegment _ _ ih => exact List.forall_mem_cons.mpr ⟨hsegment.closed, ih⟩

theorem SpellsSegments.segments_ne_nil {text : List Char} {segments : List String} (h : SpellsSegments text segments) :
    segments ≠ [] := by
  cases h <;> exact List.cons_ne_nil _ _

theorem SpellsAny.closed {text : List Char} {segments : List String} (h : SpellsAny text segments) :
    ∀ segment ∈ segments, ']' ∉ segment.toList := by
  cases h with
  | none => nofun
  | some hsegments => exact hsegments.closed

theorem SpellsBehind.closed {text : List Char} {segments : List String} (h : SpellsBehind text segments) :
    ∀ segment ∈ segments, ']' ∉ segment.toList := by
  cases h with
  | none => nofun
  | some _ hany => exact hany.closed

theorem Spells.closed {text : List Char} {origin : Origin} {segments : List String} (h : Spells text origin segments) :
    ∀ segment ∈ segments, ']' ∉ segment.toList := by
  cases h with
  | root hbehind => exact hbehind.closed
  | metadata _ hbehind => exact hbehind.closed
  | context hhere _ =>
    cases hhere with
    | none => nofun
    | word _ => nofun
    | lead _ hany => exact hany.closed
    | segments hsegments _ => exact hsegments.closed
  | outward => nofun

theorem spellsSegment_written {segment : String} (hclosed : ']' ∉ segment.toList) (h : Stands segment) :
    SpellsSegment (writtenSegment segment).toList segment := by
  by_cases hplain : IsPlain segment
  · obtain ⟨hne, hopen⟩ := h hplain
    have hbare : IsBare segment.toList :=
      { nonempty := fun hnil => hne (String.toList_injective hnil)
        chars := fun c hc => ⟨(hplain c hc).1, fun heq => hopen (heq ▸ hc), fun heq => hclosed (heq ▸ hc)⟩ }
    have hspells := SpellsSegment.bare hbare
    rw [String.ofList_toList] at hspells
    rwa [writtenSegment_plain hplain]
  · rw [toList_writtenSegment hplain]
    exact .brackets hclosed

variable {segments : List String}

theorem spellsSegments_pointed {segment : String} (hclosed : ∀ s ∈ segment :: segments, ']' ∉ s.toList)
    (h : ∀ s ∈ segment :: segments, Stands s) :
    SpellsSegments (pointed (segment :: segments)) (segment :: segments) :=
  spellsSegments_points fun s hs => spellsSegment_written (hclosed s hs) (h s hs)

theorem spellsBehind_pointed (hclosed : ∀ s ∈ segments, ']' ∉ s.toList) (h : ∀ s ∈ segments, Stands s) :
    SpellsBehind (pointedBehind segments) segments :=
  spellsBehind_points fun s hs => spellsSegment_written (hclosed s hs) (h s hs)

theorem spellsHere_pointed {hops : Nat} (hclosed : ∀ s ∈ segments, ']' ∉ s.toList) (h : ∀ s ∈ segments, Stands s)
    (hleads : ∀ first ∈ segments.head?, Leads hops first) : SpellsHere (pointedHere segments) segments := by
  cases segments with
  | nil => exact .word (by decide)
  | cons segment segments =>
    refine .segments (spellsSegments_pointed hclosed h) fun hword => ?_
    rw [pointedHere] at hword
    by_cases hplain : IsPlain segment
    · rw [takeWhile_pointed hplain] at hword
      exact (hleads segment rfl).1 (String.toList_injective hword)
    · obtain ⟨cs, hcs⟩ := List.head?_eq_some_iff.mp (head?_pointed_bracketed hplain segments)
      rw [hcs] at hword
      cases hword

theorem head?_pointedHere (h : ∀ s ∈ segments, Stands s) (hleads : ∀ first ∈ segments.head?, Leads 0 first) :
    (pointedHere segments).head? ≠ some '@' := by
  cases segments with
  | nil => simp [pointedHere]
  | cons segment segments =>
    rw [pointedHere]
    by_cases hplain : IsPlain segment
    · rw [head?_pointed_plain hplain (h segment (List.mem_cons_self ..) hplain).1]
      exact (hleads segment rfl).2 rfl hplain
    · rw [head?_pointed_bracketed hplain]
      decide

theorem Legible.spells {p : Path} (h : p.Legible) {text : List Char} (hspells : Spells text p.origin p.segments) :
    Spells p.dotted.toList p.origin p.segments := by
  have hclosed := hspells.closed
  rw [toList_dotted]
  cases horigin : p.origin with
  | context hops =>
    have hleads := h.leads hops horigin
    refine .context (spellsHere_pointed hclosed h.stands hleads) ?_
    cases hops with
    | zero => exact head?_pointedHere h.stands hleads
    | succ hops => simp [hopsText]
  | metadata hops name =>
    rw [horigin] at hspells
    obtain ⟨datum, rfl, hdatum⟩ : ∃ datum, name = String.ofList datum ∧ IsDatum hops datum := by
      cases hspells with
      | metadata hdatum _ => exact ⟨_, rfl, hdatum⟩
    dsimp only
    rw [String.toList_ofList]
    exact .metadata hdatum (spellsBehind_pointed hclosed h.stands)
  | root => exact .root (spellsBehind_pointed hclosed h.stands)

/-! ## What is read is legible -/

/-- The characters of a text that are no brackets. -/
def weight (text : List Char) : Nat :=
  text.countP fun c => c ≠ '[' && c ≠ ']'

/-- What segments weigh together, with what separates them. -/
def totalWeight : List String → Nat
  | [] => 0
  | segment :: segments => weight segment.toList + 1 + totalWeight segments

theorem weight_append (a b : List Char) : weight (a ++ b) = weight a + weight b :=
  List.countP_append

theorem weight_bracketed (segment : String) : weight (bracketed segment) = weight segment.toList := by
  have hbrackets : bracketed segment = ['['] ++ (segment.toList ++ [']']) := rfl
  rw [hbrackets, weight_append, weight_append]
  simp [weight]

theorem weight_separator {c : Char} (h : isSeparator c = true) (rest : List Char) :
    weight (c :: rest) = weight rest + 1 := by
  rcases eq_of_isSeparator h with rfl | rfl <;> simp [weight]

theorem weight_written (segment : String) : weight (writtenSegment segment).toList = weight segment.toList := by
  by_cases h : IsPlain segment
  · rw [writtenSegment_plain h]
  · rw [toList_writtenSegment h, weight_bracketed]

theorem weight_pointedBehind (segments : List String) : weight (pointedBehind segments) = totalWeight segments := by
  induction segments with
  | nil => rfl
  | cons segment segments ih =>
    rw [pointedBehind_cons, weight_separator rfl, pointed, weight_append, weight_written, ih, Nat.add_right_comm]
    rfl

theorem weight_pointed (hne : segments ≠ []) : weight (pointed segments) + 1 = totalWeight segments := by
  obtain ⟨segment, segments, rfl⟩ := List.exists_cons_of_ne_nil hne
  rw [← weight_pointedBehind, pointedBehind_cons, weight_separator rfl]

theorem SpellsSegment.weight_eq {text : List Char} {segment : String} (h : SpellsSegment text segment) :
    weight text = weight segment.toList := by
  cases h with
  | bare _ => rw [String.toList_ofList]
  | brackets _ => exact weight_bracketed segment

theorem SpellsSegments.weight_eq {text : List Char} (h : SpellsSegments text segments) :
    weight text + 1 = totalWeight segments := by
  induction h with
  | last hsegment => simp [totalWeight, hsegment.weight_eq]
  | @cons text rest segment segments c hsegment hc _ ih =>
    have htotal : totalWeight (segment :: segments) = weight segment.toList + 1 + totalWeight segments := rfl
    rw [weight_append, weight_separator hc, hsegment.weight_eq, htotal, ← ih]
    omega

/-- In the form of segments nothing stands before them. -/
theorem spellsSegments_of_here (hne : segments ≠ []) (h : SpellsHere (pointed segments) segments) :
    SpellsSegments (pointed segments) segments ∧
      (pointed segments).takeWhile (!isSeparator ·) ≠ ['t', 'h', 'i', 's'] := by
  have hweight := weight_pointed hne
  generalize pointed segments = text at h hweight
  cases h with
  | none => exact absurd rfl hne
  | word _ => exact absurd rfl hne
  | @lead lead rest _ hlead hany =>
    cases hany with
    | none => exact absurd rfl hne
    | some hsegments =>
      have hpos : 0 < weight lead := by
        simp only [hereLeads, List.mem_cons, List.not_mem_nil, or_false] at hlead
        rcases hlead with rfl | rfl | rfl <;> decide
      rw [weight_append, ← hsegments.weight_eq] at hweight
      omega
  | segments hsegments hword => exact ⟨hsegments, hword⟩

theorem SpellsSegment.stands {segment : String} (h : SpellsSegment (writtenSegment segment).toList segment) :
    Stands segment := by
  intro hplain
  rw [writtenSegment_plain hplain] at h
  obtain ⟨hnonempty, hchars⟩ := h.length_le.2 rfl
  refine ⟨?_, fun hmem => (hchars _ hmem).2.1 rfl⟩
  rintro rfl
  exact hnonempty rfl

/-- A segment and a separator in front of a text are the written segment and the point. -/
theorem SpellsSegment.eq_written {text tail rest : List Char} {segment : String} {c : Char}
    (h : SpellsSegment text segment) (heq : (writtenSegment segment).toList ++ '.' :: tail = text ++ c :: rest) :
    text = (writtenSegment segment).toList ∧ rest = tail := by
  suffices htext : text = (writtenSegment segment).toList by
    rw [htext, List.append_cancel_left_eq] at heq
    exact ⟨htext, (List.cons.inj heq).2.symm⟩
  by_cases hplain : IsPlain segment
  · rw [writtenSegment_plain hplain] at heq ⊢
    cases h with
    | bare _ => rw [String.toList_ofList]
    | brackets _ =>
      -- one character on, the point would stand in the segment
      have hshifted : segment.toList ++ ['.'] = '[' :: segment.toList := by
        have htake := congrArg (List.take (segment.toList.length + 1)) heq
        simpa [bracketed, List.take_append, List.take_of_length_le] using htake
      have hmem : '.' ∈ '[' :: segment.toList := by
        rw [← hshifted]
        simp
      have hpoint : '.' ∈ segment.toList := by simpa using hmem
      cases (hplain '.' hpoint).1
  · rw [toList_writtenSegment hplain] at heq ⊢
    cases h with
    | brackets _ => rfl
    | @bare text hbare =>
      obtain ⟨d, ds, rfl⟩ := List.exists_cons_of_ne_nil hbare.nonempty
      obtain rfl : '[' = d := (List.cons.inj heq).1
      exact absurd rfl (hbare.chars _ (List.mem_cons_self ..)).2.1

theorem SpellsSegments.stands (h : SpellsSegments (pointed segments) segments) : ∀ s ∈ segments, Stands s := by
  induction segments with
  | nil => nofun
  | cons segment segments ih =>
    generalize htext : pointed (segment :: segments) = text at h
    cases h with
    | last hsegment =>
      rw [pointed, pointedBehind, List.flatMap_nil, List.append_nil] at htext
      rw [← htext] at hsegment
      exact List.forall_mem_singleton.mpr hsegment.stands
    | cons hsegment _ hrest =>
      obtain ⟨next, segments, rfl⟩ := List.exists_cons_of_ne_nil hrest.segments_ne_nil
      rw [pointed, pointedBehind_cons] at htext
      obtain ⟨rfl, rfl⟩ := hsegment.eq_written htext
      exact List.forall_mem_cons.mpr ⟨hsegment.stands, ih hrest⟩

theorem SpellsBehind.stands (h : SpellsBehind (pointedBehind segments) segments) : ∀ s ∈ segments, Stands s := by
  generalize htext : pointedBehind segments = text at h
  cases h with
  | none => nofun
  | some _ hany =>
    cases hany with
    | none => nofun
    | some hsegments =>
      obtain ⟨segment, segments, rfl⟩ := List.exists_cons_of_ne_nil hsegments.segments_ne_nil
      rw [pointedBehind_cons] at htext
      obtain rfl := (List.cons.inj htext).2
      exact hsegments.stands

theorem leads_of_here {hops : Nat} {segment : String}
    (h : SpellsHere (pointed (segment :: segments)) (segment :: segments))
    (hat : (hopsText hops ++ pointed (segment :: segments)).head? ≠ some '@') : Leads hops segment := by
  obtain ⟨hsegments, hword⟩ := spellsSegments_of_here (List.cons_ne_nil _ _) h
  constructor
  · rintro rfl
    have hthis : IsPlain "this" := isPlain_iff.mpr (by decide)
    exact hword (takeWhile_pointed hthis segments)
  · rintro rfl hplain heq
    have hne := (hsegments.stands segment (List.mem_cons_self ..) hplain).1
    exact hat ((head?_pointed_plain hplain hne segments).trans heq)

/-! ## Origins -/

theorem behind_of_root {rest : List Char} (h : Spells ('@' :: 'r' :: 'o' :: 'o' :: 't' :: rest) .root segments) :
    SpellsBehind rest segments := by
  generalize htext : '@' :: 'r' :: 'o' :: 'o' :: 't' :: rest = text at h
  cases h with
  | root hbehind =>
    obtain rfl : rest = _ := by simpa using htext
    exact hbehind

theorem behind_of_metadata {hops : Nat} {name : String} {rest : List Char}
    (h : Spells ('@' :: (hopsText hops ++ (name.toList ++ rest))) (.metadata hops name) segments) :
    SpellsBehind rest segments := by
  generalize htext : '@' :: (hopsText hops ++ (name.toList ++ rest)) = text at h
  cases h with
  | metadata _ hbehind =>
    rw [String.toList_ofList] at htext
    have hrest := List.append_cancel_left (List.append_cancel_left (List.cons.inj htext).2)
    rwa [hrest]

theorem here_of_context {hops : Nat} {rest : List Char} (hne : segments ≠ [])
    (h : Spells (hopsText hops ++ rest) (.context hops) segments) :
    SpellsHere rest segments ∧ (hopsText hops ++ rest).head? ≠ some '@' := by
  generalize htext : hopsText hops ++ rest = text at h
  cases h with
  | context hhere hat =>
    obtain rfl := List.append_cancel_left htext
    exact ⟨hhere, hat⟩
  | outward => exact absurd rfl hne

theorem legible_of_spells {p : Path} (h : Spells p.dotted.toList p.origin p.segments) : p.Legible := by
  rw [toList_dotted] at h
  cases horigin : p.origin with
  | root =>
    rw [horigin] at h
    exact ⟨(behind_of_root h).stands, by simp [horigin]⟩
  | metadata hops name =>
    rw [horigin] at h
    exact ⟨(behind_of_metadata h).stands, by simp [horigin]⟩
  | context hops =>
    rw [horigin] at h
    cases hsegments : p.segments with
    | nil => exact ⟨by simp [hsegments], by simp [hsegments]⟩
    | cons segment segments =>
      rw [hsegments] at h
      obtain ⟨hhere, hat⟩ := here_of_context (List.cons_ne_nil _ _) h
      have hstands := (spellsSegments_of_here (List.cons_ne_nil _ _) hhere).1.stands
      refine ⟨hsegments ▸ hstands, ?_⟩
      intro hops' horigin'
      obtain rfl : hops = hops' := by simpa [horigin] using horigin'
      rw [hsegments]
      rintro _ ⟨⟩
      exact leads_of_here hhere hat

/-! ## Paths that are told -/

theorem Legible.ofText_dotted {text : List Char} {region : Region} {p : Path} (h : ofText text region = .ok p)
    (hp : p.Legible) (shown : Region) : ofText p.dotted.toList shown = .ok ⟨p.origin, p.segments, p.dotted.toList, shown⟩ :=
  ofText_of_spells (hp.spells (spells_of_ofText h).1) shown

end Path

/-- A path that does not resolve is told in dotted form. -/
theorem Scene.renderOutput_undefined {scene : Scene} {frame : Frame} {call : Call Expression} {p : Path}
    {missing : Frame.Missing} (hthrow : scene.engine.config.unresolved = .throw) (hhead : call.head = .path p)
    (hoperands : call.operands.isEmpty = true) (hhelper : scene.helper? p.helperName = none)
    (hmissing : frame.resolve p = .error missing) (escaped : Bool) :
    ∃ d, (scene.renderOutput frame call escaped).outcome = .error d ∧
      d.cause = .undefinedBinding p.dotted missing.key := by
  have hname : scene.helper? call.head.helperName = none := by
    rw [hhead]
    exact hhelper
  have hrun : scene.renderOutput frame call escaped = scene.renderUnresolved p missing := by
    rw [renderOutput, hname, hoperands]
    simp only [hhead, hmissing]
    rfl
  rw [hrun, renderUnresolved, hthrow]
  exact ⟨_, rfl, rfl⟩

/-- The dotted form of a path that was read goes the same way as the path exactly if it is legible.
It is what a failure tells of a path that does not resolve, so legible paths are told apart. -/
theorem Path.ofText_dotted_iff {text : List Char} {region : Region} {p : Path} (h : ofText text region = .ok p) :
    (∀ shown : Region,
      (∃ q, ofText p.dotted.toList shown = .ok q ∧ q.origin = p.origin ∧ q.segments = p.segments) ↔ p.Legible) ∧
      (∀ (scene : Scene) (frame : Frame) (call : Call Expression) (escaped : Bool) (missing : Frame.Missing),
        scene.engine.config.unresolved = .throw → call.head = .path p → call.operands.isEmpty = true →
        scene.helper? p.helperName = none → frame.resolve p = .error missing →
        ∃ d, (scene.renderOutput frame call escaped).outcome = .error d ∧
          d.cause = .undefinedBinding p.dotted missing.key) ∧
      ∀ (text' : List Char) (region' : Region) (q : Path), ofText text' region' = .ok q → p.Legible → q.Legible →
        p.dotted = q.dotted → p.origin = q.origin ∧ p.segments = q.segments := by
  refine ⟨?_, ?_, ?_⟩
  · intro shown
    constructor
    · rintro ⟨q, hq, horigin, hsegments⟩
      have hspells := (spells_of_ofText hq).1
      rw [horigin, hsegments] at hspells
      exact legible_of_spells hspells
    · intro hp
      exact ⟨_, hp.ofText_dotted h shown, rfl, rfl⟩
  · intro scene frame call escaped missing hthrow hhead hoperands hhelper hmissing
    exact Scene.renderOutput_undefined hthrow hhead hoperands hhelper hmissing escaped
  · intro text' region' q hq hp hlegible heq
    have hp := hp.ofText_dotted h region
    have hq := hlegible.ofText_dotted hq region
    rw [heq, hq] at hp
    have hsame := Except.ok.inj hp
    exact ⟨(congrArg origin hsame).symm, (congrArg segments hsame).symm⟩

/-- A segment with a blank is read back. The word for the frame is not, where it names a segment. -/
theorem Path.ofText_dotted_iff_blank :
    let scene : Scene := ⟨.new { unresolved := .throw }, ⟨none, "", []⟩, none⟩
    let p : Path := ⟨.context 1, ["a", "b c"], "../a/[b c]".toList, ⟨0, 10⟩⟩
    let q : Path := ⟨.context 0, ["this", "x"], "[this].x".toList, ⟨0, 8⟩⟩
    ofText p.text p.region = .ok p ∧ p.dotted = "../a.[b c]" ∧ p.Legible ∧
      (∃ d, (scene.renderOutput (.root .null) ⟨.path p, ⟨[], []⟩, ⟨0, 10⟩⟩ true).outcome = .error d ∧
        d.cause = .undefinedBinding "../a.[b c]" "..") ∧
      ofText q.text q.region = .ok q ∧ q.dotted = "this.x" ∧ ¬ q.Legible := by
  intro scene p q
  have hp : ofText p.text p.region = .ok p := rfl
  have hq : ofText q.text q.region = .ok q := rfl
  have hdotted : p.dotted = "../a.[b c]" := by decide +kernel
  have hthis : q.dotted = "this.x" := by decide +kernel
  obtain ⟨hlegible, htold, -⟩ := ofText_dotted_iff hp
  refine ⟨hp, hdotted, ?_, ?_, hq, hthis, ?_⟩
  · rw [← hlegible ⟨0, 10⟩, hdotted]
    exact ⟨_, rfl, rfl, rfl⟩
  · have hundefined := htold scene (.root .null) ⟨.path p, ⟨[], []⟩, ⟨0, 10⟩⟩ true .frame rfl rfl rfl rfl rfl
    rwa [hdotted] at hundefined
  · rw [← (ofText_dotted_iff hq).1 ⟨0, 6⟩, hthis]
    rintro ⟨r, hr, -, hsegments⟩
    obtain rfl := Except.ok.inj hr
    exact absurd hsegments (by decide)

end Curly
