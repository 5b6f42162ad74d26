import Curly.Template.Path

/-!
# The grammar of paths

Which texts are paths, and where they lead. A path begins at the outermost frame, at
a datum of an iteration or at a frame some hops out, and goes on with segments. A
text is read as a path exactly if it has such a form, and it is read as what the form
says (`Path.ofText_eq_ok_iff`).
-/

namespace Curly.Path

/-! ## Forms -/

def hopsText : Nat → List Char
  | 0 => []
  | hops + 1 => '.' :: '.' :: '/' :: hopsText hops

def bracketed (segment : String) : List Char :=
  '[' :: (segment.toList ++ [']'])

def IsBareChar (c : Char) : Prop :=
  isSeparator c = false ∧ c ≠ '[' ∧ c ≠ ']'

structure IsBare (text : List Char) : Prop where
  nonempty : text ≠ []
  chars : ∀ c ∈ text, IsBareChar c

inductive SpellsSegment : List Char → String → Prop
  | bare {text : List Char} : IsBare text → SpellsSegment text (String.ofList text)
  | brackets {segment : String} : ']' ∉ segment.toList → SpellsSegment (bracketed segment) segment

/-- Segments with a single separator between each two. -/
inductive SpellsSegments : List Char → List String → Prop
  | last {text : List Char} {segment : String} : SpellsSegment text segment → SpellsSegments text [segment]
  | cons {text rest : List Char} {segment : String} {segments : List String} {c : Char} :
    SpellsSegment text segment → isSeparator c = true → SpellsSegments rest segments →
    SpellsSegments (text ++ c :: rest) (segment :: segments)

/-- Segments, or nothing. -/
inductive SpellsAny : List Char → List String → Prop
  | none : SpellsAny [] []
  | some {text : List Char} {segments : List String} : SpellsSegments text segments → SpellsAny text segments

/-- What stands behind the name that a path begins with. -/
inductive SpellsBehind : List Char → List String → Prop
  | none : SpellsBehind [] []
  | some {c : Char} {rest : List Char} {segments : List String} : isSeparator c = true → SpellsAny rest segments →
    SpellsBehind (c :: rest) segments

/-- The words for the frame itself. -/
def hereWords : List (List Char) :=
  [['.'], ['t', 'h', 'i', 's']]

/-- The words for the frame itself with a separator behind them. -/
def hereLeads : List (List Char) :=
  [['.', '/'], ['t', 'h', 'i', 's', '.'], ['t', 'h', 'i', 's', '/']]

/-- What stands behind the hops. The word for the frame is never read as a segment. -/
inductive SpellsHere : List Char → List String → Prop
  | none : SpellsHere [] []
  | word {word : List Char} : word ∈ hereWords → SpellsHere word []
  | lead {lead rest : List Char} {segments : List String} : lead ∈ hereLeads → SpellsAny rest segments →
    SpellsHere (lead ++ rest) segments
  | segments {text : List Char} {segments : List String} : SpellsSegments text segments →
    text.takeWhile (!isSeparator ·) ≠ ['t', 'h', 'i', 's'] → SpellsHere text segments

structure IsDatum (hops : Nat) (name : List Char) : Prop where
  nonempty : name ≠ []
  chars : ∀ c ∈ name, isSeparator c = false
  not_root : hops = 0 → name ≠ ['r', 'o', 'o', 't']

inductive Spells : List Char → Origin → List String → Prop
  | root {rest : List Char} {segments : List String} : SpellsBehind rest segments →
    Spells ('@' :: 'r' :: 'o' :: 'o' :: 't' :: rest) .root segments
  | metadata {hops : Nat} {name rest : List Char} {segments : List String} : IsDatum hops name →
    SpellsBehind rest segments →
    Spells ('@' :: (hopsText hops ++ (name ++ rest))) (.metadata hops (String.ofList name)) segments
  | context {hops : Nat} {rest : List Char} {segments : List String} : SpellsHere rest segments →
    (hopsText hops ++ rest).head? ≠ some '@' → Spells (hopsText hops ++ rest) (.context hops) segments
  /-- The last hop may be without its separator. -/
  | outward {hops : Nat} : Spells (hopsText hops ++ ['.', '.']) (.context (hops + 1)) []

/-! ## Segments in one form, with points between them -/

section

variable {form : String → List Char}

theorem spellsSegments_points {segment : String} {segments : List String}
    (h : ∀ s ∈ segment :: segments, SpellsSegment (form s) s) :
    SpellsSegments (form segment ++ segments.flatMap fun s => '.' :: form s) (segment :: segments) := by
  induction segments generalizing segment with
  | nil =>
    rw [List.flatMap_nil, List.append_nil]
    exact .last (h segment (List.mem_cons_self ..))
  | cons next segments ih =>
    obtain ⟨hsegment, hrest⟩ := List.forall_mem_cons.mp h
    rw [List.flatMap_cons, List.cons_append]
    exact .cons hsegment rfl (ih hrest)

theorem spellsBehind_points {segments : List String} (h : ∀ s ∈ segments, SpellsSegment (form s) s) :
    SpellsBehind (segments.flatMap fun s => '.' :: form s) segments := by
  cases segments with
  | nil => exact .none
  | cons segment segments => exact .some rfl (.some (spellsSegments_points h))

end

/-! ## Segments -/

theorem readSegments_bracket {inner : List Char} (h : ']' ∉ inner) (seen cs : List Char) :
    readSegments (.bracket seen) (inner ++ ']' :: cs) = readSegments (.closed (inner.reverse ++ seen)) cs := by
  induction inner generalizing seen with
  | nil => rfl
  | cons c inner ih =>
    obtain ⟨hc, hi⟩ := not_or.mp (mt List.mem_cons.mpr h)
    rw [List.cons_append, readSegments, if_neg (Ne.symm hc), ih hi, List.reverse_cons, List.append_assoc]
    rfl

theorem readSegments_bareChars {cs : List Char} (h : ∀ c ∈ cs, IsBareChar c) (seen rest : List Char) :
    readSegments (.bare seen) (cs ++ rest) = readSegments (.bare (cs.reverse ++ seen)) rest := by
  induction cs generalizing seen with
  | nil => rfl
  | cons c cs ih =>
    obtain ⟨⟨hseparator, hopen, hclose⟩, hcs⟩ := List.forall_mem_cons.mp h
    rw [List.cons_append, readSegments, if_neg (by simp [hseparator]), if_neg (by simp [hopen, hclose]), ih hcs]
    simp

/-- A segment in front of the end, or of a separator and further segments. -/
theorem readSegments_segment {text : List Char} {segment : String} (h : SpellsSegment text segment) :
    readSegments .start text = some [segment] ∧
      ∀ c rest, isSeparator c = true →
        readSegments .start (text ++ c :: rest) = (readSegments .start rest).map (segment :: ·) := by
  cases h with
  | bare hbare =>
    obtain ⟨hne, hchars⟩ := hbare
    obtain ⟨c, cs, rfl⟩ := List.exists_cons_of_ne_nil hne
    obtain ⟨⟨hseparator, hopen, hclose⟩, hcs⟩ := List.forall_mem_cons.mp hchars
    have hstart : ∀ rest, readSegments .start (c :: (cs ++ rest)) = readSegments (.bare (cs.reverse ++ [c])) rest := by
      intro rest
      rw [readSegments, if_neg hopen, if_neg (by simp [hseparator, hclose]), readSegments_bareChars hcs]
    constructor
    · have hend := hstart []
      rw [List.append_nil] at hend
      rw [hend]
      simp [readSegments, segmentOf]
    · intro d rest hd
      rw [List.cons_append, hstart]
      simp [readSegments, segmentOf, hd]
  | brackets hclosed =>
    have hstart : ∀ rest, readSegments .start (bracketed segment ++ rest) =
        readSegments (.closed segment.toList.reverse) rest := by
      intro rest
      have hbracket := readSegments_bracket hclosed [] rest
      rw [List.append_nil] at hbracket
      simp [bracketed, readSegments, hbracket]
    constructor
    · have hend := hstart []
      rw [List.append_nil] at hend
      rw [hend]
      simp [readSegments, segmentOf]
    · intro d rest hd
      rw [hstart]
      simp [readSegments, segmentOf, hd]

theorem readSegments_of_spells {text : List Char} {segments : List String} (h : SpellsSegments text segments) :
    readSegments .start text = some segments := by
  induction h with
  | last hsegment => exact (readSegments_segment hsegment).1
  | cons hsegment hc _ ih => rw [(readSegments_segment hsegment).2 _ _ hc, ih, Option.map_some]

/-- The text that was passed of the segment that the reading stands in. -/
def Place.passed : Place → List Char
  | .start => []
  | .bare seen => seen.reverse
  | .bracket seen => '[' :: seen.reverse
  | .closed seen => '[' :: (seen.reverse ++ [']'])

def Place.Proper : Place → Prop
  | .start => True
  | .bare seen => IsBare seen.reverse
  | .bracket seen | .closed seen => ']' ∉ seen

theorem Place.Proper.spells_closed {seen : List Char} (h : (Place.closed seen).Proper) :
    SpellsSegment (Place.closed seen).passed (segmentOf seen) := by
  have hclosed : ']' ∉ (segmentOf seen).toList := by
    rw [segmentOf, String.toList_ofList]
    exact fun hm => h (List.mem_reverse.mp hm)
  have hspells := SpellsSegment.brackets hclosed
  rwa [bracketed, segmentOf, String.toList_ofList] at hspells

theorem spells_of_readSegments {place : Place} {text : List Char} {segments : List String}
    (hplace : place.Proper) (h : readSegments place text = some segments) :
    SpellsSegments (place.passed ++ text) segments := by
  fun_induction readSegments place text generalizing segments with
  | case1 => cases h
  | case2 cs ih =>
    exact ih (List.not_mem_nil) h
  | case3 => cases h
  | case4 c cs hopen hother ih =>
    have hbare : IsBareChar c := by
      simp only [Bool.or_eq_true, decide_eq_true_eq, not_or, Bool.not_eq_true] at hother
      exact ⟨hother.1, hopen, hother.2⟩
    exact ih ⟨by simp, by simpa using hbare⟩ h
  | case5 seen =>
    obtain rfl := Option.some.inj h
    rw [List.append_nil]
    exact .last (.bare hplace)
  | case6 seen c cs hseparator ih =>
    obtain ⟨rest, hrest, rfl⟩ := Option.map_eq_some_iff.mp h
    exact .cons (.bare hplace) hseparator (ih trivial hrest)
  | case7 => cases h
  | case8 seen c cs hseparator hother ih =>
    have hbare : IsBareChar c := by
      simp only [Bool.or_eq_true, decide_eq_true_eq, not_or, Bool.not_eq_true] at hother hseparator
      exact ⟨hseparator, hother⟩
    obtain ⟨hne, hchars⟩ := hplace
    have hnext := ih ⟨by simp, by simpa [or_imp, forall_and, hbare] using hchars⟩ h
    simpa [Place.passed] using hnext
  | case9 => cases h
  | case10 seen cs ih =>
    have hnext := ih hplace h
    simpa [Place.passed] using hnext
  | case11 seen c cs hclose ih =>
    have hnext := ih (by simpa [Place.Proper, Ne.symm hclose] using hplace) h
    simpa [Place.passed] using hnext
  | case12 seen =>
    obtain rfl := Option.some.inj h
    rw [List.append_nil]
    exact .last hplace.spells_closed
  | case13 seen c cs hseparator ih =>
    obtain ⟨rest, hrest, rfl⟩ := Option.map_eq_some_iff.mp h
    exact .cons hplace.spells_closed hseparator (ih trivial hrest)
  | case14 => cases h

theorem SpellsSegments.exists_cons {text : List Char} {segments : List String} (h : SpellsSegments text segments) :
    ∃ c cs, text = c :: cs ∧ isSeparator c = false := by
  have hsegment : ∀ {text segment}, SpellsSegment text segment → ∃ c cs, text = c :: cs ∧ isSeparator c = false := by
    intro text segment h
    cases h with
    | bare hbare =>
      obtain ⟨c, cs, rfl⟩ := List.exists_cons_of_ne_nil hbare.nonempty
      exact ⟨c, cs, rfl, (hbare.chars c (List.mem_cons_self ..)).1⟩
    | brackets _ => exact ⟨_, _, rfl, rfl⟩
  cases h with
  | last h => exact hsegment h
  | cons h _ _ =>
    obtain ⟨c, cs, rfl, hc⟩ := hsegment h
    exact ⟨c, _, rfl, hc⟩

theorem SpellsSegments.ne_nil {text : List Char} {segments : List String} (h : SpellsSegments text segments) : text ≠ [] := by
  obtain ⟨c, cs, rfl, -⟩ := h.exists_cons
  exact List.cons_ne_nil c cs

theorem segments?_eq_some_iff {text : List Char} {segments : List String} :
    segments? text = some segments ↔ SpellsAny text segments := by
  constructor
  · intro h
    unfold segments? at h
    split at h
    · rename_i hempty
      obtain rfl := List.isEmpty_iff.mp hempty
      obtain rfl := Option.some.inj h
      exact .none
    · exact .some (@spells_of_readSegments .start text segments trivial h)
  · intro h
    cases h with
    | none => rfl
    | some hsegments =>
      obtain ⟨c, cs, rfl, -⟩ := hsegments.exists_cons
      exact readSegments_of_spells hsegments

/-! ## Names -/

/-- What a text is up to its first separator. -/
theorem exists_of_takeWhile {text name : List Char} (h : text.takeWhile (!isSeparator ·) = name) :
    (∀ c ∈ name, isSeparator c = false) ∧
      (text = name ∨ ∃ c rest, text = name ++ c :: rest ∧ isSeparator c = true) := by
  induction text generalizing name with
  | nil =>
    obtain rfl := h
    exact ⟨nofun, .inl rfl⟩
  | cons c text ih =>
    rw [List.takeWhile_cons] at h
    cases hc : isSeparator c with
    | true =>
      rw [hc, Bool.not_true, if_neg Bool.false_ne_true] at h
      obtain rfl := h
      exact ⟨nofun, .inr ⟨c, text, rfl, hc⟩⟩
    | false =>
      rw [hc, Bool.not_false, if_pos rfl] at h
      obtain rfl := h
      obtain ⟨hname, hrest⟩ := ih rfl
      refine ⟨List.forall_mem_cons.mpr ⟨hc, hname⟩, ?_⟩
      rcases hrest with heq | ⟨d, rest, heq, hd⟩
      · exact .inl (congrArg (c :: ·) heq)
      · exact .inr ⟨d, rest, congrArg (c :: ·) heq, hd⟩

theorem takeWhile_name_append {name rest : List Char} (hname : ∀ c ∈ name, isSeparator c = false)
    (hrest : ∀ c ∈ rest.head?, isSeparator c = true) : (name ++ rest).takeWhile (!isSeparator ·) = name := by
  have hall : ∀ c ∈ name, (!isSeparator c) = true := by simpa using hname
  rw [List.takeWhile_append_of_pos hall]
  cases rest with
  | nil => exact List.append_nil name
  | cons c rest => simp [hrest c rfl]

theorem SpellsBehind.head {rest : List Char} {segments : List String} (h : SpellsBehind rest segments) :
    ∀ c ∈ rest.head?, isSeparator c = true := by
  cases h with
  | none => nofun
  | some hc _ =>
    rintro _ ⟨⟩
    exact hc

/-- What is read behind a name. -/
theorem segments?_behind {text name : List Char} (h : text.takeWhile (!isSeparator ·) = name) {segments : List String} :
    segments? (text.drop (name.length + 1)) = some segments ↔
      ∃ rest, text = name ++ rest ∧ SpellsBehind rest segments := by
  constructor
  · intro hsegments
    obtain ⟨-, rfl | ⟨c, rest, rfl, hc⟩⟩ := exists_of_takeWhile h
    · rw [List.drop_eq_nil_of_le (Nat.le_succ _)] at hsegments
      obtain rfl := Option.some.inj hsegments
      exact ⟨[], (List.append_nil _).symm, .none⟩
    · rw [← List.drop_drop, List.drop_left] at hsegments
      exact ⟨c :: rest, rfl, .some hc (segments?_eq_some_iff.mp hsegments)⟩
  · rintro ⟨rest, rfl, hbehind⟩
    rw [← List.drop_drop, List.drop_left]
    cases hbehind with
    | none => rfl
    | some _ hany => exact segments?_eq_some_iff.mpr hany

/-- The word for the frame is dropped with its separator, wherever it can be. -/
theorem segments?_dropThis {text : List Char} {segments : List String} :
    segments? (dropThis text) = some segments ↔ SpellsHere text segments := by
  constructor
  · intro h
    have hany := segments?_eq_some_iff.mp h
    unfold dropThis at hany
    split at hany
    · cases hany with
      | none => exact .word (by decide)
      | some hsegments => exact absurd rfl hsegments.ne_nil
    · cases hany with
      | none => exact .word (by decide)
      | some hsegments => exact absurd rfl hsegments.ne_nil
    · exact @SpellsHere.lead ['.', '/'] _ _ (by decide) hany
    · exact @SpellsHere.lead ['t', 'h', 'i', 's', '.'] _ _ (by decide) hany
    · exact @SpellsHere.lead ['t', 'h', 'i', 's', '/'] _ _ (by decide) hany
    · rename_i hpoint hthis hslash hthisPoint hthisSlash
      cases hany with
      | none => exact .none
      | some hsegments =>
        refine .segments hsegments fun hword => ?_
        obtain ⟨-, rfl | ⟨c, rest, rfl, hc⟩⟩ := exists_of_takeWhile hword
        · exact hthis rfl
        · simp only [isSeparator, Bool.or_eq_true, beq_iff_eq] at hc
          rcases hc with rfl | rfl
          · exact hthisPoint rest rfl
          · exact hthisSlash rest rfl
  · intro h
    cases h with
    | none => rfl
    | word hword =>
      simp only [hereWords, List.mem_cons, List.not_mem_nil, or_false] at hword
      rcases hword with rfl | rfl <;> rfl
    | @lead lead rest segments hlead hany =>
      have hdrop : dropThis (lead ++ rest) = rest := by
        simp only [hereLeads, List.mem_cons, List.not_mem_nil, or_false] at hlead
        rcases hlead with rfl | rfl | rfl <;> simp [dropThis]
      rw [hdrop]
      exact segments?_eq_some_iff.mpr hany
    | segments hsegments hword =>
      have hdrop : dropThis text = text := by
        obtain ⟨c, cs, htext, hc⟩ := hsegments.exists_cons
        unfold dropThis
        split
        · cases htext
          cases hc
        · exact absurd rfl hword
        · cases htext
          cases hc
        · exact absurd rfl hword
        · exact absurd rfl hword
        · rfl
      rw [hdrop]
      exact segments?_eq_some_iff.mpr (.some hsegments)

/-! ## Hops -/

theorem splitHops_hopsText (hops : Nat) {rest : List Char} (h : rest.head? ≠ some '.') :
    splitHops (hopsText hops ++ rest) = (hops, rest) := by
  induction hops with
  | zero =>
    cases rest with
    | nil => rfl
    | cons c rest =>
      have hc : c ≠ '.' := by simpa using h
      rw [hopsText, List.nil_append]
      unfold splitHops
      split <;> simp_all
  | succ hops ih => rw [hopsText, List.cons_append, List.cons_append, List.cons_append, splitHops, ih]

theorem head?_hopsText (hops : Nat) {rest : List Char} (h : rest.head? ≠ some '@') :
    (hopsText hops ++ rest).head? ≠ some '@' := by
  cases hops with
  | zero => exact h
  | succ hops => simp [hopsText]

theorem splitHops_append (hops : Nat) (rest : List Char) :
    splitHops (hopsText hops ++ rest) = (hops + (splitHops rest).1, (splitHops rest).2) := by
  induction hops with
  | zero => simp [hopsText]
  | succ hops ih =>
    rw [hopsText, List.cons_append, List.cons_append, List.cons_append, splitHops, ih]
    simp [Nat.add_right_comm]

inductive HopsCase (text : List Char) : Prop
  | inner {hops : Nat} {rest : List Char} : text = hopsText hops ++ rest → splitHops text = (hops, rest) → HopsCase text
  | outward {hops : Nat} : text = hopsText hops ++ ['.', '.'] → splitHops text = (hops + 1, []) → HopsCase text

theorem hopsCase (text : List Char) : HopsCase text := by
  fun_induction splitHops text with
  | case1 rest ih =>
    cases ih with
    | @inner hops tail htext hsplit =>
      exact @HopsCase.inner _ (hops + 1) tail (congrArg (['.', '.', '/'] ++ ·) htext) (by rw [splitHops, hsplit])
    | @outward hops htext hsplit =>
      exact @HopsCase.outward _ (hops + 1) (congrArg (['.', '.', '/'] ++ ·) htext) (by rw [splitHops, hsplit])
  | case2 => exact @HopsCase.outward _ 0 rfl rfl
  | case3 rest hmore hlast => exact @HopsCase.inner _ 0 rest rfl (splitHops.eq_3 rest hmore hlast)

theorem splitHops_here {text : List Char} {segments : List String} (h : SpellsHere text segments) :
    splitHops text = (0, text) := by
  cases h with
  | none => rfl
  | word hword =>
    simp only [hereWords, List.mem_cons, List.not_mem_nil, or_false] at hword
    rcases hword with rfl | rfl <;> rfl
  | lead hlead _ =>
    simp only [hereLeads, List.mem_cons, List.not_mem_nil, or_false] at hlead
    rcases hlead with rfl | rfl | rfl <;> rfl
  | segments hsegments _ =>
    obtain ⟨c, cs, rfl, hc⟩ := hsegments.exists_cons
    refine splitHops_hopsText 0 ?_
    rintro heq
    obtain rfl := Option.some.inj heq
    cases hc

/-! ## Origins -/

theorem splitOrigin_context {text : List Char} (h : text.head? ≠ some '@') :
    splitOrigin text = .ok (.context (splitHops text).1, dropThis (splitHops text).2) := by
  unfold splitOrigin
  split <;> simp_all

theorem eq_of_isSeparator {c : Char} (h : isSeparator c = true) : c = '.' ∨ c = '/' := by
  simpa [isSeparator] using h

theorem spells_of_splitOrigin {text rest : List Char} {origin : Origin} {segments : List String}
    (h : splitOrigin text = .ok (origin, rest)) (hrest : segments? rest = some segments) :
    Spells text origin segments := by
  have hany := segments?_eq_some_iff.mp hrest
  unfold splitOrigin at h
  split at h
  · obtain ⟨rfl, rfl⟩ := Prod.mk.inj (Except.ok.inj h)
    obtain rfl := Option.some.inj hrest
    exact .root .none
  · obtain ⟨rfl, rfl⟩ := Prod.mk.inj (Except.ok.inj h)
    exact .root (.some rfl hany)
  · obtain ⟨rfl, rfl⟩ := Prod.mk.inj (Except.ok.inj h)
    exact .root (.some rfl hany)
  · rename_i data hroot hrootPoint hrootSlash
    cases hopsCase data with
    | @inner hops inner hdata hsplit =>
      obtain ⟨name, hname⟩ : ∃ name, inner.takeWhile (!isSeparator ·) = name := ⟨_, rfl⟩
      rw [hsplit] at h
      dsimp only at h
      rw [hname] at h
      split at h
      · cases h
      · rename_i hne
        obtain ⟨rfl, rfl⟩ := Prod.mk.inj (Except.ok.inj h)
        obtain ⟨behind, rfl, hbehind⟩ := (segments?_behind hname).mp hrest
        rw [hdata]
        refine .metadata ⟨by simpa using hne, (exists_of_takeWhile hname).1, ?_⟩ hbehind
        rintro rfl rfl
        cases hbehind with
        | none => exact hroot hdata
        | some hc _ =>
          rcases eq_of_isSeparator hc with rfl | rfl
          · exact hrootPoint _ hdata
          · exact hrootSlash _ hdata
    | outward hdata hsplit =>
      rw [hsplit] at h
      cases h
  · rename_i hat
    have hhead : text.head? ≠ some '@' := by
      intro heq
      obtain ⟨tail, rfl⟩ := List.head?_eq_some_iff.mp heq
      exact hat tail rfl
    cases hopsCase text with
    | inner htext hsplit =>
      rw [hsplit] at h
      obtain ⟨rfl, rfl⟩ := Prod.mk.inj (Except.ok.inj h)
      rw [htext] at hhead ⊢
      exact .context (segments?_dropThis.mp hrest) hhead
    | outward htext hsplit =>
      rw [hsplit] at h
      obtain ⟨rfl, rfl⟩ := Prod.mk.inj (Except.ok.inj h)
      obtain rfl := Option.some.inj hrest
      rw [htext]
      exact .outward

theorem IsDatum.ne_root {hops : Nat} {name : List Char} (h : IsDatum hops name) {rest tail : List Char}
    (hrest : ∀ c ∈ rest.head?, isSeparator c = true) (htail : ∀ c ∈ tail.head?, isSeparator c = true) :
    hopsText hops ++ (name ++ rest) ≠ 'r' :: 'o' :: 'o' :: 't' :: tail := by
  intro heq
  cases hops with
  | succ hops => simp [hopsText] at heq
  | zero =>
    -- what stands before the first separator is the name
    have hname := takeWhile_name_append h.chars hrest
    have hroot : (['r', 'o', 'o', 't'] ++ tail).takeWhile (!isSeparator ·) = ['r', 'o', 'o', 't'] :=
      takeWhile_name_append (by simp [isSeparator]) htail
    rw [hopsText, List.nil_append] at heq
    rw [heq] at hname
    exact h.not_root rfl (hname.symm.trans hroot)

theorem splitOrigin_datum {hops : Nat} {name rest : List Char} (h : IsDatum hops name)
    (hrest : ∀ c ∈ rest.head?, isSeparator c = true) :
    splitOrigin ('@' :: (hopsText hops ++ (name ++ rest))) =
      .ok (.metadata hops (String.ofList name), (name ++ rest).drop (name.length + 1)) := by
  have hne := @IsDatum.ne_root hops name h rest
  have hhops : splitHops (hopsText hops ++ (name ++ rest)) = (hops, name ++ rest) := by
    obtain ⟨c, cs, rfl⟩ := List.exists_cons_of_ne_nil h.nonempty
    refine splitHops_hopsText hops ?_
    intro heq
    obtain rfl := Option.some.inj heq
    cases h.chars _ (List.mem_cons_self ..)
  unfold splitOrigin
  split
  -- the first three cases are those of `@root`
  · rename_i heq
    exact absurd (List.cons.inj heq).2 (hne hrest nofun)
  · rename_i heq
    exact absurd (List.cons.inj heq).2 (hne hrest (by simp [isSeparator]))
  · rename_i heq
    exact absurd (List.cons.inj heq).2 (hne hrest (by simp [isSeparator]))
  · rename_i heq
    obtain ⟨-, rfl⟩ := List.cons.inj heq
    rw [hhops]
    dsimp only
    rw [takeWhile_name_append h.chars hrest, if_neg (by simpa using h.nonempty)]
  · rename_i heq
    exact absurd rfl (heq _)

theorem exists_splitOrigin {text : List Char} {origin : Origin} {segments : List String} (h : Spells text origin segments) :
    ∃ rest, splitOrigin text = .ok (origin, rest) ∧ segments? rest = some segments := by
  cases h with
  | root hbehind =>
    cases hbehind with
    | none => exact ⟨[], rfl, rfl⟩
    | @some c rest _ hc hany =>
      refine ⟨rest, ?_, segments?_eq_some_iff.mpr hany⟩
      rcases eq_of_isSeparator hc with rfl | rfl <;> rfl
  | metadata hdatum hbehind =>
    have hname := takeWhile_name_append hdatum.chars hbehind.head
    exact ⟨_, splitOrigin_datum hdatum hbehind.head, (segments?_behind hname).mpr ⟨_, rfl, hbehind⟩⟩
  | @context hops rest _ hhere hat =>
    refine ⟨dropThis rest, ?_, segments?_dropThis.mpr hhere⟩
    rw [splitOrigin_context hat, splitHops_append, splitHops_here hhere]
    rfl
  | @outward hops =>
    have hat : (hopsText hops ++ ['.', '.']).head? ≠ some '@' := head?_hopsText hops (by simp)
    refine ⟨[], ?_, rfl⟩
    rw [splitOrigin_context hat, splitHops_append]
    rfl

/-! ## Paths -/

theorem ofText_of_spells {text : List Char} {origin : Origin} {segments : List String} (h : Spells text origin segments)
    (region : Region) : ofText text region = .ok ⟨origin, segments, text, region⟩ := by
  obtain ⟨rest, hsplit, hrest⟩ := exists_splitOrigin h
  rw [ofText, hsplit]
  dsimp only
  rw [hrest]

theorem spells_of_ofText {text : List Char} {region : Region} {p : Path} (h : ofText text region = .ok p) :
    Spells text p.origin p.segments ∧ p.text = text ∧ p.region = region := by
  unfold ofText at h
  split at h
  · cases h
  · rename_i origin rest hsplit
    split at h
    · cases h
    · rename_i segments hrest
      obtain rfl := Except.ok.inj h
      exact ⟨spells_of_splitOrigin hsplit hrest, rfl, rfl⟩

theorem SpellsSegment.length_le {text : List Char} {segment : String} (h : SpellsSegment text segment) :
    segment.toList.length ≤ text.length ∧ (segment.toList.length = text.length → IsBare text) := by
  cases h with
  | bare hbare => exact ⟨by simp, fun _ => hbare⟩
  | brackets _ =>
    constructor
    · simp only [bracketed, List.length_cons, List.length_append]
      omega
    · simp only [bracketed, List.length_cons, List.length_append]
      omega

theorem SpellsAny.length_le {text : List Char} {segment : String} (h : SpellsAny text [segment]) :
    segment.toList.length ≤ text.length ∧ (segment.toList.length = text.length → IsBare text) := by
  cases h with
  | some h =>
    cases h with
    | last hsegment => exact hsegment.length_le
    | cons _ _ hnone => cases hnone

theorem Spells.isBare {text : List Char} {segment : String} (h : Spells text (.context 0) [segment])
    (hlength : segment.toList.length = text.length) :
    IsBare text ∧ text ≠ ['t', 'h', 'i', 's'] ∧ text.head? ≠ some '@' := by
  cases h with
  | context hhere hat =>
    rw [hopsText, List.nil_append] at hlength hat ⊢
    cases hhere with
    | @lead lead rest _ hlead hany =>
      have hle := hany.length_le.1
      have hpos : 0 < lead.length := by
        simp only [hereLeads, List.mem_cons, List.not_mem_nil, or_false] at hlead
        rcases hlead with rfl | rfl | rfl <;> simp
      rw [List.length_append] at hlength
      omega
    | segments hsegments hword =>
      refine ⟨(SpellsAny.some hsegments).length_le.2 hlength, ?_, hat⟩
      rintro rfl
      exact hword rfl

/-- A plain name is a text that is one bare segment. -/
theorem spells_name_iff {text : List Char} :
    Spells text (.context 0) [String.ofList text] ↔
      IsBare text ∧ text ≠ ['t', 'h', 'i', 's'] ∧ text.head? ≠ some '@' := by
  constructor
  · intro h
    exact h.isBare (by rw [String.toList_ofList])
  · rintro ⟨hbare, hthis, hat⟩
    have hword : text.takeWhile (!isSeparator ·) = text := by
      have hchars : ∀ c ∈ text, isSeparator c = false := fun c hc => (hbare.chars c hc).1
      simpa using @takeWhile_name_append text [] hchars nofun
    refine @Spells.context 0 text _ (.segments (.last (.bare hbare)) ?_) hat
    rw [hword]
    exact hthis

theorem isSimple_iff {p : Path} : p.isSimple = true ↔ p.origin = .context 0 ∧ p.segments = [String.ofList p.text] := by
  simp [isSimple]

/-- A text is read as a path exactly if the grammar has it, and what is read is what the grammar
says. The path is a plain name exactly if the text is one bare segment, and neither the word for
the frame nor the name of a datum. -/
theorem ofText_eq_ok_iff (text : List Char) (region : Region) :
    (∀ p, ofText text region = .ok p ↔ p.text = text ∧ p.region = region ∧ Spells text p.origin p.segments) ∧
      ((∃ p, ofText text region = .ok p) ↔ ∃ origin segments, Spells text origin segments) ∧
      ∀ p, ofText text region = .ok p →
        (p.isSimple = true ↔ IsBare text ∧ text ≠ ['t', 'h', 'i', 's'] ∧ text.head? ≠ some '@') := by
  refine ⟨?_, ?_, ?_⟩
  · intro p
    constructor
    · intro h
      obtain ⟨hspells, htext, hregion⟩ := spells_of_ofText h
      exact ⟨htext, hregion, hspells⟩
    · rintro ⟨rfl, rfl, hspells⟩
      exact ofText_of_spells hspells p.region
  · constructor
    · rintro ⟨p, h⟩
      exact ⟨_, _, (spells_of_ofText h).1⟩
    · rintro ⟨origin, segments, hspells⟩
      exact ⟨_, ofText_of_spells hspells region⟩
  · intro p h
    obtain ⟨hspells, rfl, rfl⟩ := spells_of_ofText h
    rw [isSimple_iff, ← spells_name_iff]
    constructor
    · rintro ⟨horigin, hsegments⟩
      rwa [horigin, hsegments] at hspells
    · intro hname
      have hp := Except.ok.inj (h.symm.trans (ofText_of_spells hname p.region))
      exact ⟨congrArg origin hp, congrArg segments hp⟩

theorem ofText_eq_ok_iff_forms :
    let region : Region := ⟨0, 15⟩
    let inner := "../this.[a.b]/c".toList
    let p : Path := ⟨.context 1, ["a.b", "c"], inner, region⟩
    let name : Path := ⟨.context 0, ["name"], "name".toList, region⟩
    ofText inner region = .ok p ∧ Spells inner (.context 1) ["a.b", "c"] ∧ p.isSimple = false ∧
      ofText "name".toList region = .ok name ∧ name.isSimple = true ∧ IsBare "name".toList ∧
      ¬ ∃ origin segments, Spells "a[b]".toList origin segments := by
  intro region inner p name
  have hinner : ofText inner region = .ok p := rfl
  have hname : ofText "name".toList region = .ok name := rfl
  obtain ⟨hreads, -, -⟩ := ofText_eq_ok_iff inner region
  refine ⟨hinner, ((hreads p).mp hinner).2.2, ?_, hname, rfl, ?_, ?_⟩
  · rfl
  · exact (((ofText_eq_ok_iff "name".toList region).2.2 name hname).mp rfl).1
  · intro hspells
    obtain ⟨q, hq⟩ := (ofText_eq_ok_iff "a[b]".toList region).2.1.mpr hspells
    cases hq

end Curly.Path
