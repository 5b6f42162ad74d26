import Curly.Proofs.Grammar.Path
import Curly.Proofs.Grammar.Scope
import Curly.Proofs.Written.Reads

/-!
# Written paths

A plain name is written as it is. Any other path begins with its hops, with
`@root` or with the name of a datum, and each of its segments is written in
brackets. What is written is one token, and the path it is read as goes the same
way (`Path.Writable.reads`).
-/

namespace Curly

namespace Path

/-! ## Names -/

def isNameStart (c : Char) : Bool :=
  c.isAlpha || c == '_'

def isNameContinue (c : Char) : Bool :=
  c.isAlphanum || c == '_'

def isIdentifier : List Char → Bool
  | [] => false
  | c :: cs => isNameStart c && cs.all isNameContinue

/-- Words that stand for something else than a name. -/
def reserved : List (List Char) :=
  ["else", "true", "false", "null", "undefined", "this"].map String.toList

def isName (text : List Char) : Bool :=
  isIdentifier text && !reserved.contains text

/-! ## Writing -/

/-- The segments in brackets, each behind a point. -/
def behind (segments : List String) : List Char :=
  segments.flatMap fun segment => '.' :: bracketed segment

/-- The segments in brackets, with points between them. -/
def joined : List String → List Char
  | [] => []
  | segment :: segments => bracketed segment ++ behind segments

/-- What stands behind the hops: the segments, or the word for the frame itself. -/
def target (segments : List String) : List Char :=
  if segments.isEmpty then ['t', 'h', 'i', 's'] else joined segments

def written (p : Path) : List Char :=
  if p.isSimple then p.text
  else
    match p.origin with
    | .context hops => hopsText hops ++ target p.segments
    | .metadata hops name => '@' :: (hopsText hops ++ (name.toList ++ behind p.segments))
    | .root => '@' :: 'r' :: 'o' :: 'o' :: 't' :: behind p.segments

def Origin.Writable : Origin → Prop
  | .metadata hops name => isIdentifier name.toList = true ∧ (hops = 0 → name ≠ "root")
  | _ => True

/-- A plain name, or a path whose segments can be written in brackets. -/
def Writable (p : Path) : Prop :=
  (p.isSimple = true ∧ isName p.text = true) ∨
    (p.isSimple = false ∧ p.origin.Writable ∧ ∀ segment ∈ p.segments, ']' ∉ segment.toList)

end Path

/-- The paths go the same way, and both are plain names or neither is. -/
structure SamePath (p q : Path) : Prop where
  origin : p.origin = q.origin
  segments : p.segments = q.segments
  isSimple : p.isSimple = q.isSimple

theorem SamePath.helperName {p q : Path} (h : SamePath p q) : p.helperName = q.helperName := by
  rw [Path.helperName, Path.helperName, h.isSimple, h.segments]

namespace Path

/-! ## Reading names -/

theorem isNameContinue_of_start {c : Char} (h : isNameStart c = true) : isNameContinue c = true := by
  simp only [isNameStart, Bool.or_eq_true] at h
  simp only [isNameContinue, Char.isAlphanum, Bool.or_eq_true]
  exact h.imp_left .inl

theorem exists_cons_of_isIdentifier {name : List Char} (h : isIdentifier name = true) :
    ∃ c cs, name = c :: cs ∧ isNameStart c = true := by
  cases name with
  | nil => cases h
  | cons c cs =>
    rw [isIdentifier, Bool.and_eq_true] at h
    exact ⟨c, cs, rfl, h.1⟩

theorem all_of_isIdentifier {name : List Char} (h : isIdentifier name = true) :
    ∀ c ∈ name, isNameContinue c = true := by
  cases name with
  | nil => cases h
  | cons c cs =>
    rw [isIdentifier, Bool.and_eq_true, List.all_eq_true] at h
    exact List.forall_mem_cons.mpr ⟨isNameContinue_of_start h.1, h.2⟩

theorem head?_of_isIdentifier {name : List Char} (h : isIdentifier name = true) {c : Char}
    (hc : isNameStart c = false) : name.head? ≠ some c := by
  obtain ⟨d, ds, rfl, hd⟩ := exists_cons_of_isIdentifier h
  intro heq
  obtain rfl : d = c := by simpa using heq
  rw [hc] at hd
  cases hd

theorem isIdentifier_of_isName {name : List Char} (h : isName name = true) : isIdentifier name = true := by
  rw [isName, Bool.and_eq_true] at h
  exact h.1

theorem isSeparator_of_isNameContinue {c : Char} (h : isNameContinue c = true) : isSeparator c = false := by
  simp only [isSeparator, Bool.or_eq_false_iff, beq_eq_false_iff_ne]
  refine ⟨?_, ?_⟩
  all_goals rintro rfl; exact absurd h (by decide)

theorem isPathContinue_of_isNameContinue {c : Char} (h : isNameContinue c = true) :
    Lexeme.isPathContinue c = true := by
  have hsmall : c.toNat < 0x80 := by
    simp only [isNameContinue, Char.isAlphanum, Bool.or_eq_true, beq_iff_eq] at h
    rcases h with (ha | hd) | rfl
    · have := Lexeme.toNat_of_isAlpha ha
      omega
    · have := Lexeme.toNat_of_isDigit hd
      omega
    · decide
  have hcontinue : Text.isIdentifierContinue c = true := by
    rw [Text.isIdentifierContinue, if_pos hsmall]
    exact h
  rw [Lexeme.isPathContinue, hcontinue, Bool.or_true]

theorem goesOn_of_isIdentifier {name : List Char} (h : isIdentifier name = true) : Lexeme.GoesOn name := by
  refine .of_all (List.all_eq_true.mpr fun c hc => ?_)
  exact isPathContinue_of_isNameContinue (all_of_isIdentifier h c hc)

/-! ## Reading paths -/

theorem ne_bracket_of_isNameContinue {c : Char} (h : isNameContinue c = true) : c ≠ '[' ∧ c ≠ ']' := by
  refine ⟨?_, ?_⟩
  all_goals rintro rfl; exact absurd h (by decide)

theorem isBare_of_isIdentifier {name : List Char} (h : isIdentifier name = true) : IsBare name where
  nonempty := by
    rintro rfl
    cases h
  chars c hc :=
    have hc := all_of_isIdentifier h c hc
    ⟨isSeparator_of_isNameContinue hc, ne_bracket_of_isNameContinue hc⟩

theorem isDatum_of_isIdentifier {hops : Nat} {name : String} (h : isIdentifier name.toList = true)
    (hroot : hops = 0 → name ≠ "root") : IsDatum hops name.toList where
  nonempty := (isBare_of_isIdentifier h).nonempty
  chars c hc := isSeparator_of_isNameContinue (all_of_isIdentifier h c hc)
  not_root hhops heq := hroot hhops (String.toList_injective heq)

theorem ne_this_of_isName {name : List Char} (h : isName name = true) : name ≠ ['t', 'h', 'i', 's'] := by
  rintro rfl
  exact absurd h (by decide)

theorem spells_name {name : List Char} (h : isName name = true) : Spells name (.context 0) [String.ofList name] :=
  have hname := isIdentifier_of_isName h
  spells_name_iff.mpr ⟨isBare_of_isIdentifier hname, ne_this_of_isName h, head?_of_isIdentifier hname rfl⟩

theorem ofText_name {name : List Char} (h : isName name = true) (region : Region) :
    ofText name region = .ok ⟨.context 0, [String.ofList name], name, region⟩ :=
  ofText_of_spells (spells_name h) region

theorem spellsSegments_joined {segment : String} {segments : List String} (h : ∀ s ∈ segment :: segments, ']' ∉ s.toList) :
    SpellsSegments (joined (segment :: segments)) (segment :: segments) :=
  spellsSegments_points fun s hs => .brackets (h s hs)

theorem spellsBehind_behind {segments : List String} (h : ∀ s ∈ segments, ']' ∉ s.toList) :
    SpellsBehind (behind segments) segments :=
  spellsBehind_points fun s hs => .brackets (h s hs)

theorem spellsHere_target {segments : List String} (h : ∀ s ∈ segments, ']' ∉ s.toList) :
    SpellsHere (target segments) segments := by
  cases segments with
  | nil => exact .word (by decide)
  | cons segment segments =>
    refine .segments (spellsSegments_joined h) fun hword => ?_
    cases congrArg List.head? hword

theorem head?_target (segments : List String) : (target segments).head? ≠ some '@' := by
  cases segments with
  | nil => decide
  | cons segment segments => simp [target, joined, bracketed]

theorem spells_written {p : Path} (h : p.Writable) : Spells p.written p.origin p.segments := by
  rcases h with ⟨hsimple, hname⟩ | ⟨hsimple, horigin, hsegments⟩
  · obtain ⟨ho, hs⟩ := isSimple_iff.mp hsimple
    rw [written, if_pos hsimple, ho, hs]
    exact spells_name hname
  · rw [written, if_neg (by rw [hsimple]; decide)]
    cases ho : p.origin with
    | context hops => exact .context (spellsHere_target hsegments) (head?_hopsText hops (head?_target p.segments))
    | metadata hops name =>
      rw [ho] at horigin
      have hspells := Spells.metadata (isDatum_of_isIdentifier horigin.1 horigin.2) (spellsBehind_behind hsegments)
      rwa [String.ofList_toList] at hspells
    | root => exact .root (spellsBehind_behind hsegments)

theorem ofText_written {p : Path} (h : p.Writable) (region : Region) :
    ofText p.written region = .ok ⟨p.origin, p.segments, p.written, region⟩ :=
  ofText_of_spells (spells_written h) region

/-! ## Paths as tokens -/

theorem isSimple_written {p : Path} (h : p.Writable) (region : Region) :
    (⟨p.origin, p.segments, p.written, region⟩ : Path).isSimple = p.isSimple := by
  rcases h with ⟨hsimple, -⟩ | ⟨hsimple, -, hsegments⟩
  · rw [written, if_pos hsimple, isSimple, isSimple]
  · rw [hsimple]
    refine Bool.eq_false_iff.mpr fun hwritten => ?_
    simp only [isSimple, Bool.and_eq_true, beq_iff_eq] at hwritten
    obtain ⟨horigin, hsegment⟩ := hwritten
    -- the only segment would be the whole text, and end with a bracket
    have hclosed : ']' ∈ p.written := by
      rw [written, if_neg (by rw [hsimple]; decide), horigin, hsegment]
      simp [hopsText, target, joined, bracketed]
    have hopen : ']' ∉ (String.ofList p.written).toList := by
      apply hsegments
      rw [hsegment]
      exact List.mem_singleton_self _
    rw [String.toList_ofList] at hopen
    exact hopen hclosed

theorem samePath_written {p : Path} (h : p.Writable) (region : Region) :
    SamePath p ⟨p.origin, p.segments, p.written, region⟩ :=
  ⟨rfl, rfl, (isSimple_written h region).symm⟩

open Lexeme

theorem goesOn_hopsText (hops : Nat) : GoesOn (hopsText hops) := by
  induction hops with
  | zero => exact .nil
  | succ hops ih => exact .char rfl (.char rfl (.char rfl ih))

theorem goesOn_bracketed {segment : String} (h : ']' ∉ segment.toList) : GoesOn (bracketed segment) :=
  .bracket h .nil

theorem goesOn_behind {segments : List String} (h : ∀ s ∈ segments, ']' ∉ s.toList) : GoesOn (behind segments) := by
  induction segments with
  | nil => exact .nil
  | cons segment segments ih =>
    have hs := goesOn_bracketed (h segment (List.mem_cons_self ..))
    exact .char rfl (hs.append (ih fun s hm => h s (List.mem_cons_of_mem _ hm)))

theorem goesOn_target {segments : List String} (h : ∀ s ∈ segments, ']' ∉ s.toList) : GoesOn (target segments) := by
  cases segments with
  | nil => exact .of_all rfl
  | cons segment segments =>
    have hs := goesOn_bracketed (h segment (List.mem_cons_self ..))
    exact hs.append (goesOn_behind fun s hm => h s (List.mem_cons_of_mem _ hm))

theorem goesOn_written {p : Path} (h : p.Writable) : GoesOn p.written := by
  rcases h with ⟨hsimple, hname⟩ | ⟨hsimple, horigin, hsegments⟩
  · rw [written, if_pos hsimple]
    exact goesOn_of_isIdentifier (isIdentifier_of_isName hname)
  · rw [written, if_neg (by rw [hsimple]; decide)]
    have hbehind := goesOn_behind hsegments
    cases ho : p.origin with
    | context hops => exact (goesOn_hopsText hops).append (goesOn_target hsegments)
    | metadata hops name =>
      rw [ho] at horigin
      exact .char rfl ((goesOn_hopsText hops).append ((goesOn_of_isIdentifier horigin.1).append hbehind))
    | root => exact .char rfl (.char rfl (.char rfl (.char rfl (.char rfl hbehind))))

theorem written_cases {p : Path} (h : p.Writable) :
    isName p.written = true ∨ p.written = ['t', 'h', 'i', 's'] ∨
      ∃ c cs, p.written = c :: cs ∧ (c = '.' ∨ c = '@' ∨ c = '[') := by
  rcases h with ⟨hsimple, hname⟩ | ⟨hsimple, -, -⟩
  · rw [written, if_pos hsimple]
    exact .inl hname
  · rw [written, if_neg (by rw [hsimple]; decide)]
    right
    cases p.origin with
    | context hops =>
      cases hops with
      | succ hops => exact .inr ⟨'.', _, rfl, by simp⟩
      | zero =>
        cases p.segments with
        | nil => exact .inl rfl
        | cons segment segments => exact .inr ⟨'[', _, rfl, by simp⟩
    | metadata hops name => exact .inr ⟨'@', _, rfl, by simp⟩
    | root => exact .inr ⟨'@', _, rfl, by simp⟩

theorem beginsWord_of_isNameStart {c : Char} (h : isNameStart c = true) : beginsWord c = true := by
  simp only [isNameStart, Bool.or_eq_true] at h
  simp only [beginsWord, Bool.or_eq_true]
  tauto

theorem head_written {p : Path} (h : p.Writable) : ∃ c cs, p.written = c :: cs ∧ beginsWord c = true := by
  rcases written_cases h with hname | hthis | ⟨c, cs, htext, hc⟩
  · obtain ⟨c, cs, htext, hc⟩ := exists_cons_of_isIdentifier (isIdentifier_of_isName hname)
    exact ⟨c, cs, htext, beginsWord_of_isNameStart hc⟩
  · exact ⟨'t', _, hthis, rfl⟩
  · refine ⟨c, cs, htext, ?_⟩
    rcases hc with rfl | rfl | rfl
    all_goals rfl

theorem wordKind_name {text : List Char} (h : isName text = true) : wordKind text = .path := by
  have hne : ∀ word ∈ reserved, text ≠ word := by
    rintro _ hword rfl
    simp [isName, hword] at h
  rw [wordKind, if_neg (hne _ (by decide)), if_neg (hne _ (by decide)), if_neg (hne _ (by decide)),
    if_neg (hne _ (by decide)), if_neg (hne _ (by decide))]

theorem wordKind_of_head {c : Char} (h : c.isAlpha = false) (cs : List Char) : wordKind (c :: cs) = .path := by
  have hne : ∀ d ds, d.isAlpha = true → c :: cs ≠ d :: ds := by
    intro d ds hd heq
    rw [(List.cons.inj heq).1, hd] at h
    cases h
  rw [wordKind, if_neg (hne _ _ rfl), if_neg (hne _ _ rfl), if_neg (hne _ _ rfl), if_neg (hne _ _ rfl),
    if_neg (hne _ _ rfl)]

theorem wordKind_written {p : Path} (h : p.Writable) : wordKind p.written = .path := by
  rcases written_cases h with hname | hthis | ⟨c, cs, htext, hc⟩
  · exact wordKind_name hname
  · rw [hthis]
    rfl
  · rw [htext]
    refine wordKind_of_head ?_ cs
    rcases hc with rfl | rfl | rfl
    all_goals rfl

/-- A written path is one token, and read as a path that goes the same way. -/
theorem Writable.reads {p : Path} (h : p.Writable) :
    Begins p.written ∧ Reads p.written fun used =>
      ∃ t q, used = [t] ∧ t.kind = .path ∧ Reading.path t = .ok q ∧ SamePath p q := by
  obtain ⟨c, cs, htext, hc⟩ := head_written h
  have hgoes := goesOn_written h
  have hkind := wordKind_written h
  rw [htext] at hgoes hkind
  refine ⟨⟨c, cs, htext, isBlank_of_beginsWord hc⟩, ?_⟩
  rw [htext]
  refine (Reads.word hc hgoes).mono ?_
  rintro _ ⟨region, rfl⟩
  refine ⟨_, _, rfl, hkind, ?_, samePath_written h region⟩
  have hread := ofText_written h region
  rw [htext] at hread ⊢
  rw [Reading.path, hread]

/-! ## Plain names -/

def plain (name : String) : Path :=
  ⟨.context 0, [name], name.toList, default⟩

theorem isSimple_plain (name : String) : (plain name).isSimple = true := by
  simp [plain, isSimple]

theorem written_plain (name : String) : (plain name).written = name.toList := by
  rw [written, if_pos (isSimple_plain name), plain]

theorem writable_plain {name : String} (h : isName name.toList = true) : (plain name).Writable :=
  .inl ⟨isSimple_plain name, h⟩

end Path

end Curly
