import Curly.Proofs.Scan.Local
import Curly.Proofs.Scan.Tokens

/-!
# Texts read inside a tag

A text is read by itself inside a tag of two braces if its tokens are the same
whatever follows it, as long as a blank, a closing parenthesis or an equals sign
comes first (`Lexeme.Reads`). Such texts are put together out of single lexemes.
-/

namespace Curly.Lexeme

/-- What a written expression may be followed by. -/
inductive Ends : List Char → Prop
  | blank (rest : List Char) : Ends (' ' :: rest)
  | group (rest : List Char) : Ends (')' :: rest)
  | assign (rest : List Char) : Ends ('=' :: rest)

/-- The tokens of the text, of which `P` holds, are its own. -/
def Reads (text : List Char) (P : List Token → Prop) : Prop :=
  ∃ ls, (∀ rest, Ends rest → scan (.tag .double) (text ++ rest) = ls ++ scan (.tag .double) rest) ∧
    ∀ start, P (tokens start ls)

variable {text : List Char} {P Q : List Token → Prop}

theorem Reads.mono (h : Reads text P) (hPQ : ∀ used, P used → Q used) : Reads text Q := by
  obtain ⟨ls, hscan, hP⟩ := h
  exact ⟨ls, hscan, fun start => hPQ _ (hP start)⟩

theorem Reads.nil (h : P []) : Reads [] P :=
  ⟨[], fun _ _ => rfl, fun _ => h⟩

/-- An expression may end in front of the text. -/
def Lets (text : List Char) : Prop :=
  ∀ rest, Ends rest → Ends (text ++ rest)

theorem Reads.append {a b : List Char} (ha : Reads a P) (hb : Reads b Q) (hends : Lets b) :
    Reads (a ++ b) fun used => ∃ first second, used = first ++ second ∧ P first ∧ Q second := by
  obtain ⟨x, hx, hP⟩ := ha
  obtain ⟨y, hy, hQ⟩ := hb
  refine ⟨x ++ y, fun rest hrest => ?_, fun start => ⟨_, _, tokens_append start x y, hP _, hQ _⟩⟩
  rw [List.append_assoc, hx _ (hends rest hrest), hy rest hrest, List.append_assoc]

/-! ## Characters -/

theorem toNat_of_isAlpha {c : Char} (h : c.isAlpha = true) :
    (65 ≤ c.toNat ∧ c.toNat ≤ 90) ∨ (97 ≤ c.toNat ∧ c.toNat ≤ 122) := by
  rcases (Bool.or_eq_true _ _).mp h with hupper | hlower
  · exact .inl (of_decide_eq_true hupper)
  · obtain ⟨hlow, hhigh⟩ := (Bool.and_eq_true _ _).mp hlower
    exact .inr ⟨of_decide_eq_true hlow, of_decide_eq_true hhigh⟩

theorem toNat_of_isDigit {c : Char} (h : c.isDigit = true) : 48 ≤ c.toNat ∧ c.toNat ≤ 57 := by
  obtain ⟨hlow, hhigh⟩ := (Bool.and_eq_true _ _).mp h
  exact ⟨of_decide_eq_true hlow, of_decide_eq_true hhigh⟩

theorem isBlank_of_toNat {c : Char} (h : 0x20 < c.toNat ∧ c.toNat < 0x80) : Text.isBlank c = false := by
  simp only [Text.isBlank, Text.inRanges, Text.blankRanges, List.any_cons, List.any_nil, Bool.or_false,
    Bool.or_eq_false_iff, Bool.and_eq_false_iff, decide_eq_false_iff_not]
  omega

/-! ## Single lexemes -/

/-- What begins a text behind a blank. -/
def Begins (text : List Char) : Prop :=
  ∃ c cs, text = c :: cs ∧ Text.isBlank c = false

theorem Begins.append {a : List Char} (h : Begins a) (b : List Char) : Begins (a ++ b) := by
  obtain ⟨c, cs, rfl, hc⟩ := h
  exact ⟨c, cs ++ b, rfl, hc⟩

theorem Reads.blank (h : Reads text P) (hb : Begins text) : Reads (' ' :: text) P := by
  obtain ⟨ls, hscan, hP⟩ := h
  obtain ⟨c, cs, rfl, hc⟩ := hb
  refine ⟨.gap .blank [' '] :: ls, fun rest hrest => ?_, fun start => hP _⟩
  have hword : scanWord ' ' (c :: (cs ++ rest)) = (.gap .blank [' '], c :: (cs ++ rest)) := by
    simp [scanWord, punctuation?, hc, show Text.isBlank ' ' = true by decide]
  have htail := hscan rest hrest
  rw [List.cons_append] at htail
  rw [List.cons_append, List.cons_append, scan_word (by decide), hword, htail]
  rfl

theorem scan_punctuation {c : Char} {kind : Token.Kind} (h : punctuation? c = some kind) (rest : List Char) :
    scan (.tag .double) (c :: rest) = .token kind [c] :: scan (.tag .double) rest := by
  have hc : c ≠ '{' ∧ c ≠ '}' ∧ c ≠ '~' := by
    refine ⟨?_, ?_, ?_⟩
    all_goals rintro rfl; cases h
  rw [scan_word hc]
  simp [scanWord, h]

theorem Reads.punctuation {c : Char} {kind : Token.Kind} (hc : punctuation? c = some kind) (h : Reads text P) :
    Reads (c :: text) fun used => ∃ t rest, used = t :: rest ∧ t.kind = kind ∧ P rest := by
  obtain ⟨ls, hscan, hP⟩ := h
  refine ⟨.token kind [c] :: ls, fun rest hrest => ?_, fun start => ⟨_, _, rfl, rfl, hP _⟩⟩
  rw [List.cons_append, scan_punctuation hc, hscan rest hrest]
  rfl

theorem Reads.closing {c : Char} {kind : Token.Kind} (hc : punctuation? c = some kind) :
    Reads [c] fun used => ∃ t, used = [t] ∧ t.kind = kind :=
  ⟨[.token kind [c]], fun rest _ => scan_punctuation hc rest, fun _ => ⟨_, rfl, rfl⟩⟩

theorem Reads.of_scanWord {c : Char} {cs : List Char} {kind : Token.Kind}
    (hc : c ≠ '{' ∧ c ≠ '}' ∧ c ≠ '~')
    (h : ∀ rest, Ends rest → scanWord c (cs ++ rest) = (.token kind (c :: cs), rest)) :
    Reads (c :: cs) fun used => ∃ region, used = [⟨kind, c :: cs, region⟩] := by
  refine ⟨[.token kind (c :: cs)], fun rest hrest => ?_, fun start => ⟨_, rfl⟩⟩
  rw [List.cons_append, scan_word hc, h rest hrest]
  rfl

/-! ## Words -/

/-- What goes on a word: characters of names, separators, and brackets with
any text in between. -/
inductive GoesOn : List Char → Prop
  | nil : GoesOn []
  | char {c : Char} {cs : List Char} : isPathContinue c = true → GoesOn cs → GoesOn (c :: cs)
  | bracket {inner cs : List Char} : ']' ∉ inner → GoesOn cs → GoesOn ('[' :: (inner ++ ']' :: cs))

theorem GoesOn.append {a b : List Char} (ha : GoesOn a) (hb : GoesOn b) : GoesOn (a ++ b) := by
  induction ha with
  | nil => exact hb
  | char hc _ ih => exact .char hc ih
  | bracket hi _ ih => simpa only [List.cons_append, List.append_assoc] using GoesOn.bracket hi ih

theorem GoesOn.of_all : ∀ {cs : List Char}, cs.all isPathContinue = true → GoesOn cs
  | [], _ => .nil
  | c :: cs, h => by
    rw [List.all_cons, Bool.and_eq_true] at h
    exact .char h.1 (.of_all h.2)

theorem splitPath_bracket {inner : List Char} (h : ']' ∉ inner) (cs : List Char) :
    splitPath true (inner ++ ']' :: cs) =
      (inner ++ ']' :: (splitPath false cs).1, (splitPath false cs).2.1, (splitPath false cs).2.2) := by
  induction inner with
  | nil => rfl
  | cons c inner ih =>
    obtain ⟨hc, hi⟩ := not_or.mp (List.mem_cons.not.mp h)
    have hne : (c != ']') = true := by simpa using Ne.symm hc
    rw [List.cons_append, splitPath, hne, ih hi]
    rfl

theorem splitPath_of_goesOn {cs rest : List Char} (h : GoesOn cs) (hrest : Ends rest) :
    splitPath false (cs ++ rest) = (cs, rest, false) := by
  induction h with
  | nil =>
    cases hrest
    all_goals rfl
  | @char c cs hc _ ih =>
    have hbracket : (c == '[') = false := by
      refine beq_false_of_ne fun hc' => ?_
      rw [hc'] at hc
      exact absurd hc (by decide)
    rw [List.cons_append, splitPath, if_pos (by simp [hc]), hbracket, ih]
  | bracket hi _ ih =>
    rw [List.cons_append, List.append_assoc, List.cons_append, splitPath, if_pos (by simp)]
    simp only [beq_self_eq_true]
    rw [splitPath_bracket hi, ih]

/-- The characters that a written word begins with. -/
def beginsWord (c : Char) : Bool :=
  c == '.' || c == '@' || c == '[' || c == '_' || c.isAlpha

theorem beginsWord_cases {c : Char} (h : beginsWord c = true) :
    c = '.' ∨ c = '@' ∨ c = '[' ∨ c = '_' ∨ c.isAlpha = true := by
  simpa only [beginsWord, Bool.or_eq_true, beq_iff_eq, or_assoc] using h

theorem isBlank_of_beginsWord {c : Char} (h : beginsWord c = true) : Text.isBlank c = false := by
  rcases beginsWord_cases h with rfl | rfl | rfl | rfl | hc
  case inr.inr.inr.inr =>
    have hrange := toNat_of_isAlpha hc
    exact isBlank_of_toNat (by omega)
  all_goals decide

theorem isPathStart_of_beginsWord {c : Char} (h : beginsWord c = true) : isPathStart c = true := by
  rcases beginsWord_cases h with rfl | rfl | rfl | rfl | hc
  case inr.inr.inr.inr =>
    have hrange := toNat_of_isAlpha hc
    have hsmall : c.toNat < 0x80 := by omega
    simp [isPathStart, Text.isIdentifierStart, hsmall, hc]
  all_goals decide

theorem isDigit_of_beginsWord {c : Char} (h : beginsWord c = true) : c.isDigit = false := by
  rcases beginsWord_cases h with rfl | rfl | rfl | rfl | hc
  case inr.inr.inr.inr =>
    refine Bool.eq_false_iff.mpr fun hdigit => ?_
    have halpha := toNat_of_isAlpha hc
    have hrange := toNat_of_isDigit hdigit
    omega
  all_goals decide

theorem punctuation?_of_beginsWord {c : Char} (h : beginsWord c = true) : punctuation? c = none := by
  unfold punctuation?
  split
  all_goals first | rfl | exact absurd h (by decide)

theorem scanWord_of_beginsWord {c : Char} (h : beginsWord c = true) (rest : List Char) :
    scanWord c rest =
      (.token (if (splitPath (c == '[') rest).2.2 then .invalid .unterminatedSegment
        else wordKind (c :: (splitPath (c == '[') rest).1)) (c :: (splitPath (c == '[') rest).1),
        (splitPath (c == '[') rest).2.1) := by
  have hquote : c ≠ '\x22' ∧ c ≠ '\x27' ∧ c ≠ '-' := by
    refine ⟨?_, ?_, ?_⟩
    all_goals rintro rfl; exact absurd h (by decide)
  simp [scanWord, punctuation?_of_beginsWord h, hquote, isDigit_of_beginsWord h, isBlank_of_beginsWord h,
    isPathStart_of_beginsWord h]

theorem Reads.word {c : Char} {cs : List Char} (hc : beginsWord c = true) (h : GoesOn (c :: cs)) :
    Reads (c :: cs) fun used => ∃ region, used = [⟨wordKind (c :: cs), c :: cs, region⟩] := by
  have hbrace : c ≠ '{' ∧ c ≠ '}' ∧ c ≠ '~' := by
    refine ⟨?_, ?_, ?_⟩
    all_goals rintro rfl; exact absurd hc (by decide)
  refine .of_scanWord hbrace fun rest hrest => ?_
  have hsplit := splitPath_of_goesOn h hrest
  rw [List.cons_append, splitPath] at hsplit
  split at hsplit
  · simp only [Prod.mk.injEq, List.cons.injEq, true_and] at hsplit
    rw [scanWord_of_beginsWord hc, hsplit.1, hsplit.2.1, hsplit.2.2]
    rfl
  · cases hsplit

end Curly.Lexeme
