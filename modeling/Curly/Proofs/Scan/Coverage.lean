import Curly.Proofs.Scan.Steps
import Curly.Proofs.Scan.Tokens
import Mathlib.Data.List.Chain
import Mathlib.Data.List.Induction

/-!
# What tokens leave out

Tokens drawn one at a time come to an end, and are those of the whole source
(`Cursor.draw_eq`). What none of them holds are blanks inside tags, blanks that a
marker with a tilde drops, and single backslashes (`Dropped`). The invariant is
`Lexeme.Laid`: what a lexeme may be depends on the place that the lexemes before
it lead to, and on those after it.
-/

namespace Curly

/-! ## Markers -/

namespace Token

def Kind.opensTag : Kind → Bool
  | .beginExpression | .beginRaw => true
  | _ => false

/-- A closing marker of the wrong kind ends the tag, too. -/
def Kind.closesTag : Kind → Bool
  | .endExpression | .endRaw | .invalid .mismatchedClose => true
  | _ => false

def Kind.isInner : Kind → Bool
  | .raw | .comment | .beginExpression | .beginRaw | .endExpression | .endRaw
  | .invalid .unterminatedComment | .invalid .mismatchedClose => false
  | _ => true

/-- A closing marker or a comment whose end has a tilde. -/
def Kind.trimsAfter (kind : Kind) (text : List Char) : Bool :=
  (kind = .endExpression || kind = .endRaw || kind = .comment) && ['~', '}', '}'].isSuffixOf text

/-- An opening marker or a comment, closed or not, whose beginning has a tilde. -/
def Kind.trimsBefore (kind : Kind) (text : List Char) : Bool :=
  (kind.opensTag || kind = .comment || kind = .invalid .unterminatedComment) &&
    ['{', '{', '~'].isPrefixOf text

/-- Of two tokens in a row, a text does not begin with blanks that the token
before it drops, nor end with blanks that the token after it drops. -/
def Trimmed (t u : Token) : Prop :=
  (t.kind.trimsAfter t.text → u.kind = .raw → u.text.head?.any Text.isBlank = false) ∧
    (u.kind.trimsBefore u.text → t.kind = .raw → t.text.getLast?.any Text.isBlank = false)

end Token

def Region.Contains (r : Region) (n : Nat) : Prop :=
  r.start ≤ n ∧ n < r.stop

def Region.Blank (source : List Char) (r : Region) : Prop :=
  ∃ blanks, r.slice? source = some blanks ∧ ∀ c ∈ blanks, Text.isBlank c

/-- The last marker before the byte opens a tag. -/
def TagOpenAt (tokens : List Token) (n : Nat) : Prop :=
  ∃ before o inner after, tokens = before ++ o :: (inner ++ after) ∧ o.kind.opensTag ∧
    (∀ t ∈ inner, ¬ t.kind.closesTag) ∧ (∀ t ∈ o :: inner, t.region.stop ≤ n) ∧
    ∀ t ∈ after, n < t.region.start

/-- Why the byte `n` of the source is in no token. -/
inductive Dropped (source : List Char) (tokens : List Token) (n : Nat) : Prop
  | inTag {r : Region} : r.Contains n → r.Blank source → TagOpenAt tokens n → Dropped source tokens n
  | after {r : Region} {t : Token} : r.Contains n → r.Blank source →
    t ∈ tokens → t.kind.trimsAfter t.text → t.region.stop = r.start → Dropped source tokens n
  | before {r : Region} {t : Token} : r.Contains n → r.Blank source →
    t ∈ tokens → t.kind.trimsBefore t.text → t.region.start = r.stop → Dropped source tokens n
  | backslash : Region.slice? ⟨n, n + 3⟩ source = some ['\\', '{', '{'] → Dropped source tokens n

namespace Lexeme

/-! ## Places -/

/-- What the lexemes so far lead to. -/
inductive Place where
  | text
  /-- Right behind a marker that drops the blanks after it. -/
  | marker
  /-- Behind what was left out after such a marker. -/
  | cut
  | tag
deriving DecidableEq

namespace Place

def ofMode : Mode → Place
  | .text true => marker
  | .text false => text
  | .tag _ => tag

def behind (p : Place) (kind : Token.Kind) (text : List Char) : Place :=
  if kind.opensTag then tag
  else if kind.trimsAfter text then marker
  else if p = tag ∧ ¬ kind.closesTag then tag
  else .text

def past : Place → Place
  | marker => cut
  | p => p

def trims (p : Place) : Prop :=
  p = marker ∨ p = cut

end Place

def trimsNext : List Lexeme → Prop
  | [] => False
  | .token kind text :: _ => kind.trimsBefore text
  | .gap .. :: ls => trimsNext ls

/-- The lexemes may follow one another, and the first of them those that lead
to the place. -/
inductive Laid : Place → List Lexeme → Prop
  | nil {p : Place} : Laid p []
  | token {p : Place} {kind : Token.Kind} {text : List Char} {ls : List Lexeme} :
    text ≠ [] → (kind = .raw → p.trims → text.head?.any Text.isBlank = false) →
    (kind = .raw → trimsNext ls → text.getLast?.any Text.isBlank = false) →
    Laid (p.behind kind text) ls → Laid p (.token kind text :: ls)
  | blank {text : List Char} {ls : List Lexeme} :
    (∀ c ∈ text, Text.isBlank c) → Laid .tag ls → Laid .tag (.gap .blank text :: ls)
  | after {text : List Char} {ls : List Lexeme} :
    (∀ c ∈ text, Text.isBlank c) → Laid .cut ls → Laid .marker (.gap .trimmed text :: ls)
  | before {p : Place} {kind : Token.Kind} {text marker : List Char} {ls : List Lexeme} :
    (∀ c ∈ text, Text.isBlank c) → kind.trimsBefore marker → Laid p.past (.token kind marker :: ls) →
    Laid p (.gap .trimmed text :: .token kind marker :: ls)
  | backslash {p : Place} {ls : List Lexeme} :
    ['{', '{'] <+: texts ls → Laid p.past ls → Laid p (.gap .backslash ['\\'] :: ls)

/-! ## Every scan is laid out so -/

theorem Laid.keep_gap {p : Place} (hp : p ≠ .tag) {blanks : List Char} (hb : ∀ c ∈ blanks, Text.isBlank c)
    {ls : List Lexeme} (hn : blanks ≠ [] → ∃ kind text ls', ls = .token kind text :: ls' ∧ kind.trimsBefore text)
    (hls : ∀ p ≠ .tag, Laid p ls) : Laid p (keep (.gap .trimmed blanks) ++ ls) := by
  unfold keep
  cases blanks with
  | nil => exact hls p hp
  | cons c cs =>
    obtain ⟨kind, text, ls', rfl, ht⟩ := hn (List.cons_ne_nil c cs)
    refine .before hb ht (hls _ ?_)
    cases p <;> simp_all [Place.past]

theorem Laid.keep_raw {p : Place} (hp : p ≠ .tag) {t : List Char}
    (hbegin : p.trims → t.head?.any Text.isBlank = false) {ls : List Lexeme}
    (hend : trimsNext ls → t.getLast?.any Text.isBlank = false) (hls : ∀ p ≠ .tag, Laid p ls) :
    Laid p (keep (.token .raw t) ++ ls) := by
  unfold keep
  cases t with
  | nil => exact hls p hp
  | cons c cs =>
    refine .token (List.cons_ne_nil c cs) (fun _ => hbegin) (fun _ => hend) (hls _ ?_)
    simp [Place.behind, Token.Kind.opensTag, Token.Kind.trimsAfter, hp]

theorem trimsNext_keep_gap (gap : Gap) (text : List Char) (ls : List Lexeme) :
    trimsNext (keep (.gap gap text) ++ ls) ↔ trimsNext ls := by
  unfold keep
  split
  · rfl
  · rfl

theorem getLast?_any_of_suffix {f : Char → Bool} {t u : List Char} (h : t <:+ u)
    (hu : u.getLast?.any f = false) : t.getLast?.any f = false := by
  cases ht : t.getLast? with
  | none => rfl
  | some c =>
    obtain ⟨t', rfl⟩ := List.getLast?_eq_some_iff.mp ht
    obtain ⟨u', rfl⟩ := h
    rw [← List.append_assoc, List.getLast?_concat] at hu
    exact hu

theorem head?_splitBlanksLeft (text : List Char) :
    (Text.splitBlanksLeft text).2.head?.any Text.isBlank = false := by
  have h := List.head?_dropWhile_not Text.isBlank text
  unfold Text.splitBlanksLeft
  cases hd : (text.dropWhile Text.isBlank).head? with
  | none => rfl
  | some c => simpa [hd] using h

theorem getLast?_splitBlanksRight (text : List Char) :
    (Text.splitBlanksRight text).1.getLast?.any Text.isBlank = false := by
  rw [Text.splitBlanksRight, List.getLast?_reverse]
  exact head?_splitBlanksLeft text.reverse

theorem isBlank_of_mem_takeWhile {text : List Char} : ∀ c ∈ text.takeWhile Text.isBlank, Text.isBlank c :=
  fun c hc => List.all_eq_true.mp List.all_takeWhile c hc

/-- Behind the texts stands a token that drops the blanks before it if
`right`, and if not then no such token, or they do not end with blanks. -/
theorem Laid.rawPieces {left right : Bool} {body : List Char} {ls : List Lexeme}
    (hnext : right = true → ∃ kind text ls', ls = .token kind text :: ls' ∧ kind.trimsBefore text)
    (hend : right = false → trimsNext ls → body.getLast?.any Text.isBlank = false)
    (hls : ∀ p ≠ .tag, Laid p ls) : Laid (Place.ofMode (.text left)) (rawPieces left right body ++ ls) := by
  unfold Lexeme.rawPieces
  generalize hended : (if right then Text.splitBlanksRight body else (body, [])) = ended
  obtain ⟨inner, blanks⟩ := ended
  have hinner : trimsNext ls → inner.getLast?.any Text.isBlank = false := by
    cases right with
    | true => obtain rfl := (Prod.mk.inj hended).1; exact fun _ => getLast?_splitBlanksRight body
    | false => obtain rfl := (Prod.mk.inj hended).1; exact hend rfl
  have hright (p : Place) (hp : p ≠ .tag) : Laid p (keep (.gap .trimmed blanks) ++ ls) := by
    cases right with
    | true =>
      obtain rfl := (Prod.mk.inj hended).2
      exact .keep_gap hp (fun c hc => isBlank_of_mem_takeWhile c (List.mem_reverse.mp hc)) (fun _ => hnext rfl) hls
    | false => obtain rfl := (Prod.mk.inj hended).2; exact hls p hp
  have hraw (p : Place) (hp : p ≠ .tag) (t : List Char) (hs : t <:+ inner)
      (hb : p.trims → t.head?.any Text.isBlank = false) :
      Laid p (keep (.token .raw t) ++ (keep (.gap .trimmed blanks) ++ ls)) :=
    .keep_raw hp hb (fun h => getLast?_any_of_suffix hs (hinner ((trimsNext_keep_gap ..).mp h))) hright
  simp only [List.append_assoc]
  cases left with
  | false => exact hraw .text (by simp) inner List.suffix_rfl (by simp [Place.trims])
  | true =>
    have hs : (Text.splitBlanksLeft inner).2 <:+ inner := List.dropWhile_suffix _
    simp only [if_true]
    unfold keep
    split
    · exact hraw .marker (by simp) _ hs fun _ => head?_splitBlanksLeft inner
    · exact .after isBlank_of_mem_takeWhile (hraw .cut (by simp) _ hs fun _ => head?_splitBlanksLeft inner)

theorem getLast?_dropLast_of_ending {before : List Char} (h : Ending.of before = .backslash) :
    before.dropLast.getLast? = some '\\' := by
  unfold Ending.of at h
  split at h
  · rename_i tail e
    have : before = tail.reverse ++ ['\\', '\\'] := by simpa using congrArg List.reverse e
    simp [this]
  · cases h
  · cases h

theorem Laid.piecesBefore {trim tilde : Bool} {before : List Char} {kind : Token.Kind} {text : List Char}
    {ls : List Lexeme} (ht : kind.trimsBefore text = tilde) (hbraces : ['{', '{'] <+: text)
    (hescape : Ending.of before = .escape → tilde = false)
    (hls : ∀ p ≠ .tag, Laid p (.token kind text :: ls)) :
    Laid (Place.ofMode (.text trim)) (piecesBefore trim tilde before ++ .token kind text :: ls) := by
  have hback (p : Place) (hp : p ≠ .tag) : Laid p (.gap .backslash ['\\'] :: .token kind text :: ls) := by
    refine .backslash (hbraces.trans (List.prefix_append text _)) (hls _ ?_)
    cases p <;> simp_all [Place.past]
  unfold Lexeme.piecesBefore
  cases he : Ending.of before with
  | plain =>
    refine .rawPieces (fun h => ⟨kind, text, ls, rfl, ht.trans h⟩) (fun h hn => ?_) hls
    simp [trimsNext, ht, h] at hn
  | escape =>
    rw [List.append_assoc]
    refine .rawPieces (by simp) (fun _ hn => ?_) hback
    simp [trimsNext, ht, hescape he] at hn
  | backslash =>
    rw [List.append_assoc]
    refine .rawPieces (by simp) (fun _ _ => ?_) hback
    rw [getLast?_dropLast_of_ending he]
    decide

/-! ### Opening markers and comments -/

theorem splitComment_tilde {dashed : Bool} {seen cs body rest : List Char} {trim : Bool}
    (h : splitComment dashed seen cs = some (body, trim, rest)) :
    ∃ inner, body = inner ++ ['}', '}'] ∧ (trim = true ↔ inner.getLast? = some '~') := by
  fun_induction splitComment dashed seen cs with
  | case1 => cases h
  | case2 seen rest' tilde bare _ =>
    simp only [Option.some.injEq, Prod.mk.injEq] at h
    obtain ⟨rfl, rfl, -⟩ := h
    exact ⟨seen.reverse, rfl, by simp [tilde]⟩
  | case3 seen rest' tilde bare _ ih => exact ih h
  | case4 seen c rest' _ ih => exact ih h

/-- A step that reads one token, which begins with two braces and may follow any text. -/
structure Step.Opens (s : Step) (tilde : Bool) (kind : Token.Kind) (text : List Char) : Prop where
  lexemes : s.lexemes = [.token kind text]
  ne_raw : kind ≠ .raw
  braces : ['{', '{'] <+: text
  trims : kind.trimsBefore text = tilde
  place : ∀ p ≠ Place.tag, p.behind kind text = Place.ofMode s.mode

theorem isSuffixOf_tilde_iff {marker : List Char} {c : Char} (hm : marker.getLast? = some c) (hc : c ≠ '~')
    (inner : List Char) :
    ['~', '}', '}'].isSuffixOf (marker ++ (inner ++ ['}', '}'])) = true ↔ inner.getLast? = some '~' := by
  rw [List.isSuffixOf_iff_suffix, ← List.append_assoc, show ['~', '}', '}'] = ['~'] ++ ['}', '}'] from rfl,
    List.suffix_append_inj_of_length_eq rfl, List.singleton_suffix_iff_getLast?_eq_some, List.getLast?_append, hm]
  cases inner.getLast? <;> simp [hc]

theorem scanComment_opens {marker : List Char} {tilde : Bool} {c : Char} (hm : marker.getLast? = some c)
    (hc : c ≠ '~') (hb : ['{', '{'] <+: marker) (ht : ∀ more, ['{', '{', '~'].isPrefixOf (marker ++ more) = tilde)
    (dashed : Bool) (body : List Char) :
    ∃ kind text, (scanComment marker dashed body).Opens tilde kind text := by
  unfold scanComment
  cases h : splitComment dashed [] body with
  | none =>
    refine ⟨_, _, rfl, by simp, hb.trans (List.prefix_append _ _), ?_, ?_⟩
    · simpa [Token.Kind.trimsBefore] using ht body
    · intro p hp
      simp [Place.behind, Place.ofMode, Token.Kind.opensTag, Token.Kind.trimsAfter, hp]
  | some found =>
    obtain ⟨body', trim, rest⟩ := found
    obtain ⟨inner, rfl, htrim⟩ := splitComment_tilde h
    refine ⟨_, _, rfl, by simp, hb.trans (List.prefix_append _ _), ?_, fun p hp => ?_⟩
    · simpa [Token.Kind.trimsBefore] using ht (inner ++ ['}', '}'])
    · have := isSuffixOf_tilde_iff hm hc inner
      rw [← htrim, ← Bool.eq_iff_iff] at this
      cases trim <;> simp [Place.behind, Place.ofMode, Token.Kind.opensTag, Token.Kind.trimsAfter, this, hp]

theorem scanMarker_opens {tilde : Bool} {after : List Char} (ha : tilde = false → after.head? ≠ some '~') :
    ∃ kind text, (scanMarker (braces tilde) after).Opens tilde kind text := by
  unfold scanMarker
  split
  · exact scanComment_opens (c := '-') (by simp) (by decide) (by cases tilde <;> simp [braces])
      (by cases tilde <;> simp [braces, List.isPrefixOf]) true _
  · exact scanComment_opens (c := '!') (by simp) (by decide) (by cases tilde <;> simp [braces])
      (by cases tilde <;> simp [braces, List.isPrefixOf]) false _
  all_goals
    refine ⟨_, _, rfl, by simp, by cases tilde <;> simp [braces], ?_, fun p _ => rfl⟩
    cases tilde <;> simp [braces, Token.Kind.trimsBefore, Token.Kind.opensTag, List.isPrefixOf]

/-! ### Plain text -/

theorem Laid.escaped (after : List Char) {ls : List Lexeme}
    (hnil : (scanEscaped (braces false ++ after)).rest = [] → ls = []) (hls : Laid .text ls) :
    ∃ text, (scanEscaped (braces false ++ after)).lexemes = [.token .raw text] ∧ ['{', '{'] <+: text ∧
      ∀ p ≠ .tag, Laid p (.token .raw text :: ls) := by
  obtain ⟨ends, he, hlast⟩ := escapedEnd_spec after
  rw [scanEscaped_braces] at *
  refine ⟨_, rfl, List.prefix_append _ _, fun p hp => ?_⟩
  have hbehind (text : List Char) : p.behind .raw text = .text := by
    simp [Place.behind, Token.Kind.opensTag, Token.Kind.trimsAfter, hp]
  refine .token (by simp [braces]) (fun _ _ => by simp [braces]; decide) (fun _ hn => ?_) (hbehind _ ▸ hls)
  rcases prefix_splitAtMark (escapedEnd after) after with h | ⟨rest, h⟩
  · rw [hnil (by simp [h])] at hn
    exact hn.elim
  · rw [← h, List.take_left, List.getLast?_append, List.getLast?_append, hlast]
    exact (by decide : Text.isBlank '}' = false)

theorem Step.Opens.laid {s : Step} {tilde : Bool} {kind : Token.Kind} {text : List Char}
    (h : s.Opens tilde kind text) {ls : List Lexeme} (hls : Laid (Place.ofMode s.mode) ls) :
    ∀ p ≠ .tag, Laid p (.token kind text :: ls) := by
  intro p hp
  have hne : text ≠ [] := by
    rintro rfl
    exact absurd h.braces (by simp)
  exact .token hne (fun e => absurd e h.ne_raw) (fun e => absurd e h.ne_raw) (h.place p hp ▸ hls)

theorem Laid.scanText {trim : Bool} {source : List Char} {ls : List Lexeme}
    (hnil : (scanText trim source).rest = [] → ls = [])
    (hls : Laid (Place.ofMode (scanText trim source).mode) ls) :
    Laid (Place.ofMode (.text trim)) ((scanText trim source).lexemes ++ ls) := by
  cases textCase source with
  | last h =>
    rw [scanText_last trim h] at *
    obtain rfl := hnil rfl
    exact .rawPieces (by simp) (fun _ hn => hn.elim) fun _ _ => .nil
  | @escaped before after h he =>
    rw [scanText_escaped trim h he] at *
    obtain ⟨text, ht, hb, hescaped⟩ := Laid.escaped after hnil hls
    rw [ht, List.append_assoc]
    exact .piecesBefore rfl hb (fun _ => rfl) hescaped
  | marker h he ha =>
    rw [scanText_marker trim h he ha] at *
    obtain ⟨kind, text, ho⟩ := scanMarker_opens ha
    rw [ho.lexemes, List.append_assoc]
    exact .piecesBefore ho.trims ho.braces (fun e => absurd e he) (ho.laid hls)

/-! ### Tags -/

theorem isInner_wordKind (word : List Char) : (wordKind word).isInner := by
  unfold wordKind
  repeat' split
  all_goals rfl

theorem scanWord_cases (c : Char) (rest : List Char) :
    (∃ blanks, (scanWord c rest).1 = .gap .blank blanks ∧ ∀ c ∈ blanks, Text.isBlank c) ∨
      ∃ kind text, (scanWord c rest).1 = .token kind text ∧ text ≠ [] ∧ kind.isInner := by
  unfold scanWord
  split
  · rename_i kind hp
    refine .inr ⟨kind, [c], rfl, by simp, ?_⟩
    unfold punctuation? at hp
    split at hp <;> simp at hp <;> subst hp <;> rfl
  split
  · split
    · exact .inr ⟨_, _, rfl, by simp, rfl⟩
    · exact .inr ⟨_, _, rfl, by simp, rfl⟩
  split
  · exact .inr ⟨_, _, rfl, by simp, rfl⟩
  split
  · rename_i hc
    exact .inl ⟨_, rfl, List.forall_mem_cons.mpr ⟨hc, isBlank_of_mem_takeWhile⟩⟩
  split
  · rcases splitPath (c == '[') rest with ⟨word, after, bracket⟩
    refine .inr ⟨_, _, rfl, by simp, ?_⟩
    cases bracket with
    | true => rfl
    | false => exact isInner_wordKind (c :: word)
  · exact .inr ⟨_, _, rfl, by simp, rfl⟩

theorem behind_of_isInner {kind : Token.Kind} (h : kind.isInner) (text : List Char) :
    Place.tag.behind kind text = .tag := by
  cases kind with
  | invalid fault => cases fault <;> first | rfl | cases h
  | _ => first | rfl | cases h

theorem Laid.scanTag {expected : Closer} {source : List Char} (hs : source ≠ []) {ls : List Lexeme}
    (hls : Laid (Place.ofMode (scanTag expected source).mode) ls) :
    Laid .tag ((scanTag expected source).lexemes ++ ls) := by
  cases tagCase expected hs with
  | @closing closer trim _ marker rest h =>
    have hne := closing?_ne_nil h
    obtain rfl := closing?_marker h
    rw [scanTag_closing h] at *
    split at hls
    · rename_i he
      rw [if_pos he]
      refine .token hne (by cases closer <;> simp [Closer.kind]) (by cases closer <;> simp [Closer.kind]) ?_
      have : Place.tag.behind closer.kind (closer.marker trim) = Place.ofMode (.text trim) := by
        cases closer <;> cases trim <;> rfl
      rw [this]
      exact hls
    · rename_i he
      rw [if_neg he]
      exact .token hne (by simp) (by simp) hls
  | unclosed h =>
    rw [scanTag_unclosed h] at *
    exact .token (by simp) (by simp) (by simp) hls
  | @word c rest h hb =>
    rw [scanTag_word h hb] at *
    rcases scanWord_cases c rest with ⟨blanks, hw, hblank⟩ | ⟨kind, text, hw, hne, hinner⟩
    · rw [hw]
      exact .blank hblank hls
    · rw [hw]
      have hraw : kind ≠ .raw := by rintro rfl; cases hinner
      exact .token hne (fun e => absurd e hraw) (fun e => absurd e hraw) ((behind_of_isInner hinner text).symm ▸ hls)

theorem laid_scan (mode : Mode) (source : List Char) : Laid (Place.ofMode mode) (scan mode source) := by
  fun_induction scan mode source with
  | case1 => exact .nil
  | case2 mode source hs ih =>
    cases mode with
    | text trim =>
      refine .scanText (fun hr => ?_) ih
      rw [show scanText trim source = scanStep (.text trim) source from rfl] at hr
      rw [hr, scan_nil]
    | tag expected => exact .scanTag hs ih

/-! ## What the places tell -/

def placeAfter (p : Place) : List Lexeme → Place
  | [] => p
  | .token kind text :: ls => placeAfter (p.behind kind text) ls
  | .gap .. :: ls => placeAfter p.past ls

theorem placeAfter_append (p : Place) (a b : List Lexeme) :
    placeAfter p (a ++ b) = placeAfter (placeAfter p a) b := by
  induction a generalizing p with
  | nil => rfl
  | cons l a ih => cases l <;> exact ih _

theorem Laid.drop {p : Place} {a b : List Lexeme} (h : Laid p (a ++ b)) : Laid (placeAfter p a) b := by
  induction a generalizing p with
  | nil => exact h
  | cons l a ih =>
    rw [List.cons_append] at h
    generalize hc : a ++ b = c at h
    cases h with
    | token _ _ _ h => exact ih (hc ▸ h)
    | blank _ h => exact ih (hc ▸ h)
    | after _ h => exact ih (hc ▸ h)
    | before _ _ h => exact ih (hc ▸ h)
    | backslash _ h => exact ih (hc ▸ h)

theorem exists_opening {p : Place} (hp : p ≠ .tag) {a : List Lexeme} (h : placeAfter p a = .tag) :
    ∃ before kind text inner, a = before ++ .token kind text :: inner ∧ kind.opensTag ∧
      ∀ kind text, .token kind text ∈ inner → ¬ kind.closesTag := by
  induction a using List.reverseRecOn with
  | nil => exact absurd h hp
  | append_singleton a l ih =>
    rw [placeAfter_append] at h
    cases l with
    | gap gap text =>
      have hg : placeAfter p a = .tag := by
        generalize placeAfter p a = q at h
        cases q <;> simp_all [placeAfter, Place.past]
      obtain ⟨before, kind, text', inner, rfl, ho, hi⟩ := ih hg
      refine ⟨before, kind, text', inner ++ [.gap gap text], by simp, ho, fun k t hm => ?_⟩
      exact hi k t (by simpa using hm)
    | token kind text =>
      simp only [placeAfter, Place.behind] at h
      split at h
      · rename_i ho
        exact ⟨a, kind, text, [], rfl, ho, by simp⟩
      split at h
      · cases h
      split at h
      · rename_i ht
        obtain ⟨before, kind', text', inner, rfl, ho, hi⟩ := ih ht.1
        refine ⟨before, kind', text', inner ++ [.token kind text], by simp, ho, fun k t hm => ?_⟩
        rcases List.mem_append.mp hm with hm | hm
        · exact hi k t hm
        · simp only [List.mem_singleton, Lexeme.token.injEq] at hm
          rw [hm.1]
          exact ht.2
      · cases h

theorem exists_marker {p : Place} (hp : p ≠ .marker) {a : List Lexeme} (h : placeAfter p a = .marker) :
    ∃ before kind text, a = before ++ [.token kind text] ∧ kind.trimsAfter text := by
  induction a using List.reverseRecOn with
  | nil => exact absurd h hp
  | append_singleton a l ih =>
    rw [placeAfter_append] at h
    cases l with
    | gap gap text =>
      generalize placeAfter p a = q at h
      cases q <;> simp [placeAfter, Place.past] at h
    | token kind text =>
      simp only [placeAfter, Place.behind] at h
      split at h
      · cases h
      split at h
      · rename_i ht
        exact ⟨a, kind, text, rfl, ht⟩
      split at h <;> cases h

theorem trimsNext_iff (start : Nat) (ls : List Lexeme) :
    trimsNext ls ↔ ∃ t ∈ (tokens start ls).head?, t.kind.trimsBefore t.text := by
  induction ls generalizing start with
  | nil => simp [trimsNext, tokens]
  | cons l ls ih =>
    cases l with
    | token kind text => simp [trimsNext, tokens]
    | gap gap text => exact ih _

theorem Laid.trimmed {p : Place} {ls : List Lexeme} (h : Laid p ls) (start : Nat) :
    (tokens start ls).IsChain Token.Trimmed ∧
      (p.trims → ∀ t ∈ (tokens start ls).head?, t.kind = .raw → t.text.head?.any Text.isBlank = false) := by
  induction h generalizing start with
  | nil => exact ⟨.nil, by simp [tokens]⟩
  | @token p kind text ls hne hbegin hend _ ih =>
    obtain ⟨hchain, hfirst⟩ := ih (start + byteLength text)
    refine ⟨List.isChain_cons.mpr ⟨fun u hu => ⟨fun ht hr => ?_, fun ht hr => ?_⟩, hchain⟩, fun hp t ht hr => ?_⟩
    · refine hfirst (.inl ?_) u hu hr
      have ho : kind.opensTag = false := by cases kind <;> simp_all [Token.Kind.trimsAfter, Token.Kind.opensTag]
      simp only [Place.behind, ho, Bool.false_eq_true, if_false]
      exact if_pos ht
    · exact hend hr ((trimsNext_iff _ ls).mpr ⟨u, hu, ht⟩)
    · obtain rfl : t = _ := (Option.mem_some.mp ht).symm
      exact hbegin hr hp
  | blank _ _ ih => exact ⟨(ih _).1, fun hp => by simp [Place.trims] at hp⟩
  | after _ _ ih => exact ⟨(ih _).1, fun _ => (ih _).2 (.inr rfl)⟩
  | before _ _ _ ih =>
    refine ⟨(ih _).1, fun hp => (ih _).2 ?_⟩
    rcases hp with rfl | rfl <;> exact .inr rfl
  | backslash _ _ ih =>
    refine ⟨(ih _).1, fun hp => (ih _).2 ?_⟩
    rcases hp with rfl | rfl <;> exact .inr rfl

/-! ## Bytes and tokens -/

theorem bounds_of_mem_tokens {start : Nat} {ls : List Lexeme} {t : Token} (h : t ∈ tokens start ls) :
    start ≤ t.region.start ∧ t.region.stop ≤ start + byteLength (texts ls) := by
  obtain ⟨a, b, rfl, hr⟩ := mem_tokens h
  rw [hr]
  simp only [texts_append, texts_cons, byteLength_append, text]
  omega

theorem tokens_pairwise (start : Nat) (ls : List Lexeme) :
    (tokens start ls).Pairwise fun t u => t.region.stop ≤ u.region.start := by
  induction ls generalizing start with
  | nil => exact .nil
  | cons l ls ih =>
    cases l with
    | token kind text => exact .cons (fun u hu => (bounds_of_mem_tokens hu).1) (ih _)
    | gap gap text => exact ih _

theorem lt_of_mem_tokens {start : Nat} {mode : Mode} {source : List Char} {t : Token}
    (h : t ∈ tokens start (scan mode source)) : t.region.start < t.region.stop := by
  obtain ⟨a, b, hls, hr⟩ := mem_tokens h
  have hlaid := laid_scan mode source
  rw [hls] at hlaid
  generalize placeAfter _ a = p, hlaid.drop = hat
  cases hat with
  | token hne _ _ _ =>
    have := byteLength_pos hne
    rw [hr]
    simp only
    omega

theorem exists_lexeme_of_lt {n : Nat} {ls : List Lexeme} (h : n < byteLength (texts ls)) :
    ∃ a l b, ls = a ++ l :: b ∧ byteLength (texts a) ≤ n ∧ n < byteLength (texts a) + byteLength l.text := by
  induction ls using List.reverseRecOn with
  | nil => simp [byteLength] at h
  | append_singleton ls l ih =>
    by_cases hn : n < byteLength (texts ls)
    · obtain ⟨a, l', b, rfl, ha, hb⟩ := ih hn
      exact ⟨a, l', b ++ [l], by simp, ha, hb⟩
    · refine ⟨ls, l, [], rfl, by omega, ?_⟩
      simpa [byteLength_append] using h

theorem tagOpenAt {a b : List Lexeme} {gap : Gap} {text : List Char} {n : Nat} (h : placeAfter .text a = .tag)
    (ha : byteLength (texts a) ≤ n) (hn : n < byteLength (texts a) + byteLength text) :
    TagOpenAt (tokens 0 (a ++ .gap gap text :: b)) n := by
  obtain ⟨before, kind, opening, inner, rfl, ho, hi⟩ := exists_opening (by simp) h
  have hmem {t : Token} (ht : t ∈ tokens (byteLength (texts before)) (.token kind opening :: inner)) :
      t.region.stop ≤ n := by
    have := (bounds_of_mem_tokens ht).2
    rw [texts_append, byteLength_append] at ha
    omega
  rw [List.append_assoc, List.cons_append, tokens_split, tokens_append]
  refine ⟨_, ⟨kind, opening, _⟩, _, _, rfl, ho, fun t ht => ?_, fun t ht => hmem ?_, fun t ht => ?_⟩
  · obtain ⟨x, y, rfl, -⟩ := mem_tokens ht
    exact hi t.kind t.text (by simp)
  · simpa [tokens] using ht
  · have hb : t ∈ tokens (_ + byteLength text) b := ht
    have := (bounds_of_mem_tokens hb).1
    simp only [texts_append, texts_cons, byteLength_append, Lexeme.text] at hn
    omega

end Lexeme

theorem dropped_of_not_contains {source : List Char} {n : Nat} (hn : n < byteLength source)
    (ht : ∀ t ∈ Token.ofSource source, ¬ t.region.Contains n) : Dropped source (Token.ofSource source) n := by
  have hlaid := Lexeme.laid_scan (.text false) source
  have htexts := Lexeme.texts_scan (.text false) source
  unfold Token.ofSource at ht ⊢
  generalize Lexeme.scan (.text false) source = ls at *
  obtain ⟨a, l, b, rfl, ha, hl⟩ := Lexeme.exists_lexeme_of_lt (htexts.symm ▸ hn)
  have hat := hlaid.drop
  cases l with
  | token kind text =>
    rw [Lexeme.tokens_split] at ht
    refine absurd ⟨?_, ?_⟩ (ht _ (List.mem_append_right _ (List.mem_cons_self ..)))
    · simpa using ha
    · simpa [Lexeme.text] using hl
  | gap gap text =>
    have hcontains : Region.Contains ⟨byteLength (Lexeme.texts a), byteLength (Lexeme.texts a) + byteLength text⟩ n :=
      ⟨ha, hl⟩
    have hslice : Region.slice? ⟨byteLength (Lexeme.texts a), byteLength (Lexeme.texts a) + byteLength text⟩ source =
        some text := by
      rw [← htexts]
      simpa [Lexeme.text] using Region.slice?_append (Lexeme.texts a) text (Lexeme.texts b)
    generalize hp : Lexeme.placeAfter (Lexeme.Place.ofMode (.text false)) a = p at hat
    cases hat with
    | blank hb _ => exact .inTag hcontains ⟨text, hslice, hb⟩ (Lexeme.tagOpenAt hp ha hl)
    | after hb _ =>
      obtain ⟨before, kind, marker, rfl, hm⟩ := Lexeme.exists_marker (by simp [Lexeme.Place.ofMode]) hp
      rw [List.append_assoc, List.singleton_append, Lexeme.tokens_split]
      refine .after hcontains ⟨text, hslice, hb⟩ (List.mem_append_right _ (List.mem_cons_self ..)) hm ?_
      simp [byteLength_append, Lexeme.text]
    | @before _ kind _ marker ls hb hm _ =>
      rw [← List.singleton_append, ← List.append_assoc, Lexeme.tokens_split]
      refine .before hcontains ⟨text, hslice, hb⟩ (List.mem_append_right _ (List.mem_cons_self ..)) hm ?_
      simp [byteLength_append, Lexeme.text]
    | backslash hb _ =>
      obtain ⟨more, hmore⟩ := hb
      have hlen : byteLength ['\\'] = 1 := by decide
      have hlen3 : byteLength ['\\', '{', '{'] = 3 := by decide
      simp only [Lexeme.text, hlen] at hl
      obtain rfl : n = byteLength (Lexeme.texts a) := by omega
      have := Region.slice?_append (Lexeme.texts a) ['\\', '{', '{'] more
      rw [hlen3] at this
      refine .backslash ?_
      rw [← htexts, ← this]
      simp [Lexeme.text, ← hmore]

/-! ## Drawing tokens -/

/-- A scan that hands out its tokens one at a time. -/
structure Cursor where
  /-- Read by the last step, and not handed out yet. -/
  pending : List Token
  mode : Lexeme.Mode
  /-- The byte at which `rest` begins. -/
  offset : Nat
  rest : List Char

namespace Cursor

def start (source : List Char) : Cursor :=
  ⟨[], .text false, 0, source⟩

def advance (c : Cursor) : Cursor :=
  let step := Lexeme.scanStep c.mode c.rest
  ⟨Lexeme.tokens c.offset step.lexemes, step.mode, c.offset + byteLength (Lexeme.texts step.lexemes), step.rest⟩

/-- The next token. Steps that read none are passed over. -/
def next (c : Cursor) : Option Token × Cursor :=
  match c.pending with
  | t :: pending => (some t, { c with pending })
  | [] => if c.rest = [] then (none, c) else c.advance.next
termination_by c.rest.length
decreasing_by exact Lexeme.scanStep_rest_lt c.mode ‹_›

/-- What the call after `count` others gives. -/
def draw : Nat → Cursor → Option Token
  | 0, c => c.next.1
  | count + 1, c => draw count c.next.2

def tokens (c : Cursor) : List Token :=
  c.pending ++ Lexeme.tokens c.offset (Lexeme.scan c.mode c.rest)

theorem tokens_advance {c : Cursor} (hp : c.pending = []) (hr : c.rest ≠ []) : c.advance.tokens = c.tokens := by
  unfold tokens
  rw [hp, Lexeme.scan_of_ne_nil c.mode hr, Lexeme.tokens_append]
  rfl

theorem next_eq (c : Cursor) : c.next.1 = c.tokens.head? ∧ c.next.2.tokens = c.tokens.tail := by
  fun_induction next c with
  | case1 c t pending h => simp [tokens, h]
  | case2 c h hr => simp [tokens, h, hr, Lexeme.scan_nil, Lexeme.tokens]
  | case3 c h hr ih => rwa [tokens_advance h hr] at ih

theorem draw_eq (count : Nat) (c : Cursor) : c.draw count = c.tokens[count]? := by
  induction count generalizing c with
  | zero => rw [draw, (next_eq c).1, List.head?_eq_getElem?]
  | succ count ih => rw [draw, ih, (next_eq c).2, List.getElem?_tail]

end Cursor

theorem Token.slice?_of_mem {source : List Char} {t : Token} (h : t ∈ Token.ofSource source) :
    t.region.start < t.region.stop ∧ t.region.slice? source = some t.text :=
  ⟨Lexeme.lt_of_mem_tokens h, Token.slice?_region h⟩

/-- The tokens drawn from a source are finitely many parts of it, one behind
another. A byte that they leave out is a blank inside a tag, a blank that a tilde
drops or a backslash before braces, and the blanks that a tilde drops are all left out. -/
theorem Cursor.draw_covers (source : List Char) :
    (∀ count, (start source).draw count = (Token.ofSource source)[count]?) ∧
    (∀ t ∈ Token.ofSource source, t.region.start < t.region.stop ∧ t.region.slice? source = some t.text) ∧
    (Token.ofSource source).Pairwise (fun t u => t.region.stop ≤ u.region.start) ∧
    (∀ n < byteLength source, (∀ t ∈ Token.ofSource source, ¬ t.region.Contains n) →
      Dropped source (Token.ofSource source) n) ∧
    (Token.ofSource source).IsChain Token.Trimmed :=
  ⟨fun count => draw_eq count (start source), fun _ => Token.slice?_of_mem, Lexeme.tokens_pairwise 0 _,
    fun _ => dropped_of_not_contains, ((Lexeme.laid_scan (.text false) source).trimmed 0).1⟩

end Curly
