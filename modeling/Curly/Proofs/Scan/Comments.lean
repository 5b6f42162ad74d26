import Curly.Proofs.Scan.Bodies
import Mathlib.Data.List.Infix

/-!
# Comments with dashes

A comment that opens with dashes ends at the first braces with two dashes in front of
them, or with nothing but the opening dashes; a tilde may stand before the braces. It
may hold all else, and is read as one token (`Cursor.draws_dashed`).
-/

namespace Curly

namespace Lexeme

/-! ## The end of a comment -/

def dropTilde (text : List Char) : List Char :=
  if text.getLast? = some '~' then text.dropLast else text

/-- Braces behind the text end a comment that has the text between its opening marker and them. -/
def EndsComment (dashed : Bool) (text : List Char) : Prop :=
  dashed = true → dropTilde text = [] ∨ ['-', '-'] <:+ dropTilde text

instance (dashed : Bool) (text : List Char) : Decidable (EndsComment dashed text) :=
  inferInstanceAs (Decidable (dashed = true → dropTilde text = [] ∨ ['-', '-'] <:+ dropTilde text))

theorem dropTilde_reverse (seen : List Char) :
    dropTilde seen.reverse = (if seen.head? = some '~' then seen.tail else seen).reverse := by
  rw [dropTilde, List.getLast?_reverse, List.dropLast_reverse]
  split <;> rfl

theorem endsComment_reverse {dashed : Bool} {seen : List Char} :
    (!dashed || (if seen.head? = some '~' then seen.tail else seen).isEmpty ||
      ['-', '-'].isPrefixOf (if seen.head? = some '~' then seen.tail else seen)) = true ↔
        EndsComment dashed seen.reverse := by
  have hsuffix (bare : List Char) : ['-', '-'] <:+ bare.reverse ↔ ['-', '-'] <+: bare :=
    @List.reverse_suffix _ ['-', '-'] bare
  rw [EndsComment, dropTilde_reverse, hsuffix, List.reverse_eq_nil_iff]
  cases dashed <;> simp

theorem splitComment_close {dashed : Bool} {seen : List Char} (h : EndsComment dashed seen.reverse) (rest : List Char) :
    splitComment dashed seen ('}' :: '}' :: rest) =
      some (seen.reverse ++ ['}', '}'], decide (seen.head? = some '~'), rest) := by
  rw [splitComment, if_pos (endsComment_reverse.mpr h)]

theorem splitComment_skip {dashed : Bool} {seen cs : List Char} {c : Char}
    (h : ['}', '}'] <+: c :: cs → ¬ EndsComment dashed seen.reverse) :
    splitComment dashed seen (c :: cs) = splitComment dashed (c :: seen) cs := by
  by_cases hb : ['}', '}'] <+: c :: cs
  · have hends := h hb
    obtain ⟨more, hmore⟩ := hb
    simp only [List.cons_append, List.nil_append, List.cons.injEq] at hmore
    obtain ⟨rfl, rfl⟩ := hmore
    rw [splitComment, if_neg (mt endsComment_reverse.mp hends)]
  · refine splitComment.eq_3 dashed seen c cs ?_
    rintro more rfl rfl
    exact hb ⟨more, rfl⟩

/-- A comment ends at the first braces that can end it. -/
theorem splitComment_eq_some {dashed : Bool} {seen inner : List Char} (hends : EndsComment dashed (seen.reverse ++ inner))
    (hfirst : ∀ before, before ++ ['}', '}'] <+: inner ++ ['}'] → ¬ EndsComment dashed (seen.reverse ++ before))
    (rest : List Char) :
    splitComment dashed seen (inner ++ '}' :: '}' :: rest) =
      some (seen.reverse ++ (inner ++ ['}', '}']), decide ((seen.reverse ++ inner).getLast? = some '~'), rest) := by
  -- with each character in front of the braces `seen` grows
  induction inner generalizing seen with
  | nil =>
    rw [List.append_nil] at hends ⊢
    rw [List.nil_append, splitComment_close hends, List.getLast?_reverse, List.nil_append]
  | cons c inner ih =>
    have hseen (text : List Char) : (c :: seen).reverse ++ text = seen.reverse ++ c :: text := by simp
    have hskip : ['}', '}'] <+: c :: (inner ++ '}' :: '}' :: rest) → ¬ EndsComment dashed seen.reverse := by
      intro hb
      have hwithin : [] ++ ['}', '}'] <+: c :: inner ++ ['}'] := by
        refine (List.prefix_of_prefix_length_le hb ?_ (by simp)).trans (List.prefix_refl _)
        exact ⟨'}' :: rest, by simp⟩
      simpa using hfirst [] hwithin
    rw [← hseen] at hends
    rw [List.cons_append, splitComment_skip hskip, ih hends, hseen, hseen, List.cons_append]
    intro before hbefore
    rw [hseen]
    exact hfirst (c :: before) (List.cons_prefix_cons.mpr ⟨rfl, hbefore⟩)

theorem splitComment_eq_none {dashed : Bool} {seen cs : List Char}
    (h : ∀ before, before ++ ['}', '}'] <+: cs → ¬ EndsComment dashed (seen.reverse ++ before)) :
    splitComment dashed seen cs = none := by
  induction cs generalizing seen with
  | nil => rfl
  | cons c cs ih =>
    rw [splitComment_skip fun hb => by simpa using h [] hb]
    refine ih fun before hbefore => ?_
    rw [List.reverse_cons, List.append_assoc]
    exact h (c :: before) (List.cons_prefix_cons.mpr ⟨rfl, hbefore⟩)

/-! ## Dashes -/

/-- The opening marker of a comment with dashes. -/
def dashes (tilde : Bool) : List Char :=
  braces tilde ++ ['!', '-', '-']

def dashedEnd (tilde : Bool) : List Char :=
  ['-', '-'] ++ Closer.double.marker tilde

/-- No part of the text ends a comment with dashes that the text stands in. -/
structure IsOpaque (content : List Char) : Prop where
  undashed : ∀ tilde, ¬ dashedEnd tilde <:+: content
  unclosed : ∀ tilde, ¬ Closer.double.marker tilde <+: content

/-- No braces in the text end a comment with dashes that the text follows. -/
def Unended (body : List Char) : Prop :=
  ∀ before, before ++ ['}', '}'] <+: body → ¬ EndsComment true before

instance (body : List Char) : Decidable (Unended body) :=
  decidable_of_iff (∀ before ∈ body.inits, before ++ ['}', '}'] <+: body → ¬ EndsComment true before) <| by
    refine ⟨fun h before hp => ?_, fun h before _ hp => h before hp⟩
    exact h before ((List.mem_inits before body).mpr ((List.prefix_append _ _).trans hp)) hp

theorem dropTilde_append (text : List Char) :
    ∃ tilde, text ++ ['}', '}'] = dropTilde text ++ Closer.double.marker tilde := by
  unfold dropTilde
  split
  · rename_i h
    obtain ⟨text, rfl⟩ := List.getLast?_eq_some_iff.mp h
    exact ⟨true, by simp [Closer.marker]⟩
  · exact ⟨false, rfl⟩

theorem IsOpaque.not_ends {content before : List Char} (h : IsOpaque content)
    (hbefore : before ++ ['}', '}'] <+: content) : ¬ EndsComment true before := by
  intro hends
  obtain ⟨tilde, htilde⟩ := dropTilde_append before
  rw [htilde] at hbefore
  rcases hends rfl with hnil | ⟨inner, hdashes⟩
  · rw [hnil] at hbefore
    exact h.unclosed tilde hbefore
  · obtain ⟨more, hmore⟩ := hbefore
    refine h.undashed tilde ⟨inner, more, ?_⟩
    rw [← hmore, ← hdashes, dashedEnd]
    simp

theorem prefix_of_prefix_concat {before text : List Char} {m d : Char} (hd : d ≠ m)
    (h : before ++ [m, m] <+: text ++ [d]) : before ++ [m, m] <+: text := by
  refine (List.prefix_concat_iff.mp h).resolve_left fun heq => hd ?_
  have hlast := congrArg List.getLast? heq
  simpa using hlast.symm

/-- What stands between the opening dashes of a comment and the braces that end it. -/
def enclosed (content : List Char) (tilde : Bool) : List Char :=
  content ++ ['-', '-'] ++ if tilde then ['~'] else []

theorem enclosed_append (content : List Char) (tilde : Bool) :
    enclosed content tilde ++ ['}', '}'] = content ++ dashedEnd tilde := by
  simp [enclosed, dashedEnd, Closer.marker]

theorem endsComment_enclosed (content : List Char) (tilde : Bool) : EndsComment true (enclosed content tilde) := by
  have hdrop : dropTilde (enclosed content tilde) = content ++ ['-', '-'] := by
    cases tilde <;> simp [enclosed, dropTilde]
  intro _
  rw [hdrop]
  exact .inr (List.suffix_append _ _)

theorem IsOpaque.first {content before : List Char} (h : IsOpaque content) {tilde : Bool}
    (hbefore : before ++ ['}', '}'] <+: enclosed content tilde ++ ['}']) : ¬ EndsComment true before := by
  -- between the dashes and the last brace there are no two braces
  have hinner : before ++ ['}', '}'] <+: enclosed content tilde := by
    refine (List.prefix_concat_iff.mp hbefore).resolve_left fun heq => ?_
    have hlast := congrArg (fun text => text.dropLast.getLast?) heq
    cases tilde <;> simp [enclosed] at hlast
  refine h.not_ends ?_
  cases tilde with
  | false =>
    rw [enclosed, if_neg Bool.false_ne_true, List.append_nil, List.append_cons content] at hinner
    exact prefix_of_prefix_concat (by decide) (prefix_of_prefix_concat (by decide) hinner)
  | true =>
    rw [enclosed, if_pos rfl, List.append_cons content] at hinner
    exact prefix_of_prefix_concat (by decide)
      (prefix_of_prefix_concat (by decide) (prefix_of_prefix_concat (by decide) hinner))

theorem scanComment_dashed (marker : List Char) {content : List Char} (h : IsOpaque content) (tilde : Bool)
    (rest : List Char) :
    scanComment marker true (content ++ (dashedEnd tilde ++ rest)) =
      ⟨[.token .comment (marker ++ (content ++ dashedEnd tilde))], .text tilde, rest⟩ := by
  have hsplit : splitComment true [] (enclosed content tilde ++ '}' :: '}' :: rest) = some (enclosed content tilde ++
      ['}', '}'], decide ((enclosed content tilde).getLast? = some '~'), rest) :=
    splitComment_eq_some (endsComment_enclosed content tilde) (fun _ => h.first) rest
  have hbody : enclosed content tilde ++ '}' :: '}' :: rest = content ++ (dashedEnd tilde ++ rest) := by
    rw [← List.append_assoc, ← enclosed_append]
    simp
  have htilde : decide ((enclosed content tilde).getLast? = some '~') = tilde := by
    cases tilde <;> simp [enclosed]
  rw [hbody, enclosed_append, htilde] at hsplit
  rw [scanComment, hsplit]

theorem scanComment_unended (marker : List Char) {body : List Char} (h : Unended body) :
    scanComment marker true body =
      ⟨[.token (.invalid .unterminatedComment) (marker ++ body)], .text false, []⟩ := by
  have hsplit : splitComment true [] body = none := splitComment_eq_none h
  rw [scanComment, hsplit]

/-- The first braces behind the text open a marker, whose meaning no backslash takes. -/
structure PrecedesMarker (text : List Char) : Prop where
  unmarked : ¬ ['{', '{'] <:+: text
  not_brace : text.getLast? ≠ some '{'
  not_escape : Ending.of text ≠ .escape

theorem scanText_dashed {before : List Char} (h : PrecedesMarker before) (trim tilde : Bool) (body : List Char) :
    scanText trim (before ++ (dashes tilde ++ body)) =
      ⟨piecesBefore trim tilde before ++ (scanComment (dashes tilde) true body).lexemes,
        (scanComment (dashes tilde) true body).mode, (scanComment (dashes tilde) true body).rest⟩ := by
  have hsplit : splitAtMark ['{', '{'] (before ++ (braces tilde ++ '!' :: '-' :: '-' :: body)) =
      (before, braces tilde ++ '!' :: '-' :: '-' :: body) := by
    cases tilde with
    | false => exact splitAtMark_double h.unmarked h.not_brace _
    | true => exact splitAtMark_double h.unmarked h.not_brace _
  have hmarker : dashes tilde ++ body = braces tilde ++ '!' :: '-' :: '-' :: body := by simp [dashes]
  rw [hmarker, scanText_marker trim hsplit h.not_escape (by simp), scanMarker_dashed]
  rfl

end Lexeme

/-! ## Drawing comments -/

namespace Cursor

open Lexeme

/-- Drawing hands out the tokens and leads from the first cursor to the second. -/
inductive Draws : Cursor → List Token → Cursor → Prop
  | nil {c : Cursor} : Draws c [] c
  | cons {c d e : Cursor} {t : Token} {ts : List Token} : c.next = (some t, d) → Draws d ts e → Draws c (t :: ts) e

theorem draws_pending (pending : List Token) (mode : Mode) (offset : Nat) (rest : List Char) :
    Draws ⟨pending, mode, offset, rest⟩ pending ⟨[], mode, offset, rest⟩ := by
  induction pending with
  | nil => exact .nil
  | cons t pending ih => exact .cons (by rw [next]) ih

theorem Draws.of_next {c d e : Cursor} {ts : List Token} (h : Draws d ts e) (ht : ts ≠ []) (hnext : c.next = d.next) :
    Draws c ts e := by
  cases h with
  | nil => exact absurd rfl ht
  | cons hd hts => exact .cons (hnext.trans hd) hts

theorem draws_advance {c : Cursor} (hp : c.pending = []) (hr : c.rest ≠ []) (ha : c.advance.pending ≠ []) :
    Draws c c.advance.pending { c.advance with pending := [] } := by
  refine (draws_pending c.advance.pending c.advance.mode c.advance.offset c.advance.rest).of_next ha ?_
  rw [next]
  simp [hp, hr]

/-- Outside of tags, the text behind `before` is drawn as one token of the kind, which
leaves the cursor behind it. -/
def DrawsBehind (before : List Char) (trim tilde : Bool) (kind : Token.Kind) (text rest : List Char) (mode : Mode) :
    Prop :=
  ∀ offset, Draws ⟨[], .text trim, offset, before ++ (text ++ rest)⟩
    (Lexeme.tokens offset (piecesBefore trim tilde before) ++
      [⟨kind, text, ⟨offset + byteLength before, offset + byteLength (before ++ text)⟩⟩])
    ⟨[], mode, offset + byteLength (before ++ text), rest⟩

theorem drawsBehind_of_scanText {before text rest : List Char} {trim tilde : Bool} {kind : Token.Kind} {mode : Mode}
    (hne : text ≠ []) (h : scanText trim (before ++ (text ++ rest)) =
      ⟨piecesBefore trim tilde before ++ [.token kind text], mode, rest⟩) :
    DrawsBehind before trim tilde kind text rest mode := by
  intro offset
  have hadvance : (⟨[], .text trim, offset, before ++ (text ++ rest)⟩ : Cursor).advance =
      ⟨Lexeme.tokens offset (piecesBefore trim tilde before) ++
        [⟨kind, text, ⟨offset + byteLength before, offset + byteLength (before ++ text)⟩⟩], mode,
        offset + byteLength (before ++ text), rest⟩ := by
    simp only [advance, scanStep, h, tokens_split, texts_append, texts_piecesBefore, byteLength_append, Lexeme.tokens,
      texts_cons, texts_nil, Lexeme.text, List.append_nil, Nat.add_assoc]
  have hdraws := draws_advance (c := ⟨[], .text trim, offset, before ++ (text ++ rest)⟩) rfl (by simp [hne])
    (by simp [hadvance])
  rwa [hadvance] at hdraws

/-- Outside of tags, a comment with dashes is drawn as one token, whatever it holds that
does not end it, and the blanks behind it are dropped exactly if a tilde ends it. What
nothing ends is one token without meaning, up to the end of the source. -/
theorem draws_dashed {before : List Char} (h : PrecedesMarker before) (trim tilde : Bool) :
    (∀ content, IsOpaque content → ∀ closes rest,
      DrawsBehind before trim tilde .comment (dashes tilde ++ (content ++ dashedEnd closes)) rest (.text closes)) ∧
    ∀ body, Unended body →
      DrawsBehind before trim tilde (.invalid .unterminatedComment) (dashes tilde ++ body) [] (.text false) := by
  have hne (body : List Char) : dashes tilde ++ body ≠ [] := by simp [dashes]
  constructor
  · intro content hcontent closes rest
    refine drawsBehind_of_scanText (hne _) ?_
    rw [List.append_assoc, List.append_assoc, scanText_dashed h, scanComment_dashed _ hcontent]
  · intro body hbody
    refine drawsBehind_of_scanText (hne _) ?_
    rw [List.append_nil, scanText_dashed h, scanComment_unended _ hbody]

/-- Tags, closing markers and dashes that do not end a comment. -/
theorem draws_dashed_markers :
    Draws (start ("a " ++ tagText ("~!-- -\x7d\x7d" ++ tagText "x" ++ "\x7d----~") ++ " b").toList)
      [⟨.raw, ['a'], ⟨0, 1⟩⟩,
        ⟨.comment, (tagText ("~!-- -\x7d\x7d" ++ tagText "x" ++ "\x7d----~")).toList, ⟨2, 25⟩⟩]
      ⟨[], .text true, 25, [' ', 'b']⟩ ∧
    Draws (start (tagText "!-- ~" ++ " --").toList)
      [⟨.invalid .unterminatedComment, (tagText "!-- ~" ++ " --").toList, ⟨0, 12⟩⟩] ⟨[], .text false, 12, []⟩ := by
  constructor
  · have hbefore : PrecedesMarker ['a', ' '] := ⟨by decide, by decide, by decide⟩
    have hopaque : IsOpaque (" -\x7d\x7d" ++ tagText "x" ++ "\x7d--").toList := ⟨by decide, by decide⟩
    exact (draws_dashed hbefore false true).1 _ hopaque true [' ', 'b'] 0
  · have hbefore : PrecedesMarker [] := ⟨by decide, by decide, by decide⟩
    have hunended : Unended " ~\x7d\x7d --".toList := by decide
    exact (draws_dashed hbefore false false).2 _ hunended 0

end Cursor

end Curly
