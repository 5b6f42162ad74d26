import Curly.Proofs.Grammar.Tag
import Curly.Proofs.Scan.Comments

/-!
# Passages

The parts of a source that are no tags: plain text, tags behind a backslash, and
comments. Where they meet, no marker comes about. So they are scanned one by one, but
for plain texts, which are scanned together with what stands before the next marker
(`Lexeme.scan_passages`).
-/

namespace Curly

/-! ## Passages -/

structure IsPlainText (text : List Char) : Prop where
  unmarked : ¬ ['{', '{'] <:+: text
  not_brace : text.getLast? ≠ some '{'
  not_backslash : text.getLast? ≠ some '\\'

structure IsEscapedTag (inner : List Char) : Prop where
  unclosed : ¬ ['}', '}'] <:+: inner
  not_triple : inner.head? ≠ some '{'
  not_brace : inner.getLast? ≠ some '}'

structure IsComment (inner : List Char) : Prop where
  unclosed : ¬ ['}', '}'] <:+: inner
  undashed : ¬ ['-', '-'] <+: inner
  not_tilde : inner.getLast? ≠ some '~'
  not_brace : inner.getLast? ≠ some '}'

inductive Passage where
  | plain (text : String) (isPlain : IsPlainText text.toList)
  /-- A tag behind a backslash. -/
  | escaped (inner : String) (isEscaped : IsEscapedTag inner.toList)
  | comment (inner : String) (isComment : IsComment inner.toList)

namespace Passage

/-- The passage as it stands in a source. -/
def source : Passage → String
  | .plain text _ => text
  | .escaped inner _ => "\\" ++ tagText inner
  | .comment inner _ => tagText ("!" ++ inner)

/-- What the passage stands for. -/
def shown : Passage → String
  | .plain text _ => text
  | .escaped inner _ => tagText inner
  | .comment _ _ => ""

end Passage

/-! ## Double marks -/

section
variable {m : Char} {a b : List Char}

open Lexeme

theorem not_infix_append (ha : ¬ [m, m] <:+: a) (hlast : a.getLast? ≠ some m) (hb : ¬ [m, m] <:+: b) :
    ¬ [m, m] <:+: a ++ b := by
  induction a with
  | nil => exact hb
  | cons c a ih =>
    rw [List.infix_cons_iff, not_or] at ha
    rw [List.cons_append, List.infix_cons_iff, not_or]
    exact ⟨mt (prefix_of_prefix_append hlast) ha.1, ih ha.2 (getLast?_ne_of_cons hlast)⟩

theorem getLast?_append_ne (ha : a.getLast? ≠ some m) (hb : b.getLast? ≠ some m) : (a ++ b).getLast? ≠ some m := by
  rw [List.getLast?_append]
  cases h : b.getLast? with
  | none => exact ha
  | some d => simpa [h] using hb

end

theorem isPlainText_nil : IsPlainText [] :=
  ⟨by simp, by simp, by simp⟩

theorem IsPlainText.append {a b : List Char} (ha : IsPlainText a) (hb : IsPlainText b) : IsPlainText (a ++ b) :=
  ⟨not_infix_append ha.unmarked ha.not_brace hb.unmarked, getLast?_append_ne ha.not_brace hb.not_brace,
    getLast?_append_ne ha.not_backslash hb.not_backslash⟩

namespace Lexeme

theorem splitComment_double {inner : List Char} (h : ¬ ['}', '}'] <:+: inner) (hlast : inner.getLast? ≠ some '}')
    (rest : List Char) :
    splitComment false [] (inner ++ '}' :: '}' :: rest) =
      some (inner ++ ['}', '}'], decide (inner.getLast? = some '~'), rest) := by
  refine splitComment_eq_some (fun hdashed => absurd hdashed Bool.false_ne_true) (fun before hbefore => ?_) rest
  have hinfix : ['}', '}'] <:+: inner ++ ['}'] := (List.suffix_append before _).isInfix.trans hbefore.isInfix
  exact absurd hinfix (not_infix_append h hlast (by decide))

/-! ## Steps -/

theorem rawPieces_whole (text : List Char) : rawPieces false false text = keep (.token .raw text) := by
  simp [rawPieces, keep, Lexeme.text]

theorem scan_unmarked {source : List Char} (h : ¬ ['{', '{'] <:+: source) :
    scan (.text false) source = keep (.token .raw source) := by
  cases source with
  | nil => rw [scan_nil]; rfl
  | cons c source =>
    rw [scan_of_ne_nil _ (List.cons_ne_nil c source), scanStep, scanText_last false ((splitAtMark_eq_iff (by simp)).mpr h), scan_nil,
      List.append_nil, rawPieces_whole]

theorem scanEscaped_tag {inner : List Char} (h : IsEscapedTag inner) (rest : List Char) :
    scanEscaped (braces false ++ (inner ++ '}' :: '}' :: rest)) =
      ⟨[.token .raw (braces false ++ (inner ++ ['}', '}']))], .text false, rest⟩ := by
  have hhead : (inner ++ '}' :: '}' :: rest).head? ≠ some '{' := by
    cases inner with
    | nil => simp
    | cons c inner => exact h.not_triple
  have hends : escapedEnd (inner ++ '}' :: '}' :: rest) = ['}', '}'] := if_neg hhead
  rw [scanEscaped_braces, hends, splitAtMark_double h.unclosed h.not_brace]
  rfl

theorem scan_escapedTag {before inner : List Char} (hbefore : IsPlainText before) (hinner : IsEscapedTag inner)
    (rest : List Char) :
    scan (.text false) (before ++ '\\' :: (braces false ++ (inner ++ '}' :: '}' :: rest))) =
      keep (.token .raw before) ++ .gap .backslash ['\\'] ::
        .token .raw (braces false ++ (inner ++ ['}', '}'])) :: scan (.text false) rest := by
  have hunmarked : ¬ ['{', '{'] <:+: before ++ ['\\'] := not_infix_append hbefore.unmarked hbefore.not_brace (by decide)
  have hopen : splitAtMark ['{', '{'] ((before ++ ['\\']) ++ (braces false ++ (inner ++ '}' :: '}' :: rest))) =
      (before ++ ['\\'], braces false ++ (inner ++ '}' :: '}' :: rest)) :=
    splitAtMark_double hunmarked (by simp) _
  have hending := (ending_of_getLast? hbefore.not_backslash).2
  have hpieces : piecesBefore false false (before ++ ['\\']) = keep (.token .raw before) ++ [.gap .backslash ['\\']] := by
    rw [piecesBefore, hending]
    dsimp only
    rw [List.dropLast_concat, rawPieces_whole]
  rw [List.append_cons, scan_of_ne_nil _ (by simp), scanStep, scanText_escaped false hopen hending,
    scanEscaped_tag hinner, hpieces]
  simp

theorem scan_commentTag {before inner : List Char} (hbefore : IsPlainText before) (hinner : IsComment inner)
    (rest : List Char) :
    scan (.text false) (before ++ (braces false ++ '!' :: (inner ++ '}' :: '}' :: rest))) =
      keep (.token .raw before) ++
        .token .comment (braces false ++ '!' :: (inner ++ ['}', '}'])) :: scan (.text false) rest := by
  have hopen : splitAtMark ['{', '{'] (before ++ (braces false ++ '!' :: (inner ++ '}' :: '}' :: rest))) =
      (before, braces false ++ '!' :: (inner ++ '}' :: '}' :: rest)) :=
    splitAtMark_double hbefore.unmarked hbefore.not_brace _
  have hending := (ending_of_getLast? hbefore.not_backslash).1
  have hundashed : ¬ ['-', '-'] <+: inner ++ '}' :: '}' :: rest := by
    rcases inner with _ | ⟨c, _ | ⟨d, inner⟩⟩
    · simp [List.cons_prefix_cons]
    · simp [List.cons_prefix_cons]
    · simpa [List.cons_prefix_cons] using hinner.undashed
  have hclose := splitComment_double hinner.unclosed hinner.not_brace rest
  rw [scan_of_ne_nil _ (by simp [braces]), scanStep, scanText_marker false hopen (by simp [hending]) (by simp),
    scanMarker_comment _ hundashed, scanComment, hclose, piecesBefore, hending, rawPieces_whole]
  simp [hinner.not_tilde]

/-! ## Sources without tags -/

/-- Lexemes among which there is no tag, and the text that they stand for. -/
inductive Verbatim : List Lexeme → List Char → Prop
  | nil : Verbatim [] []
  | raw {text shown : List Char} {ls : List Lexeme} : Verbatim ls shown → Verbatim (.token .raw text :: ls) (text ++ shown)
  | comment {text shown : List Char} {ls : List Lexeme} : Verbatim ls shown → Verbatim (.token .comment text :: ls) shown
  | gap {gap : Gap} {text shown : List Char} {ls : List Lexeme} : Verbatim ls shown → Verbatim (.gap gap text :: ls) shown

theorem Verbatim.keep_append {text shown : List Char} {ls : List Lexeme} (h : Verbatim ls shown) :
    Verbatim (keep (.token .raw text) ++ ls) (text ++ shown) := by
  cases text with
  | nil => exact h
  | cons c text => exact .raw h

theorem Verbatim.keep (text : List Char) : Verbatim (keep (.token .raw text)) text := by
  simpa using @Verbatim.keep_append text [] [] .nil

/-- Plain text that is left from the passages before stands in front of the source. -/
theorem scan_passages {before : List Char} (hbefore : IsPlainText before) (passages : List Passage) :
    Verbatim (scan (.text false) (before ++ passages.flatMap (·.source.toList)))
      (before ++ passages.flatMap (·.shown.toList)) := by
  induction passages generalizing before with
  | nil =>
    simp only [List.flatMap_nil, List.append_nil]
    rw [scan_unmarked hbefore.unmarked]
    exact .keep before
  | cons passage passages ih =>
    rw [List.flatMap_cons, List.flatMap_cons]
    cases passage with
    | plain text isPlain =>
      rw [Passage.source, Passage.shown, ← List.append_assoc, ← List.append_assoc]
      exact ih (hbefore.append isPlain)
    | escaped inner isEscaped =>
      have hsource : before ++ ((Passage.escaped inner isEscaped).source.toList ++
          passages.flatMap (·.source.toList)) = before ++ '\\' :: (braces false ++
            (inner.toList ++ '}' :: '}' :: passages.flatMap (·.source.toList))) := by
        simp [Passage.source, toList_tagText]
      have hshown : (Passage.escaped inner isEscaped).shown.toList = braces false ++ (inner.toList ++ ['}', '}']) :=
        toList_tagText inner
      rw [hsource, scan_escapedTag hbefore isEscaped, hshown]
      exact .keep_append (.gap (.raw (ih isPlainText_nil)))
    | comment inner isComment =>
      have hsource : before ++ ((Passage.comment inner isComment).source.toList ++
          passages.flatMap (·.source.toList)) = before ++ (braces false ++ '!' ::
            (inner.toList ++ '}' :: '}' :: passages.flatMap (·.source.toList))) := by
        simp [Passage.source, toList_tagText]
      rw [hsource, scan_commentTag hbefore isComment]
      exact .keep_append (.comment (ih isPlainText_nil))

end Lexeme

end Curly
