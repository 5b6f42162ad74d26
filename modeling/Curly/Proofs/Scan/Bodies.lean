import Curly.Proofs.Grammar.Tag
import Curly.Proofs.Scan.Joints

/-!
# Sources in front of a tag

A source that can be read by itself has no open tag at its end: what stands behind
its last tag is plain text. So if it has no backslash and does not end with a brace,
it can be put in front of the opening marker of any tag (`Token.ofSource_body`).
-/

namespace Curly

namespace Lexeme

/-! ## Behind a tag or a comment -/

/-- Behind a tag or a comment any text may be put in place of the one that is there. -/
theorem scan_sealed {mode : Mode} {source : List Char} {a b : List Lexeme} {kind : Token.Kind} {text : List Char}
    (h : scan mode source = a ++ .token kind text :: b) (hk : kind = .endExpression ∨ kind = .endRaw ∨ kind = .comment)
    (hclean : Clean (scan mode source)) (rest : List Char) :
    scan mode (texts a ++ (text ++ rest)) = a ++ .token kind text :: scan (.text (kind.trimsAfter text)) rest := by
  obtain ⟨before, inner, m, s, rfl, hr, hs, hlex, -⟩ := exists_reaches h (by rintro rfl; simp at hk)
  rw [hr.scan_eq, scan_of_ne_nil m hs] at hclean
  obtain ⟨hbefore, hclean⟩ := Clean.append.mp hclean
  have hallows : (scanStep m s).Allows rest := .inr ⟨inner, kind, text, hlex, hk⟩
  have hscan := hr.scan_leaving hs hbefore (scanStep_local hs (Clean.append.mp hclean).1 hallows)
  rw [mode_of_sealed hs hlex hk, hlex] at hscan
  simpa [Lexeme.text] using hscan

/-! ## Plain text -/

section
variable {m c : Char} {a b : List Char}

/-- No double mark comes about behind a text that does not end with its character. -/
theorem prefix_of_prefix_append (hlast : (c :: a).getLast? ≠ some m) (h : [m, m] <+: c :: (a ++ b)) : [m, m] <+: c :: a := by
  cases a with
  | nil =>
    obtain ⟨rfl, -⟩ := List.cons_prefix_cons.mp h
    exact absurd rfl hlast
  | cons d a => simpa [List.cons_prefix_cons] using h

theorem getLast?_ne_of_cons (hlast : (c :: a).getLast? ≠ some m) : a.getLast? ≠ some m := by
  cases a with
  | nil => simp
  | cons d a => simpa using hlast

end

/-- A text is whole exactly if the mark does not occur in it. -/
theorem splitAtMark_eq_iff {mark text : List Char} (hmark : mark ≠ []) :
    splitAtMark mark text = (text, []) ↔ ¬ mark <:+: text := by
  induction text with
  | nil => simp [splitAtMark, hmark]
  | cons c text ih =>
    rw [List.infix_cons_iff, not_or, ← ih, splitAtMark, ← List.isPrefixOf_iff_prefix]
    split
    · simp_all
    · simp_all [Prod.ext_iff]

theorem splitAtMark_double {m : Char} {text : List Char} (h : ¬ [m, m] <:+: text) (hlast : text.getLast? ≠ some m)
    (rest : List Char) : splitAtMark [m, m] (text ++ m :: m :: rest) = (text, m :: m :: rest) := by
  induction text with
  | nil => simp [splitAtMark, List.isPrefixOf]
  | cons c text ih =>
    rw [List.infix_cons_iff, not_or] at h
    have hmark : ¬ [m, m].isPrefixOf (c :: (text ++ m :: m :: rest)) = true := by
      rw [List.isPrefixOf_iff_prefix]
      exact mt (prefix_of_prefix_append hlast) h.1
    rw [List.cons_append, splitAtMark, if_neg hmark, ih h.2 (getLast?_ne_of_cons hlast)]

theorem ending_of_getLast? {text : List Char} (h : text.getLast? ≠ some '\\') :
    Ending.of text = .plain ∧ Ending.of (text ++ ['\\']) = .escape := by
  have hhead : text.reverse.head? ≠ some '\\' := by rwa [List.head?_reverse]
  unfold Ending.of
  rw [List.reverse_append]
  cases hr : text.reverse with
  | nil => exact ⟨rfl, rfl⟩
  | cons c cs =>
    rw [hr] at hhead
    have hc : c ≠ '\\' := by simpa using hhead
    constructor
    · split <;> simp_all
    · simp only [List.reverse_cons, List.reverse_nil, List.nil_append, List.singleton_append]
      split <;> simp_all

theorem ending_plain {before : List Char} (h : '\\' ∉ before) : Ending.of before = .plain :=
  (ending_of_getLast? fun hlast => h (List.mem_of_getLast? hlast)).1

theorem scan_last {trim : Bool} {text : List Char} (h : splitAtMark ['{', '{'] text = (text, []))
    (hplain : '\\' ∉ text) : scan (.text trim) text = piecesBefore trim false text := by
  cases text with
  | nil => cases trim <;> simp [scan_nil, piecesBefore, Ending.of, rawPieces, keep, Text.splitBlanksLeft, Lexeme.text]
  | cons c text =>
    rw [scan_of_ne_nil _ (List.cons_ne_nil c text), scanStep, scanText_last trim h, scan_nil, List.append_nil,
      piecesBefore, ending_plain hplain]

/-- A text without tags, backslashes and a brace at its end does not change what tags follow it. -/
theorem scan_plain {trim : Bool} {text : List Char} (hraw : ∀ kind t, .token kind t ∈ scan (.text trim) text → kind = .raw)
    (hplain : '\\' ∉ text) (hend : text.getLast? ≠ some '{') {rest : List Char} (hrest : rest.head? ≠ some '~') :
    scan (.text trim) (text ++ (braces false ++ rest)) = scan (.text trim) text ++ scan (.text false) (braces false ++ rest) := by
  have hlast : splitAtMark ['{', '{'] text = (text, []) := by
    have whole := splitAtMark_append ['{', '{'] text
    cases textCase text with
    | last h => exact h
    | @escaped before after h he =>
      have hbefore : '\\' ∉ before := by
        rw [h] at whole
        rw [← whole] at hplain
        exact fun hm => hplain (List.mem_append_left _ hm)
      rw [ending_plain hbefore] at he
      cases he
    | @marker tilde before after h he ha =>
      obtain ⟨kind, t, ho⟩ := scanMarker_opens ha
      have hne : text ≠ [] := by
        rintro rfl
        rw [h] at whole
        cases tilde <;> simp [braces] at whole
      have hmem : .token kind t ∈ scan (.text trim) text := by
        rw [scan_of_ne_nil _ hne, scanStep, scanText_marker trim h he ha, ho.lexemes]
        simp
      exact absurd (hraw kind t hmem) ho.ne_raw
  have hending : Ending.of text ≠ .escape := by simp [ending_plain hplain]
  have hopen : splitAtMark ['{', '{'] (text ++ (braces false ++ rest)) = (text, braces false ++ rest) :=
    splitAtMark_double ((splitAtMark_eq_iff (by simp)).mp hlast) hend rest
  rw [scan_marker hopen hending hrest, scan_last hlast hplain]

end Lexeme

/-! ## Bodies -/

/-- Behind the last tag or comment there is nothing but text. -/
theorem SpellsTags.ending {tokens : List Token} {tags : List Tag} (h : SpellsTags tokens tags) :
    (∀ t ∈ tokens, t.kind = .raw) ∨ ∃ x t y, tokens = x ++ t :: y ∧
      (t.kind = .endExpression ∨ t.kind = .endRaw ∨ t.kind = .comment) ∧ ∀ u ∈ y, u.kind = .raw := by
  induction h with
  | nil =>
    left
    intro t ht
    cases ht
  | @cons used rest part tags hp _ ih =>
    rcases ih with hrest | ⟨x, t, y, rfl, ht, hy⟩
    · cases hp with
      | raw hk => exact .inl (List.forall_mem_cons.mpr ⟨hk, hrest⟩)
      | @comment t hk => exact .inr ⟨[], t, rest, rfl, .inr (.inr hk), hrest⟩
      | @rawOutput marker closing used c hk hclosing _ =>
        refine .inr ⟨marker :: used, closing, rest, by simp, ?_, hrest⟩
        rw [hclosing, rawCloser]
        split <;> simp
      | @tag marker closing used tag hk hclosing _ =>
        exact .inr ⟨marker :: used, closing, rest, by simp, .inl hclosing, hrest⟩
    · exact .inr ⟨used ++ x, t, y, by simp, ht, hy⟩

open Lexeme in
theorem scan_body {body : List Char} {tags : List Tag} (htags : SpellsTags (Token.ofSource body) tags)
    (hclean : Clean (scan (.text false) body)) (hplain : '\\' ∉ body) (hend : body.getLast? ≠ some '{')
    {rest : List Char} (hrest : rest.head? ≠ some '~') :
    scan (.text false) (body ++ (braces false ++ rest)) =
      scan (.text false) body ++ scan (.text false) (braces false ++ rest) := by
  have hraw {start : Nat} {ls : List Lexeme} (h : ∀ t ∈ tokens start ls, t.kind = .raw) :
      ∀ kind t, .token kind t ∈ ls → kind = .raw := by
    intro kind t hm
    obtain ⟨u, hu, rfl, -⟩ := exists_mem_tokens start hm
    exact h u hu
  rcases htags.ending with hall | ⟨x, ⟨kind, text, r⟩, y, htokens, hk, hy⟩
  · exact scan_plain (hraw hall) hplain hend hrest
  · obtain ⟨a, b, hls, -, -, rfl⟩ := exists_of_tokens_eq htokens
    have hb := scan_resume hls hk
    have hbody : body = texts a ++ (text ++ texts b) := by
      have htexts := texts_scan (.text false) body
      rw [hls, texts_append, texts_cons] at htexts
      exact htexts.symm
    have hplain' : '\\' ∉ texts b := by
      intro hm
      apply hplain
      rw [hbody]
      exact List.mem_append_right _ (List.mem_append_right _ hm)
    have hend' : (texts b).getLast? ≠ some '{' := by
      cases hnil : texts b with
      | nil => simp
      | cons c cs =>
        rw [hbody, hnil] at hend
        simpa [List.getLast?_append] using hend
    rw [hb] at hy
    have hscan := scan_plain (hraw hy) hplain' hend' hrest
    rw [hbody, List.append_assoc, List.append_assoc, scan_sealed hls hk hclean, scan_sealed hls hk hclean, hscan]
    simp

/-- The tokens of a source in front of a tag are its own. -/
theorem Token.ofSource_body {body : List Char} {tags : List Tag} (htags : SpellsTags (Token.ofSource body) tags)
    (hclean : Lexeme.Clean (Lexeme.scan (.text false) body)) (hplain : '\\' ∉ body) (hend : body.getLast? ≠ some '{')
    {rest : List Char} (hrest : rest.head? ≠ some '~') :
    Token.ofSource (body ++ (Lexeme.braces false ++ rest)) = Token.ofSource body ++
      (Token.ofSource (Lexeme.braces false ++ rest)).map (Token.shift (byteLength body)) := by
  unfold Token.ofSource
  rw [scan_body htags hclean hplain hend hrest, Lexeme.tokens_append, Lexeme.texts_scan, ← Lexeme.tokens_shift]

end Curly
