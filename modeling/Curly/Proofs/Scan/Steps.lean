import Curly.Template.Lexeme

/-!
# Steps of a scan

What a step in plain text and a step inside a tag can be.
-/

namespace Curly.Lexeme

theorem scan_nil (mode : Mode) : scan mode [] = [] := by
  rw [scan, if_pos rfl]

theorem scan_of_ne_nil (mode : Mode) {source : List Char} (h : source ≠ []) :
    scan mode source =
      (scanStep mode source).lexemes ++ scan (scanStep mode source).mode (scanStep mode source).rest := by
  rw [scan, if_neg h]

theorem prefix_splitAtMark (mark cs : List Char) :
    (splitAtMark mark cs).2 = [] ∨ mark <+: (splitAtMark mark cs).2 := by
  induction cs with
  | nil => exact .inl rfl
  | cons c cs ih =>
    unfold splitAtMark
    split
    · rename_i h
      exact .inr (List.isPrefixOf_iff_prefix.mp h)
    · exact ih

/-! ## Plain text -/

/-- The braces that open a tag, with the tilde behind them. -/
def braces (tilde : Bool) : List Char :=
  if tilde then ['{', '{', '~'] else ['{', '{']

inductive TextCase (source : List Char) : Prop
  | last : splitAtMark ['{', '{'] source = (source, []) → TextCase source
  | escaped {before after : List Char} :
    splitAtMark ['{', '{'] source = (before, braces false ++ after) → Ending.of before = .escape →
    TextCase source
  | marker {tilde : Bool} {before after : List Char} :
    splitAtMark ['{', '{'] source = (before, braces tilde ++ after) → Ending.of before ≠ .escape →
    (tilde = false → after.head? ≠ some '~') → TextCase source

theorem textCase (source : List Char) : TextCase source := by
  have whole := splitAtMark_append ['{', '{'] source
  have hfound := prefix_splitAtMark ['{', '{'] source
  rcases h : splitAtMark ['{', '{'] source with ⟨before, found⟩
  rw [h] at whole hfound
  rcases hfound with rfl | ⟨after, rfl⟩
  · obtain rfl : before = source := by simpa using whole
    exact .last h
  · by_cases he : Ending.of before = .escape
    · exact .escaped h he
    by_cases ha : after.head? = some '~'
    · obtain ⟨rest, rfl⟩ := List.head?_eq_some_iff.mp ha
      exact @TextCase.marker _ true before rest h he (by simp)
    · exact @TextCase.marker _ false before after h he fun _ => ha

theorem scanText_last (trim : Bool) {source : List Char} (h : splitAtMark ['{', '{'] source = (source, [])) :
    scanText trim source = ⟨rawPieces trim false source, .text false, []⟩ := by
  simp [scanText, h]

theorem scanText_escaped (trim : Bool) {source before after : List Char}
    (h : splitAtMark ['{', '{'] source = (before, braces false ++ after)) (he : Ending.of before = .escape) :
    scanText trim source =
      ⟨piecesBefore trim false before ++ (scanEscaped (braces false ++ after)).lexemes, .text false,
        (scanEscaped (braces false ++ after)).rest⟩ := by
  simp [scanText, h, braces, he, scanEscaped]

theorem scanText_marker (trim : Bool) {tilde : Bool} {source before after : List Char}
    (h : splitAtMark ['{', '{'] source = (before, braces tilde ++ after)) (he : Ending.of before ≠ .escape)
    (ha : tilde = false → after.head? ≠ some '~') :
    scanText trim source =
      ⟨piecesBefore trim tilde before ++ (scanMarker (braces tilde) after).lexemes,
        (scanMarker (braces tilde) after).mode, (scanMarker (braces tilde) after).rest⟩ := by
  cases tilde with
  | true => simp [scanText, h, braces, he]
  | false =>
    simp only [scanText, h, braces, Bool.false_eq_true, if_false, List.cons_append, List.nil_append, he]
    split
    · simp at ha
    · rfl

def escapedEnd (after : List Char) : List Char :=
  if after.head? = some '{' then ['}', '}', '}'] else ['}', '}']

theorem escapedEnd_spec (after : List Char) :
    ∃ ends, escapedEnd after = '}' :: ends ∧ (escapedEnd after).getLast? = some '}' := by
  unfold escapedEnd
  split
  · exact ⟨_, rfl, rfl⟩
  · exact ⟨_, rfl, rfl⟩

theorem scanEscaped_braces (after : List Char) :
    scanEscaped (braces false ++ after) =
      ⟨[.token .raw (braces false ++ ((splitAtMark (escapedEnd after) after).1 ++
          (splitAtMark (escapedEnd after) after).2.take (escapedEnd after).length))], .text false,
        (splitAtMark (escapedEnd after) after).2.drop (escapedEnd after).length⟩ := by
  have hmark : (if ['{', '{', '{'].isPrefixOf (braces false ++ after) then ['}', '}', '}'] else ['}', '}']) =
      escapedEnd after := by
    cases after with
    | nil => rfl
    | cons c after =>
      by_cases hc : c = '{'
      · subst hc
        rfl
      · simp [braces, escapedEnd, List.isPrefixOf, hc, Ne.symm hc]
  obtain ⟨ends, he, -⟩ := escapedEnd_spec after
  unfold scanEscaped
  dsimp only
  rw [hmark, he]
  simp [braces, splitAtMark, List.isPrefixOf]

inductive MarkerCase : List Char → Prop
  | dashed (body : List Char) : MarkerCase ('!' :: '-' :: '-' :: body)
  | comment {body : List Char} : ¬ ['-', '-'] <+: body → MarkerCase ('!' :: body)
  | brace (rest : List Char) : MarkerCase ('{' :: rest)
  | ampersand (rest : List Char) : MarkerCase ('&' :: rest)
  | plain {rest : List Char} : (∀ c ∈ rest.head?, c ≠ '!' ∧ c ≠ '{' ∧ c ≠ '&') → MarkerCase rest

theorem markerCase (after : List Char) : MarkerCase after := by
  match after with
  | [] => exact .plain (by simp)
  | c :: rest =>
    by_cases hc : c = '!'
    · subst hc
      by_cases hd : ['-', '-'] <+: rest
      · obtain ⟨body, rfl⟩ := hd
        exact .dashed body
      · exact .comment hd
    by_cases hb : c = '{'
    · exact hb ▸ .brace rest
    by_cases ha : c = '&'
    · exact ha ▸ .ampersand rest
    · exact .plain (by simp [hc, hb, ha])

theorem scanMarker_dashed (opening body : List Char) :
    scanMarker opening ('!' :: '-' :: '-' :: body) = scanComment (opening ++ ['!', '-', '-']) true body := rfl

theorem scanMarker_comment (opening : List Char) {body : List Char} (h : ¬ ['-', '-'] <+: body) :
    scanMarker opening ('!' :: body) = scanComment (opening ++ ['!']) false body := by
  unfold scanMarker
  split
  · rename_i heq
    obtain ⟨-, rfl⟩ := List.cons.inj heq
    exact absurd ⟨_, rfl⟩ h
  all_goals simp_all

theorem scanMarker_plain (opening : List Char) {rest : List Char}
    (h : ∀ c ∈ rest.head?, c ≠ '!' ∧ c ≠ '{' ∧ c ≠ '&') :
    scanMarker opening rest = ⟨[.token .beginExpression opening], .tag .double, rest⟩ := by
  unfold scanMarker
  split <;> simp_all

theorem kind_of_mem_scanComment {marker body : List Char} {dashed : Bool} {kind : Token.Kind} {text : List Char}
    (h : .token kind text ∈ (scanComment marker dashed body).lexemes) :
    kind = .comment ∨ kind = .invalid .unterminatedComment := by
  unfold scanComment at h
  split at h
  · exact .inl (Lexeme.token.inj (List.mem_singleton.mp h)).1
  · exact .inr (Lexeme.token.inj (List.mem_singleton.mp h)).1

/-! ## Inside a tag -/

inductive TagCase (expected : Closer) : List Char → Prop
  | closing {closer : Closer} {trim : Bool} {source marker rest : List Char} :
    closing? expected source = some (closer, trim, marker, rest) → TagCase expected source
  | unclosed {rest : List Char} : closing? expected (braces false ++ rest) = none →
    TagCase expected (braces false ++ rest)
  | word {c : Char} {rest : List Char} : closing? expected (c :: rest) = none →
    ¬ ['{', '{'] <+: c :: rest → TagCase expected (c :: rest)

theorem tagCase (expected : Closer) {source : List Char} (h : source ≠ []) : TagCase expected source := by
  cases hc : closing? expected source with
  | some found => exact .closing hc
  | none =>
    by_cases hb : ['{', '{'] <+: source
    · obtain ⟨rest, rfl⟩ := hb
      exact .unclosed hc
    · cases source with
      | nil => exact absurd rfl h
      | cons c rest => exact .word hc hb

theorem scanTag_closing {expected closer : Closer} {trim : Bool} {source marker rest : List Char}
    (h : closing? expected source = some (closer, trim, marker, rest)) :
    scanTag expected source =
      if closer = expected then ⟨[.token closer.kind marker], .text trim, rest⟩
      else ⟨[.token (.invalid .mismatchedClose) marker], .text false, rest⟩ := by
  simp [scanTag, h]

theorem scanTag_unclosed {expected : Closer} {rest : List Char} (h : closing? expected (braces false ++ rest) = none) :
    scanTag expected (braces false ++ rest) =
      ⟨[.token (.invalid .unclosedTag) ['{', '{']], .tag expected, rest⟩ := by
  simp only [scanTag, h]
  rfl

theorem scanTag_word {expected : Closer} {c : Char} {rest : List Char} (h : closing? expected (c :: rest) = none)
    (hb : ¬ ['{', '{'] <+: c :: rest) :
    scanTag expected (c :: rest) = ⟨[(scanWord c rest).1], .tag expected, (scanWord c rest).2⟩ := by
  simp only [scanTag, h]
  split
  · simp_all
  · rename_i heq
    obtain ⟨rfl, rfl⟩ := List.cons.inj heq
    rfl
  · simp_all

def Closer.marker (closer : Closer) (trim : Bool) : List Char :=
  (if closer = .triple then ['}'] else []) ++ ((if trim then ['~'] else []) ++ ['}', '}'])

theorem closing?_marker {expected closer : Closer} {trim : Bool} {source marker rest : List Char}
    (h : closing? expected source = some (closer, trim, marker, rest)) : marker = closer.marker trim := by
  unfold closing? at h
  split at h <;> simp at h <;> obtain ⟨rfl, rfl, rfl, rfl⟩ := h <;> rfl

end Curly.Lexeme
