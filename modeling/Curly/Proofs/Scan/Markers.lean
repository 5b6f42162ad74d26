import Curly.Proofs.Scan.Local
import Curly.Proofs.Scan.Tokens

/-!
# Kinds of tokens

Which kinds of tokens are read in plain text and inside of tags (`mem_scanText`,
`mem_scanTag`). The tokens that open and close tags have braces at their outer ends
(`Token.marked`).
-/

namespace Curly

theorem Token.Kind.isInner_of_opensTag {kind : Token.Kind} (h : kind.opensTag = true) : kind.isInner = false := by
  cases kind <;> first | rfl | cases h

namespace Lexeme

/-! ## Where tokens are read -/

theorem mem_scanMarker {opening after : List Char} {kind : Token.Kind} {text : List Char}
    (h : .token kind text ∈ (scanMarker opening after).lexemes) :
    kind = .comment ∨ kind = .invalid .unterminatedComment ∨ kind.opensTag = true ∧ opening <+: text := by
  cases markerCase after with
  | dashed body => exact (kind_of_mem_scanComment h).imp_right .inl
  | comment hd =>
    rw [scanMarker_comment _ hd] at h
    exact (kind_of_mem_scanComment h).imp_right .inl
  | brace rest =>
    obtain ⟨rfl, rfl⟩ := Lexeme.token.inj (List.mem_singleton.mp h)
    exact .inr (.inr ⟨rfl, List.prefix_append _ _⟩)
  | ampersand rest =>
    obtain ⟨rfl, rfl⟩ := Lexeme.token.inj (List.mem_singleton.mp h)
    exact .inr (.inr ⟨rfl, List.prefix_append _ _⟩)
  | plain hp =>
    rw [scanMarker_plain _ hp] at h
    obtain ⟨rfl, rfl⟩ := Lexeme.token.inj (List.mem_singleton.mp h)
    exact .inr (.inr ⟨rfl, List.prefix_refl _⟩)

theorem mem_scanText {trim : Bool} {source : List Char} {kind : Token.Kind} {text : List Char}
    (h : .token kind text ∈ (scanText trim source).lexemes) :
    kind = .raw ∨ kind = .comment ∨ kind = .invalid .unterminatedComment ∨
      kind.opensTag = true ∧ ['{', '{'] <+: text := by
  cases textCase source with
  | last hcase =>
    rw [scanText_last trim hcase] at h
    exact .inl (kind_of_mem_rawPieces h)
  | escaped hcase he =>
    rw [scanText_escaped trim hcase he, scanEscaped_braces, List.mem_append] at h
    rcases h with h | h
    · exact .inl (kind_of_mem_piecesBefore h)
    · exact .inl (Lexeme.token.inj (List.mem_singleton.mp h)).1
  | @marker tilde before after hcase he ha =>
    rw [scanText_marker trim hcase he ha, List.mem_append] at h
    rcases h with h | h
    · exact .inl (kind_of_mem_piecesBefore h)
    · have hbraces : ['{', '{'] <+: braces tilde := by cases tilde <;> simp [braces]
      exact .inr ((mem_scanMarker h).imp_right (Or.imp_right (And.imp_right hbraces.trans)))

theorem mem_scanTag {expected : Closer} {source : List Char} (hs : source ≠ []) {kind : Token.Kind}
    {text : List Char} (h : .token kind text ∈ (scanTag expected source).lexemes) :
    (∃ closer trim, kind = Closer.kind closer ∧ text = closer.marker trim) ∨ kind = .invalid .mismatchedClose ∨
      kind = .invalid .unclosedTag ∨ kind.isInner = true ∧ ∃ c rest, (scanWord c rest).1 = .token kind text := by
  cases tagCase expected hs with
  | @closing closer trim _ marker rest hcase =>
    rw [scanTag_closing hcase] at h
    split at h
    · obtain ⟨rfl, rfl⟩ := Lexeme.token.inj (List.mem_singleton.mp h)
      exact .inl ⟨closer, trim, rfl, closing?_marker hcase⟩
    · exact .inr (.inl (Lexeme.token.inj (List.mem_singleton.mp h)).1)
  | unclosed hcase =>
    rw [scanTag_unclosed hcase] at h
    exact .inr (.inr (.inl (Lexeme.token.inj (List.mem_singleton.mp h)).1))
  | @word c rest hcase hb =>
    rw [scanTag_word hcase hb] at h
    have hword := List.mem_singleton.mp h
    refine .inr (.inr (.inr ⟨?_, c, rest, hword.symm⟩))
    rcases scanWord_cases c rest with ⟨blanks, hw, -⟩ | ⟨kind', text', hw, -, hinner⟩
    · rw [hw] at hword
      cases hword
    · rw [hw] at hword
      obtain ⟨rfl, -⟩ := Lexeme.token.inj hword
      exact hinner

theorem mem_scan {mode : Mode} {source : List Char} {kind : Token.Kind} {text : List Char}
    (h : .token kind text ∈ scan mode source) :
    (∃ trim s, .token kind text ∈ (scanText trim s).lexemes) ∨
      ∃ expected s, s ≠ [] ∧ .token kind text ∈ (scanTag expected s).lexemes := by
  fun_induction scan mode source with
  | case1 => cases h
  | case2 mode source hs ih =>
    rcases List.mem_append.mp h with h | h
    · cases mode with
      | text trim => exact .inl ⟨trim, source, h⟩
      | tag expected => exact .inr ⟨expected, source, hs, h⟩
    · exact ih h

/-- A token of a kind that stands inside of tags is one of the words there. -/
theorem exists_scanWord {mode : Mode} {source : List Char} {kind : Token.Kind} {text : List Char}
    (h : .token kind text ∈ scan mode source) (hk : kind.isInner = true) (hne : kind ≠ .invalid .unclosedTag) :
    ∃ c rest, (scanWord c rest).1 = .token kind text := by
  rcases mem_scan h with ⟨trim, s, h⟩ | ⟨expected, s, hs, h⟩
  · rcases mem_scanText h with rfl | rfl | rfl | ⟨ho, -⟩
    · cases hk
    · cases hk
    · cases hk
    · rw [Token.Kind.isInner_of_opensTag ho] at hk
      cases hk
  · rcases mem_scanTag hs h with ⟨closer, trim, rfl, -⟩ | rfl | rfl | ⟨-, hword⟩
    · cases closer <;> cases hk
    · cases hk
    · exact absurd rfl hne
    · exact hword

/-! ## Braces -/

/-- Opening markers begin with braces, and closing markers end with them. -/
def Marked (kind : Token.Kind) (text : List Char) : Prop :=
  (kind.opensTag → ['{', '{'] <+: text) ∧ (kind = .endExpression ∨ kind = .endRaw → ['}', '}'] <:+ text)

theorem marked_scan {mode : Mode} {source : List Char} {kind : Token.Kind} {text : List Char}
    (h : .token kind text ∈ scan mode source) : Marked kind text := by
  rcases mem_scan h with ⟨trim, s, h⟩ | ⟨expected, s, hs, h⟩
  · rcases mem_scanText h with rfl | rfl | rfl | ⟨ho, hbraces⟩
    · simp [Marked, Token.Kind.opensTag]
    · simp [Marked, Token.Kind.opensTag]
    · simp [Marked, Token.Kind.opensTag]
    · refine ⟨fun _ => hbraces, ?_⟩
      rintro (rfl | rfl)
      · cases ho
      · cases ho
  · rcases mem_scanTag hs h with ⟨closer, trim, rfl, rfl⟩ | rfl | rfl | ⟨hinner, -⟩
    · refine ⟨by cases closer <;> simp [Closer.kind, Token.Kind.opensTag], fun _ => ?_⟩
      rw [Closer.marker, ← List.append_assoc]
      exact List.suffix_append _ _
    · simp [Marked, Token.Kind.opensTag]
    · simp [Marked, Token.Kind.opensTag]
    · refine ⟨?_, ?_⟩
      · intro ho
        rw [Token.Kind.isInner_of_opensTag ho] at hinner
        cases hinner
      · rintro (rfl | rfl)
        · cases hinner
        · cases hinner

end Lexeme

theorem Token.marked {source : List Char} {t : Token} (h : t ∈ Token.ofSource source) : Lexeme.Marked t.kind t.text := by
  obtain ⟨a, b, hls, -⟩ := Lexeme.mem_tokens h
  apply @Lexeme.marked_scan (.text false) source
  rw [hls]
  simp

end Curly
