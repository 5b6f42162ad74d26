import Curly.Proofs.Scan.Local

/-!
# Tokens of joined sources

Where a source ends with a tag or a comment, or begins with one, it can be put
before or behind others without a change to their tokens, but for where they stand.
-/

namespace Curly

/-- The source ends with the closing marker of a tag, or with a comment, and
drops no blanks that follow. -/
def EndsPlainly (source : List Char) : Prop :=
  ∃ t, (Token.ofSource source).getLast? = some t ∧
    (t.kind = .endExpression ∨ t.kind = .endRaw ∨ t.kind = .comment) ∧
    t.region.stop = byteLength source ∧ t.kind.trimsAfter t.text = false

instance (source : List Char) : Decidable (EndsPlainly source) :=
  inferInstanceAs (Decidable (∃ t ∈ (Token.ofSource source).getLast?,
    (t.kind = .endExpression ∨ t.kind = .endRaw ∨ t.kind = .comment) ∧
      t.region.stop = byteLength source ∧ t.kind.trimsAfter t.text = false))

/-- The source begins with the opening marker of a tag, or with a comment, and
drops no blanks that come before. -/
def BeginsPlainly (source : List Char) : Prop :=
  ∃ t, (Token.ofSource source).head? = some t ∧ (t.kind.opensTag ∨ t.kind = .comment) ∧
    t.region.start = 0 ∧ t.kind.trimsBefore t.text = false

instance (source : List Char) : Decidable (BeginsPlainly source) :=
  inferInstanceAs (Decidable (∃ t ∈ (Token.ofSource source).head?,
    (t.kind.opensTag ∨ t.kind = .comment) ∧ t.region.start = 0 ∧ t.kind.trimsBefore t.text = false))

namespace Lexeme

theorem exists_last {source : List Char} (h : EndsPlainly source) :
    ∃ a kind text, scan (.text false) source = a ++ [.token kind text] ∧
      (kind = .endExpression ∨ kind = .endRaw ∨ kind = .comment) ∧ kind.trimsAfter text = false := by
  obtain ⟨t, ht, hk, hstop, htrim⟩ := h
  obtain ⟨a, b, hls, hr⟩ := mem_tokens (List.mem_of_getLast? ht)
  have hb := scan_resume hls hk
  have htexts := congrArg byteLength (texts_scan (.text false) source)
  rw [hls, texts_append, byteLength_append, texts_cons, byteLength_append] at htexts
  have hnil : texts b = [] := by
    refine eq_nil_of_byteLength ?_
    simp only [hr, text] at hstop htexts
    omega
  rw [hnil, scan_nil] at hb
  exact ⟨a, t.kind, t.text, hb ▸ hls, hk, htrim⟩

theorem clean_of_tokens (start : Nat) {ls : List Lexeme}
    (h : ∀ t ∈ tokens start ls, ∀ fault, t.kind ≠ .invalid fault) : Clean ls := by
  intro fault text hm
  obtain ⟨t, ht, hk, -⟩ := exists_mem_tokens start hm
  exact h t ht fault hk

end Lexeme

theorem Token.ofSource_append {a : List Char} (ha : EndsPlainly a)
    (hclean : Lexeme.Clean (Lexeme.scan (.text false) a)) (b : List Char) :
    Token.ofSource (a ++ b) = Token.ofSource a ++ (Token.ofSource b).map (Token.shift (byteLength a)) := by
  obtain ⟨ls, kind, text, hls, hk, htrim⟩ := Lexeme.exists_last ha
  unfold Token.ofSource
  rw [Lexeme.scan_append hls hk hclean b, htrim, Lexeme.tokens_append, Lexeme.texts_scan, ← Lexeme.tokens_shift]

/-- What stands behind a tag or a comment is scanned for itself. -/
theorem Token.ofSource_resume {before text after : List Char} {x y : List Token} {kind : Token.Kind} {r : Region}
    (h : Token.ofSource (before ++ (text ++ after)) = x ++ ⟨kind, text, r⟩ :: y)
    (hk : kind = .endExpression ∨ kind = .endRaw ∨ kind = .comment) (htrim : kind.trimsAfter text = false)
    (hstart : r.start = byteLength before) :
    y = (Token.ofSource after).map (Token.shift (byteLength (before ++ text))) := by
  obtain ⟨a, b, hls, -, rfl, rfl⟩ := Lexeme.exists_of_tokens_eq h
  have hb := Lexeme.scan_resume hls hk
  have htexts := Lexeme.texts_scan (.text false) (before ++ (text ++ after))
  rw [hls, Lexeme.texts_append, Lexeme.texts_cons] at htexts
  dsimp only at hstart ⊢
  rw [Nat.zero_add] at hstart ⊢
  obtain ⟨-, hrest⟩ := append_inj_of_byteLength htexts hstart
  obtain rfl : Lexeme.texts b = after := List.append_cancel_left hrest
  rw [htrim] at hb
  unfold Token.ofSource
  rw [← hb, hstart, byteLength_append, ← Lexeme.tokens_shift, Nat.zero_add]

/-- Before the opening marker of a tag nothing depends on what the tag is. -/
theorem Token.ofSource_cut {before rest rest' : List Char} {x y : List Token} {r : Region}
    (h : Token.ofSource (before ++ (Lexeme.braces false ++ rest)) =
      x ++ ⟨.beginExpression, Lexeme.braces false, r⟩ :: y)
    (hclean : Lexeme.Clean (Lexeme.scan (.text false) (before ++ (Lexeme.braces false ++ rest))))
    (hstart : r.start = byteLength before) (hrest : rest'.head? ≠ some '~') :
    Token.ofSource (before ++ (Lexeme.braces false ++ rest')) =
      x ++ (Token.ofSource (Lexeme.braces false ++ rest')).map (Token.shift (byteLength before)) := by
  obtain ⟨a, b, hls, rfl, rfl, -⟩ := Lexeme.exists_of_tokens_eq h
  have htexts := Lexeme.texts_scan (.text false) (before ++ (Lexeme.braces false ++ rest))
  rw [hls, Lexeme.texts_append] at htexts
  rw [hls] at hclean
  obtain ⟨rfl, -⟩ := append_inj_of_byteLength htexts ((Nat.zero_add _).symm.trans hstart)
  unfold Token.ofSource
  rw [Lexeme.scan_cut hls (Lexeme.Clean.append.mp hclean).1 hrest, Lexeme.tokens_append, ← Lexeme.tokens_shift]

/-! ## Opening markers -/

namespace Lexeme

/-- Behind plain text the first token that is none is the next one. -/
theorem head?_tokens {pieces ls : List Lexeme} {kind : Token.Kind} {text : List Char}
    (hpieces : ∀ kind text, .token kind text ∈ pieces → kind = .raw) {t : Token}
    (h : (tokens 0 (pieces ++ .token kind text :: ls)).head? = some t) (ht : t.kind ≠ .raw) :
    t.kind = kind ∧ t.text = text ∧ t.region.start = byteLength (texts pieces) := by
  rw [tokens_split] at h
  cases hp : tokens 0 pieces with
  | nil =>
    rw [hp] at h
    obtain rfl := Option.some.inj h
    exact ⟨rfl, rfl, Nat.zero_add _⟩
  | cons u us =>
    rw [hp] at h
    obtain rfl := Option.some.inj h
    obtain ⟨a, b, rfl, -⟩ := mem_tokens (hp ▸ List.mem_cons_self ..)
    exact absurd (hpieces u.kind u.text (by simp)) ht

end Lexeme

theorem exists_braces {source : List Char} (h : BeginsPlainly source) :
    ∃ rest, source = Lexeme.braces false ++ rest ∧ rest.head? ≠ some '~' := by
  obtain ⟨t, ht, hk, hstart, htrim⟩ := h
  have hraw : t.kind ≠ .raw := by
    intro hr
    rw [hr] at hk
    simp [Token.Kind.opensTag] at hk
  have hne : source ≠ [] := by
    rintro rfl
    simp [Token.ofSource, Lexeme.scan_nil, Lexeme.tokens] at ht
  have whole := Lexeme.splitAtMark_append ['{', '{'] source
  unfold Token.ofSource at ht
  rw [Lexeme.scan_of_ne_nil _ hne, Lexeme.scanStep] at ht
  cases Lexeme.textCase source with
  | last hcase =>
    rw [Lexeme.scanText_last false hcase, Lexeme.scan_nil, List.append_nil] at ht
    obtain ⟨a, b, heq, -⟩ := Lexeme.mem_tokens (List.mem_of_head? ht)
    have hm : .token t.kind t.text ∈ Lexeme.rawPieces false false source := by
      rw [show Lexeme.rawPieces false false source = _ from heq]
      simp
    exact absurd (Lexeme.kind_of_mem_rawPieces hm) hraw
  | escaped hcase he =>
    rw [Lexeme.scanText_escaped false hcase he, Lexeme.scanEscaped_braces, List.append_assoc] at ht
    exact absurd (Lexeme.head?_tokens (fun _ _ => Lexeme.kind_of_mem_piecesBefore) ht hraw).1 hraw
  | @marker tilde before after hcase he ha =>
    obtain ⟨kind, text, ho⟩ := Lexeme.scanMarker_opens ha
    rw [Lexeme.scanText_marker false hcase he ha, ho.lexemes, List.append_assoc] at ht
    obtain ⟨rfl, rfl, hbefore⟩ := Lexeme.head?_tokens (fun _ _ => Lexeme.kind_of_mem_piecesBefore) ht hraw
    rw [Lexeme.texts_piecesBefore, hstart] at hbefore
    obtain rfl := eq_nil_of_byteLength hbefore.symm
    obtain rfl : tilde = false := ho.trims.symm.trans htrim
    rw [hcase] at whole
    exact ⟨after, whole.symm, ha rfl⟩

theorem exists_braces_append {source : List Char} (hbegin : BeginsPlainly source) (hend : EndsPlainly source) :
    ∃ rest, source = Lexeme.braces false ++ rest ∧ ∀ after : List Char, (rest ++ after).head? ≠ some '~' := by
  obtain ⟨rest, rfl, hrest⟩ := exists_braces hbegin
  cases rest with
  | nil =>
    have hopen : ¬ EndsPlainly (Lexeme.braces false ++ []) := by decide +kernel
    exact absurd hend hopen
  | cons c rest => exact ⟨c :: rest, rfl, fun _ => hrest⟩

end Curly
