import Curly.Proofs.Grammar.Kinds
import Curly.Proofs.Written.Call

/-!
# Written outputs

What is read by itself inside a tag of two braces is read as the same tokens in a
tag of three, and right in front of the braces that close it
(`Lexeme.scan_closed`). So a written call compiles to one output, escaped between
two braces and raw between three (`Template.compile_output`).
-/

namespace Curly

namespace Lexeme

/-- The tokens among the lexemes may stand in an expression. -/
def Inner (ls : List Lexeme) : Prop :=
  ∀ l ∈ ls, ∀ kind text, l = .token kind text → kind.ofExpression

theorem inner_of_tokens (start : Nat) {ls : List Lexeme} (h : ∀ t ∈ tokens start ls, t.kind.ofExpression) : Inner ls := by
  rintro _ hmem kind text rfl
  obtain ⟨t, ht, rfl, -⟩ := exists_mem_tokens start hmem
  exact h t ht

theorem clean_of_inner {ls : List Lexeme} (h : Inner ls) : Clean ls := by
  intro fault text hmem
  cases h _ hmem _ _ rfl

/-- A brace or a tilde begins no token of an expression. -/
theorem exists_of_brace {c : Char} (hc : ¬ (c ≠ '{' ∧ c ≠ '}' ∧ c ≠ '~')) (expected : Closer) (rest : List Char) :
    ∃ kind text more, scan (.tag expected) (c :: rest) = .token kind text :: more ∧ kind.ofExpression = false := by
  have hne : c :: rest ≠ [] := List.cons_ne_nil c rest
  rw [scan_of_ne_nil _ hne, scanStep]
  generalize hsource : c :: rest = source at hne
  cases tagCase expected hne with
  | @closing closer trim _ marker after h =>
    rw [scanTag_closing h]
    split
    · exact ⟨_, _, _, rfl, by cases closer <;> rfl⟩
    · exact ⟨_, _, _, rfl, rfl⟩
  | unclosed h =>
    rw [scanTag_unclosed h]
    exact ⟨_, _, _, rfl, rfl⟩
  | @word d more h hb =>
    obtain ⟨rfl, rfl⟩ := List.cons.inj hsource
    have hbrace : c = '{' ∨ c = '}' ∨ c = '~' := by
      by_contra hnone
      simp only [not_or] at hnone
      exact hc hnone
    rw [scanTag_word h hb, scanWord_brace hbrace]
    exact ⟨_, _, _, rfl, rfl⟩

theorem goesOn_close (l : Lexeme) : goesOn l '}' = false := by
  cases l with
  | gap => rfl
  | token kind text => cases kind <;> rfl

/-- A lexeme of an expression is the same in any tag, in front of any text that does not go on it. -/
theorem exists_first {expected : Closer} {source : List Char} {l : Lexeme} {ls : List Lexeme}
    (h : scan (.tag expected) source = l :: ls) (hl : Inner [l]) :
    ∃ rest, source = l.text ++ rest ∧ ls = scan (.tag expected) rest ∧ (∀ d ∈ rest.head?, goesOn l d = false) ∧
      ∀ closer r', (∀ d ∈ r'.head?, goesOn l d = false) →
        scan (.tag closer) (l.text ++ r') = l :: scan (.tag closer) r' := by
  cases source with
  | nil =>
    rw [scan_nil] at h
    cases h
  | cons c cs =>
    by_cases hc : c ≠ '{' ∧ c ≠ '}' ∧ c ≠ '~'
    · rw [scan_word hc] at h
      obtain ⟨rfl, rfl⟩ := List.cons.inj h
      obtain ⟨hhead, word, htext, hlocal⟩ := exists_word (clean_of_inner hl)
      refine ⟨_, (scanWord_append c cs).symm, rfl, hhead, ?_⟩
      intro closer r' hr'
      rw [htext, List.cons_append, scan_word hc, hlocal r' hr']
    · obtain ⟨kind, text, more, hfirst, hkind⟩ := exists_of_brace hc expected cs
      rw [hfirst] at h
      obtain ⟨rfl, -⟩ := List.cons.inj h
      rw [hl _ (List.mem_cons_self ..) _ _ rfl] at hkind
      cases hkind

/-- Tokens of an expression are the same in any tag, and in front of a closing brace. -/
theorem scan_closed {ls : List Lexeme} (hls : Inner ls) {text r r' : List Char}
    (h : scan (.tag .double) (text ++ r) = ls ++ scan (.tag .double) r) (hr' : ∀ c ∈ r'.head?, c = '}')
    (closer : Closer) : scan (.tag closer) (text ++ r') = ls ++ scan (.tag closer) r' := by
  induction ls generalizing text with
  | nil =>
    have htexts := congrArg texts h
    rw [List.nil_append, texts_scan, texts_scan] at htexts
    obtain rfl : text = [] := List.append_left_eq_self.mp htexts
    rfl
  | cons l ls ih =>
    have htexts := congrArg texts h
    rw [texts_append, texts_scan, texts_scan, texts_cons] at htexts
    obtain rfl : text = l.text ++ texts ls := List.append_cancel_right htexts
    obtain ⟨hl, htail⟩ := List.forall_mem_cons.mp hls
    obtain ⟨rest, hrest, hmore, hhead, hlocal⟩ := exists_first h (List.forall_mem_singleton.mpr hl)
    obtain rfl : rest = texts ls ++ r := by
      rw [List.append_assoc] at hrest
      exact (List.append_cancel_left hrest).symm
    have hends : ∀ d ∈ (texts ls ++ r').head?, goesOn l d = false := by
      cases hls' : texts ls with
      | nil =>
        intro d hd
        rw [hr' d hd]
        exact goesOn_close l
      | cons d tail =>
        rw [hls'] at hhead
        exact hhead
    rw [List.append_assoc, hlocal closer _ hends, ih htail hmore.symm]
    rfl

/-- What is read by itself is read in front of the braces that close any tag. -/
theorem Reads.closed {text : List Char} {P : List Token → Prop} (h : Reads text P)
    (hkinds : ∀ used, P used → ∀ t ∈ used, t.kind.ofExpression) (closer : Closer) :
    ∃ ls, (∀ start, P (tokens start ls)) ∧
      scan (.tag closer) (text ++ closer.marker false) = ls ++ [.token closer.kind (closer.marker false)] := by
  obtain ⟨ls, hscan, hP⟩ := h
  refine ⟨ls, hP, ?_⟩
  have hbrace : ∀ c ∈ (closer.marker false).head?, c = '}' := by cases closer <;> simp [Closer.marker]
  have hmarker : closing? closer (closer.marker false) = some (closer, false, closer.marker false, []) := by
    cases closer <;> rfl
  have hne : closer.marker false ≠ [] := by cases closer <;> simp [Closer.marker]
  rw [scan_closed (inner_of_tokens 0 (hkinds _ (hP 0))) (hscan [' '] (.blank [])) hbrace closer,
    scan_of_ne_nil _ hne, scanStep, scanTag_closing hmarker]
  simp [scan_nil]

end Lexeme

/-! ## Outputs -/

/-- A tag that writes what stands in it, escaped between two braces and as it is between three. -/
def outputText (escaped : Bool) (inner : String) : String :=
  if escaped then tagText inner else "\x7b\x7b\x7b" ++ inner ++ "\x7d\x7d\x7d"

open Lexeme

theorem ofSource_outputText {text : List Char} {P : List Token → Prop} (h : Reads text P)
    (hkinds : ∀ used, P used → ∀ t ∈ used, t.kind.ofExpression) (hbegins : ∃ c cs, text = c :: cs ∧ beginsWord c = true)
    (escaped : Bool) :
    ∃ marker used closing, Token.ofSource (outputText escaped (String.ofList text)).toList =
        marker :: (used ++ [closing]) ∧ P used ∧
      marker.kind = (if escaped then .beginExpression else .beginRaw) ∧ marker.text.getLast? = some '{' ∧
      closing.kind = if escaped then .endExpression else .endRaw := by
  cases escaped with
  | true =>
    obtain ⟨ls, hP, hclosed⟩ := h.closed hkinds .double
    have hsource : (outputText true (String.ofList text)).toList = braces false ++ (text ++ Closer.marker .double false) := by
      simp [outputText, tagText, braces, Closer.marker]
    have hplain : ∀ d ∈ (text ++ Closer.marker .double false).head?, d ≠ '~' ∧ d ≠ '!' ∧ d ≠ '{' ∧ d ≠ '&' := by
      obtain ⟨c, cs, rfl, hc⟩ := hbegins
      intro d hd
      obtain rfl : c = d := by simpa using hd
      refine ⟨?_, ?_, ?_, ?_⟩
      all_goals rintro rfl; exact absurd hc (by decide)
    rw [hsource, Token.ofSource, scan_expression hplain, hclosed, tokens, tokens_append]
    exact ⟨_, _, _, rfl, hP _, rfl, rfl, rfl⟩
  | false =>
    obtain ⟨ls, hP, hclosed⟩ := h.closed hkinds .triple
    have hsource : (outputText false (String.ofList text)).toList =
        braces false ++ ('{' :: (text ++ Closer.marker .triple false)) := by
      simp [outputText, braces, Closer.marker]
    rw [hsource, Token.ofSource, scan_raw, hclosed, tokens, tokens_append]
    exact ⟨_, _, _, rfl, hP _, rfl, rfl, rfl⟩

/-- A text that is read as a call compiles to one output between either braces. -/
theorem Template.compile_output {text : List Char} {Q : Call Expression → Prop}
    (h : Reads text fun used => ∃ c, SpellsCall used c ∧ Q c) (hbegins : ∃ c cs, text = c :: cs ∧ beginsWord c = true)
    (escaped : Bool) (name : Option String) :
    ∃ t c region, Template.compile name (outputText escaped (String.ofList text)) = .ok t ∧
      t.nodes = [.output c escaped region] ∧ Q c := by
  have hkinds : ∀ used, (∃ c, SpellsCall used c ∧ Q c) → ∀ t ∈ used, t.kind.ofExpression := by
    rintro used ⟨c, hs, -⟩
    exact hs.kinds
  obtain ⟨marker, used, closing, htokens, ⟨c, hs, hQ⟩, hmarker, hbrace, hclosing⟩ :=
    ofSource_outputText h hkinds hbegins escaped
  have htags : SpellsTags (marker :: (used ++ [closing]))
      [.node (.output c escaped (marker.region.combine closing.region))] := by
    cases escaped with
    | true => simpa using SpellsTags.cons (.tag hmarker hclosing (.output hs)) .nil
    | false =>
      have hraw : closing.kind = rawCloser marker := by
        rw [rawCloser, if_pos hbrace]
        exact hclosing
      simpa using SpellsTags.cons (.rawOutput hmarker hraw hs) .nil
  exact ⟨_, c, _, Template.compile_of_tags (htokens ▸ htags) (.node .nil) name, rfl, hQ⟩

/-- A text that is read as a path compiles to one output of the path. -/
theorem Template.compile_path {text : List Char} {R : Path → Prop}
    (h : Reads text fun used => ∃ t p, used = [t] ∧ t.kind = .path ∧ Reading.path t = .ok p ∧ R p)
    (hbegins : ∃ c cs, text = c :: cs ∧ beginsWord c = true) (escaped : Bool) (name : Option String) :
    ∃ t p region region', Template.compile name (outputText escaped (String.ofList text)) = .ok t ∧
      t.nodes = [.output ⟨.path p, ⟨[], []⟩, region⟩ escaped region'] ∧ R p := by
  have hcall : Reads text fun used => ∃ c, SpellsCall used c ∧ ∃ p region, c = ⟨.path p, ⟨[], []⟩, region⟩ ∧ R p := by
    refine h.mono ?_
    rintro _ ⟨t, p, rfl, hkind, hpath, hR⟩
    exact ⟨_, .mk (.of_token hkind hpath) .nil, p, _, rfl, hR⟩
  obtain ⟨t, _, region', ht, hnodes, p, region, rfl, hR⟩ := Template.compile_output hcall hbegins escaped name
  exact ⟨t, p, region, region', ht, hnodes, hR⟩

end Curly
