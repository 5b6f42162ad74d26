import Curly.Proofs.Around
import Curly.Proofs.Scan.Blanks
import Curly.Proofs.Written.Output

/-!
# Tags with a condition

A text that is an expression inside a tag stands as the only argument of a tag that
opens a block, or an alternative that is a block itself. The expression is read there
as it is by itself.
-/

namespace Curly

/-- The text is the expression, if it is read inside a tag. -/
def Expression.ReadFrom (text : List Char) (e : Expression) : Prop :=
  SpellsExpression (Lexeme.tokens 0 (Lexeme.scan (.tag .double) text)) e

open Lexeme

variable {text lead : List Char} {e : Expression}

theorem Expression.ReadFrom.scan_close (h : e.ReadFrom text) :
    scan (.tag .double) (text ++ ['}', '}']) =
      scan (.tag .double) text ++ [.token .endExpression ['}', '}']] := by
  have hinner : Inner (scan (.tag .double) text) := inner_of_tokens 0 h.kinds
  have hself : scan (.tag .double) (text ++ []) = scan (.tag .double) text ++ scan (.tag .double) [] := by
    rw [List.append_nil, scan_nil, List.append_nil]
  have hclose : scan (.tag .double) ['}', '}'] = [.token .endExpression ['}', '}']] := by
    rw [scan_of_ne_nil _ (by simp), scanStep, scanTag_closing rfl]
    simp [scan_nil, Closer.kind]
  rw [scan_closed hinner hself (by simp) .double, hclose]

/-- A tag that begins with the lead and a blank, and ends with the text. -/
def conditionTag (lead text : List Char) : List Char :=
  braces false ++ (lead ++ (' ' :: (text ++ ['}', '}'])))

/-- The tokens of such a tag are those of the lead, and those of the text where it stands. -/
theorem ofSource_conditionTag {P : List Token → Prop} (hlead : Reads lead P)
    (hbegins : ∀ c ∈ (lead ++ [' ']).head?, c ≠ '~' ∧ c ≠ '!' ∧ c ≠ '{' ∧ c ≠ '&') (h : e.ReadFrom text) :
    ∃ marker first closing, Token.ofSource (conditionTag lead text) = marker :: (first ++
        ((tokens 0 (scan (.tag .double) text)).map (Token.shift (byteLength (braces false ++ (lead ++ [' '])))) ++
          [closing])) ∧
      P first ∧ marker.kind = .beginExpression ∧ closing.kind = .endExpression ∧ closing.text = ['}', '}'] ∧
      closing.region.stop = byteLength (conditionTag lead text) := by
  obtain ⟨ls, hscan, hP⟩ := hlead
  have hplain : ∀ c ∈ (lead ++ (' ' :: (text ++ ['}', '}']))).head?, c ≠ '~' ∧ c ≠ '!' ∧ c ≠ '{' ∧ c ≠ '&' := by
    cases lead with
    | nil => exact hbegins
    | cons c lead => exact hbegins
  have htexts : texts ls = lead := by
    have htexts := congrArg texts (hscan [' '] (.blank []))
    rw [texts_append, texts_scan, texts_scan] at htexts
    exact (List.append_cancel_right htexts).symm
  have hbytes : 0 + byteLength (braces false) + byteLength lead + ' '.utf8Size =
      0 + byteLength (braces false ++ (lead ++ [' '])) := by
    simp [byteLength_append, byteLength, Nat.add_assoc]
  let start := 0 + byteLength (braces false)
  let stop := 0 + byteLength (braces false ++ (lead ++ [' '])) + byteLength text
  refine ⟨⟨.beginExpression, braces false, ⟨0, start⟩⟩, tokens start ls,
    ⟨.endExpression, ['}', '}'], ⟨stop, stop + byteLength ['}', '}']⟩⟩, ?_, hP start, rfl, rfl, rfl, ?_⟩
  · rw [conditionTag, Token.ofSource, scan_expression hplain, hscan _ (.blank _), tokens, tokens_append,
      tokens_blank (by decide), h.scan_close, tokens_append, htexts, hbytes,
      tokens_shift (byteLength (braces false ++ (lead ++ [' ']))), texts_scan]
    rfl
  · simp [stop, conditionTag, byteLength_append, byteLength, Nat.add_assoc]

/-! ## Blocks -/

/-- The call of a block helper with the expression that the text is. -/
def ConditionCall (name : String) (lead text : List Char) (e : Expression) (c : Call Path) : Prop :=
  c.head.helperName = some name ∧ c.head.text = name.toList ∧ ∃ e', c.operands = ⟨[e'], []⟩ ∧
    AlikeExpression (Region.Moved text (byteLength (braces false ++ (lead ++ [' '])))) e e'

theorem exists_conditionCall {name : String} (hname : Path.isName name.toList = true) (h : e.ReadFrom text)
    (region : Region) :
    ∃ c, SpellsHead (⟨.path, name.toList, region⟩ ::
        (tokens 0 (scan (.tag .double) text)).map (Token.shift (byteLength (braces false ++ (lead ++ [' ']))))) c ∧
      ConditionCall name lead text e c := by
  obtain ⟨e', hspells, halike⟩ := SpellsExpression.alike (combines_moved text _) h (alike_moved _ _ _)
  have hpath : Reading.path ⟨.path, name.toList, region⟩ =
      .ok ⟨.context 0, [String.ofList name.toList], name.toList, region⟩ := by
    rw [Reading.path, Path.ofText_name hname]
  have hoperands := SpellsOperands.positional hspells .nil
  rw [List.append_nil] at hoperands
  refine ⟨⟨_, ⟨[e'], []⟩, _⟩, .mk (.of_token rfl hpath) hoperands, ?_, rfl, e', rfl, halike⟩
  simp [Path.helperName, Path.isSimple]

/-- What a tag begins with that opens a block of the helper, or goes on with one. -/
structure Leads (name : String) (lead : List Char) (make : Region → Opening → Tag) : Prop where
  begins : ∀ c ∈ (lead ++ [' ']).head?, c ≠ '~' ∧ c ≠ '!' ∧ c ≠ '{' ∧ c ≠ '&'
  reads : Reads lead fun used => ∃ word region, used = [word, ⟨.path, name.toList, region⟩] ∧
    ∀ {marker whole used c}, SpellsHead used c → SpellsTag marker whole (word :: used) (make marker ⟨c, false, whole⟩)

theorem Leads.exists_tag {name : String} {make : Region → Opening → Tag} (hlead : Leads name lead make)
    (hname : Path.isName name.toList = true) (h : e.ReadFrom text) :
    EndsPlainly (conditionTag lead text) ∧ ∃ marker region c,
      SpellsTags (Token.ofSource (conditionTag lead text)) [make marker ⟨c, false, region⟩] ∧
      ConditionCall name lead text e c := by
  obtain ⟨marker, _, closing, htokens, ⟨word, region, rfl, hmake⟩, hmarker, hclosing, htext, hstop⟩ :=
    ofSource_conditionTag hlead.reads hlead.begins h
  obtain ⟨c, hspells, hcall⟩ := @exists_conditionCall text lead e name hname h region
  refine ⟨⟨closing, ?_, .inl hclosing, hstop, ?_⟩, marker.region, marker.region.combine closing.region, c, ?_, hcall⟩
  · simp [htokens, List.getLast?_cons, List.getLast?_append]
  · rw [hclosing, htext]
    rfl
  · have hpart := SpellsTags.cons (.tag hmarker hclosing (hmake hspells)) .nil
    rw [htokens]
    simpa using hpart

end Curly
