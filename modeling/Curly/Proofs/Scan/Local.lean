import Curly.Proofs.Scan.Coverage

/-!
# Scanning is local

What a step reads depends on the text that it reads and at most on the first
character behind it (`Lexeme.scanStep_local`). A step that ends a tag or a comment
does not depend on that either. So a scan can be cut behind such a step
(`Lexeme.scan_append`) and before an opening marker (`Lexeme.scan_cut`).
-/

namespace Curly.Lexeme

/-! ## Finding marks -/

theorem prefix_append_of_length_le {mark x : List Char} (h : mark.length ≤ x.length) {r r' : List Char}
    (hp : mark <+: x ++ r) : mark <+: x ++ r' :=
  (List.prefix_of_prefix_length_le hp (List.prefix_append x r) h).trans (List.prefix_append x r')

theorem splitAtMark_local {mark a r : List Char} (hm : mark ≠ []) (h : splitAtMark mark (a ++ (mark ++ r)) = (a, mark ++ r))
    (r' : List Char) : splitAtMark mark (a ++ (mark ++ r')) = (a, mark ++ r') := by
  induction a with
  | nil =>
    obtain ⟨m, ms, rfl⟩ := List.exists_cons_of_ne_nil hm
    simp [splitAtMark, List.isPrefixOf_iff_prefix]
  | cons c a ih =>
    rw [List.cons_append, splitAtMark] at h
    split at h
    · cases h
    · rename_i hp
      have hp' : ¬ mark.isPrefixOf (c :: (a ++ (mark ++ r'))) = true := by
        intro hp'
        refine hp (List.isPrefixOf_iff_prefix.mpr ?_)
        have hpre := List.isPrefixOf_iff_prefix.mp hp'
        rw [← List.append_assoc, ← List.cons_append] at hpre ⊢
        exact prefix_append_of_length_le (by simp; omega) hpre
      simp only [Prod.mk.injEq, List.cons.injEq, true_and] at h
      have := ih (Prod.ext h.1 h.2)
      rw [List.cons_append, splitAtMark, if_neg hp', this]

theorem splitComment_local {dashed : Bool} {seen cs body rest : List Char} {trim : Bool}
    (h : splitComment dashed seen cs = some (body, trim, rest)) :
    ∃ inner, cs = inner ++ ('}' :: '}' :: rest) ∧ body = seen.reverse ++ (inner ++ ['}', '}']) ∧
      ∀ r', splitComment dashed seen (inner ++ ('}' :: '}' :: r')) = some (body, trim, r') := by
  fun_induction splitComment dashed seen cs with
  | case1 => cases h
  | case2 seen rest' tilde bare hends =>
    simp only [Option.some.injEq, Prod.mk.injEq] at h
    obtain ⟨rfl, rfl, rfl⟩ := h
    refine ⟨[], rfl, rfl, fun r' => ?_⟩
    rw [List.nil_append, splitComment, if_pos hends]
  | case3 seen rest' tilde bare hends ih =>
    obtain ⟨inner, hcs, hbody, hr⟩ := ih h
    refine ⟨'}' :: inner, by rw [hcs]; rfl, by simp [hbody], fun r' => ?_⟩
    have hinner : ∃ more, inner ++ ('}' :: '}' :: r') = '}' :: more := by
      cases inner with
      | nil => exact ⟨_, rfl⟩
      | cons c inner =>
        obtain ⟨rfl, -⟩ := List.cons.inj hcs
        exact ⟨_, rfl⟩
    obtain ⟨more, hmore⟩ := hinner
    rw [List.cons_append, hmore, splitComment, if_neg hends, ← hmore]
    exact hr r'
  | case4 seen c rest' hc ih =>
    obtain ⟨inner, hcs, hbody, hr⟩ := ih h
    refine ⟨c :: inner, by rw [hcs]; rfl, by simp [hbody], fun r' => ?_⟩
    rw [List.cons_append, splitComment]
    · exact hr r'
    · rintro more rfl hmore
      cases inner with
      | nil => exact hc _ rfl hcs
      | cons d inner =>
        obtain ⟨rfl, -⟩ := List.cons.inj hmore
        exact hc _ rfl hcs

theorem splitQuoted_local {quote : Char} (hq : quote ≠ '\\') {cs body rest : List Char}
    (h : splitQuoted quote cs = some (body, rest)) (r' : List Char) :
    splitQuoted quote (body ++ r') = some (body, r') := by
  fun_induction splitQuoted quote cs generalizing body rest with
  | case1 => cases h
  | case2 c cs ih =>
    simp only [Option.map_eq_some_iff, Prod.mk.injEq, Prod.exists] at h
    obtain ⟨q, r, h, rfl, rfl⟩ := h
    simp [splitQuoted, ih h]
  | case3 cs hc =>
    simp only [Option.some.injEq, Prod.mk.injEq] at h
    obtain ⟨rfl, rfl⟩ := h
    rw [List.singleton_append, splitQuoted, if_pos rfl]
    rintro _ _ rfl
    exact absurd rfl hq
  | case4 c cs hc hne ih =>
    simp only [Option.map_eq_some_iff, Prod.mk.injEq, Prod.exists] at h
    obtain ⟨q, r, h, rfl, rfl⟩ := h
    rw [List.cons_append, splitQuoted, if_neg hne, ih h]
    · rfl
    · rintro d more rfl hmore
      cases cs with
      | nil => cases h
      | cons e cs => exact hc e cs rfl rfl

/-- The characters that go on a path. -/
def isPathInner (c : Char) : Bool :=
  c == '[' || isPathContinue c

theorem splitPath_stop {r : List Char} (hr : ∀ c ∈ r.head?, isPathInner c = false) : splitPath false r = ([], r, false) := by
  cases r with
  | nil => rfl
  | cons d r =>
    have hd : ¬ (d = '[' || isPathContinue d) = true := by simpa [isPathInner] using hr d rfl
    rw [splitPath, if_neg hd]

theorem splitPath_local {bracket : Bool} {cs p r : List Char} (h : splitPath bracket cs = (p, r, false)) :
    (∀ c ∈ r.head?, isPathInner c = false) ∧
      ∀ r', (∀ c ∈ r'.head?, isPathInner c = false) → splitPath bracket (p ++ r') = (p, r', false) := by
  fun_induction splitPath bracket cs generalizing p r with
  | case1 bracket =>
    simp only [Prod.mk.injEq] at h
    obtain ⟨rfl, rfl, rfl⟩ := h
    exact ⟨by simp, fun r' hr => splitPath_stop hr⟩
  | case2 c cs p' r'' b e ih =>
    simp only [Prod.mk.injEq] at h
    obtain ⟨rfl, rfl, rfl⟩ := h
    obtain ⟨hhead, hlocal⟩ := ih e
    exact ⟨hhead, fun r' hr => by simp [splitPath, hlocal r' hr]⟩
  | case3 c cs hc p' r'' b e ih =>
    simp only [Prod.mk.injEq] at h
    obtain ⟨rfl, rfl, rfl⟩ := h
    obtain ⟨hhead, hlocal⟩ := ih e
    exact ⟨hhead, fun r' hr => by rw [List.cons_append, splitPath, if_pos hc, hlocal r' hr]⟩
  | case4 c cs hc =>
    simp only [Prod.mk.injEq] at h
    obtain ⟨rfl, rfl, -⟩ := h
    exact ⟨by simpa [isPathInner] using hc, fun r' hr => splitPath_stop hr⟩

theorem takeWhile_local (f : Char → Bool) (cs : List Char) :
    (∀ c ∈ (cs.dropWhile f).head?, f c = false) ∧
      ∀ r' : List Char, (∀ c ∈ r'.head?, f c = false) →
        (cs.takeWhile f ++ r').takeWhile f = cs.takeWhile f ∧ (cs.takeWhile f ++ r').dropWhile f = r' := by
  constructor
  · intro c hc
    have hhead := List.head?_dropWhile_not f cs
    rw [Option.mem_def.mp hc] at hhead
    exact hhead
  · intro r' hr
    have hall : ∀ c ∈ cs.takeWhile f, f c := fun c hc => List.all_eq_true.mp List.all_takeWhile c hc
    rw [List.takeWhile_append_of_pos hall, List.dropWhile_append_of_pos hall]
    cases r' with
    | nil => simp
    | cons c r' =>
      have hc : f c = false := hr c rfl
      simp [hc]

/-! ## Steps in plain text -/

/-- No lexeme is without meaning. -/
def Clean (ls : List Lexeme) : Prop :=
  ∀ fault text, .token (.invalid fault) text ∉ ls

/-- The last lexeme ends a tag or is a comment. -/
def Sealed (ls : List Lexeme) : Prop :=
  ∃ before kind text, ls = before ++ [.token kind text] ∧
    (kind = .endExpression ∨ kind = .endRaw ∨ kind = .comment)

theorem exists_append_of_append_eq {α : Type} {a b before : List α} {last : α} (hb : b ≠ [])
    (h : a ++ b = before ++ [last]) : ∃ inner, b = inner ++ [last] := by
  obtain ⟨inner, l, rfl⟩ := (List.eq_nil_or_concat b).resolve_left hb
  rw [List.concat_eq_append] at h ⊢
  rw [← List.append_assoc] at h
  obtain ⟨-, hl⟩ := List.append_inj' h rfl
  exact ⟨inner, by rw [hl]⟩

theorem Sealed.of_append {a b : List Lexeme} (hb : b ≠ []) (h : Sealed (a ++ b)) : Sealed b := by
  obtain ⟨before, kind, text, heq, hk⟩ := h
  obtain ⟨inner, hinner⟩ := exists_append_of_append_eq hb heq
  exact ⟨inner, kind, text, hinner, hk⟩

theorem Sealed.kind {kind : Token.Kind} {text : List Char} (h : Sealed [.token kind text]) :
    kind = .endExpression ∨ kind = .endRaw ∨ kind = .comment := by
  obtain ⟨before, kind', text', heq, hk⟩ := h
  obtain ⟨-, heq⟩ := List.append_inj' ((List.nil_append _).trans heq) rfl
  obtain ⟨rfl, -⟩ := by simpa using heq
  exact hk

def Step.leaving (s : Step) (rest : List Char) : Step :=
  { s with rest := rest }

/-- Where the text left behind a step may be replaced. -/
def Step.Allows (s : Step) (rest : List Char) : Prop :=
  rest.head? = s.rest.head? ∨ Sealed s.lexemes

theorem scanComment_local {marker body : List Char} {dashed : Bool}
    (hclean : Clean (scanComment marker dashed body).lexemes) :
    ∃ inner, body = inner ++ '}' :: '}' :: (scanComment marker dashed body).rest ∧
      texts (scanComment marker dashed body).lexemes = marker ++ (inner ++ ['}', '}']) ∧
      ∀ r', scanComment marker dashed (inner ++ '}' :: '}' :: r') = (scanComment marker dashed body).leaving r' := by
  unfold scanComment at *
  cases h : splitComment dashed [] body with
  | none => simp [h, Clean] at hclean
  | some found =>
    obtain ⟨body', trim, rest⟩ := found
    obtain ⟨inner, rfl, rfl, hr⟩ := splitComment_local h
    exact ⟨inner, rfl, by simp [text], fun r' => by rw [hr r']; rfl⟩

/-- The mark is what the step reads behind the braces. -/
theorem scanMarker_local {tilde : Bool} {after : List Char} (hclean : Clean (scanMarker (braces tilde) after).lexemes)
    {r' : List Char} (hr : (scanMarker (braces tilde) after).Allows r') :
    ∃ mark, after = mark ++ (scanMarker (braces tilde) after).rest ∧
      texts (scanMarker (braces tilde) after).lexemes = braces tilde ++ mark ∧
      (mark ++ r').head? = after.head? ∧
      scanMarker (braces tilde) (mark ++ r') = (scanMarker (braces tilde) after).leaving r' := by
  cases markerCase after with
  | dashed body =>
    rw [scanMarker_dashed] at *
    obtain ⟨inner, hbody, htexts, hlocal⟩ := scanComment_local hclean
    refine ⟨'!' :: '-' :: '-' :: (inner ++ ['}', '}']), by simpa using hbody, htexts.trans (by simp), rfl, ?_⟩
    rw [← hlocal r', ← scanMarker_dashed]
    simp
  | @comment body hd =>
    rw [scanMarker_comment _ hd] at *
    obtain ⟨inner, hbody, htexts, hlocal⟩ := scanComment_local hclean
    refine ⟨'!' :: (inner ++ ['}', '}']), by simpa using hbody, htexts.trans (by simp), rfl, ?_⟩
    have hd' : ¬ ['-', '-'] <+: inner ++ '}' :: '}' :: r' := by
      have hassoc (r : List Char) : inner ++ '}' :: '}' :: r = (inner ++ ['}', '}']) ++ r := by simp
      rw [hbody, hassoc] at hd
      rw [hassoc]
      exact fun hp => hd (prefix_append_of_length_le (by simp) hp)
    rw [← hlocal r', ← scanMarker_comment _ hd']
    simp
  | brace rest => exact ⟨['{'], rfl, by simp [scanMarker, text], rfl, rfl⟩
  | ampersand rest => exact ⟨['&'], rfl, by simp [scanMarker, text], rfl, rfl⟩
  | plain hp =>
    rw [scanMarker_plain _ hp] at *
    have hhead : r'.head? = after.head? := hr.resolve_right fun hs => by simpa using hs.kind
    exact ⟨[], rfl, by simp [text], hhead, by rw [List.nil_append, scanMarker_plain _ (hhead ▸ hp)]; rfl⟩

theorem scanEscaped_local {after r' : List Char} (hr : (scanEscaped (braces false ++ after)).Allows r') :
    ∃ mark, after = mark ++ (scanEscaped (braces false ++ after)).rest ∧
      texts (scanEscaped (braces false ++ after)).lexemes = braces false ++ mark ∧
      scanEscaped (braces false ++ (mark ++ r')) = (scanEscaped (braces false ++ after)).leaving r' := by
  have whole := splitAtMark_append (escapedEnd after) after
  have hfound := prefix_splitAtMark (escapedEnd after) after
  obtain ⟨ends, he, -⟩ := escapedEnd_spec after
  have heq := scanEscaped_braces after
  rcases hs : splitAtMark (escapedEnd after) after with ⟨a, found⟩
  simp only [hs] at whole hfound heq
  rw [heq] at hr ⊢
  rcases hfound with rfl | ⟨rest, rfl⟩
  · -- no braces end the tag: nothing is left, and nothing may be put there
    obtain rfl : r' = [] := by simpa using hr.resolve_right fun hs => by simpa using hs.kind
    obtain rfl : a = after := by simpa using whole
    refine ⟨a, by simp, by simp [text], ?_⟩
    rw [List.append_nil, heq]
    simp [Step.leaving]
  · have hend : escapedEnd (a ++ (escapedEnd after ++ r')) = escapedEnd after := by
      have hhead : (a ++ (escapedEnd after ++ r')).head? = after.head? := by
        rw [← whole, he]
        cases a <;> rfl
      rw [escapedEnd, hhead]
      rfl
    have hlocal : splitAtMark (escapedEnd after) (a ++ (escapedEnd after ++ r')) = (a, escapedEnd after ++ r') :=
      splitAtMark_local (by simp [he]) (by rw [whole]; exact hs) r'
    refine ⟨a ++ escapedEnd after, by simpa using whole.symm, by simp [text], ?_⟩
    rw [List.append_assoc, scanEscaped_braces, hend, hlocal]
    simp [Step.leaving]

theorem eq_of_mem_keep {l l' : Lexeme} (h : l ∈ keep l') : l = l' := by
  unfold keep at h
  split at h
  · cases h
  · exact List.mem_singleton.mp h

theorem kind_of_mem_rawPieces {left right : Bool} {body : List Char} {kind : Token.Kind} {text : List Char}
    (h : .token kind text ∈ rawPieces left right body) : kind = .raw := by
  simp only [rawPieces, List.mem_append] at h
  rcases h with (h | h) | h
  · cases eq_of_mem_keep h
  · cases eq_of_mem_keep h
    rfl
  · cases eq_of_mem_keep h

theorem kind_of_mem_piecesBefore {trim tilde : Bool} {before : List Char} {kind : Token.Kind} {text : List Char}
    (h : .token kind text ∈ piecesBefore trim tilde before) : kind = .raw := by
  unfold piecesBefore at h
  split at h
  · exact kind_of_mem_rawPieces h
  · exact kind_of_mem_rawPieces (by simpa using h)

theorem not_sealed_rawPieces (left right : Bool) (body : List Char) : ¬ Sealed (rawPieces left right body) := by
  rintro ⟨before, kind, text, heq, hk⟩
  have hm : .token kind text ∈ rawPieces left right body := by
    rw [heq]
    simp
  obtain rfl : kind = .raw := kind_of_mem_rawPieces hm
  simp at hk

theorem splitBraces_local {tilde : Bool} {source before after : List Char}
    (h : splitAtMark ['{', '{'] source = (before, braces tilde ++ after)) (after' : List Char) :
    splitAtMark ['{', '{'] (before ++ (braces tilde ++ after')) = (before, braces tilde ++ after') := by
  have whole := splitAtMark_append ['{', '{'] source
  rw [h] at whole
  cases tilde with
  | false => exact splitAtMark_local (by simp) (whole.symm ▸ h) after'
  | true => exact splitAtMark_local (r := '~' :: after) (by simp) (whole.symm ▸ h) ('~' :: after')

theorem Clean.append {a b : List Lexeme} : Clean (a ++ b) ↔ Clean a ∧ Clean b := by
  simp only [Clean, List.mem_append, not_or]
  exact ⟨fun h => ⟨fun f t => (h f t).1, fun f t => (h f t).2⟩, fun h f t => ⟨h.1 f t, h.2 f t⟩⟩

theorem scanText_local {trim : Bool} {source r' : List Char} (hclean : Clean (scanText trim source).lexemes)
    (hr : (scanText trim source).Allows r') :
    scanText trim (texts (scanText trim source).lexemes ++ r') = (scanText trim source).leaving r' := by
  cases textCase source with
  | last h =>
    rw [scanText_last trim h] at *
    obtain rfl : r' = [] := by simpa using hr.resolve_right (not_sealed_rawPieces _ _ _)
    rw [texts_rawPieces, List.append_nil, scanText_last trim h]
    rfl
  | @escaped before after h he =>
    rw [scanText_escaped trim h he] at *
    obtain ⟨mark, -, htexts, hlocal⟩ :=
      scanEscaped_local (hr.imp_right fun hs => hs.of_append (by simp [scanEscaped_braces]))
    rw [texts_append, texts_piecesBefore, htexts, List.append_assoc, List.append_assoc,
      scanText_escaped trim (splitBraces_local h _) he, hlocal]
    rfl
  | @marker tilde before after h he ha =>
    rw [scanText_marker trim h he ha] at *
    obtain ⟨kind, text, ho⟩ := scanMarker_opens ha
    obtain ⟨mark, -, htexts, hhead, hlocal⟩ := scanMarker_local (Clean.append.mp hclean).2
      (hr.imp_right fun hs => hs.of_append (by simp [ho.lexemes]))
    rw [texts_append, texts_piecesBefore, htexts, List.append_assoc, List.append_assoc,
      scanText_marker trim (splitBraces_local h _) he (fun ht => hhead ▸ ha ht), hlocal]
    rfl

/-! ## Steps inside a tag -/

theorem scanWord_brace {c : Char} (hc : c = '{' ∨ c = '}' ∨ c = '~') (rest : List Char) :
    scanWord c rest = (.token (.invalid .unexpectedCharacter) [c], rest) := by
  rcases hc with rfl | rfl | rfl
  all_goals rfl

theorem closing?_eq_none {c : Char} (hc : c ≠ '}' ∧ c ≠ '~') (expected : Closer) (rest : List Char) :
    closing? expected (c :: rest) = none := by
  unfold closing?
  split <;> simp_all

theorem scan_word {c : Char} (hc : c ≠ '{' ∧ c ≠ '}' ∧ c ≠ '~') (expected : Closer) (cs : List Char) :
    scan (.tag expected) (c :: cs) = (scanWord c cs).1 :: scan (.tag expected) (scanWord c cs).2 := by
  have hbraces : ¬ ['{', '{'] <+: c :: cs := by
    rintro ⟨rest, h⟩
    exact hc.1 (List.cons.inj h).1.symm
  rw [scan_of_ne_nil _ (List.cons_ne_nil c cs), scanStep, scanTag_word (closing?_eq_none hc.2 _ _) hbraces]
  rfl

theorem head?_append_local {a r r' : List Char} (h : r'.head? = r.head?) : (a ++ r').head? = (a ++ r).head? := by
  cases a with
  | nil => exact h
  | cons c a => rfl

/-- The characters that the lexeme does not end before. -/
def goesOn : Lexeme → Char → Bool
  | .gap .., c => Text.isBlank c
  | .token .number _, c => isNumeral c
  | .token .path _, c | .token .elseKeyword _, c | .token .trueLiteral _, c | .token .falseLiteral _, c
  | .token .nullLiteral _, c => isPathInner c
  | .token .., _ => false

theorem goesOn_wordKind (word text : List Char) : goesOn (.token (wordKind word) text) = isPathInner := by
  unfold wordKind
  repeat' split
  all_goals rfl

theorem goesOn_punctuation {c : Char} {kind : Token.Kind} (h : punctuation? c = some kind) (text : List Char) (d : Char) :
    goesOn (.token kind text) d = false := by
  unfold punctuation? at h
  split at h
  all_goals simp at h
  all_goals subst h; rfl

theorem isNumber_takeWhile {c : Char} {rest : List Char}
    (h : (c.isDigit || (c = '-' && rest.head?.any Char.isDigit)) = true) (r' : List Char) :
    (c.isDigit || (c = '-' && (rest.takeWhile isNumeral ++ r').head?.any Char.isDigit)) = true := by
  cases rest with
  | nil =>
    have hc : c.isDigit = true := by simpa using h
    rw [hc, Bool.true_or]
  | cons d rest =>
    by_cases hd : isNumeral d = true
    · simpa [hd] using h
    · have hdigit : d.isDigit = false := by
        rw [isNumeral, Bool.or_eq_true, not_or] at hd
        exact Bool.eq_false_iff.mpr hd.1
      have hc : c.isDigit = true := by simpa [hdigit] using h
      rw [hc, Bool.true_or]

/-- A lexeme inside a tag is the same in front of any text that does not go on it. -/
theorem exists_word {c : Char} {rest : List Char} (hclean : Clean [(scanWord c rest).1]) :
    (∀ d ∈ (scanWord c rest).2.head?, goesOn (scanWord c rest).1 d = false) ∧
      ∃ word, (scanWord c rest).1.text = c :: word ∧
        ∀ r' : List Char, (∀ d ∈ r'.head?, goesOn (scanWord c rest).1 d = false) →
          scanWord c (word ++ r') = ((scanWord c rest).1, r') := by
  unfold scanWord at hclean ⊢
  cases hp : punctuation? c with
  | some kind => exact ⟨fun d _ => goesOn_punctuation hp _ d, [], rfl, fun _ _ => rfl⟩
  | none =>
    simp only [hp] at hclean ⊢
    by_cases hq : (c = '\x22' || c = '\x27') = true
    · simp only [hq, if_true] at hclean ⊢
      cases hs : splitQuoted c rest with
      | none => simp [hs, Clean] at hclean
      | some found =>
        obtain ⟨body, after⟩ := found
        have hc : c ≠ '\\' := by rintro rfl; simp at hq
        exact ⟨fun _ _ => rfl, body, rfl, fun r' _ => by rw [splitQuoted_local hc hs r']⟩
    simp only [hq, Bool.false_eq_true, if_false] at hclean ⊢
    by_cases hd : (c.isDigit || (c = '-' && rest.head?.any Char.isDigit)) = true
    · obtain ⟨hhead, hlocal⟩ := takeWhile_local isNumeral rest
      simp only [hd, if_true]
      refine ⟨hhead, _, rfl, fun r' hr => ?_⟩
      obtain ⟨ht, hdrop⟩ := hlocal r' hr
      rw [if_pos (isNumber_takeWhile hd r'), ht, hdrop]
    have hdigit : c.isDigit = false := by
      refine Bool.eq_false_iff.mpr fun h => hd ?_
      rw [h, Bool.true_or]
    simp only [hd, Bool.false_eq_true, if_false] at hclean ⊢
    by_cases hb : Text.isBlank c = true
    · have hminus : c ≠ '-' := by rintro rfl; exact absurd hb (by decide)
      simp only [hb, hdigit, hminus, if_true, decide_false, Bool.false_and, Bool.or_false, Bool.false_eq_true, if_false]
      obtain ⟨hhead, hlocal⟩ := takeWhile_local Text.isBlank rest
      refine ⟨hhead, _, rfl, fun r' hr => ?_⟩
      obtain ⟨ht, hdrop⟩ := hlocal r' hr
      rw [ht, hdrop]
    simp only [hb, Bool.false_eq_true, if_false] at hclean ⊢
    by_cases hs : isPathStart c = true
    · have hminus : c ≠ '-' := by rintro rfl; exact absurd hs (by decide)
      simp only [hs, hdigit, hminus, if_true, decide_false, Bool.false_and, Bool.or_false, Bool.false_eq_true, if_false]
        at hclean ⊢
      rcases h : splitPath (c == '[') rest with ⟨word, after, bracket⟩
      simp only [h] at hclean ⊢
      cases bracket with
      | true => simp [Clean] at hclean
      | false =>
        obtain ⟨hhead, hlocal⟩ := splitPath_local h
        simp only [Bool.false_eq_true, if_false, goesOn_wordKind]
        exact ⟨hhead, word, rfl, fun r' hr => by rw [hlocal r' hr]; rfl⟩
    · simp [hs, Clean] at hclean

theorem scanWord_local {c : Char} {rest r' : List Char} (hclean : Clean [(scanWord c rest).1])
    (hr : r'.head? = (scanWord c rest).2.head?) :
    ∃ word, (scanWord c rest).1.text = c :: word ∧ scanWord c (word ++ r') = ((scanWord c rest).1, r') := by
  obtain ⟨hhead, word, htext, hscan⟩ := exists_word hclean
  exact ⟨word, htext, hscan r' (hr ▸ hhead)⟩

theorem scanTag_local {expected : Closer} {source r' : List Char} (hs : source ≠ [])
    (hclean : Clean (scanTag expected source).lexemes) (hr : (scanTag expected source).Allows r') :
    scanTag expected (texts (scanTag expected source).lexemes ++ r') = (scanTag expected source).leaving r' := by
  cases tagCase expected hs with
  | @closing closer trim _ marker rest h =>
    obtain rfl := closing?_marker h
    rw [scanTag_closing h] at *
    split at hclean
    · rename_i he
      subst he
      have hlocal : closing? closer (closer.marker trim ++ r') = some (closer, trim, closer.marker trim, r') := by
        cases closer <;> cases trim <;> rfl
      simp only [if_true, texts_cons, texts_nil, text, List.append_nil]
      rw [scanTag_closing hlocal, if_pos rfl]
      rfl
    · simp [Clean] at hclean
  | unclosed h =>
    rw [scanTag_unclosed h] at hclean
    simp [Clean] at hclean
  | @word c rest h hb =>
    rw [scanTag_word h hb] at *
    have hc : c ≠ '{' ∧ c ≠ '}' ∧ c ≠ '~' := by
      refine ⟨?_, ?_, ?_⟩ <;> rintro rfl <;> simp [scanWord_brace, Clean] at hclean
    have hhead : r'.head? = (scanWord c rest).2.head? := by
      refine hr.resolve_right fun hsealed => ?_
      rcases scanWord_cases c rest with ⟨blanks, hw, -⟩ | ⟨kind, text, hw, -, hinner⟩
      · rw [hw] at hsealed
        obtain ⟨before, kind, text, heq, -⟩ := hsealed
        cases before <;> simp at heq
      · rw [hw] at hsealed
        rcases hsealed.kind with rfl | rfl | rfl <;> cases hinner
    obtain ⟨word, hword, hlocal⟩ := scanWord_local hclean hhead
    have hnone := closing?_eq_none hc.2 expected (word ++ r')
    simp only [texts_cons, texts_nil, List.append_nil, hword, List.cons_append]
    rw [scanTag_word hnone (by simp [Ne.symm hc.1]), hlocal]
    rfl

theorem scanStep_local {mode : Mode} {source r' : List Char} (hs : source ≠ [])
    (hclean : Clean (scanStep mode source).lexemes) (hr : (scanStep mode source).Allows r') :
    scanStep mode (texts (scanStep mode source).lexemes ++ r') = (scanStep mode source).leaving r' := by
  cases mode with
  | text trim => exact scanText_local hclean hr
  | tag expected => exact scanTag_local hs hclean hr

theorem last_of_append_eq {ls before : List Lexeme} {l : Lexeme} {kind : Token.Kind} {text : List Char}
    (h : ls ++ [l] = before ++ [.token kind text]) : l = .token kind text := by
  simpa using (List.append_inj' h rfl).2

theorem mode_of_place {kind : Token.Kind} {text : List Char}
    (hk : kind = .endExpression ∨ kind = .endRaw ∨ kind = .comment) {m : Mode}
    (hm : Place.text.behind kind text = Place.ofMode m) : m = .text (kind.trimsAfter text) := by
  have hplace : Place.text.behind kind text = if kind.trimsAfter text then .marker else .text := by
    rcases hk with rfl | rfl | rfl <;> simp [Place.behind, Token.Kind.opensTag]
  rw [hplace] at hm
  cases m with
  | text trim => cases trim <;> cases ht : kind.trimsAfter text <;> simp [Place.ofMode, ht] at hm ⊢
  | tag closer => cases ht : kind.trimsAfter text <;> simp [Place.ofMode, ht] at hm

theorem mode_of_scanText {trim : Bool} {source : List Char} {before : List Lexeme} {kind : Token.Kind}
    {text : List Char} (h : (scanText trim source).lexemes = before ++ [.token kind text])
    (hk : kind = .endExpression ∨ kind = .endRaw ∨ kind = .comment) :
    (scanText trim source).mode = .text (kind.trimsAfter text) := by
  cases textCase source with
  | last hcase =>
    rw [scanText_last trim hcase] at h
    exact (not_sealed_rawPieces _ _ _ ⟨before, kind, text, h, hk⟩).elim
  | escaped hcase he =>
    rw [scanText_escaped trim hcase he, scanEscaped_braces] at h
    obtain ⟨rfl, -⟩ := Lexeme.token.inj (last_of_append_eq h)
    simp at hk
  | marker hcase he ha =>
    rw [scanText_marker trim hcase he ha] at h ⊢
    obtain ⟨kind', text', ho⟩ := scanMarker_opens ha
    rw [ho.lexemes] at h
    obtain ⟨rfl, rfl⟩ := Lexeme.token.inj (last_of_append_eq h)
    exact mode_of_place hk (ho.place .text (by simp))

theorem mode_of_scanTag {expected : Closer} {source : List Char} (hs : source ≠ []) {before : List Lexeme}
    {kind : Token.Kind} {text : List Char} (h : (scanTag expected source).lexemes = before ++ [.token kind text])
    (hk : kind = .endExpression ∨ kind = .endRaw ∨ kind = .comment) :
    (scanTag expected source).mode = .text (kind.trimsAfter text) := by
  have hsingle {l : Lexeme} (heq : [l] = before ++ [.token kind text]) : l = .token kind text :=
    last_of_append_eq ((List.nil_append _).trans heq)
  cases tagCase expected hs with
  | @closing closer trim _ marker rest hcase =>
    obtain rfl := closing?_marker hcase
    rw [scanTag_closing hcase] at h ⊢
    by_cases he : closer = expected
    · rw [if_pos he] at h ⊢
      obtain ⟨rfl, rfl⟩ := Lexeme.token.inj (hsingle h)
      cases closer <;> cases trim <;> rfl
    · rw [if_neg he] at h
      obtain ⟨rfl, -⟩ := Lexeme.token.inj (hsingle h)
      simp at hk
  | unclosed hcase =>
    rw [scanTag_unclosed hcase] at h
    obtain ⟨rfl, -⟩ := Lexeme.token.inj (hsingle h)
    simp at hk
  | word hcase hb =>
    rw [scanTag_word hcase hb] at h
    have hw := hsingle h
    rcases scanWord_cases _ _ with ⟨blanks, hw', -⟩ | ⟨kind', text', hw', -, hinner⟩
    · rw [hw'] at hw
      cases hw
    · rw [hw'] at hw
      obtain ⟨rfl, -⟩ := Lexeme.token.inj hw
      rcases hk with rfl | rfl | rfl <;> cases hinner

theorem mode_of_sealed {mode : Mode} {source : List Char} (hs : source ≠ []) {before : List Lexeme}
    {kind : Token.Kind} {text : List Char} (h : (scanStep mode source).lexemes = before ++ [.token kind text])
    (hk : kind = .endExpression ∨ kind = .endRaw ∨ kind = .comment) :
    (scanStep mode source).mode = .text (kind.trimsAfter text) := by
  cases mode with
  | text trim => exact mode_of_scanText h hk
  | tag expected => exact mode_of_scanTag hs h hk

theorem scanStep_pieces (mode : Mode) {source : List Char} (hs : source ≠ []) :
    ∃ pieces last, (scanStep mode source).lexemes = pieces ++ last ∧ last.length ≤ 1 ∧
      ∀ kind text, .token kind text ∈ pieces → kind = .raw := by
  cases mode with
  | text trim =>
    cases textCase source with
    | last h =>
      rw [scanStep, scanText_last trim h]
      exact ⟨_, [], (List.append_nil _).symm, by simp, fun _ _ => kind_of_mem_rawPieces⟩
    | escaped h he =>
      rw [scanStep, scanText_escaped trim h he]
      exact ⟨_, _, rfl, by simp [scanEscaped_braces], fun _ _ => kind_of_mem_piecesBefore⟩
    | marker h he ha =>
      obtain ⟨kind, text, ho⟩ := scanMarker_opens ha
      rw [scanStep, scanText_marker trim h he ha]
      exact ⟨_, _, rfl, by simp [ho.lexemes], fun _ _ => kind_of_mem_piecesBefore⟩
  | tag expected =>
    refine ⟨[], _, rfl, ?_, by simp⟩
    cases tagCase expected hs with
    | closing h => rw [scanStep, scanTag_closing h]; split <;> simp
    | unclosed h => simp [scanStep, scanTag_unclosed h]
    | word h hb => simp [scanStep, scanTag_word h hb]

theorem eq_nil_of_scanStep {mode : Mode} {source : List Char} (hs : source ≠ []) {a b : List Lexeme}
    {kind : Token.Kind} {text : List Char} (h : (scanStep mode source).lexemes = a ++ .token kind text :: b)
    (hk : kind ≠ .raw) : b = [] := by
  obtain ⟨pieces, last, heq, hlast, hpieces⟩ := scanStep_pieces mode hs
  rw [heq] at h
  rcases List.append_eq_append_iff.mp h with ⟨c, -, hc⟩ | ⟨c, hc, -⟩
  · rw [hc] at hlast
    cases c <;> simp_all
  · cases c with
    | nil => simp_all
    | cons l c =>
      have hm : .token kind text ∈ pieces := by simp_all
      exact absurd (hpieces kind text hm) hk

/-! ## Whole scans -/

/-- Steps of a scan lead from the first mode and text to the second, and read the lexemes. -/
inductive Reaches : Mode → List Char → List Lexeme → Mode → List Char → Prop
  | here {mode : Mode} {source : List Char} : Reaches mode source [] mode source
  | step {mode m : Mode} {source s : List Char} {ls : List Lexeme} : source ≠ [] →
    Reaches (scanStep mode source).mode (scanStep mode source).rest ls m s →
    Reaches mode source ((scanStep mode source).lexemes ++ ls) m s

theorem Reaches.scan_eq {mode m : Mode} {source s : List Char} {ls : List Lexeme}
    (h : Reaches mode source ls m s) : scan mode source = ls ++ scan m s := by
  induction h with
  | here => rfl
  | step hs _ ih => rw [scan_of_ne_nil _ hs, ih, List.append_assoc]

theorem Reaches.texts_append {mode m : Mode} {source s : List Char} {ls : List Lexeme}
    (h : Reaches mode source ls m s) : texts ls ++ s = source := by
  have := texts_scan mode source
  rw [h.scan_eq, Lexeme.texts_append, texts_scan] at this
  exact this

theorem Reaches.replace {mode m : Mode} {source s : List Char} {ls : List Lexeme}
    (h : Reaches mode source ls m s) (hclean : Clean ls) {s' : List Char} (hs' : s'.head? = s.head?) :
    Reaches mode (texts ls ++ s') ls m s' := by
  induction h with
  | here => exact .here
  | @step mode m source s ls hs hr ih =>
    obtain ⟨hstep, hmore⟩ := Clean.append.mp hclean
    have hhead : (texts ls ++ s').head? = (scanStep mode source).rest.head? := by
      rw [head?_append_local hs', hr.texts_append]
    have hlocal := scanStep_local hs hstep (.inl hhead)
    have hne : texts (scanStep mode source).lexemes ++ (texts ls ++ s') ≠ [] := by
      simp [texts_scanStep_ne_nil mode hs]
    have hstep' : Reaches mode (texts (scanStep mode source).lexemes ++ (texts ls ++ s'))
        ((scanStep mode (texts (scanStep mode source).lexemes ++ (texts ls ++ s'))).lexemes ++ ls) m s' :=
      .step hne (by rw [hlocal]; exact ih hmore hs')
    rw [hlocal] at hstep'
    rw [Lexeme.texts_append, List.append_assoc]
    exact hstep'

theorem exists_reaches {mode : Mode} {source : List Char} {a b : List Lexeme} {kind : Token.Kind} {text : List Char}
    (h : scan mode source = a ++ .token kind text :: b) (hk : kind ≠ .raw) :
    ∃ before inner m s, a = before ++ inner ∧ Reaches mode source before m s ∧ s ≠ [] ∧
      (scanStep m s).lexemes = inner ++ [.token kind text] ∧ b = scan (scanStep m s).mode (scanStep m s).rest := by
  fun_induction scan mode source generalizing a with
  | case1 => simp at h
  | case2 mode source hs ih =>
    rcases List.append_eq_append_iff.mp h with ⟨c, rfl, hc⟩ | ⟨c, hc, hrest⟩
    · obtain ⟨before, inner, m, s, rfl, hr, hne, hlex, hb⟩ := ih hc
      exact ⟨_, inner, m, s, (List.append_assoc ..).symm, .step hs hr, hne, hlex, hb⟩
    · cases c with
      | nil =>
        obtain ⟨before, inner, m, s, hinner, hr, hne, hlex, hb⟩ := ih (a := []) hrest.symm
        obtain ⟨rfl, rfl⟩ := List.append_eq_nil_iff.mp hinner.symm
        exact ⟨_, [], m, s, by simpa using hc.symm, .step hs hr, hne, hlex, hb⟩
      | cons l c =>
        obtain ⟨rfl, rfl⟩ := List.cons.inj hrest
        obtain rfl := eq_nil_of_scanStep hs hc hk
        exact ⟨[], a, mode, source, rfl, .here, hs, hc, rfl⟩

/-- Behind a tag or a comment a scan begins anew. -/
theorem scan_resume {mode : Mode} {source : List Char} {a b : List Lexeme} {kind : Token.Kind} {text : List Char}
    (h : scan mode source = a ++ .token kind text :: b)
    (hk : kind = .endExpression ∨ kind = .endRaw ∨ kind = .comment) :
    b = scan (.text (kind.trimsAfter text)) (texts b) := by
  obtain ⟨before, inner, m, s, -, -, hs, hlex, rfl⟩ := exists_reaches h (by rintro rfl; simp at hk)
  rw [texts_scan, mode_of_sealed hs hlex hk]

/-- Where a step is the same in front of another text, so is the scan up to there. -/
theorem Reaches.scan_leaving {mode m : Mode} {source s : List Char} {ls : List Lexeme} (h : Reaches mode source ls m s)
    (hs : s ≠ []) (hclean : Clean ls) {r' : List Char}
    (hstep : scanStep m (texts (scanStep m s).lexemes ++ r') = (scanStep m s).leaving r') :
    scan mode (texts ls ++ (texts (scanStep m s).lexemes ++ r')) =
      ls ++ ((scanStep m s).lexemes ++ scan (scanStep m s).mode r') := by
  have whole : texts (scanStep m s).lexemes ++ (scanStep m s).rest = s := scanStep_covers m s
  obtain ⟨c, cs, hcs⟩ := List.exists_cons_of_ne_nil (texts_scanStep_ne_nil m hs)
  have hhead : (texts (scanStep m s).lexemes ++ r').head? = s.head? := by
    refine Eq.trans ?_ (congrArg List.head? whole)
    rw [hcs]
    rfl
  have hne : texts (scanStep m s).lexemes ++ r' ≠ [] := by simp [hcs]
  rw [(h.replace hclean hhead).scan_eq, scan_of_ne_nil m hne, hstep]
  rfl

/-- A text that ends with a tag or a comment is scanned for itself. -/
theorem scan_append {mode : Mode} {source : List Char} {a : List Lexeme} {kind : Token.Kind} {text : List Char}
    (h : scan mode source = a ++ [.token kind text])
    (hk : kind = .endExpression ∨ kind = .endRaw ∨ kind = .comment) (hclean : Clean (scan mode source))
    (rest : List Char) :
    scan mode (source ++ rest) = scan mode source ++ scan (.text (kind.trimsAfter text)) rest := by
  obtain ⟨before, inner, m, s, rfl, hr, hs, hlex, hb⟩ := exists_reaches h (by rintro rfl; simp at hk)
  have hrest : (scanStep m s).rest = [] := by
    rw [← texts_scan (scanStep m s).mode (scanStep m s).rest, ← hb]
    rfl
  have whole : texts (scanStep m s).lexemes ++ (scanStep m s).rest = s := scanStep_covers m s
  rw [hrest, List.append_nil] at whole
  rw [hr.scan_eq, scan_of_ne_nil m hs, hrest, scan_nil, List.append_nil] at hclean ⊢
  obtain ⟨hbefore, hstep⟩ := Clean.append.mp hclean
  have hallows : (scanStep m s).Allows rest := .inr ⟨inner, kind, text, hlex, hk⟩
  have hscan := hr.scan_leaving hs hbefore (scanStep_local hs hstep hallows)
  rw [whole, mode_of_sealed hs hlex hk] at hscan
  rw [← hr.texts_append, List.append_assoc, hscan, List.append_assoc]

/-! ## Cutting before a tag -/

theorem scan_marker {trim : Bool} {source before after : List Char}
    (h : splitAtMark ['{', '{'] source = (before, braces false ++ after)) (he : Ending.of before ≠ .escape)
    (ha : after.head? ≠ some '~') :
    scan (.text trim) source = piecesBefore trim false before ++ scan (.text false) (braces false ++ after) := by
  have hself : splitAtMark ['{', '{'] (braces false ++ after) = ([], braces false ++ after) := by
    simp [braces, splitAtMark, List.isPrefixOf]
  have hne : source ≠ [] := by
    rintro rfl
    simp [splitAtMark, braces] at h
  have hstep (trim : Bool) (source before : List Char)
      (h : splitAtMark ['{', '{'] source = (before, braces false ++ after)) (he : Ending.of before ≠ .escape) :
      scanStep (.text trim) source =
        ⟨piecesBefore trim false before ++ (scanMarker (braces false) after).lexemes,
          (scanMarker (braces false) after).mode, (scanMarker (braces false) after).rest⟩ :=
    scanText_marker trim h he fun _ => ha
  have hne' : braces false ++ after ≠ [] := by simp [braces]
  rw [scan_of_ne_nil (.text trim) hne, hstep trim source before h he, scan_of_ne_nil (.text false) hne',
    hstep false _ [] hself (by decide)]
  simp [show piecesBefore false false [] = [] from rfl]

theorem scan_braces {after : List Char} (ha : after.head? ≠ some '~') :
    scan (.text false) (braces false ++ after) =
      (scanMarker (braces false) after).lexemes ++ scan (scanMarker (braces false) after).mode
        (scanMarker (braces false) after).rest := by
  have hself : splitAtMark ['{', '{'] (braces false ++ after) = ([], braces false ++ after) := by
    simp [braces, splitAtMark, List.isPrefixOf]
  rw [scan_of_ne_nil _ (by simp [braces]), scanStep, scanText_marker false hself (by decide) fun _ => ha]
  rfl

theorem scan_expression {after : List Char} (h : ∀ c ∈ after.head?, c ≠ '~' ∧ c ≠ '!' ∧ c ≠ '{' ∧ c ≠ '&') :
    scan (.text false) (braces false ++ after) =
      .token .beginExpression (braces false) :: scan (.tag .double) after := by
  rw [scan_braces fun ha => (h '~' ha).1 rfl, scanMarker_plain _ fun c hc => (h c hc).2]
  rfl

theorem scan_raw (after : List Char) :
    scan (.text false) (braces false ++ ('{' :: after)) =
      .token .beginRaw (braces false ++ ['{']) :: scan (.tag .triple) after := by
  rw [scan_braces (by simp)]
  rfl

theorem opensTag_of_mem_scanTag {expected : Closer} {source : List Char} (hs : source ≠ []) {kind : Token.Kind}
    {text : List Char} (h : .token kind text ∈ (scanTag expected source).lexemes) : kind.opensTag = false := by
  cases tagCase expected hs with
  | @closing closer trim _ marker rest hcase =>
    rw [scanTag_closing hcase] at h
    split at h
    · obtain ⟨rfl, -⟩ := Lexeme.token.inj (List.mem_singleton.mp h)
      cases closer <;> rfl
    · obtain ⟨rfl, -⟩ := Lexeme.token.inj (List.mem_singleton.mp h)
      rfl
  | unclosed hcase =>
    rw [scanTag_unclosed hcase] at h
    obtain ⟨rfl, -⟩ := Lexeme.token.inj (List.mem_singleton.mp h)
    rfl
  | @word c rest hcase hb =>
    rw [scanTag_word hcase hb] at h
    have hl := List.mem_singleton.mp h
    rcases scanWord_cases c rest with ⟨blanks, hw, -⟩ | ⟨kind', text', hw, -, hinner⟩
    · rw [hw] at hl
      cases hl
    · rw [hw] at hl
      obtain ⟨rfl, -⟩ := Lexeme.token.inj hl
      cases kind <;> first | rfl | cases hinner

/-- Behind plain text, the opening marker of a tag may begin any other text with braces. -/
theorem scan_cut {mode : Mode} {source : List Char} {a b : List Lexeme}
    (h : scan mode source = a ++ .token .beginExpression (braces false) :: b) (hclean : Clean a)
    {rest : List Char} (hrest : rest.head? ≠ some '~') :
    scan mode (texts a ++ (braces false ++ rest)) = a ++ scan (.text false) (braces false ++ rest) := by
  obtain ⟨before, inner, m, s, rfl, hr, hs, hlex, -⟩ := exists_reaches h (by simp)
  cases m with
  | tag expected =>
    have hm : .token .beginExpression (braces false) ∈ (scanTag expected s).lexemes := by
      rw [show (scanTag expected s).lexemes = _ from hlex]
      simp
    cases opensTag_of_mem_scanTag hs hm
  | text trim =>
    cases textCase s with
    | last hcase =>
      rw [scanStep, scanText_last trim hcase] at hlex
      have hm : .token .beginExpression (braces false) ∈ rawPieces trim false s := by
        rw [show rawPieces trim false s = _ from hlex]
        simp
      cases kind_of_mem_rawPieces hm
    | escaped hcase he =>
      rw [scanStep, scanText_escaped trim hcase he, scanEscaped_braces] at hlex
      have := (List.append_inj' hlex rfl).2
      simp at this
    | @marker tilde pre after hcase he ha =>
      obtain ⟨kind, text, ho⟩ := scanMarker_opens ha
      have hsplit := splitAtMark_append ['{', '{'] s
      rw [scanStep, scanText_marker trim hcase he ha, ho.lexemes] at hlex
      obtain ⟨rfl, hl⟩ := List.append_inj' hlex rfl
      obtain ⟨rfl, rfl⟩ := by simpa using hl
      obtain rfl : tilde = false := ho.trims.symm
      rw [hcase] at hsplit
      have hhead : (pre ++ (braces false ++ rest)).head? = s.head? := by
        rw [← hsplit]
        exact head?_append_local rfl
      have hreach := hr.replace (Clean.append.mp hclean).1 hhead
      rw [texts_append, texts_piecesBefore, List.append_assoc, hreach.scan_eq,
        scan_marker (splitBraces_local hcase rest) he hrest, List.append_assoc]

end Curly.Lexeme
