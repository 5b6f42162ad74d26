import Curly.Proofs.Grammar.Tag
import Curly.Proofs.Scan.Markers
import Curly.Proofs.Written.Literal

/-!
# Strings between quotes

A string ends at the first quote of its kind that no backslash escapes. Both the scan
and the reader count the escapes from the left, so the reader of a string finds each
backslash with a character behind it, and can only fail for an escape that has no
meaning (`Token.quoted_signs`).
-/

namespace Curly

/-! ## Signs -/

/-- What a text between quotes consists of. -/
inductive Sign where
  | plain (c : Char)
  /-- A backslash and the character behind it. -/
  | escape (c : Char)
  /-- A backslash with nothing behind it. -/
  | dangling
deriving DecidableEq

def signs : List Char → List Sign
  | [] => []
  | ['\\'] => [.dangling]
  | '\\' :: c :: rest => .escape c :: signs rest
  | c :: rest => .plain c :: signs rest

/-- The characters that have a meaning behind a backslash, and what they stand for there. -/
def escapes : List (Char × Char) :=
  [('n', '\n'), ('r', '\r'), ('t', '\t'), ('\\', '\\'), ('\x22', '\x22'), ('\x27', '\x27')]

def Sign.denoted : Sign → Option Char
  | .plain c => some c
  | .escape c => escapes.lookup c
  | .dangling => none

theorem signs_cons {c : Char} (hc : c ≠ '\\') (rest : List Char) : signs (c :: rest) = .plain c :: signs rest := by
  rw [signs]
  all_goals simp [hc]

theorem signs_induction {P : List Char → Prop} (nil : P []) (dangling : P ['\\'])
    (escape : ∀ c rest, P rest → P ('\\' :: c :: rest)) (plain : ∀ c rest, c ≠ '\\' → P rest → P (c :: rest))
    (text : List Char) : P text := by
  fun_induction signs text with
  | case1 => exact nil
  | case2 => exact dangling
  | case3 c rest ih => exact escape c rest ih
  | case4 c rest hend hmore ih =>
    refine plain c rest ?_ ih
    rintro rfl
    cases rest with
    | nil => exact hend rfl rfl
    | cons d rest => exact hmore d rest rfl rfl

theorem lookup_escapes_eq_none_iff {c : Char} : escapes.lookup c = none ↔ c ∉ escapes.map Prod.fst := by
  rw [List.lookup_eq_none_iff, List.mem_map]
  constructor
  · rintro h ⟨p, hp, rfl⟩
    simpa using h p hp
  · intro h p hp
    simpa using fun he => h ⟨p, hp, Eq.symm he⟩

theorem unescape?_eq (c : Char) : Reading.unescape? c = escapes.lookup c := by
  unfold Reading.unescape?
  split
  case h_7 hn hr ht hback hdouble hsingle =>
    have hother : c ∉ escapes.map Prod.fst := by simpa [escapes] using ⟨hn, hr, ht, hback, hdouble, hsingle⟩
    exact (lookup_escapes_eq_none_iff.mpr hother).symm
  all_goals rfl

namespace Reading

theorem unescape_cons {c : Char} (hc : c ≠ '\\') (rest : List Char) :
    unescape (c :: rest) = (unescape rest).map (c :: ·) := by
  rw [unescape]
  all_goals simp [hc]

theorem map_cons_eq_some_iff {d : Char} {read : Option (List Char)} {denoted : List (Option Char)}
    (h : ∀ {out}, read = some out ↔ denoted = out.map some) {out : List Char} :
    read.map (d :: ·) = some out ↔ some d :: denoted = out.map some := by
  cases out with
  | nil => simp
  | cons c out =>
    simp only [Option.map_eq_some_iff, h, List.map_cons, List.cons.injEq, Option.some.injEq]
    constructor
    · rintro ⟨tail, hdenoted, rfl, rfl⟩
      exact ⟨rfl, hdenoted⟩
    · rintro ⟨rfl, hdenoted⟩
      exact ⟨out, hdenoted, rfl, rfl⟩

theorem unescape_eq_some_iff {cs out : List Char} :
    unescape cs = some out ↔ (signs cs).map Sign.denoted = out.map some := by
  induction cs using signs_induction generalizing out with
  | nil => cases out <;> simp [unescape, signs]
  | dangling => cases out <;> simp [unescape, signs, Sign.denoted]
  | escape c rest ih =>
    rw [unescape, unescape?_eq, signs, List.map_cons, Sign.denoted]
    cases escapes.lookup c with
    | none => cases out <;> simp
    | some d => exact map_cons_eq_some_iff ih
  | plain c rest hc ih =>
    rw [unescape_cons hc, signs_cons hc, List.map_cons, Sign.denoted]
    exact map_cons_eq_some_iff ih

theorem unescape_eq_none_iff {cs : List Char} : unescape cs = none ↔ ∃ s ∈ signs cs, s.denoted = none := by
  induction cs using signs_induction with
  | nil => simp [unescape, signs]
  | dangling => simp [unescape, signs, Sign.denoted]
  | escape c rest ih =>
    rw [unescape, unescape?_eq, signs]
    cases h : escapes.lookup c with
    | none => simp [Sign.denoted, h]
    | some d => simp [Sign.denoted, h, ih]
  | plain c rest hc ih =>
    rw [unescape_cons hc, signs_cons hc]
    simp [Sign.denoted, ih]

theorem unescape_fails_iff {cs : List Char} (h : .dangling ∉ signs cs) :
    unescape cs = none ↔ ∃ c, .escape c ∈ signs cs ∧ c ∉ escapes.map Prod.fst := by
  rw [unescape_eq_none_iff]
  constructor
  · rintro ⟨s, hs, hnone⟩
    cases s with
    | plain c => cases hnone
    | escape c => exact ⟨c, hs, lookup_escapes_eq_none_iff.mp hnone⟩
    | dangling => exact absurd hs h
  · rintro ⟨c, hc, hunknown⟩
    exact ⟨.escape c, hc, lookup_escapes_eq_none_iff.mpr hunknown⟩

theorem quoted_error_iff {t : Token} {e : SyntaxError} :
    quoted t = .error e ↔ e = ⟨.escape, t.region⟩ ∧ unescape t.text.tail.dropLast = none := by
  unfold quoted
  cases unescape t.text.tail.dropLast <;> simp [eq_comm]

theorem quoted_ok_iff {t : Token} {s : String} : quoted t = .ok s ↔ unescape t.text.tail.dropLast = some s.toList := by
  unfold quoted
  cases unescape t.text.tail.dropLast with
  | none => simp
  | some text => simp [String.ext_iff]

end Reading

/-! ## The end of a string -/

namespace Lexeme

/-- The end of a quoted text, character by character: `escape` says that a backslash
before takes the meaning from the next one. -/
def splitFlagged (quote : Char) : Bool → List Char → Option (List Char × List Char)
  | _, [] => none
  | true, c :: rest => (splitFlagged quote false rest).map fun (q, r) => (c :: q, r)
  | false, c :: rest =>
    if c = '\\' then (splitFlagged quote true rest).map fun (q, r) => (c :: q, r)
    else if c = quote then some ([c], rest)
    else (splitFlagged quote false rest).map fun (q, r) => (c :: q, r)

variable {quote : Char}

theorem splitQuoted_escape (c : Char) (rest : List Char) :
    splitQuoted quote ('\\' :: c :: rest) = (splitQuoted quote rest).map fun (q, r) => ('\\' :: c :: q, r) := rfl

theorem splitQuoted_plain {c : Char} (hc : c ≠ '\\') (rest : List Char) :
    splitQuoted quote (c :: rest) =
      if c = quote then some ([c], rest) else (splitQuoted quote rest).map fun (q, r) => (c :: q, r) := by
  rw [splitQuoted]
  simp [hc]

theorem splitQuoted_dangling (hq : quote ≠ '\\') : splitQuoted quote ['\\'] = none := by
  rw [splitQuoted, if_neg (Ne.symm hq)]
  · rfl
  · simp

/-- Backslashes are paired with what is behind them in the same way by a flag. -/
theorem splitFlagged_eq (hq : quote ≠ '\\') (cs : List Char) : splitFlagged quote false cs = splitQuoted quote cs := by
  induction cs using signs_induction with
  | nil => rfl
  | dangling => exact (splitQuoted_dangling hq).symm
  | escape c rest ih =>
    rw [splitQuoted_escape, splitFlagged, if_pos rfl, splitFlagged, ih, Option.map_map]
    rfl
  | plain c rest hc ih => rw [splitQuoted_plain hc, splitFlagged, if_neg hc, ih]

theorem signs_of_splitQuoted (hq : quote ≠ '\\') {cs body rest : List Char}
    (h : splitQuoted quote cs = some (body, rest)) :
    ∃ inner, body = inner ++ [quote] ∧ .plain quote ∉ signs inner ∧ .dangling ∉ signs inner := by
  -- one step for each sign: a backslash takes the character behind it along
  induction cs using signs_induction generalizing body with
  | nil => cases h
  | dangling =>
    rw [splitQuoted_dangling hq] at h
    cases h
  | escape c cs ih =>
    rw [splitQuoted_escape, Option.map_eq_some_iff] at h
    obtain ⟨⟨q, r⟩, hsplit, heq⟩ := h
    obtain ⟨rfl, rfl⟩ := Prod.mk.inj heq
    obtain ⟨inner, rfl, hquote, hdangling⟩ := ih hsplit
    exact ⟨'\\' :: c :: inner, rfl, by simpa [signs] using hquote, by simpa [signs] using hdangling⟩
  | plain c cs hc ih =>
    rw [splitQuoted_plain hc] at h
    split at h
    · rename_i hcq
      obtain ⟨rfl, rfl⟩ := Prod.mk.inj (Option.some.inj h)
      exact ⟨[], by rw [hcq]; rfl, by simp [signs], by simp [signs]⟩
    · rename_i hcq
      obtain ⟨⟨q, r⟩, hsplit, heq⟩ := Option.map_eq_some_iff.mp h
      obtain ⟨rfl, rfl⟩ := Prod.mk.inj heq
      obtain ⟨inner, rfl, hquote, hdangling⟩ := ih hsplit
      refine ⟨c :: inner, rfl, ?_, ?_⟩
      · simpa [signs_cons hc, Ne.symm hcq] using hquote
      · simpa [signs_cons hc] using hdangling

theorem wordKind_ne_string (word : List Char) : wordKind word ≠ .string := by
  unfold wordKind
  repeat' split
  all_goals simp

theorem scanWord_string {c : Char} {rest text : List Char} (h : (scanWord c rest).1 = .token .string text) :
    isQuote c = true ∧ ∃ body after, text = c :: body ∧ splitQuoted c rest = some (body, after) := by
  unfold scanWord at h
  split at h
  · rename_i kind hp
    obtain ⟨rfl, -⟩ := Lexeme.token.inj h
    unfold punctuation? at hp
    split at hp <;> simp at hp
  split at h
  · rename_i hq
    refine ⟨by simpa [isQuote] using hq, ?_⟩
    cases hs : splitQuoted c rest with
    | none => simp [hs] at h
    | some found =>
      rw [hs] at h
      exact ⟨found.1, found.2, (Lexeme.token.inj h).2.symm, rfl⟩
  split at h
  · cases h
  split at h
  · cases h
  split at h
  · obtain ⟨hkind, -⟩ := Lexeme.token.inj h
    split at hkind
    · cases hkind
    · exact absurd hkind (wordKind_ne_string _)
  · cases h

end Lexeme

/-- The text of a string, read from the left, has no quote of its own kind that is not
escaped, and no backslash at its end. So a reader only fails if an escape has no meaning,
and else each sign is read as what it stands for. -/
theorem Token.quoted_signs {source : List Char} {t : Token} (ht : t ∈ Token.ofSource source) (hk : t.kind = .string) :
    ∃ quote inner, isQuote quote = true ∧ t.text = quote :: (inner ++ [quote]) ∧
      .plain quote ∉ signs inner ∧ .dangling ∉ signs inner ∧
      (∀ rest, Lexeme.splitFlagged quote false (inner ++ quote :: rest) = some (inner ++ [quote], rest)) ∧
      (∀ e, Reading.quoted t = .error e ↔
        e = ⟨.escape, t.region⟩ ∧ ∃ c, .escape c ∈ signs inner ∧ c ∉ escapes.map Prod.fst) ∧
      ∀ s, Reading.quoted t = .ok s ↔ (signs inner).map Sign.denoted = s.toList.map some := by
  obtain ⟨a, b, hls, -⟩ := Lexeme.mem_tokens ht
  have hscan : .token .string t.text ∈ Lexeme.scan (.text false) source := by
    rw [hls, hk]
    simp
  obtain ⟨quote, rest, hword⟩ := Lexeme.exists_scanWord hscan rfl (by simp)
  obtain ⟨hquote, body, after, htext, hsplit⟩ := Lexeme.scanWord_string hword
  have hback : quote ≠ '\\' := by
    rintro rfl
    cases hquote
  obtain ⟨inner, rfl, hplain, hdangling⟩ := Lexeme.signs_of_splitQuoted hback hsplit
  have hinner : t.text.tail.dropLast = inner := by rw [htext, List.tail_cons, List.dropLast_concat]
  refine ⟨quote, inner, hquote, htext, hplain, hdangling, ?_, ?_, ?_⟩
  · intro rest
    rw [Lexeme.splitFlagged_eq hback, List.append_cons]
    exact Lexeme.splitQuoted_local hback hsplit rest
  · intro e
    rw [Reading.quoted_error_iff, hinner, Reading.unescape_fails_iff hdangling]
  · intro s
    rw [Reading.quoted_ok_iff, hinner, Reading.unescape_eq_some_iff]

/-- An escaped quote and an escaped backslash in front of the last quote, and an escape without meaning. -/
theorem Token.quoted_signs_escapes :
    Reading.quoted ⟨.string, "'it\\'s \\\\'".toList, ⟨4, 14⟩⟩ = .ok "it's \\" ∧
      Reading.quoted ⟨.string, "\"\\q\"".toList, ⟨15, 19⟩⟩ = .error ⟨.escape, ⟨15, 19⟩⟩ := by
  generalize hsource : tagText "a 'it\\'s \\\\' \"\\q\"" = source
  have ht : ⟨.string, "'it\\'s \\\\'".toList, ⟨4, 14⟩⟩ ∈ Token.ofSource source.toList := by
    subst hsource
    decide +kernel
  have hu : ⟨.string, "\"\\q\"".toList, ⟨15, 19⟩⟩ ∈ Token.ofSource source.toList := by
    subst hsource
    decide +kernel
  constructor
  · obtain ⟨quote, inner, -, htext, -, -, -, -, hok⟩ := Token.quoted_signs ht rfl
    have hinner : inner = "it\\'s \\\\".toList := by
      have h := congrArg (·.tail.dropLast) htext
      simpa using h.symm
    rw [hok, hinner]
    decide
  · obtain ⟨quote, inner, -, htext, -, -, -, herror, -⟩ := Token.quoted_signs hu rfl
    have hinner : inner = "\\q".toList := by
      have h := congrArg (·.tail.dropLast) htext
      simpa using h.symm
    rw [herror, hinner]
    exact ⟨rfl, 'q', by decide, by decide⟩

end Curly
