import Curly.Proofs.Grammar.Expression
import Curly.Proofs.Written.Reads

/-!
# Written literals

An integer is written in decimal, and a string between quotes, with a backslash
before each backslash and each quote of the same kind. What is written is read
back as the same literal (`WritesLiteral.reads`).
-/

namespace Curly

/-! ## Integers -/

namespace Number

theorem le_ofDigitChars (ds : List Char) (s : Nat) : s ≤ Nat.ofDigitChars 10 ds s := by
  induction ds generalizing s with
  | nil => exact Nat.le_refl s
  | cons d ds ih =>
    rw [Nat.ofDigitChars_cons]
    exact Nat.le_trans (by omega) (ih _)

theorem collect_eq {ds : List Char} (hds : ∀ d ∈ ds, d.isDigit) (s : Nat)
    (hlt : Nat.ofDigitChars 10 ds s < UInt64.size) : collect s ds = (Nat.ofDigitChars 10 ds s, ds.length, []) := by
  induction ds generalizing s with
  | nil => rfl
  | cons d ds ih =>
    rw [Nat.ofDigitChars_cons] at hlt ⊢
    have hd : d.isDigit := hds d (List.mem_cons_self ..)
    have hsmall : 10 * s + digitValue d < UInt64.size := Nat.lt_of_le_of_lt (le_ofDigitChars ds _) hlt
    have htail := ih (fun d hd => hds d (List.mem_cons_of_mem _ hd)) _ hlt
    rw [collect, if_pos (by simp [hd, hsmall])]
    unfold digitValue
    rw [htail]
    rfl

theorem eq_zero_of_toDigits {n : Nat} {cs : List Char} (h : Nat.toDigits 10 n = '0' :: cs) : n = 0 := by
  induction n using Nat.strongRecOn generalizing cs with
  | ind n ih =>
    by_cases hn : n < 10
    · rw [Nat.toDigits_of_lt_base hn] at h
      exact Nat.digitChar_eq_zero.mp (List.cons.inj h).1
    · rw [Nat.toDigits_of_base_le (by decide) (by omega)] at h
      cases hd : Nat.toDigits 10 (n / 10) with
      | nil => exact absurd hd Nat.toDigits_ne_nil
      | cons d ds =>
        rw [hd, List.cons_append] at h
        obtain ⟨rfl, -⟩ := List.cons.inj h
        have := ih (n / 10) (by omega) hd
        omega

/-- The number that digits are read as, behind a minus or not. -/
def ofNatural : Bool → Nat → Number
  | false, n => .natural n.toUInt64
  | true, n => if n = 0 || UInt64.size < 2 * n then .real (-n.toUInt64.toFloat) else .negative (Int64.ofInt (-n))

theorem readUnsigned_toDigits (minus : Bool) {n : Nat} (hn : n < UInt64.size) :
    readUnsigned minus (Nat.toDigits 10 n) = some (ofNatural minus n, []) := by
  have hdigits : ∀ d ∈ Nat.toDigits 10 n, d.isDigit := fun d hd =>
    Nat.isDigit_of_mem_toDigits (by decide) (by decide) hd
  have hvalue : Nat.ofDigitChars 10 (Nat.toDigits 10 n) 0 = n := Nat.ofDigitChars_toDigits (by decide) (by decide)
  have hcollect := collect_eq hdigits 0 (hvalue.symm ▸ hn)
  rw [hvalue] at hcollect
  have hzero : ∀ cs, Nat.toDigits 10 n = '0' :: cs → cs = [] := by
    intro cs h
    have hn := eq_zero_of_toDigits h
    rw [hn] at h
    exact (List.cons.inj h).2.symm
  cases hd : Nat.toDigits 10 n with
  | nil => exact absurd hd Nat.toDigits_ne_nil
  | cons c cs =>
    have hc : c.isDigit := hdigits c (hd ▸ List.mem_cons_self ..)
    have hlead : (!c.isDigit || (c = '0' && cs.head?.any Char.isDigit)) = false := by
      rw [hc]
      by_cases h0 : c = '0'
      · subst h0
        rw [hzero cs hd]
        rfl
      · simp [h0]
    rw [hd] at hcollect
    have htail : (!([] : List Char).isEmpty || ([] : List Char).head? = some '.' || hasExponent []) = false := rfl
    unfold readUnsigned
    simp only [hlead, hcollect, List.takeWhile_nil, List.dropWhile_nil, htail, Bool.false_eq_true, if_false]
    cases minus with
    | false => rfl
    | true =>
      simp only [ofNatural, Bool.not_true, Bool.false_eq_true, if_false]
      split <;> rfl

theorem head_toDigits (n : Nat) : ∃ c cs, Nat.toDigits 10 n = c :: cs ∧ c.isDigit ∧ ∀ d ∈ cs, d.isDigit := by
  have hdigits : ∀ d ∈ Nat.toDigits 10 n, d.isDigit := fun d hd =>
    Nat.isDigit_of_mem_toDigits (by decide) (by decide) hd
  cases hd : Nat.toDigits 10 n with
  | nil => exact absurd hd Nat.toDigits_ne_nil
  | cons c cs =>
    rw [hd] at hdigits
    exact ⟨c, cs, rfl, hdigits c (List.mem_cons_self ..), fun d h => hdigits d (List.mem_cons_of_mem _ h)⟩

theorem ofText?_natural (n : UInt64) : ofText? (Nat.toDigits 10 n.toNat) = some (.natural n) := by
  obtain ⟨c, cs, hd, hc, -⟩ := head_toDigits n.toNat
  have hread : read (Nat.toDigits 10 n.toNat) = readUnsigned false (Nat.toDigits 10 n.toNat) := by
    rw [hd]
    unfold read
    split
    · rename_i heq
      obtain ⟨rfl, -⟩ := List.cons.inj heq
      exact absurd hc (by decide)
    · rfl
  rw [ofText?, hread, readUnsigned_toDigits false n.toNat_lt_size]
  simp [ofNatural]

theorem ofText?_negative {n : Int64} (hn : n < 0) :
    ofText? ('-' :: Nat.toDigits 10 n.toInt.natAbs) = some (.negative n) := by
  have hneg : n.toInt < 0 := Int64.lt_iff_toInt_lt.mp hn
  have hlow : -2 ^ 63 ≤ n.toInt := Int64.le_toInt n
  have hsize : UInt64.size = 2 ^ 64 := rfl
  rw [ofText?, read, readUnsigned_toDigits true (by omega)]
  have hsmall : ¬ (n.toInt.natAbs = 0 ∨ UInt64.size < 2 * n.toInt.natAbs) := by omega
  have habs : (-(n.toInt.natAbs : Int)) = n.toInt := by omega
  have hnumber : ofNatural true n.toInt.natAbs = .negative n := by
    rw [ofNatural, if_neg (by simpa only [Bool.or_eq_true, decide_eq_true_eq] using hsmall), habs, Int64.ofInt_toInt]
  rw [hnumber]

end Number

/-! ## Strings -/

def isQuote (c : Char) : Bool :=
  c == '\x22' || c == '\x27'

theorem eq_of_isQuote {c : Char} (h : isQuote c = true) : c = '\x22' ∨ c = '\x27' := by
  simpa only [isQuote, Bool.or_eq_true, beq_iff_eq] using h

/-- The text with a backslash before each backslash and each of the quotes. -/
def escaped (quote : Char) : List Char → List Char
  | [] => []
  | c :: cs => if c = '\\' ∨ c = quote then '\\' :: c :: escaped quote cs else c :: escaped quote cs

theorem splitQuoted_escaped {quote : Char} (hq : quote ≠ '\\') (cs rest : List Char) :
    Lexeme.splitQuoted quote (escaped quote cs ++ quote :: rest) = some (escaped quote cs ++ [quote], rest) := by
  induction cs with
  | nil => simp [escaped, Lexeme.splitQuoted, hq]
  | cons c cs ih =>
    by_cases hc : c = '\\' ∨ c = quote
    · rw [escaped, if_pos hc]
      simp only [List.cons_append, Lexeme.splitQuoted, ih, Option.map_some]
    · obtain ⟨hback, hquote⟩ := not_or.mp hc
      rw [escaped, if_neg hc, List.cons_append]
      simp [Lexeme.splitQuoted, hback, hquote, ih]

theorem unescape_escaped {quote : Char} (hq : isQuote quote = true) (cs : List Char) :
    Reading.unescape (escaped quote cs) = some cs := by
  have hquote : Reading.unescape? quote = some quote := by
    rcases eq_of_isQuote hq with rfl | rfl
    all_goals rfl
  induction cs with
  | nil => rfl
  | cons c cs ih =>
    by_cases hc : c = '\\' ∨ c = quote
    · have hself : Reading.unescape? c = some c := by
        rcases hc with rfl | rfl
        · rfl
        · exact hquote
      rw [escaped, if_pos hc, Reading.unescape, hself]
      simp only [ih, Option.map_some]
    · obtain ⟨hback, -⟩ := not_or.mp hc
      rw [escaped, if_neg hc]
      simp [Reading.unescape, hback, ih]

/-! ## Literals -/

/-- The literals that have a written form: null, truth values, strings and
integers. -/
def Literal.Writable : Literal → Prop
  | .number (.real _) => False
  | .number (.negative n) => n < 0
  | _ => True

inductive WritesLiteral : List Char → Literal → Prop
  | nullWord : WritesLiteral ['n', 'u', 'l', 'l'] .null
  | trueWord : WritesLiteral ['t', 'r', 'u', 'e'] (.bool true)
  | falseWord : WritesLiteral ['f', 'a', 'l', 's', 'e'] (.bool false)
  | natural (n : UInt64) : WritesLiteral (Nat.toDigits 10 n.toNat) (.number (.natural n))
  | negative (n : Int64) : WritesLiteral ('-' :: Nat.toDigits 10 n.toInt.natAbs) (.number (.negative n))
  | string {quote : Char} (s : String) :
    isQuote quote = true → WritesLiteral (quote :: (escaped quote s.toList ++ [quote])) (.string s)

theorem WritesLiteral.exists {value : Literal} (h : value.Writable) : ∃ text, WritesLiteral text value := by
  match value, h with
  | .null, _ => exact ⟨_, .nullWord⟩
  | .bool true, _ => exact ⟨_, .trueWord⟩
  | .bool false, _ => exact ⟨_, .falseWord⟩
  | .number (.natural n), _ => exact ⟨_, .natural n⟩
  | .number (.negative n), _ => exact ⟨_, .negative n⟩
  | .string s, _ => exact ⟨_, @WritesLiteral.string '\x22' s rfl⟩

open Lexeme

theorem span_isNumeral {ds rest : List Char} (hds : ∀ d ∈ ds, d.isDigit) (hrest : Ends rest) :
    (ds ++ rest).takeWhile isNumeral = ds ∧ (ds ++ rest).dropWhile isNumeral = rest := by
  have hall : ∀ d ∈ ds, isNumeral d = true := fun d hd => by simp [isNumeral, hds d hd]
  rw [List.takeWhile_append_of_pos hall, List.dropWhile_append_of_pos hall]
  cases hrest
  all_goals simp [isNumeral]

/-- The first character of a number, before these digits. -/
def BeginsNumber (c : Char) (ds : List Char) : Prop :=
  c.isDigit = true ∨ c = '-' ∧ ∃ d ∈ ds.head?, d.isDigit = true

theorem scanWord_of_beginsNumber {c : Char} {ds : List Char} (h : BeginsNumber c ds) :
    scanWord c ds = (.token .number (c :: ds.takeWhile isNumeral), ds.dropWhile isNumeral) := by
  have hother : punctuation? c = none ∧ c ≠ '\x22' ∧ c ≠ '\x27' := by
    rcases h with hc | ⟨rfl, -⟩
    · refine ⟨?_, ?_, ?_⟩
      · unfold punctuation?
        split
        all_goals first | rfl | exact absurd hc (by decide)
      all_goals rintro rfl; exact absurd hc (by decide)
    · decide
  have hnumber : (c.isDigit || (c = '-' && ds.head?.any Char.isDigit)) = true := by
    rcases h with hc | ⟨rfl, d, hd, hdigit⟩
    · simp [hc]
    · rw [Option.mem_def.mp hd]
      simp [hdigit]
  simp [scanWord, hother, hnumber]

theorem Lexeme.Reads.number {c : Char} {ds : List Char} (hc : BeginsNumber c ds) (hds : ∀ d ∈ ds, d.isDigit) :
    Reads (c :: ds) fun used => ∃ region, used = [⟨.number, c :: ds, region⟩] := by
  have hbrace : c ≠ '{' ∧ c ≠ '}' ∧ c ≠ '~' := by
    refine ⟨?_, ?_, ?_⟩
    all_goals
      rintro rfl
      rcases hc with hc | ⟨hc, -⟩
      all_goals exact absurd hc (by decide)
  refine .of_scanWord hbrace fun rest hrest => ?_
  have hbegins : BeginsNumber c (ds ++ rest) := by
    refine hc.imp_right fun ⟨hc, d, hd, hdigit⟩ => ⟨hc, d, ?_, hdigit⟩
    rw [List.head?_append, Option.mem_def.mp hd]
    rfl
  obtain ⟨htake, hdrop⟩ := span_isNumeral hds hrest
  rw [scanWord_of_beginsNumber hbegins, htake, hdrop]

theorem Lexeme.Reads.string {quote : Char} (hq : isQuote quote = true) (cs : List Char) :
    Reads (quote :: (escaped quote cs ++ [quote])) fun used =>
      ∃ region, used = [⟨.string, quote :: (escaped quote cs ++ [quote]), region⟩] := by
  have hquote := eq_of_isQuote hq
  have hother : (quote ≠ '{' ∧ quote ≠ '}' ∧ quote ≠ '~') ∧ quote ≠ '\\' ∧ punctuation? quote = none := by
    rcases hquote with rfl | rfl
    all_goals decide
  obtain ⟨hbrace, hback, hpunctuation⟩ := hother
  refine .of_scanWord hbrace fun rest _ => ?_
  rw [List.append_assoc, List.singleton_append]
  simp [scanWord, hpunctuation, hquote, splitQuoted_escaped hback]

/-! ## Reading literals back -/

theorem Lexeme.Reads.atom {text : List Char} {kind : Token.Kind} {value : Literal}
    (h : Reads text fun used => ∃ region, used = [⟨kind, text, region⟩])
    (hatom : ∀ region, Reading.atom? ⟨kind, text, region⟩ = some (.literal value region)) :
    Reads text fun used => ∃ region, SpellsExpression used (.literal value region) := by
  refine h.mono ?_
  rintro _ ⟨region, rfl⟩
  exact ⟨region, .atom (hatom region)⟩

theorem WritesLiteral.reads {text : List Char} {value : Literal} (h : WritesLiteral text value)
    (hv : value.Writable) :
    Begins text ∧ Reads text fun used => ∃ region, SpellsExpression used (.literal value region) := by
  cases h with
  | nullWord => exact ⟨⟨_, _, rfl, rfl⟩, (Reads.word rfl (.of_all rfl)).atom fun _ => rfl⟩
  | trueWord => exact ⟨⟨_, _, rfl, rfl⟩, (Reads.word rfl (.of_all rfl)).atom fun _ => rfl⟩
  | falseWord => exact ⟨⟨_, _, rfl, rfl⟩, (Reads.word rfl (.of_all rfl)).atom fun _ => rfl⟩
  | natural n =>
    obtain ⟨c, cs, htext, hc, hcs⟩ := Number.head_toDigits n.toNat
    have hvalue := Number.ofText?_natural n
    rw [htext] at hvalue ⊢
    have hrange := toNat_of_isDigit hc
    refine ⟨⟨c, cs, rfl, isBlank_of_toNat (by omega)⟩, (Reads.number (.inl hc) hcs).atom fun region => ?_⟩
    simp [Reading.atom?, Reading.number, hvalue, Except.toOption]
  | negative n =>
    obtain ⟨c, cs, htext, hc, hcs⟩ := Number.head_toDigits n.toInt.natAbs
    have hvalue := Number.ofText?_negative hv
    rw [htext] at hvalue ⊢
    have hall : ∀ d ∈ c :: cs, d.isDigit := List.forall_mem_cons.mpr ⟨hc, hcs⟩
    refine ⟨⟨'-', c :: cs, rfl, rfl⟩, (Reads.number (.inr ⟨rfl, c, rfl, hc⟩) hall).atom fun region => ?_⟩
    simp [Reading.atom?, Reading.number, hvalue, Except.toOption]
  | @string quote s hq =>
    have hblank : Text.isBlank quote = false := by
      rcases eq_of_isQuote hq with rfl | rfl
      all_goals rfl
    have hinner : (escaped quote s.toList ++ [quote]).dropLast = escaped quote s.toList := List.dropLast_concat
    refine ⟨⟨quote, _, rfl, hblank⟩, (Reads.string hq s.toList).atom fun region => ?_⟩
    simp [Reading.atom?, Reading.quoted, hinner, unescape_escaped hq, Except.toOption]

end Curly
