import Curly.Template.Lexeme

/-!
# Where tokens stand

The tokens of a list of lexemes lie one behind another, and each is the text of
the source at its region.
-/

namespace Curly

/-! ## Bytes -/

@[simp] theorem dropBytes?_append (a b : List Char) (n : Nat) :
    dropBytes? (byteLength a + n) (a ++ b) = dropBytes? n b := by
  induction a with
  | nil => simp [byteLength]
  | cons c a ih =>
    have hpos := c.utf8Size_pos
    obtain ⟨m, hm⟩ : ∃ m, byteLength (c :: a) + n = m + 1 :=
      ⟨byteLength (c :: a) + n - 1, by rw [byteLength]; omega⟩
    rw [List.cons_append, hm, dropBytes?, ← hm, byteLength, if_pos (by omega)]
    rw [show c.utf8Size + byteLength a + n - c.utf8Size = byteLength a + n by omega, ih]

@[simp] theorem takeBytes?_append (a b : List Char) : takeBytes? (byteLength a) (a ++ b) = some a := by
  induction a with
  | nil => simp [byteLength, takeBytes?]
  | cons c a ih =>
    have hpos := c.utf8Size_pos
    obtain ⟨m, hm⟩ : ∃ m, byteLength (c :: a) = m + 1 :=
      ⟨byteLength (c :: a) - 1, by rw [byteLength]; omega⟩
    rw [List.cons_append, hm, takeBytes?, ← hm, byteLength, if_pos (by omega)]
    rw [show c.utf8Size + byteLength a - c.utf8Size = byteLength a by omega, ih]
    rfl

theorem byteLength_pos {cs : List Char} (h : cs ≠ []) : 0 < byteLength cs := by
  cases cs with
  | nil => exact absurd rfl h
  | cons c cs =>
    have := c.utf8Size_pos
    rw [byteLength]
    omega

theorem eq_nil_of_byteLength {cs : List Char} (h : byteLength cs = 0) : cs = [] := by
  refine Classical.byContradiction fun hne => ?_
  have := byteLength_pos hne
  omega

theorem exists_append_of_byteLength_le : ∀ {a b c d : List Char}, a ++ b = c ++ d →
    byteLength a ≤ byteLength c → ∃ e, c = a ++ e ∧ b = e ++ d
  | [], b, c, d, h, _ => ⟨c, rfl, h⟩
  | x :: a, b, [], d, _, hle => by
    have := byteLength_pos (List.cons_ne_nil x a)
    simp only [byteLength] at hle this
    omega
  | x :: a, b, y :: c, d, h, hle => by
    obtain ⟨rfl, htail⟩ := List.cons.inj h
    simp only [byteLength] at hle
    obtain ⟨e, rfl, rfl⟩ := exists_append_of_byteLength_le htail (by omega)
    exact ⟨e, rfl, rfl⟩

theorem append_inj_of_byteLength {a b c d : List Char} (h : a ++ b = c ++ d) (hlen : byteLength a = byteLength c) :
    a = c ∧ b = d := by
  obtain ⟨e, rfl, rfl⟩ := exists_append_of_byteLength_le h (Nat.le_of_eq hlen)
  rw [byteLength_append] at hlen
  obtain rfl : e = [] := eq_nil_of_byteLength (by omega)
  exact ⟨(List.append_nil a).symm, rfl⟩

namespace Region

theorem slice?_append (a b c : List Char) :
    slice? ⟨byteLength a, byteLength a + byteLength b⟩ (a ++ (b ++ c)) = some b := by
  have h : dropBytes? (byteLength a) (a ++ (b ++ c)) = some (b ++ c) := by
    simpa [dropBytes?] using dropBytes?_append a (b ++ c) 0
  simp [slice?, h]

/-- The region some bytes further on. -/
def shift (k : Nat) (r : Region) : Region :=
  ⟨r.start + k, r.stop + k⟩

theorem combine_shift (k : Nat) (a b : Region) : (a.shift k).combine (b.shift k) = (a.combine b).shift k := by
  simp only [combine, shift, Region.mk.injEq]
  omega

theorem slice_shift (a b : List Char) (r : Region) : (r.shift (byteLength a)).slice (a ++ b) = r.slice b := by
  have h : dropBytes? (r.start + byteLength a) (a ++ b) = dropBytes? r.start b := by
    rw [Nat.add_comm, dropBytes?_append]
  simp only [slice, slice?, shift, h, Nat.add_le_add_iff_right, Nat.add_sub_add_right]

end Region

def Token.shift (k : Nat) (t : Token) : Token :=
  { t with region := t.region.shift k }

theorem Token.shift_shift (t : Token) (j k : Nat) : (t.shift j).shift k = t.shift (j + k) := by
  simp only [shift, Region.shift, Nat.add_assoc]

theorem Token.shift_comp (a b : List Char) :
    shift (byteLength a) ∘ shift (byteLength b) = shift (byteLength (a ++ b)) := by
  funext t
  rw [Function.comp_apply, shift_shift, Nat.add_comm, byteLength_append]

namespace Lexeme

theorem tokens_append (start : Nat) (a b : List Lexeme) :
    tokens start (a ++ b) = tokens start a ++ tokens (start + byteLength (texts a)) b := by
  induction a generalizing start with
  | nil => rfl
  | cons l a ih =>
    cases l <;> simp [tokens, ih, text, byteLength_append, Nat.add_assoc]

theorem tokens_shift (k start : Nat) (ls : List Lexeme) :
    tokens (start + k) ls = (tokens start ls).map (Token.shift k) := by
  induction ls generalizing start with
  | nil => rfl
  | cons l ls ih =>
    cases l with
    | token kind text =>
      simp only [tokens, List.map_cons, Token.shift, Region.shift, List.cons.injEq, Token.mk.injEq,
        Region.mk.injEq, true_and]
      refine ⟨by omega, ?_⟩
      rw [← ih, Nat.add_right_comm]
    | gap gap text => rw [tokens, tokens, ← ih, Nat.add_right_comm]

theorem tokens_split (start : Nat) (a : List Lexeme) (kind : Token.Kind) (text : List Char) (b : List Lexeme) :
    tokens start (a ++ .token kind text :: b) =
      tokens start a ++ ⟨kind, text, ⟨start + byteLength (texts a), start + byteLength (texts a) + byteLength text⟩⟩ ::
        tokens (start + byteLength (texts a) + byteLength text) b :=
  tokens_append start a (.token kind text :: b)

/-- A token is a lexeme, and stands behind the texts of those before it. -/
theorem exists_of_tokens_eq {start : Nat} {ls : List Lexeme} {before after : List Token} {kind : Token.Kind}
    {text : List Char} {r : Region} (h : tokens start ls = before ++ ⟨kind, text, r⟩ :: after) :
    ∃ a b, ls = a ++ .token kind text :: b ∧ tokens start a = before ∧
      r = ⟨start + byteLength (texts a), start + byteLength (texts a) + byteLength text⟩ ∧
      tokens (start + byteLength (texts a) + byteLength text) b = after := by
  induction ls generalizing start before with
  | nil => simp [tokens] at h
  | cons l ls ih =>
    cases l with
    | token kind text =>
      cases before with
      | nil =>
        obtain ⟨ht, rfl⟩ := List.cons.inj h
        obtain ⟨rfl, rfl, rfl⟩ := Token.mk.inj ht
        exact ⟨[], ls, rfl, rfl, rfl, rfl⟩
      | cons u before =>
        obtain ⟨rfl, hrest⟩ := List.cons.inj h
        obtain ⟨a, b, rfl, rfl, hr, hb⟩ := ih hrest
        refine ⟨.token _ _ :: a, b, rfl, rfl, ?_, ?_⟩
        · simpa [Lexeme.text, byteLength_append, Nat.add_assoc] using hr
        · simpa [Lexeme.text, byteLength_append, Nat.add_assoc] using hb
    | gap gap text =>
      obtain ⟨a, b, rfl, rfl, hr, hb⟩ := ih h
      refine ⟨.gap gap text :: a, b, rfl, rfl, ?_, ?_⟩
      · simpa [Lexeme.text, byteLength_append, Nat.add_assoc] using hr
      · simpa [Lexeme.text, byteLength_append, Nat.add_assoc] using hb

theorem mem_tokens {start : Nat} {ls : List Lexeme} {t : Token} (h : t ∈ tokens start ls) :
    ∃ a b, ls = a ++ .token t.kind t.text :: b ∧
      t.region = ⟨start + byteLength (texts a), start + byteLength (texts a) + byteLength t.text⟩ := by
  obtain ⟨before, after, h⟩ := List.append_of_mem h
  obtain ⟨a, b, rfl, -, hr, -⟩ := exists_of_tokens_eq h
  exact ⟨a, b, rfl, hr⟩

/-- Each lexeme that is a token is among the tokens. -/
theorem exists_mem_tokens (start : Nat) {ls : List Lexeme} {kind : Token.Kind} {text : List Char}
    (h : .token kind text ∈ ls) : ∃ t ∈ tokens start ls, t.kind = kind ∧ t.text = text := by
  obtain ⟨a, b, rfl⟩ := List.append_of_mem h
  rw [tokens_split]
  exact ⟨⟨kind, text, _⟩, List.mem_append_right _ (List.mem_cons_self ..), rfl, rfl⟩

end Lexeme

theorem Token.slice?_region {source : List Char} {t : Token} (h : t ∈ Token.ofSource source) :
    t.region.slice? source = some t.text := by
  obtain ⟨a, b, hls, hr⟩ := Lexeme.mem_tokens h
  have htexts := Lexeme.texts_scan (.text false) source
  rw [hls] at htexts
  rw [hr, ← htexts]
  simpa [Lexeme.text] using Region.slice?_append (Lexeme.texts a) t.text (Lexeme.texts b)

end Curly
