import Curly.Proofs.Scan.Joints

/-!
# Blanks inside a tag

A blank begins no token and goes on none that is not quoted. So blanks may be put
between two tokens of a tag: the tokens before them stay where they are, and those
behind them are moved on by their bytes (`Token.ofSource_spaced`).
-/

namespace Curly

/-! ## Blanks and other characters -/

def Text.blanks : List Char :=
  blankRanges.flatMap fun r => (List.range' r.1 (r.2 + 1 - r.1)).map Char.ofNat

theorem Text.mem_blanks {c : Char} (h : isBlank c = true) : c ∈ blanks := by
  obtain ⟨r, hr, hc⟩ := List.any_eq_true.mp h
  simp only [Bool.and_eq_true, decide_eq_true_eq] at hc
  refine List.mem_flatMap.mpr ⟨r, hr, List.mem_map.mpr ⟨c.toNat, ?_, Char.ofNat_toNat c⟩⟩
  rw [List.mem_range'_1]
  omega

namespace Lexeme

variable {c : Char}

theorem blank_ne_mark (hc : Text.isBlank c = true) : c ∉ ['{', '}', '~', '!', '&', '-', '\x22', '\x27'] := by
  have h : Text.blanks.all (fun c => c ∉ ['{', '}', '~', '!', '&', '-', '\x22', '\x27']) = true := by decide +kernel
  exact of_decide_eq_true (List.all_eq_true.mp h c (Text.mem_blanks hc))

theorem blank_begins_none (hc : Text.isBlank c = true) : punctuation? c = none ∧ c.isDigit = false := by
  have h : Text.blanks.all (fun c => punctuation? c = none ∧ c.isDigit = false) = true := by decide +kernel
  exact of_decide_eq_true (List.all_eq_true.mp h c (Text.mem_blanks hc))

theorem goesOn_blank (kind : Token.Kind) (text : List Char) (hc : Text.isBlank c = true) :
    goesOn (.token kind text) c = false := by
  have h : Text.blanks.all (fun c => isNumeral c = false ∧ isPathInner c = false) = true := by decide +kernel
  obtain ⟨hnumeral, hpath⟩ := of_decide_eq_true (List.all_eq_true.mp h c (Text.mem_blanks hc))
  unfold goesOn
  split
  all_goals simp_all

/-! ## Blanks in front -/

theorem scanWord_of_isBlank (hc : Text.isBlank c = true) (rest : List Char) :
    scanWord c rest = (.gap .blank (c :: rest.takeWhile Text.isBlank), rest.dropWhile Text.isBlank) := by
  have hmark := blank_ne_mark hc
  obtain ⟨hp, hd⟩ := blank_begins_none hc
  simp only [List.mem_cons, List.not_mem_nil, or_false, not_or] at hmark
  simp [scanWord, hp, hd, hc, hmark]

theorem scan_blank (hc : Text.isBlank c = true) (expected : Closer) (rest : List Char) :
    scan (.tag expected) (c :: rest) =
      .gap .blank (c :: rest.takeWhile Text.isBlank) :: scan (.tag expected) (rest.dropWhile Text.isBlank) := by
  have hmark := blank_ne_mark hc
  simp only [List.mem_cons, not_or] at hmark
  rw [scan_word ⟨hmark.1, hmark.2.1, hmark.2.2.1⟩, scanWord_of_isBlank hc]

theorem tokens_blank (hc : Text.isBlank c = true) (start : Nat) (expected : Closer) (rest : List Char) :
    tokens start (scan (.tag expected) (c :: rest)) = tokens (start + c.utf8Size) (scan (.tag expected) rest) := by
  rw [scan_blank hc, tokens, byteLength]
  cases rest with
  | nil => rfl
  | cons d rest =>
    by_cases hd : Text.isBlank d = true
    · rw [scan_blank hd, tokens, List.takeWhile_cons_of_pos hd, List.dropWhile_cons_of_pos hd, Nat.add_assoc]
    · rw [List.takeWhile_cons_of_neg hd, List.dropWhile_cons_of_neg hd]
      rfl

theorem tokens_blanks {blanks : List Char} (hblanks : ∀ c ∈ blanks, Text.isBlank c = true) (start : Nat)
    (expected : Closer) (rest : List Char) :
    tokens start (scan (.tag expected) (blanks ++ rest)) =
      tokens (start + byteLength blanks) (scan (.tag expected) rest) := by
  induction blanks generalizing start with
  | nil => rfl
  | cons c blanks ih =>
    obtain ⟨hc, hblanks⟩ := List.forall_mem_cons.mp hblanks
    rw [List.cons_append, tokens_blank hc, ih hblanks, byteLength, Nat.add_assoc]

/-! ## Blanks behind a token -/

/-- What may come behind a token of a tag in place of `rest`. -/
def MayFollow (rest rest' : List Char) : Prop :=
  rest'.head? = rest.head? ∨ ∃ c ∈ rest'.head?, Text.isBlank c = true

theorem mayFollow_append {blanks : List Char} (hblanks : ∀ c ∈ blanks, Text.isBlank c = true) (hne : blanks ≠ [])
    (a rest : List Char) : MayFollow (a ++ rest) (a ++ (blanks ++ rest)) := by
  cases a with
  | nil =>
    obtain ⟨c, blanks, rfl⟩ := List.exists_cons_of_ne_nil hne
    exact .inr ⟨c, rfl, hblanks c (List.mem_cons_self ..)⟩
  | cons c a => exact .inl rfl

theorem scanWord_token {rest rest' : List Char} {kind : Token.Kind} {text : List Char}
    (h : (scanWord c rest).1 = .token kind text) (hclean : Clean [.token kind text])
    (hrest : MayFollow (scanWord c rest).2 rest') :
    ∃ word, text = c :: word ∧ scanWord c (word ++ rest') = (.token kind text, rest') := by
  obtain ⟨hends, word, htext, hscan⟩ := exists_word (h ▸ hclean)
  rw [h] at hends htext hscan
  refine ⟨word, htext, hscan rest' fun d hd => ?_⟩
  rcases hrest with hsame | ⟨b, hb, hblank⟩
  · exact hends d (hsame ▸ hd)
  · obtain rfl := Option.mem_unique hd hb
    exact goesOn_blank kind text hblank

theorem scanMarker_opening {tilde : Bool} {after : List Char} {kind : Token.Kind} {text : List Char}
    (h : (scanMarker (braces tilde) after).lexemes = [.token kind text]) (ho : kind.opensTag = true) :
    ∃ mark closer rest, after = mark ++ rest ∧ text = braces tilde ++ mark ∧
      scanMarker (braces tilde) after = ⟨[.token kind text], .tag closer, rest⟩ ∧
      ∀ rest', MayFollow rest rest' →
        scanMarker (braces tilde) (mark ++ rest') = ⟨[.token kind text], .tag closer, rest'⟩ ∧
        ((mark ++ rest').head? = some '~' → after.head? = some '~') := by
  have hmem : .token kind text ∈ (scanMarker (braces tilde) after).lexemes := by simp [h]
  cases markerCase after with
  | dashed body =>
    rcases kind_of_mem_scanComment hmem with rfl | rfl
    all_goals cases ho
  | comment hd =>
    rw [scanMarker_comment _ hd] at hmem
    rcases kind_of_mem_scanComment hmem with rfl | rfl
    all_goals cases ho
  | brace rest =>
    obtain ⟨rfl, rfl⟩ := Lexeme.token.inj (List.mem_singleton.mp hmem)
    exact ⟨['{'], .triple, rest, rfl, rfl, rfl, fun rest' _ => ⟨rfl, by simp⟩⟩
  | ampersand rest =>
    obtain ⟨rfl, rfl⟩ := Lexeme.token.inj (List.mem_singleton.mp hmem)
    exact ⟨['&'], .double, rest, rfl, rfl, rfl, fun rest' _ => ⟨rfl, by simp⟩⟩
  | plain hp =>
    rw [scanMarker_plain _ hp] at hmem ⊢
    obtain ⟨rfl, rfl⟩ := Lexeme.token.inj (List.mem_singleton.mp hmem)
    refine ⟨[], .double, after, rfl, (List.append_nil _).symm, rfl, fun rest' hrest => ?_⟩
    rcases hrest with hsame | ⟨c, hc, hblank⟩
    · exact ⟨scanMarker_plain _ (hsame ▸ hp), fun hhead => hsame ▸ hhead⟩
    · have hmark := blank_ne_mark hblank
      simp only [List.mem_cons, not_or] at hmark
      have hp' : ∀ d ∈ rest'.head?, d ≠ '!' ∧ d ≠ '{' ∧ d ≠ '&' := by
        intro d hd
        obtain rfl := Option.mem_unique hd hc
        exact ⟨hmark.2.2.2.1, hmark.1, hmark.2.2.2.2.1⟩
      refine ⟨scanMarker_plain _ hp', fun hhead => ?_⟩
      exact absurd (Option.mem_unique hc hhead) hmark.2.2.1

theorem scanText_opening {trim : Bool} {source : List Char} {inner : List Lexeme} {kind : Token.Kind} {text : List Char}
    (h : (scanText trim source).lexemes = inner ++ [.token kind text]) (ho : kind.opensTag = true) :
    ∃ closer, (scanText trim source).mode = .tag closer ∧ ∀ rest', MayFollow (scanText trim source).rest rest' →
      scanText trim (texts (scanText trim source).lexemes ++ rest') = (scanText trim source).leaving rest' := by
  have hraw (hk : kind = .raw) : False := by
    rw [hk] at ho
    cases ho
  have hmem : .token kind text ∈ (scanText trim source).lexemes := by simp [h]
  cases textCase source with
  | last hcase =>
    rw [scanText_last trim hcase] at hmem
    exact (hraw (kind_of_mem_rawPieces hmem)).elim
  | escaped hcase he =>
    rw [scanText_escaped trim hcase he, List.mem_append, scanEscaped_braces] at hmem
    rcases hmem with hmem | hmem
    · exact (hraw (kind_of_mem_piecesBefore hmem)).elim
    · exact (hraw (Lexeme.token.inj (List.mem_singleton.mp hmem)).1).elim
  | @marker tilde before after hcase he ha =>
    obtain ⟨kind', text', hopens⟩ := scanMarker_opens ha
    rw [scanText_marker trim hcase he ha] at h ⊢
    rw [hopens.lexemes] at h
    obtain ⟨-, hlast⟩ := List.append_inj' h rfl
    obtain ⟨rfl, rfl⟩ := Lexeme.token.inj (List.singleton_inj.mp hlast)
    obtain ⟨mark, closer, rest, hafter, htext, hstep, hfollow⟩ := scanMarker_opening hopens.lexemes ho
    rw [hstep]
    refine ⟨closer, rfl, fun rest' hrest => ?_⟩
    obtain ⟨hstep', htilde⟩ := hfollow rest' hrest
    have htexts : texts (piecesBefore trim tilde before ++ [.token kind' text']) ++ rest' =
        before ++ (braces tilde ++ (mark ++ rest')) := by
      simp [texts_piecesBefore, Lexeme.text, htext]
    rw [htexts, scanText_marker trim (splitBraces_local hcase _) he fun ht hhead => ha ht (htilde hhead), hstep']
    rfl

/-- The opening marker of a tag, and all before it, is the same whatever the tag holds. -/
theorem scan_opening {mode : Mode} {source : List Char} {a ls : List Lexeme} {kind : Token.Kind} {text : List Char}
    (h : scan mode source = a ++ .token kind text :: ls) (ho : kind.opensTag = true) (hclean : Clean a) :
    ∃ closer, ls = scan (.tag closer) (texts ls) ∧ ∀ rest', MayFollow (texts ls) rest' →
      scan mode (texts a ++ (text ++ rest')) = a ++ .token kind text :: scan (.tag closer) rest' := by
  have hraw : kind ≠ .raw := by
    rintro rfl
    cases ho
  obtain ⟨before, inner, m, s, rfl, hreach, hs, hlex, rfl⟩ := exists_reaches h hraw
  cases m with
  | tag expected =>
    have hmem : .token kind text ∈ (scanTag expected s).lexemes := by
      rw [show (scanTag expected s).lexemes = _ from hlex]
      simp
    cases (opensTag_of_mem_scanTag hs hmem).symm.trans ho
  | text trim =>
    obtain ⟨closer, hmode, hfollow⟩ := scanText_opening hlex ho
    rw [show (scanStep (.text trim) s).mode = _ from hmode, texts_scan]
    refine ⟨closer, rfl, fun rest' hrest => ?_⟩
    have hscan := hreach.scan_leaving hs (Clean.append.mp hclean).1 (hfollow rest' hrest)
    rw [show (scanStep (.text trim) s).mode = _ from hmode, hlex] at hscan
    simpa [Lexeme.text] using hscan

/-! ## Blanks between tokens -/

/-- A tag goes on with its closing marker, or with a token in front of which nothing depends on the rest. -/
theorem exists_token {expected : Closer} {cs : List Char} (hc : Text.isBlank c = false)
    (hclean : Clean (scan (.tag expected) (c :: cs))) :
    ∃ kind text ls, scan (.tag expected) (c :: cs) = .token kind text :: ls ∧
      (kind.closesTag = true ∨ ∃ rest, text ≠ [] ∧ text ++ rest = c :: cs ∧ ls = scan (.tag expected) rest ∧
        ∀ rest', MayFollow rest rest' →
          scan (.tag expected) (text ++ rest') = .token kind text :: scan (.tag expected) rest') := by
  have hstep : scan (.tag expected) (c :: cs) = _ := scan_of_ne_nil (.tag expected) (List.cons_ne_nil c cs)
  rw [scanStep] at hstep
  generalize hsource : c :: cs = source at hstep
  cases tagCase expected (hsource ▸ List.cons_ne_nil c cs) with
  | @closing closer trim _ marker rest hcase =>
    rw [scanTag_closing hcase] at hstep
    rw [hstep]
    split
    · exact ⟨_, _, _, rfl, .inl (by cases closer <;> rfl)⟩
    · exact ⟨_, _, _, rfl, .inl rfl⟩
  | unclosed hcase =>
    rw [hsource, hstep, scanTag_unclosed hcase] at hclean
    exact (hclean _ _ (List.mem_cons_self ..)).elim
  | word hcase hb =>
    obtain ⟨rfl, rfl⟩ := List.cons.inj hsource
    rw [scanTag_word hcase hb, List.singleton_append] at hstep
    rw [hstep] at hclean ⊢
    have hcover := scanWord_append c cs
    have hne := text_scanWord_ne_nil c cs
    rcases scanWord_cases c cs with ⟨blanks, hw, hblanks⟩ | ⟨kind, text, hw, -, -⟩
    · rw [hw] at hcover hne
      obtain ⟨b, blanks, rfl⟩ := List.exists_cons_of_ne_nil hne
      obtain ⟨rfl, -⟩ := List.cons.inj hcover
      cases (hblanks b (List.mem_cons_self ..)).symm.trans hc
    · rw [hw] at hcover hne hclean ⊢
      have hclean' : Clean [.token kind text] := (Clean.append.mp hclean).1
      have hmark : c ≠ '{' ∧ c ≠ '}' ∧ c ≠ '~' := by
        refine ⟨?_, ?_, ?_⟩
        all_goals
          rintro rfl
          rw [scanWord_brace (by simp)] at hw
          obtain ⟨rfl, rfl⟩ := Lexeme.token.inj hw
          exact (hclean' _ _ (List.mem_singleton_self _)).elim
      refine ⟨kind, text, _, rfl, .inr ⟨_, hne, hcover, rfl, fun rest' hfollow => ?_⟩⟩
      obtain ⟨word, rfl, hscan⟩ := scanWord_token hw hclean' hfollow
      rw [List.cons_append, scan_word hmark, hscan]

/-- Blanks within a tag, behind some of its tokens and in front of the rest. -/
theorem tokens_spaced {blanks after : List Char} (hblanks : ∀ c ∈ blanks, Text.isBlank c = true) (hne : blanks ≠ [])
    (expected : Closer) (w : List Char) {start : Nat} {inner y : List Token}
    (h : tokens start (scan (.tag expected) (w ++ after)) = inner ++ y)
    (hvalid : ∀ t ∈ inner ++ y, ∀ fault, t.kind ≠ .invalid fault)
    (hinner : ∀ t ∈ inner, t.kind.closesTag = false ∧ t.region.stop ≤ start + byteLength w)
    (hy : ∀ t ∈ y, start + byteLength w ≤ t.region.start) :
    tokens start (scan (.tag expected) (w ++ (blanks ++ after))) = inner ++ y.map (Token.shift (byteLength blanks)) := by
  induction hn : w.length using Nat.strong_induction_on generalizing w start inner with
  | _ n ih =>
    cases w with
    | nil =>
      rw [List.nil_append] at h
      have hnil : inner = [] := by
        refine List.eq_nil_iff_forall_not_mem.mpr fun t ht => ?_
        have hmem : t ∈ tokens start (scan (.tag expected) after) := by simp [h, ht]
        have hstart := (bounds_of_mem_tokens hmem).1
        have hlt := lt_of_mem_tokens hmem
        have hstop := (hinner t ht).2
        rw [byteLength] at hstop
        omega
      subst hnil
      rw [List.nil_append] at h
      rw [List.nil_append, tokens_blanks hblanks, tokens_shift, h, List.nil_append]
    | cons c w =>
      by_cases hc : Text.isBlank c = true
      · rw [List.cons_append, tokens_blank hc] at h ⊢
        rw [byteLength, ← Nat.add_assoc] at hy
        refine ih w.length (by rw [← hn, List.length_cons]; omega) w h hvalid (fun t ht => ?_) hy rfl
        rw [Nat.add_assoc, ← byteLength]
        exact hinner t ht
      · have hclean : Clean (scan (.tag expected) (c :: (w ++ after))) := clean_of_tokens start (h ▸ hvalid)
        obtain ⟨kind, text, ls, hscan, hcases⟩ := exists_token (Bool.eq_false_iff.mpr hc) hclean
        rw [List.cons_append, hscan, tokens] at h
        cases inner with
        | nil =>
          -- the token begins in front of the blanks, so it is none of those behind them
          have hstart := hy _ (h ▸ List.mem_cons_self ..)
          have hpos := byteLength_pos (List.cons_ne_nil c w)
          dsimp only at hstart
          omega
        | cons t inner =>
          obtain ⟨rfl, htokens⟩ := List.cons.inj h
          obtain ⟨⟨hstays, hstop⟩, hinner⟩ := List.forall_mem_cons.mp hinner
          rcases hcases with hcloses | ⟨rest, htext, hcover, rfl, hfollow⟩
          · cases hstays.symm.trans hcloses
          · obtain ⟨e, he, rfl⟩ := exists_append_of_byteLength_le hcover (Nat.le_of_add_le_add_left hstop)
            rw [he] at hn hinner hy ⊢
            simp only [byteLength_append, ← Nat.add_assoc] at hinner hy
            have hlt : e.length < n := by
              have := List.length_pos_iff.mpr htext
              rw [← hn, List.length_append]
              omega
            have htail := ih e.length hlt e htokens (fun u hu => hvalid u (List.mem_cons_of_mem _ hu)) hinner hy rfl
            rw [List.append_assoc, hfollow _ (mayFollow_append hblanks hne e after), tokens, htail]
            rfl

end Lexeme

/-- The tokens of a source around a place in a tag: those up to its opening marker and behind it, and the rest. -/
structure Token.Around (tokens : List Token) (n : Nat) (x : List Token) (o : Token) (inner y : List Token) : Prop where
  tokens : tokens = x ++ o :: (inner ++ y)
  opens : o.kind.opensTag = true
  stays : ∀ t ∈ inner, t.kind.closesTag = false
  before : ∀ t ∈ o :: inner, t.region.stop ≤ n
  after : ∀ t ∈ y, n ≤ t.region.start

theorem Token.ofSource_spaced {before blanks after : List Char} {x : List Token} {o : Token} {inner y : List Token}
    (hvalid : ∀ t ∈ Token.ofSource (before ++ after), ∀ fault, t.kind ≠ .invalid fault)
    (h : Token.Around (Token.ofSource (before ++ after)) (byteLength before) x o inner y)
    (hblanks : ∀ c ∈ blanks, Text.isBlank c = true) (hne : blanks ≠ []) :
    Token.ofSource (before ++ (blanks ++ after)) = x ++ o :: (inner ++ y.map (Token.shift (byteLength blanks))) := by
  obtain ⟨a, ls, hscan, rfl, hr, htokens⟩ := Lexeme.exists_of_tokens_eq h.tokens
  have hclean : Lexeme.Clean (Lexeme.scan (.text false) (before ++ after)) := Lexeme.clean_of_tokens 0 hvalid
  rw [hscan] at hclean
  obtain ⟨closer, hls, hfollow⟩ := Lexeme.scan_opening hscan h.opens (Lexeme.Clean.append.mp hclean).1
  have htexts := Lexeme.texts_scan (.text false) (before ++ after)
  rw [hscan, Lexeme.texts_append, Lexeme.texts_cons, Lexeme.text, ← List.append_assoc] at htexts
  have hstop := h.before o (List.mem_cons_self ..)
  rw [hr] at hstop
  have hle : byteLength (Lexeme.texts a ++ o.text) ≤ byteLength before := by
    rw [byteLength_append]
    dsimp only at hstop
    omega
  obtain ⟨w, rfl, hrest⟩ := exists_append_of_byteLength_le htexts hle
  have hlen : byteLength (Lexeme.texts a ++ o.text ++ w) =
      0 + byteLength (Lexeme.texts a) + byteLength o.text + byteLength w := by
    rw [byteLength_append, byteLength_append, Nat.zero_add]
  rw [hrest] at hls hfollow
  rw [hls] at htokens
  have hinside : ∀ t ∈ inner, t.kind.closesTag = false ∧
      t.region.stop ≤ 0 + byteLength (Lexeme.texts a) + byteLength o.text + byteLength w := by
    intro t ht
    exact ⟨h.stays t ht, hlen ▸ h.before t (List.mem_cons_of_mem _ ht)⟩
  have hvalid' : ∀ t ∈ inner ++ y, ∀ fault, t.kind ≠ .invalid fault := by
    intro t ht
    refine hvalid t ?_
    rw [h.tokens]
    simp [List.mem_append.mp ht]
  have hspaced := Lexeme.tokens_spaced hblanks hne closer w htokens hvalid' hinside (hlen ▸ h.after)
  have hwhole := hfollow _ (Lexeme.mayFollow_append hblanks hne w after)
  unfold Token.ofSource
  rw [List.append_assoc, List.append_assoc, hwhole, Lexeme.tokens_split, hspaced, ← hr]

end Curly
