import Curly.Proofs.Grammar.Expression
import Curly.Proofs.Scan.Steps
import Curly.Template.Tag

/-!
# The grammar of tags

Which tokens a tag is written with, and that a source is read as a sequence of
tags exactly if its tokens are theirs (`Tag.ofSource_eq_iff`). A tag is read by itself:
neither the tokens after it nor those before it matter.
-/

namespace Curly

/-- What stands in a tag, with the markers around it. -/
def tagText (inner : String) : String :=
  "\x7b\x7b" ++ inner ++ "\x7d\x7d"

theorem toList_tagText (inner : String) :
    (tagText inner).toList = Lexeme.braces false ++ (inner.toList ++ ['}', '}']) := by
  simp [tagText, Lexeme.braces]

inductive SpellsPartialName : List Token → PartialName → Prop
  | path {t : Token} : t.kind = .path → SpellsPartialName [t] (.fixed (String.ofList t.text))
  | string {t : Token} {s : String} :
    t.kind = .string → Reading.quoted t = .ok s → SpellsPartialName [t] (.fixed s)
  | computed {used : List Token} {c : Call Path} :
    SpellsGroup used c → SpellsPartialName used (.computed c)

inductive SpellsContext : List Token → Option Expression → Prop
  | none : SpellsContext [] none
  | some {used : List Token} {e : Expression} :
    SpellsExpression used e → SpellsContext used (some e)

def SpellsHead (used : List Token) (c : Call Path) : Prop :=
  SpellsCall used ⟨.path c.head, c.operands, c.region⟩

/-- What stands between two pairs of braces, the first of which is at `marker`.
The whole tag is at `whole`. -/
inductive SpellsTag (marker whole : Region) : List Token → Tag → Prop
  | output {used : List Token} {c : Call Expression} :
    SpellsCall used c → SpellsTag marker whole used (.node (.output c true whole))
  | opening {hash : Token} {used : List Token} {c : Call Path} :
    hash.kind = .hash → SpellsHead used c →
    SpellsTag marker whole (hash :: used) (.opening ⟨c, false, whole⟩)
  | negated {caret : Token} {used : List Token} {c : Call Path} :
    caret.kind = .caret → c.operands.isEmpty = true → SpellsHead used c →
    SpellsTag marker whole (caret :: used) (.opening ⟨c, true, whole⟩)
  | caret {caret : Token} :
    caret.kind = .caret → SpellsTag marker whole [caret] (.alternative marker)
  | alternative {word : Token} :
    word.kind = .elseKeyword → SpellsTag marker whole [word] (.alternative marker)
  | alternativeOpening {word : Token} {used : List Token} {c : Call Path} :
    word.kind = .elseKeyword → SpellsHead used c →
    SpellsTag marker whole (word :: used) (.alternativeOpening marker ⟨c, false, whole⟩)
  | closing {slash : Token} :
    slash.kind = .slash → SpellsTag marker whole [slash] (.closing none whole)
  | closingName {slash name : Token} :
    slash.kind = .slash → name.kind = .path →
    SpellsTag marker whole [slash, name] (.closing (some (name.text, name.region)) whole)
  | inclusion {angle : Token} {used rest : List Token} {name : PartialName}
    {context : Option Expression} :
    angle.kind = .angle → SpellsPartialName used name → SpellsContext rest context →
    SpellsTag marker whole (angle :: (used ++ rest)) (.node (.inclusion name context whole))

def rawCloser (marker : Token) : Token.Kind :=
  if marker.text.getLast? = some '{' then .endRaw else .endExpression

/-- A text, a comment, which stands for nothing, or a tag with its markers. -/
inductive SpellsPart : List Token → Option Tag → Prop
  | raw {t : Token} : t.kind = .raw → SpellsPart [t] (some (.node (.raw (String.ofList t.text) t.region)))
  | comment {t : Token} : t.kind = .comment → SpellsPart [t] none
  | rawOutput {marker closing : Token} {used : List Token} {c : Call Expression} :
    marker.kind = .beginRaw → closing.kind = rawCloser marker → SpellsCall used c →
    SpellsPart (marker :: (used ++ [closing]))
      (some (.node (.output c false (marker.region.combine closing.region))))
  | tag {marker closing : Token} {used : List Token} {tag : Tag} :
    marker.kind = .beginExpression → closing.kind = .endExpression →
    SpellsTag marker.region (marker.region.combine closing.region) used tag →
    SpellsPart (marker :: (used ++ [closing])) (some tag)

inductive SpellsTags : List Token → List Tag → Prop
  | nil : SpellsTags [] []
  | cons {used rest : List Token} {part : Option Tag} {tags : List Tag} :
    SpellsPart used part → SpellsTags rest tags → SpellsTags (used ++ rest) (part.toList ++ tags)

theorem SpellsTags.append {a b : List Token} {x y : List Tag} (ha : SpellsTags a x)
    (hb : SpellsTags b y) : SpellsTags (a ++ b) (x ++ y) := by
  induction ha with
  | nil => exact hb
  | cons hp _ ih => simpa only [List.append_assoc] using SpellsTags.cons hp ih

namespace Reading

/-! ## What is read is spelled -/

theorem expect_ok {stop : Region} {kind : Token.Kind} {tokens rest : List Token} {t : Token} :
    expect stop kind tokens = .ok (t, rest) ↔ tokens = t :: rest ∧ t.kind = kind := by
  cases tokens with
  | nil => simp [expect]
  | cons u tokens =>
    by_cases hu : u.kind = kind
    · simp only [expect, hu, ite_true, Except.ok.injEq, Prod.mk.injEq, List.cons.injEq]
      constructor
      · rintro ⟨rfl, rfl⟩; exact ⟨⟨rfl, rfl⟩, hu⟩
      · rintro ⟨⟨rfl, rfl⟩, -⟩; exact ⟨rfl, rfl⟩
    · constructor
      · intro h
        simp only [expect, hu, ite_false] at h
        split at h <;> cases h
      · rintro ⟨h, rfl⟩
        exact absurd (congrArg Token.kind (List.cons.inj h).1) hu

theorem blockHead_sound {stop : Region} {tokens rest : List Token} {c : Call Path}
    (h : blockHead stop tokens = .ok (c, rest)) :
    ∃ used, tokens = used ++ rest ∧ SpellsHead used c ∧ EndsCall rest := by
  unfold blockHead at h
  cases hc : call stop (depthFor tokens) tokens with
  | error e => simp [hc, bind, Except.bind] at h
  | ok r =>
    obtain ⟨⟨head, o, region⟩, rest'⟩ := r
    simp only [hc, bind, Except.bind] at h
    cases head with
    | path p =>
      simp only [Except.ok.injEq, Prod.mk.injEq] at h
      obtain ⟨rfl, rfl⟩ := h
      exact call_sound _ hc
    | _ => simp at h

theorem opening_sound {stop marker : Region} {negated : Bool} {tokens rest : List Token} {o : Opening}
    (h : opening stop marker negated tokens = .ok (o, rest)) :
    ∃ used closing c, tokens = used ++ closing :: rest ∧ closing.kind = .endExpression ∧
      SpellsHead used c ∧ o = ⟨c, negated, marker.combine closing.region⟩ ∧
      (negated = true → c.operands.isEmpty = true) := by
  unfold opening at h
  cases hb : blockHead stop tokens with
  | error e => simp [hb, bind, Except.bind] at h
  | ok r =>
    obtain ⟨c, rest'⟩ := r
    obtain ⟨used, rfl, hs, -⟩ := blockHead_sound hb
    simp only [hb, bind, Except.bind] at h
    by_cases hn : (negated && !c.operands.isEmpty) = true
    · simp [hn] at h
    · simp only [hn, Bool.false_eq_true, ite_false] at h
      cases he : expect stop .endExpression rest' with
      | error e => simp [he] at h
      | ok r =>
        obtain ⟨closing, rest''⟩ := r
        obtain ⟨rfl, hk⟩ := expect_ok.mp he
        simp only [he, Except.ok.injEq, Prod.mk.injEq] at h
        obtain ⟨rfl, rfl⟩ := h
        refine ⟨used, closing, c, rfl, hk, hs, rfl, fun hneg => ?_⟩
        simpa [hneg] using hn

theorem partialName_sound {stop : Region} {tokens rest : List Token} {name : PartialName}
    (h : partialName stop tokens = .ok (name, rest)) :
    ∃ used, tokens = used ++ rest ∧ SpellsPartialName used name := by
  cases tokens with
  | nil => simp [partialName] at h
  | cons t tokens =>
    simp only [partialName] at h
    split at h
    · rename_i hk
      simp only [Except.ok.injEq, Prod.mk.injEq] at h
      obtain ⟨rfl, rfl⟩ := h
      exact ⟨[t], rfl, .path hk⟩
    · rename_i hk
      cases hq : quoted t with
      | error e => simp [hq, Except.map] at h
      | ok s =>
        simp only [hq, Except.map, Except.ok.injEq, Prod.mk.injEq] at h
        obtain ⟨rfl, rfl⟩ := h
        exact ⟨[t], rfl, .string hk hq⟩
    · rename_i hk
      cases hg : group stop (depthFor tokens) t.region tokens with
      | error e => simp [hg, Except.map] at h
      | ok r =>
        obtain ⟨c, rest'⟩ := r
        simp only [hg, Except.map, Except.ok.injEq, Prod.mk.injEq] at h
        obtain ⟨rfl, rfl⟩ := h
        obtain ⟨used, rfl, hs⟩ := group_sound _ hk hg
        exact ⟨t :: used, rfl, .computed hs⟩
    · cases h
    · cases h

theorem output_sound {stop marker : Region} {tokens rest : List Token} {tag : Tag}
    (h : output stop marker tokens = .ok (tag, rest)) :
    ∃ used closing, tokens = used ++ closing :: rest ∧ closing.kind = .endExpression ∧
      SpellsTag marker (marker.combine closing.region) used tag := by
  unfold output at h
  cases hc : call stop (depthFor tokens) tokens with
  | error e => simp [hc, bind, Except.bind] at h
  | ok r =>
    obtain ⟨c, rest'⟩ := r
    simp only [hc, bind, Except.bind] at h
    cases he : expect stop .endExpression rest' with
    | error e => simp [he] at h
    | ok r =>
      obtain ⟨closing, rest''⟩ := r
      obtain ⟨rfl, hk⟩ := expect_ok.mp he
      obtain ⟨used, rfl, hs, -⟩ := call_sound _ hc
      simp only [he, Except.ok.injEq, Prod.mk.injEq] at h
      obtain ⟨rfl, rfl⟩ := h
      exact ⟨used, closing, rfl, hk, .output hs⟩

theorem rawOutput_sound {stop : Region} {marker : Token} {tokens rest : List Token} {tag : Tag}
    (h : rawOutput stop marker tokens = .ok (tag, rest)) :
    ∃ used closing c, tokens = used ++ closing :: rest ∧ closing.kind = rawCloser marker ∧
      SpellsCall used c ∧ tag = .node (.output c false (marker.region.combine closing.region)) := by
  unfold rawOutput at h
  cases hc : call stop (depthFor tokens) tokens with
  | error e => simp [hc, bind, Except.bind] at h
  | ok r =>
    obtain ⟨c, rest'⟩ := r
    simp only [hc, bind, Except.bind] at h
    cases he : expect stop (rawCloser marker) rest' with
    | error e => simp [rawCloser] at he; simp [he] at h
    | ok r =>
      obtain ⟨closing, rest''⟩ := r
      obtain ⟨rfl, hk⟩ := expect_ok.mp he
      obtain ⟨used, rfl, hs, -⟩ := call_sound _ hc
      rw [rawCloser] at he
      simp only [he, Except.ok.injEq, Prod.mk.injEq] at h
      obtain ⟨rfl, rfl⟩ := h
      exact ⟨used, closing, c, rfl, hk, hs, rfl⟩

theorem inclusion_sound {stop marker : Region} (angle : Token) {tokens rest : List Token} {tag : Tag}
    (ha : angle.kind = .angle) (h : inclusion stop marker tokens = .ok (tag, rest)) :
    ∃ used closing, tokens = used ++ closing :: rest ∧ closing.kind = .endExpression ∧
      SpellsTag marker (marker.combine closing.region) (angle :: used) tag := by
  unfold inclusion at h
  cases hn : partialName stop tokens with
  | error e => simp [hn, bind, Except.bind] at h
  | ok r =>
    obtain ⟨name, behind⟩ := r
    obtain ⟨used, rfl, hs⟩ := partialName_sound hn
    simp only [hn, bind, Except.bind] at h
    split at h
    · simp only [Except.ok.injEq, Prod.mk.injEq] at h
      obtain ⟨rfl, rfl⟩ := h
      exact ⟨used, _, rfl, rfl, by simpa using SpellsTag.inclusion ha hs .none⟩
    · cases he : expression stop (depthFor behind) behind with
      | error e => simp [he] at h
      | ok r =>
        obtain ⟨e, behind⟩ := r
        obtain ⟨second, rfl, hs'⟩ := expression_sound _ he
        simp only [he] at h
        cases hc : expect stop .endExpression behind with
        | error e => simp [hc] at h
        | ok r =>
          obtain ⟨closing, behind⟩ := r
          obtain ⟨rfl, hk⟩ := expect_ok.mp hc
          simp only [hc, Except.ok.injEq, Prod.mk.injEq] at h
          obtain ⟨rfl, rfl⟩ := h
          exact ⟨used ++ second, closing, by simp, hk, .inclusion ha hs (.some hs')⟩

theorem closing_sound {stop marker : Region} (slash : Token) {tokens rest : List Token} {tag : Tag}
    (ha : slash.kind = .slash) (h : closing stop marker tokens = .ok (tag, rest)) :
    ∃ used closing, tokens = used ++ closing :: rest ∧ closing.kind = .endExpression ∧
      SpellsTag marker (marker.combine closing.region) (slash :: used) tag := by
  unfold closing at h
  split at h
  · rename_i name region tokens
    cases he : expect stop .endExpression tokens with
    | error e => simp [he, Except.map] at h
    | ok r =>
      obtain ⟨last, behind⟩ := r
      obtain ⟨rfl, hk⟩ := expect_ok.mp he
      simp only [he, Except.map, Except.ok.injEq, Prod.mk.injEq] at h
      obtain ⟨rfl, rfl⟩ := h
      exact ⟨[⟨.path, name, region⟩], last, rfl, hk, .closingName ha rfl⟩
  · cases he : expect stop .endExpression tokens with
    | error e => simp [he, Except.map] at h
    | ok r =>
      obtain ⟨last, behind⟩ := r
      obtain ⟨rfl, hk⟩ := expect_ok.mp he
      simp only [he, Except.map, Except.ok.injEq, Prod.mk.injEq] at h
      obtain ⟨rfl, rfl⟩ := h
      exact ⟨[], last, rfl, hk, .closing ha⟩

theorem caret_sound {stop marker : Region} (caret : Token) {tokens rest : List Token} {tag : Tag}
    (ha : caret.kind = .caret) (h : Reading.caret stop marker tokens = .ok (tag, rest)) :
    ∃ used closing, tokens = used ++ closing :: rest ∧ closing.kind = .endExpression ∧
      SpellsTag marker (marker.combine closing.region) (caret :: used) tag := by
  unfold Reading.caret at h
  split at h
  · simp only [Except.ok.injEq, Prod.mk.injEq] at h
    obtain ⟨rfl, rfl⟩ := h
    exact ⟨[], _, rfl, rfl, .caret ha⟩
  · cases ho : opening stop marker true tokens with
    | error e => simp [ho, Except.map] at h
    | ok r =>
      obtain ⟨o, behind⟩ := r
      obtain ⟨used, closing, c, rfl, hk, hs, rfl, hargs⟩ := opening_sound ho
      simp only [ho, Except.map, Except.ok.injEq, Prod.mk.injEq] at h
      obtain ⟨rfl, rfl⟩ := h
      exact ⟨used, closing, rfl, hk, .negated ha (hargs rfl) hs⟩

theorem alternative_sound {stop marker : Region} (word : Token) {tokens rest : List Token} {tag : Tag}
    (ha : word.kind = .elseKeyword) (h : alternative stop marker tokens = .ok (tag, rest)) :
    ∃ used closing, tokens = used ++ closing :: rest ∧ closing.kind = .endExpression ∧
      SpellsTag marker (marker.combine closing.region) (word :: used) tag := by
  unfold alternative at h
  split at h
  · simp only [Except.ok.injEq, Prod.mk.injEq] at h
    obtain ⟨rfl, rfl⟩ := h
    exact ⟨[], _, rfl, rfl, .alternative ha⟩
  · cases ho : opening stop marker false tokens with
    | error e => simp [ho, Except.map] at h
    | ok r =>
      obtain ⟨o, behind⟩ := r
      obtain ⟨used, closing, c, rfl, hk, hs, rfl, -⟩ := opening_sound ho
      simp only [ho, Except.map, Except.ok.injEq, Prod.mk.injEq] at h
      obtain ⟨rfl, rfl⟩ := h
      exact ⟨used, closing, rfl, hk, .alternativeOpening ha hs⟩

theorem tag_sound {stop marker : Region} {tokens rest : List Token} {tag : Tag}
    (h : Reading.tag stop marker tokens = .ok (tag, rest)) :
    ∃ used closing, tokens = used ++ closing :: rest ∧ closing.kind = .endExpression ∧
      SpellsTag marker (marker.combine closing.region) used tag := by
  unfold Reading.tag at h
  split at h
  · rename_i text region tokens
    cases ho : opening stop marker false tokens with
    | error e => simp [ho, Except.map] at h
    | ok r =>
      obtain ⟨o, behind⟩ := r
      obtain ⟨used, closing, c, rfl, hk, hs, rfl, -⟩ := opening_sound ho
      simp only [ho, Except.map, Except.ok.injEq, Prod.mk.injEq] at h
      obtain ⟨rfl, rfl⟩ := h
      exact ⟨⟨.hash, text, region⟩ :: used, closing, rfl, hk, .opening rfl hs⟩
  · rename_i text region tokens
    obtain ⟨used, closing, rfl, hk, hs⟩ := caret_sound ⟨.caret, text, region⟩ rfl h
    exact ⟨_ :: used, closing, rfl, hk, hs⟩
  · rename_i text region tokens
    obtain ⟨used, closing, rfl, hk, hs⟩ := alternative_sound ⟨.elseKeyword, text, region⟩ rfl h
    exact ⟨_ :: used, closing, rfl, hk, hs⟩
  · rename_i text region tokens
    obtain ⟨used, closing, rfl, hk, hs⟩ := closing_sound ⟨.slash, text, region⟩ rfl h
    exact ⟨_ :: used, closing, rfl, hk, hs⟩
  · rename_i text region tokens
    obtain ⟨used, closing, rfl, hk, hs⟩ := inclusion_sound ⟨.angle, text, region⟩ rfl h
    exact ⟨_ :: used, closing, rfl, hk, hs⟩
  · exact output_sound h

theorem part_sound {stop : Region} {t : Token} {tokens rest : List Token} {p : Option Tag}
    (h : part stop t tokens = .ok (p, rest)) :
    ∃ used, t :: tokens = used ++ rest ∧ SpellsPart used p := by
  unfold part at h
  split at h
  · rename_i hk
    simp only [Except.ok.injEq, Prod.mk.injEq] at h
    obtain ⟨rfl, rfl⟩ := h
    exact ⟨[t], rfl, .raw hk⟩
  · rename_i hk
    simp only [Except.ok.injEq, Prod.mk.injEq] at h
    obtain ⟨rfl, rfl⟩ := h
    exact ⟨[t], rfl, .comment hk⟩
  · rename_i hk
    cases ho : rawOutput stop t tokens with
    | error e => simp [ho, Except.map] at h
    | ok r =>
      obtain ⟨tag, behind⟩ := r
      obtain ⟨used, closing, c, rfl, hc, hs, rfl⟩ := rawOutput_sound ho
      simp only [ho, Except.map, Except.ok.injEq, Prod.mk.injEq] at h
      obtain ⟨rfl, rfl⟩ := h
      exact ⟨t :: (used ++ [closing]), by simp, .rawOutput hk hc hs⟩
  · rename_i hk
    cases ho : Reading.tag stop t.region tokens with
    | error e => simp [ho, Except.map] at h
    | ok r =>
      obtain ⟨tag, behind⟩ := r
      obtain ⟨used, closing, rfl, hc, hs⟩ := tag_sound ho
      simp only [ho, Except.map, Except.ok.injEq, Prod.mk.injEq] at h
      obtain ⟨rfl, rfl⟩ := h
      exact ⟨t :: (used ++ [closing]), by simp, .tag hk hc hs⟩
  · cases h
  · cases h

theorem tags_sound : ∀ (n : Nat) {stop : Region} {tokens : List Token} {ts : List Tag},
    tags stop n tokens = (ts, none) → SpellsTags tokens ts
  | _, _, [], ts, h => by
    simp only [tags, Prod.mk.injEq] at h
    obtain ⟨rfl, -⟩ := h
    exact .nil
  | 0, _, t :: tokens, ts, h => by simp [tags] at h
  | n + 1, stop, t :: tokens, ts, h => by
    rw [tags] at h
    cases hp : part stop t tokens with
    | error e => simp [hp] at h
    | ok r =>
      obtain ⟨p, rest⟩ := r
      obtain ⟨used, hu, hs⟩ := part_sound hp
      simp only [hp, Prod.mk.injEq] at h
      obtain ⟨rfl, he⟩ := h
      rw [hu]
      exact .cons hs (tags_sound n (Prod.ext rfl he))

/-! ## What is spelled is read -/

theorem depthFor_le (used rest : List Token) : 4 * used.length + 1 ≤ depthFor (used ++ rest) := by
  simp only [depthFor, List.length_append]
  omega

theorem endsCall_cons {closing : Token} (rest : List Token) (h : endsCall closing.kind = true) :
    EndsCall (closing :: rest) := by
  simpa [EndsCall] using h

theorem expect_cons (stop : Region) {kind : Token.Kind} {t : Token} (rest : List Token)
    (h : t.kind = kind) : expect stop kind (t :: rest) = .ok (t, rest) :=
  expect_ok.mpr ⟨rfl, h⟩

theorem blockHead_complete {used : List Token} {c : Call Path} (h : SpellsHead used c) (stop : Region)
    {rest : List Token} (hend : EndsCall rest) : blockHead stop (used ++ rest) = .ok (c, rest) := by
  unfold blockHead
  rw [call_complete h stop hend (depthFor_le _ _)]
  rfl

theorem opening_complete {used : List Token} {c : Call Path} (h : SpellsHead used c)
    (stop marker : Region) (negated : Bool) (closing : Token) (rest : List Token)
    (hk : closing.kind = .endExpression) (hargs : negated = true → c.operands.isEmpty = true) :
    opening stop marker negated (used ++ closing :: rest) =
      .ok (⟨c, negated, marker.combine closing.region⟩, rest) := by
  have hend : EndsCall (closing :: rest) := endsCall_cons rest (by rw [hk]; rfl)
  have hn : (negated && !c.operands.isEmpty) = false := by
    cases negated with
    | false => rfl
    | true => simp [hargs rfl]
  unfold opening
  simp [blockHead_complete h stop hend, hn, expect_cons stop rest hk, bind, Except.bind]

theorem partialName_complete {used : List Token} {name : PartialName} (h : SpellsPartialName used name)
    (stop : Region) (rest : List Token) : partialName stop (used ++ rest) = .ok (name, rest) := by
  cases h with
  | path hk => simp [partialName, hk]
  | string hk hq => simp [partialName, hk, hq, Except.map]
  | computed hg =>
    obtain ⟨opening, tokens, rfl, hk⟩ := hg.head
    have hn : 4 * tokens.length ≤ depthFor (tokens ++ rest) := by
      have := depthFor_le tokens rest
      omega
    simp [partialName, hk, group_complete hg rfl stop rest hn, Except.map]

/-! A mark with nothing behind it and one with a call behind it are told apart by
the first token of the call, which closes no tag. -/

theorem ne_endExpression_of_begins {kind : Token.Kind} (h : beginsExpression kind = true) :
    kind ≠ .endExpression := by
  rintro rfl
  cases h

theorem output_complete {used : List Token} {c : Call Expression} (h : SpellsCall used c) (stop marker : Region)
    (closing : Token) (rest : List Token) (hk : closing.kind = .endExpression) :
    output stop marker (used ++ closing :: rest) =
      .ok (.node (.output c true (marker.combine closing.region)), rest) := by
  have hend : EndsCall (closing :: rest) := endsCall_cons rest (by rw [hk]; rfl)
  unfold output
  simp [call_complete h stop hend (depthFor_le _ _), expect_cons stop rest hk, bind, Except.bind]

theorem caret_cons {stop marker : Region} {t : Token} {tokens : List Token} (ht : t.kind ≠ .endExpression) :
    Reading.caret stop marker (t :: tokens) =
      (opening stop marker true (t :: tokens)).map fun (o, rest) => (.opening o, rest) := by
  unfold Reading.caret
  split
  · rename_i heq
    obtain ⟨rfl, -⟩ := List.cons.inj heq
    cases ht rfl
  · rfl

theorem alternative_cons {stop marker : Region} {t : Token} {tokens : List Token} (ht : t.kind ≠ .endExpression) :
    alternative stop marker (t :: tokens) =
      (opening stop marker false (t :: tokens)).map fun (o, rest) => (.alternativeOpening marker o, rest) := by
  unfold alternative
  split
  · rename_i heq
    obtain ⟨rfl, -⟩ := List.cons.inj heq
    cases ht rfl
  · rfl

theorem caret_complete {used : List Token} {c : Call Path} (h : SpellsHead used c) (hargs : c.operands.isEmpty = true)
    (stop marker : Region) (closing : Token) (rest : List Token) (hk : closing.kind = .endExpression) :
    Reading.caret stop marker (used ++ closing :: rest) =
      .ok (.opening ⟨c, true, marker.combine closing.region⟩, rest) := by
  have ho := opening_complete h stop marker true closing rest hk fun _ => hargs
  obtain ⟨t, tokens, rfl, ht⟩ := SpellsCall.head h
  rw [List.cons_append] at ho ⊢
  rw [caret_cons (ne_endExpression_of_begins ht), ho]
  rfl

theorem alternative_complete {used : List Token} {c : Call Path} (h : SpellsHead used c) (stop marker : Region)
    (closing : Token) (rest : List Token) (hk : closing.kind = .endExpression) :
    alternative stop marker (used ++ closing :: rest) =
      .ok (.alternativeOpening marker ⟨c, false, marker.combine closing.region⟩, rest) := by
  have ho := opening_complete h stop marker false closing rest hk nofun
  obtain ⟨t, tokens, rfl, ht⟩ := SpellsCall.head h
  rw [List.cons_append] at ho ⊢
  rw [alternative_cons (ne_endExpression_of_begins ht), ho]
  rfl

theorem inclusion_complete {used second : List Token} {name : PartialName} {context : Option Expression}
    (hn : SpellsPartialName used name) (hc : SpellsContext second context) (stop marker : Region) (closing : Token)
    (rest : List Token) (hk : closing.kind = .endExpression) :
    inclusion stop marker (used ++ (second ++ closing :: rest)) =
      .ok (.node (.inclusion name context (marker.combine closing.region)), rest) := by
  obtain ⟨kind, text, region⟩ := closing
  obtain rfl : kind = .endExpression := hk
  simp only [inclusion, bind, Except.bind, partialName_complete hn]
  cases hc with
  | none => rfl
  | some he =>
    have hr := expression_complete he stop (⟨.endExpression, text, region⟩ :: rest)
      (Nat.le_of_succ_le (depthFor_le _ (⟨.endExpression, text, region⟩ :: rest)))
    obtain ⟨t, tokens, rfl, ht⟩ := he.head
    rw [List.cons_append] at hr ⊢
    split
    · rename_i heq
      obtain ⟨rfl, -⟩ := List.cons.inj heq
      cases ht
    · simp [hr, expect_cons]

theorem tag_complete {marker whole : Region} {used : List Token} {tag : Tag}
    (h : SpellsTag marker whole used tag) (stop : Region) {closing : Token} (rest : List Token)
    (hk : closing.kind = .endExpression) (hw : whole = marker.combine closing.region) :
    Reading.tag stop marker (used ++ closing :: rest) = .ok (tag, rest) := by
  subst hw
  cases h with
  | @output _ c hc =>
    obtain ⟨t, tokens, hu, ht⟩ := hc.head
    rw [← output_complete hc stop marker closing rest hk, hu]
    obtain ⟨kind, text, region⟩ := t
    cases kind <;> first | rfl | cases ht
  | @opening hash used c hh hs =>
    obtain ⟨kind, text, region⟩ := hash
    obtain rfl : kind = .hash := hh
    simp [Reading.tag, opening_complete hs stop marker false closing rest hk nofun, Except.map]
  | @negated caret used c hh hargs hs =>
    obtain ⟨kind, text, region⟩ := caret
    obtain rfl : kind = .caret := hh
    exact caret_complete hs hargs stop marker closing rest hk
  | @caret caret hh =>
    obtain ⟨kind, text, region⟩ := caret
    obtain rfl : kind = .caret := hh
    obtain ⟨kind, text, region⟩ := closing
    obtain rfl : kind = .endExpression := hk
    rfl
  | @alternative word hh =>
    obtain ⟨kind, text, region⟩ := word
    obtain rfl : kind = .elseKeyword := hh
    obtain ⟨kind, text, region⟩ := closing
    obtain rfl : kind = .endExpression := hk
    rfl
  | @alternativeOpening word used c hh hs =>
    obtain ⟨kind, text, region⟩ := word
    obtain rfl : kind = .elseKeyword := hh
    exact alternative_complete hs stop marker closing rest hk
  | @closing slash hh =>
    obtain ⟨kind, text, region⟩ := slash
    obtain rfl : kind = .slash := hh
    obtain ⟨kind, text, region⟩ := closing
    obtain rfl : kind = .endExpression := hk
    rfl
  | @closingName slash name hh hn =>
    obtain ⟨kind, text, region⟩ := slash
    obtain rfl : kind = .slash := hh
    obtain ⟨kind, name, region⟩ := name
    obtain rfl : kind = .path := hn
    obtain ⟨kind, text, region⟩ := closing
    obtain rfl : kind = .endExpression := hk
    rfl
  | @inclusion angle used second name context hh hn hc =>
    obtain ⟨kind, text, region⟩ := angle
    obtain rfl : kind = .angle := hh
    rw [List.cons_append, List.append_assoc]
    exact inclusion_complete hn hc stop marker closing rest hk

theorem part_complete {used : List Token} {p : Option Tag} (h : SpellsPart used p) :
    ∃ t tokens, used = t :: tokens ∧
      ∀ stop rest, part stop t (tokens ++ rest) = .ok (p, rest) := by
  cases h with
  | @raw t hk => exact ⟨t, [], rfl, fun stop rest => by simp [part, hk]⟩
  | @comment t hk => exact ⟨t, [], rfl, fun stop rest => by simp [part, hk]⟩
  | @rawOutput marker closing used c hk hc hs =>
    refine ⟨marker, used ++ [closing], rfl, fun stop rest => ?_⟩
    have hend : EndsCall (closing :: rest) := endsCall_cons rest (by rw [hc]; unfold rawCloser; split <;> rfl)
    have hout : rawOutput stop marker (used ++ closing :: rest) =
        .ok (.node (.output c false (marker.region.combine closing.region)), rest) := by
      unfold rawOutput
      rw [call_complete hs stop hend (depthFor_le _ _)]
      have he := expect_cons stop rest hc
      rw [rawCloser] at he
      simp only [bind, Except.bind, he]
    simp [part, hk, hout, Except.map]
  | @tag marker closing used tag hk hc hs =>
    refine ⟨marker, used ++ [closing], rfl, fun stop rest => ?_⟩
    simp [part, hk, tag_complete hs stop rest hc rfl, Except.map]

theorem tags_complete {tokens : List Token} {ts : List Tag} (h : SpellsTags tokens ts) (stop : Region) :
    ∀ {n : Nat}, tokens.length ≤ n → tags stop n tokens = (ts, none) := by
  induction h with
  | nil => intro n _; simp [tags]
  | @cons used rest p ts hp _ ih =>
    intro n hn
    obtain ⟨t, tokens, rfl, hread⟩ := part_complete hp
    simp only [List.cons_append, List.length_cons, List.length_append] at hn
    obtain ⟨n, rfl⟩ : ∃ m, n = m + 1 := ⟨n - 1, by omega⟩
    have hrest := ih (n := n) (by omega)
    rw [List.cons_append, tags, hread stop rest]
    simp only [hrest]

end Reading

theorem SpellsPart.tags_append {used rest : List Token} {part : Option Tag} {tags : List Tag}
    (hp : SpellsPart used part) (h : SpellsTags (used ++ rest) tags) :
    ∃ tags', tags = part.toList ++ tags' ∧ SpellsTags rest tags' := by
  obtain ⟨t, tokens, rfl, hread⟩ := Reading.part_complete hp
  generalize hc : t :: tokens ++ rest = c at h
  cases h with
  | nil => simp at hc
  | @cons used' rest' part' tags' hp' hs =>
    obtain ⟨t', tokens', rfl, hread'⟩ := Reading.part_complete hp'
    obtain ⟨rfl, htokens⟩ : t = t' ∧ tokens ++ rest = tokens' ++ rest' := List.cons.inj hc
    have hsame := hread' default rest'
    rw [← htokens, hread default rest] at hsame
    obtain ⟨rfl, rfl⟩ := Prod.mk.inj (Except.ok.inj hsame)
    exact ⟨tags', rfl, hs⟩

/-- The tags of a source are those that its tokens spell. -/
theorem Tag.ofSource_eq_iff {source : List Char} {ts : List Tag} :
    Tag.ofSource source = (ts, none) ↔ SpellsTags (Token.ofSource source) ts :=
  ⟨Reading.tags_sound _, fun h => Reading.tags_complete h _ (Nat.le_refl _)⟩

end Curly
