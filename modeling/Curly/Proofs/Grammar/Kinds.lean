import Curly.Proofs.Grammar.Tag

/-!
# Where parts begin

A part of a template begins with a text, a comment or an opening marker, and no
such token stands further on in it. So the tokens of a template can be cut
before an opening marker (`SpellsTags.split`), and none of them is without meaning.
-/

namespace Curly

/-- Whether the token stands inside a part, behind its first token. -/
def Token.Kind.continues : Kind → Bool
  | .raw | .comment | .beginExpression | .beginRaw | .invalid _ => false
  | _ => true

def Token.Kind.begins : Kind → Bool
  | .raw | .comment | .beginExpression | .beginRaw => true
  | _ => false

theorem Token.Kind.continues_of_begins {kind : Kind} (h : kind.begins) : kind.continues = false := by
  cases kind <;> first | rfl | cases h

/-- Whether the token may stand in an expression. -/
def Token.Kind.ofExpression (kind : Kind) : Bool :=
  Reading.beginsExpression kind || kind = .endGroup || kind = .assign

theorem Token.Kind.continues_of_ofExpression {kind : Kind} (h : kind.ofExpression) : kind.continues := by
  cases kind <;> first | rfl | cases h

def Continue (tokens : List Token) : Prop :=
  ∀ t ∈ tokens, t.kind.continues

theorem Continue.append {a b : List Token} (ha : Continue a) (hb : Continue b) : Continue (a ++ b) :=
  fun t ht => (List.mem_append.mp ht).elim (ha t) (hb t)

theorem Continue.cons {t : Token} {tokens : List Token} (ht : t.kind.continues) (h : Continue tokens) :
    Continue (t :: tokens) :=
  List.forall_mem_cons.mpr ⟨ht, h⟩

theorem Continue.nil : Continue [] :=
  fun _ h => nomatch h

mutual

theorem SpellsExpression.kinds {used : List Token} {e : Expression} (h : SpellsExpression used e) :
    ∀ t ∈ used, t.kind.ofExpression := by
  match h with
  | .atom ha =>
    refine List.forall_mem_singleton.mpr ?_
    rw [Token.Kind.ofExpression, Reading.beginsExpression_of_atom ha]
    rfl
  | .call hg => exact SpellsGroup.kinds hg

theorem SpellsGroup.kinds {used : List Token} {c : Call Path} (h : SpellsGroup used c) :
    ∀ t ∈ used, t.kind.ofExpression := by
  match h with
  | .mk ho hc _ hcall =>
    refine List.forall_mem_cons.mpr ⟨by rw [ho]; rfl, List.forall_mem_append.mpr ⟨SpellsCall.kinds hcall, ?_⟩⟩
    exact List.forall_mem_singleton.mpr (by rw [hc]; rfl)

theorem SpellsCall.kinds {used : List Token} {c : Call Expression} (h : SpellsCall used c) :
    ∀ t ∈ used, t.kind.ofExpression := by
  match h with
  | .mk he ho => exact List.forall_mem_append.mpr ⟨SpellsExpression.kinds he, SpellsOperands.kinds ho⟩

theorem SpellsOperands.kinds {used : List Token} {o : Operands} (h : SpellsOperands used o) :
    ∀ t ∈ used, t.kind.ofExpression := by
  match h with
  | .nil => exact fun _ h => nomatch h
  | .positional he ho => exact List.forall_mem_append.mpr ⟨SpellsExpression.kinds he, SpellsOperands.kinds ho⟩
  | .named hk _ _ ha he ho =>
    refine List.forall_mem_cons.mpr ⟨by rw [hk]; rfl, List.forall_mem_cons.mpr ⟨by rw [ha]; rfl, ?_⟩⟩
    exact List.forall_mem_append.mpr ⟨SpellsExpression.kinds he, SpellsOperands.kinds ho⟩

end

theorem Continue.of_kinds {tokens : List Token} (h : ∀ t ∈ tokens, t.kind.ofExpression) : Continue tokens :=
  fun t ht => Token.Kind.continues_of_ofExpression (h t ht)

theorem SpellsCall.continues {used : List Token} {c : Call Expression} (h : SpellsCall used c) : Continue used :=
  .of_kinds h.kinds

theorem SpellsPartialName.continues {used : List Token} {name : PartialName} (h : SpellsPartialName used name) :
    Continue used := by
  cases h with
  | path hk => exact .cons (by rw [hk]; rfl) .nil
  | string hk _ => exact .cons (by rw [hk]; rfl) .nil
  | computed hg => exact .of_kinds hg.kinds

theorem SpellsContext.continues {used : List Token} {context : Option Expression} (h : SpellsContext used context) :
    Continue used := by
  cases h with
  | none => exact .nil
  | some he => exact .of_kinds he.kinds

theorem SpellsTag.continues {marker whole : Region} {used : List Token} {tag : Tag}
    (h : SpellsTag marker whole used tag) : Continue used := by
  cases h with
  | output hc => exact hc.continues
  | opening hk hs => exact .cons (by rw [hk]; rfl) (SpellsCall.continues hs)
  | negated hk _ hs => exact .cons (by rw [hk]; rfl) (SpellsCall.continues hs)
  | caret hk => exact .cons (by rw [hk]; rfl) .nil
  | alternative hk => exact .cons (by rw [hk]; rfl) .nil
  | alternativeOpening hk hs => exact .cons (by rw [hk]; rfl) (SpellsCall.continues hs)
  | closing hk => exact .cons (by rw [hk]; rfl) .nil
  | closingName hk hn => exact .cons (by rw [hk]; rfl) (.cons (by rw [hn]; rfl) .nil)
  | inclusion hk hn hc => exact .cons (by rw [hk]; rfl) (hn.continues.append hc.continues)

theorem SpellsPart.begins {used : List Token} {part : Option Tag} (h : SpellsPart used part) :
    ∃ t tokens, used = t :: tokens ∧ t.kind.begins ∧ Continue tokens := by
  cases h with
  | raw hk => exact ⟨_, [], rfl, by rw [hk]; rfl, .nil⟩
  | comment hk => exact ⟨_, [], rfl, by rw [hk]; rfl, .nil⟩
  | @rawOutput marker closing used c hk hc hs =>
    refine ⟨_, _, rfl, by rw [hk]; rfl, hs.continues.append (.cons ?_ .nil)⟩
    rw [hc]
    unfold rawCloser
    split <;> rfl
  | tag hk hc hs => exact ⟨_, _, rfl, by rw [hk]; rfl, hs.continues.append (.cons (by rw [hc]; rfl) .nil)⟩

theorem SpellsTags.kind {tokens : List Token} {tags : List Tag} (h : SpellsTags tokens tags) :
    ∀ t ∈ tokens, t.kind.begins ∨ t.kind.continues := by
  induction h with
  | nil => exact fun _ h => nomatch h
  | cons hp _ ih =>
    obtain ⟨t, used, rfl, ht, hused⟩ := hp.begins
    intro u hu
    rcases List.mem_append.mp hu with hu | hu
    · rcases List.mem_cons.mp hu with rfl | hu
      · exact .inl ht
      · exact .inr (hused u hu)
    · exact ih u hu

theorem SpellsTags.split {a b : List Token} {t : Token} {tags : List Tag} (h : SpellsTags (a ++ t :: b) tags)
    (ht : t.kind.begins) :
    ∃ before after, tags = before ++ after ∧ SpellsTags a before ∧ SpellsTags (t :: b) after := by
  generalize hc : a ++ t :: b = c at h
  induction h generalizing a with
  | nil => simp at hc
  | @cons used rest part tags hp hs ih =>
    obtain ⟨u, used, rfl, hu, hused⟩ := hp.begins
    rcases List.append_eq_append_iff.mp hc with ⟨d, hd, hrest⟩ | ⟨d, rfl, hrest⟩
    · cases d with
      | nil =>
        obtain rfl : a = u :: used := by simpa using hd.symm
        obtain rfl : rest = t :: b := by simpa using hrest.symm
        exact ⟨part.toList, tags, rfl, by simpa using SpellsTags.cons hp .nil, hs⟩
      | cons v d =>
        obtain ⟨rfl, rfl⟩ := List.cons.inj hrest
        cases a with
        | nil =>
          obtain ⟨rfl, rfl⟩ := List.cons.inj hd
          exact ⟨[], _, rfl, .nil, .cons hp hs⟩
        | cons w a =>
          obtain ⟨rfl, rfl⟩ := List.cons.inj hd
          have := hused t (by simp)
          rw [Token.Kind.continues_of_begins ht] at this
          cases this
    · obtain ⟨before, after, rfl, hb, ha⟩ := ih hrest.symm
      exact ⟨_, after, (List.append_assoc ..).symm, .cons hp hb, ha⟩

end Curly
