import Curly.Template.Expression

/-!
# The grammar of expressions

Which tokens an expression, a subexpression, a call and its operands are
written with, whatever follows them. The readers are sound and complete for it:
what they read from the front of a list of tokens is spelled there
(`expression_sound`), and what is spelled there they read (`expression_complete`),
with any source after it.
-/

namespace Curly

/-- The region of a call: that of its head, widened by its operands. -/
def Operands.span (o : Operands) (region : Region) : Region :=
  (o.positional.map Expression.region ++ o.named.map fun e => e.2.region).foldl Region.combine region

@[simp] theorem Operands.span_nil (region : Region) : Operands.span ⟨[], []⟩ region = region := rfl

@[simp] theorem Operands.span_positional (e : Expression) (es : List Expression)
    (ns : List (String × Expression)) (region : Region) :
    Operands.span ⟨e :: es, ns⟩ region = Operands.span ⟨es, ns⟩ (region.combine e.region) := rfl

@[simp] theorem Operands.span_named (n : String × Expression) (ns : List (String × Expression))
    (region : Region) :
    Operands.span ⟨[], n :: ns⟩ region = Operands.span ⟨[], ns⟩ (region.combine n.2.region) := rfl

namespace Reading

def atom? (t : Token) : Option Expression :=
  match t.kind with
  | .path => (path t).toOption.map .path
  | .string => (quoted t).toOption.map fun s => .literal (.string s) t.region
  | .number => (number t).toOption.map fun n => .literal (.number n) t.region
  | .trueLiteral => some (.literal (.bool true) t.region)
  | .falseLiteral => some (.literal (.bool false) t.region)
  | .nullLiteral => some (.literal .null t.region)
  | _ => none

def beginsExpression : Token.Kind → Bool
  | .path | .string | .number | .trueLiteral | .falseLiteral | .nullLiteral | .beginGroup => true
  | _ => false

theorem beginsExpression_of_atom {t : Token} {e : Expression} (h : atom? t = some e) :
    beginsExpression t.kind = true := by
  unfold atom? at h
  cases hk : t.kind <;> simp_all [beginsExpression]

theorem atom_path {t : Token} {p : Path} (h : atom? t = some (.path p)) :
    t.kind = .path ∧ path t = .ok p := by
  unfold atom? at h
  cases hk : t.kind <;> simp only [hk, reduceCtorEq, Option.some.injEq] at h
  case path => cases hp : path t <;> simp_all [Except.toOption]
  case string => cases hq : quoted t <;> simp_all [Except.toOption]
  case number => cases hn : number t <;> simp_all [Except.toOption]

theorem expression_cons (stop : Region) (n : Nat) (t : Token) (rest : List Token)
    (h : t.kind ≠ .beginGroup) {r : Expression × List Token} :
    expression stop (n + 1) (t :: rest) = .ok r ↔ ∃ e, atom? t = some e ∧ r = (e, rest) := by
  rw [expression]
  unfold atom?
  cases hk : t.kind with
  | path => cases path t <;> simp [Except.map, Except.toOption, eq_comm]
  | string => cases quoted t <;> simp [Except.map, Except.toOption, eq_comm]
  | number => cases number t <;> simp [Except.map, Except.toOption, eq_comm]
  | beginGroup => exact absurd hk h
  | _ => simp [eq_comm]

end Reading

/-! ## The grammar -/

mutual

inductive SpellsExpression : List Token → Expression → Prop
  | atom {t : Token} {e : Expression} : Reading.atom? t = some e → SpellsExpression [t] e
  | call {used : List Token} {c : Call Path} :
    SpellsGroup used c → SpellsExpression used (.call c.head c.operands c.region)

inductive SpellsGroup : List Token → Call Path → Prop
  | mk {used : List Token} {opening closing : Token} {p : Path} {o : Operands} {region : Region} :
    opening.kind = .beginGroup → closing.kind = .endGroup → p.isSimple = true →
    SpellsCall used ⟨.path p, o, region⟩ →
    SpellsGroup (opening :: (used ++ [closing])) ⟨p, o, opening.region.combine closing.region⟩

inductive SpellsCall : List Token → Call Expression → Prop
  | mk {first rest : List Token} {head : Expression} {o : Operands} :
    SpellsExpression first head → SpellsOperands rest o →
    SpellsCall (first ++ rest) ⟨head, o, o.span head.region⟩

inductive SpellsOperands : List Token → Operands → Prop
  | nil : SpellsOperands [] ⟨[], []⟩
  | positional {first rest : List Token} {e : Expression} {es : List Expression}
    {ns : List (String × Expression)} :
    SpellsExpression first e → SpellsOperands rest ⟨es, ns⟩ →
    SpellsOperands (first ++ rest) ⟨e :: es, ns⟩
  | named {first rest : List Token} {key assign : Token} {p : Path} {name : String} {e : Expression}
    {ns : List (String × Expression)} :
    key.kind = .path → Reading.path key = .ok p → p.helperName = some name →
    assign.kind = .assign → SpellsExpression first e → SpellsOperands rest ⟨[], ns⟩ →
    SpellsOperands (key :: assign :: (first ++ rest)) ⟨[], (name, e) :: ns⟩

end

/-! ## What is read is spelled -/

/-- What the operands of a call may be followed by. -/
def EndsCall (rest : List Token) : Prop :=
  ∀ t ∈ rest.head?, Reading.endsCall t.kind = true

open Reading

theorem SpellsExpression.of_path {used : List Token} {p : Path} (h : SpellsExpression used (.path p)) :
    ∃ t, used = [t] ∧ t.kind = .path ∧ Reading.path t = .ok p := by
  cases h with
  | atom ha => exact ⟨_, rfl, atom_path ha⟩

mutual

theorem expression_sound : ∀ (n : Nat) {stop : Region} {tokens rest : List Token} {e : Expression},
    expression stop n tokens = .ok (e, rest) →
      ∃ used, tokens = used ++ rest ∧ SpellsExpression used e
  | 0, _, _, _, _, h => by simp [expression] at h
  | n + 1, _, [], _, _, h => by simp [expression] at h
  | n + 1, stop, t :: tokens, rest, e, h => by
    by_cases hk : t.kind = .beginGroup
    · rw [expression, hk] at h
      simp only at h
      cases hg : group stop n t.region tokens with
      | error d => rw [hg] at h; cases h
      | ok r =>
        obtain ⟨c, rest'⟩ := r
        rw [hg] at h
        simp only [Except.map, Except.ok.injEq, Prod.mk.injEq] at h
        obtain ⟨rfl, rfl⟩ := h
        obtain ⟨used, rfl, hc⟩ := group_sound n hk hg
        exact ⟨t :: used, rfl, .call hc⟩
    · obtain ⟨e', ha, he⟩ := (expression_cons stop n t tokens hk).mp h
      obtain ⟨rfl, rfl⟩ := Prod.mk.inj he
      exact ⟨[t], rfl, .atom ha⟩

theorem group_sound : ∀ (n : Nat) {stop : Region} {tokens rest : List Token} {opening : Token}
    {c : Call Path}, opening.kind = .beginGroup →
    group stop n opening.region tokens = .ok (c, rest) →
      ∃ used, tokens = used ++ rest ∧ SpellsGroup (opening :: used) c
  | 0, _, _, _, _, _, _, h => by simp [group] at h
  | n + 1, stop, tokens, rest, opening, c, hk, h => by
    rw [group] at h
    cases hc : call stop n tokens with
    | error d => rw [hc] at h; cases h
    | ok r =>
      obtain ⟨⟨head, o, region⟩, rest'⟩ := r
      rw [hc] at h
      obtain ⟨used, rfl, hs, -⟩ := call_sound n hc
      cases rest' with
      | nil => simp [expect] at h
      | cons closing rest' =>
        by_cases hl : closing.kind = .endGroup
        · cases head with
          | path p =>
            by_cases hp : p.isSimple = true
            · simp only [expect, hl, ite_true, hp, Except.ok.injEq, Prod.mk.injEq] at h
              obtain ⟨rfl, rfl⟩ := h
              exact ⟨used ++ [closing], by simp, .mk hk hl hp hs⟩
            · simp [expect, hl, hp] at h
          | _ => simp [expect, hl] at h
        · simp only [expect, hl, ite_false] at h
          split at h
          · rename_i hd
            split at hd <;> cases hd <;> cases h
          · rename_i hd
            split at hd <;> cases hd

theorem call_sound : ∀ (n : Nat) {stop : Region} {tokens rest : List Token} {c : Call Expression},
    call stop n tokens = .ok (c, rest) →
      ∃ used, tokens = used ++ rest ∧ SpellsCall used c ∧ EndsCall rest
  | 0, _, _, _, _, h => by simp [call] at h
  | n + 1, stop, tokens, rest, c, h => by
    rw [call] at h
    cases he : expression stop n tokens with
    | error d => rw [he] at h; cases h
    | ok r =>
      obtain ⟨head, rest'⟩ := r
      rw [he] at h
      obtain ⟨first, rfl, hf⟩ := expression_sound n he
      cases ho : operands stop n head.region [] [] rest' with
      | error d => simp [ho, Except.map] at h
      | ok r =>
        obtain ⟨⟨o, region⟩, rest''⟩ := r
        simp only [ho, Except.map, Except.ok.injEq, Prod.mk.injEq] at h
        obtain ⟨rfl, rfl⟩ := h
        obtain ⟨used, ⟨es, ns⟩, rfl, hs, rfl, rfl, -, hend⟩ := operands_sound n ho
        exact ⟨first ++ used, by simp, .mk hf hs, hend⟩

theorem operands_sound : ∀ (n : Nat) {stop region whole : Region} {positional : List Expression}
    {named : List (String × Expression)} {tokens rest : List Token} {o : Operands},
    operands stop n region positional named tokens = .ok ((o, whole), rest) →
      ∃ used args, tokens = used ++ rest ∧ SpellsOperands used args ∧
        o = ⟨positional.reverse ++ args.positional, named.reverse ++ args.named⟩ ∧
        whole = args.span region ∧ (named ≠ [] → args.positional = []) ∧ EndsCall rest
  | 0, _, _, _, _, _, _, _, _, h => by simp [operands] at h
  | n + 1, _, _, _, positional, named, [], rest, o, h => by
    simp only [operands, Except.ok.injEq, Prod.mk.injEq] at h
    obtain ⟨⟨rfl, rfl⟩, rfl⟩ := h
    exact ⟨[], ⟨[], []⟩, rfl, .nil, by simp, by simp, fun _ => rfl, by simp [EndsCall]⟩
  | n + 1, stop, region, whole, positional, named, t :: tokens, rest, o, h => by
    cases ht : endsCall t.kind with
    | true =>
      simp only [operands, ht, ite_true, Except.ok.injEq, Prod.mk.injEq] at h
      obtain ⟨⟨rfl, rfl⟩, rfl⟩ := h
      exact ⟨[], ⟨[], []⟩, rfl, .nil, by simp, by simp, fun _ => rfl, by simp [EndsCall, ht]⟩
    | false =>
      simp only [operands, ht, Bool.false_eq_true, ite_false] at h
      cases he : expression stop n (t :: tokens) with
      | error d => rw [he] at h; cases h
      | ok r =>
        obtain ⟨argument, rest'⟩ := r
        obtain ⟨first, hfirst, hs⟩ := expression_sound n he
        rw [hfirst]
        simp only [he] at h
        split at h
        · -- the argument is the name of a value that follows it
          rename_i p text assign rest'
          cases hp : p.helperName with
          | none => simp [hp] at h
          | some name =>
            simp only [hp] at h
            cases hv : expression stop n rest' with
            | error d => rw [hv] at h; cases h
            | ok r =>
              obtain ⟨value, rest''⟩ := r
              simp only [hv] at h
              obtain ⟨second, rfl, hs'⟩ := expression_sound n hv
              obtain ⟨used, args, rfl, ha, rfl, rfl, hnil, hend⟩ := operands_sound n h
              obtain ⟨key, rfl, hk, hpath⟩ := hs.of_path
              have harg : args.positional = [] := hnil (by simp)
              obtain ⟨es, ns⟩ := args
              simp only at harg
              subst harg
              refine ⟨key :: ⟨.assign, text, assign⟩ :: (second ++ used), ⟨[], (name, value) :: ns⟩, by simp,
                .named hk hpath hp rfl hs' ha, by simp, by simp, fun _ => rfl, hend⟩
        · -- a positional argument stands before all named ones
          by_cases hn : named = []
          · subst hn
            simp only [List.isEmpty_nil, ite_true] at h
            obtain ⟨used, ⟨es, ns⟩, rfl, ha, rfl, rfl, -, hend⟩ := operands_sound n h
            exact ⟨first ++ used, ⟨argument :: es, ns⟩, by simp, .positional hs ha,
              by simp, by simp, fun hne => absurd rfl hne, hend⟩
          · simp [hn] at h

end

/-! ## What is spelled is read -/

theorem SpellsGroup.head {used : List Token} {c : Call Path} (h : SpellsGroup used c) :
    ∃ opening tokens, used = opening :: tokens ∧ opening.kind = .beginGroup := by
  cases h with
  | mk hk _ _ _ => exact ⟨_, _, rfl, hk⟩

theorem SpellsExpression.head {used : List Token} {e : Expression} (h : SpellsExpression used e) :
    ∃ t tokens, used = t :: tokens ∧ beginsExpression t.kind = true := by
  cases h with
  | atom ha => exact ⟨_, _, rfl, beginsExpression_of_atom ha⟩
  | call hg =>
    obtain ⟨opening, tokens, rfl, hk⟩ := hg.head
    exact ⟨opening, tokens, rfl, by rw [hk]; rfl⟩

theorem SpellsExpression.length_pos {used : List Token} {e : Expression} (h : SpellsExpression used e) :
    0 < used.length := by
  obtain ⟨t, tokens, rfl, -⟩ := h.head
  exact Nat.succ_pos _

theorem SpellsCall.head {used : List Token} {c : Call Expression} (h : SpellsCall used c) :
    ∃ t tokens, used = t :: tokens ∧ beginsExpression t.kind = true := by
  cases h with
  | mk he _ =>
    obtain ⟨t, tokens, rfl, hk⟩ := he.head
    exact ⟨t, _, rfl, hk⟩

theorem SpellsOperands.head {used : List Token} {o : Operands} (h : SpellsOperands used o) :
    ∀ t ∈ used.head?, beginsExpression t.kind = true := by
  cases h with
  | nil => simp
  | positional he _ =>
    obtain ⟨t, tokens, rfl, hk⟩ := he.head
    simpa using hk
  | named hk _ _ _ _ _ => simp [hk, beginsExpression]

theorem endsCall_of_beginsExpression {kind : Token.Kind} (h : beginsExpression kind = true) :
    endsCall kind = false := by
  cases kind <;> first | rfl | cases h

/-- No name of an operand ends before operands or before the end of the call. -/
theorem not_assign_of_operands {used rest : List Token} {o : Operands} (h : SpellsOperands used o)
    (hend : EndsCall rest) {t : Token} {tokens : List Token} (ht : used ++ rest = t :: tokens) :
    t.kind ≠ .assign := by
  intro hk
  cases used with
  | nil =>
    simp only [List.nil_append] at ht
    have := hend t (by simp [ht])
    rw [hk] at this
    cases this
  | cons u used =>
    obtain ⟨rfl, -⟩ := List.cons.inj ht
    have := h.head u rfl
    rw [hk] at this
    cases this

mutual

theorem expression_complete {used : List Token} {e : Expression} (h : SpellsExpression used e)
    (stop : Region) {n : Nat} (rest : List Token) (hn : 4 * used.length ≤ n) :
    expression stop n (used ++ rest) = .ok (e, rest) := by
  match h with
  | @SpellsExpression.atom t e ha =>
    obtain ⟨n, rfl⟩ : ∃ m, n = m + 1 := ⟨n - 1, by simp at hn; omega⟩
    have hk : t.kind ≠ .beginGroup := by
      intro hk
      simp [atom?, hk] at ha
    exact (expression_cons stop n t rest hk).mpr ⟨e, ha, rfl⟩
  | @SpellsExpression.call _ c hg =>
    obtain ⟨opening, tokens, ht, hk⟩ := hg.head
    rw [ht, List.length_cons] at hn
    obtain ⟨n, rfl⟩ : ∃ m, n = m + 1 := ⟨n - 1, by omega⟩
    rw [ht, List.cons_append, expression, hk]
    rw [group_complete hg ht stop (n := n) rest (by omega)]
    rfl

theorem group_complete {tokens : List Token} {c : Call Path} (h : SpellsGroup tokens c)
    {opening : Token} {used : List Token} (ht : tokens = opening :: used) (stop : Region) {n : Nat}
    (rest : List Token) (hn : 4 * used.length ≤ n) :
    group stop n opening.region (used ++ rest) = .ok (c, rest) := by
  match h with
  | @SpellsGroup.mk inner _ closing p o region hk hl hp hc =>
    obtain ⟨rfl, rfl⟩ := List.cons.inj ht
    obtain ⟨n, rfl⟩ : ∃ m, n = m + 1 := ⟨n - 1, by simp at hn; omega⟩
    simp only [List.length_append, List.length_cons, List.length_nil] at hn
    have hend : EndsCall ([closing] ++ rest) := by simp [EndsCall, hl, endsCall]
    rw [group, List.append_assoc, call_complete hc stop hend (n := n) (by omega)]
    simp [expect, hl, hp]

theorem call_complete {used : List Token} {c : Call Expression} (h : SpellsCall used c)
    (stop : Region) {n : Nat} {rest : List Token} (hend : EndsCall rest)
    (hn : 4 * used.length + 1 ≤ n) :
    call stop n (used ++ rest) = .ok (c, rest) := by
  match h with
  | @SpellsCall.mk first second head o he ho =>
    obtain ⟨n, rfl⟩ : ∃ m, n = m + 1 := ⟨n - 1, by omega⟩
    have hpos := he.length_pos
    rw [List.length_append] at hn
    rw [call, List.append_assoc, expression_complete he stop (n := n) (second ++ rest) (by omega)]
    simp only
    rw [operands_complete ho stop (n := n) hend (by omega) head.region [] [] (.inl rfl)]
    cases o
    rfl

theorem operands_complete {used : List Token} {o : Operands} (h : SpellsOperands used o)
    (stop : Region) {n : Nat} {rest : List Token} (hend : EndsCall rest)
    (hn : 4 * used.length + 1 ≤ n) (region : Region) (positional : List Expression)
    (named : List (String × Expression)) (hnp : named = [] ∨ o.positional = []) :
    operands stop n region positional named (used ++ rest) =
      .ok ((⟨positional.reverse ++ o.positional, named.reverse ++ o.named⟩, o.span region), rest) := by
  match h with
  | .nil =>
    obtain ⟨n, rfl⟩ : ∃ m, n = m + 1 := ⟨n - 1, by omega⟩
    cases rest with
    | nil => simp [operands]
    | cons t rest => simp [operands, hend t (by simp)]
  | @SpellsOperands.positional first second e es ns he ho =>
    obtain ⟨n, rfl⟩ : ∃ m, n = m + 1 := ⟨n - 1, by omega⟩
    obtain ⟨t, tokens, hfirst, ht⟩ := he.head
    obtain rfl : named = [] := by simpa using hnp
    have hpos := he.length_pos
    rw [List.length_append] at hn
    have hread := expression_complete he stop (n := n) (second ++ rest) (by omega)
    rw [hfirst, List.cons_append] at hread
    rw [hfirst, List.append_assoc, List.cons_append, operands]
    simp only [endsCall_of_beginsExpression ht, Bool.false_eq_true, ite_false, hread]
    split
    · rename_i p text assign rest' hr
      exact absurd rfl (not_assign_of_operands ho hend hr)
    · simp only [List.isEmpty_nil, ite_true]
      rw [operands_complete ho stop (n := n) hend (by omega) _ _ [] (.inl rfl)]
      simp
  | @SpellsOperands.named first second key assign p name e ns hk hpath hp ha he ho =>
    obtain ⟨n, rfl⟩ : ∃ m, n = m + 1 := ⟨n - 1, by omega⟩
    obtain ⟨n, rfl⟩ : ∃ m, n = m + 1 := ⟨n - 1, by simp at hn; omega⟩
    obtain ⟨kind, text, at_⟩ := assign
    simp only at ha
    subst ha
    simp only [List.length_append, List.length_cons] at hn
    have hkey : expression stop (n + 1) (key :: ⟨.assign, text, at_⟩ :: (first ++ second ++ rest)) =
        .ok (.path p, ⟨.assign, text, at_⟩ :: (first ++ second ++ rest)) := by
      rw [expression, hk]
      simp [hpath, Except.map]
    rw [List.cons_append, List.cons_append, operands]
    simp only [hk, endsCall, hkey]
    simp only [hp, List.append_assoc, expression_complete he stop (n := n + 1) (second ++ rest) (by omega)]
    simp only [reduceCtorEq, decide_false, Bool.or_self, Bool.false_eq_true, ite_false]
    rw [operands_complete ho stop (n := n + 1) hend (by omega) _ positional _ (.inr rfl)]
    simp

end

end Curly
