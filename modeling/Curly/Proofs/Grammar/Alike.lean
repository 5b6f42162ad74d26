import Curly.Proofs.Grammar.Scope
import Mathlib.Data.List.Forall2

/-!
# Trees that are alike

Trees that differ in their regions alone, which `ok` relates, and in nodes for
which others stand, as `splice` allows. What tokens spell, tokens that are alike
spell alike (`SpellsTags.alike`), and tags that are alike make up trees that are
alike (`SpellsScope.alike`).
-/

namespace Curly

section
variable (ok : Region → Region → Prop) (splice : Node → List Node → Prop)

inductive AlikeToken : Token → Token → Prop
  | mk {kind : Token.Kind} {text : List Char} {r r' : Region} :
    ok r r' → AlikeToken ⟨kind, text, r⟩ ⟨kind, text, r'⟩

inductive AlikePath : Path → Path → Prop
  | mk {origin : Path.Origin} {segments : List String} {text : List Char} {r r' : Region} :
    ok r r' → AlikePath ⟨origin, segments, text, r⟩ ⟨origin, segments, text, r'⟩

mutual

inductive AlikeExpression : Expression → Expression → Prop
  | literal {value : Literal} {r r' : Region} : ok r r' → AlikeExpression (.literal value r) (.literal value r')
  | path {p p' : Path} : AlikePath ok p p' → AlikeExpression (.path p) (.path p')
  | call {callee callee' : Path} {o o' : Operands} {r r' : Region} :
    AlikePath ok callee callee' → AlikeOperands o o' → ok r r' →
    AlikeExpression (.call callee o r) (.call callee' o' r')

inductive AlikeOperands : Operands → Operands → Prop
  | nil : AlikeOperands ⟨[], []⟩ ⟨[], []⟩
  | positional {e e' : Expression} {es es' : List Expression} {ns ns' : List (String × Expression)} :
    AlikeExpression e e' → AlikeOperands ⟨es, ns⟩ ⟨es', ns'⟩ → AlikeOperands ⟨e :: es, ns⟩ ⟨e' :: es', ns'⟩
  | named {name : String} {e e' : Expression} {ns ns' : List (String × Expression)} :
    AlikeExpression e e' → AlikeOperands ⟨[], ns⟩ ⟨[], ns'⟩ →
    AlikeOperands ⟨[], (name, e) :: ns⟩ ⟨[], (name, e') :: ns'⟩

end

inductive AlikeCall {Head : Type} (head : Head → Head → Prop) : Call Head → Call Head → Prop
  | mk {h h' : Head} {o o' : Operands} {r r' : Region} :
    head h h' → AlikeOperands ok o o' → ok r r' → AlikeCall head ⟨h, o, r⟩ ⟨h', o', r'⟩

inductive AlikePartialName : PartialName → PartialName → Prop
  | fixed (name : String) : AlikePartialName (.fixed name) (.fixed name)
  | computed {c c' : Call Path} : AlikeCall ok (AlikePath ok) c c' → AlikePartialName (.computed c) (.computed c')

inductive AlikeContext : Option Expression → Option Expression → Prop
  | none : AlikeContext none none
  | some {e e' : Expression} : AlikeExpression ok e e' → AlikeContext (some e) (some e')

inductive AlikeLeaf : Node → Node → Prop
  | raw {text : String} {r r' : Region} : ok r r' → AlikeLeaf (.raw text r) (.raw text r')
  | output {c c' : Call Expression} {escaped : Bool} {r r' : Region} :
    AlikeCall ok (AlikeExpression ok) c c' → ok r r' → AlikeLeaf (.output c escaped r) (.output c' escaped r')
  | inclusion {name name' : PartialName} {context context' : Option Expression} {r r' : Region} :
    AlikePartialName ok name name' → AlikeContext ok context context' → ok r r' →
    AlikeLeaf (.inclusion name context r) (.inclusion name' context' r')

mutual

inductive AlikeNode : Node → List Node → Prop
  | leaf {n n' : Node} : AlikeLeaf ok n n' → AlikeNode n [n']
  | splice {n : Node} {inner : List Node} : splice n inner → AlikeNode n inner
  | block {c c' : Call Path} {negated : Bool} {body body' : List Node} {inverse inverse' : Option (List Node)}
    {r r' : Region} :
    AlikeCall ok (AlikePath ok) c c' → AlikeNodes body body' → AlikeBranch inverse inverse' → ok r r' →
    AlikeNode (.block c negated body inverse r) [.block c' negated body' inverse' r']

inductive AlikeNodes : List Node → List Node → Prop
  | nil : AlikeNodes [] []
  | cons {n : Node} {inner nodes nodes' : List Node} :
    AlikeNode n inner → AlikeNodes nodes nodes' → AlikeNodes (n :: nodes) (inner ++ nodes')

inductive AlikeBranch : Option (List Node) → Option (List Node) → Prop
  | none : AlikeBranch none none
  | some {nodes nodes' : List Node} : AlikeNodes nodes nodes' → AlikeBranch (some nodes) (some nodes')

end

inductive AlikeOpening : Opening → Opening → Prop
  | mk {c c' : Call Path} {negated : Bool} {r r' : Region} :
    AlikeCall ok (AlikePath ok) c c' → ok r r' → AlikeOpening ⟨c, negated, r⟩ ⟨c', negated, r'⟩

inductive AlikeTag : Tag → List Tag → Prop
  | leaf {n n' : Node} : AlikeLeaf ok n n' → AlikeTag (.node n) [.node n']
  | splice {n : Node} {inner : List Node} {between : List Tag} :
    splice n inner → SpellsScope Opening.name between inner → AlikeTag (.node n) between
  | opening {o o' : Opening} : AlikeOpening ok o o' → AlikeTag (.opening o) [.opening o']
  | alternative {r r' : Region} : AlikeTag (.alternative r) [.alternative r']
  | alternativeOpening {r r' : Region} {o o' : Opening} :
    AlikeOpening ok o o' → AlikeTag (.alternativeOpening r o) [.alternativeOpening r' o']
  | closing {closed closed' : Option (List Char × Region)} {r r' : Region} :
    closed'.map Prod.fst = closed.map Prod.fst → AlikeTag (.closing closed r) [.closing closed' r']

inductive AlikeTags : List Tag → List Tag → Prop
  | nil : AlikeTags [] []
  | cons {tag : Tag} {between tags tags' : List Tag} :
    AlikeTag ok splice tag between → AlikeTags tags tags' → AlikeTags (tag :: tags) (between ++ tags')

end

variable {ok : Region → Region → Prop} {splice : Node → List Node → Prop}

/-! ## Trees that are the same -/

theorem AlikePath.refl (hok : ∀ r, ok r r) (p : Path) : AlikePath ok p p :=
  .mk (hok _)

mutual

theorem AlikeExpression.refl (hok : ∀ r, ok r r) : ∀ e, AlikeExpression ok e e
  | .literal _ _ => .literal (hok _)
  | .path p => .path (.refl hok p)
  | .call callee o _ => .call (.refl hok callee) (AlikeOperands.refl hok o) (hok _)

theorem AlikeOperands.refl (hok : ∀ r, ok r r) : ∀ o, AlikeOperands ok o o
  | ⟨positional, named⟩ => alikePositional hok (alikeNamed hok named) positional

theorem alikePositional (hok : ∀ r, ok r r) {named : List (String × Expression)}
    (h : AlikeOperands ok ⟨[], named⟩ ⟨[], named⟩) :
    ∀ es : List Expression, AlikeOperands ok ⟨es, named⟩ ⟨es, named⟩
  | [] => h
  | e :: es => .positional (AlikeExpression.refl hok e) (alikePositional hok h es)

theorem alikeNamed (hok : ∀ r, ok r r) :
    ∀ named : List (String × Expression), AlikeOperands ok ⟨[], named⟩ ⟨[], named⟩
  | [] => .nil
  | (_, e) :: named => .named (AlikeExpression.refl hok e) (alikeNamed hok named)

end

theorem AlikeCall.refl (hok : ∀ r, ok r r) {Head : Type} {head : Head → Head → Prop} (hhead : ∀ h, head h h)
    (c : Call Head) : AlikeCall ok head c c :=
  .mk (hhead _) (.refl hok _) (hok _)

theorem AlikePartialName.refl (hok : ∀ r, ok r r) : ∀ name, AlikePartialName ok name name
  | .fixed name => .fixed name
  | .computed c => .computed (.refl hok (.refl hok) c)

theorem AlikeContext.refl (hok : ∀ r, ok r r) : ∀ context, AlikeContext ok context context
  | .none => .none
  | .some e => .some (.refl hok e)

mutual

theorem AlikeNode.refl (hok : ∀ r, ok r r) : ∀ n, AlikeNode ok splice n [n]
  | .raw _ _ => .leaf (.raw (hok _))
  | .output c _ _ => .leaf (.output (.refl hok (.refl hok) c) (hok _))
  | .block c _ body inverse _ =>
    .block (.refl hok (.refl hok) c) (AlikeNodes.refl hok body) (AlikeBranch.refl hok inverse) (hok _)
  | .inclusion name context _ => .leaf (.inclusion (.refl hok name) (.refl hok context) (hok _))

theorem AlikeNodes.refl (hok : ∀ r, ok r r) : ∀ nodes, AlikeNodes ok splice nodes nodes
  | [] => .nil
  | n :: nodes => .cons (AlikeNode.refl hok n) (AlikeNodes.refl hok nodes)

theorem AlikeBranch.refl (hok : ∀ r, ok r r) : ∀ inverse, AlikeBranch ok splice inverse inverse
  | .none => .none
  | .some nodes => .some (AlikeNodes.refl hok nodes)

end

/-! ## Scopes -/

theorem AlikeTags.append {a a' b b' : List Tag} (ha : AlikeTags ok splice a a') (hb : AlikeTags ok splice b b') :
    AlikeTags ok splice (a ++ b) (a' ++ b') := by
  induction ha with
  | nil => exact hb
  | cons ht _ ih => simpa using AlikeTags.cons ht ih

theorem AlikeTags.exists_append {a b c : List Tag} (h : AlikeTags ok splice (a ++ b) c) :
    ∃ a' b', c = a' ++ b' ∧ AlikeTags ok splice a a' ∧ AlikeTags ok splice b b' := by
  induction a generalizing c with
  | nil => exact ⟨[], c, rfl, .nil, h⟩
  | cons tag a ih =>
    rw [List.cons_append] at h
    generalize hrest : a ++ b = rest at h
    cases h with
    | @cons _ between _ _ ht h =>
      obtain ⟨a', b', rfl, ha, hb⟩ := ih (hrest ▸ h)
      exact ⟨between ++ a', b', by simp, .cons ht ha, hb⟩

theorem AlikeOpening.name {o o' : Opening} (h : AlikeOpening ok o o') : o'.name = o.name := by
  cases h with
  | mk hc _ =>
    cases hc with
    | mk hp _ _ =>
      cases hp
      rfl

mutual

theorem SpellsScope.alike {tags : List Tag} {nodes : List Node} (h : SpellsScope Opening.name tags nodes)
    {tags' : List Tag} (ha : AlikeTags ok splice tags tags') :
    ∃ nodes', SpellsScope Opening.name tags' nodes' ∧ AlikeNodes ok splice nodes nodes' := by
  match h with
  | .nil =>
    cases ha
    exact ⟨[], .nil, .nil⟩
  | @SpellsScope.node _ n tags nodes h =>
    cases ha with
    | cons ht ha =>
      obtain ⟨nodes', hs, hn⟩ := h.alike ha
      cases ht with
      | leaf hl => exact ⟨_ :: nodes', .node hs, .cons (.leaf hl) hn⟩
      | splice hp hi => exact ⟨_ ++ nodes', hi.append hs, .cons (.splice hp) hn⟩
  | @SpellsScope.block _ o inner tail tags body nodes inverse closed region hbody htail hclosed h =>
    cases ha with
    | cons ht ha =>
      cases ht with
      | @opening _ o' ho =>
        obtain ⟨inner', rest, rfl, hinner, hrest⟩ := ha.exists_append
        obtain ⟨tail', last, rfl, htail', hlast⟩ := hrest.exists_append
        obtain ⟨body', hbody', hb⟩ := hbody.alike hinner
        obtain ⟨inverse', hinverse', hi⟩ := htail.alike htail'
        cases hlast with
        | cons ht hafter =>
          obtain ⟨nodes', hs, hn⟩ := h.alike hafter
          cases ht with
          | @closing _ closed' _ r' hc =>
            have hclosed' : ∀ n ∈ closed', n.1 = o'.name := by
              intro n hn
              rw [Option.mem_def.mp hn, Option.map_some] at hc
              obtain ⟨m, hm, hmn⟩ := Option.map_eq_some_iff.mp hc.symm
              rw [ho.name, ← hmn, hclosed m hm]
            cases ho with
            | mk hcall hr =>
              exact ⟨_, SpellsScope.block hbody' hinverse' hclosed' hs, .cons (.block hcall hb hi hr) hn⟩

theorem SpellsTail.alike {tags : List Tag} {inverse : Option (List Node)} (h : SpellsTail Opening.name tags inverse)
    {tags' : List Tag} (ha : AlikeTags ok splice tags tags') :
    ∃ inverse', SpellsTail Opening.name tags' inverse' ∧ AlikeBranch ok splice inverse inverse' := by
  match h with
  | .none =>
    cases ha
    exact ⟨none, .none, .none⟩
  | .plain h =>
    cases ha with
    | cons ht ha =>
      cases ht
      obtain ⟨nodes', hs, hn⟩ := h.alike ha
      exact ⟨some nodes', .plain hs, .some hn⟩
  | .chained hbody htail =>
    cases ha with
    | cons ht ha =>
      cases ht with
      | @alternativeOpening _ marker _ _ ho =>
        obtain ⟨inner', tail', rfl, hinner, htail'⟩ := ha.exists_append
        obtain ⟨body', hbody', hb⟩ := hbody.alike hinner
        obtain ⟨inverse', hinverse', hi⟩ := htail.alike htail'
        cases ho with
        | @mk c c' negated r r' hcall hr =>
          have hs : SpellsTail Opening.name (.alternativeOpening marker ⟨c', negated, r'⟩ :: (inner' ++ tail')) _ :=
            .chained hbody' hinverse'
          exact ⟨_, hs, .some (.cons (.block hcall hb hi hr) .nil)⟩

end

/-! ## Expressions -/

theorem AlikePath.isSimple {p p' : Path} (h : AlikePath ok p p') : p'.isSimple = p.isSimple := by
  cases h
  rfl

theorem AlikePath.helperName {p p' : Path} (h : AlikePath ok p p') : p'.helperName = p.helperName := by
  cases h
  rfl

theorem AlikeExpression.region {e e' : Expression} (h : AlikeExpression ok e e') : ok e.region e'.region := by
  cases h with
  | literal hr => exact hr
  | path hp => cases hp with | mk hr => exact hr
  | call _ _ hr => exact hr

theorem AlikeOperands.positional_nil {ns ns' : List (String × Expression)} {es' : List Expression}
    (h : AlikeOperands ok ⟨[], ns⟩ ⟨es', ns'⟩) : es' = [] := by
  cases h <;> rfl

theorem AlikeToken.kind {t t' : Token} (h : AlikeToken ok t t') : t'.kind = t.kind := by
  cases h
  rfl

theorem AlikeToken.region {t t' : Token} (h : AlikeToken ok t t') : ok t.region t'.region := by
  cases h with | mk hr => exact hr

theorem AlikeToken.path {t t' : Token} (h : AlikeToken ok t t') {p : Path} (hp : Reading.path t = .ok p) :
    ∃ p', Reading.path t' = .ok p' ∧ AlikePath ok p p' := by
  cases h with
  | @mk kind text r r' hr =>
    unfold Reading.path Path.ofText at *
    dsimp only at *
    cases ho : Path.splitOrigin text with
    | error fault => simp [ho] at hp
    | ok found =>
      obtain ⟨origin, rest⟩ := found
      cases hs : Path.segments? rest with
      | none => simp [ho, hs] at hp
      | some segments =>
        simp only [ho, hs, Except.ok.injEq] at hp ⊢
        exact ⟨_, rfl, hp ▸ .mk hr⟩

theorem AlikeToken.atom {t t' : Token} (h : AlikeToken ok t t') {e : Expression} (he : Reading.atom? t = some e) :
    ∃ e', Reading.atom? t' = some e' ∧ AlikeExpression ok e e' := by
  have hpath := fun p hp => h.path (p := p) hp
  cases h with
  | @mk kind text r r' hr =>
    unfold Reading.atom? at *
    cases kind with
    | path =>
      cases hp : Reading.path ⟨.path, text, r⟩ with
      | error _ => simp [hp, Except.toOption] at he
      | ok p =>
        obtain ⟨p', hp', ha⟩ := hpath p hp
        simp only [hp, Except.toOption, Option.map_some, Option.some.injEq] at he
        subst he
        exact ⟨.path p', by simp [hp', Except.toOption], .path ha⟩
    | string =>
      cases hq : Reading.unescape text.tail.dropLast with
      | none => simp [Reading.quoted, hq, Except.toOption] at he
      | some s =>
        simp only [Reading.quoted, hq, Except.toOption, Option.map_some, Option.some.injEq] at he ⊢
        exact ⟨_, rfl, he ▸ .literal hr⟩
    | number =>
      cases hn : Number.ofText? text with
      | none => simp [Reading.number, hn, Except.toOption] at he
      | some n =>
        simp only [Reading.number, hn, Except.toOption, Option.map_some, Option.some.injEq] at he ⊢
        exact ⟨_, rfl, he ▸ .literal hr⟩
    | trueLiteral => exact ⟨_, rfl, Option.some.inj he ▸ .literal hr⟩
    | falseLiteral => exact ⟨_, rfl, Option.some.inj he ▸ .literal hr⟩
    | nullLiteral => exact ⟨_, rfl, Option.some.inj he ▸ .literal hr⟩
    | _ => cases he

theorem exists_of_forall₂_append {α β : Type} {R : α → β → Prop} {a b : List α} {c : List β}
    (h : List.Forall₂ R (a ++ b) c) : ∃ a' b', c = a' ++ b' ∧ List.Forall₂ R a a' ∧ List.Forall₂ R b b' := by
  induction a generalizing c with
  | nil => exact ⟨[], c, rfl, .nil, h⟩
  | cons x a ih =>
    obtain ⟨y, c, hxy, hrest, rfl⟩ := List.forall₂_cons_left_iff.mp h
    obtain ⟨a', b', rfl, ha, hb⟩ := ih hrest
    exact ⟨y :: a', b', rfl, .cons hxy ha, hb⟩

def Combines (ok : Region → Region → Prop) : Prop :=
  ∀ a a' b b', ok a a' → ok b b' → ok (a.combine b) (a'.combine b')

theorem AlikeOperands.span (hok : Combines ok) : ∀ {o o' : Operands}, AlikeOperands ok o o' →
    ∀ {r r' : Region}, ok r r' → ok (o.span r) (o'.span r')
  | _, _, .nil, _, _, hr => hr
  | _, _, .positional he h, _, _, hr => h.span hok (hok _ _ _ _ hr he.region)
  | _, _, .named he h, _, _, hr => h.span hok (hok _ _ _ _ hr he.region)

mutual

theorem SpellsExpression.alike (hok : Combines ok) {used used' : List Token} {e : Expression} (h : SpellsExpression used e)
    (ht : List.Forall₂ (AlikeToken ok) used used') :
    ∃ e', SpellsExpression used' e' ∧ AlikeExpression ok e e' := by
  match h with
  | .atom ha =>
    obtain ⟨t', rest, htok, hrest, rfl⟩ := List.forall₂_cons_left_iff.mp ht
    cases hrest
    obtain ⟨e', ha', he⟩ := htok.atom ha
    exact ⟨e', .atom ha', he⟩
  | .call hg =>
    obtain ⟨c', hg', hc⟩ := SpellsGroup.alike hok hg ht
    cases hc with
    | mk hp ho hr => exact ⟨_, .call hg', .call hp ho hr⟩

theorem SpellsGroup.alike (hok : Combines ok) {used used' : List Token} {c : Call Path} (h : SpellsGroup used c)
    (ht : List.Forall₂ (AlikeToken ok) used used') :
    ∃ c', SpellsGroup used' c' ∧ AlikeCall ok (AlikePath ok) c c' := by
  match h with
  | .mk ho hc hp hcall =>
    obtain ⟨opening', rest, hopening, hrest, rfl⟩ := List.forall₂_cons_left_iff.mp ht
    obtain ⟨used', last, rfl, hused, hlast⟩ := exists_of_forall₂_append hrest
    obtain ⟨closing', rest, hclosing, hnil, rfl⟩ := List.forall₂_cons_left_iff.mp hlast
    cases hnil
    obtain ⟨c', hcall', hc'⟩ := SpellsCall.alike hok hcall hused
    cases hc' with
    | mk hh hop hr =>
      cases hh with
      | path hpath =>
        exact ⟨_, .mk (hopening.kind.trans ho) (hclosing.kind.trans hc) (hpath.isSimple.trans hp) hcall',
          .mk hpath hop (hok _ _ _ _ hopening.region hclosing.region)⟩

theorem SpellsCall.alike (hok : Combines ok) {used used' : List Token} {c : Call Expression} (h : SpellsCall used c)
    (ht : List.Forall₂ (AlikeToken ok) used used') :
    ∃ c', SpellsCall used' c' ∧ AlikeCall ok (AlikeExpression ok) c c' := by
  match h with
  | .mk he ho =>
    obtain ⟨first, rest, rfl, hfirst, hrest⟩ := exists_of_forall₂_append ht
    obtain ⟨e', hs, ha⟩ := SpellsExpression.alike hok he hfirst
    obtain ⟨o', hs', ha'⟩ := SpellsOperands.alike hok ho hrest
    exact ⟨_, .mk hs hs', .mk ha ha' (ha'.span hok ha.region)⟩

theorem SpellsOperands.alike (hok : Combines ok) {used used' : List Token} {o : Operands} (h : SpellsOperands used o)
    (ht : List.Forall₂ (AlikeToken ok) used used') :
    ∃ o', SpellsOperands used' o' ∧ AlikeOperands ok o o' := by
  match h with
  | .nil =>
    cases ht
    exact ⟨_, .nil, .nil⟩
  | .positional he ho =>
    obtain ⟨first, rest, rfl, hfirst, hrest⟩ := exists_of_forall₂_append ht
    obtain ⟨e', hs, ha⟩ := SpellsExpression.alike hok he hfirst
    obtain ⟨⟨es', ns'⟩, hs', ha'⟩ := SpellsOperands.alike hok ho hrest
    exact ⟨_, .positional hs hs', .positional ha ha'⟩
  | .named hk hp hn hassign he ho =>
    obtain ⟨key', _, hkey, htail, rfl⟩ := List.forall₂_cons_left_iff.mp ht
    obtain ⟨assign', _, has, hused, rfl⟩ := List.forall₂_cons_left_iff.mp htail
    obtain ⟨first, rest, rfl, hfirst, hrest⟩ := exists_of_forall₂_append hused
    obtain ⟨p', hp', hpath⟩ := hkey.path hp
    obtain ⟨e', hs, ha⟩ := SpellsExpression.alike hok he hfirst
    obtain ⟨⟨es', ns'⟩, hs', ha'⟩ := SpellsOperands.alike hok ho hrest
    obtain rfl := ha'.positional_nil
    exact ⟨_, .named (hkey.kind.trans hk) hp' (hpath.helperName.trans hn) (has.kind.trans hassign) hs hs',
      .named ha ha'⟩

end

/-! ## Tags -/

theorem SpellsPartialName.alike (hok : Combines ok) {used used' : List Token} {name : PartialName}
    (h : SpellsPartialName used name) (ht : List.Forall₂ (AlikeToken ok) used used') :
    ∃ name', SpellsPartialName used' name' ∧ AlikePartialName ok name name' := by
  cases h with
  | path hk =>
    obtain ⟨t', _, htok, hnil, rfl⟩ := List.forall₂_cons_left_iff.mp ht
    cases hnil
    cases htok
    exact ⟨_, .path hk, .fixed _⟩
  | @string t s hk hq =>
    obtain ⟨t', _, htok, hnil, rfl⟩ := List.forall₂_cons_left_iff.mp ht
    cases hnil
    cases htok with
    | @mk kind text r r' hr =>
      refine ⟨_, .string hk (s := s) ?_, .fixed _⟩
      unfold Reading.quoted at *
      dsimp only at *
      cases hu : Reading.unescape text.tail.dropLast <;> simp_all
  | computed hg =>
    obtain ⟨c', hg', hc⟩ := hg.alike hok ht
    exact ⟨_, .computed hg', .computed hc⟩

theorem SpellsContext.alike (hok : Combines ok) {used used' : List Token} {context : Option Expression}
    (h : SpellsContext used context) (ht : List.Forall₂ (AlikeToken ok) used used') :
    ∃ context', SpellsContext used' context' ∧ AlikeContext ok context context' := by
  cases h with
  | none =>
    cases ht
    exact ⟨_, .none, .none⟩
  | some he =>
    obtain ⟨e', he', ha⟩ := he.alike hok ht
    exact ⟨_, .some he', .some ha⟩

theorem SpellsHead.alike (hok : Combines ok) {used used' : List Token} {c : Call Path} (h : SpellsHead used c)
    (ht : List.Forall₂ (AlikeToken ok) used used') :
    ∃ c', SpellsHead used' c' ∧ AlikeCall ok (AlikePath ok) c c' := by
  obtain ⟨⟨head, o, r⟩, hc, ha⟩ := SpellsCall.alike hok h ht
  cases ha with
  | mk hh ho hr =>
    cases hh with
    | path hp => exact ⟨⟨_, o, r⟩, hc, .mk hp ho hr⟩

theorem AlikeOperands.isEmpty {o o' : Operands} (h : AlikeOperands ok o o') : o'.isEmpty = o.isEmpty := by
  cases h <;> rfl

theorem SpellsTag.alike (hok : Combines ok) {marker marker' whole whole' : Region} {used used' : List Token} {tag : Tag}
    (h : SpellsTag marker whole used tag) (ht : List.Forall₂ (AlikeToken ok) used used') (hw : ok whole whole') :
    ∃ tag', SpellsTag marker' whole' used' tag' ∧ AlikeTag ok splice tag [tag'] := by
  cases h with
  | output hc =>
    obtain ⟨c', hc', ha⟩ := hc.alike hok ht
    exact ⟨_, .output hc', .leaf (.output ha hw)⟩
  | opening hk hs =>
    obtain ⟨t', _, htok, hrest, rfl⟩ := List.forall₂_cons_left_iff.mp ht
    obtain ⟨c', hs', ha⟩ := hs.alike hok hrest
    exact ⟨_, .opening (htok.kind.trans hk) hs', .opening (.mk ha hw)⟩
  | negated hk hargs hs =>
    obtain ⟨t', _, htok, hrest, rfl⟩ := List.forall₂_cons_left_iff.mp ht
    obtain ⟨c', hs', ha⟩ := hs.alike hok hrest
    have hargs' : c'.operands.isEmpty = true := by
      cases ha with
      | mk _ ho _ => exact ho.isEmpty.trans hargs
    exact ⟨_, .negated (htok.kind.trans hk) hargs' hs', .opening (.mk ha hw)⟩
  | caret hk =>
    obtain ⟨t', _, htok, hnil, rfl⟩ := List.forall₂_cons_left_iff.mp ht
    cases hnil
    exact ⟨_, .caret (htok.kind.trans hk), .alternative⟩
  | alternative hk =>
    obtain ⟨t', _, htok, hnil, rfl⟩ := List.forall₂_cons_left_iff.mp ht
    cases hnil
    exact ⟨_, .alternative (htok.kind.trans hk), .alternative⟩
  | alternativeOpening hk hs =>
    obtain ⟨t', _, htok, hrest, rfl⟩ := List.forall₂_cons_left_iff.mp ht
    obtain ⟨c', hs', ha⟩ := hs.alike hok hrest
    exact ⟨_, .alternativeOpening (htok.kind.trans hk) hs', .alternativeOpening (.mk ha hw)⟩
  | closing hk =>
    obtain ⟨t', _, htok, hnil, rfl⟩ := List.forall₂_cons_left_iff.mp ht
    cases hnil
    exact ⟨_, .closing (htok.kind.trans hk), .closing rfl⟩
  | closingName hk hn =>
    obtain ⟨t', _, htok, hrest, rfl⟩ := List.forall₂_cons_left_iff.mp ht
    obtain ⟨name', _, hname, hnil, rfl⟩ := List.forall₂_cons_left_iff.mp hrest
    cases hnil
    cases hname
    exact ⟨_, .closingName (htok.kind.trans hk) hn, .closing rfl⟩
  | inclusion hk hn hc =>
    obtain ⟨t', _, htok, hrest, rfl⟩ := List.forall₂_cons_left_iff.mp ht
    obtain ⟨name', context', rfl, hname, hcontext⟩ := exists_of_forall₂_append hrest
    obtain ⟨n', hn', han⟩ := hn.alike hok hname
    obtain ⟨c', hc', hac⟩ := hc.alike hok hcontext
    exact ⟨_, .inclusion (htok.kind.trans hk) hn' hc', .leaf (.inclusion han hac hw)⟩

theorem SpellsPart.alike (hok : Combines ok) {used used' : List Token} {part : Option Tag} (h : SpellsPart used part)
    (ht : List.Forall₂ (AlikeToken ok) used used') :
    ∃ part', SpellsPart used' part' ∧ AlikeTags ok splice part.toList part'.toList := by
  cases h with
  | raw hk =>
    obtain ⟨t', _, htok, hnil, rfl⟩ := List.forall₂_cons_left_iff.mp ht
    cases hnil
    cases htok with
    | mk hr => exact ⟨_, .raw hk, .cons (.leaf (.raw hr)) .nil⟩
  | comment hk =>
    obtain ⟨t', _, htok, hnil, rfl⟩ := List.forall₂_cons_left_iff.mp ht
    cases hnil
    exact ⟨none, .comment (htok.kind.trans hk), .nil⟩
  | rawOutput hk hclosing hc =>
    obtain ⟨marker', _, hmarker, hrest, rfl⟩ := List.forall₂_cons_left_iff.mp ht
    obtain ⟨used', last, rfl, hused, hlast⟩ := exists_of_forall₂_append hrest
    obtain ⟨closing', _, hclosing', hnil, rfl⟩ := List.forall₂_cons_left_iff.mp hlast
    cases hnil
    obtain ⟨c', hc', ha⟩ := hc.alike hok hused
    have hwhole := hok _ _ _ _ hmarker.region hclosing'.region
    cases hmarker with
    | mk _ =>
      exact ⟨_, .rawOutput hk (hclosing'.kind.trans hclosing) hc', .cons (.leaf (.output ha hwhole)) .nil⟩
  | tag hk hclosing hs =>
    obtain ⟨marker', _, hmarker, hrest, rfl⟩ := List.forall₂_cons_left_iff.mp ht
    obtain ⟨used', last, rfl, hused, hlast⟩ := exists_of_forall₂_append hrest
    obtain ⟨closing', _, hclosing', hnil, rfl⟩ := List.forall₂_cons_left_iff.mp hlast
    cases hnil
    obtain ⟨tag', hs', ha⟩ := hs.alike hok hused (hok _ _ _ _ hmarker.region hclosing'.region)
    exact ⟨some tag', .tag (hmarker.kind.trans hk) (hclosing'.kind.trans hclosing) hs', .cons ha .nil⟩

variable (splice) in
theorem SpellsTags.alike (hok : Combines ok) {tokens tokens' : List Token} {tags : List Tag}
    (h : SpellsTags tokens tags) (ht : List.Forall₂ (AlikeToken ok) tokens tokens') :
    ∃ tags', SpellsTags tokens' tags' ∧ AlikeTags ok splice tags tags' := by
  induction h generalizing tokens' with
  | nil =>
    cases ht
    exact ⟨[], .nil, .nil⟩
  | cons hp _ ih =>
    obtain ⟨used', rest', rfl, hused, hrest⟩ := exists_of_forall₂_append ht
    obtain ⟨part', hp', ha⟩ := hp.alike hok hused
    obtain ⟨tags', hs, has⟩ := ih hrest
    exact ⟨_, .cons hp' hs, ha.append has⟩

end Curly
