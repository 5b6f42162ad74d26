import Curly.Proofs.Written.Literal
import Curly.Proofs.Written.Path

/-!
# Written calls

A call is written as its head and its operands with one blank before each of
them, and a subexpression between parentheses. A written call between two pairs
of braces compiles to one escaped output of a call that differs in its regions
alone (`Template.compile_written`). The induction is on how the call is written;
what follows a text begins with a blank or a parenthesis all the way down
(`Lexeme.Reads`).
-/

namespace Curly

/-! ## What can be written -/

/-- The expressions made of literals and paths that have a written form. -/
inductive Expression.Writable : Expression → Prop
  | literal {value : Literal} {region : Region} : value.Writable → Writable (.literal value region)
  | path {p : Path} : p.Writable → Writable (.path p)
  | call {callee : Path} {o : Operands} {region : Region} :
    callee.isSimple = true → callee.Writable → (∀ e ∈ o.positional, Writable e) →
    (∀ n ∈ o.named, Path.isName n.1.toList = true) → (∀ n ∈ o.named, Writable n.2) →
    Writable (.call callee o region)

structure Operands.Writable (o : Operands) : Prop where
  positional : ∀ e ∈ o.positional, e.Writable
  names : ∀ n ∈ o.named, Path.isName n.1.toList = true
  named : ∀ n ∈ o.named, n.2.Writable

structure Call.Writable (c : Call Expression) : Prop where
  head : c.head.Writable
  operands : c.operands.Writable

/-! ## How it is written -/

mutual

inductive WritesExpression : List Char → Expression → Prop
  | literal {text : List Char} {value : Literal} {region : Region} :
    WritesLiteral text value → WritesExpression text (.literal value region)
  | path (p : Path) : WritesExpression p.written (.path p)
  | call {text : List Char} {callee : Path} {o : Operands} {region : Region} :
    WritesOperands text o → WritesExpression ('(' :: (callee.written ++ (text ++ [')']))) (.call callee o region)

inductive WritesOperands : List Char → Operands → Prop
  | nil : WritesOperands [] ⟨[], []⟩
  | positional {text rest : List Char} {e : Expression} {es : List Expression} {ns : List (String × Expression)} :
    WritesExpression text e → WritesOperands rest ⟨es, ns⟩ →
    WritesOperands (' ' :: (text ++ rest)) ⟨e :: es, ns⟩
  | named {text rest : List Char} {name : String} {e : Expression} {ns : List (String × Expression)} :
    WritesExpression text e → WritesOperands rest ⟨[], ns⟩ →
    WritesOperands (' ' :: (name.toList ++ '=' :: (text ++ rest))) ⟨[], (name, e) :: ns⟩

end

inductive WritesCall : List Char → Call Expression → Prop
  | mk {first rest : List Char} {head : Expression} {o : Operands} {region : Region} :
    WritesExpression first head → WritesOperands rest o → WritesCall (first ++ rest) ⟨head, o, region⟩

theorem WritesOperands.exists : ∀ {o : Operands}, (∀ e ∈ o.positional, ∃ text, WritesExpression text e) →
    (∀ n ∈ o.named, ∃ text, WritesExpression text n.2) → ∃ text, WritesOperands text o
  | ⟨[], []⟩, _, _ => ⟨[], .nil⟩
  | ⟨[], n :: ns⟩, hpositional, hnamed => by
    obtain ⟨text, htext⟩ := hnamed n (List.mem_cons_self ..)
    obtain ⟨rest, hrest⟩ := @WritesOperands.exists ⟨[], ns⟩ hpositional fun n hn => hnamed n (List.mem_cons_of_mem _ hn)
    exact ⟨_, .named htext hrest⟩
  | ⟨e :: es, ns⟩, hpositional, hnamed => by
    obtain ⟨text, htext⟩ := hpositional e (List.mem_cons_self ..)
    obtain ⟨rest, hrest⟩ := @WritesOperands.exists ⟨es, ns⟩
      (fun e he => hpositional e (List.mem_cons_of_mem _ he)) hnamed
    exact ⟨_, .positional htext hrest⟩
termination_by o => o.positional.length + o.named.length

theorem WritesExpression.exists {e : Expression} (h : e.Writable) : ∃ text, WritesExpression text e := by
  induction h with
  | literal hv =>
    obtain ⟨text, ht⟩ := WritesLiteral.exists hv
    exact ⟨text, .literal ht⟩
  | path _ => exact ⟨_, .path _⟩
  | call _ _ _ _ _ hpositional hnamed =>
    obtain ⟨text, ht⟩ := WritesOperands.exists hpositional hnamed
    exact ⟨_, .call ht⟩

/-! ## Calls that differ in their regions -/

mutual

inductive SameExpression : Expression → Expression → Prop
  | literal {value : Literal} {r r' : Region} : SameExpression (.literal value r) (.literal value r')
  | path {p p' : Path} : SamePath p p' → SameExpression (.path p) (.path p')
  | call {callee callee' : Path} {o o' : Operands} {r r' : Region} :
    SamePath callee callee' → SameOperands o o' → SameExpression (.call callee o r) (.call callee' o' r')

inductive SameOperands : Operands → Operands → Prop
  | nil : SameOperands ⟨[], []⟩ ⟨[], []⟩
  | positional {e e' : Expression} {es es' : List Expression} {ns ns' : List (String × Expression)} :
    SameExpression e e' → SameOperands ⟨es, ns⟩ ⟨es', ns'⟩ → SameOperands ⟨e :: es, ns⟩ ⟨e' :: es', ns'⟩
  | named {name : String} {e e' : Expression} {ns ns' : List (String × Expression)} :
    SameExpression e e' → SameOperands ⟨[], ns⟩ ⟨[], ns'⟩ →
    SameOperands ⟨[], (name, e) :: ns⟩ ⟨[], (name, e') :: ns'⟩

end

theorem SameOperands.positional_nil {ns ns' : List (String × Expression)} {es' : List Expression}
    (h : SameOperands ⟨[], ns⟩ ⟨es', ns'⟩) : es' = [] := by
  cases h
  all_goals rfl

structure SameCall (c c' : Call Expression) : Prop where
  head : SameExpression c.head c'.head
  operands : SameOperands c.operands c'.operands

/-! ## Reading calls back -/

open Lexeme

theorem Operands.Writable.tail_positional {e : Expression} {es : List Expression} {ns : List (String × Expression)}
    (h : Operands.Writable ⟨e :: es, ns⟩) : e.Writable ∧ Operands.Writable ⟨es, ns⟩ := by
  obtain ⟨hpositional, hnames, hnamed⟩ := h
  obtain ⟨he, hes⟩ := List.forall_mem_cons.mp hpositional
  exact ⟨he, hes, hnames, hnamed⟩

theorem Operands.Writable.tail_named {name : String} {e : Expression} {ns : List (String × Expression)}
    (h : Operands.Writable ⟨[], (name, e) :: ns⟩) :
    Path.isName name.toList = true ∧ e.Writable ∧ Operands.Writable ⟨[], ns⟩ := by
  obtain ⟨hpositional, hnames, hnamed⟩ := h
  obtain ⟨hname, hnames⟩ := List.forall_mem_cons.mp hnames
  obtain ⟨he, hnamed⟩ := List.forall_mem_cons.mp hnamed
  exact ⟨hname, he, hpositional, hnames, hnamed⟩

theorem SpellsExpression.of_token {t : Token} {p : Path} (hk : t.kind = .path) (hp : Reading.path t = .ok p) :
    SpellsExpression [t] (.path p) :=
  .atom (by simp [Reading.atom?, hk, hp, Except.toOption])

theorem Lexeme.Reads.key {name : String} (h : Path.isName name.toList = true) :
    Begins name.toList ∧ Reads name.toList fun used =>
      ∃ t p, used = [t] ∧ t.kind = .path ∧ Reading.path t = .ok p ∧ p.helperName = some name := by
  obtain ⟨hbegins, hreads⟩ := (Path.writable_plain h).reads
  rw [Path.written_plain] at hbegins hreads
  refine ⟨hbegins, hreads.mono ?_⟩
  rintro _ ⟨t, p, rfl, hkind, hpath, hsame⟩
  refine ⟨t, p, rfl, hkind, hpath, ?_⟩
  rw [← hsame.helperName, Path.helperName, if_pos (Path.isSimple_plain name)]
  rfl

theorem WritesOperands.lets {text : List Char} {o : Operands} (h : WritesOperands text o) : Lets text := by
  intro rest hrest
  cases h with
  | nil => exact hrest
  | positional _ _ => exact .blank _
  | named _ _ => exact .blank _

mutual

theorem WritesExpression.reads {text : List Char} {e : Expression} (h : WritesExpression text e) (hw : e.Writable) :
    Begins text ∧ Reads text fun used => ∃ e', SpellsExpression used e' ∧ SameExpression e e' := by
  match h with
  | @WritesExpression.literal _ value region hl =>
    obtain ⟨hbegins, hreads⟩ := hl.reads (by cases hw; assumption)
    refine ⟨hbegins, hreads.mono ?_⟩
    rintro used ⟨r, hs⟩
    exact ⟨_, hs, .literal⟩
  | .path p =>
    have hp : p.Writable := by cases hw; assumption
    obtain ⟨hbegins, hreads⟩ := hp.reads
    refine ⟨hbegins, hreads.mono ?_⟩
    rintro _ ⟨t, q, rfl, hkind, hpath, hsame⟩
    exact ⟨.path q, .of_token hkind hpath, .path hsame⟩
  | @WritesExpression.call inner callee o region ho =>
    cases hw with
    | call hsimple hcallee hpositional hnames hnamed =>
      obtain ⟨-, hhead⟩ := hcallee.reads
      have hrest := ho.reads ⟨hpositional, hnames, hnamed⟩
      -- the head ends before the first operand, or before the parenthesis if there is none
      have hlets : Lets (inner ++ [')']) := by
        intro rest _
        rw [List.append_assoc]
        exact ho.lets _ (.group rest)
      have hwhole := hhead.append (hrest.append (.closing rfl) fun rest _ => .group rest) hlets
      refine ⟨⟨'(', _, rfl, rfl⟩, (Reads.punctuation rfl hwhole).mono ?_⟩
      rintro _ ⟨opening, _, rfl, hopening, _, _, rfl, ⟨t, q, rfl, hkind, hpath, hsame⟩, _, _, rfl, ⟨o', ho', hso⟩,
        closing, rfl, hclosing⟩
      have hgroup := SpellsGroup.mk hopening hclosing (hsame.isSimple ▸ hsimple) (.mk (.of_token hkind hpath) ho')
      rw [List.append_assoc] at hgroup
      exact ⟨_, .call hgroup, .call hsame hso⟩

theorem WritesOperands.reads {text : List Char} {o : Operands} (h : WritesOperands text o) (hw : o.Writable) :
    Reads text fun used => ∃ o', SpellsOperands used o' ∧ SameOperands o o' := by
  match h with
  | .nil => exact .nil ⟨⟨[], []⟩, .nil, .nil⟩
  | @WritesOperands.positional first rest e es ns he ho =>
    obtain ⟨hwe, hwo⟩ := hw.tail_positional
    obtain ⟨hbegins, hfirst⟩ := he.reads hwe
    have hwhole := hfirst.append (ho.reads hwo) ho.lets
    refine (hwhole.blank (hbegins.append rest)).mono ?_
    rintro _ ⟨_, _, rfl, ⟨e', he', hse⟩, ⟨es', ns'⟩, ho', hso⟩
    exact ⟨⟨e' :: es', ns'⟩, .positional he' ho', .positional hse hso⟩
  | @WritesOperands.named first rest name e ns he ho =>
    obtain ⟨hname, hwe, hwo⟩ := hw.tail_named
    obtain ⟨hbegins, hkey⟩ := Reads.key hname
    obtain ⟨-, hfirst⟩ := he.reads hwe
    have hvalue := Reads.punctuation (c := '=') rfl (hfirst.append (ho.reads hwo) ho.lets)
    have hwhole := hkey.append hvalue fun rest _ => .assign _
    refine (hwhole.blank (hbegins.append _)).mono ?_
    rintro _ ⟨_, _, rfl, ⟨key, p, rfl, hkind, hpath, hp⟩, assign, _, rfl, hassign, _, _, rfl, ⟨e', he', hse⟩,
      ⟨es', ns'⟩, ho', hso⟩
    obtain rfl : es' = [] := hso.positional_nil
    exact ⟨⟨[], (name, e') :: ns'⟩, .named hkind hpath hp hassign he' ho', .named hse hso⟩

end

theorem WritesCall.reads {text : List Char} {c : Call Expression} (h : WritesCall text c) (hw : c.Writable) :
    Begins text ∧ Reads text fun used => ∃ c', SpellsCall used c' ∧ SameCall c c' := by
  cases h with
  | @mk first rest head o region hhead ho =>
    obtain ⟨hbegins, hfirst⟩ := hhead.reads hw.head
    refine ⟨hbegins.append rest, (hfirst.append (ho.reads hw.operands) ho.lets).mono ?_⟩
    rintro _ ⟨_, _, rfl, ⟨head', hs, hsame⟩, o', ho', hso⟩
    exact ⟨_, .mk hs ho', hsame, hso⟩

/-! ## Tags -/

/-- What a text that is read by itself gives between braces and blanks. -/
theorem scan_tagText {text : List Char} {P : List Token → Prop} (hbegins : Begins text) (h : Reads text P) :
    ∃ marker used closing, Token.ofSource (tagText (" " ++ String.ofList text ++ " ")).toList =
        marker :: (used ++ [closing]) ∧
      marker.kind = .beginExpression ∧ closing.kind = .endExpression ∧ P used := by
  obtain ⟨ls, hscan, hP⟩ := h.blank hbegins
  have hsource : (tagText (" " ++ String.ofList text ++ " ")).toList =
      braces false ++ (' ' :: text ++ [' ', '}', '}']) := by
    simp [toList_tagText]
  have hplain : ∀ c ∈ (' ' :: text ++ [' ', '}', '}']).head?, c ≠ '~' ∧ c ≠ '!' ∧ c ≠ '{' ∧ c ≠ '&' := by simp
  have hclosing : scan (.tag .double) [' ', '}', '}'] = [.gap .blank [' '], .token .endExpression ['}', '}']] := by
    rw [scan_word (by decide), show scanWord ' ' ['}', '}'] = (.gap .blank [' '], ['}', '}']) by decide,
      scan_of_ne_nil _ (by simp), scanStep, scanTag_closing rfl]
    simp [scan_nil, Closer.kind]
  rw [hsource, Token.ofSource, scan_expression hplain, hscan _ (.blank _), hclosing, tokens, tokens_append]
  exact ⟨_, _, _, rfl, rfl, rfl, hP _⟩

/-- A call that can be written can be written in some way, and in whatever way it
is, it compiles to one escaped output of the same call. -/
theorem Template.compile_written {c : Call Expression} (h : c.Writable) :
    (∃ text, WritesCall text c) ∧
      ∀ text, WritesCall text c → ∀ name, ∃ t c' region,
        Template.compile name (tagText (" " ++ String.ofList text ++ " ")) = .ok t ∧
          t.nodes = [.output c' true region] ∧ SameCall c c' := by
  constructor
  · obtain ⟨first, hfirst⟩ := WritesExpression.exists h.head
    obtain ⟨rest, hrest⟩ := WritesOperands.exists (fun e he => WritesExpression.exists (h.operands.positional e he))
      fun n hn => WritesExpression.exists (h.operands.named n hn)
    exact ⟨first ++ rest, .mk hfirst hrest⟩
  · intro text htext name
    obtain ⟨hbegins, hreads⟩ := htext.reads h
    obtain ⟨marker, used, closing, htokens, hmarker, hclosing, c', hs, hsame⟩ := scan_tagText hbegins hreads
    have htags : SpellsTags (marker :: (used ++ [closing]))
        [.node (.output c' true (marker.region.combine closing.region))] := by
      simpa using SpellsTags.cons (.tag hmarker hclosing (.output hs)) .nil
    have hnodes := Node.ofSource_eq_iff.mpr ⟨_, htokens ▸ htags, .node .nil⟩
    exact ⟨⟨name, _, _⟩, c', _, Template.compile_ok_iff.mpr ⟨rfl, rfl, hnodes⟩, rfl, hsame⟩

def outerName : Path :=
  ⟨.context 1, ["first name"], [], default⟩

def outerKey : Path :=
  ⟨.metadata 1 "key", ["a.b"], [], default⟩

def joinCall : Expression :=
  .call (.plain "join") ⟨[.literal (.number (.negative (-3))) default], [("by", .literal .null default)]⟩ default

/-- A call with a string, a path and a call inside a call, and a named path. -/
def linkCall : Call Expression :=
  ⟨.path (.plain "link"),
    ⟨[.literal (.string "it's \x7d\x7d \\") default, .path outerName, joinCall], [("class", .path outerKey)]⟩, default⟩

def linkText : String :=
  "link 'it\\'s \x7d\x7d \\\\' ../[first name] (join -3 by=null) class=@../key.[a.b]"

theorem writable_joinCall : joinCall.Writable := by
  have hnegative : (-3 : Int64) < 0 := by decide
  exact .call (by decide) (Path.writable_plain (by decide)) (List.forall_mem_singleton.mpr (.literal hnegative))
    (by decide) (List.forall_mem_singleton.mpr (.literal trivial))

theorem writable_linkCall : linkCall.Writable := by
  have houter : outerName.Writable := .inr ⟨by decide, trivial, by decide⟩
  have hkey : outerKey.Writable := .inr ⟨by decide, ⟨by decide, by decide⟩, by decide⟩
  have hpositional : ∀ e ∈ linkCall.operands.positional, e.Writable :=
    List.forall_mem_cons.mpr ⟨.literal trivial, List.forall_mem_cons.mpr
      ⟨.path houter, List.forall_mem_singleton.mpr writable_joinCall⟩⟩
  exact ⟨.path (Path.writable_plain (by decide)), hpositional, by decide,
    List.forall_mem_singleton.mpr (.path hkey)⟩

theorem writes_linkCall : WritesCall linkText.toList linkCall := by
  have hjoin : WritesExpression _ joinCall :=
    .call (.positional (.literal (.negative (-3))) (.named (.literal .nullWord) .nil))
  have htext : WritesCall _ linkCall :=
    .mk (.path _) (.positional (.literal (@WritesLiteral.string '\x27' _ rfl))
      (.positional (.path _) (.positional hjoin (.named (.path _) .nil))))
  convert htext using 1
  decide +kernel

theorem Template.compile_written_link :
    linkCall.Writable ∧ WritesCall linkText.toList linkCall ∧
      ∃ t c' region, Template.compile none (tagText (" " ++ String.ofList linkText.toList ++ " ")) = .ok t ∧
        t.nodes = [.output c' true region] ∧ SameCall linkCall c' :=
  ⟨writable_linkCall, writes_linkCall, (Template.compile_written writable_linkCall).2 _ writes_linkCall none⟩

end Curly
