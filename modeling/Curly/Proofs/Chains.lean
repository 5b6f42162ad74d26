import Curly.Proofs.Render.InStep
import Curly.Proofs.Written.Condition

/-!
# Chains of alternatives

A block of the built-in condition, its alternatives with conditions of their own, and
the last one without. One closing tag closes them all. The conditions are evaluated in
turn, up to the first that holds, and the body behind that one is rendered in the frame
that the block stands in (`Engine.render_chain`). The tree nests each alternative in
the one before it. The induction goes from the closing tag to the front, and what it keeps is
`Finishes`.
-/

namespace Curly

/-! ## Chains -/

/-- A template that may stand between the tags of a block. -/
structure Body where
  template : Template
  compiled : Template.compile template.name template.source = .ok template
  plain : '\\' ∉ template.source.toList
  closed : template.source.toList.getLast? ≠ some '{'

/-- A condition, as text and as the expression that the text is, with what is rendered if it holds. -/
structure Link where
  condition : String
  expression : Expression
  read : expression.ReadFrom condition.toList
  body : Body

structure Chain where
  first : Link
  others : List Link
  otherwise : Option Body

def Body.text (b : Body) : String :=
  b.template.source

def Link.text (lead : String) (l : Link) : String :=
  tagText (lead ++ " " ++ l.condition) ++ l.body.text

namespace Chain

def links (c : Chain) : List Link :=
  c.first :: c.others

def ending : Option Body → String
  | none => tagText "/if"
  | some body => tagText "else" ++ body.text ++ tagText "/if"

def behind (otherwise : Option Body) : List Link → String
  | [] => ending otherwise
  | l :: ls => l.text "else if" ++ behind otherwise ls

def text (c : Chain) : String :=
  c.first.text "#if" ++ behind c.otherwise c.others

end Chain

/-! ## What a chain renders -/

section
variable (engine : Engine) (depth : Nat) (frame : Frame)

/-- The condition evaluated by itself. -/
def Link.value (l : Link) : Run Value :=
  (engine.scene depth ⟨none, l.condition, []⟩).evaluate frame l.expression

def Body.render (b : Body) : Run Unit :=
  engine.renderTemplate depth b.template frame

/-- The body if the condition holds, and the run otherwise. -/
def Link.orElse (l : Link) (run : Run Unit) : Run Unit := do
  if (← l.value engine depth frame).isTruthy then l.body.render engine depth frame else run

def Chain.renderOtherwise : Option Body → Run Unit
  | none => pure ()
  | some body => body.render engine depth frame

def Chain.renderLinks (otherwise : Option Body) : List Link → Run Unit
  | [] => renderOtherwise engine depth frame otherwise
  | l :: ls => l.orElse engine depth frame (renderLinks otherwise ls)

end

/-- A block of the built-in condition evaluates its argument and renders one of its branches. -/
theorem Scene.renderNode_if {scene : Scene} (he : scene.engine.helpers = Builtin.all) {c : Call Path}
    {e : Expression} (hname : c.head.helperName = some "if") (ho : c.operands = ⟨[e], []⟩) (body : List Node)
    (inverse : Option (List Node)) (region : Region) (frame : Frame) :
    Run.Same Unit (do
        if (← scene.evaluate frame e).isTruthy then scene.renderNodes body frame
        else Block.renderIn frame (scene.renderBranch inverse))
      (scene.renderNode (.block c false body inverse region) frame) := by
  have hhelper : scene.engine.blockHelper? "if" = some Builtin.ifHelper := by
    rw [Engine.blockHelper?, he]
    rfl
  rw [renderNode, if_neg Bool.false_ne_true, renderBlock, hname, Option.bind_some, hhelper, ho]
  dsimp only
  rw [evaluateOperands_single, bind_assoc, pointing]
  apply Run.Same.mapError_right
  · intro d
    rfl
  · apply Run.Same.comparison.bind (Run.Same.comparison.refl _)
    intro v
    rw [pure_bind, pointing]
    apply Run.Same.mapError_right
    · intro d
      rfl
    · exact Run.Same.comparison.refl _

/-! ## Tags -/

theorem Body.exists_tags (b : Body) :
    ∃ tags, SpellsTags (Token.ofSource b.text.toList) tags ∧ SpellsScope Opening.name tags b.template.nodes :=
  Node.ofSource_eq_iff.mp (Template.compile_ok_iff.mp b.compiled).2.2

/-- A body between two tags renders as the template that it is. -/
theorem Body.render_moved (b : Body) {engine : Engine} (he : engine.helpers = Builtin.all) {before after : List Char}
    {t : Template} (ht : t.source.toList = before ++ (b.text.toList ++ after)) {nodes : List Node}
    (h : AlikeNodes (Region.Moved b.text.toList (byteLength before)) (fun _ _ => False) b.template.nodes nodes)
    (depth : Nat) (frame : Frame) :
    Run.Same Unit (b.render engine depth frame) ((engine.scene depth t).renderNodes nodes frame) := by
  have hnodes := h.render_moved he rfl ht depth frame
  rw [Body.render, Engine.renderTemplate_eq]
  exact ⟨hnodes.1, (Run.result_mapError (Diagnostic.cause_inside _) _).trans hnodes.2⟩

/-- The source begins with a tag and closes a block of the built-in condition. What stands between the body of the
block and there renders as the run. -/
inductive Finishes (source : List Char) (run : Engine → Nat → Frame → Run Unit) : Prop
  | mk {rest : List Char} {tail : List Tag} {name region : Region} {inverse : Option (List Node)} :
    source = Lexeme.braces false ++ rest → rest.head? ≠ some '~' →
    SpellsTags (Token.ofSource source) (tail ++ [.closing (some (['i', 'f'], name)) region]) →
    SpellsTail Opening.name tail inverse →
    (∀ engine : Engine, engine.helpers = Builtin.all → ∀ t : Template, t.source.toList = source → ∀ depth frame,
      Run.Same Unit (run engine depth frame) (Block.renderIn frame ((engine.scene depth t).renderBranch inverse))) →
    Finishes source run

theorem AlikeTags.exists_closing {ok : Region → Region → Prop} {splice : Node → List Node → Prop} {name : List Char}
    {at_ region : Region} {tags : List Tag} (h : AlikeTags ok splice [.closing (some (name, at_)) region] tags) :
    ∃ at' region', tags = [.closing (some (name, at')) region'] := by
  cases h with
  | cons ht hnil =>
    cases hnil
    cases ht with
    | @closing _ closed _ region' hclosed =>
      obtain ⟨⟨name', at'⟩, rfl, rfl⟩ := Option.map_eq_some_iff.mp hclosed
      exact ⟨at', region', rfl⟩

theorem spellsTags_end :
    SpellsTags (Token.ofSource (tagText "/if").toList) [.closing (some (['i', 'f'], ⟨3, 5⟩)) ⟨0, 7⟩] := by
  have htokens : Token.ofSource (tagText "/if").toList =
      [⟨.beginExpression, ['{', '{'], ⟨0, 2⟩⟩, ⟨.slash, ['/'], ⟨2, 3⟩⟩, ⟨.path, ['i', 'f'], ⟨3, 5⟩⟩,
        ⟨.endExpression, ['}', '}'], ⟨5, 7⟩⟩] := by decide +kernel
  rw [htokens]
  exact .cons (@SpellsPart.tag _ _ [_, _] _ rfl rfl (.closingName rfl rfl)) .nil

theorem spellsTags_else : SpellsTags (Token.ofSource (tagText "else").toList) [.alternative ⟨0, 2⟩] := by
  have htokens : Token.ofSource (tagText "else").toList =
      [⟨.beginExpression, ['{', '{'], ⟨0, 2⟩⟩, ⟨.elseKeyword, ['e', 'l', 's', 'e'], ⟨2, 6⟩⟩,
        ⟨.endExpression, ['}', '}'], ⟨6, 8⟩⟩] := by decide +kernel
  rw [htokens]
  exact .cons (@SpellsPart.tag _ _ [_] _ rfl rfl (.alternative rfl)) .nil

theorem finishes_end : Finishes (tagText "/if").toList fun _ _ _ => pure () := by
  have htilde : ("/if".toList ++ ['}', '}']).head? ≠ some '~' := by simp
  refine @Finishes.mk _ _ _ [] _ _ none (toList_tagText "/if") htilde spellsTags_end .none ?_
  intro engine he t ht depth frame
  exact Run.Same.comparison.refl _

/-- The last alternative, without a condition. -/
theorem finishes_else (b : Body) :
    Finishes (tagText "else" ++ b.text ++ tagText "/if").toList fun engine depth frame =>
      b.render engine depth frame := by
  obtain ⟨tags, htags, hscope⟩ := b.exists_tags
  have hends : EndsPlainly (tagText "else").toList := by decide +kernel
  have hend := spellsTags_end
  rw [toList_tagText] at hend
  have hsource : (tagText "else" ++ b.text ++ tagText "/if").toList = (tagText "else").toList ++
      (b.text.toList ++ (Lexeme.braces false ++ ("/if".toList ++ ['}', '}']))) := by
    rw [String.toList_append, String.toList_append, toList_tagText "/if", List.append_assoc]
  have hbegins : (tagText "else").toList ++ (b.text.toList ++ (Lexeme.braces false ++ ("/if".toList ++ ['}', '}']))) =
      Lexeme.braces false ++ (("else".toList ++ ['}', '}']) ++
        (b.text.toList ++ (Lexeme.braces false ++ ("/if".toList ++ ['}', '}'])))) := by
    rw [toList_tagText, List.append_assoc]
  obtain ⟨y, z, hall, hy, hz⟩ := spellsTags_else.exists_around hends htags b.plain b.closed hend (by simp)
  obtain ⟨at', region', rfl⟩ := hz.exists_closing
  obtain ⟨nodes, hnodes, halike⟩ := hscope.alike hy
  rw [hsource]
  rw [List.singleton_append, ← List.cons_append] at hall
  refine .mk hbegins (by simp) hall (.plain hnodes) ?_
  intro engine he t ht depth frame
  exact b.render_moved he ht halike depth frame

/-! ## Links -/

theorem leads_opening : Leads "if" "#if".toList fun _ o => .opening o where
  begins := by simp
  reads := by
    have hword : Lexeme.Reads "if".toList _ := .word (by decide) (.of_all (by decide))
    refine (hword.punctuation rfl).mono ?_
    rintro used ⟨word, rest, rfl, hkind, region, rfl⟩
    exact ⟨word, region, rfl, .opening hkind⟩

theorem leads_alternative : Leads "if" "else if".toList .alternativeOpening where
  begins := by simp
  reads := by
    have helse : Lexeme.Reads "else".toList _ := .word (by decide) (.of_all (by decide))
    have hword : Lexeme.Reads "if".toList _ := .word (by decide) (.of_all (by decide))
    have hblank : Lexeme.Reads " if".toList _ := hword.blank ⟨'i', ['f'], rfl, by decide⟩
    refine (helse.append hblank fun _ _ => .blank _).mono ?_
    rintro used ⟨first, second, rfl, ⟨at_, rfl⟩, region, rfl⟩
    exact ⟨_, region, rfl, .alternativeOpening rfl⟩

theorem Link.toList_text (lead : String) (l : Link) (rest : List Char) :
    (l.text lead).toList ++ rest = conditionTag lead.toList l.condition.toList ++ (l.body.text.toList ++ rest) := by
  simp [Link.text, toList_tagText, conditionTag]

/-- A block of the built-in condition, the parts of which do what the condition and the body of a link do. -/
theorem Link.orElse_same (l : Link) {scene : Scene} (he : scene.engine.helpers = Builtin.all) {c : Call Path}
    {e : Expression} (hname : c.head.helperName = some "if") (ho : c.operands = ⟨[e], []⟩) {engine : Engine}
    {depth : Nat} {frame : Frame} {nodes : List Node} {inverse : Option (List Node)} {run : Run Unit}
    (hvalue : Run.Same Value (l.value engine depth frame) (scene.evaluate frame e))
    (hbody : Run.Same Unit (l.body.render engine depth frame) (scene.renderNodes nodes frame))
    (hrun : Run.Same Unit run (Block.renderIn frame (scene.renderBranch inverse))) (region : Region) :
    Run.Same Unit (l.orElse engine depth frame run) (scene.renderNode (.block c false nodes inverse region) frame) := by
  have hblock := Scene.renderNode_if he hname ho nodes inverse region frame
  refine .trans (Run.Same.comparison.bind hvalue fun v => ?_) hblock
  by_cases hv : v.isTruthy = true
  · rw [if_pos hv, if_pos hv]
    exact hbody
  · rw [if_neg hv, if_neg hv]
    exact hrun

/-- The tag of a link, its body and what finishes the block make up a block. -/
theorem Link.exists_block (l : Link) {lead : String} {make : Region → Opening → Tag}
    (hlead : Leads "if" lead.toList make) {rest : List Char} {run : Engine → Nat → Frame → Run Unit} (h : Finishes rest run) :
    ∃ marker c region y tail name last nodes inverse,
      SpellsTags (Token.ofSource ((l.text lead).toList ++ rest))
        (make marker ⟨c, false, region⟩ :: (y ++ (tail ++ [.closing (some (['i', 'f'], name)) last]))) ∧
      c.head.text = ['i', 'f'] ∧ SpellsScope Opening.name y nodes ∧ SpellsTail Opening.name tail inverse ∧
      ∀ engine : Engine, engine.helpers = Builtin.all → ∀ t : Template, t.source.toList = (l.text lead).toList ++ rest →
        ∀ depth frame, Run.Same Unit (l.orElse engine depth frame (run engine depth frame))
          ((engine.scene depth t).renderNode (.block c false nodes inverse region) frame) := by
  obtain @⟨rest, tail, name, last, inverse, rfl, hrest, hfinish, htail, hrun⟩ := h
  obtain ⟨hends, marker, region, c, htag, hname, htext, e, ho, he⟩ := hlead.exists_tag (by decide) l.read
  obtain ⟨tags, htags, hscope⟩ := l.body.exists_tags
  obtain ⟨y, z, hall, hy, hz⟩ := htag.exists_around hends htags l.body.plain l.body.closed hfinish hrest
  obtain ⟨tail', last', rfl, htail', hlast⟩ := hz.exists_append
  obtain ⟨at', region', rfl⟩ := hlast.exists_closing
  obtain ⟨nodes, hnodes, hbody⟩ := hscope.alike hy
  obtain ⟨inverse', hinverse, hbranch⟩ := htail.alike htail'
  rw [l.toList_text]
  refine ⟨marker, c, region, y, tail', at', region', nodes, inverse', hall, htext, hnodes, hinverse, ?_⟩
  intro engine hhelpers t ht depth frame
  have hcondition : t.source.toList = (Lexeme.braces false ++ (lead.toList ++ [' '])) ++
      (l.condition.toList ++ (['}', '}'] ++ (l.body.text.toList ++ (Lexeme.braces false ++ rest)))) := by
    simp [ht, conditionTag]
  have hbehind : t.source.toList = (conditionTag lead.toList l.condition.toList ++ l.body.text.toList) ++
      ((Lexeme.braces false ++ rest) ++ []) := by
    simp [ht]
  have hself : (⟨none, l.condition, []⟩ : Template).source.toList = l.condition.toList := rfl
  have hfrom : (⟨none, String.ofList (Lexeme.braces false ++ rest), []⟩ : Template).source.toList =
      Lexeme.braces false ++ rest := String.toList_ofList
  have hfinished := hrun engine hhelpers _ hfrom depth frame
  exact l.orElse_same hhelpers hname ho (he.evaluate_moved hhelpers hself hcondition depth frame)
    (l.body.render_moved hhelpers ht hbody depth frame)
    (hfinished.trans (hbranch.render_moved hhelpers hfrom hbehind depth frame)) region

theorem finishes_link (l : Link) {rest : List Char} {run : Engine → Nat → Frame → Run Unit} (h : Finishes rest run) :
    Finishes ((l.text "else if").toList ++ rest) fun engine depth frame =>
      l.orElse engine depth frame (run engine depth frame) := by
  obtain ⟨marker, c, region, y, tail, name, last, nodes, inverse, htags, -, hscope, htail, hrun⟩ :=
    l.exists_block leads_alternative h
  have hbegins : (l.text "else if").toList ++ rest =
      Lexeme.braces false ++ (("else if".toList ++ (' ' :: (l.condition.toList ++ ['}', '}']))) ++
        (l.body.text.toList ++ rest)) := by
    rw [l.toList_text, conditionTag, List.append_assoc]
  have hall : SpellsTail Opening.name (.alternativeOpening marker ⟨c, false, region⟩ :: (y ++ tail))
      (some [.block c false nodes inverse region]) := .chained hscope htail
  rw [← List.append_assoc y, ← List.cons_append] at htags
  refine .mk hbegins (by simp) htags hall ?_
  intro engine he t ht depth frame
  have hblock := hrun engine he t ht depth frame
  rwa [← Scene.renderNodes_singleton] at hblock

theorem finishes_behind (otherwise : Option Body) (ls : List Link) :
    Finishes (Chain.behind otherwise ls).toList fun engine depth frame =>
      Chain.renderLinks engine depth frame otherwise ls := by
  -- From the last alternative to the first, as the tree nests them the other way.
  induction ls with
  | nil =>
    cases otherwise with
    | none => exact finishes_end
    | some body => exact finishes_else body
  | cons l ls ih =>
    rw [Chain.behind, String.toList_append]
    exact finishes_link l ih

/-! ## Whole chains -/

theorem Chain.exists_template (c : Chain) (name : Option String) :
    ∃ t, Template.compile name c.text = .ok t ∧ ∀ engine : Engine, engine.helpers = Builtin.all → ∀ depth frame,
      Run.Same Unit (renderLinks engine depth frame c.otherwise c.links) (engine.renderTemplate depth t frame) := by
  obtain ⟨marker, call, region, y, tail, closed, last, nodes, inverse, htags, hname, hscope, htail, hrun⟩ :=
    c.first.exists_block leads_opening (finishes_behind c.otherwise c.others)
  rw [← String.toList_append] at htags hrun
  have hclosed : ∀ n ∈ some (['i', 'f'], closed), n.1 = Opening.name ⟨call, false, region⟩ := by
    intro n hn
    obtain rfl := Option.some.inj hn
    exact hname.symm
  refine ⟨_, Template.compile_of_tags htags (.block hscope htail hclosed .nil) name, ?_⟩
  intro engine he depth frame
  have hsource : (⟨name, c.text, [.block call false nodes inverse region]⟩ : Template).source.toList =
      c.text.toList := rfl
  have hsame := hrun engine he _ hsource depth frame
  rw [Engine.renderTemplate_eq, Scene.renderNodes_singleton]
  exact hsame.mapError_right (Diagnostic.cause_inside _)

/-! ## The first condition that holds -/

section
variable (engine : Engine) (depth : Nat) (frame : Frame)

/-- The condition evaluates to a value that is not truthy. -/
def Link.Falsy (l : Link) : Prop :=
  ∃ v, (l.value engine depth frame).outcome = .ok v ∧ v.isTruthy = false

/-- The run evaluates the conditions of the links, which leaves nothing but what they log, and
then does what `rest` does. -/
structure Chain.ComesTo (tested : List Link) (rest run : Run Unit) : Prop where
  events : run.events = (tested.flatMap fun l => (l.value engine depth frame).events) ++ rest.events
  text : textOf run.events = textOf rest.events
  result : run.result = rest.result

end

namespace Chain

variable {engine : Engine} {depth : Nat} {frame : Frame} {tested : List Link} {rest run : Run Unit} {l : Link}

theorem ComesTo.refl (run : Run Unit) : ComesTo engine depth frame [] run run :=
  ⟨rfl, rfl, rfl⟩

theorem ComesTo.same {run' : Run Unit} (h : ComesTo engine depth frame tested rest run)
    (hsame : Run.Same Unit run run') : ComesTo engine depth frame tested rest run' := by
  obtain ⟨hevents, hresult⟩ := hsame
  exact ⟨hevents ▸ h.events, hevents ▸ h.text, hresult ▸ h.result⟩

theorem ComesTo.of_ok {v : Value} {f : Value → Run Unit} (hv : (l.value engine depth frame).outcome = .ok v)
    (h : ComesTo engine depth frame tested rest (f v)) :
    ComesTo engine depth frame (l :: tested) rest (l.value engine depth frame >>= f) := by
  have hsilent : textOf (l.value engine depth frame).events = "" := Scene.textOf_evaluate ..
  have hbind : l.value engine depth frame >>= f =
      ⟨(l.value engine depth frame).events ++ (f v).events, (f v).outcome⟩ := by
    rcases hl : l.value engine depth frame with ⟨events, o⟩
    rw [hl] at hv
    obtain rfl : o = .ok v := hv
    rfl
  rw [hbind]
  refine ⟨?_, ?_, h.result⟩
  · rw [h.events, List.flatMap_cons, List.append_assoc]
  · rw [Run.textOf_append, hsilent, h.text, String.empty_append]

theorem ComesTo.of_error {d : Diagnostic} {f : Value → Run Unit}
    (hd : (l.value engine depth frame).outcome = .error d) :
    ComesTo engine depth frame [l] (Run.fail d) (l.value engine depth frame >>= f) := by
  have hsilent : textOf (l.value engine depth frame).events = "" := Scene.textOf_evaluate ..
  have hbind : l.value engine depth frame >>= f = ⟨(l.value engine depth frame).events, .error d⟩ := by
    rcases hl : l.value engine depth frame with ⟨events, o⟩
    rw [hl] at hd
    obtain rfl : o = .error d := hd
    rfl
  rw [hbind]
  refine ⟨?_, hsilent, rfl⟩
  simp [Run.fail]

theorem comesTo_behind {otherwise : Option Body} {before links : List Link}
    (hbefore : ∀ l ∈ before, l.Falsy engine depth frame)
    (h : ComesTo engine depth frame tested rest (renderLinks engine depth frame otherwise links)) :
    ComesTo engine depth frame (before ++ tested) rest
      (renderLinks engine depth frame otherwise (before ++ links)) := by
  induction before with
  | nil => exact h
  | cons l before ih =>
    obtain ⟨⟨v, hv, hfalsy⟩, hbefore⟩ := List.forall_mem_cons.mp hbefore
    apply ComesTo.of_ok hv
    rw [if_neg (by simp [hfalsy])]
    exact ih hbefore

end Chain

/-- A chain of conditions is a template. It renders what the body behind the first condition
that holds renders by itself, in the same frame and with the same result, or what the last
alternative does, and the conditions behind that one are not evaluated. If one up to there
cannot be evaluated, its error is that of the chain. -/
theorem Engine.render_chain (c : Chain) (name : Option String) :
    ∃ t, Template.compile name c.text = .ok t ∧
      ∀ engine : Engine, engine.helpers = Builtin.all → ∀ depth frame,
        (∀ before l after, c.links = before ++ l :: after → (∀ k ∈ before, k.Falsy engine depth frame) →
          (∀ v, (l.value engine depth frame).outcome = .ok v → v.isTruthy = true →
            Chain.ComesTo engine depth frame (before ++ [l]) (l.body.render engine depth frame)
              (engine.renderTemplate depth t frame)) ∧
          ∀ d, (l.value engine depth frame).outcome = .error d →
            Chain.ComesTo engine depth frame (before ++ [l]) (Run.fail d) (engine.renderTemplate depth t frame)) ∧
        ((∀ l ∈ c.links, l.Falsy engine depth frame) →
          Chain.ComesTo engine depth frame c.links (Chain.renderOtherwise engine depth frame c.otherwise)
            (engine.renderTemplate depth t frame)) := by
  obtain ⟨t, ht, hsame⟩ := c.exists_template name
  refine ⟨t, ht, ?_⟩
  intro engine he depth frame
  have hchain := hsame engine he depth frame
  refine ⟨?some, ?none⟩
  case some =>
    intro before l after hlinks hbefore
    rw [hlinks] at hchain
    constructor
    · intro v hv htruthy
      refine .same (Chain.comesTo_behind hbefore ?_) hchain
      apply Chain.ComesTo.of_ok hv
      rw [if_pos htruthy]
      exact .refl _
    · intro d hd
      exact .same (Chain.comesTo_behind hbefore (.of_error hd)) hchain
  case none =>
    intro hall
    have hlast : Chain.ComesTo engine depth frame [] (Chain.renderOtherwise engine depth frame c.otherwise)
        (Chain.renderLinks engine depth frame c.otherwise []) := .refl _
    have hbehind := Chain.comesTo_behind hall hlast
    rw [List.append_nil] at hbehind
    exact hbehind.same hchain

def valueBody : Body where
  template := ⟨none, tagText "a",
    [.output ⟨.path ⟨.context 0, ["a"], ['a'], ⟨2, 3⟩⟩, ⟨[], []⟩, ⟨2, 3⟩⟩ true ⟨0, 5⟩]⟩
  compiled := by
    have htokens : Token.ofSource (tagText "a").toList =
        [⟨.beginExpression, ['{', '{'], ⟨0, 2⟩⟩, ⟨.path, ['a'], ⟨2, 3⟩⟩, ⟨.endExpression, ['}', '}'], ⟨3, 5⟩⟩] := by
      decide +kernel
    apply Template.compile_of_tags _ (.node .nil)
    rw [htokens]
    exact .cons (@SpellsPart.tag _ _ [_] _ rfl rfl (.output (.mk (.of_token rfl rfl) .nil))) .nil
  plain := by decide
  closed := by decide

def textBody : Body where
  template := ⟨none, "x", [.raw "x" ⟨0, 1⟩]⟩
  compiled := by
    have htokens : Token.ofSource "x".toList = [⟨.raw, ['x'], ⟨0, 1⟩⟩] := by decide +kernel
    apply Template.compile_of_tags _ (.node .nil)
    rw [htokens]
    exact .cons (.raw rfl) .nil
  plain := by decide
  closed := by decide

def valueLink : Link where
  condition := "a"
  expression := .path ⟨.context 0, ["a"], ['a'], ⟨0, 1⟩⟩
  read := by
    have htokens : Lexeme.tokens 0 (Lexeme.scan (.tag .double) "a".toList) = [⟨.path, ['a'], ⟨0, 1⟩⟩] := by
      decide +kernel
    rw [Expression.ReadFrom, htokens]
    exact .of_token rfl rfl
  body := valueBody

/-- A condition that cannot be evaluated, as the helper is called without arguments. -/
def failingLink : Link where
  condition := "(lookup)"
  expression := .call ⟨.context 0, ["lookup"], "lookup".toList, ⟨1, 7⟩⟩ ⟨[], []⟩ ⟨0, 8⟩
  read := by
    have htokens : Lexeme.tokens 0 (Lexeme.scan (.tag .double) "(lookup)".toList) =
        [⟨.beginGroup, ['('], ⟨0, 1⟩⟩, ⟨.path, "lookup".toList, ⟨1, 7⟩⟩, ⟨.endGroup, [')'], ⟨7, 8⟩⟩] := by
      decide +kernel
    rw [Expression.ReadFrom, htokens]
    exact .call (@SpellsGroup.mk [_] _ _ _ _ _ rfl rfl rfl (.mk (.of_token rfl rfl) .nil))
  body := textBody

theorem Engine.render_chain_failing :
    let engine := Engine.new {}
    let holding := Frame.root (.record [("a", .string "1")])
    let empty := Frame.root .null
    (⟨valueLink, [failingLink], some textBody⟩ : Chain).text = tagText "#if a" ++ tagText "a" ++
        tagText "else if (lookup)" ++ "x" ++ tagText "else" ++ "x" ++ tagText "/if" ∧
      (valueLink.value engine 0 holding).outcome = .ok (.string "1") ∧ valueLink.Falsy engine 0 empty ∧
      ∃ d t u, (failingLink.value engine 0 empty).outcome = .error d ∧
        Template.compile none (⟨valueLink, [failingLink], some textBody⟩ : Chain).text = .ok t ∧
        Template.compile none (⟨valueLink, [], some textBody⟩ : Chain).text = .ok u ∧
        textOf (engine.renderTemplate 0 t holding).events = "1" ∧ (engine.renderTemplate 0 t holding).result = .ok () ∧
        textOf (engine.renderTemplate 0 t empty).events = "" ∧
        (engine.renderTemplate 0 t empty).result = .error d.cause ∧
        textOf (engine.renderTemplate 0 u empty).events = "x" ∧ (engine.renderTemplate 0 u empty).result = .ok () := by
  intro engine holding empty
  have hvalue : (valueLink.value engine 0 holding).outcome = .ok (.string "1") := rfl
  have hfalsy : valueLink.Falsy engine 0 empty := ⟨.null, rfl, rfl⟩
  have hbefore : ∀ k ∈ [valueLink], k.Falsy engine 0 empty := by simpa using hfalsy
  obtain ⟨d, hd⟩ : ∃ d, (failingLink.value engine 0 empty).outcome = .error d := ⟨_, rfl⟩
  obtain ⟨t, ht, hrun⟩ := render_chain ⟨valueLink, [failingLink], some textBody⟩ none
  obtain ⟨u, hu, hrun'⟩ := render_chain ⟨valueLink, [], some textBody⟩ none
  have hholds := ((hrun engine rfl 0 holding).1 [] valueLink [failingLink] rfl (by simp)).1 _ hvalue rfl
  have hfails := ((hrun engine rfl 0 empty).1 [valueLink] failingLink [] rfl hbefore).2 d hd
  have hnone := (hrun' engine rfl 0 empty).2 hbefore
  have htext : textOf (valueBody.render engine 0 holding).events = "1" := by decide +kernel
  have htext' : textOf (textBody.render engine 0 empty).events = "x" := by decide +kernel
  exact ⟨by decide +kernel, hvalue, hfalsy, d, t, u, hd, ht, hu, hholds.text.trans htext, hholds.result, hfails.text,
    hfails.result, hnone.text.trans htext', hnone.result⟩

end Curly
