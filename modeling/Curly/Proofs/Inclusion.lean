import Curly.Proofs.Concat

/-!
# Inclusions

A template that begins and ends with a tag or a comment can be written out in
place of a tag that includes it. The source is a template again, even where the
tag stands inside blocks (`Node.ofSource_inlined`), and renders to the same text.
Written out, the nodes are nested less deep than included ones, so fewer of their
own inclusions fail (`Engine.renderNodes_deeper`).
-/

namespace Curly

/-- A tag that includes a template in the context that it stands in. -/
def inclusionTag (name : String) : String :=
  tagText ("> " ++ name)

/-- The tokens of such a tag at `start`. -/
def inclusionTokens (name : List Char) (start : Nat) : List Token :=
  [⟨.beginExpression, ['{', '{'], ⟨start, start + 2⟩⟩, ⟨.angle, ['>'], ⟨start + 2, start + 3⟩⟩,
    ⟨.path, name, ⟨start + 4, start + 4 + byteLength name⟩⟩,
    ⟨.endExpression, ['}', '}'], ⟨start + 4 + byteLength name, start + 6 + byteLength name⟩⟩]

def inclusionNode (name : List Char) (start : Nat) : Node :=
  .inclusion (.fixed (String.ofList name)) none ⟨start, start + 6 + byteLength name⟩

theorem toList_inclusionTag (name : String) :
    (inclusionTag name).toList = Lexeme.braces false ++ ('>' :: ' ' :: (name.toList ++ ['}', '}'])) := by
  simp [inclusionTag, toList_tagText]

/-! ## Tokens -/

section
variable {before inner after : List Char} {name : String} {x y : List Token}

theorem Token.ofSource_inclusion
    (h : Token.ofSource (before ++ ((inclusionTag name).toList ++ after)) =
      x ++ (inclusionTokens name.toList (byteLength before) ++ y)) :
    y = (Token.ofSource after).map (Token.shift (byteLength (before ++ (inclusionTag name).toList))) := by
  have htag : before ++ (inclusionTag name).toList =
      (before ++ (Lexeme.braces false ++ ('>' :: ' ' :: name.toList))) ++ ['}', '}'] := by
    simp [toList_inclusionTag]
  have hlen : byteLength (before ++ (Lexeme.braces false ++ ('>' :: ' ' :: name.toList))) =
      byteLength before + 4 + byteLength name.toList := by
    have hmark : byteLength (Lexeme.braces false ++ ['>', ' ']) = 4 := rfl
    rw [← hmark, Nat.add_assoc, ← byteLength_append, ← byteLength_append]
    simp
  rw [← List.append_assoc, htag, List.append_assoc] at h
  have hlast : Token.ofSource (before ++ (Lexeme.braces false ++ ('>' :: ' ' :: name.toList)) ++ (['}', '}'] ++ after)) =
      (x ++ (inclusionTokens name.toList (byteLength before)).take 3) ++
        ⟨.endExpression, ['}', '}'], ⟨byteLength before + 4 + byteLength name.toList,
          byteLength before + 6 + byteLength name.toList⟩⟩ :: y := by
    rw [h, List.append_assoc]
    rfl
  rw [htag]
  exact Token.ofSource_resume hlast (.inl rfl) rfl hlen.symm

/-- Where a source is written out in place of a tag, its tokens stand in place of those of the tag. -/
theorem Token.ofSource_inlined
    (h : Token.ofSource (before ++ ((inclusionTag name).toList ++ after)) =
      x ++ (inclusionTokens name.toList (byteLength before) ++ y))
    (hclean : Lexeme.Clean (Lexeme.scan (.text false) (before ++ ((inclusionTag name).toList ++ after))))
    (hinner : Lexeme.Clean (Lexeme.scan (.text false) inner)) (hbegin : BeginsPlainly inner)
    (hend : EndsPlainly inner) :
    Token.ofSource (before ++ (inner ++ after)) =
      x ++ ((Token.ofSource inner).map (Token.shift (byteLength before)) ++
        (Token.ofSource after).map (Token.shift (byteLength (before ++ inner)))) := by
  obtain ⟨rest, hrest, htilde⟩ := exists_braces_append hbegin hend
  rw [toList_inclusionTag, List.append_assoc] at hclean h
  have hcut := Token.ofSource_cut h hclean rfl (htilde after)
  rw [← List.append_assoc (Lexeme.braces false), ← hrest, Token.ofSource_append hend hinner] at hcut
  rw [hcut, List.map_append, List.map_map, Token.shift_comp]

/-! ## Trees -/

theorem spellsPart_inclusion (name : List Char) (start : Nat) :
    SpellsPart (inclusionTokens name start) (some (.node (inclusionNode name start))) := by
  have hregion : Region.combine ⟨start, start + 2⟩ ⟨start + 4 + byteLength name, start + 6 + byteLength name⟩ =
      ⟨start, start + 6 + byteLength name⟩ := by
    simp only [Region.combine, Region.mk.injEq]
    omega
  rw [inclusionNode, ← hregion]
  exact @SpellsPart.tag _ _ [_, _] _ rfl rfl (@SpellsTag.inclusion _ _ _ [_] [] _ _ rfl (.path rfl) .none)

def Anywhere (_ _ : Region) : Prop :=
  True

theorem combines_anywhere : Combines Anywhere :=
  fun _ _ _ _ _ _ => trivial

/-- What may stand in place of an inclusion of the nodes. -/
def Inlined (inclusion : Node) (inner : List Node) (n : Node) (between : List Node) : Prop :=
  n = inclusion ∧ AlikeNodes Anywhere (fun _ _ => False) inner between

theorem forall₂_anywhere (j k : Nat) (tokens : List Token) :
    List.Forall₂ (AlikeToken Anywhere) (tokens.map (Token.shift j)) (tokens.map (Token.shift k)) := by
  rw [List.forall₂_map_left_iff, List.forall₂_map_right_iff]
  exact List.forall₂_same.mpr fun _ _ => .mk trivial

theorem Node.ofSource_inlined {before inner after : List Char} {name : String} {nodes innerNodes : List Node}
    (h : Node.ofSource (before ++ ((inclusionTag name).toList ++ after)) = .ok nodes)
    (hread : inclusionTokens name.toList (byteLength before) <:+:
      Token.ofSource (before ++ ((inclusionTag name).toList ++ after)))
    (hinner : Node.ofSource inner = .ok innerNodes) (hbegin : BeginsPlainly inner) (hend : EndsPlainly inner) :
    ∃ nodes', Node.ofSource (before ++ (inner ++ after)) = .ok nodes' ∧
      AlikeNodes Anywhere (Inlined (inclusionNode name.toList (byteLength before)) innerNodes) nodes nodes' := by
  obtain ⟨tags, htags, hnodes⟩ := Node.ofSource_eq_iff.mp h
  obtain ⟨innerTags, hinnerTags, hinnerNodes⟩ := Node.ofSource_eq_iff.mp hinner
  obtain ⟨x, y, hxy⟩ := hread
  rw [List.append_assoc] at hxy
  have htokens := Token.ofSource_inlined hxy.symm htags.clean hinnerTags.clean hbegin hend
  obtain rfl := Token.ofSource_inclusion hxy.symm
  -- the tags before the inclusion, the inclusion, and the tags behind it
  rw [← hxy] at htags
  obtain ⟨first, others, rfl, hfirst, hothers⟩ := htags.split rfl
  obtain ⟨last, rfl, hlast⟩ := (spellsPart_inclusion name.toList (byteLength before)).tags_append hothers
  have hsame : List.Forall₂ (AlikeToken Anywhere) x x := List.forall₂_same.mpr fun _ _ => .mk trivial
  have hshift : List.Forall₂ (AlikeToken Anywhere) (Token.ofSource inner)
      ((Token.ofSource inner).map (Token.shift (byteLength before))) :=
    List.forall₂_map_right_iff.mpr (List.forall₂_same.mpr fun _ _ => .mk trivial)
  obtain ⟨first', hfirst', ha⟩ := hfirst.alike _ combines_anywhere hsame
  obtain ⟨between, hbetween, hb⟩ := hinnerTags.alike (fun _ _ => False) combines_anywhere hshift
  obtain ⟨last', hlast', hc⟩ := hlast.alike _ combines_anywhere (forall₂_anywhere _ _ _)
  obtain ⟨betweenNodes, hscope, hn⟩ := hinnerNodes.alike hb
  have hspliced : AlikeTag Anywhere (Inlined (inclusionNode name.toList (byteLength before)) innerNodes)
      (.node (inclusionNode name.toList (byteLength before))) between :=
    .splice ⟨rfl, hn⟩ hscope
  obtain ⟨nodes', hs, halike⟩ := hnodes.alike (ha.append (.cons hspliced hc))
  refine ⟨nodes', Node.ofSource_eq_iff.mpr ⟨_, ?_, hs⟩, halike⟩
  rw [htokens]
  exact hfirst'.append (hbetween.append hlast')

end

/-! ## Rendering -/

namespace Run

theorem Refines.of_within {α : Type} {r r' : Run α} (h : Refines α r r') (name : String) :
    Refines α (r.within name) r' := by
  intro a ha
  obtain ⟨ho, htext⟩ := h a ha
  exact ⟨ho, by rw [htext, textOf_within]⟩

theorem Refines.of_mapError {α : Type} {r r' : Run α} (h : Refines α r r') (f : Diagnostic → Diagnostic) :
    Refines α (r.mapError f) r' :=
  fun a ha => h a (mapError_ok.mp ha)

theorem Refines.of_note {α : Type} {r r' : Run α} (h : Refines α r r') (severity : Severity) (message : String) :
    Refines α (note severity message >>= fun _ => r) r' := by
  intro a ha
  obtain ⟨ho, htext⟩ := h a ha
  refine ⟨ho, htext.trans ?_⟩
  rw [show (note severity message >>= fun _ => r).events = [.log .shared severity message] ++ r.events from rfl,
    textOf_append]
  rfl

end Run

theorem Engine.relScene_refines {engine : Engine} (he : engine.helpers = Builtin.all) {t t' : Template}
    {depth depth' : Nat} {splice : Node → List Node → Prop}
    (henter : ∀ name template frame, Run.Refines Unit ((engine.scene depth t).enter name template frame)
      ((engine.scene depth' t').enter name template frame))
    (hsplice : ∀ {n : Node} {inner : List Node}, splice n inner → ∀ frame,
      Run.Refines Unit ((engine.scene depth t).renderNode n frame) ((engine.scene depth' t').renderNodes inner frame)) :
    RelScene Run.Refines Anywhere splice (engine.scene depth t) (engine.scene depth' t') where
  engine := rfl
  helpers := he
  missing _ := .of_error rfl
  enter := henter
  splice := hsplice

/-- Rendering that succeeds does so where inclusions may be nested deeper, too. -/
theorem Engine.renderNodes_deeper {engine : Engine} (he : engine.helpers = Builtin.all) (depth : Nat) :
    ∀ {t t' : Template} {nodes nodes' : List Node}, AlikeNodes Anywhere (fun _ _ => False) nodes nodes' → ∀ frame,
      Run.Refines Unit ((engine.scene depth t).renderNodes nodes frame)
        ((engine.scene (depth + 1) t').renderNodes nodes' frame) := by
  induction depth with
  | zero =>
    intro t t' nodes nodes' h frame
    exact h.render Run.Refines.comparison (Engine.relScene_refines he (fun _ _ _ => .of_error rfl) False.elim) frame
  | succ depth ih =>
    intro t t' nodes nodes' h frame
    refine h.render Run.Refines.comparison (Engine.relScene_refines he (fun name template frame => ?_) False.elim) frame
    have hnodes : Run.Refines Unit ((engine.scene depth template).renderNodes template.nodes frame)
        ((engine.scene (depth + 1) template).renderNodes template.nodes frame) :=
      ih (.refl (fun _ => trivial) template.nodes) frame
    refine Run.Refines.comparison.within name (Run.Refines.comparison.mapError (fun _ => rfl) (fun _ => rfl) ?_)
    rw [Engine.renderTemplate_eq, Engine.renderTemplate_eq]
    exact Run.Refines.comparison.mapError (Diagnostic.cause_inside _) (Diagnostic.cause_inside _) hnodes

theorem Engine.enter_refines {engine : Engine} (he : engine.helpers = Builtin.all) {t t' inner : Template}
    {between : List Node} (h : AlikeNodes Anywhere (fun _ _ => False) inner.nodes between) (name : String)
    (depth : Nat) (frame : Frame) :
    Run.Refines Unit ((engine.scene depth t).enter name inner frame)
      ((engine.scene depth t').renderNodes between frame) := by
  cases depth with
  | zero => exact .of_error rfl
  | succ depth =>
    have hnodes : Run.Refines Unit ((engine.scene depth inner).renderNodes inner.nodes frame)
        ((engine.scene (depth + 1) t').renderNodes between frame) :=
      Engine.renderNodes_deeper he depth h frame
    have hinner : Run.Refines Unit (engine.renderTemplate depth inner frame)
        ((engine.scene (depth + 1) t').renderNodes between frame) := by
      rw [Engine.renderTemplate_eq]
      exact hnodes.of_mapError _
    exact (hinner.of_mapError _).of_within name

theorem Engine.renderNode_inclusion {engine : Engine} (he : engine.helpers = Builtin.all) {t t' inner : Template}
    {name : String} (hname : engine.template? name = some inner) {between : List Node}
    (h : AlikeNodes Anywhere (fun _ _ => False) inner.nodes between) (start depth : Nat) (frame : Frame) :
    Run.Refines Unit ((engine.scene depth t).renderNode (inclusionNode name.toList start) frame)
      ((engine.scene depth t').renderNodes between frame) := by
  have hincluded : (engine.scene depth t).engine.included? (String.ofList name.toList) = some inner := by
    rw [String.ofList_toList]
    show engine.included? name = _
    rw [Engine.included?, hname]
    rfl
  rw [inclusionNode, Scene.renderNode]
  refine Run.Refines.of_mapError ?_ _
  rw [Scene.renderInclusion_eq, Scene.partialName, pure_bind, hincluded]
  exact (Engine.enter_refines he h _ depth frame).of_note _ _

/-- A source that begins and ends with a tag or a comment is written out in place
of a tag that includes it. What the template of both parts renders to, that of
the written-out source does. -/
theorem Engine.render_inlined {n nᵢ : Option String} {before inner after name : String} {t tᵢ : Template}
    (h : Template.compile n (before ++ inclusionTag name ++ after) = .ok t)
    (hread : inclusionTokens name.toList (byteLength before.toList) <:+:
      Token.ofSource (before ++ inclusionTag name ++ after).toList)
    (hinner : Template.compile nᵢ inner = .ok tᵢ) (hbegin : BeginsPlainly inner.toList)
    (hend : EndsPlainly inner.toList) (n' : Option String) :
    ∃ t', Template.compile n' (before ++ inner ++ after) = .ok t' ∧
      ∀ engine : Engine, engine.helpers = Builtin.all → engine.template? name = some tᵢ → ∀ value text,
        (engine.render t value).outcome = .ok text → (engine.render t' value).outcome = .ok text := by
  obtain ⟨-, -, hnodes⟩ := Template.compile_ok_iff.mp h
  obtain ⟨-, -, hinnerNodes⟩ := Template.compile_ok_iff.mp hinner
  simp only [String.toList_append, List.append_assoc] at hnodes hread
  obtain ⟨nodes', hnodes', halike⟩ := Node.ofSource_inlined hnodes hread hinnerNodes hbegin hend
  refine ⟨⟨n', before ++ inner ++ after, nodes'⟩, Template.compile_ok_iff.mpr ⟨rfl, rfl, ?_⟩, ?_⟩
  · simpa only [String.toList_append, List.append_assoc] using hnodes'
  · intro engine he hname value text ho
    have hscene : RelScene Run.Refines Anywhere (Inlined (inclusionNode name.toList (byteLength before.toList)) tᵢ.nodes)
        (engine.scene engine.config.recursionLimit t)
        (engine.scene engine.config.recursionLimit ⟨n', before ++ inner ++ after, nodes'⟩) := by
      refine Engine.relScene_refines he (fun _ _ _ => Run.Refines.comparison.refl _) ?_
      rintro _ between ⟨rfl, hbetween⟩ frame
      exact Engine.renderNode_inclusion he hname hbetween _ _ frame
    have hrender := halike.render Run.Refines.comparison hscene (.root value)
    have hcapture : Run.Refines String (engine.render t value)
        (engine.render ⟨n', before ++ inner ++ after, nodes'⟩ value) := by
      refine Run.Refines.comparison.capture ?_
      rw [Engine.renderTemplate_eq, Engine.renderTemplate_eq]
      exact Run.Refines.comparison.mapError (Diagnostic.cause_inside _) (Diagnostic.cause_inside _) hrender
    exact (hcapture text ho).1

def Engine.including (name : String) (template : Template) : Engine :=
  { new {} with templates := [(name, template)] }

theorem Engine.render_inlined_block :
    ∃ t tᵢ t', Template.compile none (tagText "#a" ++ inclusionTag "p" ++ ("y" ++ tagText "/a")) = .ok t ∧
      Template.compile none (tagText "b") = .ok tᵢ ∧
      Template.compile none (tagText "#a" ++ tagText "b" ++ ("y" ++ tagText "/a")) = .ok t' ∧
      ((including "p" tᵢ).render t (.record [("a", .bool true), ("b", .string "x")])).outcome = .ok "xy" ∧
      ((including "p" tᵢ).render t' (.record [("a", .bool true), ("b", .string "x")])).outcome = .ok "xy" := by
  have hok : (Template.compile none (tagText "#a" ++ inclusionTag "p" ++ ("y" ++ tagText "/a"))).isOk := by
    decide +kernel
  have hokᵢ : (Template.compile none (tagText "b")).isOk := by decide +kernel
  have hread : inclusionTokens "p".toList (byteLength (tagText "#a").toList) <:+:
      Token.ofSource (tagText "#a" ++ inclusionTag "p" ++ ("y" ++ tagText "/a")).toList := by decide +kernel
  have hbegin : BeginsPlainly (tagText "b").toList := by decide +kernel
  have hend : EndsPlainly (tagText "b").toList := by decide +kernel
  have hrender : (do
      let t ← (Template.compile none (tagText "#a" ++ inclusionTag "p" ++ ("y" ++ tagText "/a"))).toOption
      let tᵢ ← (Template.compile none (tagText "b")).toOption
      ((including "p" tᵢ).render t (.record [("a", .bool true), ("b", .string "x")])).outcome.toOption) =
      some "xy" := by decide +kernel
  obtain ⟨t, ht⟩ := Template.exists_of_isOk hok
  obtain ⟨tᵢ, hi⟩ := Template.exists_of_isOk hokᵢ
  obtain ⟨t', ht', hsame⟩ := Engine.render_inlined ht hread hi hbegin hend none
  have ho : ((including "p" tᵢ).render t (.record [("a", .bool true), ("b", .string "x")])).outcome = .ok "xy" := by
    rw [ht, hi] at hrender
    cases ho : ((including "p" tᵢ).render t (.record [("a", .bool true), ("b", .string "x")])).outcome with
    | error d => simp [Except.toOption, ho] at hrender
    | ok text => simpa [Except.toOption, ho] using hrender
  exact ⟨t, tᵢ, t', ht, hi, ht', ho, hsame _ rfl rfl _ _ ho⟩

end Curly
