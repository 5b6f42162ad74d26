import Curly.Proofs.Around
import Curly.Proofs.Enumeration
import Curly.Proofs.Verbatim
import Curly.Proofs.Written.Call

/-!
# Iterations

The built-in iteration renders its body once for each entry, in order, in a frame of
the entry that is put inside the one that the block stands in. So a separator that is
left out where `@last` holds stands between the entries and nowhere else
(`Engine.render_each`).
-/

namespace Curly

/-! ## Frames of entries -/

/-- The frame of an entry, the one at `index` of as many as `size`, inside the frame `outer`. -/
structure Frame.IsEntry (outer : Frame) (size index : Nat) (e : Value × Value) (f : Frame) : Prop where
  value : f.value = e.2
  parent : f.ancestor? 1 = some outer
  key : f.datum? "key" = some e.1
  place : f.datum? "index" = some (.ofNat index)
  first : f.datum? "first" = some (.bool (index = 0))
  last : f.datum? "last" = some (.bool (index + 1 = size))

theorem Frame.isEntry_item (outer : Frame) (size index : Nat) (e : Value × Value) :
    outer.IsEntry size index e (outer.item e.2 (.of e.1 index size)) :=
  ⟨rfl, rfl, rfl, rfl, rfl, rfl⟩

theorem Frame.isEntry_items (outer : Frame) (size : Nat) (entries : List (Value × Value)) :
    (outer.items size 0 entries).length = entries.length ∧
      ∀ i e f, entries[i]? = some e → (outer.items size 0 entries)[i]? = some f → outer.IsEntry size i e f := by
  rw [items_eq_mapIdx]
  refine ⟨List.length_mapIdx, ?_⟩
  intro i e f he hf
  rw [List.getElem?_mapIdx, he, Option.map_some, Nat.zero_add] at hf
  obtain rfl := Option.some.inj hf
  exact isEntry_item outer size i e

theorem Frame.valueOf_metadata {frame : Frame} {p : Path} {name : String} {v : Value}
    (hp : p.origin = .metadata 0 name) (hsegments : p.segments = []) (hv : frame.datum? name = some v) :
    frame.valueOf p = v := by
  have hresolve : frame.resolve p = .ok v := by
    rw [resolve, hp, hsegments, start, ancestor?]
    dsimp only
    rw [hv]
    rfl
  rw [valueOf, hresolve]

/-! ## Branches of an iteration -/

namespace Scene

variable {scene : Scene} {frame : Frame} {head : Path} {o : Operands} {v : Value} {named : List (String × Value)}
  (heach : head.helperName.bind scene.engine.blockHelper? = some Builtin.eachHelper)
  (ho : (scene.evaluateOperands frame o).outcome = .ok ⟨[v], named⟩) (r region : Region) (body : List Node)
  (inverse : Option (List Node))
include heach ho

theorem renderNode_each_body {entries : List (Value × Value)} (hv : v.entries? = some entries) (hne : entries ≠ []) :
    scene.renderNode (.block ⟨head, o, r⟩ false body inverse region) frame = (do
      let _ ← scene.evaluateOperands frame o
      forM (frame.items entries.length 0 entries) (scene.renderNodes body)) := by
  obtain ⟨e, es, rfl⟩ := List.exists_cons_of_ne_nil hne
  have hplan : Plan.ofEntries frame v = ⟨.body, frame.items (e :: es).length 0 (e :: es)⟩ := by
    rw [Plan.ofEntries, hv]
    rfl
  rw [renderNode_single Builtin.eachHelper_follows heach ho, hplan, Work.ofPlan, renderWork_flatMap]

theorem renderNode_each_inverse (hv : v.entries? = none ∨ v.entries? = some []) :
    scene.renderNode (.block ⟨head, o, r⟩ false body inverse region) frame = (do
      let _ ← scene.evaluateOperands frame o
      scene.renderNodes (inverse.getD []) frame) := by
  have hplan : Plan.ofEntries frame v = ⟨.inverse, [frame]⟩ := by
    rw [Plan.ofEntries]
    rcases hv with hv | hv <;> rw [hv]
  rw [renderNode_single Builtin.eachHelper_follows heach ho, hplan, Work.ofPlan, renderWork_flatMap,
    Run.forM_singleton]

end Scene

/-! ## Texts in a row -/

namespace Run

theorem ok_of_capture {r : Run Unit} {text : String} (h : r.capture = pure text) : r.outcome = .ok () := by
  rcases r with ⟨events, d | u⟩
  · cases congrArg Run.outcome h
  · rfl

theorem capture_bind {r s : Run Unit} {a b : String} (hr : r.capture = pure a) (hs : s.capture = pure b) :
    (r >>= fun _ => s).capture = pure (a ++ b) := by
  obtain ⟨events, o⟩ := r
  obtain rfl : o = .ok () := ok_of_capture hr
  obtain ⟨events', o⟩ := s
  obtain rfl : o = .ok () := ok_of_capture hs
  obtain ⟨hsilent, htext⟩ := Run.mk.inj hr
  obtain ⟨hsilent', htext'⟩ := Run.mk.inj hs
  obtain rfl : textOf events = a := Except.ok.inj htext
  obtain rfl : textOf events' = b := Except.ok.inj htext'
  rw [bind_ok, capture, List.filter_append, hsilent, hsilent', textOf_append]
  rfl

end Run

/-! ## A separator between entries -/

/-- What stands in front of the separator. -/
def joinedOpening : String :=
  tagText "#each xs" ++ tagText "this" ++ tagText "#unless @last"

def joinedClosing : String :=
  tagText "/unless" ++ tagText "/each"

namespace Call

def iteration : Call Path :=
  ⟨⟨.context 0, ["each"], "each".toList, ⟨3, 7⟩⟩, ⟨[.path ⟨.context 0, ["xs"], "xs".toList, ⟨8, 10⟩⟩], []⟩, ⟨3, 10⟩⟩

def element : Call Expression :=
  ⟨.path ⟨.context 0, [], "this".toList, ⟨14, 18⟩⟩, ⟨[], []⟩, ⟨14, 18⟩⟩

def unlessLast : Call Path :=
  ⟨⟨.context 0, ["unless"], "unless".toList, ⟨23, 29⟩⟩, ⟨[.path ⟨.metadata 0 "last", [], "@last".toList, ⟨30, 35⟩⟩], []⟩,
    ⟨23, 35⟩⟩

end Call

/-- What is rendered for each entry, with the texts that the separator is. -/
def Node.joinedBody (texts : List (List Char × Region)) : List Node :=
  [.output .element true ⟨12, 20⟩, .block .unlessLast false (raws texts) none ⟨20, 37⟩]

section
variable {scene : Scene} (hunless : scene.engine.blockHelper? "unless" = some Builtin.unlessHelper)
  {texts : List (List Char × Region)} {s : String} (hs : texts.flatMap (·.1) = s.toList) {outer : Frame} {size : Nat}
include hunless hs

theorem Scene.capture_separator {f : Frame} {index : Nat} {e : Value × Value} (h : outer.IsEntry size index e f) :
    (scene.renderNode (.block .unlessLast false (Node.raws texts) none ⟨20, 37⟩) f).capture =
      pure (if index + 1 = size then "" else s) := by
  have hhelper : Call.unlessLast.head.helperName.bind scene.engine.blockHelper? = some Builtin.unlessHelper := hunless
  have hlast : scene.evaluateOperands f Call.unlessLast.operands = pure ⟨[.bool (index + 1 = size)], []⟩ := by
    rw [Call.unlessLast, evaluateOperands_single, evaluate, Frame.valueOf_metadata rfl rfl h.last]
    rfl
  rw [renderNode_single Builtin.unlessHelper_follows hhelper (congrArg Run.outcome hlast), hlast, pure_bind]
  by_cases hend : index + 1 = size
  · rw [if_pos hend, decide_eq_true hend]
    rfl
  · have hplan : Plan.ofCondition f (!(Value.bool false).isTruthy) = ⟨.body, [f]⟩ := rfl
    rw [if_neg hend, decide_eq_false hend, hplan, Work.ofPlan, renderWork_flatMap, Run.forM_singleton, renderNodes_raws,
      Run.capture_writes, hs, String.ofList_toList]

theorem Scene.capture_joinedBody {f : Frame} {index : Nat} {e : Value × Value} (h : outer.IsEntry size index e f) :
    (scene.renderNodes (Node.joinedBody texts) f).capture =
      pure (Text.escaped e.2.text ++ if index + 1 = size then "" else s) := by
  have hhere : scene.renderOutput f .element true = writeValue e.2 true := by
    have hsame : SamePath .here ⟨.context 0, [], "this".toList, ⟨14, 18⟩⟩ := ⟨rfl, rfl, rfl⟩
    rw [Call.element, renderOutput_here f hsame, h.value]
  have hescaped : (writeValue e.2 true).capture = pure (Text.escaped e.2.text) := capture_writeValue e.2 true
  rw [Node.joinedBody, renderNodes, renderNodes_singleton, renderNode, hhere, pointing_eq (.of_ok rfl)]
  exact Run.capture_bind hescaped (capture_separator hunless hs h)

/-- Of the entries from `index` on, the last is the one that the separator is left out behind. -/
theorem Scene.capture_items {index : Nat} {entries : List (Value × Value)} (hsize : index + entries.length = size) :
    (forM (outer.items size index entries) (scene.renderNodes (Node.joinedBody texts))).capture =
      pure (s.intercalate (entries.map fun e => Text.escaped e.2.text)) := by
  induction entries generalizing index with
  | nil => rfl
  | cons e entries ih =>
    have hfirst := capture_joinedBody hunless hs (outer.isEntry_item size index e)
    have hrest := @ih (index + 1) (by rw [← hsize, List.length_cons, Nat.add_assoc, Nat.add_comm 1])
    rw [Frame.items, List.forM_cons, Run.capture_bind hfirst hrest]
    cases entries with
    | nil =>
      have hend : index + 1 = size := hsize
      rw [if_pos hend]
      simp
    | cons e' entries =>
      have hmore : index + 1 ≠ size := by
        rw [← hsize, List.length_cons, List.length_cons]
        omega
      rw [if_neg hmore]
      simp [String.append_assoc]

end

/-! ### As tags -/

theorem spellsTags_joinedOpening : SpellsTags (Token.ofSource joinedOpening.toList)
    [.opening ⟨.iteration, false, ⟨0, 12⟩⟩, .node (.output .element true ⟨12, 20⟩),
      .opening ⟨.unlessLast, false, ⟨20, 37⟩⟩] := by
  have htokens : Token.ofSource joinedOpening.toList =
      [⟨.beginExpression, ['{', '{'], ⟨0, 2⟩⟩, ⟨.hash, ['#'], ⟨2, 3⟩⟩, ⟨.path, "each".toList, ⟨3, 7⟩⟩,
        ⟨.path, "xs".toList, ⟨8, 10⟩⟩, ⟨.endExpression, ['}', '}'], ⟨10, 12⟩⟩,
        ⟨.beginExpression, ['{', '{'], ⟨12, 14⟩⟩, ⟨.path, "this".toList, ⟨14, 18⟩⟩, ⟨.endExpression, ['}', '}'], ⟨18, 20⟩⟩,
        ⟨.beginExpression, ['{', '{'], ⟨20, 22⟩⟩, ⟨.hash, ['#'], ⟨22, 23⟩⟩, ⟨.path, "unless".toList, ⟨23, 29⟩⟩,
        ⟨.path, "@last".toList, ⟨30, 35⟩⟩, ⟨.endExpression, ['}', '}'], ⟨35, 37⟩⟩] := by decide +kernel
  have hiteration : SpellsHead [⟨.path, "each".toList, ⟨3, 7⟩⟩, ⟨.path, "xs".toList, ⟨8, 10⟩⟩] .iteration :=
    .mk (.of_token rfl rfl) (.positional (.of_token rfl rfl) .nil)
  have helement : SpellsCall [⟨.path, "this".toList, ⟨14, 18⟩⟩] .element := .mk (.of_token rfl rfl) .nil
  have hunless : SpellsHead [⟨.path, "unless".toList, ⟨23, 29⟩⟩, ⟨.path, "@last".toList, ⟨30, 35⟩⟩] .unlessLast :=
    .mk (.of_token rfl rfl) (.positional (.of_token rfl rfl) .nil)
  rw [htokens]
  exact .cons (.tag rfl rfl (.opening rfl hiteration)) (.cons (.tag rfl rfl (.output helement))
    (.cons (.tag rfl rfl (.opening rfl hunless)) .nil))

/-- The closing tags, moved to where they stand. -/
theorem spellsTags_joinedClosing (k : Nat) : ∃ r r' region region',
    SpellsTags ((Token.ofSource joinedClosing.toList).map (Token.shift k))
      [.closing (some ("unless".toList, r)) region, .closing (some ("each".toList, r')) region'] := by
  have htokens : Token.ofSource joinedClosing.toList =
      [⟨.beginExpression, ['{', '{'], ⟨0, 2⟩⟩, ⟨.slash, ['/'], ⟨2, 3⟩⟩, ⟨.path, "unless".toList, ⟨3, 9⟩⟩,
        ⟨.endExpression, ['}', '}'], ⟨9, 11⟩⟩, ⟨.beginExpression, ['{', '{'], ⟨11, 13⟩⟩, ⟨.slash, ['/'], ⟨13, 14⟩⟩,
        ⟨.path, "each".toList, ⟨14, 18⟩⟩, ⟨.endExpression, ['}', '}'], ⟨18, 20⟩⟩] := by decide +kernel
  rw [htokens]
  exact ⟨_, _, _, _, .cons (@SpellsPart.tag _ _ [_, _] _ rfl rfl (.closingName rfl rfl))
    (.cons (@SpellsPart.tag _ _ [_, _] _ rfl rfl (.closingName rfl rfl)) .nil)⟩

theorem exists_spellsTags_joined {s : String} (hbrace : '{' ∉ s.toList) (hbackslash : '\\' ∉ s.toList) :
    ∃ texts r r' region region', texts.flatMap (·.1) = s.toList ∧
      SpellsTags (Token.ofSource (joinedOpening ++ s ++ joinedClosing).toList)
        ([.opening ⟨.iteration, false, ⟨0, 12⟩⟩, .node (.output .element true ⟨12, 20⟩),
            .opening ⟨.unlessLast, false, ⟨20, 37⟩⟩] ++ ((Node.raws texts).map .node ++
          [.closing (some ("unless".toList, r)) region, .closing (some ("each".toList, r')) region'])) := by
  have hunmarked : ¬ ['{', '{'] <:+: s.toList := fun h => hbrace (h.subset (by simp))
  have hends : EndsPlainly joinedOpening.toList := by decide +kernel
  have hlast : s.toList.getLast? ≠ some '{' := fun h => hbrace (List.mem_of_getLast? h)
  let rest := ("/unless".toList ++ ['}', '}']) ++ (tagText "/each").toList
  have hrest : rest.head? ≠ some '~' := by simp [rest]
  have hclosing : joinedClosing.toList = Lexeme.braces false ++ rest := by
    rw [joinedClosing, String.toList_append, toList_tagText, List.append_assoc]
  have htokens : Token.ofSource s.toList = Lexeme.tokens 0 (Lexeme.keep (.token .raw s.toList)) := by
    rw [Token.ofSource, Lexeme.scan_unmarked hunmarked]
  have hseparator := Lexeme.Verbatim.keep s.toList
  obtain ⟨_, htexts, -⟩ := hseparator.exists_raws 0
  obtain ⟨texts, htexts', hshown⟩ := hseparator.exists_raws (0 + byteLength joinedOpening.toList)
  obtain ⟨r, r', region, region', hclosings⟩ := spellsTags_joinedClosing (byteLength (joinedOpening.toList ++ s.toList))
  refine ⟨texts, r, r', region, region', hshown, ?_⟩
  rw [← htokens] at htexts
  rw [Lexeme.tokens_shift, ← htokens] at htexts'
  rw [hclosing] at hclosings
  rw [String.toList_append, String.toList_append, hclosing, List.append_assoc,
    Token.ofSource_around spellsTags_joinedOpening hends htexts hbackslash hlast hrest]
  exact spellsTags_joinedOpening.append (htexts'.append hclosings)

theorem Template.compile_joined {s : String} (hbrace : '{' ∉ s.toList) (hbackslash : '\\' ∉ s.toList)
    (name : Option String) : ∃ texts t, texts.flatMap (·.1) = s.toList ∧
      compile name (joinedOpening ++ s ++ joinedClosing) = .ok t ∧
      t.nodes = [.block .iteration false (Node.joinedBody texts) none ⟨0, 12⟩] := by
  obtain ⟨texts, r, r', region, region', hshown, htags⟩ := exists_spellsTags_joined hbrace hbackslash
  refine ⟨texts, _, hshown, compile_of_tags htags ?_ name, rfl⟩
  have hunless : ∀ n ∈ some ("unless".toList, r), n.1 = Opening.name ⟨.unlessLast, false, ⟨20, 37⟩⟩ := by
    rintro n ⟨⟩
    rfl
  have heach : ∀ n ∈ some ("each".toList, r'), n.1 = Opening.name ⟨.iteration, false, ⟨0, 12⟩⟩ := by
    rintro n ⟨⟩
    rfl
  have hbody : SpellsScope Opening.name (.node (.output .element true ⟨12, 20⟩) ::
      .opening ⟨.unlessLast, false, ⟨20, 37⟩⟩ ::
        ((Node.raws texts).map .node ++ ([] ++ [.closing (some ("unless".toList, r)) region])))
      (Node.joinedBody texts) := .node (.block (.nodes _ _) .none hunless .nil)
  have hiteration : SpellsScope Opening.name (.opening _ :: (_ ++ ([] ++ [.closing _ region']))) _ :=
    .block hbody .none heach .nil
  simpa using hiteration

/-! ## Whole iterations -/

theorem Value.map_numbered {α : Type} (f : Value → α) (index : Nat) (items : List Value) :
    ((numbered index items).map fun e => f e.2) = items.map f := by
  induction items generalizing index with
  | nil => rfl
  | cons v items ih => rw [numbered, List.map_cons, ih, List.map_cons]

theorem Engine.render_joined {engine : Engine} (heach : engine.blockHelper? "each" = some Builtin.eachHelper)
    (hunless : engine.blockHelper? "unless" = some Builtin.unlessHelper) {texts : List (List Char × Region)} {s : String}
    (hs : texts.flatMap (·.1) = s.toList) {t : Template}
    (ht : t.nodes = [.block .iteration false (Node.joinedBody texts) none ⟨0, 12⟩]) {v x : Value}
    (hx : v.segment? "xs" = some x) {entries : List (Value × Value)} (hentries : x.entries? = some entries) :
    engine.render t v = pure (s.intercalate (entries.map fun e => Text.escaped e.2.text)) := by
  let scene := engine.scene engine.config.recursionLimit t
  have hhelper : Call.iteration.head.helperName.bind scene.engine.blockHelper? = some Builtin.eachHelper := heach
  have hvalue : (Frame.root v).valueOf ⟨.context 0, ["xs"], "xs".toList, ⟨8, 10⟩⟩ = x := by
    rw [Frame.valueOf, Frame.resolve, Frame.start, Frame.ancestor?]
    dsimp only [Frame.value]
    rw [Frame.descend, hx]
    rfl
  have ho : scene.evaluateOperands (.root v) Call.iteration.operands = pure ⟨[x], []⟩ := by
    rw [Call.iteration, Scene.evaluateOperands_single, Scene.evaluate, hvalue]
    rfl
  have hcapture : (scene.renderNodes t.nodes (.root v)).capture =
      pure (s.intercalate (entries.map fun e => Text.escaped e.2.text)) := by
    rw [ht, Scene.renderNodes_singleton]
    by_cases hne : entries = []
    · subst hne
      rw [Scene.renderNode_each_inverse hhelper (congrArg Run.outcome ho) _ _ _ _ (.inr hentries), ho, pure_bind]
      rfl
    · rw [Scene.renderNode_each_body hhelper (congrArg Run.outcome ho) _ _ _ _ hentries hne, ho, pure_bind]
      exact Scene.capture_items hunless hs (Nat.zero_add _)
  rw [Engine.render, Engine.renderTemplate_eq, Run.mapError_of_ok (Run.ok_of_capture hcapture), hcapture]

/-- The built-in iteration renders its body as often as there are entries, in their order, each time in
the frame of the entry inside the frame that the block stands in, and its inverse there if there are no
entries or if the value has none. So a literal separator that is left out in the last of these frames
joins the escaped texts of the entries. -/
theorem Engine.render_each (name : Option String) :
    (∀ (scene : Scene) (frame : Frame) (each : Path) (o : Operands) (v : Value) (named : List (String × Value)),
      each.helperName.bind scene.engine.blockHelper? = some Builtin.eachHelper →
      (scene.evaluateOperands frame o).outcome = .ok ⟨[v], named⟩ →
      (∀ entries, v.entries? = some entries → entries ≠ [] → ∃ frames : List Frame, frames.length = entries.length ∧
        (∀ i e f, entries[i]? = some e → frames[i]? = some f → frame.IsEntry entries.length i e f) ∧
        ∀ r region body inverse, scene.renderNode (.block ⟨each, o, r⟩ false body inverse region) frame = (do
          let _ ← scene.evaluateOperands frame o
          forM frames (scene.renderNodes body))) ∧
      (v.entries? = none ∨ v.entries? = some [] →
        ∀ r region body inverse, scene.renderNode (.block ⟨each, o, r⟩ false body inverse region) frame = (do
          let _ ← scene.evaluateOperands frame o
          scene.renderNodes (inverse.getD []) frame))) ∧
    ∀ s : String, '{' ∉ s.toList → '\\' ∉ s.toList → ∃ t,
      Template.compile name (tagText "#each xs" ++ tagText "this" ++ tagText "#unless @last" ++ s ++
        tagText "/unless" ++ tagText "/each") = .ok t ∧
      ∀ engine : Engine, engine.blockHelper? "each" = some Builtin.eachHelper →
        engine.blockHelper? "unless" = some Builtin.unlessHelper → ∀ v : Value,
          (∀ x entries, v.segment? "xs" = some x → x.entries? = some entries →
            engine.render t v = pure (s.intercalate (entries.map fun e => Text.escaped e.2.text))) ∧
          ∀ items, v.segment? "xs" = some (.array items) →
            engine.render t v = pure (s.intercalate (items.map fun x => Text.escaped x.text)) := by
  constructor
  · intro scene frame each o v named heach ho
    constructor
    · intro entries hentries hne
      obtain ⟨hlength, hframes⟩ := frame.isEntry_items entries.length entries
      refine ⟨_, hlength, hframes, ?_⟩
      intro r region body inverse
      exact Scene.renderNode_each_body heach ho r region body inverse hentries hne
    · intro hv r region body inverse
      exact Scene.renderNode_each_inverse heach ho r region body inverse hv
  · intro s hbrace hbackslash
    obtain ⟨texts, t, hs, ht, hnodes⟩ := Template.compile_joined hbrace hbackslash name
    have hsource : joinedOpening ++ s ++ joinedClosing = tagText "#each xs" ++ tagText "this" ++
        tagText "#unless @last" ++ s ++ tagText "/unless" ++ tagText "/each" := by
      simp only [joinedOpening, joinedClosing, String.append_assoc]
    rw [hsource] at ht
    refine ⟨t, ht, ?_⟩
    intro engine heach hunless v
    constructor
    · intro x entries hx hentries
      exact render_joined heach hunless hs hnodes hx hentries
    · intro items hx
      have hjoined := render_joined heach hunless hs hnodes hx rfl
      rwa [Value.map_numbered fun x => Text.escaped x.text] at hjoined

/-- An object that lists a name that it does not answer, and a value without entries. -/
theorem Engine.render_each_names :
    let scene : Scene := ⟨.new {}, ⟨none, "", []⟩, none⟩
    let object : Value := .dynamic 0 [("a", .string "1"), ("b", .string "2")] ["b", "c", "a"]
    let entries : List (Value × Value) := [(.string "b", .string "2"), (.string "a", .string "1")]
    let frame : Frame := .root (.record [("object", object), ("none", .null)])
    let call (name : String) : Call Path := ⟨.plain "each", ⟨[.path (.plain name)], []⟩, default⟩
    let body : List Node := [.output .element true default]
    let inverse : List Node := [.raw "-" default]
    (Path.plain "each").helperName.bind scene.engine.blockHelper? = some Builtin.eachHelper ∧
      scene.evaluateOperands frame (call "object").operands = pure ⟨[object], []⟩ ∧
      scene.evaluateOperands frame (call "none").operands = pure ⟨[.null], []⟩ ∧
      object.entries? = some entries ∧ Value.null.entries? = none ∧
      (∃ frames : List Frame, frames.length = 2 ∧
        (∀ i e f, entries[i]? = some e → frames[i]? = some f → frame.IsEntry 2 i e f) ∧
        scene.renderNode (.block (call "object") false body (some inverse) default) frame =
          forM frames (scene.renderNodes body)) ∧
      scene.renderNode (.block (call "none") false body (some inverse) default) frame = scene.renderNodes inverse frame ∧
      '{' ∉ ", ".toList ∧ '\\' ∉ ", ".toList ∧
      ∃ t, Template.compile none (tagText "#each xs" ++ tagText "this" ++ tagText "#unless @last" ++ ", " ++
          tagText "/unless" ++ tagText "/each") = .ok t ∧
        (Engine.new {}).render t (.record [("xs", .array [.string "a", .string "<b>"])]) = pure "a, &lt;b&gt;" ∧
        (Engine.new {}).render t (.record [("xs", object)]) = pure "2, 1" ∧
        (Engine.new {}).render t (.record [("xs", .array [])]) = pure "" := by
  intro scene object entries frame call body inverse
  have heach : (Path.plain "each").helperName.bind scene.engine.blockHelper? = some Builtin.eachHelper := rfl
  have hobject : scene.evaluateOperands frame (call "object").operands = pure ⟨[object], []⟩ := rfl
  have hnone : scene.evaluateOperands frame (call "none").operands = pure ⟨[.null], []⟩ := rfl
  have hentries : object.entries? = some entries := rfl
  have hbrace : '{' ∉ ", ".toList := by decide
  have hbackslash : '\\' ∉ ", ".toList := by decide
  obtain ⟨hblocks, hlists⟩ := render_each none
  obtain ⟨frames, hlength, hframes, hbody⟩ :=
    (hblocks scene frame _ _ object [] heach (congrArg Run.outcome hobject)).1 entries hentries nofun
  have hinverse := (hblocks scene frame _ _ .null [] heach (congrArg Run.outcome hnone)).2 (.inl rfl)
  obtain ⟨t, ht, hrender⟩ := hlists ", " hbrace hbackslash
  have hrun := hrender (.new {}) rfl rfl
  have hitems := (hrun (.record [("xs", .array [.string "a", .string "<b>"])])).2 _ rfl
  have hnames := (hrun (.record [("xs", object)])).1 object entries rfl hentries
  have hempty := (hrun (.record [("xs", .array [])])).2 [] rfl
  have hitems' : ", ".intercalate ([Value.string "a", .string "<b>"].map fun x => Text.escaped x.text) =
      "a, &lt;b&gt;" := by decide +kernel
  have hnames' : ", ".intercalate (entries.map fun e => Text.escaped e.2.text) = "2, 1" := by decide +kernel
  rw [hitems'] at hitems
  rw [hnames'] at hnames
  have hbody' := hbody default default body (some inverse)
  have hinverse' := hinverse default default body (some inverse)
  rw [hobject, pure_bind] at hbody'
  rw [hnone, pure_bind] at hinverse'
  exact ⟨heach, hobject, hnone, hentries, rfl, ⟨frames, hlength, hframes, hbody'⟩, hinverse', hbrace, hbackslash, t, ht,
    hitems, hnames, hempty⟩

end Curly
