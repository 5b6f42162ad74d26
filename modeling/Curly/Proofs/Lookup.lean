import Curly.Proofs.Escaping
import Curly.Proofs.Parts
import Curly.Proofs.Render.Output
import Curly.Proofs.Written.Output

/-!
# Looking up and escaping

The helper that looks up a part by its key writes it escaped, whatever the braces
around the call are, and gives it escaped to a call that it is an argument of. So it
stands for the path with the key behind it between two braces; between three it
does so only where the text has no special character (`Engine.render_lookup`).
-/

namespace Curly

/-! ## A path with one more segment -/

theorem Frame.descend_append (v : Value) (a b : List String) :
    descend v (a ++ b) = (descend v a >>= fun part => descend part b) := by
  induction a generalizing v with
  | nil => rfl
  | cons segment a ih =>
    rw [List.cons_append, descend, descend]
    cases v.segment? segment with
    | some part => exact ih part
    | none => rfl

namespace Scene

variable {scene : Scene} {frame : Frame} {p q : Path} {segment : String}

/-- What does not resolve writes nothing, and neither does a part that is not found. -/
theorem renderOutput_part (hempty : scene.engine.config.unresolved = .empty) (hq : p.Extends segment q) (region : Region)
    (escaped : Bool) :
    scene.renderOutput frame ⟨.path q, ⟨[], []⟩, region⟩ escaped = (frame.valueOf p).writePart segment escaped := by
  have hmissing : ∀ missing, scene.renderUnresolved q missing = pure () := by
    intro missing
    rw [renderUnresolved, hempty]
  have hresolve : frame.resolve q = (frame.resolve p >>= fun v => Frame.descend v [segment]) := by
    unfold Frame.resolve
    rw [hq.origin, hq.segments]
    cases frame.start p.origin with
    | error missing => rfl
    | ok v => exact Frame.descend_append v p.segments [segment]
  rw [renderOutput_path hq.isSimple, hresolve, Value.writePart, Frame.valueOf]
  cases frame.resolve p with
  | error missing =>
    dsimp only
    rw [Value.segment?_null]
    exact hmissing missing
  | ok v =>
    have hbind : (Except.ok v >>= fun v => Frame.descend v [segment]) = Frame.descend v [segment] := rfl
    rw [hbind, Frame.descend]
    dsimp only
    cases v.segment? segment with
    | some part => rfl
    | none => exact hmissing _

end Scene

/-! ## Templates -/

open Lexeme

/-- A call of the helper with a path and a key, each written out. -/
def Path.lookupText (p : Path) (key : List Char) : List Char :=
  (plain "lookup").written ++ (' ' :: (p.written ++ (' ' :: key)))

theorem writable_lookup : (Path.plain "lookup").Writable :=
  Path.writable_plain (by decide)

theorem writesOperands_pair {p : Path} {key : List Char} {e : Expression} (he : WritesExpression key e) :
    WritesOperands (' ' :: (p.written ++ (' ' :: key))) ⟨[.path p, e], []⟩ := by
  have hkey : WritesOperands (' ' :: (key ++ [])) ⟨[e], []⟩ := .positional he .nil
  rw [List.append_nil] at hkey
  exact .positional (.path p) hkey

theorem Template.compile_part {p : Path} (hp : p.Writable) {k : String} (hk : ']' ∉ k.toList) (escaped : Bool) :
    ∃ t q region region', Template.compile none (outputText escaped (String.ofList (p.part k))) = .ok t ∧
      t.nodes = [.output ⟨.path q, ⟨[], []⟩, region⟩ escaped region'] ∧ p.Extends k q := by
  have hbegins : ∃ c cs, p.part k = c :: cs ∧ beginsWord c = true := by
    obtain ⟨c, cs, htext, hc⟩ := Path.head_written hp
    refine ⟨c, cs ++ Path.behind [k], ?_, hc⟩
    rw [Path.part, htext]
    rfl
  exact Template.compile_path (hp.reads_part hk) hbegins escaped none

theorem SameExpression.eq_literal {value : Literal} {region : Region} {e : Expression}
    (h : SameExpression (.literal value region) e) : ∃ region', e = .literal value region' := by
  cases h
  exact ⟨_, rfl⟩

theorem SameOperands.eq_pair {p : Path} {e : Expression} {o : Operands} (h : SameOperands ⟨[.path p, e], []⟩ o) :
    ∃ q e', o = ⟨[.path q, e'], []⟩ ∧ SamePath p q ∧ SameExpression e e' := by
  cases h with
  | positional hfirst hrest =>
    cases hfirst with
    | path hq =>
      cases hrest with
      | positional hsecond hnil =>
        cases hnil
        exact ⟨_, _, rfl, hq, hsecond⟩

/-- The call compiles to a call of the helper with a path that goes the same way and the same key. -/
theorem Template.compile_lookup {p : Path} (hp : p.Writable) {key : List Char} {e : Expression}
    (hwrites : WritesExpression key e) (he : e.Writable) (escaped : Bool) :
    ∃ t lookup q e' region region',
      Template.compile none (outputText escaped (String.ofList (p.lookupText key))) = .ok t ∧
        t.nodes = [.output ⟨.path lookup, ⟨[.path q, e'], []⟩, region⟩ escaped region'] ∧
        SamePath (.plain "lookup") lookup ∧ SamePath p q ∧ SameExpression e e' := by
  have hoperands : Operands.Writable ⟨[.path p, e], []⟩ :=
    ⟨List.forall_mem_cons.mpr ⟨.path hp, List.forall_mem_singleton.mpr he⟩, nofun, nofun⟩
  have hcall : Call.Writable ⟨.path (.plain "lookup"), ⟨[.path p, e], []⟩, default⟩ :=
    ⟨.path writable_lookup, hoperands⟩
  have htext : WritesCall (p.lookupText key) ⟨.path (.plain "lookup"), ⟨[.path p, e], []⟩, default⟩ :=
    .mk (.path _) (writesOperands_pair hwrites)
  have hbegins : ∃ c cs, p.lookupText key = c :: cs ∧ beginsWord c = true := by
    rw [Path.lookupText, Path.written_plain]
    exact ⟨'l', _, rfl, rfl⟩
  obtain ⟨-, hreads⟩ := htext.reads hcall
  obtain ⟨t, ⟨head, operands, region⟩, region', ht, hnodes, hhead, hsame⟩ :=
    Template.compile_output hreads hbegins escaped none
  obtain ⟨q, e', rfl, hq, he'⟩ := hsame.eq_pair
  dsimp only at hhead
  cases hhead with
  | path hlookup => exact ⟨t, _, q, e', region, region', ht, hnodes, hlookup, hq, he'⟩

/-! ## Renders -/

theorem Value.text_string (s : String) : (Value.string s).text = s := by
  rw [text]
  · rw [innerText]
  · nofun

theorem Scene.evaluate_string (scene : Scene) (frame : Frame) (k : String) (region : Region) :
    scene.evaluate frame (.literal (.string k) region) = pure (.string k) := by
  rw [evaluate, Literal.toValue]

section
variable {engine : Engine} (hhelper : engine.helper? "lookup" = some Builtin.lookupHelper) {depth : Nat} {t : Template}
  {frame : Frame} {p q lookup : Path} {e : Expression} {k : String} (hlookup : SamePath (.plain "lookup") lookup)
  (hq : SamePath p q) (he : (engine.scene depth t).evaluate frame e = pure (.string k))

include hhelper hlookup in
theorem Engine.helper?_lookup : (engine.scene depth t).helper? lookup.helperName = some Builtin.lookupHelper := by
  rw [← hlookup.helperName, Path.helperName, if_pos (Path.isSimple_plain _)]
  exact hhelper

include hq in
theorem Scene.evaluate_same (scene : Scene) (frame : Frame) : scene.evaluate frame (.path q) = pure (frame.valueOf p) := by
  rw [evaluate, Frame.valueOf_congr frame hq]

include hhelper hlookup hq he

theorem Engine.evaluate_called (region : Region) :
    (engine.scene depth t).evaluate frame (.call lookup ⟨[.path q, e], []⟩ region) =
      pure (.string (Text.escaped ((frame.valueOf p).partText k))) := by
  have hcall := Scene.evaluate_lookup (helper?_lookup hhelper hlookup) (Scene.evaluate_same hq _ frame) he region
  rw [Value.text_string] at hcall
  exact hcall

theorem Engine.renderTemplate_called {region region' : Region} {escaped : Bool}
    (ht : t.nodes = [.output ⟨.path lookup, ⟨[.path q, e], []⟩, region⟩ escaped region']) :
    engine.renderTemplate depth t frame = (frame.valueOf p).writePart k true := by
  have houtput := Scene.renderOutput_lookup (helper?_lookup hhelper hlookup) (Scene.evaluate_same hq _ frame) he region
    escaped
  rw [Value.text_string] at houtput
  exact Engine.renderTemplate_output ht houtput (Value.writePart_ok ..)

end

/-! ## What the templates write -/

section
variable {c m : Path} (hc : c.Writable) {k : String} (hk : ']' ∉ k.toList) {literal : List Char}
  (hliteral : WritesLiteral literal (.string k))

include hc hk in
theorem Template.renders_part (escaped : Bool) :
    ∃ t, compile none (outputText escaped (String.ofList (c.part k))) = .ok t ∧
      ∀ engine : Engine, engine.config.unresolved = .empty → ∀ depth frame,
        engine.renderTemplate depth t frame = (frame.valueOf c).writePart k escaped := by
  obtain ⟨t, q, region, region', ht, hnodes, hq⟩ := compile_part hc hk escaped
  refine ⟨t, ht, ?_⟩
  intro engine hempty depth frame
  exact Engine.renderTemplate_output hnodes (Scene.renderOutput_part hempty hq region escaped) (Value.writePart_ok ..)

include hc hliteral

theorem Template.renders_lookup (escaped : Bool) :
    ∃ t, compile none (outputText escaped (String.ofList (c.lookupText literal))) = .ok t ∧
      ∀ engine : Engine, engine.helper? "lookup" = some Builtin.lookupHelper → ∀ depth frame,
        engine.renderTemplate depth t frame = (frame.valueOf c).writePart k true := by
  obtain ⟨t, lookup, q, e, region, region', ht, hnodes, hlookup, hq, he⟩ :=
    compile_lookup hc (@WritesExpression.literal _ _ default hliteral) (.literal trivial) escaped
  obtain ⟨_, rfl⟩ := he.eq_literal
  refine ⟨t, ht, ?_⟩
  intro engine hhelper depth frame
  exact Engine.renderTemplate_called hhelper hlookup hq (Scene.evaluate_string ..) hnodes

theorem Template.renders_lookup_nested (hm : m.Writable) :
    ∃ t, compile none (outputText true (String.ofList (m.lookupText ('(' :: (c.lookupText literal ++ [')']))))) = .ok t ∧
      ∀ engine : Engine, engine.helper? "lookup" = some Builtin.lookupHelper → ∀ depth frame,
        engine.renderTemplate depth t frame =
          (frame.valueOf m).writePart (Text.escaped ((frame.valueOf c).partText k)) true := by
  have hkey : WritesExpression literal (.literal (.string k) default) := .literal hliteral
  have hcall : WritesExpression ('(' :: (c.lookupText literal ++ [')']))
      (.call (.plain "lookup") ⟨[.path c, .literal (.string k) default], []⟩ default) := by
    rw [Path.lookupText, List.append_assoc]
    exact .call (writesOperands_pair hkey)
  have hwritable : (Expression.call (.plain "lookup") ⟨[.path c, .literal (.string k) default], []⟩ default).Writable :=
    .call (Path.isSimple_plain _) writable_lookup
      (List.forall_mem_cons.mpr ⟨.path hc, List.forall_mem_singleton.mpr (.literal trivial)⟩) nofun nofun
  obtain ⟨t, lookup, q, e, region, region', ht, hnodes, hlookup, hq, he⟩ := compile_lookup hm hcall hwritable true
  refine ⟨t, ht, ?_⟩
  intro engine hhelper depth frame
  cases he with
  | call hcallee ho =>
    obtain ⟨cq, ce, rfl, hcq, hce⟩ := ho.eq_pair
    obtain ⟨inner, rfl⟩ := hce.eq_literal
    have hstring := Scene.evaluate_string (engine.scene depth t) frame k inner
    have hinner := Engine.evaluate_called hhelper hcallee hcq hstring
    exact Engine.renderTemplate_called hhelper hlookup hq (hinner _) hnodes

end

/-- Looking up a key writes the same, whatever the braces are like, namely what the path
with the key behind it writes between two. So between three it differs from the path
exactly if the text found has a special character, and as a key it stands for
the escaped text. What is not found writes nothing. -/
theorem Engine.render_lookup {c m : Path} (hc : c.Writable) (hm : m.Writable) {k : String} (hk : ']' ∉ k.toList)
    {literal : List Char} (hliteral : WritesLiteral literal (.string k)) :
    ∃ (looked part : Bool → Template) (nested : Template),
      (∀ escaped, Template.compile none (outputText escaped (String.ofList (c.lookupText literal))) =
        .ok (looked escaped)) ∧
      (∀ escaped, Template.compile none (outputText escaped (String.ofList (c.part k))) = .ok (part escaped)) ∧
      Template.compile none (outputText true (String.ofList (m.lookupText ('(' :: (c.lookupText literal ++ [')']))))) =
        .ok nested ∧
      ∀ engine : Engine, engine.config.unresolved = .empty → engine.helper? "lookup" = some Builtin.lookupHelper →
        ∀ depth frame,
          (∀ escaped, engine.renderTemplate depth (looked escaped) frame =
            engine.renderTemplate depth (part true) frame) ∧
          ((engine.renderTemplate depth (looked false) frame).capture =
              (engine.renderTemplate depth (part false) frame).capture ↔
            ∀ d ∈ ((frame.valueOf c).partText k).toList, Text.entity? d = none) ∧
          ((frame.valueOf c).segment? k = none → ∀ escaped,
            engine.renderTemplate depth (looked escaped) frame = pure () ∧
              engine.renderTemplate depth (part escaped) frame = pure ()) ∧
          ∀ t, (frame.valueOf c).segment? k = some (.string t) → ']' ∉ t.toList →
            ∃ inner, Template.compile none (outputText true (String.ofList (m.part (Text.escaped t)))) = .ok inner ∧
              engine.renderTemplate depth nested frame = engine.renderTemplate depth inner frame := by
  choose looked hlooked hlookedRun using Template.renders_lookup hc hliteral
  choose part hpart hpartRun using Template.renders_part hc hk
  obtain ⟨nested, hnested, hnestedRun⟩ := Template.renders_lookup_nested hc hliteral hm
  refine ⟨looked, part, nested, hlooked, hpart, hnested, ?_⟩
  intro engine hempty hhelper depth frame
  have hlook : ∀ escaped, engine.renderTemplate depth (looked escaped) frame = (frame.valueOf c).writePart k true :=
    fun escaped => hlookedRun escaped engine hhelper depth frame
  have hwrite : ∀ escaped, engine.renderTemplate depth (part escaped) frame = (frame.valueOf c).writePart k escaped :=
    fun escaped => hpartRun escaped engine hempty depth frame
  refine ⟨?always, ?raw, ?missing, ?nested⟩
  case always =>
    intro escaped
    rw [hlook, hwrite]
  case raw =>
    rw [hlook, hwrite, Value.capture_writePart, Value.capture_writePart, ← Text.escaped_eq_self_iff]
    simp [Text.writtenIn]
  case missing =>
    intro hnone escaped
    rw [hlook, hwrite, Value.writePart, Value.writePart, hnone]
    exact ⟨rfl, rfl⟩
  case nested =>
    intro t hfound ht
    have htext : (frame.valueOf c).partText k = t := by
      rw [Value.partText, hfound, Option.map_some, Value.text_string, Option.getD_some]
    obtain ⟨inner, hinner, hinnerRun⟩ := Template.renders_part hm (Text.not_mem_escaped ht) true
    refine ⟨inner, hinner, ?_⟩
    rw [hnestedRun engine hhelper, hinnerRun engine hempty, htext]

/-- What is found has special characters, and nothing has them in its key. -/
def marked : Value :=
  .record [("c", .map [(.string "k", .string "<b>")]), ("m", .record [("<b>", .string "bold")])]

theorem Engine.render_lookup_marked :
    let c := Path.plain "c"
    let m := Path.plain "m"
    let literal := ['\x22', 'k', '\x22']
    let engine := Engine.new {}
    c.Writable ∧ m.Writable ∧ ']' ∉ "k".toList ∧ WritesLiteral literal (.string "k") ∧
      engine.config.unresolved = .empty ∧ engine.helper? "lookup" = some Builtin.lookupHelper ∧
      ((Frame.root marked).valueOf c).segment? "k" = some (.string "<b>") ∧ ']' ∉ "<b>".toList ∧
      ((Frame.root .null).valueOf c).segment? "k" = none ∧
      ∃ (looked part : Bool → Template) (nested inner : Template),
        (∀ escaped, Template.compile none (outputText escaped (String.ofList (c.lookupText literal))) =
          .ok (looked escaped)) ∧
        (∀ escaped, Template.compile none (outputText escaped (String.ofList (c.part "k"))) = .ok (part escaped)) ∧
        Template.compile none (outputText true (String.ofList (m.lookupText ('(' :: (c.lookupText literal ++ [')']))))) =
          .ok nested ∧
        Template.compile none (outputText true (String.ofList (m.part (Text.escaped "<b>")))) = .ok inner ∧
        (∀ escaped, engine.renderTemplate 0 (looked escaped) (.root marked) =
          engine.renderTemplate 0 (part true) (.root marked)) ∧
        (engine.renderTemplate 0 (looked false) (.root marked)).capture ≠
          (engine.renderTemplate 0 (part false) (.root marked)).capture ∧
        (∀ escaped, engine.renderTemplate 0 (looked escaped) (.root .null) = pure ()) ∧
        engine.renderTemplate 0 nested (.root marked) = engine.renderTemplate 0 inner (.root marked) := by
  intro c m literal engine
  have hc : c.Writable := Path.writable_plain (by decide)
  have hm : m.Writable := Path.writable_plain (by decide)
  have hk : ']' ∉ "k".toList := by decide
  have hliteral : WritesLiteral literal (.string "k") := .string "k" rfl
  have hfound : ((Frame.root marked).valueOf c).segment? "k" = some (.string "<b>") := rfl
  have hclean : ']' ∉ "<b>".toList := by decide
  have hmissing : ((Frame.root .null).valueOf c).segment? "k" = none := rfl
  have htext : ((Frame.root marked).valueOf c).partText "k" = "<b>" := by
    rw [Value.partText, hfound, Option.map_some, Value.text_string, Option.getD_some]
  have hspecial : ¬∀ d ∈ (((Frame.root marked).valueOf c).partText "k").toList, Text.entity? d = none := by
    rw [htext]
    intro hnone
    exact absurd (hnone '<' (by decide)) (by decide)
  obtain ⟨looked, part, nested, hlooked, hpart, hnested, hrun⟩ := render_lookup hc hm hk hliteral
  obtain ⟨halways, hraw, -, hnestedRun⟩ := hrun engine rfl rfl 0 (.root marked)
  obtain ⟨inner, hinner, hsame⟩ := hnestedRun "<b>" hfound hclean
  have hnothing := (hrun engine rfl rfl 0 (.root .null)).2.2.1 hmissing
  exact ⟨hc, hm, hk, hliteral, rfl, rfl, hfound, hclean, hmissing, looked, part, nested, inner, hlooked, hpart, hnested,
    hinner, halways, mt hraw.mp hspecial, fun escaped => (hnothing escaped).1, hsame⟩

/-- Between three braces the path writes the text as it is, and looking it up does not. -/
theorem Engine.render_lookup_apart :
    ∃ looked part,
      Template.compile none "\x7b\x7b\x7blookup c \"k\"\x7d\x7d\x7d" = .ok looked ∧
      Template.compile none "\x7b\x7b\x7bc.[k]\x7d\x7d\x7d" = .ok part ∧
      (Engine.new {}).render looked marked = pure "&lt;b&gt;" ∧ (Engine.new {}).render part marked = pure "<b>" := by
  have hc : (Path.plain "c").Writable := Path.writable_plain (by decide)
  have hk : ']' ∉ "k".toList := by decide
  have hliteral : WritesLiteral ['\x22', 'k', '\x22'] (.string "k") := .string "k" rfl
  obtain ⟨looked, hlooked, hlookedRun⟩ := Template.renders_lookup hc hliteral false
  obtain ⟨part, hpart, hpartRun⟩ := Template.renders_part hc hk false
  refine ⟨looked, part, hlooked, hpart, ?_, ?_⟩
  · rw [render, hlookedRun _ rfl, Value.capture_writePart]
    rfl
  · rw [render, hpartRun _ rfl, Value.capture_writePart]
    rfl

end Curly
