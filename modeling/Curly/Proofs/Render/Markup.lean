import Curly.Proofs.Inclusion
import Curly.Proofs.Render.Provenance

/-!
# Markup

Where no template asks for raw output, data adds no markup to what is rendered.
The text is put together of raw text of the templates, of what the format makes
of paths that do not resolve, and of texts that are harmless
(`Engine.render_pieces`).
-/

namespace Curly

/-! ## Escaped text -/

/-- A text without the characters that are special in markup, up to ampersands that begin an entity. -/
structure Text.Harmless (text : String) : Prop where
  special : ∀ c ∈ text.toList, c ∉ ['<', '>', '\x22', '\x27', '\x60', '=']
  ampersand : ∀ before after, text.toList = before ++ '&' :: after →
    ∃ c entity, entity? c = some entity ∧ entity.toList <+: '&' :: after

namespace Text

theorem entity?_eq_none {c : Char} (h : entity? c = none) : c ∉ ['&', '<', '>', '\x22', '\x27', '\x60', '='] := by
  intro hc
  simp only [List.mem_cons, List.not_mem_nil, or_false] at hc
  rcases hc with rfl | rfl | rfl | rfl | rfl | rfl | rfl <;> cases h

theorem harmless_plain {cs : List Char} (h : ∀ c ∈ cs, entity? c = none) : Harmless (String.ofList cs) := by
  constructor
  · intro c hc hspecial
    rw [String.toList_ofList] at hc
    exact entity?_eq_none (h c hc) (List.mem_cons_of_mem _ hspecial)
  · intro before after hcs
    rw [String.toList_ofList] at hcs
    have hmem : '&' ∈ cs := hcs ▸ List.mem_append_right _ (List.mem_cons_self ..)
    cases h _ hmem

theorem eq_nil_of_concat {α : Type} [DecidableEq α] {a : α} {l before after : List α} (h : a :: l = before ++ a :: after)
    (hl : a ∉ l) : before = [] ∧ l = after := by
  cases before with
  | nil => exact ⟨rfl, (List.cons.inj h).2⟩
  | cons b before =>
    obtain ⟨-, rfl⟩ := List.cons.inj h
    exact absurd (List.mem_append_right _ (List.mem_cons_self ..)) hl

theorem harmless_entity {c : Char} {entity : String} (h : entity? c = some entity) : Harmless entity := by
  have hentity : entity.toList.head? = some '&' ∧
      (entity.toList.tail.all fun c => decide (c ∉ ['&', '<', '>', '\x22', '\x27', '\x60', '='])) = true := by
    unfold entity? at h
    split at h
    all_goals first
      | cases h
        decide
      | cases h
  obtain ⟨name, hname⟩ := List.head?_eq_some_iff.mp hentity.1
  have hspecial : ∀ c ∈ name, c ∉ ['&', '<', '>', '\x22', '\x27', '\x60', '='] := by
    have hall := hentity.2
    rw [hname, List.tail_cons, List.all_eq_true] at hall
    intro c hc
    exact of_decide_eq_true (hall c hc)
  constructor
  · intro d hd
    rw [hname] at hd
    rcases List.mem_cons.mp hd with rfl | hd
    · decide
    · exact fun hmem => hspecial d hd (List.mem_cons_of_mem _ hmem)
  · intro before after hsplit
    have hamp : '&' ∉ name := fun hmem => hspecial '&' hmem (List.mem_cons_self ..)
    rw [hname] at hsplit
    obtain ⟨-, rfl⟩ := eq_nil_of_concat hsplit hamp
    exact ⟨c, entity, h, hname ▸ List.prefix_refl _⟩

theorem harmless_piecesFrom {seen cs : List Char} (hseen : ∀ c ∈ seen, entity? c = none) :
    ∀ piece ∈ piecesFrom seen cs, Harmless piece := by
  induction cs generalizing seen with
  | nil =>
    intro piece hp
    obtain rfl := List.mem_singleton.mp hp
    exact harmless_plain fun c hc => hseen c (List.mem_reverse.mp hc)
  | cons c cs ih =>
    intro piece hp
    rw [piecesFrom] at hp
    cases hc : entity? c with
    | some entity =>
      rw [hc] at hp
      rcases List.mem_cons.mp hp with rfl | hp
      · exact harmless_plain fun c hc => hseen c (List.mem_reverse.mp hc)
      · rcases List.mem_cons.mp hp with rfl | hp
        · exact harmless_entity hc
        · exact ih (fun _ h => absurd h List.not_mem_nil) piece hp
    | none =>
      rw [hc] at hp
      exact ih (List.forall_mem_cons.mpr ⟨hc, hseen⟩) piece hp

/-- The pieces in which a text is written escaped. -/
theorem harmless_escapedPieces {text piece : String} (h : piece ∈ escapedPieces text) : Harmless piece :=
  harmless_piecesFrom (fun _ h => absurd h List.not_mem_nil) piece h

end Text

/-! ## Rendered text -/

namespace Engine

/-- The given template and those that it may come to include. -/
def Offers (engine : Engine) (template t : Template) : Prop :=
  t = template ∨ ∃ name, engine.included? name = some t

/-- A part of what is rendered. -/
inductive Piece (engine : Engine) (template : Template) : String → Prop
  | raw {t : Template} {text : String} {region : Region} (ht : engine.Offers template t)
      (h : (Node.raw text region).Within t.nodes) : Piece engine template text
  /-- A path that does not resolve, in the format that the engine is given for such paths. -/
  | unresolved {t : Template} {call : Call Expression} {escaped : Bool} {region : Region} {p : Path} {format : String}
      (ht : engine.Offers template t) (h : (Node.output call escaped region).Within t.nodes) (hp : call.head = .path p)
      (hformat : engine.config.unresolved = .format format) : Piece engine template (Config.filled format p.lastSegment)
  | harmless {text : String} (h : Text.Harmless text) : Piece engine template text

end Engine

theorem Place.Belongs.offers {engine : Engine} {template : Template} {p : Place} (h : p.Belongs engine template) :
    engine.Offers template p.template := by
  rcases h.template with ⟨-, ht⟩ | ⟨name, -, -, ht⟩
  · exact .inl ht
  · exact .inr ⟨name, ht⟩

theorem Place.piece_of_write {engine : Engine} (he : engine.helpers = Builtin.all) {template : Template} {p : Place}
    (hp : p.Belongs engine template) {node : Node} (hnode : node.Within p.template.nodes)
    (hraw : ∀ call region, node ≠ .output call false region) (frame : Frame) {text : String}
    (h : .write text ∈ ((p.scene engine).own node frame).events) : engine.Piece template text := by
  cases node with
  | raw text' region =>
    obtain rfl := Event.write.inj (List.mem_singleton.mp h)
    exact .raw hp.offers hnode
  | output call escaped region =>
    have hemits : ((p.scene engine).renderOutput frame call escaped).Emits
        fun e => ∀ text, e = .write text → engine.Piece template text := by
      refine Scene.emits_renderOutput he frame call escaped ?_ ?_ ?_ ?_
      · rintro _ hlog text rfl
        cases hlog
      · rintro _ piece hpiece _ ⟨rfl⟩
        exact .harmless (Text.harmless_escapedPieces hpiece)
      · rintro rfl
        exact absurd rfl (hraw call region)
      · rintro q format hq hformat _ ⟨rfl⟩
        exact .unresolved hp.offers hnode hq hformat
    exact hemits _ h _ rfl
  | block call negated body inverse region => cases Scene.emits_own_block he call negated body inverse region frame _ h
  | inclusion name context region => cases Scene.emits_own_inclusion he name context region frame _ h

/-- What is rendered without raw output consists of such parts, in order. -/
theorem Engine.render_pieces {engine : Engine} (he : engine.helpers = Builtin.all) {template : Template}
    (hraw : ∀ t, engine.Offers template t → ∀ call region, ¬ (Node.output call false region).Within t.nodes)
    {value : Value} {text : String} (h : (engine.render template value).outcome = .ok text) :
    ∃ pieces, text = String.join pieces ∧ ∀ piece ∈ pieces, engine.Piece template piece := by
  have htext : text = textOf ((Place.start template value).run engine).events := by
    rw [Engine.render] at h
    rw [Place.run_start]
    cases ho : (engine.renderTemplate engine.config.recursionLimit template (.root value)).outcome with
    | error d => simp [Run.capture, ho, Except.map] at h
    | ok _ => simpa [Run.capture, ho, Except.map] using h.symm
  refine ⟨_, htext, fun piece hpiece => ?_⟩
  obtain ⟨e, hmem, hwritten⟩ := List.mem_filterMap.mp hpiece
  obtain rfl : e = .write piece := by
    cases e <;> cases hwritten
    rfl
  obtain ⟨before, after, hsplit⟩ := List.append_of_mem hmem
  have hprefix : before ++ [.write piece] <+: ((Place.start template value).run engine).events := by
    rw [hsplit]
    exact ⟨after, (List.append_cons ..).symm⟩
  obtain ⟨p, hp, hdoes⟩ := Place.exists_does he _ (by simp) hprefix
  generalize hpast : (Place.start template value).past ++ before = past at hdoes
  cases hdoes with
  | @own node frame work before _ hwork hown =>
    have hbelongs := hp.belongs
    have hnode := hbelongs.within _ (hwork ▸ List.mem_cons_self ..)
    refine Place.piece_of_write he hbelongs hnode (fun call region heq => ?_) frame (hown.subset (List.mem_concat_self ..))
    subst heq
    exact hraw _ hbelongs.offers call region hnode

/-- A raw text before an output. -/
def Template.greeting : Template :=
  ⟨none, "<p>" ++ tagText "x", [.raw "<p>" ⟨0, 3⟩,
    .output ⟨.path ⟨.context 0, ["x"], ['x'], ⟨5, 6⟩⟩, ⟨[], []⟩, ⟨5, 6⟩⟩ true ⟨3, 8⟩]⟩

theorem Engine.render_pieces_greeting :
    ((new {}).render .greeting (.record [("x", .string "<b> & c")])).outcome = .ok "<p>&lt;b&gt; &amp; c" ∧
      ∃ pieces, "<p>&lt;b&gt; &amp; c" = String.join pieces ∧ ∀ piece ∈ pieces, (new {}).Piece .greeting piece := by
  have hraw : ∀ t, (new {}).Offers .greeting t → ∀ call region, ¬ (Node.output call false region).Within t.nodes := by
    rintro t (rfl | ⟨name, ht⟩) call region hwithin
    · cases hwithin with
      | here h => simp [Template.greeting] at h
      | body hblock _ => simp [Template.greeting] at hblock
      | inverse hblock _ => simp [Template.greeting] at hblock
    · cases ht
  have hrender : ((new {}).render .greeting (.record [("x", .string "<b> & c")])).outcome.toOption =
      some "<p>&lt;b&gt; &amp; c" := by decide +kernel
  have hok : ((new {}).render .greeting (.record [("x", .string "<b> & c")])).outcome = .ok "<p>&lt;b&gt; &amp; c" := by
    cases ho : ((new {}).render .greeting (.record [("x", .string "<b> & c")])).outcome with
    | error d => simp [Except.toOption, ho] at hrender
    | ok text => simpa [Except.toOption, ho] using hrender
  exact ⟨hok, Engine.render_pieces rfl hraw hok⟩

end Curly
