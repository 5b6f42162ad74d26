import Curly.Proofs.Render.Output
import Curly.Proofs.Scan.Passages

/-!
# Verbatim text

A source without tags is a template, whatever its texts, comments and tags behind
backslashes are like where they meet. It renders to what each of them stands for, in
order, with any engine and any data (`Engine.render_passages`).
-/

namespace Curly

/-- Texts with the regions that they stand in. -/
def Node.raws (texts : List (List Char × Region)) : List Node :=
  texts.map fun t => .raw (String.ofList t.1) t.2

theorem Lexeme.Verbatim.exists_raws {ls : List Lexeme} {shown : List Char} (h : Verbatim ls shown) (start : Nat) :
    ∃ texts, SpellsTags (tokens start ls) ((Node.raws texts).map .node) ∧ texts.flatMap (·.1) = shown := by
  induction h generalizing start with
  | nil => exact ⟨[], .nil, rfl⟩
  | @raw text _ _ _ ih =>
    obtain ⟨texts, htags, rfl⟩ := ih (start + byteLength text)
    exact ⟨(text, _) :: texts, .cons (.raw rfl) htags, rfl⟩
  | @comment text _ _ _ ih =>
    obtain ⟨texts, htags, rfl⟩ := ih (start + byteLength text)
    exact ⟨texts, .cons (.comment rfl) htags, rfl⟩
  | @gap _ text _ _ _ ih => exact ih (start + byteLength text)

theorem SpellsScope.nodes (name : Opening → List Char) (nodes : List Node) : SpellsScope name (nodes.map .node) nodes := by
  induction nodes with
  | nil => exact .nil
  | cons n nodes ih => exact .node ih

theorem Scene.renderNodes_raws (scene : Scene) (texts : List (List Char × Region)) (frame : Frame) :
    scene.renderNodes (Node.raws texts) frame = ⟨texts.map fun t => .write (String.ofList t.1), .ok ()⟩ := by
  induction texts with
  | nil => rfl
  | cons t texts ih =>
    have hnext : scene.renderNodes (Node.raws (t :: texts)) frame =
        Run.write (String.ofList t.1) >>= fun _ => scene.renderNodes (Node.raws texts) frame := by
      rw [Node.raws, List.map_cons, renderNodes, renderNode]
      rfl
    rw [hnext, ih]
    rfl

theorem Run.capture_writes (texts : List (List Char × Region)) :
    (⟨texts.map fun t => .write (String.ofList t.1), .ok ()⟩ : Run Unit).capture =
      pure (String.ofList (texts.flatMap (·.1))) := by
  have htext : textOf (texts.map fun t => .write (String.ofList t.1)) = String.ofList (texts.flatMap (·.1)) := by
    induction texts with
    | nil => rfl
    | cons t texts ih =>
      rw [List.map_cons, ← List.singleton_append, textOf_append, ih, List.flatMap_cons, String.ofList_append]
      simp [textOf, Event.written?]
  have hsilent : (texts.map fun t => Event.write (String.ofList t.1)).filter (·.written?.isNone) = [] := by
    rw [List.filter_eq_nil_iff]
    intro e he
    obtain ⟨t, -, rfl⟩ := List.mem_map.mp he
    exact Bool.false_ne_true
  rw [capture, hsilent, htext]
  rfl

/-- A source that is scanned to texts and comments renders to what they stand for. -/
theorem Template.compile_verbatim {source : String} {shown : List Char}
    (h : Lexeme.Verbatim (Lexeme.scan (.text false) source.toList) shown) (name : Option String) :
    ∃ t, compile name source = .ok t ∧ ∀ (engine : Engine) (v : Value), engine.render t v = pure (String.ofList shown) := by
  obtain ⟨texts, htags, rfl⟩ := h.exists_raws 0
  refine ⟨_, compile_of_tags htags (.nodes _ _) name, ?_⟩
  intro engine v
  have hrun := (engine.scene engine.config.recursionLimit ⟨name, source, Node.raws texts⟩).renderNodes_raws texts (.root v)
  rw [Engine.render, Engine.renderTemplate_eq, hrun, Run.mapError_of_ok rfl, Run.capture_writes]

theorem toList_join_map {α : Type} (f : α → String) (as : List α) :
    (String.join (as.map f)).toList = as.flatMap fun a => (f a).toList := by
  induction as with
  | nil => rfl
  | cons a as ih => simp [ih]

/-- Texts, tags behind backslashes and comments make up a template, in whatever order and number they stand, and it
renders to the texts and the tags without their backslashes. A source without an opening marker renders to itself. -/
theorem Engine.render_passages (name : Option String) :
    (∀ passages : List Passage, ∃ t, Template.compile name (String.join (passages.map Passage.source)) = .ok t ∧
      ∀ (engine : Engine) (v : Value), engine.render t v = pure (String.join (passages.map Passage.shown))) ∧
    ∀ source : String, ¬ ['{', '{'] <:+: source.toList → ∃ t, Template.compile name source = .ok t ∧
      ∀ (engine : Engine) (v : Value), engine.render t v = pure source := by
  constructor
  · intro passages
    have hscan := Lexeme.scan_passages isPlainText_nil passages
    have hshown : String.ofList (passages.flatMap (·.shown.toList)) = String.join (passages.map Passage.shown) := by
      rw [← toList_join_map, String.ofList_toList]
    rw [List.nil_append, List.nil_append, ← toList_join_map] at hscan
    rw [← hshown]
    exact Template.compile_verbatim hscan name
  · intro source hsource
    have hscan := Lexeme.scan_unmarked hsource
    have hverbatim := Template.compile_verbatim (hscan ▸ Lexeme.Verbatim.keep source.toList) name
    rwa [String.ofList_toList] at hverbatim

/-- Braces and backslashes at both ends of what they must not join with. -/
def mixedPassages : List Passage :=
  [.plain "\\ \x7d\x7d" ⟨by decide +kernel, by decide, by decide⟩,
    .escaped " \x7b\x7b b" ⟨by decide +kernel, by decide, by decide⟩,
    .comment " --" ⟨by decide +kernel, by decide +kernel, by decide, by decide⟩,
    .plain "\x7d \x7bc" ⟨by decide +kernel, by decide, by decide⟩]

theorem Engine.render_passages_mixed :
    String.join (mixedPassages.map Passage.source) =
        "\\ \x7d\x7d\\\x7b\x7b \x7b\x7b b\x7d\x7d\x7b\x7b! --\x7d\x7d\x7d \x7bc" ∧
      String.join (mixedPassages.map Passage.shown) = "\\ \x7d\x7d\x7b\x7b \x7b\x7b b\x7d\x7d\x7d \x7bc" ∧
      ¬ ['{', '{'] <:+: "\x7d\x7d \\\x7b".toList ∧
      ∃ t u, Template.compile none (String.join (mixedPassages.map Passage.source)) = .ok t ∧
        Template.compile none "\x7d\x7d \\\x7b" = .ok u ∧
        (∀ v, (Engine.new {}).render t v = pure (String.join (mixedPassages.map Passage.shown))) ∧
        ∀ v, (Engine.new {}).render u v = pure "\x7d\x7d \\\x7b" := by
  have hunmarked : ¬ ['{', '{'] <:+: "\x7d\x7d \\\x7b".toList := by decide +kernel
  obtain ⟨hpassages, hplain⟩ := render_passages none
  obtain ⟨t, ht, hrun⟩ := hpassages mixedPassages
  obtain ⟨u, hu, hrun'⟩ := hplain _ hunmarked
  exact ⟨by decide +kernel, by decide +kernel, hunmarked, t, u, ht, hu, hrun _, hrun' _⟩

end Curly
