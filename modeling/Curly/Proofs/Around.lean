import Curly.Proofs.Concat
import Curly.Proofs.Scan.Bodies

/-!
# Sources between tags

A source that can be read by itself is put between an opening tag and the tags
behind it. The tags of the whole are those of the three parts
(`SpellsTags.exists_around`), moved by what stands before them, and what they make up
renders as it does by itself (`AlikeNodes.render_moved`).
-/

namespace Curly

/-! ## Regions -/

/-- The region of a part of the source, before which `k` bytes are put. -/
def Region.Moved (source : List Char) (k : Nat) (r r' : Region) : Prop :=
  r.Fits source ∧ r' = r.shift k

theorem combines_moved (source : List Char) (k : Nat) : Combines (Region.Moved source k) := by
  intro a a' b b' ha hb
  obtain ⟨hfits, rfl⟩ := ha
  obtain ⟨hfits', rfl⟩ := hb
  exact ⟨hfits.combine hfits', Region.combine_shift k a b⟩

theorem Region.Moved.slice {before source : List Char} {r r' : Region} (h : Moved source (byteLength before) r r')
    (after : List Char) : r'.slice (before ++ (source ++ after)) = r.slice source := by
  obtain ⟨hfits, rfl⟩ := h
  rw [slice_shift, hfits.slice_append]

theorem Lexeme.alike_moved (mode : Mode) (source : List Char) (k : Nat) :
    List.Forall₂ (AlikeToken (Region.Moved source k)) (tokens 0 (scan mode source))
      ((tokens 0 (scan mode source)).map (Token.shift k)) := by
  rw [List.forall₂_map_right_iff, List.forall₂_same]
  intro t ht
  exact .of_region ⟨fits_of_mem_tokens ht, rfl⟩

/-! ## Tags -/

section
variable {opening body rest : List Char} {x y z : List Tag}

theorem Token.ofSource_around (hx : SpellsTags (Token.ofSource opening) x) (hends : EndsPlainly opening)
    (hy : SpellsTags (Token.ofSource body) y) (hplain : '\\' ∉ body) (hbrace : body.getLast? ≠ some '{')
    (hrest : rest.head? ≠ some '~') :
    Token.ofSource (opening ++ (body ++ (Lexeme.braces false ++ rest))) = Token.ofSource opening ++
      ((Token.ofSource body).map (Token.shift (byteLength opening)) ++
        (Token.ofSource (Lexeme.braces false ++ rest)).map (Token.shift (byteLength (opening ++ body)))) := by
  rw [Token.ofSource_append hends hx.clean, Token.ofSource_body hy hy.clean hplain hbrace hrest, List.map_append,
    List.map_map, Token.shift_comp]

theorem SpellsTags.exists_around (hx : SpellsTags (Token.ofSource opening) x) (hends : EndsPlainly opening)
    (hy : SpellsTags (Token.ofSource body) y) (hplain : '\\' ∉ body) (hbrace : body.getLast? ≠ some '{')
    (hz : SpellsTags (Token.ofSource (Lexeme.braces false ++ rest)) z) (hrest : rest.head? ≠ some '~') :
    ∃ y' z', SpellsTags (Token.ofSource (opening ++ (body ++ (Lexeme.braces false ++ rest)))) (x ++ (y' ++ z')) ∧
      AlikeTags (Region.Moved body (byteLength opening)) (fun _ _ => False) y y' ∧
      AlikeTags (Region.Moved (Lexeme.braces false ++ rest) (byteLength (opening ++ body))) (fun _ _ => False) z z' := by
  obtain ⟨y', hy', hbody⟩ := hy.alike (fun _ _ => False) (combines_moved body _) (Lexeme.alike_moved _ _ _)
  obtain ⟨z', hz', htail⟩ := hz.alike (fun _ _ => False) (combines_moved _ _) (Lexeme.alike_moved _ _ _)
  refine ⟨y', z', ?_, hbody, htail⟩
  rw [Token.ofSource_around hx hends hy hplain hbrace hrest]
  exact hx.append (hy'.append hz')

end

/-! ## Rendering -/

namespace Run

variable {α : Type} {r r' r'' : Run α}

theorem Same.trans (h : Same α r r') (h' : Same α r' r'') : Same α r r'' :=
  ⟨h.1.trans h'.1, h.2.trans h'.2⟩

theorem Same.mapError_right {f : Diagnostic → Diagnostic} (hf : ∀ d, (f d).cause = d.cause) (h : Same α r r') :
    Same α r (r'.mapError f) :=
  ⟨h.1, h.2.trans (result_mapError hf r').symm⟩

end Run

section
variable {engine : Engine} (he : engine.helpers = Builtin.all) {before source after : List Char} {t t' : Template}
  (ht : t.source.toList = source) (ht' : t'.source.toList = before ++ (source ++ after)) (depth : Nat) (frame : Frame)
include he ht ht'

theorem Engine.relScene_moved :
    RelScene Run.Same (Region.Moved source (byteLength before)) (fun _ _ => False) (engine.scene depth t)
      (engine.scene depth t') := by
  apply Engine.relScene he
  intro r r' hr
  rw [ht, ht', hr.slice]

/-- A part of a source renders as it does by itself. -/
theorem AlikeNodes.render_moved {nodes nodes' : List Node}
    (h : AlikeNodes (Region.Moved source (byteLength before)) (fun _ _ => False) nodes nodes') :
    Run.Same Unit ((engine.scene depth t).renderNodes nodes frame) ((engine.scene depth t').renderNodes nodes' frame) :=
  h.render Run.Same.comparison (Engine.relScene_moved he ht ht' depth) frame

theorem AlikeBranch.render_moved {inverse inverse' : Option (List Node)}
    (h : AlikeBranch (Region.Moved source (byteLength before)) (fun _ _ => False) inverse inverse') :
    Run.Same Unit (Block.renderIn frame ((engine.scene depth t).renderBranch inverse))
      (Block.renderIn frame ((engine.scene depth t').renderBranch inverse')) :=
  Run.Same.comparison.renderIn (h.render Run.Same.comparison (Engine.relScene_moved he ht ht' depth)) frame

theorem AlikeExpression.evaluate_moved {e e' : Expression}
    (h : AlikeExpression (Region.Moved source (byteLength before)) e e') :
    Run.Same Value ((engine.scene depth t).evaluate frame e) ((engine.scene depth t').evaluate frame e') :=
  (Engine.relScene_moved he ht ht' depth).evaluate Run.Same.comparison h frame

end

end Curly
