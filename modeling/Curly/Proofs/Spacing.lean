import Curly.Proofs.Inclusion
import Curly.Proofs.Scan.Blanks
import Mathlib.Order.MinMax

/-!
# Blanks that change nothing

Where blanks are put between two tokens of a tag, the tree stays the same but for
its regions, each of which is moved or made longer by the blanks, and renders to the
same text (`Engine.render_spaced`).
-/

namespace Curly

/-! ## Regions -/

/-- The region where `k` bytes are put in at `n`. -/
def Region.opened (n k : Nat) (r : Region) : Region :=
  ⟨if r.start < n then r.start else r.start + k, if r.stop ≤ n then r.stop else r.stop + k⟩

theorem Region.opened_before {n k : Nat} {r : Region} (hlt : r.start < r.stop) (h : r.stop ≤ n) : r.opened n k = r := by
  have hstart : r.start < n := by omega
  rw [opened, if_pos hstart, if_pos h]

theorem Region.opened_after {n k : Nat} {r : Region} (hlt : r.start < r.stop) (h : n ≤ r.start) :
    r.opened n k = r.shift k := by
  have hstart : ¬ r.start < n := by omega
  have hstop : ¬ r.stop ≤ n := by omega
  rw [opened, if_neg hstart, if_neg hstop, shift]

theorem Region.combine_opened (n k : Nat) (a b : Region) :
    (a.opened n k).combine (b.opened n k) = (a.combine b).opened n k := by
  have hstart : Monotone fun i => if i < n then i else i + k := by
    intro i j hij
    dsimp only
    split <;> split <;> omega
  have hstop : Monotone fun i => if i ≤ n then i else i + k := by
    intro i j hij
    dsimp only
    split <;> split <;> omega
  exact congrArg₂ Region.mk hstart.map_min.symm hstop.map_max.symm

theorem combines_opened (n k : Nat) : Combines fun r r' => r' = r.opened n k := by
  rintro a _ b _ rfl rfl
  exact Region.combine_opened n k a b

/-! ## Sources -/

/-- The byte is in a tag, behind its opening marker, not behind its closing one, and in none of its tokens. -/
def InsideTag (source : List Char) (n : Nat) : Prop :=
  ∃ x o inner y, Token.Around (Token.ofSource source) n x o inner y

theorem Token.Around.alike {source : List Char} {n : Nat} {x inner y : List Token} {o : Token}
    (h : Token.Around (Token.ofSource source) n x o inner y) (k : Nat) :
    List.Forall₂ (AlikeToken fun r r' => r' = r.opened n k) (Token.ofSource source)
      (x ++ o :: (inner ++ y.map (Token.shift k))) := by
  have hlt : ∀ t ∈ x ++ o :: (inner ++ y), t.region.start < t.region.stop := by
    intro t ht
    exact (Token.slice?_of_mem (h.tokens ▸ ht)).1
  have hbefore : ∀ t ∈ x ++ o :: inner, t.region.stop ≤ n := by
    intro t ht
    rcases List.mem_append.mp ht with ht | ht
    · have hordered := Lexeme.tokens_pairwise 0 (Lexeme.scan (.text false) source)
      rw [show Lexeme.tokens 0 (Lexeme.scan (.text false) source) = _ from h.tokens] at hordered
      have hle := (List.pairwise_append.mp hordered).2.2 t ht o (List.mem_cons_self ..)
      have ho := h.before o (List.mem_cons_self ..)
      have := hlt o (by simp)
      omega
    · exact h.before t ht
  have hsame : ∀ t ∈ x ++ o :: inner, AlikeToken (fun r r' => r' = r.opened n k) t t := by
    intro t ht
    refine .of_region (Region.opened_before (hlt t ?_) (hbefore t ht)).symm
    simp only [List.mem_append, List.mem_cons] at ht ⊢
    tauto
  have hmoved : ∀ t ∈ y, AlikeToken (fun r r' => r' = r.opened n k) t (t.shift k) := by
    intro t ht
    exact .of_region (Region.opened_after (hlt t (by simp [ht])) (h.after t ht)).symm
  have hsplit (z : List Token) : x ++ o :: (inner ++ z) = (x ++ o :: inner) ++ z := by simp
  rw [h.tokens, hsplit, hsplit]
  exact List.rel_append (List.forall₂_same.mpr hsame)
    (List.forall₂_map_right_iff.mpr (List.forall₂_same.mpr hmoved))

theorem AlikeToken.anywhere {ok : Region → Region → Prop} {t t' : Token} (h : AlikeToken ok t t') :
    AlikeToken Anywhere t t' ∧ AlikeToken Anywhere t' t := by
  cases h with
  | mk _ => exact ⟨.mk trivial, .mk trivial⟩

/-- Blanks between two tokens of a tag leave every token as it is, but for its region. -/
theorem Token.alike_spaced {before blanks after : List Char} {nodes : List Node}
    (h : Node.ofSource (before ++ after) = .ok nodes) (hplace : InsideTag (before ++ after) (byteLength before))
    (hblanks : ∀ c ∈ blanks, Text.isBlank c = true) (hne : blanks ≠ []) :
    List.Forall₂ (AlikeToken fun r r' => r' = r.opened (byteLength before) (byteLength blanks))
      (Token.ofSource (before ++ after)) (Token.ofSource (before ++ (blanks ++ after))) := by
  obtain ⟨tags, htags, -⟩ := Node.ofSource_eq_iff.mp h
  obtain ⟨x, o, inner, y, haround⟩ := hplace
  rw [Token.ofSource_spaced htags.valid haround hblanks hne]
  exact haround.alike (byteLength blanks)

theorem Node.alike_of_tokens {source source' : List Char} {nodes nodes' : List Node}
    (htokens : List.Forall₂ (AlikeToken Anywhere) (Token.ofSource source) (Token.ofSource source'))
    (h : Node.ofSource source = .ok nodes) (h' : Node.ofSource source' = .ok nodes') :
    AlikeNodes Anywhere (fun _ _ => False) nodes nodes' := by
  obtain ⟨found, hfound, halike⟩ := Node.ofSource_alike combines_anywhere h htokens
  obtain rfl := Except.ok.inj (h'.symm.trans hfound)
  exact halike

/-! ## Rendering -/

/-- A text that a template renders to does not depend on its regions. -/
theorem Engine.render_alike {engine : Engine} (he : engine.helpers = Builtin.all) {t t' : Template}
    (h : AlikeNodes Anywhere (fun _ _ => False) t.nodes t'.nodes) (value : Value) :
    Run.Refines String (engine.render t value) (engine.render t' value) := by
  have hscene : RelScene Run.Refines Anywhere (fun _ _ => False) (engine.scene engine.config.recursionLimit t)
      (engine.scene engine.config.recursionLimit t') :=
    Engine.relScene_refines he (fun _ _ _ => Run.Refines.comparison.refl _) False.elim
  refine Run.Refines.comparison.capture ?_
  rw [Engine.renderTemplate_eq, Engine.renderTemplate_eq]
  exact Run.Refines.comparison.mapError (Diagnostic.cause_inside _) (Diagnostic.cause_inside _)
    (h.render Run.Refines.comparison hscene (.root value))

/-- Blanks are put between two tokens of a tag. The source is a template as before, whose tree differs in its regions
alone, and renders to the same text. -/
theorem Engine.render_spaced {name : Option String} {before blanks after : String} {t : Template}
    (h : Template.compile name (before ++ after) = .ok t)
    (hplace : InsideTag (before ++ after).toList (byteLength before.toList))
    (hblanks : ∀ c ∈ blanks.toList, Text.isBlank c = true) (hne : blanks ≠ "") :
    ∃ t', Template.compile name (before ++ blanks ++ after) = .ok t' ∧
      t'.nodes = t.nodes.map (Node.relocate (Region.opened (byteLength before.toList) (byteLength blanks.toList))) ∧
      ∀ engine : Engine, engine.helpers = Builtin.all → ∀ value text,
        (engine.render t' value).outcome = .ok text ↔ (engine.render t value).outcome = .ok text := by
  obtain ⟨-, -, hnodes⟩ := Template.compile_ok_iff.mp h
  rw [String.toList_append] at hnodes hplace
  have hne' : blanks.toList ≠ [] := by
    intro hnil
    exact hne (String.toList_eq_nil_iff.mp hnil)
  have htokens := Token.alike_spaced hnodes hplace hblanks hne'
  obtain ⟨nodes', hnodes', halike⟩ := Node.ofSource_alike (combines_opened _ _) hnodes htokens
  refine ⟨⟨name, before ++ blanks ++ after, nodes'⟩, Template.compile_ok_iff.mpr ⟨rfl, rfl, ?_⟩, ?_, ?_⟩
  · rw [String.toList_append, String.toList_append, List.append_assoc]
    exact hnodes'
  · rw [halike.eq_relocate fun _ _ hr => hr, relocateNodes_eq_map]
  · intro engine he value text
    have hforth := Node.alike_of_tokens (htokens.imp fun _ _ ht => ht.anywhere.1) hnodes hnodes'
    have hback := Node.alike_of_tokens (htokens.imp fun _ _ ht => ht.anywhere.2).flip hnodes' hnodes
    constructor
    · intro ho
      exact (Engine.render_alike he hback value text ho).1
    · intro ho
      exact (Engine.render_alike he hforth value text ho).1

theorem Engine.render_spaced_group :
    ∃ t t', Template.compile none ("x\x7b\x7b#if (lookup a" ++ ("\"k\")\x7d\x7dy" ++ tagText "/if")) = .ok t ∧
      InsideTag ("x\x7b\x7b#if (lookup a" ++ ("\"k\")\x7d\x7dy" ++ tagText "/if")).toList
        (byteLength "x\x7b\x7b#if (lookup a".toList) ∧
      (∀ c ∈ "\u00a0\n".toList, Text.isBlank c = true) ∧ "\u00a0\n" ≠ "" ∧
      Template.compile none ("x\x7b\x7b#if (lookup a" ++ "\u00a0\n" ++ ("\"k\")\x7d\x7dy" ++ tagText "/if")) = .ok t' ∧
      t'.nodes = t.nodes.map (Node.relocate (Region.opened 16 3)) ∧
      ∀ engine : Engine, engine.helpers = Builtin.all → ∀ value text,
        (engine.render t' value).outcome = .ok text ↔ (engine.render t value).outcome = .ok text := by
  have hok : (Template.compile none ("x\x7b\x7b#if (lookup a" ++ ("\"k\")\x7d\x7dy" ++ tagText "/if"))).isOk := by
    decide +kernel
  have hplace : InsideTag ("x\x7b\x7b#if (lookup a" ++ ("\"k\")\x7d\x7dy" ++ tagText "/if")).toList
      (byteLength "x\x7b\x7b#if (lookup a".toList) := by
    refine ⟨[⟨.raw, ['x'], ⟨0, 1⟩⟩], ⟨.beginExpression, ['{', '{'], ⟨1, 3⟩⟩,
      [⟨.hash, ['#'], ⟨3, 4⟩⟩, ⟨.path, "if".toList, ⟨4, 6⟩⟩, ⟨.beginGroup, ['('], ⟨7, 8⟩⟩,
        ⟨.path, "lookup".toList, ⟨8, 14⟩⟩, ⟨.path, ['a'], ⟨15, 16⟩⟩],
      (Token.ofSource ("x\x7b\x7b#if (lookup a" ++ ("\"k\")\x7d\x7dy" ++ tagText "/if")).toList).drop 7, ?_⟩
    constructor
    all_goals decide +kernel
  have hblanks : ∀ c ∈ "\u00a0\n".toList, Text.isBlank c = true := List.all_eq_true.mp (by decide +kernel)
  obtain ⟨t, ht⟩ := Template.exists_of_isOk hok
  obtain ⟨t', ht', hnodes, hrender⟩ := Engine.render_spaced ht hplace hblanks (by decide)
  exact ⟨t, t', ht, hplace, hblanks, by decide, ht', hnodes, hrender⟩

end Curly
