import Curly.Proofs.Grammar.Kinds
import Curly.Proofs.Render.Compare
import Curly.Proofs.Scan.Joints

/-!
# Sources put together

A source that ends with a tag or a comment can be put before any other. The tree
of the whole is that of the first followed by that of the second, whose regions
are shifted (`Node.ofSource_append`), and it renders to both texts.
-/

namespace Curly

/-! ## Regions -/

/-- The region is that of a part of the source. -/
def Region.Fits (source : List Char) (r : Region) : Prop :=
  ∃ a b c, source = a ++ (b ++ c) ∧ r = ⟨byteLength a, byteLength a + byteLength b⟩

theorem Region.Fits.combine {source : List Char} {r r' : Region} (h : r.Fits source) (h' : r'.Fits source) :
    (r.combine r').Fits source := by
  obtain ⟨a, b, c, rfl, rfl⟩ := h
  obtain ⟨a', b', c', heq, rfl⟩ := h'
  -- the beginning and the end are each those of one of the parts
  obtain ⟨x, y, hxy, hx⟩ : ∃ x y, a ++ (b ++ c) = x ++ y ∧ byteLength x = min (byteLength a) (byteLength a') := by
    rcases Nat.le_total (byteLength a) (byteLength a') with hle | hle
    · exact ⟨a, _, rfl, by omega⟩
    · exact ⟨a', _, heq, by omega⟩
  obtain ⟨u, v, huv, hu⟩ : ∃ u v, a ++ (b ++ c) = u ++ v ∧
      byteLength u = max (byteLength a + byteLength b) (byteLength a' + byteLength b') := by
    rcases Nat.le_total (byteLength a + byteLength b) (byteLength a' + byteLength b') with hle | hle
    · exact ⟨a' ++ b', c', by rw [heq, List.append_assoc], by rw [byteLength_append]; omega⟩
    · exact ⟨a ++ b, c, by rw [List.append_assoc], by rw [byteLength_append]; omega⟩
  obtain ⟨e, rfl, -⟩ := exists_append_of_byteLength_le (hxy.symm.trans huv) (by omega)
  refine ⟨x, e, v, by rw [huv, List.append_assoc], ?_⟩
  rw [byteLength_append] at hu
  simp only [Region.combine, Region.mk.injEq]
  exact ⟨hx.symm, hu.symm⟩

theorem Region.Fits.slice_append {source : List Char} {r : Region} (h : r.Fits source) (more : List Char) :
    r.slice (source ++ more) = r.slice source := by
  obtain ⟨a, b, c, rfl, rfl⟩ := h
  simp only [Region.slice, List.append_assoc, Region.slice?_append]

theorem Lexeme.fits_of_mem_tokens {mode : Mode} {source : List Char} {t : Token} (h : t ∈ tokens 0 (scan mode source)) :
    t.region.Fits source := by
  obtain ⟨a, b, hls, hr⟩ := mem_tokens h
  have htexts := texts_scan mode source
  rw [hls] at htexts
  exact ⟨texts a, t.text, texts b, by rw [← htexts]; simp [Lexeme.text], by simpa using hr⟩

theorem Token.fits {source : List Char} {t : Token} (h : t ∈ Token.ofSource source) : t.region.Fits source :=
  Lexeme.fits_of_mem_tokens h

/-! ## Trees with other regions -/

def Path.relocate (f : Region → Region) (p : Path) : Path :=
  { p with region := f p.region }

mutual

def Expression.relocate (f : Region → Region) : Expression → Expression
  | .literal value region => .literal value (f region)
  | .path p => .path (p.relocate f)
  | .call callee o region => .call (callee.relocate f) (o.relocate f) (f region)

def Operands.relocate (f : Region → Region) : Operands → Operands
  | ⟨positional, named⟩ => ⟨relocateAll f positional, relocateNamed f named⟩

def relocateAll (f : Region → Region) : List Expression → List Expression
  | [] => []
  | e :: es => e.relocate f :: relocateAll f es

def relocateNamed (f : Region → Region) : List (String × Expression) → List (String × Expression)
  | [] => []
  | (name, e) :: ns => (name, e.relocate f) :: relocateNamed f ns

end

def Call.relocate {Head : Type} (f : Region → Region) (head : Head → Head) (c : Call Head) : Call Head :=
  ⟨head c.head, c.operands.relocate f, f c.region⟩

def PartialName.relocate (f : Region → Region) : PartialName → PartialName
  | .fixed name => .fixed name
  | .computed call => .computed (call.relocate f (Path.relocate f))

mutual

/-- The node with its regions, and those of all that is in it, replaced. -/
def Node.relocate (f : Region → Region) : Node → Node
  | .raw text region => .raw text (f region)
  | .output call escaped region => .output (call.relocate f (Expression.relocate f)) escaped (f region)
  | .block call negated body inverse region =>
    .block (call.relocate f (Path.relocate f)) negated (relocateNodes f body) (relocateBranch f inverse) (f region)
  | .inclusion name context region => .inclusion (name.relocate f) (context.map (Expression.relocate f)) (f region)

def relocateNodes (f : Region → Region) : List Node → List Node
  | [] => []
  | n :: nodes => n.relocate f :: relocateNodes f nodes

def relocateBranch (f : Region → Region) : Option (List Node) → Option (List Node)
  | none => none
  | some nodes => some (relocateNodes f nodes)

end

theorem relocateNodes_eq_map (f : Region → Region) (nodes : List Node) :
    relocateNodes f nodes = nodes.map (Node.relocate f) := by
  induction nodes with
  | nil => rfl
  | cons n nodes ih => rw [relocateNodes, ih, List.map_cons]

variable {ok : Region → Region → Prop} {f : Region → Region}

theorem AlikePath.eq_relocate (hf : ∀ r r', ok r r' → r' = f r) {p p' : Path} (h : AlikePath ok p p') :
    p' = p.relocate f := by
  cases h with
  | mk hr => rw [hf _ _ hr, Path.relocate]

mutual

theorem AlikeExpression.eq_relocate (hf : ∀ r r', ok r r' → r' = f r) {e e' : Expression}
    (h : AlikeExpression ok e e') : e' = e.relocate f := by
  match h with
  | .literal hr => rw [hf _ _ hr, Expression.relocate]
  | .path hp => rw [hp.eq_relocate hf, Expression.relocate]
  | .call hp ho hr =>
    rw [hp.eq_relocate hf, AlikeOperands.eq_relocate hf ho, hf _ _ hr, Expression.relocate]

theorem AlikeOperands.eq_relocate (hf : ∀ r r', ok r r' → r' = f r) {o o' : Operands}
    (h : AlikeOperands ok o o') : o' = o.relocate f := by
  match h with
  | .nil => rfl
  | .positional he ho =>
    have := AlikeOperands.eq_relocate hf ho
    simp only [Operands.relocate, Operands.mk.injEq] at this
    rw [AlikeExpression.eq_relocate hf he, this.1, this.2, Operands.relocate, relocateAll]
  | .named he ho =>
    have := AlikeOperands.eq_relocate hf ho
    simp only [Operands.relocate, Operands.mk.injEq] at this
    rw [AlikeExpression.eq_relocate hf he, this.2, Operands.relocate, relocateNamed, relocateAll]

end

theorem AlikeCall.eq_relocate (hf : ∀ r r', ok r r' → r' = f r) {Head : Type} {head : Head → Head → Prop}
    {g : Head → Head} (hg : ∀ h h', head h h' → h' = g h) {c c' : Call Head} (h : AlikeCall ok head c c') :
    c' = c.relocate f g := by
  cases h with
  | mk hh ho hr => rw [hg _ _ hh, ho.eq_relocate hf, hf _ _ hr, Call.relocate]

theorem AlikeLeaf.eq_relocate (hf : ∀ r r', ok r r' → r' = f r) {n n' : Node} (h : AlikeLeaf ok n n') :
    n' = n.relocate f := by
  cases h with
  | raw hr => rw [hf _ _ hr, Node.relocate]
  | output hc hr => rw [hc.eq_relocate hf fun _ _ he => he.eq_relocate hf, hf _ _ hr, Node.relocate]
  | inclusion hn hc hr =>
    rw [hf _ _ hr, Node.relocate]
    congr 1
    · cases hn with
      | fixed name => rfl
      | computed hc => rw [hc.eq_relocate hf fun _ _ hp => hp.eq_relocate hf, PartialName.relocate]
    · cases hc with
      | none => rfl
      | some he => rw [he.eq_relocate hf, Option.map_some]

mutual

theorem AlikeNode.eq_relocate (hf : ∀ r r', ok r r' → r' = f r) {n : Node} {inner : List Node}
    (h : AlikeNode ok (fun _ _ => False) n inner) : inner = [n.relocate f] := by
  match h with
  | .leaf hl => rw [hl.eq_relocate hf]
  | .splice hs => exact hs.elim
  | .block hc hbody hinverse hr =>
    rw [hc.eq_relocate hf fun _ _ hp => hp.eq_relocate hf, AlikeNodes.eq_relocate hf hbody,
      AlikeBranch.eq_relocate hf hinverse, hf _ _ hr, Node.relocate]

theorem AlikeNodes.eq_relocate (hf : ∀ r r', ok r r' → r' = f r) {nodes nodes' : List Node}
    (h : AlikeNodes ok (fun _ _ => False) nodes nodes') : nodes' = relocateNodes f nodes := by
  match h with
  | .nil => rfl
  | .cons hn hrest =>
    rw [AlikeNode.eq_relocate hf hn, AlikeNodes.eq_relocate hf hrest, relocateNodes, List.singleton_append]

theorem AlikeBranch.eq_relocate (hf : ∀ r r', ok r r' → r' = f r) {b b' : Option (List Node)}
    (h : AlikeBranch ok (fun _ _ => False) b b') : b' = relocateBranch f b := by
  match h with
  | .none => rfl
  | .some hn => rw [AlikeNodes.eq_relocate hf hn, relocateBranch]

end

/-! ## Rendering -/

def Engine.scene (engine : Engine) (depth : Nat) (template : Template) : Scene :=
  ⟨engine, template, match depth with
    | 0 => none
    | depth + 1 => some (engine.renderTemplate depth)⟩

theorem Engine.renderTemplate_eq (engine : Engine) (depth : Nat) (template : Template) (frame : Frame) :
    engine.renderTemplate depth template frame =
      ((engine.scene depth template).renderNodes template.nodes frame).mapError (·.inside template) := by
  cases depth <;> rfl

theorem Diagnostic.cause_inside (template : Template) (d : Diagnostic) : (d.inside template).cause = d.cause := by
  unfold Diagnostic.inside
  cases template.name <;> rfl

/-- The scenes of templates whose sources hold the same texts at related regions. -/
theorem Engine.relScene {engine : Engine} (he : engine.helpers = Builtin.all) {t t' : Template}
    {ok : Region → Region → Prop} (hslice : ∀ r r', ok r r' → r.slice t.source.toList = r'.slice t'.source.toList)
    (depth : Nat) : RelScene Run.Same ok (fun _ _ => False) (engine.scene depth t) (engine.scene depth t') where
  engine := rfl
  helpers := he
  missing := by
    intro α r r' hr
    refine ⟨rfl, ?_⟩
    have h : Run.result (α := α) ((engine.scene depth t).missingHelper r) =
        .error (.helperNotFound (String.ofList (r.slice t.source.toList))) := rfl
    have h' : Run.result (α := α) ((engine.scene depth t').missingHelper r') =
        .error (.helperNotFound (String.ofList (r'.slice t'.source.toList))) := rfl
    rw [h, h', hslice r r' hr]
  enter name template frame := Run.Same.comparison.refl _
  splice h := h.elim

theorem Run.result_capture (r : Run Unit) : r.capture.result = r.result.map fun _ => textOf r.events := by
  rcases r with ⟨es, d | a⟩ <;> rfl

theorem Engine.render_result (engine : Engine) (template : Template) (value : Value) :
    (engine.render template value).result =
      ((engine.scene engine.config.recursionLimit template).renderNodes template.nodes (.root value)).result.map
        fun _ => textOf ((engine.scene engine.config.recursionLimit template).renderNodes template.nodes
          (.root value)).events := by
  rw [Engine.render, Run.result_capture, Engine.renderTemplate_eq,
    Run.result_mapError (Diagnostic.cause_inside template)]
  rfl

/-! ## Sources put together -/

theorem SpellsTags.valid {tokens : List Token} {tags : List Tag} (h : SpellsTags tokens tags) :
    ∀ t ∈ tokens, ∀ fault, t.kind ≠ .invalid fault := by
  intro t ht fault hk
  rcases h.kind t ht with hb | hc
  · rw [hk] at hb
    cases hb
  · rw [hk] at hc
    cases hc

theorem SpellsTags.clean {source : List Char} {tags : List Tag} (h : SpellsTags (Token.ofSource source) tags) :
    Lexeme.Clean (Lexeme.scan (.text false) source) :=
  Lexeme.clean_of_tokens 0 h.valid

/-- Regions of the source, each related to itself. -/
def Region.Stays (source : List Char) (r r' : Region) : Prop :=
  r' = r ∧ r.Fits source

theorem combines_stays (source : List Char) : Combines (Region.Stays source) := by
  rintro a _ b _ ⟨rfl, ha⟩ ⟨rfl, hb⟩
  exact ⟨rfl, ha.combine hb⟩

theorem combines_shift (k : Nat) : Combines fun r r' => r' = r.shift k := by
  rintro a _ b _ rfl rfl
  exact Region.combine_shift k a b

theorem AlikeToken.of_region {ok : Region → Region → Prop} {t : Token} {r' : Region} (h : ok t.region r') :
    AlikeToken ok t { t with region := r' } :=
  .mk h

/-- Sources whose tokens are alike have trees that are alike. -/
theorem Node.ofSource_alike {ok : Region → Region → Prop} (hok : Combines ok) {source source' : List Char}
    {nodes : List Node} (h : Node.ofSource source = .ok nodes)
    (htokens : List.Forall₂ (AlikeToken ok) (Token.ofSource source) (Token.ofSource source')) :
    ∃ nodes', Node.ofSource source' = .ok nodes' ∧ AlikeNodes ok (fun _ _ => False) nodes nodes' := by
  obtain ⟨ts, hts, hs⟩ := Node.ofSource_eq_iff.mp h
  obtain ⟨ts', hts', halike⟩ := hts.alike (fun _ _ => False) hok htokens
  obtain ⟨nodes', hs', hnodes⟩ := hs.alike halike
  exact ⟨nodes', Node.ofSource_eq_iff.mpr ⟨ts', hts', hs'⟩, hnodes⟩

theorem alike_self {source : List Char} {nodes : List Node} (h : Node.ofSource source = .ok nodes) :
    AlikeNodes (Region.Stays source) (fun _ _ => False) nodes nodes := by
  have htokens : List.Forall₂ (AlikeToken (Region.Stays source)) (Token.ofSource source) (Token.ofSource source) :=
    List.forall₂_same.mpr fun t ht => .of_region ⟨rfl, Token.fits ht⟩
  obtain ⟨nodes', hsame, hnodes⟩ := Node.ofSource_alike (combines_stays source) h htokens
  obtain rfl := Except.ok.inj (h.symm.trans hsame)
  exact hnodes

theorem Node.ofSource_append {a b : List Char} {x y : List Node} (ha : Node.ofSource a = .ok x)
    (hb : Node.ofSource b = .ok y) (hend : EndsPlainly a) :
    ∃ y', Node.ofSource (a ++ b) = .ok (x ++ y') ∧
      AlikeNodes (fun r r' => r' = r.shift (byteLength a)) (fun _ _ => False) y y' := by
  obtain ⟨ts, hts, hx⟩ := Node.ofSource_eq_iff.mp ha
  obtain ⟨us, hus, hy⟩ := Node.ofSource_eq_iff.mp hb
  have htokens : List.Forall₂ (AlikeToken fun r r' => r' = r.shift (byteLength a)) (Token.ofSource b)
      ((Token.ofSource b).map (Token.shift (byteLength a))) :=
    List.forall₂_map_right_iff.mpr (List.forall₂_same.mpr fun _ _ => .of_region rfl)
  obtain ⟨us', hus', halike⟩ := hus.alike (fun _ _ => False) (combines_shift _) htokens
  obtain ⟨y', hy', hnodes⟩ := hy.alike halike
  refine ⟨y', Node.ofSource_eq_iff.mpr ⟨ts ++ us', ?_, hx.append hy'⟩, hnodes⟩
  rw [Token.ofSource_append hend hts.clean]
  exact hts.append hus'

theorem Engine.render_result_append {engine : Engine} {t t₁ t₂ : Template} {value : Value}
    {x y : List Node} (hnodes : t.nodes = x ++ y)
    (hx : ∀ frame, Run.Same _ ((engine.scene engine.config.recursionLimit t₁).renderNodes t₁.nodes frame)
      ((engine.scene engine.config.recursionLimit t).renderNodes x frame))
    (hy : ∀ frame, Run.Same _ ((engine.scene engine.config.recursionLimit t₂).renderNodes t₂.nodes frame)
      ((engine.scene engine.config.recursionLimit t).renderNodes y frame)) :
    (engine.render t value).result = do
      let a ← (engine.render t₁ value).result
      let b ← (engine.render t₂ value).result
      return a ++ b := by
  obtain ⟨hxe, hxr⟩ := hx (.root value)
  obtain ⟨hye, hyr⟩ := hy (.root value)
  simp only [Engine.render_result, hxe, hxr, hye, hyr, hnodes, Scene.renderNodes_append]
  generalize (engine.scene engine.config.recursionLimit t).renderNodes x (.root value) = r
  generalize (engine.scene engine.config.recursionLimit t).renderNodes y (.root value) = r'
  rcases r with ⟨es, d | a⟩ <;> rcases r' with ⟨es', d' | a'⟩
  · rfl
  · rfl
  · rfl
  · exact congrArg Except.ok (Run.textOf_append es es')

/-- The first of two sources ends with a tag or a comment. Then both together
make up a template, which renders to both texts, or fails for the reason of the
first that fails. -/
theorem Engine.render_append {n₁ n₂ : Option String} {s₁ s₂ : String} {t₁ t₂ : Template}
    (h₁ : Template.compile n₁ s₁ = .ok t₁) (h₂ : Template.compile n₂ s₂ = .ok t₂)
    (hend : EndsPlainly s₁.toList) (name : Option String) :
    ∃ t, Template.compile name (s₁ ++ s₂) = .ok t ∧
      t.nodes = t₁.nodes ++ t₂.nodes.map (Node.relocate (Region.shift (byteLength s₁.toList))) ∧
      ∀ engine : Engine, engine.helpers = Builtin.all → ∀ value,
        (engine.render t value).result = do
          let a ← (engine.render t₁ value).result
          let b ← (engine.render t₂ value).result
          return a ++ b := by
  obtain ⟨-, hs₁, hn₁⟩ := Template.compile_ok_iff.mp h₁
  obtain ⟨-, hs₂, hn₂⟩ := Template.compile_ok_iff.mp h₂
  obtain ⟨y, hy, halike⟩ := Node.ofSource_append hn₁ hn₂ hend
  refine ⟨⟨name, s₁ ++ s₂, t₁.nodes ++ y⟩, Template.compile_ok_iff.mpr ⟨rfl, rfl, ?_⟩, ?_, fun engine he value => ?_⟩
  · rw [String.toList_append]
    exact hy
  · rw [halike.eq_relocate fun _ _ h => h, relocateNodes_eq_map]
  · refine Engine.render_result_append rfl (fun frame => ?_) fun frame => ?_
    · refine (alike_self hn₁).render Run.Same.comparison (Engine.relScene he (fun r r' hr => ?_) _) frame
      obtain ⟨rfl, hr⟩ := hr
      rw [hs₁, String.toList_append, hr.slice_append]
    · refine halike.render Run.Same.comparison (Engine.relScene he (fun r r' hr => ?_) _) frame
      rw [hs₂, hr, String.toList_append, Region.slice_shift]

theorem Engine.render_append_block :
    ∃ t₁ t₂, Template.compile none (tagText "#if a" ++ "x" ++ tagText "/if") = .ok t₁ ∧
      Template.compile none ("\n" ++ tagText "b" ++ " y") = .ok t₂ ∧
      EndsPlainly (tagText "#if a" ++ "x" ++ tagText "/if").toList ∧
      ∃ t, Template.compile none ((tagText "#if a" ++ "x" ++ tagText "/if") ++ ("\n" ++ tagText "b" ++ " y")) = .ok t ∧
        ∀ engine : Engine, engine.helpers = Builtin.all → ∀ value,
          (engine.render t value).result = do
            let a ← (engine.render t₁ value).result
            let b ← (engine.render t₂ value).result
            return a ++ b := by
  have hend : EndsPlainly (tagText "#if a" ++ "x" ++ tagText "/if").toList := by decide +kernel
  have hok₁ : (Template.compile none (tagText "#if a" ++ "x" ++ tagText "/if")).isOk := by decide +kernel
  have hok₂ : (Template.compile none ("\n" ++ tagText "b" ++ " y")).isOk := by decide +kernel
  obtain ⟨t₁, h₁⟩ := Template.exists_of_isOk hok₁
  obtain ⟨t₂, h₂⟩ := Template.exists_of_isOk hok₂
  obtain ⟨t, ht, -, hrender⟩ := Engine.render_append h₁ h₂ hend none
  exact ⟨t₁, t₂, h₁, h₂, hend, t, ht, hrender⟩

end Curly
