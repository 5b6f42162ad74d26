import Curly.Proofs.Grammar.Tag
import Curly.Proofs.Scan.Tokens
import Curly.Template

/-!
# The grammar of blocks

A scope is a sequence of texts, outputs, inclusions and blocks. A block is an
opening tag, a scope, a tail with its alternatives, and a closing tag that
either has no name or that of the block. Outlines put tags together to exactly
the trees of this grammar (`Outline.finish_eq_iff`). The invariant is
`SpellsOutline`: what an outline holds is what the tags so far spell, each open
block being an opening tag with a scope behind it.
-/

namespace Curly

section
variable (name : Opening → List Char)

mutual

/-- The tags are the scope written out, where `name` gives the names that close
blocks. -/
inductive SpellsScope : List Tag → List Node → Prop
  | nil : SpellsScope [] []
  | node {n : Node} {tags : List Tag} {nodes : List Node} :
    SpellsScope tags nodes → SpellsScope (.node n :: tags) (n :: nodes)
  | block {o : Opening} {inner tail tags : List Tag} {body nodes : List Node}
    {inverse : Option (List Node)} {closed : Option (List Char × Region)} {region : Region} :
    SpellsScope inner body → SpellsTail tail inverse → (∀ n ∈ closed, n.1 = name o) →
    SpellsScope tags nodes →
    SpellsScope (.opening o :: (inner ++ (tail ++ .closing closed region :: tags)))
      (.block o.call o.negated body inverse o.region :: nodes)

/-- The alternatives of a block. A chained one is a block of its own inside the
inverse, and what follows it is the tail of that block. -/
inductive SpellsTail : List Tag → Option (List Node) → Prop
  | none : SpellsTail [] none
  | plain {marker : Region} {tags : List Tag} {nodes : List Node} :
    SpellsScope tags nodes → SpellsTail (.alternative marker :: tags) (some nodes)
  | chained {marker : Region} {o : Opening} {inner tail : List Tag} {body : List Node}
    {inverse : Option (List Node)} :
    SpellsScope inner body → SpellsTail tail inverse →
    SpellsTail (.alternativeOpening marker o :: (inner ++ tail))
      (some [.block o.call o.negated body inverse o.region])

end

end

variable {name name' : Opening → List Char}

theorem SpellsScope.append {a b : List Tag} {x y : List Node} (ha : SpellsScope name a x)
    (hb : SpellsScope name b y) : SpellsScope name (a ++ b) (x ++ y) := by
  match ha with
  | .nil => exact hb
  | .node h => exact .node (h.append hb)
  | .block hbody htail hclosed h =>
    simpa only [List.cons_append, List.append_assoc] using
      SpellsScope.block hbody htail hclosed (h.append hb)

/-! ## Names

Only the names of the opening tags that are there matter.
-/

mutual

theorem SpellsScope.rename {tags : List Tag} {nodes : List Node} (h : SpellsScope name tags nodes)
    (hn : ∀ o, .opening o ∈ tags → name' o = name o) : SpellsScope name' tags nodes := by
  match h with
  | .nil => exact .nil
  | .node h => exact .node (h.rename fun o ho => hn o (List.mem_cons_of_mem _ ho))
  | .block hbody htail hclosed h =>
    refine .block (hbody.rename fun o ho => hn o (by simp [ho])) (htail.rename fun o ho => hn o (by simp [ho]))
      (fun n hm => ?_) (h.rename fun o ho => hn o (by simp [ho]))
    rw [hclosed n hm, hn _ (List.mem_cons_self ..)]

theorem SpellsTail.rename {tags : List Tag} {inverse : Option (List Node)}
    (h : SpellsTail name tags inverse) (hn : ∀ o, .opening o ∈ tags → name' o = name o) :
    SpellsTail name' tags inverse := by
  match h with
  | .none => exact .none
  | .plain h => exact .plain (h.rename fun o ho => hn o (List.mem_cons_of_mem _ ho))
  | .chained hbody htail =>
    exact .chained (hbody.rename fun o ho => hn o (by simp [ho])) (htail.rename fun o ho => hn o (by simp [ho]))

end

/-! ## From tags to outlines -/

namespace Outline

/-- Closes the block `node`, which is that of the level `l`, and if it is
chained those around it. -/
def closeWith (closed : Option (List Char × Region)) (region : Region) (node : Node) (l : Level)
    (levels : List Level) : Except SyntaxError Outline :=
  if l.chained then close closed region (node :: l.before) levels
  else
    match closed with
    | some (text, at_) =>
      if text = l.opening.name then .ok ⟨node :: l.before, levels⟩
      else .error ⟨.wrongClose l.name, at_⟩
    | none => .ok ⟨node :: l.before, levels⟩

theorem close_cons (closed : Option (List Char × Region)) (region : Region) (nodes : List Node)
    (l : Level) (levels : List Level) :
    close closed region nodes (l :: levels) = closeWith closed region (l.finish nodes) l levels := rfl

theorem closeWith_body (closed : Option (List Char × Region)) (region : Region) (node : Node) (l : Level)
    (body : Option (List Node)) (levels : List Level) :
    closeWith closed region node { l with body := body } levels = closeWith closed region node l levels := rfl

theorem closeWith_ok {closed : Option (List Char × Region)} {region : Region} {node : Node} {l : Level}
    {levels : List Level} {o : Outline} (hl : l.chained = false) :
    closeWith closed region node l levels = .ok o ↔
      (∀ n ∈ closed, n.1 = l.opening.name) ∧ o = ⟨node :: l.before, levels⟩ := by
  unfold closeWith
  rw [hl]
  cases closed with
  | none => simp [eq_comm]
  | some n =>
    obtain ⟨text, at_⟩ := n
    by_cases ht : text = l.opening.name <;> simp [ht, eq_comm]

theorem addAll_cons_ok {o o' : Outline} {tag : Tag} {tags : List Tag} (h : o.add tag = .ok o') :
    o.addAll (tag :: tags) = o'.addAll tags := by
  rw [addAll, h]

theorem addAll_append {o o' : Outline} {a : List Tag} (b : List Tag) (h : o.addAll a = .ok o') :
    o.addAll (a ++ b) = o'.addAll b := by
  induction a generalizing o with
  | nil =>
    simp only [addAll, Except.ok.injEq] at h
    rw [h]
    rfl
  | cons tag a ih =>
    cases ht : o.add tag with
    | error e => simp [addAll, ht] at h
    | ok p =>
      rw [addAll_cons_ok ht] at h
      rw [List.cons_append, addAll_cons_ok ht, ih h]

end Outline

def Opening.block (o : Opening) (body : List Node) (inverse : Option (List Node)) : Node :=
  .block o.call o.negated body inverse o.region

mutual

theorem addAll_scope {tags : List Tag} {nodes : List Node} (h : SpellsScope Opening.name tags nodes)
    (o : Outline) : o.addAll tags = .ok ⟨nodes.reverse ++ o.nodes, o.levels⟩ := by
  match h with
  | .nil => rfl
  | @SpellsScope.node _ n tags nodes h =>
    have hadd : o.add (.node n) = .ok (o.push n) := rfl
    rw [Outline.addAll_cons_ok hadd, addAll_scope h]
    simp [Outline.push]
  | @SpellsScope.block _ p inner tail tags body nodes inverse closed region hbody htail hclosed h =>
    obtain ⟨q, hq, hclose⟩ := addAll_tail htail ⟨p, false, none, o.nodes⟩ rfl o.levels body.reverse
    have hadd : q.add (.closing closed region) = .ok ⟨p.block body inverse :: o.nodes, o.levels⟩ := by
      rw [Outline.add, hclose, Outline.closeWith_ok rfl, List.reverse_reverse]
      exact ⟨hclosed, rfl⟩
    have hopen : o.add (.opening p) = .ok (o.opened p false) := rfl
    rw [Outline.addAll_cons_ok hopen, Outline.addAll_append _ (addAll_scope hbody _)]
    simp only [Outline.opened, List.append_nil]
    rw [Outline.addAll_append _ hq, Outline.addAll_cons_ok hadd, addAll_scope h]
    simp [Opening.block]

theorem addAll_tail {tags : List Tag} {inverse : Option (List Node)}
    (h : SpellsTail Opening.name tags inverse) (l : Level) (hl : l.body = none) (levels : List Level)
    (nodes : List Node) :
    ∃ o, Outline.addAll ⟨nodes, l :: levels⟩ tags = .ok o ∧
      ∀ closed region, Outline.close closed region o.nodes o.levels =
        Outline.closeWith closed region (l.opening.block nodes.reverse inverse) l levels := by
  match h with
  | .none =>
    refine ⟨⟨nodes, l :: levels⟩, rfl, fun closed region => ?_⟩
    rw [Outline.close_cons, Level.finish, hl]
    rfl
  | @SpellsTail.plain _ marker tags inner h =>
    refine ⟨⟨inner.reverse, { l with body := some nodes.reverse } :: levels⟩, ?_, fun closed region => ?_⟩
    · have hadd : Outline.add ⟨nodes, l :: levels⟩ (.alternative marker) =
          .ok ⟨[], { l with body := some nodes.reverse } :: levels⟩ := by
        simp [Outline.add, Outline.alternative, hl]
      rw [Outline.addAll_cons_ok hadd, addAll_scope h]
      simp
    · rw [Outline.close_cons, Level.finish, List.reverse_reverse]
      exact Outline.closeWith_body ..
  | @SpellsTail.chained _ marker p inner tail body inverse hbody htail =>
    obtain ⟨q, hq, hclose⟩ := addAll_tail htail ⟨p, true, none, []⟩ rfl
      ({ l with body := some nodes.reverse } :: levels) body.reverse
    refine ⟨q, ?_, fun closed region => ?_⟩
    · have hadd : Outline.add ⟨nodes, l :: levels⟩ (.alternativeOpening marker p) =
          .ok ⟨[], ⟨p, true, none, []⟩ :: { l with body := some nodes.reverse } :: levels⟩ := by
        simp [Outline.add, Outline.alternative, hl, Outline.opened]
      rw [Outline.addAll_cons_ok hadd, Outline.addAll_append _ (addAll_scope hbody _)]
      simpa using hq
    · rw [hclose, List.reverse_reverse]
      exact Outline.closeWith_body ..

end

/-! ## From outlines to tags -/

/-- What an outline holds is what the tags spell. The outermost block is not
chained, and a chained block is all that the inverse around it holds so far. -/
inductive SpellsOutline : List Tag → List Node → List Level → Prop
  | top {tags : List Tag} {nodes : List Node} :
    SpellsScope Opening.name tags nodes.reverse → SpellsOutline tags nodes []
  | body {tags inner : List Tag} {before nodes : List Node} {o : Opening} {levels : List Level} :
    SpellsOutline tags before levels → SpellsScope Opening.name inner nodes.reverse →
    SpellsOutline (tags ++ .opening o :: inner) nodes (⟨o, false, none, before⟩ :: levels)
  | inverse {tags inner : List Tag} {body before nodes : List Node} {o : Opening} {chained : Bool}
    {marker : Region} {levels : List Level} :
    SpellsOutline tags body (⟨o, chained, none, before⟩ :: levels) →
    SpellsScope Opening.name inner nodes.reverse →
    SpellsOutline (tags ++ .alternative marker :: inner) nodes
      (⟨o, chained, some body.reverse, before⟩ :: levels)
  | chained {tags inner : List Tag} {body before nodes : List Node} {o p : Opening} {chained : Bool}
    {marker : Region} {levels : List Level} :
    SpellsOutline tags body (⟨o, chained, none, before⟩ :: levels) →
    SpellsScope Opening.name inner nodes.reverse →
    SpellsOutline (tags ++ .alternativeOpening marker p :: inner) nodes
      (⟨p, true, none, []⟩ :: ⟨o, chained, some body.reverse, before⟩ :: levels)

namespace SpellsOutline

theorem append {tags inner : List Tag} {nodes ns : List Node} {levels : List Level}
    (h : SpellsOutline tags nodes levels) (hi : SpellsScope Opening.name inner ns) :
    SpellsOutline (tags ++ inner) (ns.reverse ++ nodes) levels := by
  cases h with
  | top hs => exact .top (by simpa using hs.append hi)
  | body h hs =>
    rw [List.append_assoc, List.cons_append]
    exact .body h (by simpa using hs.append hi)
  | inverse h hs =>
    rw [List.append_assoc, List.cons_append]
    exact .inverse h (by simpa using hs.append hi)
  | chained h hs =>
    rw [List.append_assoc, List.cons_append]
    exact .chained h (by simpa using hs.append hi)

/-- Closing a block whose body and alternatives are spelled. The induction is on
the levels, as closing a chained block closes the one around it. -/
theorem closeWith_tail {levels : List Level} {closed : Option (List Char × Region)} {region : Region}
    {o : Outline} : ∀ {tags tail : List Tag} {nodes before : List Node} {p : Opening} {chained : Bool}
    {inverse : Option (List Node)}, SpellsOutline tags nodes (⟨p, chained, none, before⟩ :: levels) →
    SpellsTail Opening.name tail inverse →
    Outline.closeWith closed region (p.block nodes.reverse inverse) ⟨p, chained, none, before⟩ levels = .ok o →
    SpellsOutline (tags ++ (tail ++ [.closing closed region])) o.nodes o.levels := by
  induction levels with
  | nil =>
    intro tags tail nodes before p chained inverse h htail hclose
    cases h with
    | body h hs =>
      obtain ⟨hclosed, rfl⟩ := (Outline.closeWith_ok rfl).mp hclose
      have hblock : SpellsScope Opening.name (.opening p :: (_ ++ (tail ++ [.closing closed region]))) _ :=
        .block hs htail hclosed .nil
      simpa [Opening.block] using h.append hblock
  | cons l levels ih =>
    intro tags tail nodes before p chained inverse h htail hclose
    cases h with
    | body h hs =>
      obtain ⟨hclosed, rfl⟩ := (Outline.closeWith_ok rfl).mp hclose
      have hblock : SpellsScope Opening.name (.opening p :: (_ ++ (tail ++ [.closing closed region]))) _ :=
        .block hs htail hclosed .nil
      simpa [Opening.block] using h.append hblock
    | @chained tags inner body before _ q _ _ marker _ h hs =>
      have htail' : SpellsTail Opening.name (.alternativeOpening marker p :: (inner ++ tail)) _ := .chained hs htail
      simp only [Outline.closeWith, ite_true, Outline.close_cons] at hclose
      simpa using ih h htail' hclose

theorem close {tags : List Tag} {nodes : List Node} {levels : List Level}
    {closed : Option (List Char × Region)} {region : Region} {o : Outline}
    (h : SpellsOutline tags nodes levels) (hclose : Outline.close closed region nodes levels = .ok o) :
    SpellsOutline (tags ++ [.closing closed region]) o.nodes o.levels := by
  cases levels with
  | nil => simp [Outline.close] at hclose
  | cons l levels =>
    rw [Outline.close_cons] at hclose
    obtain ⟨p, chained, body, before⟩ := l
    cases body with
    | none => exact h.closeWith_tail .none hclose
    | some body =>
      cases h with
      | @inverse tags inner _ _ _ _ _ marker _ h hs =>
        rw [List.append_assoc]
        have htail : SpellsTail Opening.name (.alternative marker :: inner) _ := .plain hs
        exact h.closeWith_tail htail hclose

theorem alternative {tags : List Tag} {marker : Region} {o o' : Outline}
    (h : SpellsOutline tags o.nodes o.levels) (ha : o.alternative marker = .ok o') :
    ∃ p chained before levels, o.levels = ⟨p, chained, none, before⟩ :: levels ∧
      o' = ⟨[], ⟨p, chained, some o.nodes.reverse, before⟩ :: levels⟩ ∧
      SpellsOutline tags o.nodes (⟨p, chained, none, before⟩ :: levels) := by
  unfold Outline.alternative at ha
  cases hl : o.levels with
  | nil => simp [hl] at ha
  | cons l levels =>
    obtain ⟨p, chained, body, before⟩ := l
    cases body with
    | some body => simp [hl] at ha
    | none =>
      simp only [hl, Option.isSome_none, Bool.false_eq_true, ite_false, Except.ok.injEq] at ha
      rw [hl] at h
      exact ⟨p, chained, before, levels, rfl, ha.symm, h⟩

theorem add {tags : List Tag} {tag : Tag} {o o' : Outline} (h : SpellsOutline tags o.nodes o.levels)
    (ha : o.add tag = .ok o') : SpellsOutline (tags ++ [tag]) o'.nodes o'.levels := by
  cases tag with
  | node n =>
    obtain rfl := Except.ok.inj ha
    exact h.append (.node .nil)
  | opening p =>
    obtain rfl := Except.ok.inj ha
    exact .body h .nil
  | alternative marker =>
    obtain ⟨p, chained, before, levels, -, rfl, h⟩ := h.alternative ha
    exact .inverse h .nil
  | alternativeOpening marker p =>
    simp only [Outline.add] at ha
    cases ho : o.alternative marker with
    | error e => simp [ho] at ha
    | ok q =>
      obtain ⟨p', chained, before, levels, -, rfl, h⟩ := h.alternative ho
      simp only [ho, Except.ok.injEq] at ha
      obtain rfl := ha
      exact .chained h .nil
  | closing closed region => exact h.close ha

theorem addAll {rest : List Tag} : ∀ {tags : List Tag} {o o' : Outline},
    SpellsOutline tags o.nodes o.levels → o.addAll rest = .ok o' →
      SpellsOutline (tags ++ rest) o'.nodes o'.levels := by
  induction rest with
  | nil =>
    intro tags o o' h ha
    obtain rfl := Except.ok.inj ha
    simpa using h
  | cons tag rest ih =>
    intro tags o o' h ha
    cases ht : o.add tag with
    | error e => simp [Outline.addAll, ht] at ha
    | ok p =>
      rw [Outline.addAll_cons_ok ht] at ha
      simpa using ih (h.add ht) ha

theorem outermost {tags : List Tag} {nodes : List Node} {levels : List Level} (h : SpellsOutline tags nodes levels) :
    ∀ l ∈ levels.getLast?, l.chained = false := by
  induction h with
  | top _ => simp
  | @body _ _ _ _ o levels _ _ ih =>
    cases levels with
    | nil => simp
    | cons l levels => simpa using ih
  | @inverse _ _ _ _ _ o chained _ levels _ _ ih =>
    cases levels with
    | nil => simpa using ih
    | cons l levels => simpa using ih
  | @chained _ _ _ _ _ o p chained _ levels _ _ ih =>
    cases levels with
    | nil => simpa using ih
    | cons l levels => simpa using ih

end SpellsOutline

/-- If the last element has the property, some element is the first to have it. -/
theorem find?_eq_none_iff_of_last {α : Type} {p : α → Bool} {l : List α} (h : ∀ a ∈ l.getLast?, p a = true) :
    l.find? p = none ↔ l = [] := by
  constructor
  · intro hnone
    refine Classical.byContradiction fun hl => ?_
    exact List.find?_eq_none.mp hnone _ (List.getLast_mem hl) (h _ (List.getLast?_eq_some_getLast hl))
  · rintro rfl
    rfl

theorem Outline.finish_eq_iff {tags : List Tag} {nodes : List Node} :
    (∃ o, Outline.empty.addAll tags = .ok o ∧ o.finish = .ok nodes) ↔
      SpellsScope Opening.name tags nodes := by
  constructor
  · rintro ⟨o, ha, hf⟩
    have hempty : SpellsOutline [] Outline.empty.nodes Outline.empty.levels := .top .nil
    have h : SpellsOutline tags o.nodes o.levels := hempty.addAll ha
    unfold Outline.finish at hf
    cases hfind : o.levels.find? (!·.chained) with
    | some l => simp [hfind] at hf
    | none =>
      have hnil : o.levels = [] := (find?_eq_none_iff_of_last fun l hl => by simp [h.outermost l hl]).mp hfind
      simp only [hfind, Except.ok.injEq] at hf
      subst hf
      rw [hnil] at h
      cases h with
      | top hs => exact hs
  · intro h
    refine ⟨_, addAll_scope h Outline.empty, ?_⟩
    simp [Outline.empty, Outline.finish]

/-! ## Sources -/

theorem Node.ofSource_eq_iff {source : List Char} {nodes : List Node} :
    Node.ofSource source = .ok nodes ↔
      ∃ tags, SpellsTags (Token.ofSource source) tags ∧ SpellsScope Opening.name tags nodes := by
  unfold Node.ofSource
  rcases hs : Tag.ofSource source with ⟨tags, e⟩
  simp only
  constructor
  · intro h
    cases ha : Outline.empty.addAll tags with
    | error d => simp [ha] at h
    | ok o =>
      cases e with
      | some e => simp [ha] at h
      | none =>
        simp only [ha] at h
        exact ⟨tags, Tag.ofSource_eq_iff.mp hs, Outline.finish_eq_iff.mp ⟨o, ha, h⟩⟩
  · rintro ⟨tags', htags, hscope⟩
    obtain ⟨rfl, rfl⟩ := Prod.mk.inj (hs.symm.trans (Tag.ofSource_eq_iff.mpr htags))
    obtain ⟨o, ha, hf⟩ := Outline.finish_eq_iff.mpr hscope
    simp only [ha, hf]

theorem Path.ofText_text {text : List Char} {region : Region} {p : Path}
    (h : Path.ofText text region = .ok p) : p.text = text ∧ p.region = region := by
  unfold Path.ofText at h
  split at h
  · cases h
  · split at h
    · cases h
    · obtain rfl := Except.ok.inj h
      exact ⟨rfl, rfl⟩

theorem Reading.path_ok {t : Token} {p : Path} (h : Reading.path t = .ok p) :
    Path.ofText t.text t.region = .ok p := by
  unfold Reading.path at h
  cases hp : Path.ofText t.text t.region <;> simp_all

theorem SpellsHead.token {used : List Token} {c : Call Path} (h : SpellsHead used c) :
    ∃ t ∈ used, c.head.text = t.text ∧ c.head.region = t.region := by
  unfold SpellsHead at h
  generalize hc : (⟨.path c.head, c.operands, c.region⟩ : Call Expression) = c' at h
  cases h with
  | @mk first rest head o he ho =>
    obtain ⟨rfl, -, -⟩ := Call.mk.inj hc
    obtain ⟨t, rfl, -, hp⟩ := he.of_path
    exact ⟨t, by simp, Path.ofText_text (Reading.path_ok hp)⟩

theorem SpellsTags.opening {tokens : List Token} {tags : List Tag} (h : SpellsTags tokens tags)
    {o : Opening} (ho : .opening o ∈ tags) :
    ∃ t ∈ tokens, o.name = t.text ∧ o.call.head.region = t.region := by
  induction h with
  | nil => cases ho
  | @cons used rest part tags hp _ ih =>
    rcases List.mem_append.mp ho with hm | hm
    · cases hp with
      | raw _ => simp at hm
      | comment _ => simp at hm
      | rawOutput _ _ _ => simp at hm
      | tag _ _ ht =>
        simp only [Option.toList_some, List.mem_singleton] at hm
        subst hm
        cases ht with
        | opening _ hs =>
          obtain ⟨t, hm, ht⟩ := SpellsHead.token hs
          exact ⟨t, by simp [hm], ht⟩
        | negated _ _ hs =>
          obtain ⟨t, hm, ht⟩ := SpellsHead.token hs
          exact ⟨t, by simp [hm], ht⟩
    · obtain ⟨t, hm, ht⟩ := ih hm
      exact ⟨t, List.mem_append_right _ hm, ht⟩

def Opening.headText (source : List Char) (o : Opening) : List Char :=
  o.call.head.region.slice source

theorem headText_eq_name {source : List Char} {tags : List Tag} (h : SpellsTags (Token.ofSource source) tags)
    {o : Opening} (ho : .opening o ∈ tags) : o.headText source = o.name := by
  obtain ⟨t, hm, hname, hregion⟩ := h.opening ho
  rw [Opening.headText, hregion, Region.slice, Token.slice?_region hm, hname]
  rfl

theorem Template.compile_ok_iff {name : Option String} {source : String} {t : Template} :
    Template.compile name source = .ok t ↔
      t.name = name ∧ t.source = source ∧ Node.ofSource source.toList = .ok t.nodes := by
  obtain ⟨name', source', nodes⟩ := t
  unfold Template.compile
  cases hn : Node.ofSource source.toList with
  | error e => simp
  | ok nodes' =>
    simp only [Except.ok.injEq, Template.mk.injEq]
    constructor
    · rintro ⟨rfl, rfl, rfl⟩; exact ⟨rfl, rfl, rfl⟩
    · rintro ⟨rfl, rfl, rfl⟩; exact ⟨rfl, rfl, rfl⟩

theorem Template.compile_of_tags {source : String} {tags : List Tag} {nodes : List Node}
    (htags : SpellsTags (Token.ofSource source.toList) tags) (hscope : SpellsScope Opening.name tags nodes)
    (name : Option String) : Template.compile name source = .ok ⟨name, source, nodes⟩ :=
  Template.compile_ok_iff.mpr ⟨rfl, rfl, Node.ofSource_eq_iff.mpr ⟨tags, htags, hscope⟩⟩

theorem Template.exists_of_isOk {name : Option String} {source : String} (h : (Template.compile name source).isOk) :
    ∃ t, Template.compile name source = .ok t := by
  cases ht : Template.compile name source with
  | ok t => exact ⟨t, rfl⟩
  | error e =>
    rw [ht] at h
    cases h

/-- A source whose tags can each be read is a template exactly if the tags are a
scope written out, and its tree is that scope. -/
theorem Template.compile_eq_ok_iff_scope {source : String} {tags : List Tag}
    (h : Tag.ofSource source.toList = (tags, none)) (name : Option String) (t : Template) :
    Template.compile name source = .ok t ↔
      t.name = name ∧ t.source = source ∧ SpellsScope (Opening.headText source.toList) tags t.nodes := by
  have htags := Tag.ofSource_eq_iff.mp h
  have hscope : Node.ofSource source.toList = .ok t.nodes ↔
      SpellsScope (Opening.headText source.toList) tags t.nodes := by
    rw [Node.ofSource_eq_iff]
    constructor
    · rintro ⟨tags', htags', hs⟩
      obtain ⟨rfl, -⟩ := Prod.mk.inj ((Tag.ofSource_eq_iff.mpr htags').symm.trans h)
      exact hs.rename fun o ho => headText_eq_name htags ho
    · intro hs
      exact ⟨tags, htags, hs.rename fun o ho => (headText_eq_name htags ho).symm⟩
  rw [Template.compile_ok_iff, hscope]

def elseChain : String :=
  tagText "#a" ++ "x" ++ tagText "else b" ++ "y" ++ tagText "^" ++ "z" ++ tagText "/a"

theorem Template.compile_else_chain :
    ∃ tags, Tag.ofSource elseChain.toList = (tags, none) ∧ ∃ t, Template.compile none elseChain = .ok t ∧
      SpellsScope (Opening.headText elseChain.toList) tags t.nodes := by
  have hread : (Tag.ofSource elseChain.toList).2.isNone := by decide +kernel
  have hok : (Template.compile none elseChain).isOk := by decide +kernel
  have h : Tag.ofSource elseChain.toList = (_, none) := Prod.ext rfl (Option.isNone_iff_eq_none.mp hread)
  obtain ⟨t, ht⟩ := Template.exists_of_isOk hok
  exact ⟨_, h, t, ht, ((Template.compile_eq_ok_iff_scope h none t).mp ht).2.2⟩

end Curly
