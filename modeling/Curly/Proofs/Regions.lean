import Curly.Proofs.Concat
import Curly.Proofs.Scan.Markers

/-!
# Regions of a tree

The regions in a compiled tree are those of parts of its source. Each one holds
the regions of what it is made of, in order, and the texts and tags of the tree
lie one behind another (`Template.compile_regions`). So a region always has a text.
-/

namespace Curly

/-! ## Regions within a source -/

namespace Region

/-- The bytes before this one are whole characters. -/
def IsBoundary (source : List Char) (n : Nat) : Prop :=
  ∃ a b, source = a ++ b ∧ byteLength a = n

structure Proper (source : List Char) (r : Region) : Prop where
  lt : r.start < r.stop
  le : r.stop ≤ byteLength source
  start : IsBoundary source r.start
  stop : IsBoundary source r.stop

/-- The parts lie within the region, one behind another. -/
def Holds (r : Region) (parts : List Region) : Prop :=
  (∀ p ∈ parts, r.start ≤ p.start ∧ p.stop ≤ r.stop) ∧ parts.Pairwise fun p q => p.stop ≤ q.start

/-- The region is that of something between two pairs of braces. -/
def IsTag (source : List Char) (r : Region) : Prop :=
  r.Proper source ∧ ∃ inner, r.slice? source = some ('{' :: '{' :: (inner ++ ['}', '}']))

variable {source : List Char} {r r' : Region}

theorem Proper.combine (h : r.Proper source) (h' : r'.Proper source) : (r.combine r').Proper source := by
  have hlt := h.lt
  have hle := h.le
  have hle' := h'.le
  refine ⟨?_, ?_, ?_, ?_⟩
  · simp only [Region.combine]
    omega
  · simp only [Region.combine]
    omega
  · rw [Region.combine]
    rcases Nat.le_total r.start r'.start with hs | hs
    · rw [Nat.min_eq_left hs]
      exact h.start
    · rw [Nat.min_eq_right hs]
      exact h'.start
  · rw [Region.combine]
    rcases Nat.le_total r.stop r'.stop with hs | hs
    · rw [Nat.max_eq_right hs]
      exact h'.stop
    · rw [Nat.max_eq_left hs]
      exact h.stop

theorem Fits.proper (h : r.Fits source) (hlt : r.start < r.stop) : r.Proper source := by
  obtain ⟨a, b, c, rfl, rfl⟩ := h
  refine ⟨hlt, ?_, ⟨a, b ++ c, rfl, rfl⟩, ⟨a ++ b, c, (List.append_assoc a b c).symm, byteLength_append a b⟩⟩
  simp only [byteLength_append]
  omega

theorem Proper.exists_text (h : r.Proper source) :
    ∃ a text c, source = a ++ (text ++ c) ∧ r = ⟨byteLength a, byteLength a + byteLength text⟩ ∧ text ≠ [] ∧
      r.slice? source = some text := by
  obtain ⟨a, b, hab, ha⟩ := h.start
  obtain ⟨u, c, huc, hu⟩ := h.stop
  have hlt := h.lt
  obtain ⟨text, rfl, rfl⟩ := exists_append_of_byteLength_le (hab.symm.trans huc) (by omega)
  rw [byteLength_append] at hu
  have hr : r = ⟨byteLength a, byteLength a + byteLength text⟩ := by
    cases r
    simp_all
  refine ⟨a, text, c, hab, hr, ?_, ?_⟩
  · rintro rfl
    simp only [byteLength] at hu
    omega
  · rw [hab, hr, slice?_append]

end Region

/-! ## Regions in trees -/

def Path.WellPlaced (source : List Char) (p : Path) : Prop :=
  p.region.Proper source ∧ p.region.slice? source = some p.text

def Operands.parts (o : Operands) : List Region :=
  o.positional.map Expression.region ++ o.named.map fun e => e.2.region

mutual

def Expression.WellPlaced (source : List Char) : Expression → Prop
  | .literal _ region => region.Proper source
  | .path p => p.WellPlaced source
  | .call callee o region =>
    region.Proper source ∧ region.Holds (callee.region :: o.parts) ∧ callee.WellPlaced source ∧ o.WellPlaced source

def Operands.WellPlaced (source : List Char) : Operands → Prop
  | ⟨positional, named⟩ => WellPlacedAll source positional ∧ WellPlacedNamed source named

def WellPlacedAll (source : List Char) : List Expression → Prop
  | [] => True
  | e :: es => e.WellPlaced source ∧ WellPlacedAll source es

def WellPlacedNamed (source : List Char) : List (String × Expression) → Prop
  | [] => True
  | (_, e) :: es => e.WellPlaced source ∧ WellPlacedNamed source es

end

/-- The region of a call holds those of its head and its operands. -/
def Call.WellPlaced {Head : Type} (source : List Char) (region : Head → Region) (placed : Head → Prop)
    (c : Call Head) : Prop :=
  c.region.Proper source ∧ c.region.Holds (region c.head :: c.operands.parts) ∧ placed c.head ∧
    c.operands.WellPlaced source

def PartialName.WellPlaced (source : List Char) : PartialName → Prop
  | .fixed _ => True
  | .computed call => call.WellPlaced source Path.region (Path.WellPlaced source)

def PartialName.parts : PartialName → List Region
  | .fixed _ => []
  | .computed call => [call.region]

mutual

/-- A text is that at its region. The region of a tag begins and ends with braces, and holds that of its call, or
of a computed name and a context. -/
def Node.WellPlaced (source : List Char) : Node → Prop
  | .raw text region => region.Proper source ∧ region.slice? source = some text.toList
  | .output call _ region =>
    region.IsTag source ∧ region.Holds [call.region] ∧
      call.WellPlaced source Expression.region (Expression.WellPlaced source)
  | .block call _ body inverse region =>
    region.IsTag source ∧ region.Holds [call.region] ∧ call.WellPlaced source Path.region (Path.WellPlaced source) ∧
      WellPlacedNodes source body ∧ WellPlacedBranch source inverse
  | .inclusion name context region =>
    region.IsTag source ∧ region.Holds (name.parts ++ context.toList.map Expression.region) ∧
      name.WellPlaced source ∧ ∀ e ∈ context, e.WellPlaced source

def WellPlacedNodes (source : List Char) : List Node → Prop
  | [] => True
  | node :: nodes => node.WellPlaced source ∧ WellPlacedNodes source nodes

def WellPlacedBranch (source : List Char) : Option (List Node) → Prop
  | none => True
  | some nodes => WellPlacedNodes source nodes

end

mutual

/-- The regions of texts and tags: a block's own tag, then its body, then its inverse. -/
def Node.spots : Node → List Region
  | .raw _ region | .output _ _ region | .inclusion _ _ region => [region]
  | .block _ _ body inverse region => region :: (spotsOfNodes body ++ spotsOfBranch inverse)

def spotsOfNodes : List Node → List Region
  | [] => []
  | node :: nodes => node.spots ++ spotsOfNodes nodes

def spotsOfBranch : Option (List Node) → List Region
  | none => []
  | some nodes => spotsOfNodes nodes

end

/-! ## Tokens -/

/-- The tokens are parts of the source, one behind another. -/
structure LaidOut (source : List Char) (ts : List Token) : Prop where
  proper : ∀ t ∈ ts, t.region.Proper source
  text : ∀ t ∈ ts, t.region.slice? source = some t.text
  ordered : ts.Pairwise fun t u => t.region.stop ≤ u.region.start

theorem laidOut_ofSource (source : List Char) : LaidOut source (Token.ofSource source) where
  proper _ ht := (Token.fits ht).proper (Token.slice?_of_mem ht).1
  text _ ht := (Token.slice?_of_mem ht).2
  ordered := Lexeme.tokens_pairwise 0 _

theorem LaidOut.append {source : List Char} {a b : List Token} (h : LaidOut source (a ++ b)) :
    LaidOut source a ∧ LaidOut source b ∧ ∀ t ∈ a, ∀ u ∈ b, t.region.stop ≤ u.region.start := by
  obtain ⟨ha, hb, hab⟩ := List.pairwise_append.mp h.ordered
  refine ⟨⟨?_, ?_, ha⟩, ⟨?_, ?_, hb⟩, hab⟩
  · intro t ht
    exact h.proper t (List.mem_append_left _ ht)
  · intro t ht
    exact h.text t (List.mem_append_left _ ht)
  · intro t ht
    exact h.proper t (List.mem_append_right _ ht)
  · intro t ht
    exact h.text t (List.mem_append_right _ ht)

theorem LaidOut.cons {source : List Char} {t : Token} {ts : List Token} (h : LaidOut source (t :: ts)) :
    LaidOut source ts ∧ ∀ u ∈ ts, t.region.stop ≤ u.region.start := by
  obtain ⟨-, hts, hu⟩ := LaidOut.append (a := [t]) h
  exact ⟨hts, hu t (List.mem_singleton_self t)⟩

/-! ## Where parts of tags lie -/

/-- The region reaches no further than the tokens do, on neither side. -/
structure Region.Among (ts : List Token) (r : Region) : Prop where
  lower : ∀ n, (∀ t ∈ ts, n ≤ t.region.start) → n ≤ r.start
  upper : ∀ n, (∀ t ∈ ts, t.region.stop ≤ n) → r.stop ≤ n

namespace Region.Among

variable {ts us : List Token} {r r' : Region}

theorem of_mem {t : Token} (h : t ∈ ts) : t.region.Among ts :=
  ⟨fun _ hn => hn t h, fun _ hn => hn t h⟩

theorem mono (h : r.Among ts) (hsub : ∀ t ∈ ts, t ∈ us) : r.Among us := by
  refine ⟨?_, ?_⟩
  · intro n hn
    exact h.lower n fun t ht => hn t (hsub t ht)
  · intro n hn
    exact h.upper n fun t ht => hn t (hsub t ht)

theorem combine (h : r.Among ts) (h' : r'.Among ts) : (r.combine r').Among ts := by
  refine ⟨?_, ?_⟩
  · intro n hn
    exact Nat.le_min.mpr ⟨h.lower n hn, h'.lower n hn⟩
  · intro n hn
    exact Nat.max_le.mpr ⟨h.upper n hn, h'.upper n hn⟩

theorem foldl (h : r.Among ts) {rs : List Region} (hrs : ∀ q ∈ rs, q.Among ts) :
    (rs.foldl Region.combine r).Among ts := by
  induction rs generalizing r with
  | nil => exact h
  | cons q rs ih =>
    obtain ⟨hq, hrs⟩ := List.forall_mem_cons.mp hrs
    exact ih (h.combine hq) hrs

/-- What lies among tokens is before what lies among later ones. -/
theorem le (h : r.Among ts) (h' : r'.Among us) (hlt : ∀ t ∈ ts, ∀ u ∈ us, t.region.stop ≤ u.region.start) :
    r.stop ≤ r'.start := by
  apply h.upper
  intro t ht
  apply h'.lower
  intro u hu
  exact hlt t ht u hu

/-- What lies among tokens is within the region of those around them. -/
theorem between {source : List Char} {first last : Token} (h : r.Among ts)
    (hl : LaidOut source (first :: (ts ++ [last]))) :
    (first.region.combine last.region).start ≤ r.start ∧ r.stop ≤ (first.region.combine last.region).stop := by
  have hfirst := (hl.proper first (List.mem_cons_self ..)).lt
  have hlast := (hl.proper last (by simp)).lt
  obtain ⟨hrest, hbehind⟩ := hl.cons
  obtain ⟨-, -, hbefore⟩ := hrest.append
  have hlower : first.region.stop ≤ r.start := by
    apply h.lower
    intro t ht
    exact hbehind t (List.mem_append_left _ ht)
  have hupper : r.stop ≤ last.region.start := by
    apply h.upper
    intro t ht
    exact hbefore t ht last (List.mem_singleton_self last)
  simp only [Region.combine]
  omega

end Region.Among

theorem Operands.parts_positional (e : Expression) (es : List Expression) (ns : List (String × Expression)) :
    Operands.parts ⟨e :: es, ns⟩ = e.region :: Operands.parts ⟨es, ns⟩ := rfl

theorem Operands.parts_named (name : String) (e : Expression) (ns : List (String × Expression)) :
    Operands.parts ⟨[], (name, e) :: ns⟩ = e.region :: Operands.parts ⟨[], ns⟩ := rfl

theorem Reading.path_region {t : Token} {p : Path} (h : path t = .ok p) : p.text = t.text ∧ p.region = t.region :=
  Path.ofText_text (path_ok h)

theorem Reading.atom_cases {t : Token} {e : Expression} (h : atom? t = some e) :
    (∃ p, e = .path p ∧ path t = .ok p) ∨ ∃ value, e = .literal value t.region := by
  unfold atom? at h
  cases hk : t.kind <;> simp only [hk, reduceCtorEq, Option.some.injEq] at h
  case path =>
    cases hp : path t with
    | error d => simp [hp, Except.toOption] at h
    | ok p =>
      rw [hp] at h
      exact .inl ⟨p, (Option.some.inj h).symm, rfl⟩
  case string =>
    obtain ⟨s, -, rfl⟩ := Option.map_eq_some_iff.mp h
    exact .inr ⟨_, rfl⟩
  case number =>
    obtain ⟨n, -, rfl⟩ := Option.map_eq_some_iff.mp h
    exact .inr ⟨_, rfl⟩
  all_goals exact .inr ⟨_, h.symm⟩

theorem Reading.atom_region {t : Token} {e : Expression} (h : atom? t = some e) : e.region = t.region := by
  rcases atom_cases h with ⟨p, rfl, hp⟩ | ⟨value, rfl⟩
  · exact (path_region hp).2
  · rfl

theorem SpellsGroup.among {used : List Token} {c : Call Path} (h : SpellsGroup used c) : c.region.Among used := by
  cases h with
  | mk _ _ _ _ =>
    apply Region.Among.combine
    · exact .of_mem (List.mem_cons_self ..)
    · exact .of_mem (by simp)

theorem SpellsExpression.among {used : List Token} {e : Expression} (h : SpellsExpression used e) :
    e.region.Among used := by
  cases h with
  | atom ha =>
    rw [Reading.atom_region ha]
    exact .of_mem (List.mem_singleton_self _)
  | call hc => exact hc.among

theorem SpellsOperands.among {used : List Token} {o : Operands} (h : SpellsOperands used o) :
    ∀ r ∈ o.parts, r.Among used := by
  cases h with
  | nil =>
    intro r hr
    cases hr
  | positional he ho =>
    rw [Operands.parts_positional, List.forall_mem_cons]
    refine ⟨he.among.mono fun t ht => List.mem_append_left _ ht, ?_⟩
    intro r hr
    exact (ho.among r hr).mono fun t ht => List.mem_append_right _ ht
  | named _ _ _ _ he ho =>
    rw [Operands.parts_named, List.forall_mem_cons]
    refine ⟨he.among.mono fun t ht => by simp [ht], ?_⟩
    intro r hr
    exact (ho.among r hr).mono fun t ht => by simp [ht]

theorem SpellsCall.parts_among {used : List Token} {c : Call Expression} (h : SpellsCall used c) :
    ∀ r ∈ c.head.region :: c.operands.parts, r.Among used := by
  cases h with
  | mk he ho =>
    rw [List.forall_mem_cons]
    refine ⟨he.among.mono fun t ht => List.mem_append_left _ ht, ?_⟩
    intro r hr
    exact (ho.among r hr).mono fun t ht => List.mem_append_right _ ht

theorem SpellsCall.region_eq {used : List Token} {c : Call Expression} (h : SpellsCall used c) :
    c.region = c.operands.parts.foldl Region.combine c.head.region := by
  cases h
  rfl

theorem SpellsCall.among {used : List Token} {c : Call Expression} (h : SpellsCall used c) :
    c.region.Among used := by
  obtain ⟨hhead, hoperands⟩ := List.forall_mem_cons.mp h.parts_among
  rw [h.region_eq]
  exact hhead.foldl hoperands

/-! ## Expressions and calls -/

section
variable {source : List Char}

theorem Region.Proper.foldl {r : Region} (h : r.Proper source) {rs : List Region} (hrs : ∀ q ∈ rs, q.Proper source) :
    (rs.foldl Region.combine r).Proper source := by
  induction rs generalizing r with
  | nil => exact h
  | cons q rs ih =>
    obtain ⟨hq, hrs⟩ := List.forall_mem_cons.mp hrs
    exact ih (h.combine hq) hrs

/-- Regions that are put together lie within the whole. -/
theorem Region.foldl_combine (rs : List Region) : ∀ r : Region, ∀ p ∈ r :: rs,
    (rs.foldl Region.combine r).start ≤ p.start ∧ p.stop ≤ (rs.foldl Region.combine r).stop := by
  induction rs with
  | nil =>
    intro r p hp
    rw [List.mem_singleton.mp hp]
    exact ⟨Nat.le_refl _, Nat.le_refl _⟩
  | cons q rs ih =>
    intro r p hp
    have hwhole := ih (r.combine q) (r.combine q) (List.mem_cons_self ..)
    rw [List.foldl_cons]
    simp only [List.mem_cons] at hp
    rcases hp with rfl | rfl | hp
    · simp only [Region.combine] at hwhole ⊢
      omega
    · simp only [Region.combine] at hwhole ⊢
      omega
    · exact ih (r.combine q) p (List.mem_cons_of_mem _ hp)

theorem Expression.WellPlaced.proper {e : Expression} (h : e.WellPlaced source) : e.region.Proper source := by
  cases e with
  | literal value region =>
    rw [Expression.WellPlaced] at h
    exact h
  | path p =>
    rw [Expression.WellPlaced] at h
    exact h.1
  | call callee o region =>
    rw [Expression.WellPlaced] at h
    exact h.1

/-- Operands with their regions, which lie one behind another. -/
structure Operands.Sound (source : List Char) (o : Operands) : Prop where
  wellPlaced : o.WellPlaced source
  proper : ∀ r ∈ o.parts, r.Proper source
  ordered : o.parts.Pairwise fun p q => p.stop ≤ q.start

theorem Operands.Sound.nil : Operands.Sound source ⟨[], []⟩ := by
  refine ⟨?_, ?_, .nil⟩
  · rw [Operands.WellPlaced, WellPlacedAll, WellPlacedNamed]
    exact ⟨trivial, trivial⟩
  · intro r hr
    cases hr

theorem Operands.Sound.positional {e : Expression} {es : List Expression} {ns : List (String × Expression)}
    (he : e.WellPlaced source) (ho : Operands.Sound source ⟨es, ns⟩)
    (hlt : ∀ r ∈ Operands.parts ⟨es, ns⟩, e.region.stop ≤ r.start) : Operands.Sound source ⟨e :: es, ns⟩ := by
  have hplaced := ho.wellPlaced
  rw [Operands.WellPlaced] at hplaced
  refine ⟨?_, ?_, ?_⟩
  · rw [Operands.WellPlaced, WellPlacedAll]
    exact ⟨⟨he, hplaced.1⟩, hplaced.2⟩
  · rw [Operands.parts_positional, List.forall_mem_cons]
    exact ⟨he.proper, ho.proper⟩
  · rw [Operands.parts_positional, List.pairwise_cons]
    exact ⟨hlt, ho.ordered⟩

theorem Operands.Sound.named {name : String} {e : Expression} {ns : List (String × Expression)}
    (he : e.WellPlaced source) (ho : Operands.Sound source ⟨[], ns⟩)
    (hlt : ∀ r ∈ Operands.parts ⟨[], ns⟩, e.region.stop ≤ r.start) :
    Operands.Sound source ⟨[], (name, e) :: ns⟩ := by
  have hplaced := ho.wellPlaced
  rw [Operands.WellPlaced] at hplaced
  refine ⟨?_, ?_, ?_⟩
  · rw [Operands.WellPlaced, WellPlacedNamed]
    exact ⟨hplaced.1, he, hplaced.2⟩
  · rw [Operands.parts_named, List.forall_mem_cons]
    exact ⟨he.proper, ho.proper⟩
  · rw [Operands.parts_named, List.pairwise_cons]
    exact ⟨hlt, ho.ordered⟩

mutual

theorem SpellsExpression.wellPlaced {used : List Token} {e : Expression} (h : SpellsExpression used e)
    (hl : LaidOut source used) : e.WellPlaced source := by
  match h with
  | @SpellsExpression.atom t _ ha =>
    have hproper := hl.proper t (List.mem_singleton_self t)
    rcases Reading.atom_cases ha with ⟨p, rfl, hp⟩ | ⟨value, rfl⟩
    · obtain ⟨htext, hregion⟩ := Reading.path_region hp
      rw [Expression.WellPlaced, Path.WellPlaced, htext, hregion]
      exact ⟨hproper, hl.text t (List.mem_singleton_self t)⟩
    · rw [Expression.WellPlaced]
      exact hproper
  | .call hc =>
    rw [Expression.WellPlaced]
    exact hc.wellPlaced hl

theorem SpellsGroup.wellPlaced {used : List Token} {c : Call Path} (h : SpellsGroup used c)
    (hl : LaidOut source used) : c.WellPlaced source Path.region (Path.WellPlaced source) := by
  match h with
  | @SpellsGroup.mk used opening closing p o region _ _ _ hc =>
    obtain ⟨-, hholds, hp, ho⟩ := hc.wellPlaced hl.cons.1.append.1
    rw [Expression.WellPlaced] at hp
    refine ⟨?_, ⟨?_, hholds.2⟩, hp, ho⟩
    · exact (hl.proper opening (List.mem_cons_self ..)).combine (hl.proper closing (by simp))
    · intro r hr
      exact (hc.parts_among r hr).between hl

theorem SpellsCall.wellPlaced {used : List Token} {c : Call Expression} (h : SpellsCall used c)
    (hl : LaidOut source used) : c.WellPlaced source Expression.region (Expression.WellPlaced source) := by
  match h with
  | @SpellsCall.mk first rest head o he ho =>
    obtain ⟨hfirst, hrest, hlt⟩ := hl.append
    have hhead := he.wellPlaced hfirst
    have hoperands := ho.wellPlaced hrest
    refine ⟨hhead.proper.foldl hoperands.proper, ⟨Region.foldl_combine _ _, ?_⟩, hhead, hoperands.wellPlaced⟩
    rw [List.pairwise_cons]
    refine ⟨?_, hoperands.ordered⟩
    intro r hr
    exact he.among.le (ho.among r hr) hlt

theorem SpellsOperands.wellPlaced {used : List Token} {o : Operands} (h : SpellsOperands used o)
    (hl : LaidOut source used) : o.Sound source := by
  match h with
  | .nil => exact .nil
  | .positional he ho =>
    obtain ⟨hfirst, hrest, hlt⟩ := hl.append
    apply Operands.Sound.positional (he.wellPlaced hfirst) (ho.wellPlaced hrest)
    intro r hr
    exact he.among.le (ho.among r hr) hlt
  | .named _ _ _ _ he ho =>
    obtain ⟨hfirst, hrest, hlt⟩ := hl.cons.1.cons.1.append
    apply Operands.Sound.named (he.wellPlaced hfirst) (ho.wellPlaced hrest)
    intro r hr
    exact he.among.le (ho.among r hr) hlt

end

end

/-! ## Tags -/

section
variable {source : List Char}

/-- Two markers, one behind the other, are those of a tag. -/
theorem Region.isTag_combine {first last : Token} {ts : List Token} (hl : LaidOut source (first :: (ts ++ [last])))
    (hfirst : ['{', '{'] <+: first.text) (hlast : ['}', '}'] <:+ last.text) :
    (first.region.combine last.region).IsTag source := by
  have hf : first ∈ first :: (ts ++ [last]) := List.mem_cons_self ..
  have hk : last ∈ first :: (ts ++ [last]) := by simp
  have hle := hl.cons.2 last (by simp)
  refine ⟨(hl.proper first hf).combine (hl.proper last hk), ?_⟩
  obtain ⟨a, text, c, hsource, hr, -, htext⟩ := (hl.proper first hf).exists_text
  obtain ⟨a', text', c', hsource', hr', -, htext'⟩ := (hl.proper last hk).exists_text
  obtain rfl : text = first.text := Option.some.inj (htext.symm.trans (hl.text first hf))
  obtain rfl : text' = last.text := Option.some.inj (htext'.symm.trans (hl.text last hk))
  rw [hr, hr'] at hle ⊢
  rw [← List.append_assoc] at hsource
  obtain ⟨middle, rfl, -⟩ := exists_append_of_byteLength_le (hsource.symm.trans hsource')
    (by rw [byteLength_append]; exact hle)
  obtain ⟨opening, hopening⟩ := hfirst
  obtain ⟨closing, hclosing⟩ := hlast
  refine ⟨opening ++ (middle ++ closing), ?_⟩
  have hwhole : source = a ++ ((first.text ++ (middle ++ last.text)) ++ c') := by
    rw [hsource']
    simp only [List.append_assoc]
  have hregion : Region.combine ⟨byteLength a, byteLength a + byteLength first.text⟩
      ⟨byteLength (a ++ first.text ++ middle), byteLength (a ++ first.text ++ middle) + byteLength last.text⟩ =
      ⟨byteLength a, byteLength a + byteLength (first.text ++ (middle ++ last.text))⟩ := by
    simp only [Region.combine, byteLength_append, Region.mk.injEq]
    omega
  rw [hregion, hwhole, Region.slice?_append, ← hopening, ← hclosing]
  simp only [List.cons_append, List.nil_append, List.append_assoc]

theorem Region.Holds.singleton {r p : Region} (h : r.start ≤ p.start ∧ p.stop ≤ r.stop) : r.Holds [p] := by
  refine ⟨?_, List.pairwise_singleton ..⟩
  intro q hq
  rw [List.mem_singleton.mp hq]
  exact h

theorem SpellsHead.wellPlaced {used : List Token} {c : Call Path} (h : SpellsHead used c) (hl : LaidOut source used) :
    c.WellPlaced source Path.region (Path.WellPlaced source) := by
  obtain ⟨hregion, hholds, hp, ho⟩ := SpellsCall.wellPlaced h hl
  rw [Expression.WellPlaced] at hp
  exact ⟨hregion, hholds, hp, ho⟩

def Opening.WellPlaced (source : List Char) (o : Opening) : Prop :=
  o.region.IsTag source ∧ o.region.Holds [o.call.region] ∧ o.call.WellPlaced source Path.region (Path.WellPlaced source)

def Tag.WellPlaced (source : List Char) : Tag → Prop
  | .node n => n.WellPlaced source
  | .opening o | .alternativeOpening _ o => o.WellPlaced source
  | .alternative _ | .closing _ _ => True

/-- What a tag adds to the regions of texts and tags in its tree. -/
def Tag.spots : Tag → List Region
  | .node n => n.spots
  | .opening o | .alternativeOpening _ o => [o.region]
  | .alternative _ | .closing _ _ => []

theorem SpellsPartialName.wellPlaced {used : List Token} {name : PartialName} (h : SpellsPartialName used name)
    (hl : LaidOut source used) : name.WellPlaced source ∧ ∀ r ∈ name.parts, r.Among used := by
  cases h with
  | path hk => exact ⟨trivial, by simp [PartialName.parts]⟩
  | string hk hs => exact ⟨trivial, by simp [PartialName.parts]⟩
  | computed hc =>
    refine ⟨hc.wellPlaced hl, ?_⟩
    intro r hr
    rw [List.mem_singleton.mp hr]
    exact hc.among

theorem SpellsContext.wellPlaced {used : List Token} {context : Option Expression} (h : SpellsContext used context)
    (hl : LaidOut source used) :
    (∀ e ∈ context, e.WellPlaced source) ∧ ∀ r ∈ context.toList.map Expression.region, r.Among used := by
  cases h with
  | none => exact ⟨by simp, by simp⟩
  | some he =>
    refine ⟨?_, ?_⟩
    · intro e hm
      obtain rfl := Option.some.inj hm
      exact he.wellPlaced hl
    · intro r hr
      rw [List.mem_singleton.mp hr]
      exact he.among

section
variable {marker closing : Token} {used : List Token}

theorem SpellsHead.opening {first : Token} {c : Call Path} (h : SpellsHead used c) (negated : Bool)
    (hl : LaidOut source (marker :: (first :: used ++ [closing])))
    (htag : (marker.region.combine closing.region).IsTag source) :
    Opening.WellPlaced source ⟨c, negated, marker.region.combine closing.region⟩ := by
  refine ⟨htag, .singleton ?_, h.wellPlaced hl.cons.1.append.1.cons.1⟩
  exact Region.Among.between ((SpellsCall.among h).mono fun t ht => List.mem_cons_of_mem first ht) hl

theorem SpellsTag.wellPlaced {tag : Tag} (h : SpellsTag marker.region (marker.region.combine closing.region) used tag)
    (hl : LaidOut source (marker :: (used ++ [closing])))
    (htag : (marker.region.combine closing.region).IsTag source) :
    tag.WellPlaced source ∧ (tag.spots = [] ∨ tag.spots = [marker.region.combine closing.region]) := by
  cases h with
  | output hc =>
    refine ⟨?_, .inr ?_⟩
    · rw [Tag.WellPlaced, Node.WellPlaced]
      exact ⟨htag, .singleton (hc.among.between hl), hc.wellPlaced hl.cons.1.append.1⟩
    · rw [Tag.spots, Node.spots]
  | opening hk hc => exact ⟨SpellsHead.opening hc false hl htag, .inr rfl⟩
  | negated hk hempty hc => exact ⟨SpellsHead.opening hc true hl htag, .inr rfl⟩
  | caret hk => exact ⟨trivial, .inl rfl⟩
  | alternative hk => exact ⟨trivial, .inl rfl⟩
  | alternativeOpening hk hc => exact ⟨SpellsHead.opening hc false hl htag, .inr rfl⟩
  | closing hk => exact ⟨trivial, .inl rfl⟩
  | closingName hk hn => exact ⟨trivial, .inl rfl⟩
  | @inclusion angle used rest name context hk hn hc =>
    obtain ⟨hused, hrest, hlt⟩ := hl.cons.1.append.1.cons.1.append
    obtain ⟨hname, hregions⟩ := hn.wellPlaced hused
    obtain ⟨hcontext, hregion⟩ := hc.wellPlaced hrest
    refine ⟨?_, .inr ?_⟩
    · rw [Tag.WellPlaced, Node.WellPlaced]
      refine ⟨htag, ⟨?_, ?_⟩, hname, hcontext⟩
      · intro r hr
        rcases List.mem_append.mp hr with hr | hr
        · exact ((hregions r hr).mono fun t ht => by simp [ht]).between hl
        · exact ((hregion r hr).mono fun t ht => by simp [ht]).between hl
      · rw [List.pairwise_append]
        refine ⟨?_, ?_, ?_⟩
        · cases name <;> simp [PartialName.parts]
        · cases context <;> simp
        · intro r hr r' hr'
          exact (hregions r hr).le (hregion r' hr') hlt
    · rw [Tag.spots, Node.spots]

end

theorem SpellsPart.wellPlaced {used : List Token} {part : Option Tag} (h : SpellsPart used part)
    (hl : LaidOut source used) (hmarked : ∀ t ∈ used, Lexeme.Marked t.kind t.text) :
    ∀ tag ∈ part, tag.WellPlaced source ∧ (tag.spots = [] ∨ ∃ r, tag.spots = [r] ∧ r.Among used) := by
  cases h with
  | @raw t hk =>
    intro tag hm
    obtain rfl := Option.some.inj hm
    have ht := List.mem_singleton_self t
    refine ⟨?_, .inr ⟨t.region, ?_, .of_mem ht⟩⟩
    · rw [Tag.WellPlaced, Node.WellPlaced, String.toList_ofList]
      exact ⟨hl.proper t ht, hl.text t ht⟩
    · rw [Tag.spots, Node.spots]
  | comment hk =>
    intro tag hm
    cases hm
  | @rawOutput marker closing used c hk hk' hc =>
    intro tag hm
    obtain rfl := Option.some.inj hm
    have hopens := (hmarked marker (List.mem_cons_self ..)).1 (by rw [hk]; rfl)
    have hcloses := (hmarked closing (by simp)).2 (by rw [hk', rawCloser]; split <;> simp)
    have htag := Region.isTag_combine hl hopens hcloses
    refine ⟨?_, .inr ⟨marker.region.combine closing.region, ?_, ?_⟩⟩
    · rw [Tag.WellPlaced, Node.WellPlaced]
      exact ⟨htag, .singleton (hc.among.between hl), hc.wellPlaced hl.cons.1.append.1⟩
    · rw [Tag.spots, Node.spots]
    · exact .combine (.of_mem (List.mem_cons_self ..)) (.of_mem (by simp))
  | @tag marker closing used tag hk hk' ht =>
    intro tag' hm
    obtain rfl := Option.some.inj hm
    have hopens := (hmarked marker (List.mem_cons_self ..)).1 (by rw [hk]; rfl)
    have hcloses := (hmarked closing (by simp)).2 (by simp [hk'])
    obtain ⟨hplaced, hspots⟩ := ht.wellPlaced hl (Region.isTag_combine hl hopens hcloses)
    refine ⟨hplaced, hspots.imp_right fun hs => ⟨_, hs, ?_⟩⟩
    exact .combine (.of_mem (List.mem_cons_self ..)) (.of_mem (by simp))

theorem SpellsTags.wellPlaced {ts : List Token} {tags : List Tag} (h : SpellsTags ts tags) (hl : LaidOut source ts)
    (hmarked : ∀ t ∈ ts, Lexeme.Marked t.kind t.text) :
    (∀ tag ∈ tags, tag.WellPlaced source) ∧ (tags.flatMap Tag.spots).Pairwise (fun r r' => r.stop ≤ r'.start) ∧
      ∀ r ∈ tags.flatMap Tag.spots, r.Among ts := by
  induction h with
  | nil => simp
  | @cons used rest part tags hp _ ih =>
    obtain ⟨hused, hrest, hlt⟩ := hl.append
    obtain ⟨hmused, hmrest⟩ := List.forall_mem_append.mp hmarked
    obtain ⟨hplaced, hordered, hamong⟩ := ih hrest hmrest
    have hpart := hp.wellPlaced hused hmused
    have hrestAmong : ∀ r ∈ tags.flatMap Tag.spots, r.Among (used ++ rest) := fun r hr =>
      (hamong r hr).mono fun t ht => List.mem_append_right _ ht
    cases part with
    | none => exact ⟨hplaced, hordered, hrestAmong⟩
    | some tag =>
      obtain ⟨htag, hspots⟩ := hpart tag rfl
      simp only [Option.toList_some, List.singleton_append, List.flatMap_cons]
      refine ⟨List.forall_mem_cons.mpr ⟨htag, hplaced⟩, ?_⟩
      rcases hspots with hnil | ⟨r, hr, hramong⟩
      · rw [hnil]
        exact ⟨hordered, hrestAmong⟩
      · rw [hr, List.singleton_append, List.pairwise_cons, List.forall_mem_cons]
        refine ⟨⟨?_, hordered⟩, hramong.mono fun t ht => List.mem_append_left _ ht, hrestAmong⟩
        intro r' hr'
        exact hramong.le (hamong r' hr') hlt

/-! ## Scopes -/

variable {name : Opening → List Char}

mutual

theorem SpellsScope.spots {tags : List Tag} {nodes : List Node} (h : SpellsScope name tags nodes) :
    spotsOfNodes nodes = tags.flatMap Tag.spots := by
  match h with
  | .nil => rfl
  | .node h => rw [spotsOfNodes, h.spots, List.flatMap_cons, Tag.spots]
  | .block hbody htail _ h =>
    rw [spotsOfNodes, Node.spots, hbody.spots, htail.spots, h.spots]
    simp [Tag.spots]

theorem SpellsTail.spots {tags : List Tag} {inverse : Option (List Node)} (h : SpellsTail name tags inverse) :
    spotsOfBranch inverse = tags.flatMap Tag.spots := by
  match h with
  | .none => rfl
  | .plain h =>
    rw [spotsOfBranch, h.spots, List.flatMap_cons, Tag.spots]
    rfl
  | .chained hbody htail =>
    rw [spotsOfBranch, spotsOfNodes, Node.spots, hbody.spots, htail.spots, spotsOfNodes]
    simp [Tag.spots]

end

mutual

theorem SpellsScope.wellPlaced {tags : List Tag} {nodes : List Node} (h : SpellsScope name tags nodes)
    (ht : ∀ tag ∈ tags, tag.WellPlaced source) : WellPlacedNodes source nodes := by
  match h with
  | .nil =>
    rw [WellPlacedNodes]
    trivial
  | .node h =>
    obtain ⟨hnode, ht⟩ := List.forall_mem_cons.mp ht
    rw [WellPlacedNodes]
    exact ⟨hnode, h.wellPlaced ht⟩
  | .block hbody htail _ h =>
    obtain ⟨⟨htag, hholds, hcall⟩, ht⟩ := List.forall_mem_cons.mp ht
    obtain ⟨hinner, ht⟩ := List.forall_mem_append.mp ht
    obtain ⟨htags, ht⟩ := List.forall_mem_append.mp ht
    rw [WellPlacedNodes, Node.WellPlaced]
    exact ⟨⟨htag, hholds, hcall, hbody.wellPlaced hinner, htail.wellPlaced htags⟩,
      h.wellPlaced (List.forall_mem_cons.mp ht).2⟩

theorem SpellsTail.wellPlaced {tags : List Tag} {inverse : Option (List Node)} (h : SpellsTail name tags inverse)
    (ht : ∀ tag ∈ tags, tag.WellPlaced source) : WellPlacedBranch source inverse := by
  match h with
  | .none =>
    rw [WellPlacedBranch]
    trivial
  | .plain h =>
    rw [WellPlacedBranch]
    exact h.wellPlaced (List.forall_mem_cons.mp ht).2
  | .chained hbody htail =>
    obtain ⟨⟨htag, hholds, hcall⟩, ht⟩ := List.forall_mem_cons.mp ht
    obtain ⟨hinner, ht⟩ := List.forall_mem_append.mp ht
    rw [WellPlacedBranch, WellPlacedNodes, Node.WellPlaced, WellPlacedNodes]
    exact ⟨⟨htag, hholds, hcall, hbody.wellPlaced hinner, htail.wellPlaced ht⟩, trivial⟩

end

end

/-- Every region in a tree is that of a part of the source. The region of a tag holds those of its parts, and the
texts and tags lie one behind another. -/
theorem Template.compile_regions {name : Option String} {source : String} {t : Template}
    (h : Template.compile name source = .ok t) :
    WellPlacedNodes source.toList t.nodes ∧
      (spotsOfNodes t.nodes).Pairwise (fun r r' => r.stop ≤ r'.start) ∧
      ∀ r : Region, r.Proper source.toList → ∃ text, text ≠ [] ∧ r.slice? source.toList = some text := by
  obtain ⟨-, -, hnodes⟩ := Template.compile_ok_iff.mp h
  obtain ⟨tags, htags, hscope⟩ := Node.ofSource_eq_iff.mp hnodes
  obtain ⟨hplaced, hordered, -⟩ := htags.wellPlaced (laidOut_ofSource source.toList) fun t ht => Token.marked ht
  refine ⟨hscope.wellPlaced hplaced, ?_, ?_⟩
  · rw [hscope.spots]
    exact hordered
  · intro r hr
    obtain ⟨a, text, c, -, -, hne, htext⟩ := hr.exists_text
    exact ⟨text, hne, htext⟩

/-- A block with operands, a text of two bytes, and an inclusion in its inverse. -/
theorem Template.compile_regions_block :
    ∃ t, Template.compile none ("x" ++ tagText "#a b c=(d 1)" ++ "é" ++ tagText "^" ++ tagText "> (p q) r" ++
        tagText "/a") = .ok t ∧
      spotsOfNodes t.nodes = [⟨0, 1⟩, ⟨1, 17⟩, ⟨17, 19⟩, ⟨24, 37⟩] ∧
      WellPlacedNodes ("x" ++ tagText "#a b c=(d 1)" ++ "é" ++ tagText "^" ++ tagText "> (p q) r" ++
        tagText "/a").toList t.nodes ∧
      (spotsOfNodes t.nodes).Pairwise fun r r' => r.stop ≤ r'.start := by
  have hok : (Template.compile none ("x" ++ tagText "#a b c=(d 1)" ++ "é" ++ tagText "^" ++ tagText "> (p q) r" ++
      tagText "/a")).isOk := by decide +kernel
  have hspots : (Template.compile none ("x" ++ tagText "#a b c=(d 1)" ++ "é" ++ tagText "^" ++ tagText "> (p q) r" ++
      tagText "/a")).toOption.map (fun t => spotsOfNodes t.nodes) = some [⟨0, 1⟩, ⟨1, 17⟩, ⟨17, 19⟩, ⟨24, 37⟩] := by
    decide +kernel
  obtain ⟨t, ht⟩ := Template.exists_of_isOk hok
  rw [ht] at hspots
  obtain ⟨hplaced, hordered, -⟩ := Template.compile_regions ht
  exact ⟨t, ht, Option.some.inj hspots, hplaced, hordered⟩

end Curly
