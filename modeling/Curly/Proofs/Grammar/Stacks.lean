import Curly.Proofs.Grammar.Scope
import Mathlib.Data.List.Chain

/-!
# Stacks of blocks and scopes

A source is read with one stack for the open blocks and one for the scopes that are
being filled. Where a scope is missing, an empty one could be made up, or a node be
lost; this never happens, and the tree is that of the outline (`Stacks.run_sound`).
The invariant is `Stacks.Sound`. It is read off the outline that the stacks are.
-/

namespace Curly

structure OpenBlock where
  opening : Opening
  /-- Whether the block is closed together with the one below it. -/
  chained : Bool
  /-- The finished body, once the alternative has begun. -/
  body : Option (List Node)

def OpenBlock.name (b : OpenBlock) : String :=
  String.ofList b.opening.name

/-- The block, `scope` being its last scope. -/
def OpenBlock.finish (b : OpenBlock) (scope : List Node) : Node :=
  match b.body with
  | some body => b.opening.block body (some scope)
  | none => b.opening.block scope none

def OpenBlock.closedBy (b : OpenBlock) : Option (List Char × Region) → Except SyntaxError Unit
  | some (text, at_) => if text = b.opening.name then .ok () else .error ⟨.wrongClose b.name, at_⟩
  | none => .ok ()

/-- Both stacks with the innermost first. -/
structure Stacks where
  blocks : List OpenBlock
  scopes : List (List Node)

namespace Stacks

/-! ## Steps

Where there is no scope, `spare` says whether an empty one is made up and a node that
belongs in it is lost, or there is no result.
-/

def start : Stacks :=
  ⟨[], [[]]⟩

def popScope (spare : Bool) : List (List Node) → Option (List Node × List (List Node))
  | scope :: scopes => some (scope, scopes)
  | [] => if spare then some ([], []) else none

def pushNode (spare : Bool) (node : Node) : List (List Node) → Option (List (List Node))
  | scope :: scopes => some ((scope ++ [node]) :: scopes)
  | [] => if spare then some [] else none

def opened (s : Stacks) (opening : Opening) (chained : Bool) : Stacks :=
  ⟨⟨opening, chained, none⟩ :: s.blocks, [] :: s.scopes⟩

def alternative (spare : Bool) (marker : Region) (s : Stacks) : Option (Except SyntaxError Stacks) :=
  match s.blocks with
  | [] => some (.error ⟨.elseOutside, marker⟩)
  | b :: blocks =>
    if b.body.isSome then some (.error ⟨.secondElse b.name, marker⟩)
    else (popScope spare s.scopes).map fun (scope, scopes) =>
      .ok ⟨{ b with body := some scope } :: blocks, [] :: scopes⟩

def close (spare : Bool) (name : Option (List Char × Region)) (region : Region) :
    List OpenBlock → List (List Node) → Option (Except SyntaxError Stacks)
  | [], _ => some (.error ⟨.nothingOpen, region⟩)
  | b :: blocks, scopes =>
    (popScope spare scopes).bind fun (scope, scopes) =>
      let finished := pushNode spare (b.finish scope) scopes
      if b.chained then finished.bind (close spare name region blocks)
      else
        match b.closedBy name with
        | .error e => some (.error e)
        | .ok () => finished.map fun scopes => .ok ⟨blocks, scopes⟩

def add (spare : Bool) (s : Stacks) : Tag → Option (Except SyntaxError Stacks)
  | .node node => (pushNode spare node s.scopes).map fun scopes => .ok ⟨s.blocks, scopes⟩
  | .opening opening => some (.ok (s.opened opening false))
  | .alternative marker => s.alternative spare marker
  | .alternativeOpening marker opening => (s.alternative spare marker).map (·.map (·.opened opening true))
  | .closing name region => close spare name region s.blocks s.scopes

def finish (spare : Bool) (s : Stacks) : Option (Except SyntaxError (List Node)) :=
  match s.blocks.find? (!·.chained) with
  | some b => some (.error ⟨.unclosed b.name, b.opening.region⟩)
  | none => (popScope spare s.scopes).map fun (scope, _) => .ok scope

/-- One part of the source, which begins with the token. -/
def step (spare : Bool) (stop : Region) (s : Stacks) (t : Token) (rest : List Token) :
    Option (Except SyntaxError (Stacks × List Token)) :=
  match Reading.part stop t rest with
  | .error e => some (.error e)
  | .ok (none, rest) => some (.ok (s, rest))
  | .ok (some tag, rest) => (s.add spare tag).map (·.map (·, rest))

/-- All parts, one after the other. `count` bounds their number. -/
def run (spare : Bool) (stop : Region) : Nat → Stacks → List Token → Option (Except SyntaxError (List Node))
  | _, s, [] => s.finish spare
  | 0, _, _ => some (.error ⟨.endOfSource, stop⟩)
  | count + 1, s, t :: rest =>
    match s.step spare stop t rest with
    | none => none
    | some (.error e) => some (.error e)
    | some (.ok (s, rest)) => run spare stop count s rest

/-- The stacks and the tokens left when that many parts are read. -/
def visited (stop : Region) : Nat → Stacks → List Token → Option (Stacks × List Token)
  | 0, s, tokens => some (s, tokens)
  | _ + 1, _, [] => none
  | count + 1, s, t :: rest =>
    match s.step true stop t rest with
    | some (.ok (s, rest)) => visited stop count s rest
    | _ => none

end Stacks

/-! ## Stacks of an outline -/

def Level.block (l : Level) : OpenBlock :=
  ⟨l.opening, l.chained, l.body⟩

def Outline.stacks (o : Outline) : Stacks :=
  ⟨o.levels.map Level.block, o.nodes.reverse :: o.levels.map (·.before.reverse)⟩

namespace Stacks

theorem finish_block (l : Level) (nodes : List Node) : l.block.finish nodes.reverse = l.finish nodes := by
  unfold OpenBlock.finish Level.finish Level.block
  cases l.body <;> rfl

theorem close_stacks (spare : Bool) (name : Option (List Char × Region)) (region : Region) (nodes : List Node)
    (levels : List Level) :
    close spare name region (levels.map Level.block) (nodes.reverse :: levels.map (·.before.reverse)) =
      some ((Outline.close name region nodes levels).map Outline.stacks) := by
  induction levels generalizing nodes with
  | nil => rfl
  | cons l levels ih =>
    have hpush : pushNode spare (l.block.finish nodes.reverse) (l.before.reverse :: levels.map (·.before.reverse)) =
        some ((l.finish nodes :: l.before).reverse :: levels.map (·.before.reverse)) := by
      rw [pushNode, finish_block, List.reverse_cons]
    simp only [List.map_cons, close, popScope, Option.bind_some, hpush, Option.map_some]
    rw [Outline.close_cons]
    unfold Outline.closeWith
    cases hl : l.chained with
    | true =>
      rw [show l.block.chained = true from hl, if_pos rfl, if_pos rfl]
      exact ih _
    | false =>
      rw [show l.block.chained = false from hl, if_neg Bool.false_ne_true, if_neg Bool.false_ne_true]
      cases name with
      | none => rfl
      | some name =>
        obtain ⟨text, at_⟩ := name
        rw [OpenBlock.closedBy, show l.block.opening = l.opening from rfl]
        by_cases ht : text = l.opening.name
        · simp only [if_pos ht]
          rfl
        · simp only [if_neg ht]
          rfl

theorem alternative_stacks (spare : Bool) (marker : Region) (o : Outline) :
    o.stacks.alternative spare marker = some ((o.alternative marker).map Outline.stacks) := by
  obtain ⟨nodes, levels⟩ := o
  cases levels with
  | nil => rfl
  | cons l levels =>
    simp only [alternative, Outline.alternative, Outline.stacks, List.map_cons, popScope, Option.map_some]
    by_cases hbody : l.body.isSome = true
    · rw [if_pos hbody, if_pos (show l.block.body.isSome = true from hbody)]
      rfl
    · rw [if_neg hbody, if_neg (show ¬ l.block.body.isSome = true from hbody)]
      rfl

/-- The stacks of an outline change with it, and no scope is ever missing. -/
theorem add_stacks (spare : Bool) (o : Outline) (tag : Tag) :
    o.stacks.add spare tag = some ((o.add tag).map Outline.stacks) := by
  cases tag with
  | node n =>
    rw [add, Outline.stacks, pushNode, ← List.reverse_cons]
    rfl
  | opening p => rfl
  | alternative marker => exact alternative_stacks spare marker o
  | alternativeOpening marker p =>
    rw [add, alternative_stacks, Outline.add]
    cases o.alternative marker <;> rfl
  | closing name region => exact close_stacks spare name region o.nodes o.levels

theorem finish_stacks (spare : Bool) (o : Outline) : o.stacks.finish spare = some o.finish := by
  have hfind : o.stacks.blocks.find? (!·.chained) = (o.levels.find? (!·.chained)).map Level.block := by
    rw [Outline.stacks, List.find?_map]
    rfl
  rw [finish, hfind, Outline.finish]
  cases o.levels.find? (!·.chained) <;> rfl

theorem run_stacks (spare : Bool) (stop : Region) (count : Nat) (o : Outline) (tokens : List Token) :
    o.stacks.run spare stop count tokens =
      some (match o.addAll (Reading.tags stop count tokens).1, (Reading.tags stop count tokens).2 with
        | .error e, _ => .error e
        | .ok _, some e => .error e
        | .ok o, none => o.finish) := by
  induction count generalizing o tokens with
  | zero =>
    cases tokens with
    | nil => exact finish_stacks spare o
    | cons t tokens => rfl
  | succ count ih =>
    cases tokens with
    | nil => exact finish_stacks spare o
    | cons t tokens =>
      rw [run, step, Reading.tags]
      cases Reading.part stop t tokens with
      | error e => rfl
      | ok r =>
        obtain ⟨_ | tag, rest⟩ := r
        · exact ih o rest
        · dsimp only
          rw [add_stacks, Option.toList_some, List.singleton_append, Outline.addAll]
          cases o.add tag with
          | error e => rfl
          | ok o => exact ih o rest

theorem run_ofSource (spare : Bool) (source : List Char) :
    start.run spare ⟨byteLength source, byteLength source⟩ (Token.ofSource source).length (Token.ofSource source) =
      some (Node.ofSource source) :=
  run_stacks spare _ _ Outline.empty _

/-- The stacks after some parts are those of an outline that the parts spell. -/
theorem visited_outline {stop : Region} {count : Nat} {o : Outline} {tags : List Tag} {tokens rest : List Token}
    {s : Stacks} (ho : SpellsOutline tags o.nodes o.levels)
    (h : o.stacks.visited stop count tokens = some (s, rest)) :
    ∃ o' tags', s = Outline.stacks o' ∧ SpellsOutline tags' o'.nodes o'.levels := by
  induction count generalizing o tags tokens with
  | zero =>
    obtain ⟨rfl, rfl⟩ := Prod.mk.inj (Option.some.inj h)
    exact ⟨o, tags, rfl, ho⟩
  | succ count ih =>
    cases tokens with
    | nil => cases h
    | cons t tokens =>
      rw [visited, step] at h
      cases hpart : Reading.part stop t tokens with
      | error e => simp [hpart] at h
      | ok r =>
        rw [hpart] at h
        obtain ⟨_ | tag, more⟩ := r
        · -- a comment leaves the stacks as they are
          exact ih ho h
        · dsimp only at h
          rw [add_stacks] at h
          cases hadd : o.add tag with
          | error e => simp [hadd, Except.map] at h
          | ok o' =>
            rw [hadd] at h
            exact ih (ho.add hadd) h

/-! ## Parts and the run -/

variable {stop : Region} {count : Nat} {s₀ s : Stacks} {tokens rest : List Token}

theorem part_of_step {spare : Bool} {t : Token} (h : s₀.step spare stop t tokens = some (.ok (s, rest))) :
    ∃ p, Reading.part stop t tokens = .ok (p, rest) := by
  unfold step at h
  split at h
  · cases h
  · rename_i hp
    cases h
    exact ⟨_, hp⟩
  · rename_i tag more hp
    obtain ⟨added, -, hadded⟩ := Option.map_eq_some_iff.mp h
    cases added with
    | error e => cases hadded
    | ok s' =>
      cases hadded
      exact ⟨_, hp⟩

theorem step_length {spare : Bool} {t : Token} (h : s₀.step spare stop t tokens = some (.ok (s, rest))) :
    rest.length ≤ tokens.length := by
  obtain ⟨p, hp⟩ := part_of_step h
  obtain ⟨used, htokens, hused⟩ := Reading.part_sound hp
  -- a part has at least the token that it begins with
  obtain ⟨t', used, rfl, -⟩ := Reading.part_complete hused
  have hlength := congrArg List.length htokens
  simp only [List.length_cons, List.length_append] at hlength
  omega

theorem visited_length (h : s₀.visited stop count tokens = some (s, rest)) :
    count + rest.length ≤ tokens.length := by
  induction count generalizing s₀ tokens with
  | zero =>
    obtain ⟨rfl, rfl⟩ := Prod.mk.inj (Option.some.inj h)
    rw [Nat.zero_add]
  | succ count ih =>
    cases tokens with
    | nil => cases h
    | cons t tokens =>
      rw [visited] at h
      split at h
      · rename_i hstep
        have hleft := ih h
        have hparts := step_length hstep
        rw [List.length_cons]
        omega
      · cases h

/-- A run goes through the stacks that are visited. -/
theorem run_visited (h : s₀.visited stop count tokens = some (s, rest)) (left : Nat) :
    s₀.run true stop (count + left) tokens = s.run true stop left rest := by
  induction count generalizing s₀ tokens with
  | zero =>
    obtain ⟨rfl, rfl⟩ := Prod.mk.inj (Option.some.inj h)
    rw [Nat.zero_add]
  | succ count ih =>
    cases tokens with
    | nil => cases h
    | cons t tokens =>
      rw [visited] at h
      split at h
      · rename_i hstep
        rw [Nat.add_right_comm, run, hstep]
        exact ih h
      · cases h

theorem finish_visited {source : List Char} {s : Stacks}
    (h : start.visited ⟨byteLength source, byteLength source⟩ count (Token.ofSource source) = some (s, [])) :
    s.finish true = some (Node.ofSource source) := by
  obtain ⟨left, hleft⟩ := Nat.exists_eq_add_of_le (visited_length h)
  rw [List.length_nil, Nat.add_zero] at hleft
  have hrun := run_visited h left
  rw [← hleft, run_ofSource] at hrun
  rw [hrun]
  cases left <;> rfl

end Stacks

namespace SpellsOutline

/-- A chained block stands in the alternative of the one below it. -/
theorem bodies {tags : List Tag} {nodes : List Node} {levels : List Level} (h : SpellsOutline tags nodes levels) :
    levels.IsChain fun inner outer => inner.chained = true → outer.body.isSome = true := by
  induction h with
  | top _ => exact .nil
  | body _ _ ih => exact ih.cons fun _ _ hc => absurd hc Bool.false_ne_true
  | inverse _ _ ih =>
    obtain ⟨hbelow, hchain⟩ := List.isChain_cons.mp ih
    exact hchain.cons hbelow
  | chained _ _ ih =>
    obtain ⟨hbelow, hchain⟩ := List.isChain_cons.mp ih
    exact List.isChain_cons_cons.mpr ⟨fun _ => rfl, hchain.cons hbelow⟩

end SpellsOutline

namespace Stacks

/-! ## Stacks that fit together -/

structure Sound (s : Stacks) : Prop where
  scopes_length : s.scopes.length = s.blocks.length + 1
  outermost : ∀ b ∈ s.blocks.getLast?, b.chained = false
  /-- The block below a chained one has its finished body. -/
  bodies : s.blocks.IsChain fun inner outer => inner.chained = true → outer.body.isSome = true

theorem sound_stacks {tags : List Tag} {o : Outline} (h : SpellsOutline tags o.nodes o.levels) :
    o.stacks.Sound := by
  refine ⟨?_, ?_, ?_⟩
  · simp [Outline.stacks]
  · rw [Outline.stacks, List.getLast?_map]
    intro b hb
    obtain ⟨l, hl, rfl⟩ := Option.map_eq_some_iff.mp hb
    exact h.outermost l hl
  · exact (List.isChain_map Level.block).mpr h.bodies

theorem Sound.find?_eq_none_iff {s : Stacks} (h : s.Sound) : s.blocks.find? (!·.chained) = none ↔ s.blocks = [] :=
  find?_eq_none_iff_of_last fun b hb => by simp [h.outermost b hb]

theorem Sound.exists_links {s : Stacks} (h : s.Sound) (hb : s.blocks ≠ []) :
    ∃ links b outer, s.blocks = links ++ b :: outer ∧ (∀ l ∈ links, l.chained = true) ∧ b.chained = false := by
  obtain ⟨b, hfind⟩ := Option.ne_none_iff_exists'.mp (mt h.find?_eq_none_iff.mp hb)
  obtain ⟨hb, links, outer, hblocks, hlinks⟩ := List.find?_eq_some_iff_append.mp hfind
  exact ⟨links, b, outer, hblocks, by simpa using hlinks, by simpa using hb⟩

theorem finish_error_iff {s : Stacks} {spare : Bool} (h : s.Sound) :
    (∃ e, s.finish spare = some (.error e)) ↔ s.blocks ≠ [] := by
  rw [Ne, ← h.find?_eq_none_iff, finish]
  cases s.blocks.find? (!·.chained) with
  | some b => simp
  | none => simp [Option.map_eq_some_iff]

/-- Closing a chained block leads on to the block below it, until one is not chained. -/
theorem close_links {links outer : List OpenBlock} {b : OpenBlock} (hlinks : ∀ l ∈ links, l.chained = true)
    (hb : b.chained = false) {scopes : List (List Node)}
    (hscopes : scopes.length = (links ++ b :: outer).length + 1) :
    ∃ left, ∀ spare name region, close spare name region (links ++ b :: outer) scopes =
      some ((b.closedBy name).map fun _ => ⟨outer, left⟩) := by
  -- one scope more than blocks: the scope of the block, and the one that the block goes into
  induction links generalizing scopes with
  | nil =>
    obtain _ | ⟨scope, _ | ⟨below, scopes⟩⟩ := scopes
    · simp at hscopes
    · simp at hscopes
    refine ⟨(below ++ [b.finish scope]) :: scopes, fun spare name region => ?_⟩
    simp only [List.nil_append, close, popScope, Option.bind_some, hb, pushNode, Option.map_some,
      if_neg Bool.false_ne_true]
    cases b.closedBy name <;> rfl
  | cons l links ih =>
    obtain _ | ⟨scope, _ | ⟨below, scopes⟩⟩ := scopes
    · simp at hscopes
    · simp at hscopes
    obtain ⟨hl, hlinks⟩ := List.forall_mem_cons.mp hlinks
    have hpushed : ((below ++ [l.finish scope]) :: scopes).length = (links ++ b :: outer).length + 1 := by
      simpa using hscopes
    obtain ⟨left, hleft⟩ := ih hlinks hpushed
    refine ⟨left, fun spare name region => ?_⟩
    simp only [List.cons_append, close, popScope, Option.bind_some, hl, pushNode, if_pos]
    exact hleft spare name region

/-- Before each part of a source the stacks fit together. So a scope is always there
where one is needed, a closing tag reaches the innermost block that is not chained, and
the end of the source is an error exactly if a block is open. -/
theorem run_sound (source : List Char) :
    (∀ spare, start.run spare ⟨byteLength source, byteLength source⟩ (Token.ofSource source).length
      (Token.ofSource source) = some (Node.ofSource source)) ∧
    ∀ count s rest,
      start.visited ⟨byteLength source, byteLength source⟩ count (Token.ofSource source) = some (s, rest) →
      s.Sound ∧
      (∀ tag, ∃ result, ∀ spare, s.add spare tag = some result) ∧
      (∃ result, ∀ spare, s.finish spare = some result) ∧
      (s.blocks ≠ [] → ∃ links b outer left, s.blocks = links ++ b :: outer ∧ (∀ l ∈ links, l.chained = true) ∧
        b.chained = false ∧ ∀ spare name region,
          s.add spare (.closing name region) = some ((b.closedBy name).map fun _ => ⟨outer, left⟩)) ∧
      ((∃ e, s.finish true = some (.error e)) ↔ s.blocks ≠ []) ∧
      (rest = [] → s.finish true = some (Node.ofSource source)) := by
  refine ⟨fun spare => run_ofSource spare source, fun count s rest hs => ?_⟩
  have hstart : SpellsOutline [] Outline.empty.nodes Outline.empty.levels := .top .nil
  have hend : rest = [] → s.finish true = some (Node.ofSource source) := fun hrest => finish_visited (hrest ▸ hs)
  obtain ⟨o, tags, rfl, ho⟩ := visited_outline hstart hs
  have hsound : o.stacks.Sound := sound_stacks ho
  refine ⟨hsound, fun tag => ⟨_, fun spare => add_stacks spare o tag⟩, ⟨_, fun spare => finish_stacks spare o⟩,
    fun hb => ?_, finish_error_iff hsound, hend⟩
  obtain ⟨links, b, outer, hblocks, hlinks, hc⟩ := hsound.exists_links hb
  obtain ⟨left, hleft⟩ := close_links hlinks hc (hblocks ▸ hsound.scopes_length)
  refine ⟨links, b, outer, left, hblocks, hlinks, hc, fun spare name region => ?_⟩
  rw [add, hblocks]
  exact hleft spare name region

/-- Inside of an alternative that opens a block of its own. -/
theorem run_sound_chained :
    ∃ s rest left, start.visited ⟨30, 30⟩ 4 (Token.ofSource elseChain.toList) = some (s, rest) ∧
      s.blocks.map (·.chained) = [true, false] ∧ s.scopes.length = 3 ∧
      s.add false (.closing none ⟨24, 30⟩) = some (.ok ⟨[], left⟩) := by
  have hlength : byteLength elseChain.toList = 30 := by decide +kernel
  have hchained : ((start.visited ⟨30, 30⟩ 4 (Token.ofSource elseChain.toList)).map fun r =>
      r.1.blocks.map (·.chained)) = some [true, false] := by decide +kernel
  obtain ⟨⟨s, rest⟩, hs, hblocks⟩ := Option.map_eq_some_iff.mp hchained
  have hvisited := (run_sound elseChain.toList).2 4 s rest
  rw [hlength] at hvisited
  obtain ⟨hsound, -, -, hclose, -⟩ := hvisited hs
  have hcount : s.blocks.length = 2 := by simpa using congrArg List.length hblocks
  have hopen : s.blocks ≠ [] := List.ne_nil_of_length_pos (by omega)
  obtain ⟨links, b, outer, left, hsplit, hlinks, hb, hleft⟩ := hclose hopen
  have hscopes : s.scopes.length = 3 := by rw [hsound.scopes_length, hcount]
  have houter : outer = [] := by
    rw [hsplit] at hblocks
    obtain _ | ⟨l, _ | ⟨l', links⟩⟩ := links
    · simp [hb] at hblocks
    · simpa [hb, hlinks l] using hblocks
    · have hl := hlinks l' (by simp)
      simp [hl] at hblocks
  refine ⟨s, rest, left, hs, hblocks, hscopes, ?_⟩
  rw [hleft false none ⟨24, 30⟩, houter]
  rfl

end Stacks

end Curly
