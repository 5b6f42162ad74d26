import Curly.Evaluation
import Curly.Proofs.Grammar.Path

/-!
# Lifted trees

A tree is lifted for a place that is one frame further in: the paths that leave
it are given one more hop. They leave it if they go further out than the frames
that the blocks around them make inside the tree. A lifted path resolves where the
frame is put in as the path itself does where it is not
(`Frame.Inserted.resolve_lift`).
-/

namespace Curly

/-! ## Lifting -/

/-- Whether the block helper of this name makes frames for its body. -/
def Builtin.makesFrame (name : String) : Bool :=
  name = "each" || name = "with"

namespace Path

/-- The path with one more hop. -/
def outward (p : Path) : Path :=
  match p.origin with
  | .context hops => { p with origin := .context (hops + 1), text := '.' :: '.' :: '/' :: p.text }
  | .metadata hops name =>
    { p with origin := .metadata (hops + 1) name, text := '@' :: '.' :: '.' :: '/' :: p.text.tail }
  | .root => p

/-- Whether the path goes further out than some frames. -/
def leaves (depth : Nat) (p : Path) : Bool :=
  match p.origin with
  | .context hops => depth ≤ hops
  | .metadata hops _ => depth ≤ hops
  | .root => false

/-- The path for a place that is one more frame in, of which the innermost `depth` are as before. -/
def lift (depth : Nat) (p : Path) : Path :=
  if p.leaves depth then p.outward else p

theorem region_lift (depth : Nat) (p : Path) : (p.lift depth).region = p.region := by
  unfold lift outward
  split
  · split <;> rfl
  · rfl

theorem helperName_outward (p : Path) : p.outward.helperName = none := by
  obtain ⟨origin, segments, text, region⟩ := p
  cases origin <;> rfl

theorem helperName_lift (depth : Nat) (p : Path) :
    (p.lift depth).helperName = p.helperName ∨ (p.lift depth).helperName = none := by
  unfold lift
  split
  · exact .inr p.helperName_outward
  · exact .inl rfl

/-- Whether a block with this head makes frames for its body. -/
def makesFrame (head : Path) : Bool :=
  head.helperName.any Builtin.makesFrame

/-! ### Hops in writing -/

/-- Another hop is written by another `../`. -/
theorem ofText_outward {text : List Char} {region : Region} {p : Path} (h : ofText text region = .ok p)
    (hp : p.origin ≠ .root) : ofText p.outward.text region = .ok p.outward := by
  obtain ⟨hspells, rfl, rfl⟩ := spells_of_ofText h
  obtain ⟨origin, segments, text, region⟩ := p
  cases hspells with
  | root _ => exact absurd rfl hp
  | @metadata hops name rest _ hdatum hbehind =>
    have hinner : IsDatum (hops + 1) name := ⟨hdatum.nonempty, hdatum.chars, nofun⟩
    exact ofText_of_spells (.metadata hinner hbehind) region
  | @context hops rest _ hhere hat =>
    exact ofText_of_spells (@Spells.context (hops + 1) rest segments hhere (by simp [hopsText])) region
  | @outward hops => exact ofText_of_spells (@Spells.outward (hops + 1)) region

end Path

mutual

/-- The expression with its paths lifted. The names of helpers stay as they are. -/
def Expression.lift (depth : Nat) : Expression → Expression
  | .literal value region => .literal value region
  | .path p => .path (p.lift depth)
  | .call callee operands region => .call callee (operands.lift depth) region

def Operands.lift (depth : Nat) : Operands → Operands
  | ⟨positional, named⟩ => ⟨liftAll depth positional, liftNamed depth named⟩

def liftAll (depth : Nat) : List Expression → List Expression
  | [] => []
  | e :: es => e.lift depth :: liftAll depth es

def liftNamed (depth : Nat) : List (String × Expression) → List (String × Expression)
  | [] => []
  | (name, e) :: es => (name, e.lift depth) :: liftNamed depth es

end

namespace Operands

theorem isEmpty_lift (depth : Nat) (o : Operands) : (o.lift depth).isEmpty = o.isEmpty := by
  obtain ⟨positional, named⟩ := o
  rcases positional with _ | ⟨e, es⟩ <;> rcases named with _ | ⟨⟨name, e'⟩, es'⟩ <;>
    simp [Operands.lift, liftAll, liftNamed, isEmpty]

end Operands

namespace Expression

theorem region_lift (depth : Nat) (e : Expression) : (e.lift depth).region = e.region := by
  cases e with
  | path p => exact p.region_lift depth
  | literal value region => rw [lift]
  | call callee operands region =>
    rw [lift]
    rfl

theorem helperName_lift (depth : Nat) (e : Expression) :
    (e.lift depth).helperName = e.helperName ∨ (e.lift depth).helperName = none := by
  cases e with
  | path p => exact p.helperName_lift depth
  | literal value region => exact .inr rfl
  | call callee operands region => exact .inr rfl

end Expression

/-- Whether the head of an output is the name of a helper: of one that there is,
or before operands of one that there should be. -/
def Engine.calls (engine : Engine) (call : Call Expression) : Bool :=
  (call.head.helperName.bind engine.helper?).isSome || call.head.helperName.isSome && !call.operands.isEmpty

def Call.lift (engine : Engine) (depth : Nat) (call : Call Expression) : Call Expression :=
  ⟨if engine.calls call then call.head else call.head.lift depth, call.operands.lift depth, call.region⟩

mutual

def Node.lift (engine : Engine) (depth : Nat) : Node → Node
  | .raw text region => .raw text region
  | .output call escaped region => .output (call.lift engine depth) escaped region
  | .block call negated body inverse region =>
    .block ⟨call.head, call.operands.lift depth, call.region⟩ negated
      (liftNodes engine (if call.head.makesFrame then depth + 1 else depth) body) (liftBranch engine depth inverse) region
  | .inclusion name context region => .inclusion name context region

def liftNodes (engine : Engine) (depth : Nat) : List Node → List Node
  | [] => []
  | node :: nodes => node.lift engine depth :: liftNodes engine depth nodes

def liftBranch (engine : Engine) (depth : Nat) : Option (List Node) → Option (List Node)
  | none => none
  | some nodes => some (liftNodes engine depth nodes)

end

/-! ## Frames -/

namespace Frame

/-- The second chain is the first with a frame for the value put under its innermost `depth` frames. -/
inductive Inserted (v : Value) : Nat → Frame → Frame → Prop
  | base (f : Frame) : Inserted v 0 f (f.child v)
  | nested {depth : Nat} {f f' : Frame} (value : Value) (iteration : Option Iteration) :
    Inserted v depth f f' → Inserted v (depth + 1) (.nested value iteration f) (.nested value iteration f')

namespace Inserted

variable {v : Value} {f f' : Frame} {depth : Nat}

theorem rootValue (h : Inserted v depth f f') : f'.rootValue = f.rootValue := by
  induction h with
  | base => rfl
  | nested value iteration _ ih => exact ih

theorem ancestor?_outer (h : Inserted v depth f f') {hops : Nat} (hhops : depth ≤ hops) :
    f'.ancestor? (hops + 1) = f.ancestor? hops := by
  induction h generalizing hops with
  | base => rfl
  | nested value iteration _ ih =>
    obtain ⟨hops, rfl⟩ := Nat.exists_eq_add_of_lt hhops
    exact ih (by omega)

theorem ancestor?_inner (h : Inserted v depth f f') {hops : Nat} (hhops : hops < depth) :
    ∃ value iteration g g', f.ancestor? hops = some (.nested value iteration g) ∧
      f'.ancestor? hops = some (.nested value iteration g') := by
  induction h generalizing hops with
  | base => cases hhops
  | @nested depth f f' value iteration h ih =>
    cases hops with
    | zero => exact ⟨value, iteration, f, f', rfl, rfl⟩
    | succ hops => exact ih (Nat.lt_of_succ_lt_succ hhops)

theorem datum?_nested (value : Value) (iteration : Option Iteration) (g g' : Frame) (name : String) :
    (Frame.nested value iteration g').datum? name = (Frame.nested value iteration g).datum? name := by
  cases iteration <;> rfl

/-- With one more hop, a path that leaves the innermost frames begins where it did. -/
theorem start_outward (h : Inserted v depth f f') {p : Path} (hp : p.leaves depth) :
    f'.start p.outward.origin = f.start p.origin := by
  obtain ⟨origin, segments, text, region⟩ := p
  cases origin with
  | root => cases hp
  | context hops =>
    have hancestor := h.ancestor?_outer (of_decide_eq_true hp)
    simp only [Path.outward, Frame.start, hancestor]
  | metadata hops name =>
    have hancestor := h.ancestor?_outer (of_decide_eq_true hp)
    simp only [Path.outward, Frame.start, hancestor]

/-- A path that ends in the innermost frames begins where it did. -/
theorem start_inner (h : Inserted v depth f f') {p : Path} (hp : ¬ p.leaves depth) :
    f'.start p.origin = f.start p.origin := by
  obtain ⟨origin, segments, text, region⟩ := p
  cases origin with
  | root => exact congrArg Except.ok h.rootValue
  | context hops =>
    have hhops : hops < depth := Nat.lt_of_not_le fun hle => hp (decide_eq_true hle)
    obtain ⟨value, iteration, g, g', hg, hg'⟩ := h.ancestor?_inner hhops
    simp only [Frame.start, hg, hg', Frame.value]
  | metadata hops name =>
    have hhops : hops < depth := Nat.lt_of_not_le fun hle => hp (decide_eq_true hle)
    obtain ⟨value, iteration, g, g', hg, hg'⟩ := h.ancestor?_inner hhops
    simp only [Frame.start, hg, hg', datum?_nested value iteration g g']

theorem start_lift (h : Inserted v depth f f') (p : Path) : f'.start (p.lift depth).origin = f.start p.origin := by
  unfold Path.lift
  split
  · rename_i hp
    exact h.start_outward hp
  · rename_i hp
    exact h.start_inner hp

theorem resolve_lift (h : Inserted v depth f f') (p : Path) : f'.resolve (p.lift depth) = f.resolve p := by
  have hsegments : (p.lift depth).segments = p.segments := by
    unfold Path.lift Path.outward
    split
    · split <;> rfl
    · rfl
  unfold Frame.resolve
  rw [h.start_lift, hsegments]

theorem valueOf_lift (h : Inserted v depth f f') (p : Path) : f'.valueOf (p.lift depth) = f.valueOf p := by
  unfold Frame.valueOf
  rw [h.resolve_lift]

end Inserted

end Frame

end Curly
