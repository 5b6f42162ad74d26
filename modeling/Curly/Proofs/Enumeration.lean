import Curly.Proofs.Lift.Tree
import Curly.Proofs.Parts
import Curly.Proofs.Render.Output
import Curly.Proofs.Render.Work

/-!
# Enumeration and lookup

In the body of a block that goes through a value, the key of an entry leads back
to the entry: the value that is gone through, looked up with it, has the current
value there (`Value.lookup_entries`).
-/

namespace Curly

/-! ## Frames of an iteration -/

namespace Frame

variable {frame f : Frame}

theorem exists_of_mem_items {size index : Nat} {entries : List (Value × Value)} (h : f ∈ frame.items size index entries) :
    ∃ e ∈ entries, ∃ i, f = frame.item e.2 (.of e.1 i size) := by
  induction entries generalizing index with
  | nil => cases h
  | cons e entries ih =>
    rcases List.mem_cons.mp h with rfl | hmem
    · exact ⟨e, List.mem_cons_self .., index, rfl⟩
    · obtain ⟨e', he', i, hf⟩ := ih hmem
      exact ⟨e', List.mem_cons_of_mem _ he', i, hf⟩

theorem valueOf_outward (value : Value) (iteration : Option Iteration) (frame : Frame) (p : Path) :
    (nested value iteration frame).valueOf p.outward = frame.valueOf p := by
  obtain ⟨origin, segments, text, region⟩ := p
  cases origin with
  | context hops => rfl
  | metadata hops name => rfl
  | root => rfl

end Frame

/-! ## Calls of the two helpers -/

namespace Path

/-- The key of the current entry. -/
def key : Path :=
  ⟨.metadata 0 "key", [], ['@', 'k', 'e', 'y'], default⟩

/-- The current value. -/
def here : Path :=
  ⟨.context 0, [], ['t', 'h', 'i', 's'], default⟩

end Path

namespace Scene

variable {scene : Scene} {frame : Frame} {each lookup here : Path}

theorem renderBlock_each (heach : each.helperName.bind scene.engine.blockHelper? = some Builtin.eachHelper) (c : Path)
    (region : Region) (body : Frame → Run Unit) (inverse : Option (Frame → Run Unit)) :
    scene.renderBlock frame ⟨each, ⟨[.path c], []⟩, region⟩ body inverse =
      scene.pointing region ((Plan.ofEntries frame (frame.valueOf c)).render body inverse) := by
  have ho : scene.evaluateOperands frame ⟨[.path c], []⟩ = pure ⟨[frame.valueOf c], []⟩ := by
    rw [evaluateOperands_single, evaluate, pure_bind]
  rw [renderBlock_single Builtin.eachHelper_follows heach (congrArg Run.outcome ho), ho, pure_bind]

theorem renderOutput_here (frame : Frame) (hhere : SamePath .here here) (region : Region) (escaped : Bool) :
    scene.renderOutput frame ⟨.path here, ⟨[], []⟩, region⟩ escaped = writeValue frame.value escaped := by
  have hsimple : here.isSimple = false := hhere.isSimple.symm
  have hresolve : frame.resolve here = .ok frame.value := by
    unfold Frame.resolve
    rw [← hhere.origin, ← hhere.segments]
    rfl
  rw [renderOutput_path hsimple, hresolve]

end Scene

theorem Plan.render_congr {plan : Plan} {body body' : Frame → Run Unit} (inverse : Option (Frame → Run Unit))
    (h : plan.branch = .body → ∀ f ∈ plan.frames, body f = body' f) : plan.render body inverse = plan.render body' inverse := by
  obtain ⟨branch, frames⟩ := plan
  cases branch with
  | inverse => rfl
  | body =>
    replace h := h rfl
    unfold render
    dsimp only at h ⊢
    induction frames with
    | nil => rfl
    | cons f frames ih =>
      rw [List.forM_cons, List.forM_cons, h f (List.mem_cons_self ..), ih fun g hg => h g (List.mem_cons_of_mem _ hg)]

theorem Plan.exists_of_ofEntries {frame f : Frame} {v : Value} (hbranch : (ofEntries frame v).branch = .body)
    (h : f ∈ (ofEntries frame v).frames) :
    ∃ entries, v.entries? = some entries ∧ ∃ e ∈ entries, ∃ i, f = frame.item e.2 i ∧ i.key = e.1 := by
  unfold ofEntries at hbranch h
  split at h
  · rename_i e es hentries
    obtain ⟨e', he', i, hf⟩ := Frame.exists_of_mem_items h
    exact ⟨_, hentries, e', he', _, hf, rfl⟩
  · rename_i hentries
    split at hbranch
    · rename_i e es heq
      exact absurd heq (hentries e es)
    · cases hbranch

/-- Every entry is found under the text of its key. So in a block that goes through
the value of a path, looking up the key in that value writes the current value. -/
theorem Value.lookup_entries {v : Value} {entries : List (Value × Value)} (hentries : v.entries? = some entries)
    (happart : v.NamesApart) :
    (∀ e ∈ entries, v.segment? e.1.text = some e.2) ∧
      ∀ (scene : Scene) (frame : Frame) (each lookup c outer key here : Path),
        scene.engine.blockHelper? "each" = some Builtin.eachHelper →
        scene.engine.helper? "lookup" = some Builtin.lookupHelper → frame.valueOf c = v →
        SamePath (.plain "each") each → SamePath (.plain "lookup") lookup → SamePath c.outward outer →
        SamePath .key key → SamePath .here here →
        ∀ (r₁ r₂ r₃ r₄ r₅ r₆ : Region) (inverse : Option (List Node)),
          scene.renderNode (.block ⟨each, ⟨[.path c], []⟩, r₁⟩ false
              [.output ⟨.path lookup, ⟨[.path outer, .path key], []⟩, r₂⟩ true r₃] inverse r₄) frame =
            scene.renderNode (.block ⟨each, ⟨[.path c], []⟩, r₁⟩ false
              [.output ⟨.path here, ⟨[], []⟩, r₅⟩ true r₆] inverse r₄) frame := by
  refine ⟨fun e he => segment?_of_mem hentries happart he, ?_⟩
  intro scene frame each lookup c outer key here heachHelper hlookupHelper hc heach hlookup houter hkey hhere
    r₁ r₂ r₃ r₄ r₅ r₆ inverse
  have hblock : each.helperName.bind scene.engine.blockHelper? = some Builtin.eachHelper := by
    rw [← heach.helperName, Path.helperName, if_pos (Path.isSimple_plain _)]
    exact heachHelper
  have hcall : scene.helper? lookup.helperName = some Builtin.lookupHelper := by
    rw [← hlookup.helperName, Path.helperName, if_pos (Path.isSimple_plain _)]
    exact hlookupHelper
  rw [Scene.renderNode, Scene.renderNode, if_neg Bool.false_ne_true, if_neg Bool.false_ne_true,
    Scene.renderBlock_each hblock, Scene.renderBlock_each hblock, hc]
  congr 2
  apply Plan.render_congr
  intro hbranch f hf
  obtain ⟨_, hentries', ⟨k, x⟩, he, i, rfl, hi⟩ := Plan.exists_of_ofEntries hbranch hf
  obtain rfl := Option.some.inj (hentries.symm.trans hentries')
  have houtput : scene.evaluate (frame.item x i) (.path outer) = pure v := by
    rw [Scene.evaluate, ← Frame.valueOf_congr _ houter, Frame.item, Frame.valueOf_outward, hc]
  have hkeyed : scene.evaluate (frame.item x i) (.path key) = pure k := by
    rw [Scene.evaluate, ← Frame.valueOf_congr _ hkey]
    exact congrArg pure hi
  rw [Scene.renderNodes_singleton, Scene.renderNodes_singleton, Scene.renderNode, Scene.renderNode,
    Scene.renderOutput_lookup hcall houtput hkeyed, Scene.renderOutput_here _ hhere, writePart,
    segment?_of_mem hentries happart he]
  rfl

/-- A mapping in which the text of one key may be read as another kind of key. -/
def mixedKeys : List (Key × Value) :=
  [(.int64 7, .string "long"), (.string "07", .string "text"), (.int32 (-7), .string "short")]

theorem Value.lookup_entries_mixed :
    let scene : Scene := ⟨.new {}, ⟨none, "", []⟩, none⟩
    let frame : Frame := .root (.record [("m", .map mixedKeys)])
    let m : Path := .plain "m"
    (map mixedKeys).entries? = some (mixedKeys.map fun e => (ofKey e.1, e.2)) ∧ (map mixedKeys).NamesApart ∧
      frame.valueOf m = map mixedKeys ∧
      (map mixedKeys).segment? "-7" = some (.string "short") ∧
      scene.renderNode (.block ⟨.plain "each", ⟨[.path m], []⟩, default⟩ false
          [.output ⟨.path (.plain "lookup"), ⟨[.path m.outward, .path .key], []⟩, default⟩ true default] none default) frame =
        scene.renderNode (.block ⟨.plain "each", ⟨[.path m], []⟩, default⟩ false
          [.output ⟨.path .here, ⟨[], []⟩, default⟩ true default] none default) frame := by
  intro scene frame m
  have hentries : (map mixedKeys).entries? = some (mixedKeys.map fun e => (ofKey e.1, e.2)) := rfl
  have happart : (map mixedKeys).NamesApart := by
    unfold NamesApart
    decide +kernel
  have hm : frame.valueOf m = map mixedKeys := by rfl
  have hself : ∀ p : Path, SamePath p p := fun p => ⟨rfl, rfl, rfl⟩
  obtain ⟨hfound, hrender⟩ := lookup_entries hentries happart
  have hshort : (map mixedKeys).segment? "-7" = some (.string "short") := by
    have hmem : (ofKey (.int32 (-7)), Value.string "short") ∈ mixedKeys.map fun e => (ofKey e.1, e.2) := by
      simp [mixedKeys]
    have htext : (ofKey (.int32 (-7))).text = "-7" := by decide +kernel
    rw [← htext]
    exact hfound _ hmem
  exact ⟨hentries, happart, hm, hshort,
    hrender scene frame _ _ m _ _ _ rfl rfl hm (hself _) (hself _) (hself _) (hself _) (hself _) _ _ _ _ _ _ none⟩

end Curly
