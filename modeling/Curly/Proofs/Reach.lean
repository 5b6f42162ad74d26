import Curly.Proofs.Parts
import Curly.Proofs.Render.Output
import Curly.Proofs.Written.Output

/-!
# Every part can be reached

A chain of keys leads from a value to a part of it. Whatever characters the keys
are made of, as long as none is a closing bracket, they can be written in brackets
one behind the other, and the tag that holds them writes the part
(`Engine.render_reached`).
-/

namespace Curly

/-- The keys lead from the value to a part of it, one after the other: by the keys
of mappings, the names of members, and positions, which are machine words, in decimal. -/
inductive Value.Leads : Value → List String → Value → Prop
  | here (v : Value) : Leads v [] v
  | entry {entries : List (Key × Value)} {key : String} {keys : List String} {part x : Value} :
    valueAt (.string key) entries = some part → Leads part keys x → Leads (.map entries) (key :: keys) x
  | member {fields : List (String × Value)} {key : String} {keys : List String} {part x : Value} :
    valueAt key fields = some part → Leads part keys x → Leads (.record fields) (key :: keys) x
  | item {items : List Value} {i : Nat} {keys : List String} {part x : Value} :
    i < UInt64.size → items[i]? = some part → Leads part keys x →
    Leads (.array items) (Decimal.digitsText i :: keys) x

theorem Value.Leads.descend {v x : Value} {keys : List String} (h : v.Leads keys x) : Frame.descend v keys = .ok x := by
  induction h with
  | here v => rfl
  | @entry entries key keys part x hpart _ ih =>
    have hlookup : Key.lookup key entries = some part := by
      rw [Key.lookup, hpart]
      rfl
    rw [Frame.descend, Value.segment?_entry hlookup]
    exact ih
  | member hpart _ ih =>
    rw [Frame.descend, Value.segment?_member hpart]
    exact ih
  | item hword hpart _ ih =>
    rw [Frame.descend, Value.segment?_item hword hpart]
    exact ih

/-! ## The path of a chain -/

namespace Path

/-- The keys as a path from the current value. The text is that of no key. -/
def ofKeys (keys : List String) : Path :=
  ⟨.context 0, keys, [']'], default⟩

variable {keys : List String}

theorem isSimple_ofKeys (hkeys : ∀ k ∈ keys, ']' ∉ k.toList) : (ofKeys keys).isSimple = false := by
  have hne : keys ≠ [String.ofList [']']] := by
    rintro rfl
    exact hkeys _ (List.mem_singleton_self _) (by decide)
  simp [isSimple, ofKeys, hne]

theorem writable_ofKeys (hkeys : ∀ k ∈ keys, ']' ∉ k.toList) : (ofKeys keys).Writable :=
  .inr ⟨isSimple_ofKeys hkeys, trivial, hkeys⟩

theorem written_ofKeys (hne : keys ≠ []) (hkeys : ∀ k ∈ keys, ']' ∉ k.toList) : (ofKeys keys).written = joined keys := by
  have hfull : keys.isEmpty = false := by simpa using hne
  rw [written, isSimple_ofKeys hkeys]
  simp [ofKeys, hopsText, target, hfull]

end Path

/-- A part that a chain of keys leads to is written by the tag that holds the keys in
brackets: as it is between three braces, escaped between two. No helper is asked. -/
theorem Engine.render_reached {v x : Value} {keys : List String} (hleads : v.Leads keys x) (hne : keys ≠ [])
    (hkeys : ∀ k ∈ keys, ']' ∉ k.toList) (name : Option String) :
    ∃ raw escaped,
      Template.compile name ("\x7b\x7b\x7b" ++ String.ofList (Path.joined keys) ++ "\x7d\x7d\x7d") = .ok raw ∧
      Template.compile name ("\x7b\x7b" ++ String.ofList (Path.joined keys) ++ "\x7d\x7d") = .ok escaped ∧
      ∀ engine : Engine, engine.render raw v = pure x.text ∧ engine.render escaped v = pure (Text.escaped x.text) := by
  have hboth : ∀ escaped, ∃ t,
      Template.compile name (outputText escaped (String.ofList (Path.joined keys))) = .ok t ∧
        ∀ engine : Engine, engine.render t v = pure (Text.writtenIn escaped x.text) := by
    intro escaped
    have hwritable := Path.writable_ofKeys hkeys
    obtain ⟨-, hreads⟩ := hwritable.reads
    obtain ⟨t, q, region, region', ht, hnodes, hsame⟩ :=
      Template.compile_path hreads (Path.head_written hwritable) escaped name
    rw [Path.written_ofKeys hne hkeys] at ht
    refine ⟨t, ht, ?_⟩
    intro engine
    have hresolve : (Frame.root v).resolve q = .ok x := by
      rw [Frame.resolve, ← hsame.origin, ← hsame.segments]
      exact hleads.descend
    have houtput : (engine.scene engine.config.recursionLimit t).renderOutput (.root v)
        ⟨.path q, ⟨[], []⟩, region⟩ escaped = Scene.writeValue x escaped := by
      rw [Scene.renderOutput_path (hsame.isSimple.symm.trans (Path.isSimple_ofKeys hkeys)), hresolve]
    rw [Engine.render, Engine.renderTemplate_output hnodes houtput (Scene.writeValue_ok x escaped),
      Scene.capture_writeValue]
  obtain ⟨raw, hraw, hrawText⟩ := hboth false
  obtain ⟨escaped, hescaped, hescapedText⟩ := hboth true
  exact ⟨raw, escaped, hraw, hescaped, fun engine => ⟨hrawText engine, hescapedText engine⟩⟩

def awkward : Value :=
  .record [("else", .array [.null, .map [(.string "\x7d\x7d \x7b\x7b", .string "<this>")]])]

theorem Engine.render_reached_awkward :
    let keys := ["else", Decimal.digitsText 1, "\x7d\x7d \x7b\x7b"]
    awkward.Leads keys (.string "<this>") ∧ keys ≠ [] ∧ (∀ k ∈ keys, ']' ∉ k.toList) ∧
      ∃ raw escaped,
        Template.compile none ("\x7b\x7b\x7b" ++ String.ofList (Path.joined keys) ++ "\x7d\x7d\x7d") = .ok raw ∧
        Template.compile none ("\x7b\x7b" ++ String.ofList (Path.joined keys) ++ "\x7d\x7d") = .ok escaped ∧
        ∀ engine : Engine, engine.render raw awkward = pure "<this>" ∧
          engine.render escaped awkward = pure (Text.escaped "<this>") := by
  intro keys
  have hleads : awkward.Leads keys (.string "<this>") :=
    .member rfl (.item (by decide) rfl (.entry rfl (.here _)))
  have hkeys : ∀ k ∈ keys, ']' ∉ k.toList := by decide +kernel
  exact ⟨hleads, nofun, hkeys, render_reached hleads nofun hkeys none⟩

end Curly
