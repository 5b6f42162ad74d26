import Curly.Rendering

/-!
# Documents as data

A document becomes a value at once, or as data that is gone through call by
call, with a key that waits for its value. Both ways lead to the same value
(`Engine.render_document`).
-/

namespace Curly

/-! ## Numbers of documents -/

/-- The kinds of numbers are apart: what is not negative is natural, and what is not finite is no number. -/
def Number.Proper : Number → Prop
  | .natural _ => True
  | .negative n => n < 0
  | .real x => x.isFinite = true

mutual

/-- The numbers in the document are proper. -/
def Document.Proper : Document → Prop
  | .number n => n.Proper
  | .array items => ProperItems items
  | .object members => ProperMembers members
  | .null | .bool _ | .string _ => True

def ProperItems : List Document → Prop
  | [] => True
  | d :: ds => d.Proper ∧ ProperItems ds

def ProperMembers : List (String × Document) → Prop
  | [] => True
  | (_, d) :: members => d.Proper ∧ ProperMembers members

end

namespace Data

theorem toValue_number {n : Number} (h : n.Proper) : (ofDocument (.number n)).toValue = .ok (.number n) := by
  cases n with
  | natural n => rfl
  | negative n =>
    have hn : Number.ofInt64 n = .negative n := if_pos h
    simp only [ofDocument, toValue, integerNumber, hn, Except.map]
  | real x =>
    have hx : Number.ofFloat? x = some (.real x) := if_pos h
    simp only [ofDocument, toValue, Value.ofFloat, hx]

mutual

theorem toValue_ofDocument :
    ∀ d : Document, d.Proper → (ofDocument d).toValue = .ok (Value.ofDocument d)
  | .null, _ => by
    simp only [ofDocument, toValue, Value.ofDocument]
  | .bool b, _ => by
    simp only [ofDocument, toValue, Value.ofDocument]
  | .number n, h => by
    rw [Document.Proper] at h
    rw [toValue_number h, Value.ofDocument]
  | .string s, _ => by
    simp only [ofDocument, toValue, Value.ofDocument]
  | .array items, h => by
    rw [Document.Proper] at h
    have hitems := itemValues_ofItems items h
    simp only [ofDocument, toValue, hitems, Except.map, Value.ofDocument]
  | .object members, h => by
    rw [Document.Proper] at h
    have hmembers := entryValues_ofMembers members h []
    simp only [ofDocument, toValue, hmembers, Except.map, Value.ofDocument]

theorem itemValues_ofItems :
    ∀ ds : List Document, ProperItems ds → itemValues (ofItems ds) = .ok (Value.ofItems ds)
  | [], _ => by
    simp only [ofItems, itemValues, Value.ofItems]
  | d :: ds, h => by
    rw [ProperItems] at h
    have hd := toValue_ofDocument d h.1
    have hds := itemValues_ofItems ds h.2
    simp only [ofItems, itemValues, hd, hds, Value.ofItems]
    rfl

/-- Each member takes two calls, after which no key waits. -/
theorem entryValues_ofMembers :
    ∀ members : List (String × Document), ProperMembers members →
      ∀ seen, entryValues seen none (ofMembers members) = .ok (Value.putMembers seen members)
  | [], _, seen => by
    simp only [ofMembers, entryValues, Value.putMembers]
  | (name, d) :: members, h, seen => by
    rw [ProperMembers] at h
    have hd := toValue_ofDocument d h.1
    have hmembers := entryValues_ofMembers members h.2 (put (.string name) (Value.ofDocument d) seen)
    simp only [ofMembers, entryValues, toKey, hd, Value.putMembers]
    exact hmembers

end

end Data

/-- A document has the same value on either way, so whatever is rendered with it is the same. -/
theorem Engine.render_document {d : Document} (h : d.Proper) :
    (Data.ofDocument d).toValue = .ok (Value.ofDocument d) ∧
      ∀ (engine : Engine) (template : Template),
        engine.renderData template (Data.ofDocument d) = engine.render template (Value.ofDocument d) := by
  have hvalue := Data.toValue_ofDocument d h
  refine ⟨hvalue, ?_⟩
  intro engine template
  have hrun : Run.ofExcept (Data.ofDocument d).value = pure (Value.ofDocument d) := by
    rw [Data.value, hvalue]
    rfl
  rw [Engine.renderData, hrun, pure_bind]

/-- Numbers of all kinds, in arrays and objects within each other. -/
theorem Engine.render_document_nested :
    (Document.object [("a", .array [.number (.negative (-2)), .number (.real 1.5)]),
        ("b", .object [("c", .number (.natural 3)), ("d", .null)])]).Proper ∧
      ∀ (engine : Engine) (template : Template),
        engine.renderData template (Data.ofDocument (.object
            [("a", .array [.number (.negative (-2)), .number (.real 1.5)]),
              ("b", .object [("c", .number (.natural 3)), ("d", .null)])])) =
          engine.render template (.map
            [(.string "a", .array [.number (.negative (-2)), .number (.real 1.5)]),
              (.string "b", .map [(.string "c", .number (.natural 3)), (.string "d", .null)])]) := by
  have h : (Document.object [("a", .array [.number (.negative (-2)), .number (.real 1.5)]),
      ("b", .object [("c", .number (.natural 3)), ("d", .null)])]).Proper := by
    simp only [Document.Proper, ProperMembers, ProperItems, Number.Proper]
    decide
  exact ⟨h, (Engine.render_document h).2⟩

end Curly
