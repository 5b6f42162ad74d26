/-!
# Entries

Keyed entries in the order in which their keys came first. Putting a value
under a key that is there replaces the value in place.
-/

namespace Curly

variable {κ α : Type} [DecidableEq κ]

def valueAt (k : κ) : List (κ × α) → Option α
  | [] => none
  | (k', v) :: rest => if k' = k then some v else valueAt k rest

def put (k : κ) (v : α) : List (κ × α) → List (κ × α)
  | [] => [(k, v)]
  | (k', v') :: rest => if k' = k then (k', v) :: rest else (k', v') :: put k v rest

theorem valueAt_put_self (k : κ) (v : α) (es : List (κ × α)) : valueAt k (put k v es) = some v := by
  induction es with
  | nil => simp [put, valueAt]
  | cons e rest ih => unfold put; split <;> simp_all [valueAt]

theorem valueAt_put_of_ne {k k' : κ} (h : k' ≠ k) (v : α) (es : List (κ × α)) :
    valueAt k' (put k v es) = valueAt k' es := by
  induction es with
  | nil => simp [put, valueAt, Ne.symm h]
  | cons e rest ih => unfold put; split <;> simp_all [valueAt, eq_comm]

theorem mem_of_valueAt {k : κ} {v : α} {es : List (κ × α)} (h : valueAt k es = some v) : (k, v) ∈ es := by
  induction es with
  | nil => cases h
  | cons e rest ih =>
    rw [valueAt] at h
    split at h
    · rename_i hk
      cases h
      exact hk ▸ List.mem_cons_self ..
    · exact List.mem_cons_of_mem _ (ih h)

/-- A new key goes to the end, a key that is there keeps its place. -/
theorem keys_put (k : κ) (v : α) (es : List (κ × α)) :
    (put k v es).map Prod.fst =
      if k ∈ es.map Prod.fst then es.map Prod.fst else es.map Prod.fst ++ [k] := by
  induction es with
  | nil => simp [put]
  | cons e rest ih =>
    unfold put
    by_cases h : e.1 = k
    · simp [h]
    · have : k ≠ e.1 := Ne.symm h
      simp only [h, if_false, List.map_cons, ih, List.mem_cons, this, false_or]
      split <;> simp

theorem put_of_notMem {k : κ} {es : List (κ × α)} (h : k ∉ es.map Prod.fst) (v : α) :
    put k v es = es ++ [(k, v)] := by
  induction es with
  | nil => rfl
  | cons e rest ih =>
    rw [List.map_cons, List.mem_cons, not_or] at h
    rw [put, if_neg (Ne.symm h.1), ih h.2, List.cons_append]

end Curly
