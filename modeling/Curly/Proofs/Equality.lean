import Curly.Proofs.Supported
import Mathlib.Data.List.Forall2
import Mathlib.Data.List.Perm.Subperm

/-!
# Equality of values

Equality of values is an equivalence (`Value.same_equivalence`), on values in which
numbers are finite and no key comes twice, as in all that data is turned into
(`Data.wellFormed_value`). Numbers are equal that are one number or have one
floating-point form. Mappings and records are compared key by key: those with as
many entries whose keys lead to equal values have the same keys, so that it does
not matter which of the two is gone through.
-/

namespace Curly

/-! ## Numbers -/

namespace Number

open Float.Model (UnpackedFloat)

/-- Nothing but a floating-point number could be infinite, or none at all. -/
def Finite : Number → Prop
  | .real x => x.isFinite = true
  | _ => True

/-- What a float is compared as: both zeros as one, and what is not a number as nothing. -/
def compared : UnpackedFloat → Option UnpackedFloat
  | .notANumber => none
  | .zero _ => some (.zero .positive)
  | u => some u

variable {u v w : UnpackedFloat} {x y z : Float} {a b c : Number}

theorem then_compare_eq_iff {e e' : Int} {m m' : Nat} :
    (compare e e').then (compare m m') = .eq ↔ e = e' ∧ m = m' := by
  rw [Ordering.then_eq_eq, Std.compare_eq_iff_eq, Std.compare_eq_iff_eq]

theorem exists_compared (h : u.compare v = some .eq) : ∃ w, compared u = some w ∧ compared v = some w := by
  cases u with
  | notANumber => cases h
  | infinity s =>
    cases v with
    | infinity s' =>
      cases s <;> cases s'
      · exact ⟨_, rfl, rfl⟩
      · cases h
      · cases h
      · exact ⟨_, rfl, rfl⟩
    | _ => cases s <;> cases h
  | zero s =>
    cases v with
    | notANumber => cases h
    | infinity s' => cases s' <;> cases h
    | zero s' => exact ⟨_, rfl, rfl⟩
    | finite s' m' e' hm' => cases s' <;> cases h
  | finite s m e hm =>
    cases v with
    | notANumber => cases s <;> cases h
    | infinity s' => cases s <;> cases s' <;> cases h
    | zero s' => cases s <;> cases h
    | finite s' m' e' hm' =>
      cases s <;> cases s'
      · obtain ⟨rfl, rfl⟩ := then_compare_eq_iff.mp (Ordering.swap_eq_eq.mp (Option.some.inj h))
        exact ⟨_, rfl, rfl⟩
      · cases h
      · cases h
      · obtain ⟨rfl, rfl⟩ := then_compare_eq_iff.mp (Option.some.inj h)
        exact ⟨_, rfl, rfl⟩

theorem compare_of_compared (hu : compared u = some w) (hv : compared v = some w) : u.compare v = some .eq := by
  cases u with
  | notANumber => cases hu
  | infinity s =>
    cases hu
    cases v with
    | infinity s' =>
      cases hv
      cases s <;> rfl
    | _ => cases hv
  | zero s =>
    cases hu
    cases v with
    | zero s' => rfl
    | _ => cases hv
  | finite s m e hm =>
    cases hu
    cases v with
    | finite s' m' e' hm' =>
      cases hv
      have hsame : (compare e e).then (compare m m) = .eq := then_compare_eq_iff.mpr ⟨rfl, rfl⟩
      cases s
      · exact congrArg (fun o => some o.swap) hsame
      · exact congrArg some hsame
    | _ => cases hv

theorem float_beq_iff : (x == y) = true ↔
    ∃ w, compared x.toModel.unpack = some w ∧ compared y.toModel.unpack = some w := by
  have hbeq : (x == y) = (x.toModel.unpack.compare y.toModel.unpack == some .eq) := rfl
  rw [hbeq, beq_iff_eq]
  constructor
  · exact exists_compared
  · rintro ⟨w, hx, hy⟩
    exact compare_of_compared hx hy

theorem float_refl (h : x.isFinite = true) : (x == x) = true := by
  have hfinite : x.toModel.unpack.isFinite = true := h
  rw [float_beq_iff]
  cases hx : x.toModel.unpack with
  | notANumber =>
    rw [hx] at hfinite
    cases hfinite
  | infinity s => exact ⟨_, rfl, rfl⟩
  | zero s => exact ⟨_, rfl, rfl⟩
  | finite s m e hm => exact ⟨_, rfl, rfl⟩

theorem float_symm (h : (x == y) = true) : (y == x) = true := by
  obtain ⟨w, hx, hy⟩ := float_beq_iff.mp h
  exact float_beq_iff.mpr ⟨w, hy, hx⟩

theorem float_trans (h : (x == y) = true) (h' : (y == z) = true) : (x == z) = true := by
  obtain ⟨w, hx, hy⟩ := float_beq_iff.mp h
  obtain ⟨w', hy', hz⟩ := float_beq_iff.mp h'
  obtain rfl : w = w' := Option.some.inj (hy.symm.trans hy')
  exact float_beq_iff.mpr ⟨w, hx, hz⟩

theorem same_cases (h : a.same b = true) : a = b ∨ (a.toFloat == b.toFloat) = true := by
  unfold same at h
  rcases Bool.or_eq_true_iff.mp h with h | h
  · cases a <;> cases b <;> simp_all [identical, toFloat]
  · exact .inr h

theorem same_of_float (h : (a.toFloat == b.toFloat) = true) : a.same b = true := by
  rw [same, h, Bool.or_true]

theorem same_refl (h : a.Finite) : a.same a = true := by
  cases a with
  | natural n => simp [same, identical]
  | negative n => simp [same, identical]
  | real x => exact same_of_float (float_refl h)

theorem same_symm (h : a.same b = true) : b.same a = true := by
  rcases same_cases h with rfl | hfloat
  · exact h
  · exact same_of_float (float_symm hfloat)

theorem same_trans (h : a.same b = true) (h' : b.same c = true) : a.same c = true := by
  rcases same_cases h with rfl | hab
  · exact h'
  · rcases same_cases h' with rfl | hbc
    · exact h
    · exact same_of_float (float_trans hab hbc)

theorem same_iff (h : a.Finite) : a.same b = true ↔ a = b ∨ (a.toFloat == b.toFloat) = true := by
  constructor
  · exact same_cases
  · rintro (rfl | hfloat)
    · exact same_refl h
    · exact same_of_float hfloat

end Number

/-! ## Keyed values -/

namespace Value

/-- Numbers are finite and no key comes twice, on all levels of nesting. -/
inductive WellFormed : Value → Prop
  | null : WellFormed .null
  | bool (b : Bool) : WellFormed (.bool b)
  | number {n : Number} : n.Finite → WellFormed (.number n)
  | string (s : String) : WellFormed (.string s)
  | array {items : List Value} : (∀ v ∈ items, WellFormed v) → WellFormed (.array items)
  | map {entries : List (Key × Value)} :
    (entries.map Prod.fst).Nodup → (∀ e ∈ entries, WellFormed e.2) → WellFormed (.map entries)
  | record {fields : List (String × Value)} :
    (fields.map Prod.fst).Nodup → (∀ f ∈ fields, WellFormed f.2) → WellFormed (.record fields)
  | dynamic (identity : Nat) (properties : List (String × Value)) (names : List String) :
    WellFormed (.dynamic identity properties names)

section
variable {κ : Type} [DecidableEq κ] {xs ys zs : List (κ × Value)}

theorem key_mem_of_valueAt {k : κ} {v : Value} (h : valueAt k xs = some v) : k ∈ xs.map Prod.fst :=
  List.mem_map_of_mem (mem_of_valueAt h)

theorem keys_subset (h : ∀ e ∈ xs, ∃ w, valueAt e.1 ys = some w) : xs.map Prod.fst ⊆ ys.map Prod.fst := by
  intro k hk
  obtain ⟨e, he, rfl⟩ := List.mem_map.mp hk
  obtain ⟨w, hw⟩ := h e he
  exact key_mem_of_valueAt hw

/-- There are as many entries, and each one's key leads to an equal value. -/
def SameKeyed (xs ys : List (κ × Value)) : Prop :=
  xs.length = ys.length ∧ ∀ e ∈ xs, ∃ w, valueAt e.1 ys = some w ∧ e.2.same w = true

namespace SameKeyed

theorem refl (hkeys : (xs.map Prod.fst).Nodup) (h : ∀ e ∈ xs, e.2.same e.2 = true) : SameKeyed xs xs :=
  ⟨rfl, fun e he => ⟨e.2, valueAt_of_mem hkeys he, h e he⟩⟩

/-- All keys of the first are keys of the second. So where none comes twice and there are as many, the second has
no others. -/
theorem keys_perm (h : SameKeyed xs ys) (hkeys : (xs.map Prod.fst).Nodup) :
    (xs.map Prod.fst).Perm (ys.map Prod.fst) := by
  have hsubset : xs.map Prod.fst ⊆ ys.map Prod.fst := by
    apply keys_subset
    intro e he
    obtain ⟨w, hw, -⟩ := h.2 e he
    exact ⟨w, hw⟩
  apply (hkeys.subperm hsubset).perm_of_length_le
  rw [List.length_map, List.length_map, h.1]

theorem symm (h : SameKeyed xs ys) (hkeys : (xs.map Prod.fst).Nodup)
    (hsymm : ∀ e ∈ xs, ∀ w, e.2.same w = true → w.same e.2 = true) : SameKeyed ys xs := by
  have hperm := h.keys_perm hkeys
  refine ⟨h.1.symm, ?_⟩
  rintro ⟨k, w⟩ hw
  obtain ⟨⟨k, v⟩, hv, rfl⟩ := List.mem_map.mp (hperm.mem_iff.mpr (List.mem_map_of_mem hw))
  obtain ⟨w', hw', hsame⟩ := h.2 _ hv
  obtain rfl : w = w' := Option.some.inj ((valueAt_of_mem (hperm.nodup_iff.mp hkeys) hw).symm.trans hw')
  exact ⟨v, valueAt_of_mem hkeys hv, hsymm _ hv w hsame⟩

theorem trans (h : SameKeyed xs ys) (h' : SameKeyed ys zs)
    (htrans : ∀ e ∈ xs, ∀ v w, e.2.same v = true → v.same w = true → e.2.same w = true) :
    SameKeyed xs zs := by
  refine ⟨h.1.trans h'.1, ?_⟩
  intro e he
  obtain ⟨v, hv, hev⟩ := h.2 e he
  have hmem : (e.1, v) ∈ ys := mem_of_valueAt hv
  obtain ⟨w, hw, hvw⟩ := h'.2 _ hmem
  exact ⟨w, hw, htrans e he v w hev hvw⟩

end SameKeyed

/-- Entries are the same that look up equal values under every key. -/
theorem sameKeyed_iff (hx : (xs.map Prod.fst).Nodup) (hy : (ys.map Prod.fst).Nodup) :
    SameKeyed xs ys ↔ ∀ k, Option.Rel (fun v w => v.same w = true) (valueAt k xs) (valueAt k ys) := by
  constructor
  · intro h k
    cases hv : valueAt k xs with
    | some v =>
      obtain ⟨w, hw, hsame⟩ := h.2 (k, v) (mem_of_valueAt hv)
      rw [hw]
      exact .some hsame
    | none =>
      cases hw : valueAt k ys with
      | none => exact .none
      | some w =>
        have hk := (h.keys_perm hx).mem_iff.mpr (key_mem_of_valueAt hw)
        obtain ⟨⟨k, v⟩, hmem, rfl⟩ := List.mem_map.mp hk
        rw [valueAt_of_mem hx hmem] at hv
        cases hv
  · intro h
    have hsame : ∀ e ∈ xs, ∃ w, valueAt e.1 ys = some w ∧ e.2.same w = true := by
      intro e he
      have hrel := h e.1
      rw [valueAt_of_mem hx he] at hrel
      generalize valueAt e.1 ys = found at hrel
      cases hrel with
      | some hsame => exact ⟨_, rfl, hsame⟩
    have hback : ∀ e ∈ ys, ∃ v, valueAt e.1 xs = some v := by
      intro e he
      have hrel := h e.1
      rw [valueAt_of_mem hy he] at hrel
      generalize valueAt e.1 xs = found at hrel
      cases hrel with
      | some _ => exact ⟨_, rfl⟩
    have hforth : ∀ e ∈ xs, ∃ w, valueAt e.1 ys = some w := by
      intro e he
      obtain ⟨w, hw, -⟩ := hsame e he
      exact ⟨w, hw⟩
    have hlength := Nat.le_antisymm (hx.subperm (keys_subset hforth)).length_le
      (hy.subperm (keys_subset hback)).length_le
    rw [List.length_map, List.length_map] at hlength
    exact ⟨hlength, hsame⟩

end

/-! ### Equality of nested values -/

theorem same_array {xs ys : List Value} :
    (array xs).same (array ys) = true ↔ List.Forall₂ (fun v w => v.same w = true) xs ys := by
  rw [same]
  induction xs generalizing ys with
  | nil => cases ys <;> simp [sameItems]
  | cons x xs ih =>
    cases ys with
    | nil => simp [sameItems]
    | cons y ys => rw [sameItems, Bool.and_eq_true, List.forall₂_cons, ih]

theorem sameEntries_iff {xs ys : List (Key × Value)} :
    sameEntries xs ys = true ↔ ∀ e ∈ xs, ∃ w, valueAt e.1 ys = some w ∧ e.2.same w = true := by
  induction xs with
  | nil => simp [sameEntries]
  | cons e xs ih =>
    rw [sameEntries, Bool.and_eq_true, ih, List.forall_mem_cons]
    cases valueAt e.1 ys <;> simp

theorem sameFields_iff {xs ys : List (String × Value)} :
    sameFields xs ys = true ↔ ∀ e ∈ xs, ∃ w, valueAt e.1 ys = some w ∧ e.2.same w = true := by
  induction xs with
  | nil => simp [sameFields]
  | cons e xs ih =>
    rw [sameFields, Bool.and_eq_true, ih, List.forall_mem_cons]
    cases valueAt e.1 ys <;> simp

theorem same_map {xs ys : List (Key × Value)} : (map xs).same (map ys) = true ↔ SameKeyed xs ys := by
  rw [same, Bool.and_eq_true, beq_iff_eq, sameEntries_iff, SameKeyed]

theorem same_record {xs ys : List (String × Value)} : (record xs).same (record ys) = true ↔ SameKeyed xs ys := by
  rw [same, Bool.and_eq_true, beq_iff_eq, sameFields_iff, SameKeyed]

/-- Values of one kind whose parts are the same. -/
inductive Alike : Value → Value → Prop
  | null : Alike .null .null
  | bool (b : Bool) : Alike (.bool b) (.bool b)
  | number {a b : Number} : a.same b = true → Alike (.number a) (.number b)
  | string (s : String) : Alike (.string s) (.string s)
  | array {xs ys : List Value} : List.Forall₂ (fun v w => v.same w = true) xs ys → Alike (.array xs) (.array ys)
  | map {xs ys : List (Key × Value)} : SameKeyed xs ys → Alike (.map xs) (.map ys)
  | record {xs ys : List (String × Value)} : SameKeyed xs ys → Alike (.record xs) (.record ys)
  | dynamic (identity : Nat) {properties properties' : List (String × Value)} {names names' : List String} :
    Alike (.dynamic identity properties names) (.dynamic identity properties' names')

variable {x y z : Value}

theorem alike_of_same (h : x.same y = true) : Alike x y := by
  cases x <;> cases y <;> try (simp only [same, reduceCtorEq] at h)
  case null.null => exact .null
  case bool.bool => exact beq_iff_eq.mp h ▸ .bool _
  case number.number => exact .number h
  case string.string => exact beq_iff_eq.mp h ▸ .string _
  case array.array => exact .array (same_array.mp (by rwa [same]))
  case map.map => exact .map (same_map.mp (by rwa [same]))
  case record.record => exact .record (same_record.mp (by rwa [same]))
  case dynamic.dynamic => exact beq_iff_eq.mp h ▸ .dynamic _

theorem Alike.same (h : Alike x y) : x.same y = true := by
  cases h with
  | null => rw [Value.same]
  | bool b => rw [Value.same, beq_self_eq_true]
  | number hsame => rwa [Value.same]
  | string s => rw [Value.same, beq_self_eq_true]
  | array hitems => exact same_array.mpr hitems
  | map hentries => exact same_map.mpr hentries
  | record hfields => exact same_record.mpr hfields
  | dynamic identity => rw [Value.same, beq_self_eq_true]

theorem WellFormed.same_refl (h : x.WellFormed) : x.same x = true := by
  refine Alike.same ?_
  induction h with
  | null => exact .null
  | bool b => exact .bool b
  | number hfinite => exact .number (Number.same_refl hfinite)
  | string s => exact .string s
  | array _ ih => exact .array (List.forall₂_same.mpr fun v hv => (ih v hv).same)
  | map hkeys _ ih => exact .map (.refl hkeys fun e he => (ih e he).same)
  | record hkeys _ ih => exact .record (.refl hkeys fun e he => (ih e he).same)
  | dynamic identity => exact .dynamic identity

theorem WellFormed.same_symm (h : x.WellFormed) (hsame : x.same y = true) : y.same x = true := by
  refine Alike.same ?_
  induction h generalizing y with
  | null | bool | string | dynamic =>
    cases alike_of_same hsame
    constructor
  | number =>
    cases alike_of_same hsame with
    | number hnumber => exact .number (Number.same_symm hnumber)
  | array _ ih =>
    cases alike_of_same hsame with
    | array hitems =>
      have hback := (List.forall₂_and_left _ _).mpr ⟨fun v hv w h => (ih v hv (y := w) h).same, hitems⟩
      exact .array (hback.imp fun _ w h => h.1 w h.2).flip
  | map hkeys _ ih =>
    cases alike_of_same hsame with
    | map hentries => exact .map (hentries.symm hkeys fun e he _ h => (ih e he h).same)
  | record hkeys _ ih =>
    cases alike_of_same hsame with
    | record hfields => exact .record (hfields.symm hkeys fun e he _ h => (ih e he h).same)

theorem forall₂_trans {xs ys zs : List Value} (hxy : List.Forall₂ (fun v w => v.same w = true) xs ys)
    (hyz : List.Forall₂ (fun v w => v.same w = true) ys zs)
    (htrans : ∀ u ∈ xs, ∀ v w, u.same v = true → v.same w = true → u.same w = true) :
    List.Forall₂ (fun v w => v.same w = true) xs zs := by
  induction hxy generalizing zs with
  | nil => exact hyz
  | cons hxy _ ih =>
    obtain ⟨z, zs, hz, hzs, rfl⟩ := List.forall₂_cons_left_iff.mp hyz
    rw [List.forall_mem_cons] at htrans
    exact .cons (htrans.1 _ _ hxy hz) (ih hzs htrans.2)

theorem WellFormed.same_trans (h : x.WellFormed) (hxy : x.same y = true) (hyz : y.same z = true) :
    x.same z = true := by
  refine Alike.same ?_
  induction h generalizing y z with
  | null | bool | string | dynamic =>
    cases alike_of_same hxy
    cases alike_of_same hyz
    constructor
  | number =>
    cases alike_of_same hxy with
    | number hfirst =>
      cases alike_of_same hyz with
      | number hsecond => exact .number (Number.same_trans hfirst hsecond)
  | array _ ih =>
    cases alike_of_same hxy with
    | array hfirst =>
      cases alike_of_same hyz with
      | array hsecond => exact .array (forall₂_trans hfirst hsecond fun v hv _ _ h h' => (ih v hv h h').same)
  | map _ _ ih =>
    cases alike_of_same hxy with
    | map hfirst =>
      cases alike_of_same hyz with
      | map hsecond => exact .map (hfirst.trans hsecond fun e he _ _ h h' => (ih e he h h').same)
  | record _ _ ih =>
    cases alike_of_same hxy with
    | record hfirst =>
      cases alike_of_same hyz with
      | record hsecond => exact .record (hfirst.trans hsecond fun e he _ _ h h' => (ih e he h h').same)

theorem WellFormed.nodup_keys {entries : List (Key × Value)} (h : (Value.map entries).WellFormed) :
    (entries.map Prod.fst).Nodup := by
  cases h with
  | map hkeys _ => exact hkeys

theorem WellFormed.nodup_names {fields : List (String × Value)} (h : (Value.record fields).WellFormed) :
    (fields.map Prod.fst).Nodup := by
  cases h with
  | record hkeys _ => exact hkeys

/-- Equality of values is an equivalence. Mappings and records are equal that have equal values under every key,
dynamic objects that are one, numbers that are one or have the same floating-point form. -/
theorem same_equivalence :
    Equivalence (fun v w : {v : Value // v.WellFormed} => v.1.same w.1 = true) ∧
      (∀ xs ys : List Value,
        (array xs).same (array ys) = true ↔ List.Forall₂ (fun v w => v.same w = true) xs ys) ∧
      (∀ xs ys : List (Key × Value), (map xs).WellFormed → (map ys).WellFormed →
        ((map xs).same (map ys) = true ↔
          ∀ k, Option.Rel (fun v w => v.same w = true) (valueAt k xs) (valueAt k ys))) ∧
      (∀ xs ys : List (String × Value), (record xs).WellFormed → (record ys).WellFormed →
        ((record xs).same (record ys) = true ↔
          ∀ name, Option.Rel (fun v w => v.same w = true) (valueAt name xs) (valueAt name ys))) ∧
      (∀ (i j : Nat) (properties properties' : List (String × Value)) (names names' : List String),
        (dynamic i properties names).same (dynamic j properties' names') = true ↔ i = j) ∧
      ∀ a b : Number, a.Finite →
        ((number a).same (number b) = true ↔ a = b ∨ (a.toFloat == b.toFloat) = true) := by
  refine ⟨⟨?_, ?_, ?_⟩, ?_, ?_, ?_, ?_, ?_⟩
  · intro v
    exact v.2.same_refl
  · intro v w
    exact v.2.same_symm
  · intro u v w
    exact u.2.same_trans
  · intro xs ys
    exact same_array
  · intro xs ys hx hy
    rw [same_map, sameKeyed_iff hx.nodup_keys hy.nodup_keys]
  · intro xs ys hx hy
    rw [same_record, sameKeyed_iff hx.nodup_names hy.nodup_names]
  · intro i j properties properties' names names'
    rw [same, beq_iff_eq]
  · intro a b ha
    rw [same, Number.same_iff ha]

theorem same_of_swapped :
    (map [(.string "a", .null), (.int32 1, ofNat 2)]).WellFormed ∧
      (map [(.int32 1, ofNat 2), (.string "a", .null)]).WellFormed ∧
      (map [(.string "a", .null), (.int32 1, ofNat 2)]).same
        (map [(.int32 1, ofNat 2), (.string "a", .null)]) = true ∧
      (record [("a", .null)]).WellFormed ∧ (record [("A", .null)]).WellFormed ∧
      (record [("a", .null)]).same (record [("A", .null)]) = false ∧
      (Number.ofNat 2).Finite ∧ (ofNat 2).same (ofNat 2) = true := by
  have htwo : (ofNat 2).same (ofNat 2) = true :=
    (same_equivalence.2.2.2.2.2 (.ofNat 2) (.ofNat 2) trivial).mpr (.inl rfl)
  have hfirst : (map [(.string "a", .null), (.int32 1, ofNat 2)]).WellFormed := by
    refine .map (by decide) ?_
    simpa using ⟨.null, .number trivial⟩
  have hsecond : (map [(.int32 1, ofNat 2), (.string "a", .null)]).WellFormed := by
    refine .map (by decide) ?_
    simpa using ⟨.number trivial, .null⟩
  have hsmall : (record [("a", .null)]).WellFormed := .record (by decide) (by simpa using .null)
  have hcapital : (record [("A", .null)]).WellFormed := .record (by decide) (by simpa using .null)
  refine ⟨hfirst, hsecond, (same_equivalence.2.2.1 _ _ hfirst hsecond).mpr ?_, hsmall, hcapital, ?_, trivial, htwo⟩
  · intro k
    by_cases hk : k = .string "a"
    · subst hk
      exact .some (by rw [same])
    · by_cases hk' : k = .int32 1
      · subst hk'
        exact .some htwo
      · simp [valueAt, Ne.symm hk, Ne.symm hk']
  · refine Bool.eq_false_iff.mpr fun hsame => ?_
    cases (same_equivalence.2.2.2.1 _ _ hsmall hcapital).mp hsame "a"

end Value

/-! ## Values of data -/

section
variable {κ α : Type} [DecidableEq κ] {pairs entries : List (κ × α)}

theorem Gathers.nodup_keys (h : Gathers pairs entries) : (entries.map Prod.fst).Nodup := by
  rw [h.eq_putAll]
  exact nodup_keys_putAll pairs

theorem Gathers.mem_pairs (h : Gathers pairs entries) {e : κ × α} (he : e ∈ entries) : e ∈ pairs := by
  have hvalue := valueAt_of_mem h.nodup_keys he
  rw [h.values] at hvalue
  exact List.mem_reverse.mp (mem_of_valueAt hvalue)

end

namespace Data

mutual

theorem Image.wellFormed : ∀ {d : Data} {v : Value}, Image d v → v.WellFormed
  | _, _, .bool b => .bool b
  | _, _, .char c => .string _
  | _, _, .string s => .string s
  | _, _, .variant name => .string name
  | _, _, .absent | _, _, .singleNull _ | _, _, .doubleNull _ => .null
  | _, _, .single hx | _, _, .double hx => .number hx
  | _, _, .integer _ => by
    refine .number ?_
    unfold Number.ofInt
    split <;> trivial
  | _, _, .bytes bs => by
    refine .array fun v hv => ?_
    obtain ⟨b, -, rfl⟩ := List.mem_map.mp hv
    exact .number trivial
  | _, _, .wrapped h => h.wellFormed
  | _, _, .sequence h => .array h.wellFormed
  | _, _, .record h hgathers =>
    .record hgathers.nodup_keys fun _ he => h.wellFormed _ (hgathers.mem_pairs he)
  | _, _, .mapping h hgathers =>
    .map hgathers.nodup_keys fun _ he => h.wellFormed _ (hgathers.mem_pairs he)
  | _, _, .variantOf h => .record (List.nodup_singleton _) (List.forall_mem_singleton.mpr h.wellFormed)

theorem ItemImages.wellFormed : ∀ {ds : List Data} {vs : List Value}, ItemImages ds vs → ∀ v ∈ vs, v.WellFormed
  | _, _, .nil => List.forall_mem_nil _
  | _, _, .cons h hs => List.forall_mem_cons.mpr ⟨h.wellFormed, hs.wellFormed⟩

theorem FieldImages.wellFormed :
    ∀ {fields : List (String × Data)} {members : List (String × Value)}, FieldImages fields members →
      ∀ m ∈ members, m.2.WellFormed
  | _, _, .nil => List.forall_mem_nil _
  | _, _, .cons h hs => List.forall_mem_cons.mpr ⟨h.wellFormed, hs.wellFormed⟩

theorem PartImages.wellFormed :
    ∀ {pending : Option Key} {parts : List (Part × Data)} {pairs : List (Key × Value)},
      PartImages pending parts pairs → ∀ p ∈ pairs, p.2.WellFormed
  | _, _, _, .nil => List.forall_mem_nil _
  | _, _, _, .key _ hs => hs.wellFormed
  | _, _, _, .value h hs => List.forall_mem_cons.mpr ⟨h.wellFormed, hs.wellFormed⟩

end

/-- What data is turned into can be compared. -/
theorem wellFormed_value {d : Data} {v : Value} (h : d.value = .ok v) : v.WellFormed :=
  (image_of_toValue d (toValue_of_value.mp h)).wellFormed

end Data

end Curly
