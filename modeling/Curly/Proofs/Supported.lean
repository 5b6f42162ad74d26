import Curly.Proofs.Integers

/-!
# Data that has a value

Data is gone through call by call, keys before their values, and the first call
that is not supported says why there is no value. If all are, the value shows the
data part by part (`Data.value_iff`).
-/

namespace Curly

/-! ## Entries gathered from pairs -/

/-- The entries hold each key once, in the order in which the keys came first, under
the last value that it came with. -/
structure Gathers {κ α : Type} [DecidableEq κ] (pairs entries : List (κ × α)) : Prop where
  keys : entries.map Prod.fst = (pairs.map Prod.fst).eraseDups
  values : ∀ k, valueAt k entries = valueAt k pairs.reverse

/-- The entries with all pairs put to them, one after the other. -/
def putAll {κ α : Type} [DecidableEq κ] (entries pairs : List (κ × α)) : List (κ × α) :=
  pairs.foldl (fun entries p => put p.1 p.2 entries) entries

section
variable {κ α : Type} [DecidableEq κ]

theorem putAll_append_singleton (entries pairs : List (κ × α)) (p : κ × α) :
    putAll entries (pairs ++ [p]) = put p.1 p.2 (putAll entries pairs) := by
  rw [putAll, List.foldl_append]
  rfl

theorem keys_putAll (pairs : List (κ × α)) :
    (putAll [] pairs).map Prod.fst = (pairs.map Prod.fst).eraseDups := by
  induction pairs using List.reverseRecOn with
  | nil => rfl
  | append_singleton pairs p ih =>
    rw [putAll_append_singleton, keys_put, ih, List.map_append, List.eraseDups_append]
    split
    · rename_i hmem
      simp [List.removeAll, List.mem_eraseDups.mp hmem]
    · rename_i hmem
      simp [List.removeAll, mt List.mem_eraseDups.mpr hmem, List.eraseDups_cons]

theorem nodup_keys_putAll (pairs : List (κ × α)) : ((putAll [] pairs).map Prod.fst).Nodup := by
  induction pairs using List.reverseRecOn with
  | nil => exact List.nodup_nil
  | append_singleton pairs p ih =>
    rw [putAll_append_singleton]
    exact nodup_keys_put ih

theorem valueAt_putAll (pairs : List (κ × α)) (k : κ) : valueAt k (putAll [] pairs) = valueAt k pairs.reverse := by
  induction pairs using List.reverseRecOn with
  | nil => rfl
  | append_singleton pairs p ih =>
    rw [putAll_append_singleton, List.reverse_append, List.reverse_singleton, List.singleton_append, valueAt]
    split
    · rename_i heq
      rw [← heq, valueAt_put_self]
    · rename_i hne
      rw [valueAt_put_of_ne (Ne.symm hne), ih]

theorem gathers_putAll (pairs : List (κ × α)) : Gathers pairs (putAll [] pairs) :=
  ⟨keys_putAll pairs, valueAt_putAll pairs⟩

theorem entries_ext {entries entries' : List (κ × α)} (hnodup : (entries.map Prod.fst).Nodup)
    (hkeys : entries'.map Prod.fst = entries.map Prod.fst) (h : ∀ k, valueAt k entries' = valueAt k entries) :
    entries' = entries := by
  induction entries generalizing entries' with
  | nil => exact List.map_eq_nil_iff.mp hkeys
  | cons e entries ih =>
    obtain ⟨e', rest, rfl, hfirst, hrest⟩ := List.map_eq_cons_iff.mp hkeys
    obtain ⟨hnew, hnodup⟩ := List.nodup_cons.mp hnodup
    have hvalue := h e.1
    rw [valueAt, if_pos hfirst, valueAt, if_pos rfl] at hvalue
    have heq : e' = e := Prod.ext hfirst (Option.some.inj hvalue)
    rw [heq, ih hnodup hrest fun k => ?_]
    by_cases hk : e.1 = k
    · have habsent : ∀ es : List (κ × α), es.map Prod.fst = entries.map Prod.fst → valueAt k es = none := by
        intro es hes
        refine valueAt_eq_none fun x hx hxk => hnew ?_
        rw [hk, ← hxk, ← hes]
        exact List.mem_map_of_mem hx
      rw [habsent rest hrest, habsent entries rfl]
    · have hother := h k
      rwa [heq, valueAt, if_neg hk, valueAt, if_neg hk] at hother

theorem Gathers.eq_putAll {pairs entries : List (κ × α)} (h : Gathers pairs entries) : entries = putAll [] pairs :=
  entries_ext (nodup_keys_putAll pairs) (h.keys.trans (keys_putAll pairs).symm)
    fun k => (h.values k).trans (valueAt_putAll pairs k).symm

end

namespace Data

/-! ## Calls -/

/-- What the way through the data comes by. -/
inductive Visit where
  | value (d : Data)
  | key (d : Data)
  /-- A value of a mapping for which no key waits. -/
  | keyless

def Visit.fault? : Visit → Option Fault
  | .value (.integer (.int128 _)) | .key (.integer (.int128 _)) => some (.wideInteger true)
  | .value (.integer (.uint128 _)) | .key (.integer (.uint128 _)) => some (.wideInteger false)
  | .value (.failure message) | .key (.failure message) => some (.failure message)
  | .key .absent | .key (.bytes _) | .key (.sequence _) | .key (.record _) | .key (.mapping _)
  | .key (.variantOf ..) => some .unfitKey
  | .keyless => some .missingKey
  | .value _ | .key _ => none

def keyVisits : Data → List Visit
  | .wrapped d => .key (.wrapped d) :: keyVisits d
  | d => [.key d]

mutual

def visits : Data → List Visit
  | .wrapped d => .value (.wrapped d) :: visits d
  | .sequence items => .value (.sequence items) :: itemVisits items
  | .record fields => .value (.record fields) :: fieldVisits fields
  | .mapping parts => .value (.mapping parts) :: partVisits false parts
  | .variantOf name d => .value (.variantOf name d) :: visits d
  | d => [.value d]

def itemVisits : List Data → List Visit
  | [] => []
  | d :: ds => visits d ++ itemVisits ds

def fieldVisits : List (String × Data) → List Visit
  | [] => []
  | (_, d) :: fields => visits d ++ fieldVisits fields

/-- A value uses up the key that waits for it. -/
def partVisits (waiting : Bool) : List (Part × Data) → List Visit
  | [] => []
  | (.key, d) :: parts => keyVisits d ++ partVisits true parts
  | (.value, d) :: parts => (if waiting then [] else [.keyless]) ++ (visits d ++ partVisits false parts)

end

/-! ## The first fault -/

def firstFault (visits : List Visit) : Option Fault :=
  visits.findSome? Visit.fault?

theorem firstFault_append (a b : List Visit) : firstFault (a ++ b) = (firstFault a).or (firstFault b) :=
  List.findSome?_append

theorem firstFault_cons_none {visit : Visit} (h : visit.fault? = none) (rest : List Visit) :
    firstFault (visit :: rest) = firstFault rest := by
  simp [firstFault, h]

def faultOf {α : Type} : Except Fault α → Option Fault
  | .ok _ => none
  | .error fault => some fault

theorem faultOf_eq_none_iff {α : Type} {outcome : Except Fault α} : faultOf outcome = none ↔ ∃ a, outcome = .ok a := by
  cases outcome <;> simp [faultOf]

theorem faultOf_eq_some_iff {α : Type} {outcome : Except Fault α} {fault : Fault} :
    faultOf outcome = some fault ↔ outcome = .error fault := by
  cases outcome <;> simp [faultOf]

theorem faultOf_map {α β : Type} (outcome : Except Fault α) (f : α → β) :
    faultOf (outcome.map f) = faultOf outcome := by
  cases outcome <;> rfl

theorem faultOf_bind {α β : Type} {outcome : Except Fault α} {f : α → Except Fault β} {next : Option Fault}
    (h : ∀ a, faultOf (f a) = next) : faultOf (outcome >>= f) = (faultOf outcome).or next := by
  cases outcome with
  | error fault => rfl
  | ok a => exact h a

theorem faultOf_toKey (d : Data) : faultOf d.toKey = firstFault d.keyVisits := by
  cases d with
  | integer n => cases n <;> rfl
  | wrapped d =>
    rw [toKey, keyVisits, firstFault_cons_none rfl]
    exact faultOf_toKey d
  | _ => rfl

mutual

theorem faultOf_toValue : ∀ d : Data, faultOf d.toValue = firstFault d.visits
  | .bool _ | .single _ | .double _ | .char _ | .string _ | .bytes _ | .absent | .variant _ | .failure _ => by
    rfl
  | .integer n => by
    cases n <;> rfl
  | .wrapped d => by
    rw [toValue, visits, firstFault_cons_none rfl]
    exact faultOf_toValue d
  | .sequence items => by
    rw [toValue, visits, firstFault_cons_none rfl, faultOf_map]
    exact faultOf_itemValues items
  | .record fields => by
    rw [toValue, visits, firstFault_cons_none rfl, faultOf_map]
    exact faultOf_fieldValues fields []
  | .mapping parts => by
    rw [toValue, visits, firstFault_cons_none rfl, faultOf_map]
    exact faultOf_entryValues parts [] none
  | .variantOf name d => by
    rw [toValue, visits, firstFault_cons_none rfl, faultOf_map]
    exact faultOf_toValue d

theorem faultOf_itemValues : ∀ ds : List Data, faultOf (itemValues ds) = firstFault (itemVisits ds)
  | [] => rfl
  | d :: ds => by
    rw [itemValues, itemVisits, firstFault_append, ← faultOf_toValue d, ← faultOf_itemValues ds]
    refine faultOf_bind fun v => ?_
    have hrest : faultOf (itemValues ds >>= fun vs => pure (v :: vs)) = (faultOf (itemValues ds)).or none :=
      faultOf_bind fun _ => rfl
    rwa [Option.or_none] at hrest

theorem faultOf_fieldValues :
    ∀ (fields : List (String × Data)) (seen : List (String × Value)),
      faultOf (fieldValues seen fields) = firstFault (fieldVisits fields)
  | [], _ => rfl
  | (name, d) :: fields, seen => by
    rw [fieldValues, fieldVisits, firstFault_append, ← faultOf_toValue d]
    exact faultOf_bind fun v => faultOf_fieldValues fields _

theorem faultOf_entryValues :
    ∀ (parts : List (Part × Data)) (seen : List (Key × Value)) (pending : Option Key),
      faultOf (entryValues seen pending parts) = firstFault (partVisits pending.isSome parts)
  | [], _, _ => rfl
  | (.key, d) :: parts, seen, pending => by
    rw [entryValues, partVisits, firstFault_append, ← faultOf_toKey d]
    exact faultOf_bind fun k => faultOf_entryValues parts seen (some k)
  | (.value, d) :: parts, seen, none => by
    rw [entryValues, partVisits]
    rfl
  | (.value, d) :: parts, seen, some k => by
    rw [entryValues, partVisits]
    dsimp only [Option.isSome]
    rw [if_pos rfl, List.nil_append, firstFault_append, ← faultOf_toValue d]
    exact faultOf_bind fun v => faultOf_entryValues parts _ none

end

/-! ## Images -/

/-- The key that a datum shows. -/
inductive KeyImage : Data → Key → Prop
  | no : KeyImage (.bool false) (.string "false")
  | yes : KeyImage (.bool true) (.string "true")
  | integer {n : Integer} : n.type.isWide = false → KeyImage (.integer n) n.key
  | single (x : Float32) : KeyImage (.single x) (.string (keyLayout.text32 x))
  | double (x : Float) : KeyImage (.double x) (.string (keyLayout.text64 x))
  | char (c : Char) : KeyImage (.char c) (.string (String.singleton c))
  | string (s : String) : KeyImage (.string s) (.string s)
  | variant (name : String) : KeyImage (.variant name) (.string name)
  | wrapped {d : Data} {k : Key} : KeyImage d k → KeyImage (.wrapped d) k

mutual

/-- The value that a datum shows. -/
inductive Image : Data → Value → Prop
  | bool (b : Bool) : Image (.bool b) (.bool b)
  | integer {n : Integer} : n.type.isWide = false → Image (.integer n) (.number (.ofInt n.toInt))
  | single {x : Float32} : x.toFloat.isFinite = true → Image (.single x) (.number (.real x.toFloat))
  | singleNull {x : Float32} : x.toFloat.isFinite = false → Image (.single x) .null
  | double {x : Float} : x.isFinite = true → Image (.double x) (.number (.real x))
  | doubleNull {x : Float} : x.isFinite = false → Image (.double x) .null
  | char (c : Char) : Image (.char c) (.string (String.singleton c))
  | string (s : String) : Image (.string s) (.string s)
  | bytes (bs : List UInt8) : Image (.bytes bs) (.array (bs.map fun b => .ofNat b.toNat))
  | absent : Image .absent .null
  | wrapped {d : Data} {v : Value} : Image d v → Image (.wrapped d) v
  | sequence {items : List Data} {vs : List Value} : ItemImages items vs → Image (.sequence items) (.array vs)
  | record {fields : List (String × Data)} {members entries : List (String × Value)} :
    FieldImages fields members → Gathers members entries → Image (.record fields) (.record entries)
  | mapping {parts : List (Part × Data)} {pairs entries : List (Key × Value)} :
    PartImages none parts pairs → Gathers pairs entries → Image (.mapping parts) (.map entries)
  | variant (name : String) : Image (.variant name) (.string name)
  | variantOf {name : String} {d : Data} {v : Value} : Image d v → Image (.variantOf name d) (.record [(name, v)])

inductive ItemImages : List Data → List Value → Prop
  | nil : ItemImages [] []
  | cons {d : Data} {v : Value} {ds : List Data} {vs : List Value} :
    Image d v → ItemImages ds vs → ItemImages (d :: ds) (v :: vs)

inductive FieldImages : List (String × Data) → List (String × Value) → Prop
  | nil : FieldImages [] []
  | cons {name : String} {d : Data} {v : Value} {fields : List (String × Data)} {members : List (String × Value)} :
    Image d v → FieldImages fields members → FieldImages ((name, d) :: fields) ((name, v) :: members)

/-- The pairs of a mapping, one for each value, which goes with the key that came last
before it, and uses it up. -/
inductive PartImages : Option Key → List (Part × Data) → List (Key × Value) → Prop
  | nil {pending : Option Key} : PartImages pending [] []
  | key {pending : Option Key} {d : Data} {k : Key} {parts : List (Part × Data)} {pairs : List (Key × Value)} :
    KeyImage d k → PartImages (some k) parts pairs → PartImages pending ((.key, d) :: parts) pairs
  | value {d : Data} {k : Key} {v : Value} {parts : List (Part × Data)} {pairs : List (Key × Value)} :
    Image d v → PartImages none parts pairs → PartImages (some k) ((.value, d) :: parts) ((k, v) :: pairs)

end

/-! ## What the calls give -/

theorem exists_of_bind_eq_ok {α β : Type} {outcome : Except Fault α} {f : α → Except Fault β} {b : β}
    (h : outcome >>= f = .ok b) : ∃ a, outcome = .ok a ∧ f a = .ok b := by
  cases outcome with
  | error fault => cases h
  | ok a => exact ⟨a, rfl, h⟩

theorem exists_of_map_eq_ok {α β : Type} {outcome : Except Fault α} {f : α → β} {b : β}
    (h : outcome.map f = .ok b) : ∃ a, outcome = .ok a ∧ f a = b := by
  cases outcome with
  | error fault => cases h
  | ok a => exact ⟨a, rfl, Except.ok.inj h⟩

theorem narrow_of_integerKey {n : Integer} {k : Key} (h : integerKey n = .ok k) : n.type.isWide = false := by
  cases n with
  | int128 _ | uint128 _ => cases h
  | _ => rfl

theorem narrow_of_integerNumber {n : Integer} {m : Number} (h : integerNumber n = .ok m) : n.type.isWide = false := by
  cases n with
  | int128 _ | uint128 _ => cases h
  | _ => rfl

theorem ofFloat_finite {x : Float} (h : x.isFinite = true) : Value.ofFloat x = .number (.real x) := by
  rw [Value.ofFloat, Number.ofFloat?, if_pos h]

theorem ofFloat_infinite {x : Float} (h : x.isFinite = false) : Value.ofFloat x = .null := by
  rw [Value.ofFloat, Number.ofFloat?, h, if_neg Bool.false_ne_true]

theorem keyImage_of_toKey {d : Data} {k : Key} (h : d.toKey = .ok k) : KeyImage d k := by
  cases d with
  | bool b =>
    obtain rfl := Except.ok.inj h
    cases b with
    | false => exact .no
    | true => exact .yes
  | integer n =>
    rw [toKey] at h
    have hnarrow := narrow_of_integerKey h
    obtain rfl := Except.ok.inj ((integerKey_eq hnarrow).symm.trans h)
    exact .integer hnarrow
  | single x =>
    obtain rfl := Except.ok.inj h
    exact .single x
  | double x =>
    obtain rfl := Except.ok.inj h
    exact .double x
  | char c =>
    obtain rfl := Except.ok.inj h
    exact .char c
  | string s =>
    obtain rfl := Except.ok.inj h
    exact .string s
  | variant name =>
    obtain rfl := Except.ok.inj h
    exact .variant name
  | wrapped d =>
    rw [toKey] at h
    exact .wrapped (keyImage_of_toKey h)
  | _ => cases h

theorem KeyImage.toKey {d : Data} {k : Key} (h : KeyImage d k) : d.toKey = .ok k := by
  induction h with
  | integer hnarrow => exact integerKey_eq hnarrow
  | wrapped _ ih => rwa [Data.toKey]
  | _ => rfl

mutual

theorem image_of_toValue : ∀ (d : Data) {v : Value}, d.toValue = .ok v → Image d v
  | .bool b, _, h => by
    obtain rfl := Except.ok.inj h
    exact .bool b
  | .integer n, v, h => by
    obtain ⟨m, hm, rfl⟩ := exists_of_map_eq_ok h
    have hnarrow := narrow_of_integerNumber hm
    obtain rfl := Except.ok.inj ((integerNumber_eq hnarrow).symm.trans hm)
    exact .integer hnarrow
  | .single x, _, h => by
    obtain rfl := Except.ok.inj h
    cases hx : x.toFloat.isFinite with
    | true =>
      rw [ofFloat_finite hx]
      exact .single hx
    | false =>
      rw [ofFloat_infinite hx]
      exact .singleNull hx
  | .double x, _, h => by
    obtain rfl := Except.ok.inj h
    cases hx : x.isFinite with
    | true =>
      rw [ofFloat_finite hx]
      exact .double hx
    | false =>
      rw [ofFloat_infinite hx]
      exact .doubleNull hx
  | .char c, _, h => by
    obtain rfl := Except.ok.inj h
    exact .char c
  | .string s, _, h => by
    obtain rfl := Except.ok.inj h
    exact .string s
  | .bytes bs, _, h => by
    obtain rfl := Except.ok.inj h
    exact .bytes bs
  | .absent, _, h => by
    obtain rfl := Except.ok.inj h
    exact .absent
  | .variant name, _, h => by
    obtain rfl := Except.ok.inj h
    exact .variant name
  | .failure _, _, h => by
    cases h
  | .wrapped d, _, h => by
    rw [toValue] at h
    exact .wrapped (image_of_toValue d h)
  | .sequence items, _, h => by
    rw [toValue] at h
    obtain ⟨vs, hvs, rfl⟩ := exists_of_map_eq_ok h
    exact .sequence (images_of_itemValues items hvs)
  | .record fields, _, h => by
    rw [toValue] at h
    obtain ⟨entries, hentries, rfl⟩ := exists_of_map_eq_ok h
    obtain ⟨members, hmembers, rfl⟩ := images_of_fieldValues fields hentries
    exact .record hmembers (gathers_putAll members)
  | .mapping parts, _, h => by
    rw [toValue] at h
    obtain ⟨entries, hentries, rfl⟩ := exists_of_map_eq_ok h
    obtain ⟨pairs, hpairs, rfl⟩ := images_of_entryValues parts hentries
    exact .mapping hpairs (gathers_putAll pairs)
  | .variantOf name d, _, h => by
    rw [toValue] at h
    obtain ⟨v, hv, rfl⟩ := exists_of_map_eq_ok h
    exact .variantOf (image_of_toValue d hv)

theorem images_of_itemValues : ∀ (ds : List Data) {vs : List Value}, itemValues ds = .ok vs → ItemImages ds vs
  | [], _, h => by
    obtain rfl := Except.ok.inj h
    exact .nil
  | d :: ds, _, h => by
    rw [itemValues] at h
    obtain ⟨v, hv, h⟩ := exists_of_bind_eq_ok h
    obtain ⟨vs, hvs, h⟩ := exists_of_bind_eq_ok h
    obtain rfl := Except.ok.inj h
    exact .cons (image_of_toValue d hv) (images_of_itemValues ds hvs)

theorem images_of_fieldValues :
    ∀ (fields : List (String × Data)) {seen entries : List (String × Value)}, fieldValues seen fields = .ok entries →
      ∃ members, FieldImages fields members ∧ entries = putAll seen members
  | [], _, _, h => by
    obtain rfl := Except.ok.inj h
    exact ⟨[], .nil, rfl⟩
  | (name, d) :: fields, _, _, h => by
    rw [fieldValues] at h
    obtain ⟨v, hv, h⟩ := exists_of_bind_eq_ok h
    obtain ⟨members, hmembers, rfl⟩ := images_of_fieldValues fields h
    exact ⟨(name, v) :: members, .cons (image_of_toValue d hv) hmembers, rfl⟩

theorem images_of_entryValues :
    ∀ (parts : List (Part × Data)) {seen entries : List (Key × Value)} {pending : Option Key},
      entryValues seen pending parts = .ok entries →
        ∃ pairs, PartImages pending parts pairs ∧ entries = putAll seen pairs
  | [], _, _, _, h => by
    obtain rfl := Except.ok.inj h
    exact ⟨[], .nil, rfl⟩
  | (.key, d) :: parts, _, _, _, h => by
    rw [entryValues] at h
    obtain ⟨k, hk, h⟩ := exists_of_bind_eq_ok h
    obtain ⟨pairs, hpairs, rfl⟩ := images_of_entryValues parts h
    exact ⟨pairs, .key (keyImage_of_toKey hk) hpairs, rfl⟩
  | (.value, _) :: _, _, _, none, h => by
    cases h
  | (.value, d) :: parts, _, _, some k, h => by
    rw [entryValues] at h
    obtain ⟨v, hv, h⟩ := exists_of_bind_eq_ok h
    obtain ⟨pairs, hpairs, rfl⟩ := images_of_entryValues parts h
    exact ⟨(k, v) :: pairs, .value (image_of_toValue d hv) hpairs, rfl⟩

end

mutual

theorem Image.toValue : ∀ {d : Data} {v : Value}, Image d v → d.toValue = .ok v
  | _, _, .bool _ | _, _, .char _ | _, _, .string _ | _, _, .bytes _ | _, _, .absent | _, _, .variant _ => rfl
  | _, _, .integer hnarrow => by
    rw [Data.toValue, integerNumber_eq hnarrow]
    rfl
  | _, _, .single hx | _, _, .double hx => by
    rw [Data.toValue, ofFloat_finite hx]
  | _, _, .singleNull hx | _, _, .doubleNull hx => by
    rw [Data.toValue, ofFloat_infinite hx]
  | _, _, .wrapped h => by
    rw [Data.toValue, h.toValue]
  | _, _, .sequence h => by
    rw [Data.toValue, h.itemValues]
    rfl
  | _, _, .record h hgathers => by
    rw [Data.toValue, h.fieldValues, hgathers.eq_putAll]
    rfl
  | _, _, .mapping h hgathers => by
    rw [Data.toValue, h.entryValues, hgathers.eq_putAll]
    rfl
  | _, _, .variantOf h => by
    rw [Data.toValue, h.toValue]
    rfl

theorem ItemImages.itemValues : ∀ {ds : List Data} {vs : List Value}, ItemImages ds vs → Data.itemValues ds = .ok vs
  | _, _, .nil => rfl
  | _, _, .cons h hs => by
    rw [Data.itemValues, h.toValue, hs.itemValues]
    rfl

theorem FieldImages.fieldValues :
    ∀ {fields : List (String × Data)} {members : List (String × Value)}, FieldImages fields members →
      ∀ {seen}, Data.fieldValues seen fields = .ok (putAll seen members)
  | _, _, .nil, _ => rfl
  | _, _, .cons h hs, _ => by
    rw [Data.fieldValues, h.toValue]
    exact hs.fieldValues

theorem PartImages.entryValues :
    ∀ {pending : Option Key} {parts : List (Part × Data)} {pairs : List (Key × Value)}, PartImages pending parts pairs →
      ∀ {seen}, Data.entryValues seen pending parts = .ok (putAll seen pairs)
  | _, _, _, .nil, _ => rfl
  | _, _, _, .key hk hs, _ => by
    rw [Data.entryValues, hk.toKey]
    exact hs.entryValues
  | _, _, _, .value h hs, _ => by
    rw [Data.entryValues, h.toValue]
    exact hs.entryValues

end

theorem value_eq_error_iff {d : Data} {diagnostic : Diagnostic} :
    d.value = .error diagnostic ↔
      ∃ fault, firstFault d.visits = some fault ∧ diagnostic = .of .serialize fault.reason := by
  simp only [← faultOf_toValue, faultOf_eq_some_iff]
  unfold value
  cases d.toValue with
  | ok v => simp
  | error fault => simp [eq_comm]

theorem exists_value_iff {d : Data} : (∃ v, d.value = .ok v) ↔ firstFault d.visits = none := by
  simp only [toValue_of_value]
  rw [← faultOf_toValue, faultOf_eq_none_iff]

/-- Data has no value exactly if a call on the way through it is not supported, and the first such
call says why. Else its value is the one that it shows. -/
theorem value_iff (d : Data) :
    (∀ diagnostic, d.value = .error diagnostic ↔ ∃ before visit after fault, d.visits = before ++ visit :: after ∧
      (∀ earlier ∈ before, earlier.fault? = none) ∧ visit.fault? = some fault ∧
        diagnostic = .of .serialize fault.reason) ∧
      ((∃ v, d.value = .ok v) ↔ ∀ visit ∈ d.visits, visit.fault? = none) ∧
      ∀ v, d.value = .ok v ↔ Image d v := by
  refine ⟨?_, ?_, ?_⟩
  · intro diagnostic
    rw [value_eq_error_iff]
    constructor
    · rintro ⟨fault, hfirst, rfl⟩
      obtain ⟨before, visit, after, hvisits, hfault, hbefore⟩ := List.findSome?_eq_some_iff.mp hfirst
      exact ⟨before, visit, after, fault, hvisits, hbefore, hfault, rfl⟩
    · rintro ⟨before, visit, after, fault, hvisits, hbefore, hfault, rfl⟩
      exact ⟨fault, List.findSome?_eq_some_iff.mpr ⟨before, visit, after, hvisits, hfault, hbefore⟩, rfl⟩
  · rw [exists_value_iff]
    exact List.findSome?_eq_none_iff
  · intro v
    rw [toValue_of_value]
    exact ⟨image_of_toValue d, Image.toValue⟩

/-- The key that is missing comes before the failure of its value. -/
example : (mapping [(.key, .string "a"), (.value, .absent), (.value, .failure "no")]).value =
    .error (.of .serialize Fault.missingKey.reason) := by
  rfl

end Data

end Curly
