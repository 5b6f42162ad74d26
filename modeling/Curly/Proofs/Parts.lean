import Curly.Proofs.Written.Literal
import Curly.Value
import Mathlib.Data.List.Nodup

/-!
# Parts by name

What enumerates lists its parts under keys. The text of a key is a segment of a
path, and leads back to the part (`Value.segment?_of_mem`): a position is read
from its digits, and a key of a mapping is found although its text is first
tried as a key of each other kind.
-/

namespace Curly

/-! ## Integers and their texts -/

namespace Text

theorem digits?_toDigits (n : Nat) : digits? (Nat.toDigits 10 n) = some n := by
  have hdigits : (Nat.toDigits 10 n).all Char.isDigit = true :=
    List.all_eq_true.mpr fun d hd => Nat.isDigit_of_mem_toDigits (by decide) (by decide) hd
  have hvalue : Nat.ofDigitChars 10 (Nat.toDigits 10 n) 0 = n := Nat.ofDigitChars_toDigits (by decide) (by decide)
  rw [Nat.ofDigitChars_eq_foldl] at hvalue
  unfold digits?
  rw [hdigits, hvalue]
  simp [Nat.toDigits_ne_nil]

theorem natural?_toDigits (n : Nat) : natural? (Nat.toDigits 10 n) = some n := by
  obtain ⟨c, cs, hcs, hc, -⟩ := Number.head_toDigits n
  have hdigits := digits?_toDigits n
  rw [hcs] at hdigits ⊢
  unfold natural?
  split
  · rename_i heq
    obtain ⟨rfl, -⟩ := List.cons.inj heq
    exact absurd hc (by decide)
  · exact hdigits

theorem integer?_toDigits (n : Nat) : integer? (Nat.toDigits 10 n) = some (n : Int) := by
  obtain ⟨c, cs, hcs, hc, -⟩ := Number.head_toDigits n
  have hnatural := natural?_toDigits n
  rw [hcs] at hnatural ⊢
  unfold integer?
  split
  · rename_i heq
    obtain ⟨rfl, -⟩ := List.cons.inj heq
    exact absurd hc (by decide)
  · rw [hnatural]
    rfl

theorem integer?_repr (n : Int) : integer? n.repr.toList = some n := by
  cases n with
  | ofNat n =>
    have hrepr : (Int.ofNat n).repr.toList = Nat.toDigits 10 n := Nat.toList_repr
    rw [hrepr, integer?_toDigits]
    rfl
  | negSucc n =>
    have hrepr : (Int.negSucc n).repr.toList = '-' :: Nat.toDigits 10 (n + 1) := by
      simp [Int.repr]
    rw [hrepr, integer?, digits?_toDigits]
    rfl

end Text

/-! ## Keys -/

theorem Number.text_ofInt64 (n : Int64) : (ofInt64 n).text = n.toInt.repr := by
  have hdigits : ∀ m : Nat, Decimal.digitsText m = m.repr := fun _ => rfl
  unfold ofInt64
  split
  · rename_i hn
    have hneg : n.toInt < 0 := Int64.lt_iff_toInt_lt.mp hn
    obtain ⟨m, hm⟩ := Int.eq_negSucc_of_lt_zero hneg
    rw [text, hm, hdigits]
    rfl
  · rename_i hn
    have hnonneg : 0 ≤ n.toInt := Int.not_lt.mp fun h => hn (Int64.lt_iff_toInt_lt.mpr h)
    have hhigh : n.toInt < 2 ^ 63 := Int64.toInt_lt n
    obtain ⟨m, hm⟩ := Int.eq_ofNat_of_zero_le hnonneg
    rw [hm] at hhigh ⊢
    have hm' : m < 2 ^ 64 := by omega
    rw [text, hdigits, Int.toNat_natCast, Nat.toUInt64, UInt64.toNat_ofNat', Nat.mod_eq_of_lt hm']
    rfl

namespace Key

theorem text_ofKey (k : Key) : (Value.ofKey k).text = k.text := by
  cases k with
  | string s => rfl
  | int32 n =>
    have hint : n.toInt64.toInt = n.toInt := Int32.toInt_toInt64 n
    have hnumber := Number.text_ofInt64 n.toInt64
    rw [hint] at hnumber
    exact hnumber
  | int64 n => exact Number.text_ofInt64 n

theorem int32?_text (n : Int32) : int32? (int32 n).text = some (.int32 n) := by
  have hrange : (Int32.minValue.toInt ≤ n.toInt && n.toInt ≤ Int32.maxValue.toInt) = true := by
    simp only [n.minValue_le_toInt, n.toInt_le, decide_true, Bool.and_self]
  simp only [int32?, text, Text.integer?_repr, hrange, if_true, Int32.ofInt_toInt]

theorem int64?_text (n : Int64) : int64? (int64 n).text = some (.int64 n) := by
  have hrange : (Int64.minValue.toInt ≤ n.toInt && n.toInt ≤ Int64.maxValue.toInt) = true := by
    simp only [n.minValue_le_toInt, n.toInt_le, decide_true, Bool.and_self]
  simp only [int64?, text, Text.integer?_repr, hrange, if_true, Int64.ofInt_toInt]

/-- A text that an integer of 64 bits has may be that of one of 32 bits, too. -/
theorem int32?_text_int64 {n : Int64} {k : Key} (h : int32? (int64 n).text = some k) :
    k ≠ .int64 n ∧ k.text = (int64 n).text := by
  simp only [int32?, text, Text.integer?_repr] at h
  split at h
  · rename_i hrange
    obtain rfl := Option.some.inj h
    obtain ⟨hlow, hhigh⟩ := Bool.and_eq_true_iff.mp hrange
    have hint : (Int32.ofInt n.toInt).toInt = n.toInt :=
      Int32.toInt_ofInt_of_le (of_decide_eq_true hlow) (Int.lt_add_one_of_le (of_decide_eq_true hhigh))
    refine ⟨nofun, ?_⟩
    rw [text, text, hint]
  · cases h

end Key

/-! ## Entries -/

section
variable {κ α : Type} [DecidableEq κ] {k : κ} {v : α} {entries : List (κ × α)}

theorem valueAt_eq_none (h : ∀ e ∈ entries, e.1 ≠ k) : valueAt k entries = none := by
  induction entries with
  | nil => rfl
  | cons e entries ih =>
    rw [valueAt, if_neg (h e (List.mem_cons_self ..))]
    exact ih fun e he => h e (List.mem_cons_of_mem _ he)

theorem valueAt_of_mem (hkeys : (entries.map Prod.fst).Nodup) (h : (k, v) ∈ entries) : valueAt k entries = some v := by
  induction entries with
  | nil => cases h
  | cons e entries ih =>
    rw [List.map_cons, List.nodup_cons] at hkeys
    rcases List.mem_cons.mp h with rfl | hmem
    · exact if_pos rfl
    · have hne : e.1 ≠ k := fun heq => hkeys.1 (heq ▸ List.mem_map_of_mem hmem)
      rw [valueAt, if_neg hne]
      exact ih hkeys.2 hmem

theorem nodup_keys_put (h : (entries.map Prod.fst).Nodup) : ((put k v entries).map Prod.fst).Nodup := by
  rw [keys_put]
  split
  · exact h
  · rename_i hnew
    exact List.nodup_append'.mpr ⟨h, List.nodup_singleton _, List.disjoint_singleton.mpr hnew⟩

end

namespace Key

variable {α : Type} {k : Key} {v : α} {entries : List (Key × α)}

/-- If the texts of the keys are apart, no other key has the text of one of them. -/
theorem valueAt_eq_none_of_text (htexts : (entries.map fun e => e.1.text).Nodup) (h : (k, v) ∈ entries) {k' : Key}
    (hne : k' ≠ k) (htext : k'.text = k.text) : valueAt k' entries = none := by
  refine valueAt_eq_none fun e he heq => hne ?_
  have hsame := List.inj_on_of_nodup_map htexts he h (by rw [heq, htext])
  rw [← heq, hsame]

theorem lookup_text (htexts : (entries.map fun e => e.1.text).Nodup) (h : (k, v) ∈ entries) :
    lookup k.text entries = some v := by
  have hkeys : (entries.map Prod.fst).Nodup := by
    refine List.Nodup.of_map text ?_
    rwa [List.map_map]
  have hfound : valueAt k entries = some v := valueAt_of_mem hkeys h
  have hstring : ∀ {t}, t = k.text → Key.string t ≠ k → valueAt (Key.string t) entries = none :=
    fun ht hne => valueAt_eq_none_of_text htexts h hne ht
  unfold lookup
  cases k with
  | string s =>
    rw [text, hfound]
    rfl
  | int32 n =>
    rw [hstring rfl nofun, int32?_text, Option.bind_some, hfound]
    rfl
  | int64 n =>
    have hshort : (int32? (int64 n).text).bind (valueAt · entries) = none := by
      cases hint : int32? (int64 n).text with
      | none => rfl
      | some k =>
        obtain ⟨hne, htext⟩ := int32?_text_int64 hint
        exact valueAt_eq_none_of_text htexts h hne htext
    rw [hstring rfl nofun, hshort, int64?_text, Option.bind_some, hfound]
    rfl

end Key

namespace Value

/-! ## Segments -/

theorem position?_digitsText {i : Nat} (hi : i < UInt64.size) : position? (Decimal.digitsText i) = some i := by
  rw [position?, Decimal.digitsText, String.toList_ofList, Text.natural?_toDigits]
  exact if_pos hi

theorem segment?_item {items : List Value} {i : Nat} {v : Value} (hi : i < UInt64.size) (h : items[i]? = some v) :
    (array items).segment? (Decimal.digitsText i) = some v := by
  rw [segment?, position?_digitsText hi, Option.bind_some, item?, h]
  rfl

/-- The segment is no position of what is not an array. -/
theorem item?_eq_none {v : Value} (h : ∀ items, v ≠ array items) (segment : String) :
    (position? segment).bind v.item? = none := by
  have hitem : ∀ i, v.item? i = none := by
    intro i
    cases v with
    | array items => exact absurd rfl (h items)
    | _ => rfl
  cases position? segment with
  | none => rfl
  | some i => exact hitem i

theorem segment?_entry {entries : List (Key × Value)} {name : String} {v : Value} (h : Key.lookup name entries = some v) :
    (map entries).segment? name = some v := by
  rw [segment?, item?_eq_none (fun _ h => by cases h), entry?, h]
  rfl

theorem segment?_property {identity : Nat} {properties : List (String × Value)} {names : List String} {name : String}
    {v : Value} (h : valueAt name properties = some v) :
    (dynamic identity properties names).segment? name = some v := by
  rw [segment?, item?_eq_none (fun _ h => by cases h), property?, h]
  rfl

theorem segment?_member {fields : List (String × Value)} {name : String} {v : Value} (h : valueAt name fields = some v) :
    (record fields).segment? name = some v := by
  rw [segment?, item?_eq_none (fun _ h => by cases h), member?, h]
  rfl

theorem segment?_null (name : String) : null.segment? name = none := by
  have hlast : ∀ b : Bool, (if b then null.size?.map ofNat else none) = none := by
    intro b
    cases b <;> rfl
  rw [segment?, item?_eq_none (fun _ h => by cases h), hlast]
  rfl

/-! ## What is enumerated -/

/-- No two parts go by one name: the positions are machine words, the members have
names of their own, and the keys of a mapping are told apart by their texts. -/
def NamesApart : Value → Prop
  | .array items => items.length ≤ UInt64.size
  | .map entries => (entries.map fun e => e.1.text).Nodup
  | .record fields => (fields.map Prod.fst).Nodup
  | _ => True

theorem namesApart_ofMembers (members : List (String × Value)) : (ofMembers members).NamesApart := by
  suffices h : ∀ fields : List (String × Value), (fields.map Prod.fst).Nodup →
      ((members.foldl (fun fields m => put m.1 m.2 fields) fields).map Prod.fst).Nodup from h [] List.nodup_nil
  induction members with
  | nil => exact fun _ h => h
  | cons m members ih =>
    exact fun fields h => ih _ (nodup_keys_put h)

theorem mem_numbered {e : Value × Value} {items : List Value} {start : Nat} (h : e ∈ numbered start items) :
    ∃ i, items[i]? = some e.2 ∧ e.1 = ofNat (start + i) := by
  induction items generalizing start with
  | nil => cases h
  | cons v items ih =>
    rcases List.mem_cons.mp h with rfl | hmem
    · exact ⟨0, rfl, rfl⟩
    · obtain ⟨i, hi, hkey⟩ := ih hmem
      refine ⟨i + 1, hi, ?_⟩
      rw [hkey, Nat.add_right_comm, Nat.add_assoc]

theorem text_ofNat {n : Nat} (h : n < UInt64.size) : (ofNat n).text = Decimal.digitsText n := by
  have htext : (ofNat n).text = Decimal.digitsText n.toUInt64.toNat := rfl
  rw [htext, Nat.toUInt64, UInt64.toNat_ofNat', Nat.mod_eq_of_lt h]

theorem segment?_of_mem {v : Value} {entries : List (Value × Value)} (hentries : v.entries? = some entries)
    (happart : v.NamesApart) {e : Value × Value} (he : e ∈ entries) : v.segment? e.1.text = some e.2 := by
  cases v with
  | array items =>
    obtain rfl := Option.some.inj hentries
    obtain ⟨i, hi, hkey⟩ := mem_numbered he
    obtain ⟨hlt, -⟩ := List.getElem?_eq_some_iff.mp hi
    have hword : i < UInt64.size := Nat.lt_of_lt_of_le hlt happart
    rw [hkey, Nat.zero_add, text_ofNat hword]
    exact segment?_item hword hi
  | map entries =>
    obtain rfl := Option.some.inj hentries
    obtain ⟨⟨k, x⟩, hmem, rfl⟩ := List.mem_map.mp he
    rw [Key.text_ofKey]
    exact segment?_entry (Key.lookup_text happart hmem)
  | record fields =>
    obtain rfl := Option.some.inj hentries
    obtain ⟨⟨name, x⟩, hmem, rfl⟩ := List.mem_map.mp he
    exact segment?_member (valueAt_of_mem happart hmem)
  | dynamic identity properties names =>
    obtain rfl := Option.some.inj hentries
    obtain ⟨name, -, hname⟩ := List.mem_filterMap.mp he
    obtain ⟨x, hx, rfl⟩ := Option.map_eq_some_iff.mp hname
    exact segment?_property hx
  | _ => cases hentries

end Value

end Curly
