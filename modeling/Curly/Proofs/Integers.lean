import Curly.Data
import Curly.Frame
import Curly.Proofs.Grammar.Path
import Curly.Proofs.Parts
import Mathlib.Algebra.Ring.Int.Defs
import Mathlib.Data.List.Forall2

/-!
# Integers of data

An integer of at most 64 bits becomes a number of its value, and the key that it
becomes has its decimal text. So a mapping with integers for keys keeps its entries,
each found by the decimal text of its key (`Data.value_integerKeys`).
-/

namespace Curly

inductive IntegerType where
  | int8
  | int16
  | int32
  | int64
  | uint8
  | uint16
  | uint32
  | uint64
  | int128
  | uint128
deriving DecidableEq

def IntegerType.isWide : IntegerType → Bool
  | .int128 | .uint128 => true
  | _ => false

/-- Whether the integers of the type are in the range of 32 bits with a sign. -/
def IntegerType.isShort : IntegerType → Bool
  | .int8 | .int16 | .int32 | .uint8 | .uint16 => true
  | _ => false

namespace Integer

def type : Integer → IntegerType
  | .int8 _ => .int8
  | .int16 _ => .int16
  | .int32 _ => .int32
  | .int64 _ => .int64
  | .uint8 _ => .uint8
  | .uint16 _ => .uint16
  | .uint32 _ => .uint32
  | .uint64 _ => .uint64
  | .int128 _ => .int128
  | .uint128 _ => .uint128

def toInt : Integer → Int
  | .int8 n => n.toInt
  | .int16 n => n.toInt
  | .int32 n => n.toInt
  | .int64 n => n.toInt
  | .uint8 n => n.toNat
  | .uint16 n => n.toNat
  | .uint32 n => n.toNat
  | .uint64 n => n.toNat
  | .int128 n => n
  | .uint128 n => n

/-- The decimal text. -/
def text (n : Integer) : String :=
  n.toInt.repr

/-- The key for the integer: the narrowest kind that its type allows and its value fits. -/
def key (n : Integer) : Key :=
  if n.type.isShort then .int32 (.ofInt n.toInt)
  else if n.toInt < 2 ^ 63 then .int64 (.ofInt n.toInt)
  else .string n.text

variable {n m : Integer}

theorem key_of_short (h : n.type.isShort = true) : n.key = .int32 (.ofInt n.toInt) :=
  if_pos h

theorem key_of_long (h : n.type.isShort = false) (hhigh : n.toInt < 2 ^ 63) : n.key = .int64 (.ofInt n.toInt) := by
  rw [key, h, if_neg Bool.false_ne_true, if_pos hhigh]

theorem key_of_text (h : n.type.isShort = false) (hhigh : ¬ n.toInt < 2 ^ 63) : n.key = .string n.text := by
  rw [key, h, if_neg Bool.false_ne_true, if_neg hhigh]

theorem eq_of_toInt (htype : n.type = m.type) (h : n.toInt = m.toInt) : n = m := by
  cases n <;> cases m <;> cases htype
  case int8.int8.refl => exact congrArg int8 (Int8.toInt.inj h)
  case int16.int16.refl => exact congrArg int16 (Int16.toInt.inj h)
  case int32.int32.refl => exact congrArg int32 (Int32.toInt.inj h)
  case int64.int64.refl => exact congrArg int64 (Int64.toInt.inj h)
  case uint8.uint8.refl => exact congrArg uint8 (UInt8.toNat.inj (Int.ofNat.inj h))
  case uint16.uint16.refl => exact congrArg uint16 (UInt16.toNat.inj (Int.ofNat.inj h))
  case uint32.uint32.refl => exact congrArg uint32 (UInt32.toNat.inj (Int.ofNat.inj h))
  case uint64.uint64.refl => exact congrArg uint64 (UInt64.toNat.inj (Int.ofNat.inj h))
  case int128.int128.refl => exact congrArg int128 h
  case uint128.uint128.refl => exact congrArg uint128 (Int.ofNat.inj h)

theorem short_range (h : n.type.isShort = true) : -2 ^ 31 ≤ n.toInt ∧ n.toInt < 2 ^ 31 := by
  cases n with
  | int8 n =>
    have hlow : -2 ^ 7 ≤ n.toInt := n.le_toInt
    have hhigh : n.toInt < 2 ^ 7 := n.toInt_lt
    simp only [toInt]
    omega
  | int16 n =>
    have hlow : -2 ^ 15 ≤ n.toInt := n.le_toInt
    have hhigh : n.toInt < 2 ^ 15 := n.toInt_lt
    simp only [toInt]
    omega
  | int32 n => exact ⟨n.le_toInt, n.toInt_lt⟩
  | uint8 n =>
    have hhigh : n.toNat < 2 ^ 8 := n.toNat_lt
    simp only [toInt]
    omega
  | uint16 n =>
    have hhigh : n.toNat < 2 ^ 16 := n.toNat_lt
    simp only [toInt]
    omega
  | _ => cases h

theorem le_toInt (h : n.type.isWide = false) : -2 ^ 63 ≤ n.toInt := by
  by_cases hshort : n.type.isShort = true
  · have hlow := (short_range hshort).1
    omega
  · cases n with
    | int64 n => exact n.le_toInt
    | uint32 n | uint64 n =>
      simp only [toInt]
      omega
    | int128 n | uint128 n => cases h
    | _ => exact absurd rfl hshort

theorem text_key (h : n.type.isWide = false) : n.key.text = n.text := by
  cases hshort : n.type.isShort with
  | true =>
    obtain ⟨hlow, hhigh⟩ := short_range hshort
    rw [key_of_short hshort, Key.text, Int32.toInt_ofInt_of_le hlow hhigh, text]
  | false =>
    by_cases hhigh : n.toInt < 2 ^ 63
    · rw [key_of_long hshort hhigh, Key.text, Int64.toInt_ofInt_of_le (le_toInt h) hhigh, text]
    · rw [key_of_text hshort hhigh, Key.text]

end Integer

/-! ## Decimal texts -/

theorem Integer.text_injective {n m : Integer} (htype : n.type = m.type) (h : n.text = m.text) : n = m := by
  have hread := congrArg (fun text => Text.integer? text.toList) h
  simp only [text, Text.integer?_repr] at hread
  exact eq_of_toInt htype (Option.some.inj hread)

theorem Integer.bracket_not_mem_text (n : Integer) : ']' ∉ n.text.toList := by
  have hdigits : ∀ m : Nat, ']' ∉ Nat.toDigits 10 m := by
    intro m hmem
    exact absurd (Nat.isDigit_of_mem_toDigits (by decide) (by decide) hmem) (by decide)
  unfold text
  cases n.toInt with
  | ofNat m =>
    have hrepr : (Int.ofNat m).repr.toList = Nat.toDigits 10 m := Nat.toList_repr
    rw [hrepr]
    exact hdigits m
  | negSucc m =>
    have hrepr : (Int.negSucc m).repr.toList = '-' :: Nat.toDigits 10 (m + 1) := by
      simp [Int.repr]
    rw [hrepr, List.mem_cons, not_or]
    exact ⟨by decide, hdigits (m + 1)⟩

/-! ## Numbers and keys -/

def Number.ofInt (n : Int) : Number :=
  if n < 0 then .negative (.ofInt n) else .natural n.toNat.toUInt64

theorem Number.ofInt64_eq (n : Int64) : ofInt64 n = ofInt n.toInt := by
  rw [ofInt64, ofInt, Int64.ofInt_toInt]
  simp only [Int64.lt_iff_toInt_lt]
  rfl

theorem Number.natural_eq (n : UInt64) : natural n = ofInt n.toNat := by
  rw [ofInt, if_neg (by omega)]
  simp

namespace Data

theorem integerNumber_eq {n : Integer} (h : n.type.isWide = false) : integerNumber n = .ok (.ofInt n.toInt) := by
  cases n with
  | int8 n | int16 n | int32 n | int64 n => simp [integerNumber, Number.ofInt64_eq, Integer.toInt]
  | uint8 n | uint16 n | uint32 n | uint64 n => simp [integerNumber, Number.natural_eq, Integer.toInt]
  | int128 n | uint128 n => cases h

theorem integerKey_eq {n : Integer} (h : n.type.isWide = false) : integerKey n = .ok n.key := by
  cases n with
  | int8 n | int16 n | int32 n =>
    rw [Integer.key_of_short rfl]
    simp [integerKey, Integer.toInt]
  | uint8 n | uint16 n =>
    rw [Integer.key_of_short rfl, Integer.toInt, Int32.ofInt_eq_ofNat]
    rfl
  | int64 n =>
    have hkey : (Integer.int64 n).key = .int64 (.ofInt n.toInt) := Integer.key_of_long rfl n.toInt_lt
    rw [hkey, Int64.ofInt_toInt]
    rfl
  | uint32 n =>
    have hrange : n.toNat < 2 ^ 32 := n.toNat_lt
    have hhigh : (n.toNat : Int) < 2 ^ 63 := by omega
    have hkey : (Integer.uint32 n).key = .int64 (.ofInt n.toNat) := Integer.key_of_long rfl hhigh
    rw [hkey, Int64.ofInt_eq_ofNat]
    rfl
  | uint64 n =>
    have hsize : 2 * n.toNat < UInt64.size ↔ (n.toNat : Int) < 2 ^ 63 := by
      rw [UInt64.size]
      omega
    rw [integerKey]
    split
    · rename_i hfits
      have hkey : (Integer.uint64 n).key = .int64 (.ofInt n.toNat) := Integer.key_of_long rfl (hsize.mp hfits)
      rw [hkey, Int64.ofInt_eq_ofNat]
    · rename_i hfits
      have hkey : (Integer.uint64 n).key = .string (Integer.uint64 n).text := Integer.key_of_text rfl (mt hsize.mpr hfits)
      rw [hkey]
      rfl
  | int128 n | uint128 n => cases h

/-! ## Integers for keys -/

/-- Keys and values as they are given, an integer before each datum. -/
def ofEntries (entries : List (Integer × Data)) : List (Part × Data) :=
  entries.flatMap fun e => [(.key, .integer e.1), (.value, e.2)]

/-- The member of the mapping that an entry becomes. -/
structure IsMember (e : Integer × Data) (m : Key × Value) : Prop where
  narrow : e.1.type.isWide = false
  key : m.1 = e.1.key
  value : e.2.value = .ok m.2

theorem IsMember.text {e : Integer × Data} {m : Key × Value} (h : IsMember e m) : m.1.text = e.1.text := by
  rw [h.key, Integer.text_key h.narrow]

theorem toValue_of_value {d : Data} {v : Value} : d.value = .ok v ↔ d.toValue = .ok v := by
  unfold value
  cases d.toValue with
  | ok w => simp
  | error fault => simp

variable {entries : List (Integer × Data)} {members : List (Key × Value)}

theorem exists_members (hwide : ∀ e ∈ entries, e.1.type.isWide = false) (h : ∀ e ∈ entries, ∃ v, e.2.value = .ok v) :
    ∃ members, List.Forall₂ IsMember entries members := by
  induction entries with
  | nil => exact ⟨[], .nil⟩
  | cons e entries ih =>
    obtain ⟨hnarrow, hwide⟩ := List.forall_mem_cons.mp hwide
    obtain ⟨⟨v, hv⟩, hvalues⟩ := List.forall_mem_cons.mp h
    obtain ⟨members, hmembers⟩ := ih hwide hvalues
    exact ⟨(e.1.key, v) :: members, .cons ⟨hnarrow, rfl, hv⟩ hmembers⟩

theorem texts_members (h : List.Forall₂ IsMember entries members) :
    (members.map fun m => m.1.text) = entries.map fun e => e.1.text := by
  induction h with
  | nil => rfl
  | cons hmember _ ih => rw [List.map_cons, List.map_cons, ih, hmember.text]

theorem exists_member (h : List.Forall₂ IsMember entries members) {i : Nat} {e : Integer × Data}
    (he : entries[i]? = some e) : ∃ m, members[i]? = some m ∧ IsMember e m := by
  obtain ⟨hi, rfl⟩ := List.getElem?_eq_some_iff.mp he
  have hi' : i < members.length := h.length_eq ▸ hi
  exact ⟨members[i], List.getElem?_eq_getElem hi', h.get hi hi'⟩

/-- Each key is new, so its entry goes behind those before. -/
theorem entryValues_ofEntries (h : List.Forall₂ IsMember entries members) {seen : List (Key × Value)}
    (hapart : ((seen ++ members).map Prod.fst).Nodup) :
    entryValues seen none (ofEntries entries) = .ok (seen ++ members) := by
  induction h generalizing seen with
  | nil =>
    rw [List.append_nil]
    rfl
  | @cons e m entries members hmember _ ih =>
    have hnew : m.1 ∉ seen.map Prod.fst := by
      rw [List.map_append, List.map_cons] at hapart
      exact (List.nodup_middle.mp hapart).notMem ∘ List.mem_append_left _
    have hput : put e.1.key m.2 seen = seen ++ [m] := by
      rw [← hmember.key, put_of_notMem hnew]
    have hcalls : ofEntries (e :: entries) = (.key, .integer e.1) :: (.value, e.2) :: ofEntries entries := rfl
    rw [hcalls, entryValues, toKey, integerKey_eq hmember.narrow]
    simp only [bind, Except.bind]
    rw [entryValues, toValue_of_value.mp hmember.value]
    simp only [bind, Except.bind]
    rw [hput, ih (by simpa using hapart), List.append_assoc]
    rfl

theorem value_ofEntries (h : List.Forall₂ IsMember entries members) (hapart : (members.map fun m => m.1.text).Nodup) :
    (mapping (ofEntries entries)).value = .ok (.map members) := by
  have hkeys : (([] ++ members).map Prod.fst).Nodup := by
    refine List.Nodup.of_map Key.text ?_
    rwa [List.nil_append, List.map_map]
  rw [toValue_of_value, toValue, entryValues_ofEntries h hkeys]
  rfl

end Data

/-- The keys of a mapping, each with its place. -/
def places {α : Type} (members : List (Key × α)) : List (Key × Nat) :=
  members.zipIdx.map fun e => (e.1.1, e.2)

theorem texts_places {α : Type} (members : List (Key × α)) :
    ((places members).map fun e => e.1.text) = members.map fun m => m.1.text := by
  have hmembers := List.zipIdx_map_fst 0 members
  rw [places, List.map_map]
  conv_rhs => rw [← hmembers, List.map_map]
  rfl

theorem mem_places {α : Type} {members : List (Key × α)} {m : Key × α} {i : Nat} (h : members[i]? = some m) :
    (m.1, i) ∈ places members :=
  List.mem_map.mpr ⟨(m, i), List.mk_mem_zipIdx_iff_getElem?.mpr h, rfl⟩

/-- The path that goes down to a key of the part `m`. -/
def memberPath (n : Integer) : List Char :=
  'm' :: '.' :: Path.bracketed n.text

theorem ofText_memberPath (n : Integer) (region : Region) :
    Path.ofText (memberPath n) region = .ok ⟨.context 0, ["m", n.text], memberPath n, region⟩ := by
  have hm : Path.IsBare ['m'] := ⟨by decide, by simp [Path.IsBareChar, Path.isSeparator]⟩
  have hsegments : Path.SpellsSegments (['m'] ++ '.' :: Path.bracketed n.text) ["m", n.text] :=
    .cons (.bare hm) rfl (.last (.brackets n.bracket_not_mem_text))
  have hspells : Path.Spells (memberPath n) (.context 0) ["m", n.text] :=
    @Path.Spells.context 0 _ _ (.segments hsegments (by simp [Path.isSeparator])) (by simp [Path.hopsText])
  exact Path.ofText_of_spells hspells region

theorem resolve_memberPath {frame : Frame} {members : List (Key × Value)} {n : Integer} {v : Value}
    (hframe : frame.value.segment? "m" = some (.map members)) (h : (Value.map members).segment? n.text = some v)
    (region : Region) : frame.resolve ⟨.context 0, ["m", n.text], memberPath n, region⟩ = .ok v := by
  rw [Frame.resolve, Frame.start, Frame.ancestor?]
  simp only [Frame.descend, hframe, h]

/-- Integers of one type, no two of them equal, keep their places as the keys of a mapping. The decimal
text of each finds its value, at its place, and so does a path with that text for a segment. -/
theorem Data.value_integerKeys {type : IntegerType} (htype : type.isWide = false) {entries : List (Integer × Data)}
    (hkeys : ∀ e ∈ entries, e.1.type = type) (hapart : (entries.map Prod.fst).Nodup)
    (hvalues : ∀ e ∈ entries, ∃ v, e.2.value = .ok v) :
    ∃ members, (mapping (ofEntries entries)).value = .ok (.map members) ∧
      List.Forall₂ (fun e m => m.1.text = e.1.text ∧ e.2.value = .ok m.2) entries members ∧
      ∀ (i : Nat) (e : Integer × Data), entries[i]? = some e → ∃ v, e.2.value = .ok v ∧
        Key.lookup e.1.text members = some v ∧ Key.lookup e.1.text (places members) = some i ∧
        (Value.map members).segment? e.1.text = some v ∧
        ∀ (frame : Frame) (region : Region), frame.value.segment? "m" = some (.map members) →
          ∃ p, Path.ofText (memberPath e.1) region = .ok p ∧ frame.resolve p = .ok v := by
  obtain ⟨members, hmembers⟩ := exists_members (fun e he => hkeys e he ▸ htype) hvalues
  have htexts : (members.map fun m => m.1.text).Nodup := by
    have hinjective : ∀ n ∈ entries.map Prod.fst, ∀ k ∈ entries.map Prod.fst, n.text = k.text → n = k := by
      simp only [List.forall_mem_map]
      exact fun e he e' he' => Integer.text_injective ((hkeys e he).trans (hkeys e' he').symm)
    have hnodup := List.Nodup.map_on hinjective hapart
    rw [List.map_map] at hnodup
    rwa [texts_members hmembers]
  refine ⟨members, value_ofEntries hmembers htexts, ?_, ?_⟩
  · exact hmembers.imp fun e m h => ⟨h.text, h.value⟩
  · intro i e he
    obtain ⟨m, hm, hmember⟩ := exists_member hmembers he
    have hlookup : Key.lookup m.1.text members = some m.2 := Key.lookup_text htexts (List.mem_of_getElem? hm)
    have hplace : Key.lookup m.1.text (places members) = some i :=
      Key.lookup_text (by rwa [texts_places]) (mem_places hm)
    rw [hmember.text] at hlookup hplace
    have hsegment := Value.segment?_entry hlookup
    refine ⟨m.2, hmember.value, hlookup, hplace, hsegment, ?_⟩
    intro frame region hframe
    exact ⟨_, ofText_memberPath e.1 region, resolve_memberPath hframe hsegment region⟩

/-- Integers without a sign on either side of what a key of 64 bits holds. -/
theorem Data.value_integerKeys_edges :
    let entries : List (Integer × Data) :=
      [(.uint64 0xFFFFFFFFFFFFFFFF, .string "a"), (.uint64 0x80000000, .string "b"), (.uint64 7, .absent)]
    IntegerType.uint64.isWide = false ∧ (∀ e ∈ entries, e.1.type = .uint64) ∧ (entries.map Prod.fst).Nodup ∧
      (∀ e ∈ entries, ∃ v, e.2.value = .ok v) ∧
      ∃ members, (mapping (ofEntries entries)).value = .ok (.map members) ∧
        members.map (·.1) = [.string "18446744073709551615", .int64 0x80000000, .int64 7] ∧
        Key.lookup "18446744073709551615" (places members) = some 0 ∧
        Key.lookup "2147483648" (places members) = some 1 := by
  intro entries
  have htypes : ∀ e ∈ entries, e.1.type = .uint64 := by simp [entries, Integer.type]
  have hapart : (entries.map Prod.fst).Nodup := by simp [entries]
  have hvalues : ∀ e ∈ entries, ∃ v, e.2.value = .ok v := by simp [entries, value, toValue]
  obtain ⟨members, hvalue, -, hfound⟩ := value_integerKeys rfl htypes hapart hvalues
  have hcomputed : (mapping (ofEntries entries)).value = .ok (.map
      [(.string "18446744073709551615", .string "a"), (.int64 0x80000000, .string "b"), (.int64 7, .null)]) := by
    rfl
  obtain rfl := Value.map.inj (Except.ok.inj (hvalue.symm.trans hcomputed))
  obtain ⟨-, -, -, hfirst, -⟩ := hfound 0 _ rfl
  obtain ⟨-, -, -, hsecond, -⟩ := hfound 1 _ rfl
  exact ⟨rfl, htypes, hapart, hvalues, _, hvalue, rfl, hfirst, hsecond⟩

end Curly
