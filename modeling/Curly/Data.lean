import Curly.Diagnostic
import Curly.Document
import Curly.Value

/-!
# Data

What a program hands over to be rendered, before it is a value: numbers of
every width, characters, bytes, optional data, variants, mappings given key by
key. Some of it has no value. The first such part, in the order in which the
data is gone through, says why.
-/

namespace Curly

inductive Integer where
  | int8 (n : Int8)
  | int16 (n : Int16)
  | int32 (n : Int32)
  | int64 (n : Int64)
  | uint8 (n : UInt8)
  | uint16 (n : UInt16)
  | uint32 (n : UInt32)
  | uint64 (n : UInt64)
  | int128 (n : Int)
  | uint128 (n : Nat)

/-- The part that a datum has in an entry of a mapping. -/
inductive Part where
  | key
  | value
deriving DecidableEq, Repr

inductive Data where
  | bool (b : Bool)
  | integer (n : Integer)
  | single (x : Float32)
  | double (x : Float)
  | char (c : Char)
  | string (s : String)
  | bytes (bs : List UInt8)
  | absent
  | wrapped (d : Data)
  | sequence (items : List Data)
  | record (fields : List (String × Data))
  /-- Keys and values in the order in which they are given. -/
  | mapping (parts : List (Part × Data))
  | variant (name : String)
  | variantOf (name : String) (content : Data)
  /-- A datum that cannot be had, for a reason of its own. -/
  | failure (message : String)

namespace Data

instance : Inhabited Data := ⟨.absent⟩

inductive Fault where
  | wideInteger (signed : Bool)
  /-- A value in a mapping follows no key. -/
  | missingKey
  /-- A key is neither text nor an integer, nor written as one. -/
  | unfitKey
  | failure (message : String)
deriving DecidableEq, Repr

def Fault.reason : Fault → String
  | .wideInteger true => "i128 is not supported"
  | .wideInteger false => "u128 is not supported"
  | .missingKey => "map value serialized before its key"
  | .unfitKey => "map key must be a string or an integer"
  | .failure message => message

/-! ## Keys -/

/-- Floating-point keys are written without exponent, and without a point if
they are whole. -/
def keyLayout : Decimal.Layout where
  positional _ := true
  point := false
  tie := .upward

/-- The key for an integer. Below 32 bits of value it is one of 32 bits, else
one of 64 if it fits, failing that its text. -/
def integerKey : Integer → Except Fault Key
  | .int8 n => .ok (.int32 n.toInt32)
  | .int16 n => .ok (.int32 n.toInt32)
  | .int32 n => .ok (.int32 n)
  | .int64 n => .ok (.int64 n)
  | .uint8 n => .ok (.int32 (.ofNat n.toNat))
  | .uint16 n => .ok (.int32 (.ofNat n.toNat))
  | .uint32 n => .ok (.int64 (.ofNat n.toNat))
  | .uint64 n =>
    .ok (if 2 * n.toNat < UInt64.size then .int64 (.ofNat n.toNat)
      else .string (Decimal.digitsText n.toNat))
  | .int128 _ => .error (.wideInteger true)
  | .uint128 _ => .error (.wideInteger false)

def toKey : Data → Except Fault Key
  | .bool b => .ok (.string (if b then "true" else "false"))
  | .integer n => integerKey n
  | .single x => .ok (.string (keyLayout.text32 x))
  | .double x => .ok (.string (keyLayout.text64 x))
  | .char c => .ok (.string (String.singleton c))
  | .string s => .ok (.string s)
  | .variant name => .ok (.string name)
  | .wrapped d => d.toKey
  | .failure message => .error (.failure message)
  | _ => .error .unfitKey

/-! ## Values -/

def integerNumber : Integer → Except Fault Number
  | .int8 n => .ok (.ofInt64 n.toInt64)
  | .int16 n => .ok (.ofInt64 n.toInt64)
  | .int32 n => .ok (.ofInt64 n.toInt64)
  | .int64 n => .ok (.ofInt64 n)
  | .uint8 n => .ok (.natural n.toUInt64)
  | .uint16 n => .ok (.natural n.toUInt64)
  | .uint32 n => .ok (.natural n.toUInt64)
  | .uint64 n => .ok (.natural n)
  | .int128 _ => .error (.wideInteger true)
  | .uint128 _ => .error (.wideInteger false)

mutual

def toValue : Data → Except Fault Value
  | .bool b => .ok (.bool b)
  | .integer n => (integerNumber n).map .number
  | .single x => .ok (.ofFloat x.toFloat)
  | .double x => .ok (.ofFloat x)
  | .char c => .ok (.string (String.singleton c))
  | .string s => .ok (.string s)
  | .bytes bs => .ok (.array (bs.map fun b => .ofNat b.toNat))
  | .absent => .ok .null
  | .wrapped d => d.toValue
  | .sequence items => (itemValues items).map .array
  | .record fields => (fieldValues [] fields).map .record
  | .mapping parts => (entryValues [] none parts).map .map
  | .variant name => .ok (.string name)
  | .variantOf name content => content.toValue.map fun v => .record [(name, v)]
  | .failure message => .error (.failure message)

def itemValues : List Data → Except Fault (List Value)
  | [] => .ok []
  | d :: ds => do
    let v ← d.toValue
    return v :: (← itemValues ds)

def fieldValues (seen : List (String × Value)) :
    List (String × Data) → Except Fault (List (String × Value))
  | [] => .ok seen
  | (name, d) :: fields => do fieldValues (put name (← d.toValue) seen) fields

/-- The entries put to those before, `pending` being the key that waits for its
value. A key that follows another takes its place. -/
def entryValues (seen : List (Key × Value)) (pending : Option Key) :
    List (Part × Data) → Except Fault (List (Key × Value))
  | [] => .ok seen
  | (.key, d) :: parts => do entryValues seen (some (← d.toKey)) parts
  | (.value, d) :: parts =>
    match pending with
    | none => .error .missingKey
    | some k => do entryValues (put k (← d.toValue) seen) none parts

end

def value (d : Data) : Except Diagnostic Value :=
  match d.toValue with
  | .ok v => .ok v
  | .error fault => .error (.of .serialize fault.reason)

/-! ## Documents -/

mutual

/-- The data of a document. Members of objects are entries of mappings. -/
def ofDocument : Document → Data
  | .null => .absent
  | .bool b => .bool b
  | .number (.natural n) => .integer (.uint64 n)
  | .number (.negative n) => .integer (.int64 n)
  | .number (.real x) => .double x
  | .string s => .string s
  | .array items => .sequence (ofItems items)
  | .object members => .mapping (ofMembers members)

def ofItems : List Document → List Data
  | [] => []
  | d :: ds => ofDocument d :: ofItems ds

def ofMembers : List (String × Document) → List (Part × Data)
  | [] => []
  | (name, d) :: members => (.key, .string name) :: (.value, ofDocument d) :: ofMembers members

end

end Data

namespace Value

mutual

def ofDocument : Document → Value
  | .null => .null
  | .bool b => .bool b
  | .number n => .number n
  | .string s => .string s
  | .array items => .array (ofItems items)
  | .object members => .map (putMembers [] members)

def ofItems : List Document → List Value
  | [] => []
  | d :: ds => ofDocument d :: ofItems ds

def putMembers (seen : List (Key × Value)) : List (String × Document) → List (Key × Value)
  | [] => seen
  | (name, d) :: members => putMembers (put (.string name) (ofDocument d) seen) members

end

end Value

end Curly
