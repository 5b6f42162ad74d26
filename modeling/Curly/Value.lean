import Curly.Key
import Curly.Number

/-!
# Values

The data that templates are rendered with. A mapping has keys of its own, a
record has members, and a dynamic object answers for the names it lists and for
others. Entries are kept as lists in order; `insert` functions keep their keys
apart.
-/

namespace Curly

inductive Value where
  | null
  | bool (b : Bool)
  | number (n : Number)
  | string (s : String)
  | array (items : List Value)
  | map (entries : List (Key × Value))
  | record (fields : List (String × Value))
  /-- An object that is the same as another only if it has the same identity.
  It answers with its properties and lists the given names. -/
  | dynamic (identity : Nat) (properties : List (String × Value)) (names : List String)

namespace Value

instance : Inhabited Value := ⟨.null⟩

def ofNat (n : Nat) : Value :=
  .number (.ofNat n)

/-- The key as a value; integers stay numbers. -/
def ofKey : Key → Value
  | .string s => .string s
  | .int32 n => .number (.ofInt64 n.toInt64)
  | .int64 n => .number (.ofInt64 n)

/-- A floating-point number, null if it is not finite. -/
def ofFloat (x : Float) : Value :=
  match Number.ofFloat? x with
  | some n => .number n
  | none => .null

/-- A record of the members, of which a later one replaces an earlier one of
its name. -/
def ofMembers (members : List (String × Value)) : Value :=
  .record (members.foldl (fun fields m => put m.1 m.2 fields) [])

def isNull : Value → Bool
  | .null => true
  | _ => false

def string? : Value → Option String
  | .string s => some s
  | _ => none

def float? : Value → Option Float
  | .number n => some n.toFloat
  | _ => none

/-- Whether the value counts as true in a condition. -/
def isTruthy : Value → Bool
  | .null => false
  | .bool b => b
  | .number n => !n.isZero
  | .string s => !s.isEmpty
  | .array items => !items.isEmpty
  | .map _ | .record _ | .dynamic .. => true

/-! ## Text -/

def pairsText (pairs : List (String × String)) : String :=
  "\x7b" ++ ", ".intercalate (pairs.map fun (k, v) => k ++ ": " ++ v) ++ "\x7d"

mutual

def innerText : Value → String
  | .null => "null"
  | .bool true => "true"
  | .bool false => "false"
  | .number n => n.text
  | .string s => s
  | .array items => "[" ++ ", ".intercalate (itemTexts items) ++ "]"
  | .map entries => pairsText (entryTexts entries)
  | .record fields => pairsText (fieldTexts fields)
  | .dynamic _ properties names =>
    let texts := fieldTexts properties
    pairsText (names.filterMap fun name => (valueAt name texts).map fun text => (name, text))

def itemTexts : List Value → List String
  | [] => []
  | v :: vs => v.innerText :: itemTexts vs

def entryTexts : List (Key × Value) → List (String × String)
  | [] => []
  | (k, v) :: es => (k.text, v.innerText) :: entryTexts es

def fieldTexts : List (String × Value) → List (String × String)
  | [] => []
  | (name, v) :: fs => (name, v.innerText) :: fieldTexts fs

end

def text : Value → String
  | .null => ""
  | v => v.innerText

/-! ## Equality -/

mutual

/-- Equality of data. Entries are compared whatever their order, numbers across
kinds, dynamic objects by identity. -/
def same : Value → Value → Bool
  | .null, .null => true
  | .bool a, .bool b => a == b
  | .number a, .number b => a.same b
  | .string a, .string b => a == b
  | .array xs, .array ys => sameItems xs ys
  | .map xs, .map ys => xs.length == ys.length && sameEntries xs ys
  | .record xs, .record ys => xs.length == ys.length && sameFields xs ys
  | .dynamic i _ _, .dynamic j _ _ => i == j
  | _, _ => false

def sameItems : List Value → List Value → Bool
  | [], [] => true
  | x :: xs, y :: ys => x.same y && sameItems xs ys
  | _, _ => false

def sameEntries : List (Key × Value) → List (Key × Value) → Bool
  | [], _ => true
  | (k, v) :: es, others =>
    (match valueAt k others with
      | some w => v.same w
      | none => false) && sameEntries es others

def sameFields : List (String × Value) → List (String × Value) → Bool
  | [], _ => true
  | (name, v) :: fs, others =>
    (match valueAt name others with
      | some w => v.same w
      | none => false) && sameFields fs others

end

/-! ## Parts -/

def item? (v : Value) (position : Nat) : Option Value :=
  match v with
  | .array items => items[position]?
  | _ => none

def size? : Value → Option Nat
  | .array items => some items.length
  | _ => none

/-- The value of a mapping under a key that the text matches. -/
def entry? (v : Value) (key : String) : Option Value :=
  match v with
  | .map entries => Key.lookup key entries
  | _ => none

def property? (v : Value) (name : String) : Option Value :=
  match v with
  | .dynamic _ properties _ => valueAt name properties
  | _ => none

/-- The member of a record, failing that the first one whose name differs in
the case of letters only. -/
def member? (v : Value) (name : String) : Option Value :=
  match v with
  | .record fields =>
    valueAt name fields <|> (fields.find? fun f => Text.sameIgnoringCase f.1 name).map (·.2)
  | _ => none

def position? (segment : String) : Option Nat :=
  match Text.natural? segment.toList with
  | some n => if n < UInt64.size then some n else none
  | none => none

/-- The part of a value that a segment of a path names. -/
def segment? (v : Value) (segment : String) : Option Value :=
  (position? segment).bind v.item? <|>
    v.entry? segment <|>
    v.property? segment <|>
    v.member? segment <|>
    if Text.sameIgnoringCase segment "length" || Text.sameIgnoringCase segment "count" then
      v.size?.map ofNat
    else none

/-- The elements of an array under their positions, counted from the given one. -/
def numbered : Nat → List Value → List (Value × Value)
  | _, [] => []
  | i, v :: vs => (ofNat i, v) :: numbered (i + 1) vs

/-- What an iteration goes through, with the keys. A value without parts has
none. -/
def entries? : Value → Option (List (Value × Value))
  | .array items => some (numbered 0 items)
  | .map entries => some (entries.map fun (k, v) => (ofKey k, v))
  | .record fields => some (fields.map fun (name, v) => (.string name, v))
  | .dynamic _ properties names =>
    some (names.filterMap fun name => (valueAt name properties).map fun v => (.string name, v))
  | _ => none

end Value

end Curly
