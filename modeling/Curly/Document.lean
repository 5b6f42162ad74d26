import Curly.Entries
import Curly.Number

/-!
# Documents

Data written as JSON. An object keeps its members in order; of two with one
name the first gives the place and the last the value.
-/

namespace Curly

inductive Document where
  | null
  | bool (b : Bool)
  | number (n : Number)
  | string (s : String)
  | array (items : List Document)
  | object (members : List (String × Document))

namespace Document

instance : Inhabited Document := ⟨.null⟩

def maxDepth : Nat := 127

def isSpace (c : Char) : Bool :=
  c == ' ' || c == '\t' || c == '\n' || c == '\r'

def skipSpace (text : List Char) : List Char :=
  text.dropWhile isSpace

/-! ## Strings -/

def hexDigit? (c : Char) : Option Nat :=
  if c.isDigit then some (c.toNat - '0'.toNat)
  else if 'a' ≤ c && c ≤ 'f' then some (c.toNat - 'a'.toNat + 10)
  else if 'A' ≤ c && c ≤ 'F' then some (c.toNat - 'A'.toNat + 10)
  else none

/-- The number that four hexadecimal digits write. -/
def hex4? (a b c d : Char) : Option Nat := do
  return (((← hexDigit? a) * 16 + (← hexDigit? b)) * 16 + (← hexDigit? c)) * 16 + (← hexDigit? d)

def isLead (n : Nat) : Bool :=
  0xD800 ≤ n && n < 0xDC00

def isTrail (n : Nat) : Bool :=
  0xDC00 ≤ n && n < 0xE000

/-- The character that two halves of a surrogate pair write. -/
def paired (lead trail : Nat) : Char :=
  Char.ofNat (0x10000 + (lead - 0xD800) * 0x400 + (trail - 0xDC00))

def unescape? : Char → Option Char
  | '\x22' => some '\x22'
  | '\\' => some '\\'
  | '/' => some '/'
  | 'b' => some '\x08'
  | 'f' => some '\x0c'
  | 'n' => some '\n'
  | 'r' => some '\r'
  | 't' => some '\t'
  | _ => none

/-- The rest of a string behind its opening quote, and the text after it. -/
def readString : List Char → Option (List Char × List Char)
  | [] => none
  | '\x22' :: rest => some ([], rest)
  | '\\' :: 'u' :: a :: b :: c :: d :: rest =>
    match hex4? a b c d with
    | none => none
    | some m =>
      if isLead m then
        match rest with
        | '\\' :: 'u' :: e :: f :: g :: h :: rest =>
          match hex4? e f g h with
          | none => none
          | some n =>
            if isTrail n then (readString rest).map fun (s, r) => (paired m n :: s, r) else none
        | _ => none
      else if isTrail m then none
      else (readString rest).map fun (s, r) => (Char.ofNat m :: s, r)
  | '\\' :: c :: rest =>
    match unescape? c with
    | some d => (readString rest).map fun (s, r) => (d :: s, r)
    | none => none
  | c :: rest =>
    if c.toNat < 0x20 then none else (readString rest).map fun (s, r) => (c :: s, r)

/-! ## Values -/

mutual

/-- The document that a text begins with, and the text after it. The first
argument bounds the work, the second the nesting. -/
def readValue : Nat → Nat → List Char → Option (Document × List Char)
  | 0, _, _ => none
  | n + 1, depth, text =>
    match skipSpace text, depth with
    | 'n' :: 'u' :: 'l' :: 'l' :: rest, _ => some (.null, rest)
    | 't' :: 'r' :: 'u' :: 'e' :: rest, _ => some (.bool true, rest)
    | 'f' :: 'a' :: 'l' :: 's' :: 'e' :: rest, _ => some (.bool false, rest)
    | '\x22' :: rest, _ => (readString rest).map fun (s, r) => (.string (String.ofList s), r)
    | '[' :: rest, depth + 1 =>
      match skipSpace rest with
      | ']' :: rest => some (.array [], rest)
      | rest => (readItems n depth rest).map fun (ds, r) => (.array ds, r)
    | '{' :: rest, depth + 1 =>
      match skipSpace rest with
      | '}' :: rest => some (.object [], rest)
      | rest => (readMembers n depth [] rest).map fun (ms, r) => (.object ms, r)
    | text, _ => (Number.read text).map fun (x, r) => (.number x, r)

def readItems : Nat → Nat → List Char → Option (List Document × List Char)
  | 0, _, _ => none
  | n + 1, depth, text =>
    match readValue n depth text with
    | none => none
    | some (d, rest) =>
      match skipSpace rest with
      | ']' :: rest => some ([d], rest)
      | ',' :: rest => (readItems n depth rest).map fun (ds, r) => (d :: ds, r)
      | _ => none

/-- The members of an object up to its closing brace, put to those before. -/
def readMembers : Nat → Nat → List (String × Document) → List Char →
    Option (List (String × Document) × List Char)
  | 0, _, _, _ => none
  | n + 1, depth, seen, text =>
    match skipSpace text with
    | '\x22' :: rest =>
      match readString rest with
      | none => none
      | some (name, rest) =>
        match skipSpace rest with
        | ':' :: rest =>
          match readValue n depth rest with
          | none => none
          | some (d, rest) =>
            match skipSpace rest with
            | '}' :: rest => some (put (String.ofList name) d seen, rest)
            | ',' :: rest => readMembers n depth (put (String.ofList name) d seen) rest
            | _ => none
        | _ => none
    | _ => none

end

def ofText? (text : String) : Option Document :=
  let cs := text.toList
  match readValue (2 * cs.length + 2) maxDepth cs with
  | some (d, rest) => if (skipSpace rest).isEmpty then some d else none
  | none => none

end Document

end Curly
