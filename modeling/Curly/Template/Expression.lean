import Curly.Template.SyntaxError
import Curly.Template.Tree

/-!
# Reading expressions

Expressions and calls are read from the tokens of a tag. `stop` is the empty
region at the end of the source, where an error stands if the tokens run out.
The first argument of the readers that call each other bounds the depth of
their calls; `depthFor` gives one that is never used up.
-/

namespace Curly

/-- What is read from the front of a list of tokens, and the tokens after it. -/
abbrev Reading (α : Type) :=
  Except SyntaxError (α × List Token)

namespace Reading

def expect (stop : Region) (kind : Token.Kind) : List Token → Reading Token
  | [] => .error ⟨.endOfSource, stop⟩
  | t :: rest =>
    if t.kind = kind then .ok (t, rest)
    else
      match t.kind with
      | .invalid fault => .error ⟨.token fault, t.region⟩
      | _ => .error ⟨.expected kind, t.region⟩

/-! ## Literals -/

def unescape? : Char → Option Char
  | 'n' => some '\n'
  | 'r' => some '\r'
  | 't' => some '\t'
  | '\\' => some '\\'
  | '\x22' => some '\x22'
  | '\x27' => some '\x27'
  | _ => none

def unescape : List Char → Option (List Char)
  | [] => some []
  | ['\\'] => none
  | '\\' :: c :: rest =>
    match unescape? c with
    | some d => (unescape rest).map (d :: ·)
    | none => none
  | c :: rest => (unescape rest).map (c :: ·)

def quoted (t : Token) : Except SyntaxError String :=
  match unescape t.text.tail.dropLast with
  | some text => .ok (String.ofList text)
  | none => .error ⟨.escape, t.region⟩

def number (t : Token) : Except SyntaxError Number :=
  match Number.ofText? t.text with
  | some n => .ok n
  | none => .error ⟨.number, t.region⟩

def path (t : Token) : Except SyntaxError Path :=
  match Path.ofText t.text t.region with
  | .ok p => .ok p
  | .error fault => .error ⟨.path fault, t.region⟩

/-! ## Calls -/

def endsCall (kind : Token.Kind) : Bool :=
  kind = .endExpression || kind = .endRaw || kind = .endGroup

mutual

def expression (stop : Region) : Nat → List Token → Reading Expression
  | 0, _ => .error ⟨.endOfSource, stop⟩
  | _ + 1, [] => .error ⟨.endOfSource, stop⟩
  | n + 1, t :: rest =>
    match t.kind with
    | .path => (path t).map fun p => (.path p, rest)
    | .string => (quoted t).map fun s => (.literal (.string s) t.region, rest)
    | .number => (number t).map fun n => (.literal (.number n) t.region, rest)
    | .trueLiteral => .ok (.literal (.bool true) t.region, rest)
    | .falseLiteral => .ok (.literal (.bool false) t.region, rest)
    | .nullLiteral => .ok (.literal .null t.region, rest)
    | .beginGroup =>
      (group stop n t.region rest).map fun (call, rest) =>
        (.call call.head call.operands call.region, rest)
    | .invalid fault => .error ⟨.token fault, t.region⟩
    | kind => .error ⟨.expression kind, t.region⟩

/-- A subexpression behind its opening parenthesis, which is at `opening`. -/
def group (stop : Region) : Nat → Region → List Token → Reading (Call Path)
  | 0, _, _ => .error ⟨.endOfSource, stop⟩
  | n + 1, opening, tokens =>
    match call stop n tokens with
    | .error e => .error e
    | .ok (c, rest) =>
      match expect stop .endGroup rest with
      | .error e => .error e
      | .ok (closing, rest) =>
        match c.head with
        | .path p =>
          if p.isSimple then .ok (⟨p, c.operands, opening.combine closing.region⟩, rest)
          else .error ⟨.groupHead, p.region⟩
        | head => .error ⟨.groupHead, head.region⟩

def call (stop : Region) : Nat → List Token → Reading (Call Expression)
  | 0, _ => .error ⟨.endOfSource, stop⟩
  | n + 1, tokens =>
    match expression stop n tokens with
    | .error e => .error e
    | .ok (head, rest) =>
      (operands stop n head.region [] [] rest).map fun ((o, region), rest) =>
        (⟨head, o, region⟩, rest)

/-- The arguments that follow those already read, which are given last first,
and the region of the whole call. -/
def operands (stop : Region) : Nat → Region → List Expression → List (String × Expression) →
    List Token → Reading (Operands × Region)
  | 0, _, _, _, _ => .error ⟨.endOfSource, stop⟩
  | _ + 1, region, positional, named, [] => .ok ((⟨positional.reverse, named.reverse⟩, region), [])
  | n + 1, region, positional, named, t :: rest =>
    if endsCall t.kind then .ok ((⟨positional.reverse, named.reverse⟩, region), t :: rest)
    else
      match expression stop n (t :: rest) with
      | .error e => .error e
      | .ok (argument, rest) =>
        match argument, rest with
        | .path p, ⟨.assign, _, assign⟩ :: rest =>
          match p.helperName with
          | none => .error ⟨.argumentName, p.region.combine assign⟩
          | some name =>
            match expression stop n rest with
            | .error e => .error e
            | .ok (value, rest) =>
              operands stop n (region.combine value.region) positional ((name, value) :: named) rest
        | argument, rest =>
          if named.isEmpty then
            operands stop n (region.combine argument.region) (argument :: positional) [] rest
          else .error ⟨.argumentOrder, argument.region⟩

end

/-- A depth that suffices for the tokens: no reader calls another more than
three deep before a token is taken. -/
def depthFor (tokens : List Token) : Nat :=
  4 * (tokens.length + 2)

end Reading

end Curly
