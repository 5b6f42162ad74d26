import Curly.Region
import Curly.Text.Blank

/-!
# Paths

A path refers to a value: it begins at a frame, at a datum of an iteration or
at the outermost frame, and goes down by its segments. This module reads a path
from its text and writes it in dotted form.
-/

namespace Curly

inductive Path.Origin where
  /-- The value of the frame `hops` frames out. -/
  | context (hops : Nat)
  /-- The named datum of the iteration that made the frame `hops` frames out. -/
  | metadata (hops : Nat) (name : String)
  | root
deriving DecidableEq, Repr

structure Path where
  origin : Path.Origin
  segments : List String
  text : List Char
  region : Region
deriving DecidableEq, Repr

namespace Path

/-- One plain name, which may be the name of a helper. -/
def isSimple (p : Path) : Bool :=
  p.origin == .context 0 && p.segments == [String.ofList p.text]

def helperName (p : Path) : Option String :=
  if p.isSimple then p.segments.head? else none

/-- The last segment, or the whole text of a path that has none. -/
def lastSegment (p : Path) : String :=
  p.segments.getLastD (String.ofList p.text)

def isSeparator (c : Char) : Bool :=
  c == '.' || c == '/'

/-! ## Dotted form -/

/-- The segment, in brackets if it holds a separator or a blank. -/
def writtenSegment (segment : String) : String :=
  if segment.toList.any fun c => isSeparator c || Text.isBlank c then "[" ++ segment ++ "]"
  else segment

def writtenHops : Nat → String
  | 0 => ""
  | hops + 1 => "../" ++ writtenHops hops

def dotted (p : Path) : String :=
  let names := p.segments.map writtenSegment
  match p.origin with
  | .context hops => writtenHops hops ++ ".".intercalate (if names.isEmpty then ["this"] else names)
  | .metadata hops name => ".".intercalate (("@" ++ writtenHops hops ++ name) :: names)
  | .root => ".".intercalate ("@root" :: names)

/-! ## Reading -/

inductive Fault where
  | metadataName
  /-- A segment is empty, or a bracket is out of place. -/
  | segment
deriving DecidableEq, Repr

def Fault.help : Fault → String
  | .metadataName => "expected a name after `@`"
  | .segment => "segments are separated by `.` or `/`, and may not be empty"

def splitHops : List Char → Nat × List Char
  | '.' :: '.' :: '/' :: rest => ((splitHops rest).1 + 1, (splitHops rest).2)
  | ['.', '.'] => (1, [])
  | rest => (0, rest)

/-- Where the reading of segments stands. -/
inductive Place where
  | start
  /-- In a bare segment, after these characters, last first. -/
  | bare (seen : List Char)
  /-- In a bracketed segment, after these characters, last first. -/
  | bracket (seen : List Char)
  | closed (seen : List Char)

def segmentOf (seen : List Char) : String :=
  String.ofList seen.reverse

/-- The segments of a text, read on from the given place. -/
def readSegments : Place → List Char → Option (List String)
  | .start, [] => none
  | .start, c :: cs =>
    if c = '[' then readSegments (.bracket []) cs
    else if isSeparator c || c = ']' then none
    else readSegments (.bare [c]) cs
  | .bare seen, [] => some [segmentOf seen]
  | .bare seen, c :: cs =>
    if isSeparator c then (readSegments .start cs).map (segmentOf seen :: ·)
    else if c = '[' || c = ']' then none
    else readSegments (.bare (c :: seen)) cs
  | .bracket _, [] => none
  | .bracket seen, c :: cs =>
    if c = ']' then readSegments (.closed seen) cs else readSegments (.bracket (c :: seen)) cs
  | .closed seen, [] => some [segmentOf seen]
  | .closed seen, c :: cs =>
    if isSeparator c then (readSegments .start cs).map (segmentOf seen :: ·) else none

/-- The segments of a text, none if it is empty. -/
def segments? (text : List Char) : Option (List String) :=
  if text.isEmpty then some [] else readSegments .start text

/-- What a path begins with after its hops: the word for the frame itself, if
it is there, is dropped with the separator behind it. -/
def dropThis : List Char → List Char
  | ['.'] => []
  | ['t', 'h', 'i', 's'] => []
  | '.' :: '/' :: rest => rest
  | 't' :: 'h' :: 'i' :: 's' :: '.' :: rest => rest
  | 't' :: 'h' :: 'i' :: 's' :: '/' :: rest => rest
  | rest => rest

def splitOrigin : List Char → Except Fault (Origin × List Char)
  | ['@', 'r', 'o', 'o', 't'] => .ok (.root, [])
  | '@' :: 'r' :: 'o' :: 'o' :: 't' :: '.' :: rest => .ok (.root, rest)
  | '@' :: 'r' :: 'o' :: 'o' :: 't' :: '/' :: rest => .ok (.root, rest)
  | '@' :: rest =>
    let (hops, data) := splitHops rest
    let name := data.takeWhile (!isSeparator ·)
    if name.isEmpty then .error .metadataName
    else .ok (.metadata hops (String.ofList name), data.drop (name.length + 1))
  | text =>
    let (hops, rest) := splitHops text
    .ok (.context hops, dropThis rest)

def ofText (text : List Char) (region : Region) : Except Fault Path :=
  match splitOrigin text with
  | .error fault => .error fault
  | .ok (origin, rest) =>
    match segments? rest with
    | none => .error .segment
    | some segments => .ok ⟨origin, segments, text, region⟩

end Path

end Curly
