import Curly.Template.Tag

/-!
# Outlines

Tags are put together to a tree one after another. An outline is a tree that is
still being written: the nodes of the innermost open scope, and around it the
open blocks, each with the nodes that stand before it. So there is one more
open scope than there are open blocks.
-/

namespace Curly

structure Level where
  opening : Opening
  /-- Whether the block is the alternative of the one around it and is closed
  together with it. -/
  chained : Bool
  /-- The finished body, once the alternative has begun. -/
  body : Option (List Node)
  /-- The nodes before the block in its scope, last first. -/
  before : List Node

structure Outline where
  /-- The nodes of the innermost scope, last first. -/
  nodes : List Node
  /-- The open blocks, innermost first. -/
  levels : List Level

namespace Level

def name (l : Level) : String :=
  String.ofList l.opening.name

/-- The block, `nodes` being those of its last scope, last first. -/
def finish (l : Level) (nodes : List Node) : Node :=
  let o := l.opening
  match l.body with
  | some body => .block o.call o.negated body (some nodes.reverse) o.region
  | none => .block o.call o.negated nodes.reverse none o.region

end Level

namespace Outline

def empty : Outline :=
  ⟨[], []⟩

def push (o : Outline) (node : Node) : Outline :=
  { o with nodes := node :: o.nodes }

def opened (o : Outline) (opening : Opening) (chained : Bool) : Outline :=
  ⟨[], ⟨opening, chained, none, o.nodes⟩ :: o.levels⟩

def alternative (o : Outline) (marker : Region) : Except SyntaxError Outline :=
  match o.levels with
  | [] => .error ⟨.elseOutside, marker⟩
  | l :: rest =>
    if l.body.isSome then .error ⟨.secondElse l.name, marker⟩
    else .ok ⟨[], { l with body := some o.nodes.reverse } :: rest⟩

/-- Closes the innermost block that is not chained, and those chained to it. -/
def close (name : Option (List Char × Region)) (region : Region) (nodes : List Node) :
    List Level → Except SyntaxError Outline
  | [] => .error ⟨.nothingOpen, region⟩
  | l :: rest =>
    if l.chained then close name region (l.finish nodes :: l.before) rest
    else
      match name with
      | some (text, at_) =>
        if text = l.opening.name then .ok ⟨l.finish nodes :: l.before, rest⟩
        else .error ⟨.wrongClose l.name, at_⟩
      | none => .ok ⟨l.finish nodes :: l.before, rest⟩

def add (o : Outline) : Tag → Except SyntaxError Outline
  | .node node => .ok (o.push node)
  | .opening opening => .ok (o.opened opening false)
  | .alternative marker => o.alternative marker
  | .alternativeOpening marker opening =>
    match o.alternative marker with
    | .ok o => .ok (o.opened opening true)
    | .error e => .error e
  | .closing name region => close name region o.nodes o.levels

def addAll (o : Outline) : List Tag → Except SyntaxError Outline
  | [] => .ok o
  | tag :: tags =>
    match o.add tag with
    | .ok o => o.addAll tags
    | .error e => .error e

def finish (o : Outline) : Except SyntaxError (List Node) :=
  match o.levels.find? (!·.chained) with
  | some l => .error ⟨.unclosed l.name, l.opening.region⟩
  | none => .ok o.nodes.reverse

end Outline

/-- The tree of a source. Of a tag in error and a block in error the one that
comes first is told. -/
def Node.ofSource (source : List Char) : Except SyntaxError (List Node) :=
  let (tags, rest) := Tag.ofSource source
  match Outline.empty.addAll tags, rest with
  | .error e, _ => .error e
  | .ok _, some e => .error e
  | .ok o, none => o.finish

end Curly
