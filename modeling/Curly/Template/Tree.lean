import Curly.Number
import Curly.Template.Path

/-!
# Trees

The tree of a template: its nodes, and the expressions inside tags.
-/

namespace Curly

/-- A value written out in a tag. -/
inductive Literal where
  | null
  | bool (b : Bool)
  | number (n : Number)
  | string (s : String)

mutual

inductive Expression where
  | literal (value : Literal) (region : Region)
  | path (p : Path)
  /-- A helper called for its text. -/
  | call (callee : Path) (operands : Operands) (region : Region)

structure Operands where
  positional : List Expression
  named : List (String × Expression)

end

structure Call (Head : Type) where
  head : Head
  operands : Operands
  region : Region

inductive PartialName where
  | fixed (name : String)
  | computed (call : Call Path)

inductive Node where
  | raw (text : String) (region : Region)
  | output (call : Call Expression) (escaped : Bool) (region : Region)
  /-- A block, `region` being its opening tag. A negated block renders its
  inverse where others render their body. -/
  | block (call : Call Path) (negated : Bool) (body : List Node) (inverse : Option (List Node))
      (region : Region)
  /-- Another template rendered in place, in a context of its own if one is given. -/
  | inclusion (name : PartialName) (context : Option Expression) (region : Region)

instance : Inhabited Expression := ⟨.literal .null default⟩

def Operands.isEmpty (o : Operands) : Bool :=
  o.positional.isEmpty && o.named.isEmpty

def Expression.region : Expression → Region
  | .literal _ region => region
  | .path p => p.region
  | .call _ _ region => region

/-- The helper that an expression at the head of a call may name. -/
def Expression.helperName : Expression → Option String
  | .path p => p.helperName
  | _ => none

end Curly
