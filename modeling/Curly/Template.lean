import Curly.Diagnostic
import Curly.Template.Outline

/-!
# Templates

A template is a source text with its tree.
-/

namespace Curly

structure Template where
  name : Option String
  source : String
  nodes : List Node

/-- Compiles a source. An error carries the template's name. -/
def Template.compile (name : Option String) (source : String) : Except Diagnostic Template :=
  match Node.ofSource source.toList with
  | .ok nodes => .ok ⟨name, source, nodes⟩
  | .error e =>
    let d := Diagnostic.ofSyntax source.toList e
    .error (name.elim d d.named)

end Curly
