import Curly.Excerpt
import Curly.Template.SyntaxError

/-!
# Diagnostics

What is told about a failure: its cause, a reason in a few words, and where they
are known a help text, an excerpt of a source and the name of a template.
-/

namespace Curly

inductive Diagnostic.Cause where
  /-- The source is no template. -/
  | parse
  /-- A path does not resolve and the engine is told not to let that pass. -/
  | undefinedBinding (path missing : String)
  | helperNotFound (name : String)
  | helperArity (name : String) (expected received : Nat)
  | partialNotFound (name : String)
  | recursionLimit (limit : Nat)
  | helper
  | serialize
  /-- A sink refused a text. -/
  | write
deriving DecidableEq, Repr

structure Diagnostic where
  cause : Diagnostic.Cause
  reason : String
  help : Option String
  excerpt : Option Excerpt
  name : Option String
deriving Repr

namespace Diagnostic

def of (cause : Cause) (reason : String) : Diagnostic :=
  ⟨cause, reason, none, none, none⟩

def ofHelper (reason : String) : Diagnostic :=
  of .helper reason

def withReason (d : Diagnostic) (reason : String) : Diagnostic :=
  { d with reason := reason }

def withHelp (d : Diagnostic) (help : String) : Diagnostic :=
  { d with help := some help }

/-- The diagnostic under a template's name, unless it has one already: what
comes out of an inclusion keeps the name of the included template. -/
def named (d : Diagnostic) (name : String) : Diagnostic :=
  { d with name := d.name.or (some name) }

def withExcerpt (d : Diagnostic) (excerpt : Excerpt) : Diagnostic :=
  { d with excerpt := some excerpt }

/-- The diagnostic with an excerpt of the source, unless it has one already. -/
def pointing (d : Diagnostic) (source : List Char) (region : Region) : Diagnostic :=
  { d with excerpt := d.excerpt.or (some (.ofSource source region)) }

/-- Equality, which takes no account of excerpts. -/
def same (a b : Diagnostic) : Bool :=
  a.cause = b.cause && a.reason = b.reason && a.help = b.help && a.name = b.name

/-! ## Display -/

def headline (d : Diagnostic) : String :=
  Excerpt.red ++ "error" ++ Excerpt.plain ++ ": " ++ d.reason

/-- The headline with all that is known besides. -/
def report (d : Diagnostic) : String :=
  d.headline ++
    match d.excerpt, d.help with
    | some excerpt, help => excerpt.display d.name help
    | none, some help => "\n = help: " ++ help
    | none, none => ""

/-! ## The failures of the library -/

def ofSyntax (source : List Char) (e : SyntaxError) : Diagnostic :=
  ((of .parse e.fault.reason).pointing source e.region).withHelp e.fault.help

def writeFailure : Diagnostic :=
  (of .write "write failure").withHelp "failed to write result of render to the output"

def missingHelper (name : String) : Diagnostic :=
  (of (.helperNotFound name) "helper not found").withHelp
    ("template wants to use the `" ++ name ++ "` helper, but a helper with that name was " ++
      "not found in this engine, did you register it with `.register_helper`?")

def arity (name : String) (expected received : Nat) : Diagnostic :=
  (of (.helperArity name expected received) "wrong number of arguments").withHelp
    ("helper `" ++ name ++ "` expects `" ++ toString expected ++ "` argument(s), received `" ++
      toString received ++ "`")

def missingPartial (name : String) : Diagnostic :=
  (of (.partialNotFound name) "partial not found").withHelp
    ("partial `" ++ name ++ "` not found in engine, add it with `.register_template`")

def missingTemplate (name : String) : Diagnostic :=
  ((missingPartial name).withReason "template not found").withHelp
    ("template `" ++ name ++ "` not found in engine, add it with `.register_template`")

def recursion (limit : Nat) : Diagnostic :=
  (of (.recursionLimit limit) "recursion limit reached").withHelp
    ("partials nested deeper than `" ++ toString limit ++
      "` levels, is a partial including itself?")

def undefined (path missing : String) : Diagnostic :=
  (of (.undefinedBinding path missing) ("undefined binding `" ++ path ++ "`")).withHelp
    ("`" ++ missing ++ "` was not found in the data")

end Diagnostic

end Curly
