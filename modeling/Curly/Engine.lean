import Curly.Helper.Builtin
import Curly.Template

/-!
# Engines

An engine holds what rendering needs besides a template and a value: settings,
helpers, the templates that others may include, a source of further templates,
and the journal for messages. Registering under a name that is taken replaces
what was there.
-/

namespace Curly

structure Engine where
  config : Config
  helpers : List (String × Registered)
  templates : List (String × Template)
  /-- Asked for templates that are not registered. -/
  resolver : String → Option Template
  /-- Where the messages of templates go, if anywhere. -/
  journal : Option Journal

namespace Engine

/-- The engine with the built-in helpers and nothing else. -/
def new (config : Config) : Engine :=
  ⟨config, Builtin.all, [], fun _ => none, none⟩

instance : Inhabited Engine := ⟨new {}⟩

def withResolver (engine : Engine) (resolver : String → Option Template) : Engine :=
  { engine with resolver := resolver }

def withJournal (engine : Engine) (journal : Journal) : Engine :=
  { engine with journal := some journal }

/-! ## Helpers -/

def register (engine : Engine) (name : String) (helper : Registered) : Engine :=
  { engine with helpers := put name helper engine.helpers }

def registerHelper (engine : Engine) (name : String) (helper : Helper) : Run Engine := do
  Run.note .debug ("registering helper `" ++ name ++ "`")
  return engine.register name (.plain helper)

def registerBlockHelper (engine : Engine) (name : String) (helper : BlockHelper) : Run Engine := do
  Run.note .debug ("registering block helper `" ++ name ++ "`")
  return engine.register name (.block helper)

def helper? (engine : Engine) (name : String) : Option Helper :=
  match valueAt name engine.helpers with
  | some (.plain helper) => some helper
  | some .log => some (Builtin.logHelper engine.journal engine.config.logLevel)
  | _ => none

def blockHelper? (engine : Engine) (name : String) : Option BlockHelper :=
  match valueAt name engine.helpers with
  | some (.block helper) => some helper
  | _ => none

/-! ## Templates -/

def compile (source : String) : Run Template := do
  Run.note .debug ("compiling template of " ++ toString source.utf8ByteSize ++ " bytes")
  Run.ofExcept (Template.compile none source)

def registerTemplate (engine : Engine) (name source : String) : Run Engine := do
  Run.note .debug ("registering template `" ++ name ++ "`")
  let template ← Run.ofExcept (Template.compile (some name) source)
  return { engine with templates := put name template engine.templates }

def template? (engine : Engine) (name : String) : Option Template :=
  valueAt name engine.templates

/-- The template that an inclusion names. -/
def included? (engine : Engine) (name : String) : Option Template :=
  engine.template? name <|> engine.resolver name

end Engine

end Curly
