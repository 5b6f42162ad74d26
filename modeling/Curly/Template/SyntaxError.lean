import Curly.Template.Path
import Curly.Template.Token

/-!
# Syntax errors

Every way in which a source can fail to be a template, with what a message says
about it.
-/

namespace Curly

inductive SyntaxError.Fault where
  /-- A token without meaning. -/
  | token (fault : Token.Fault)
  | path (fault : Path.Fault)
  /-- The source ends inside a tag. -/
  | endOfSource
  /-- A token of tags stands outside of them. -/
  | stray
  | expression (found : Token.Kind)
  /-- Something else stands where the given token has to. -/
  | expected (kind : Token.Kind)
  | partialName
  | escape
  | number
  /-- A block is headed by something other than a path. -/
  | blockHead
  /-- A block opened by a caret has arguments. -/
  | invertedArguments
  /-- A subexpression is headed by something other than a plain name. -/
  | groupHead
  /-- A named argument has no plain name. -/
  | argumentName
  /-- A positional argument follows a named one. -/
  | argumentOrder
  /-- An alternative stands outside of any block. -/
  | elseOutside
  /-- The block already has an alternative. -/
  | secondElse (block : String)
  /-- There is no block to close. -/
  | nothingOpen
  /-- The innermost block has another name. -/
  | wrongClose (block : String)
  | unclosed (block : String)
deriving DecidableEq, Repr

structure SyntaxError where
  fault : SyntaxError.Fault
  region : Region
deriving DecidableEq, Repr

namespace SyntaxError.Fault

def reason : Fault → String
  | .token _ | .blockHead | .invertedArguments | .groupHead | .argumentName | .argumentOrder =>
    "invalid syntax"
  | .path _ => "invalid path"
  | .endOfSource => "unexpected eof"
  | .stray | .expression _ | .expected _ | .partialName => "unexpected token"
  | .escape => "unexpected escape character"
  | .number => "unrecognizable number"
  | .elseOutside | .secondElse _ | .nothingOpen | .wrongClose _ => "unexpected block"
  | .unclosed _ => "unclosed block"

def closeHelp (block : String) : String :=
  "did you close the `" ++ block ++ "` block with `\x7b\x7b/" ++ block ++ "\x7d\x7d`?"

def help : Fault → String
  | .token fault => fault.help
  | .path fault => fault.help
  | .endOfSource => "expected additional tokens, did you close all blocks and expressions?"
  | .stray => "expected raw text or the beginning of a tag"
  | .expression found =>
    "expected a path, a literal or a subexpression, found " ++ found.description
  | .expected kind => "expected " ++ kind.description
  | .partialName => "expected the name of a partial, such as `\x7b\x7b> header\x7d\x7d`"
  | .escape => "recognized escapes are `\\n`, `\\r`, `\\t`, `\\\\`, `\\\"` and `\\'`"
  | .number =>
    "numbers may begin with `-` to indicate a negative number and must not end with a decimal"
  | .blockHead => "a block must begin with a helper name or a path"
  | .invertedArguments =>
    "an inverted block takes a single path, such as `\x7b\x7b^items\x7d\x7d`"
  | .groupHead => "a subexpression must begin with the name of a helper"
  | .argumentName => "the name of a hash argument must be a plain identifier"
  | .argumentOrder => "positional arguments must come before hash arguments"
  | .elseOutside => "`else` is only valid inside of a block"
  | .secondElse block => "the `" ++ block ++ "` block already has an `else` branch"
  | .nothingOpen => "there is no open block to close here"
  | .wrongClose block => closeHelp block
  | .unclosed block => closeHelp block

end SyntaxError.Fault

end Curly
