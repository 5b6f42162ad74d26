import Curly.Region

/-!
# Tokens

What a template's source consists of once blanks inside tags are left out.
A token keeps its own text, so that reading tokens needs no source.
-/

namespace Curly

/-- Text that has no meaning where it stands. -/
inductive Token.Fault where
  | unterminatedComment
  | unterminatedString
  | unterminatedSegment
  | unclosedTag
  /-- A tag ends with the closing marker of the other kind of tag. -/
  | mismatchedClose
  | unexpectedCharacter
deriving DecidableEq, Repr

inductive Token.Kind where
  | raw
  | comment
  | beginExpression
  | beginRaw
  | endExpression
  | endRaw
  | hash
  | caret
  | slash
  | angle
  | assign
  | beginGroup
  | endGroup
  | string
  | number
  | path
  | trueLiteral
  | falseLiteral
  | nullLiteral
  | elseKeyword
  | invalid (fault : Token.Fault)
deriving DecidableEq, Repr

structure Token where
  kind : Token.Kind
  text : List Char
  region : Region
deriving DecidableEq, Repr

namespace Token

def Kind.description : Kind → String
  | .raw => "raw"
  | .comment => "comment"
  | .beginExpression => "begin expression (\x7b\x7b)"
  | .beginRaw => "begin raw expression (\x7b\x7b\x7b)"
  | .endExpression => "end expression (\x7d\x7d)"
  | .endRaw => "end raw expression (\x7d\x7d\x7d)"
  | .hash => "hash (#)"
  | .caret => "caret (^)"
  | .slash => "slash (/)"
  | .angle => "angle (>)"
  | .assign => "assign (=)"
  | .beginGroup => "begin group (()"
  | .endGroup => "end group ())"
  | .string => "string"
  | .number => "number"
  | .path => "path"
  | .trueLiteral => "true"
  | .falseLiteral => "false"
  | .nullLiteral => "null"
  | .elseKeyword => "else"
  | .invalid _ => "invalid"

def Fault.help : Fault → String
  | .unterminatedComment =>
    "this comment is never closed, try closing it with `\x7d\x7d` or `--\x7d\x7d`"
  | .unterminatedString =>
    "this might be an undelimited string, try closing it with a matching quote"
  | .unterminatedSegment => "this segment literal is never closed, try closing it with `]`"
  | .unclosedTag => "did you close the previous tag with `\x7d\x7d`?"
  | .mismatchedClose =>
    "a tag opened with `\x7b\x7b\x7b` must be closed with `\x7d\x7d\x7d`, " ++
      "and a tag opened with `\x7b\x7b` must be closed with `\x7d\x7d`"
  | .unexpectedCharacter => "expected a path, a literal, a subexpression or the end of the tag"

end Token

end Curly
