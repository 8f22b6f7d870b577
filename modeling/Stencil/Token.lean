import Stencil.Fault
import Stencil.Number.Text

/-!
# Tokens of a template

A template is a sequence of literal texts, variable paths, macro calls and
directives.  This file names the tokens of which they consist and the keywords
of the directives.
-/

namespace Stencil

/-- The directives that the language has. -/
inductive Keyword where
  | ifBlock
  | elifBranch
  | elseBranch
  | endBlock
  | forBlock
  | letBinding
  deriving DecidableEq, Repr, Inhabited

namespace Keyword

def word : Keyword → String
  | .ifBlock => "if"
  | .elifBranch => "elif"
  | .elseBranch => "else"
  | .endBlock => "end"
  | .forBlock => "for"
  | .letBinding => "let"

def all : List Keyword :=
  [.ifBlock, .elifBranch, .elseBranch, .endBlock, .forBlock, .letBinding]

def ofWord? (word : String) : Option Keyword :=
  all.find? fun keyword => keyword.word = word

def takesHeader : Keyword → Bool
  | .ifBlock | .elifBranch | .forBlock | .letBinding => true
  | .elseBranch | .endBlock => false

end Keyword

/-- What a token is, with its content. -/
inductive TokenKind where
  /-- Literal text, with its escapes undone. -/
  | text (content : String)
  /-- The sigil that starts a variable path. -/
  | dollar
  | name (spelling : String)
  /-- The name of a macro, without its sigil. -/
  | macroName (spelling : String)
  /-- The word of a directive, without its sigil. -/
  | directive (word : String)
  | string (content : String)
  | integer (number : Int64)
  | float (number : Binary64)
  | boolean (value : Bool)
  | null
  | leftParen
  | rightParen
  | leftBracket
  | rightBracket
  | comma
  | dot
  | assign
  | endOfInput
  deriving DecidableEq, Repr, Inhabited

/-- A token and the bytes from which it was read. -/
structure Token where
  kind : TokenKind
  span : Span
  deriving DecidableEq, Repr, Inhabited

/-- A text between single quotation marks. -/
def inApostrophes (text : String) : String :=
  "'" ++ text ++ "'"

def TokenKind.description : TokenKind → String
  | .text _ => "text"
  | .dollar => inApostrophes "$"
  | .name spelling => inApostrophes spelling
  | .macroName spelling => "macro " ++ inApostrophes ("@" ++ spelling)
  | .directive word => inApostrophes ("#" ++ word)
  | .string _ => "string literal"
  | .integer number => inApostrophes (integerText number.toInt)
  | .float number => inApostrophes number.shortestText
  | .boolean value => inApostrophes (if value then "true" else "false")
  | .null => inApostrophes "null"
  | .leftParen => inApostrophes "("
  | .rightParen => inApostrophes ")"
  | .leftBracket => inApostrophes "["
  | .rightBracket => inApostrophes "]"
  | .comma => inApostrophes ","
  | .dot => inApostrophes "."
  | .assign => inApostrophes "="
  | .endOfInput => "end of input"

end Stencil
