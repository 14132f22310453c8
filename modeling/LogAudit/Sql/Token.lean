import LogAudit.Text.Classes

/-!
# Tokens of SQL

A statement is read as a list of tokens, without the white space and the comments between them. A
word carries its keyword, which is the word in capitals; a quoted word is never a keyword.
-/

namespace LogAudit.Sql

/-- How the text of a literal was written. -/
inductive TextKind where
  /-- `'text'` -/
  | plain
  /-- `E'text'` -/
  | escaped
  /-- `N'text'` -/
  | national
  /-- `X'1F'` or `0x1F` -/
  | hexadecimal
  /-- `U&'text'` -/
  | unicode
  /-- `$tag$text$tag$` -/
  | dollar
  deriving DecidableEq, Repr

/-- The smallest parts of a statement. -/
inductive Token where
  /-- A word with its keyword, which is empty for a quoted word. -/
  | word (text : String) (keyword : String)
  /-- A number in the spelling of the statement. -/
  | number (text : String)
  /-- A text literal with its value. -/
  | text (kind : TextKind) (value : String)
  /-- A numbered parameter. -/
  | parameter
  /-- An operator or a punctuation mark. -/
  | symbol (text : String)
  deriving DecidableEq, Repr

/-- The capitals of a letter, where they are letters of the alphabet that keywords are written
in. -/
def capitals (c : Char) : List Char :=
  match c with
  | 'ß' => ['S', 'S']
  | 'ı' => ['I']
  | 'ſ' => ['S']
  | 'ﬀ' => ['F', 'F']
  | 'ﬁ' => ['F', 'I']
  | 'ﬂ' => ['F', 'L']
  | 'ﬃ' => ['F', 'F', 'I']
  | 'ﬄ' => ['F', 'F', 'L']
  | 'ﬅ' => ['S', 'T']
  | 'ﬆ' => ['S', 'T']
  | c => [c.toUpper]

namespace Token

/-- The token of a word that is not quoted. -/
def ofWord (word : List Char) : Token :=
  .word (String.ofList word) (String.ofList (word.flatMap capitals))

/-- The token of a quoted word. -/
def ofQuoted (word : List Char) : Token := .word (String.ofList word) ""

/-- The token is this keyword. -/
def isKeyword (keyword : String) : Token → Bool
  | .word _ k => k == keyword
  | _ => false

/-- The token is this symbol. -/
def isSymbol (text : String) : Token → Bool
  | .symbol t => t == text
  | _ => false

end Token

end LogAudit.Sql
