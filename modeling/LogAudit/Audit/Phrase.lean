import LogAudit.Text.Pattern

/-!
# Phrases

A phrase is a search pattern in a short spelling: letters of either case, with signs for blanks,
numbers and quoted names.
-/

namespace LogAudit.Audit

open LogAudit.Text

/-- At least one character other than `quote`, between two of them. -/
def betweenQuotes (quote : Char) : Pattern :=
  .sequence [.char quote, .atLeastOne (· != quote), .char quote]

/-- The pattern of one character of a phrase: a space for at least one blank, `~` for any number of
them, `#` for a number, `@` for a word in single quotes, `"` for anything in double quotes, `?` for
one blank, underscore or hyphen that may be missing, `*` for anything in a line; other characters
for themselves in either case. -/
def phraseSign : Char → Pattern
  | ' ' => .someBlanks
  | '~' => .blanks
  | '#' => .atLeastOne isDecimal
  | '@' => .sequence [.char '\x27', .atLeastOne isWord, .char '\x27']
  | '"' => betweenQuotes '"'
  | '?' => .optional (.one fun c => isBlank c || c == '_' || c == '-')
  | '*' => .many Pattern.inLine
  | c => .one (Pattern.sameLetter c)

/-- The pattern of a phrase. -/
def phrase (text : String) : Pattern := .sequence (text.toList.map phraseSign)

end LogAudit.Audit
