import LogAudit.Sql.Token

/-!
# Reading tokens

`Token.scan?` splits a text into tokens, or finds that one of them is not closed. Each token is read
off the front by `lexeme`, which gives no token for white space and comments.
-/

namespace LogAudit.Sql.Lexer

open LogAudit.Text

/-- What is read off the front of a text: perhaps a token, and the characters after it. -/
abbrev Step := Option Token × List Char

/-- Letters of any script and the underscore start a word. -/
def startsWord (c : Char) : Bool := isAlphabetic c || c == '_'

/-- A word goes on with letters, ASCII digits, underscores and dollar signs. -/
def continuesWord (c : Char) : Bool := isAlphabetic c || c.isDigit || c == '_' || c == '$'

/-- The characters that operators beyond the known ones are made of. -/
def continuesOperator (c : Char) : Bool := "+-*/<>=~!@#%^&|\x60?".toList.contains c

/-- A symbol by itself. -/
def plainSymbol (text : String) (rest : List Char) : Step := (some (.symbol text), rest)

/-- A symbol that grows into another operator if more of its characters follow. -/
def operator (text : String) (rest : List Char) : Step :=
  (some (.symbol (text ++ String.ofList (rest.takeWhile continuesOperator))),
    rest.dropWhile continuesOperator)

/-- A word whose first characters have been read. -/
def word (start rest : List Char) : Step :=
  (some (.ofWord (start ++ rest.takeWhile continuesWord)), rest.dropWhile continuesWord)

/-- The character that a backslash and a letter stand for in a literal with backslashes. -/
def control : Char → Char
  | '0' => '\x00'
  | 'a' => '\x07'
  | 'b' => '\x08'
  | 'f' => '\x0c'
  | 'n' => '\n'
  | 'r' => '\r'
  | 't' => '\t'
  | 'Z' => '\x1a'
  | c => c

/-- The text up to a closing quote, in which a doubled quote stands for one; the opening quote has
been read. -/
def quoted (quote : Char) : List Char → Option (List Char × List Char)
  | [] => none
  | [c] => if c == quote then some ([], []) else none
  | c :: d :: s =>
    if c == quote then
      if d == quote then (quoted quote s).map fun (text, rest) => (quote :: text, rest)
      else some ([], d :: s)
    else (quoted quote (d :: s)).map fun (text, rest) => (c :: text, rest)

/-- The text up to a closing quote, in which a backslash changes the meaning of the next
character. -/
def quotedWithControls : List Char → Option (List Char × List Char)
  | [] => none
  | '\x27' :: '\x27' :: s =>
    (quotedWithControls s).map fun (text, rest) => ('\x27' :: text, rest)
  | '\x27' :: s => some ([], s)
  | '\\' :: c :: s => (quotedWithControls s).map fun (text, rest) => (control c :: text, rest)
  | c :: s => (quotedWithControls s).map fun (text, rest) => (c :: text, rest)

/-- The value of a hexadecimal digit. -/
def hexDigit? (c : Char) : Option Nat :=
  if c.isDigit then some (c.toNat - 48)
  else if 'a' ≤ c && c ≤ 'f' then some (c.toNat - 87)
  else if 'A' ≤ c && c ≤ 'F' then some (c.toNat - 55)
  else none

/-- A character by its code point. -/
def character? (n : Nat) : Option Char := if n.isValidChar then some (Char.ofNat n) else none

/-- The number that hexadecimal digits write. -/
def hexValue? (digits : List Char) : Option Nat :=
  digits.foldlM (fun value c => (hexDigit? c).map (value * 16 + ·)) 0

/-- A character by exactly `count` hexadecimal digits; a plus sign may stand for the first one. -/
def byCodePoint (count : Nat) (s : List Char) : Option (Char × List Char) :=
  let digits := s.take count
  if digits.length < count then none
  else do
    let value ← hexValue? (if digits.head? = some '+' then digits.tail else digits)
    return (← character? value, s.drop count)

/-- A byte by up to `count` digits of a base. Only the ASCII characters can be written that way. -/
def byByte (base count : Nat) (isDigit : Char → Bool) (s : List Char) :
    Option (Char × List Char) :=
  let digits := (s.take count).takeWhile isDigit
  let value := digits.foldl (fun value c => value * base + (hexDigit? c).getD 0) 0 % 256
  if value ≤ 127 then some (Char.ofNat value, s.drop digits.length) else none

/-- An ASCII digit of base eight. -/
def isOctal (c : Char) : Bool := '0' ≤ c && c ≤ '7'

/-- A digit of base sixteen. -/
def isHex (c : Char) : Bool := (hexDigit? c).isSome

/-- The character that a backslash stands for in an escaped literal. -/
def escape (c : Char) (s : List Char) : Option (Char × List Char) :=
  match c with
  | 'b' => some ('\x08', s)
  | 'f' => some ('\x0c', s)
  | 'n' => some ('\n', s)
  | 'r' => some ('\r', s)
  | 't' => some ('\t', s)
  | 'u' => byCodePoint 4 s
  | 'U' => byCodePoint 8 s
  | 'x' => if (s.head?.map isHex).getD false then byByte 16 2 isHex s else some ('x', s)
  | c => if isOctal c then byByte 8 3 isOctal (c :: s) else some (c, s)

/-- The text of an escaped literal up to its closing quote. The character zero cannot be
written. -/
def escaped : Nat → List Char → Option (List Char × List Char)
  | 0, _ => none
  | _ + 1, [] => none
  | fuel + 1, '\x27' :: '\x27' :: s =>
    (escaped fuel s).map fun (text, rest) => ('\x27' :: text, rest)
  | _ + 1, '\x27' :: s => some ([], s)
  | fuel + 1, '\\' :: c :: s => do
    let (c, s) ← escape c s
    if c == '\x00' then none
    else (escaped fuel s).map fun (text, rest) => (c :: text, rest)
  | _ + 1, ['\\'] => none
  | fuel + 1, c :: s => (escaped fuel s).map fun (text, rest) => (c :: text, rest)

/-- The text of a literal with code points up to its closing quote. -/
def withCodePoints : Nat → List Char → Option (List Char × List Char)
  | 0, _ => none
  | _ + 1, [] => none
  | fuel + 1, '\x27' :: '\x27' :: s =>
    (withCodePoints fuel s).map fun (text, rest) => ('\x27' :: text, rest)
  | _ + 1, '\x27' :: s => some ([], s)
  | fuel + 1, '\\' :: '\\' :: s =>
    (withCodePoints fuel s).map fun (text, rest) => ('\\' :: text, rest)
  | fuel + 1, '\\' :: s => do
    let (count, s) := if s.head? = some '+' then (6, s.tail) else (4, s)
    let digits := s.take count
    if digits.length < count then none
    else
      let c ← character? (← hexValue? digits)
      (withCodePoints fuel (s.drop count)).map fun (text, rest) => (c :: text, rest)
  | fuel + 1, c :: s => (withCodePoints fuel s).map fun (text, rest) => (c :: text, rest)

/-- The rest after a comment with `depth` openings more than closings, of which `last` is the last
character read. A closing's slash may open the next comment, as may an opening's star close one. -/
def afterComment (depth : Nat) (last : Char) : List Char → Option (List Char)
  | [] => none
  | c :: s =>
    if last == '/' && c == '*' then afterComment (depth + 1) c s
    else if last == '*' && c == '/' then
      if depth ≤ 1 then some s else afterComment (depth - 1) c s
    else afterComment depth c s

/-- The text up to the next doubled dollar sign. Single dollar signs belong to the text. -/
def untilDollars (previous : Char) : List Char → Option (List Char × List Char)
  | [] => none
  | c :: s =>
    if previous == '$' then
      if c == '$' then some ([], s)
      else (untilDollars c s).map fun (text, rest) => ('$' :: c :: text, rest)
    else if c == '$' then untilDollars c s
    else (untilDollars c s).map fun (text, rest) => (c :: text, rest)

/-- Compare with a tag: what follows it, or else the characters up to and with the first that
differs and those after it. -/
def compareTag : List Char → List Char → Option (Sum (List Char) (List Char × List Char))
  | [], s => some (.inl s)
  | _ :: _, [] => none
  | t :: tag, c :: s =>
    if t == c then
      (compareTag tag s).map fun
        | .inl rest => .inl rest
        | .inr (read, rest) => .inr (c :: read, rest)
    else some (.inr ([c], s))

/-- The text up to a tag between dollar signs. -/
def untilTag (tag : List Char) : Nat → List Char → Option (List Char × List Char)
  | 0, _ => none
  | _ + 1, [] => none
  | fuel + 1, '$' :: s =>
    match compareTag tag s with
    | none => none
    | some (.inl ('$' :: rest)) => some ([], rest)
    | some (.inl rest) =>
      (untilTag tag fuel rest).map fun (text, rest) => ('$' :: tag ++ text, rest)
    | some (.inr (read, rest)) =>
      (untilTag tag fuel rest).map fun (text, rest) => ('$' :: read ++ text, rest)
  | fuel + 1, c :: s => (untilTag tag fuel s).map fun (text, rest) => (c :: text, rest)

/-- What may stand in the tag of a literal between dollar signs. -/
def continuesTag (c : Char) : Bool := isAlphabetic c || isDecimal c || c == '_'

/-- A token that starts with a dollar sign. -/
def dollar (s : List Char) : Option Step :=
  match s with
  | '$' :: s => (untilDollars ' ' s).map fun (text, rest) =>
    (some (.text .dollar (String.ofList text)), rest)
  | s =>
    let tag := s.takeWhile continuesTag
    match s.dropWhile continuesTag with
    | '$' :: rest => (untilTag tag (rest.length + 1) rest).map fun (text, rest) =>
      (some (.text .dollar (String.ofList text)), rest)
    | rest => some (some .parameter, rest)

/-- The exponent of a number, if digits make it one. -/
def exponent (s : List Char) : List Char × List Char :=
  match s with
  | c :: s' =>
    if c == 'e' || c == 'E' then
      let (sign, digits) := match s' with
        | '+' :: t => (['+'], t)
        | '-' :: t => (['-'], t)
        | t => ([], t)
      if (digits.head?.map Char.isDigit).getD false then
        (c :: sign ++ digits.takeWhile Char.isDigit, digits.dropWhile Char.isDigit)
      else ([], s)
    else ([], s)
  | [] => ([], [])

/-- A token that starts with a digit or a point: a number, a hexadecimal literal or the point
itself. -/
def numeral (s : List Char) : Step :=
  let whole := s.takeWhile Char.isDigit
  match whole, s.dropWhile Char.isDigit with
  | ['0'], 'x' :: rest =>
    (some (.text .hexadecimal (String.ofList (rest.takeWhile isHex))), rest.dropWhile isHex)
  | whole, rest =>
    let (point, rest) := match rest with
      | '.' :: rest => (['.'], rest)
      | rest => ([], rest)
    let fraction := rest.takeWhile Char.isDigit
    let rest := rest.dropWhile Char.isDigit
    if whole ++ point ++ fraction = ['.'] then plainSymbol "." rest
    else
      let (power, rest) := exponent rest
      let rest := match rest with
        | 'L' :: rest => rest
        | rest => rest
      (some (.number (String.ofList (whole ++ point ++ fraction ++ power))), rest)

/-- A literal after its letter and opening quote. -/
def literal (kind : TextKind) (text : Option (List Char × List Char)) : Option Step :=
  text.map fun (text, rest) => (some (.text kind (String.ofList text)), rest)

/-- Operators of fixed spelling that start with one of `<`, `>`, `=`, `!` and `~`. -/
def comparison (s : List Char) : Option Step :=
  match s with
  | '=' :: '>' :: s => some (plainSymbol "=>" s)
  | '=' :: '=' :: s => some (plainSymbol "==" s)
  | '=' :: s => some (plainSymbol "=" s)
  | '!' :: '=' :: s => some (plainSymbol "<>" s)
  | '!' :: '!' :: s => some (plainSymbol "!!" s)
  | '!' :: '~' :: '*' :: s => some (operator "!~*" s)
  | '!' :: '~' :: '~' :: '*' :: s => some (operator "!~~*" s)
  | '!' :: '~' :: '~' :: s => some (operator "!~~" s)
  | '!' :: '~' :: s => some (operator "!~" s)
  | '!' :: s => some (plainSymbol "!" s)
  | '<' :: '=' :: '>' :: s => some (operator "<=>" s)
  | '<' :: '=' :: s => some (operator "<=" s)
  | '<' :: '>' :: s => some (operator "<>" s)
  | '<' :: '<' :: s => some (operator "<<" s)
  | '<' :: '@' :: s => some (operator "<@" s)
  | '<' :: s => some (operator "<" s)
  | '>' :: '=' :: s => some (operator ">=" s)
  | '>' :: '>' :: s => some (operator ">>" s)
  | '>' :: s => some (operator ">" s)
  | '~' :: '*' :: s => some (operator "~*" s)
  | '~' :: '~' :: '*' :: s => some (operator "~~*" s)
  | '~' :: '~' :: s => some (operator "~~" s)
  | '~' :: s => some (operator "~" s)
  | _ => none

/-- Operators and punctuation of any other spelling. -/
def mark (s : List Char) : Option Step :=
  match s with
  | '-' :: '>' :: '>' :: s => some (operator "->>" s)
  | '-' :: '>' :: s => some (operator "->" s)
  | '-' :: s => some (operator "-" s)
  | '%' :: c :: s => some (if isBlank c then plainSymbol "%" (c :: s) else operator "%" (c :: s))
  | '%' :: s => some (plainSymbol "%" s)
  | '|' :: '/' :: s => some (operator "|/" s)
  | '|' :: '|' :: '/' :: s => some (operator "||/" s)
  | '|' :: '|' :: s => some (operator "||" s)
  | '|' :: s => some (operator "|" s)
  | ':' :: ':' :: s => some (plainSymbol "::" s)
  | ':' :: '=' :: s => some (plainSymbol ":=" s)
  | '&' :: '&' :: s => some (operator "&&" s)
  | '&' :: s => some (operator "&" s)
  | '^' :: '@' :: s => some (plainSymbol "^@" s)
  | '#' :: '-' :: s => some (operator "#-" s)
  | '#' :: '>' :: '>' :: s => some (operator "#>>" s)
  | '#' :: '>' :: s => some (operator "#>" s)
  | '#' :: ' ' :: s => some (plainSymbol "#" (' ' :: s))
  | '#' :: s => some (operator "#" s)
  | '@' :: '>' :: s => some (operator "@>" s)
  | '@' :: '?' :: s => some (operator "@?" s)
  | '@' :: '@' :: ' ' :: s => some (plainSymbol "@@" (' ' :: s))
  | '@' :: '@' :: s => some (operator "@@" s)
  | '@' :: c :: s =>
    if [' ', '\x27', '"', '\x60'].contains c then some (plainSymbol "@" (c :: s))
    else some (operator "@" (c :: s))
  | '@' :: [] => some (plainSymbol "@" [])
  | '?' :: '|' :: s => some (operator "?|" s)
  | '?' :: '&' :: s => some (operator "?&" s)
  | '?' :: s => some (operator "?" (s.drop 1))
  | c :: s => some (plainSymbol (String.ofList [c]) s)
  | [] => none

/-- The token at the front of a text; `none` if it is not closed. -/
def lexeme (c : Char) (s : List Char) : Option Step :=
  if c == 'N' || c == 'n' then
    match s with
    | '\x27' :: s => literal .national (quoted '\x27' s)
    | s => some (word [c] s)
  else if c == 'E' || c == 'e' then
    match s with
    | '\x27' :: s => literal .escaped (escaped (s.length + 1) s)
    | s => some (word [c] s)
  else if c == 'X' || c == 'x' then
    match s with
    | '\x27' :: s => literal .hexadecimal (quotedWithControls s)
    | s => some (word [c] s)
  else if c == 'U' || c == 'u' then
    match s with
    | '&' :: '\x27' :: s => literal .unicode (withCodePoints (s.length + 1) s)
    | s => some (word [c] s)
  else if c == '\x27' then literal .plain (quoted '\x27' s)
  else if c == '"' then (quoted '"' s).map fun (text, rest) => (some (.ofQuoted text), rest)
  else if c.isDigit || c == '.' then some (numeral (c :: s))
  else if c == '-' && s.head? = some '-' then
    some (none, (s.dropWhile (· != '\n')).drop 1)
  else if c == '/' && s.head? = some '*' then
    (afterComment 1 ' ' s.tail).map fun rest => (none, rest)
  else if ['<', '>', '=', '!', '~'].contains c then comparison (c :: s)
  else if startsWord c then some (word [c] s)
  else if c == '$' then dollar s
  else if isBlank c then some (none, s)
  else mark (c :: s)

/-- Split the characters into tokens. -/
def tokens? : Nat → List Char → Option (List Token)
  | _, [] => some []
  | 0, _ :: _ => none
  | fuel + 1, c :: s => do
    let (token, rest) ← lexeme c s
    let tokens ← tokens? fuel rest
    return token.toList ++ tokens

end LogAudit.Sql.Lexer

namespace LogAudit.Sql

/-- Split a text into tokens; `none` if a literal, a quoted word or a comment is not closed. -/
def Token.scan? (sql : String) : Option (List Token) :=
  Lexer.tokens? sql.toList.length sql.toList

end LogAudit.Sql
