import LogAudit.Audit.Phrase

/-!
# Passwords in messages

A statement that sets a password shows it in the log, unless the client sent it in a hashed form.
-/

namespace LogAudit.Audit

open LogAudit.Text

/-- A message and the password that it shows. -/
structure Leak where
  query : String
  password : String
  deriving DecidableEq, Repr

/-- A password after its keyword, as group 1. -/
def passwordPattern : Pattern :=
  .sequence [phrase "PASSWORD ", .char '\x27', .group 1 (.atLeastOne (· != '\x27')),
    .char '\x27']

/-- How hashed passwords start. -/
def hashNames : List String := ["md5", "scram-sha-256", "plain", "crypt", "password"]

/-- A password starts with the name of a hashing method, in either case, and goes on after it. -/
def isHashed (password : String) : Bool :=
  let lower := password.toList.map Char.toLower
  hashNames.any fun name =>
    name.toList.isPrefixOf lower && name.length < lower.length

/-- The leak in a message: its first password, unless that is hashed. -/
def leak? (message : String) : Option Leak := do
  let captures ← passwordPattern.search message.toList
  let password := String.ofList (← captures.text? 1)
  if isHashed password then none else some ⟨message, password⟩

end LogAudit.Audit
