import LogAudit.Access.Rule
import Std.Data.HashMap

/-!
# Tables of access rules

A table finds the rules for a connection by the database and the user that they name, and counts the
connections that each rule admitted. Of the rules found, the first in the order of lines whose
clients cover the host admits the connection. `unusedLines` tells the lines without a count.
-/

namespace LogAudit.Access

/-- A rule in a table: its line, its clients and how many connections it admitted. -/
structure TableRule where
  line : Nat
  clients : Clients
  hits : Nat
  deriving DecidableEq, Repr

/-- One more connection. -/
def TableRule.hit (rule : TableRule) : TableRule := { rule with hits := rule.hits + 1 }

/-- Slots of rules by a database and a user, as the rules name them. -/
abbrev SlotIndex := Std.HashMap String (Std.HashMap String (List Nat))

namespace SlotIndex

/-- The slots under a database and a user. -/
def slots (index : SlotIndex) (database user : String) : List Nat :=
  (index.getD database ∅).getD user []

/-- Put a slot under a database and a user, after those that are there. -/
def push (index : SlotIndex) (slot : Nat) (database user : String) : SlotIndex :=
  index.alter database fun users =>
    some ((users.getD ∅).alter user fun slots => some (slots.getD [] ++ [slot]))

/-- Put a slot under a database and each of some users. -/
def pushUsers (index : SlotIndex) (slot : Nat) (users : List String) (database : String) :
    SlotIndex :=
  users.foldl (fun index user => index.push slot database user) index

end SlotIndex

/-- Rules in the order in which they were given, and the index over them. -/
structure RuleTable where
  rules : List TableRule
  index : SlotIndex

namespace RuleTable

/-- Add a rule, under each of its databases with each of its users. -/
def add (t : RuleTable) (rule : AddressRule) : RuleTable where
  rules := t.rules ++ [⟨rule.line, rule.clients, 0⟩]
  index := rule.databases.foldl
    (fun index database => index.pushUsers t.rules.length rule.users database) t.index

/-- The table of some rules. -/
def ofRules (rules : List AddressRule) : RuleTable := rules.foldl add ⟨[], ∅⟩

/-- The line of the rule in a slot. -/
def lineOf (t : RuleTable) (slot : Nat) : Nat := (t.rules[slot]?.map TableRule.line).getD 0

/-- The rule in a slot is for clients of a host. -/
def covers (t : RuleTable) (host : String) (slot : Nat) : Bool :=
  t.rules[slot]?.any (·.clients.cover host)

/-- The pairs of a database and a user under which the rules for a connection are named. -/
def lookups (database user : String) : List (String × String) :=
  [(database, user), (database, "all")]
    ++ (if database = user then
        [("sameuser", user), ("sameuser", "all"), ("samerole", user), ("samerole", "all")]
      else [])
    ++ [("all", user), ("all", "all")]

/-- The slots of the rules for a database and a user, in the order of their lines. -/
def candidates (t : RuleTable) (database user : String) : List Nat :=
  ((lookups database user).flatMap fun (database, user) => t.index.slots database user).mergeSort
    fun a b => t.lineOf a ≤ t.lineOf b

/-- The slot of the rule that admits a connection. -/
def admitting? (t : RuleTable) (c : Connection) : Option Nat :=
  (t.candidates c.database c.user).find? (t.covers c.host)

/-- Count a connection for the rule that admits it. -/
def record (t : RuleTable) (c : Connection) : RuleTable :=
  match t.admitting? c with
  | some slot => { t with rules := t.rules.modify slot TableRule.hit }
  | none => t

/-- For each line, whether one of its rules admitted a connection. -/
def usedByLine (t : RuleTable) : Std.HashMap Nat Bool :=
  t.rules.foldl
    (fun used rule => used.alter rule.line fun known =>
      some (known.getD false || decide (0 < rule.hits))) ∅

/-- The lines whose rules admitted no connection, in ascending order. -/
def unusedLines (t : RuleTable) : List Nat :=
  ((t.usedByLine.toList.filter (!·.2)).map Prod.fst).mergeSort

end RuleTable

/-- The lines that none of the connections used, in ascending order. -/
def AddressRule.unusedLines (rules : List AddressRule) (connections : List Connection) : List Nat :=
  (connections.foldl RuleTable.record (RuleTable.ofRules rules)).unusedLines

end LogAudit.Access
