import LogAudit.Network.Block
import LogAudit.Text.Pattern

/-!
# Access rules

A server admits clients by rules, each on a numbered line and with the databases, the users and the
addresses it is for. `AddressRule.compile` reads the rules that are for clients with an address.
-/

namespace LogAudit.Access

open LogAudit.Text LogAudit.Network

/-- A rule as it is written. -/
structure Rule where
  line : Nat
  database : String
  user : String
  /-- The address, empty for a rule that is for local clients only. -/
  address : String
  netmask : Option String
  deriving DecidableEq, Repr

/-- Which clients a rule is for. -/
inductive Clients where
  | all
  /-- The server's own host. -/
  | sameHost
  /-- The server's own network. -/
  | sameNetwork
  | block (addresses : Block)
  /-- Hosts whose name holds a text. -/
  | naming (text : String)
  deriving DecidableEq, Repr

/-- Why a rule has no clients. -/
inductive RuleError where
  | address (line : Nat) (address : String)
  | netmask (line : Nat) (address mask : String)
  deriving DecidableEq, Repr

/-- The text of a rule error. -/
def RuleError.message : RuleError → String
  | address line text =>
    "invalid address on hba line " ++ toString line ++ ": " ++ text
      ++ " (invalid IP address syntax)"
  | netmask line text mask =>
    "invalid address/netmask on hba line " ++ toString line ++ ": " ++ text ++ " " ++ mask

/-- The text has this part somewhere. -/
def holds (part : List Char) : List Char → Bool
  | [] => part.isEmpty
  | c :: s => part.isPrefixOf (c :: s) || holds part s

namespace Clients

/-- What an address with a number of bits looks like, valid or not. -/
def blockPattern : Pattern :=
  let digits :=
    Pattern.sequence [.one isDecimal, .optional (.one isDecimal), .optional (.one isDecimal)]
  .sequence [
    .orElse
      (.sequence [digits, .char '.', digits, .char '.', digits, .char '.', digits])
      (.atLeastOne fun c => Address.isDigit 16 c || c == ':'),
    .char '/', .atLeastOne isDecimal, .atEnd]

/-- The clients of a rule by its address and its mask. -/
def ofRule (rule : Rule) : Except RuleError Clients :=
  match rule.address with
  | "all" => .ok .all
  | "samehost" => .ok .sameHost
  | "samenet" => .ok .sameNetwork
  | "localhost" => .ok (.block ⟨.v4 0x7F000001, 32⟩)
  | address =>
    match rule.netmask.filter (· != "") with
    | some mask =>
      match (do Block.ofMask? (← Address.parse? address) (← Address.parse? mask)) with
      | some addresses => .ok (.block addresses)
      | none => .error (.netmask rule.line address mask)
    | none =>
      if blockPattern.startsIn address.toList then
        match Block.parse? address with
        | some addresses => .ok (.block addresses)
        | none => .error (.address rule.line address)
      else .ok (.naming address)

/-- A client's host is among them. -/
def cover (host : String) : Clients → Bool
  | all => true
  | sameHost => (Address.parse? host).any Address.isLoopback
  | sameNetwork => (Address.parse? host).any fun ip => ip.isLoopback || ip.isPrivate
  | block addresses => (Address.parse? host).any addresses.contains
  | naming text => holds text.toList host.toList

end Clients

/-- The items of a list with commas; empty ones do not count. -/
def listItems (text : String) : List String :=
  ((text.splitToList (· == ',')).filter (· != ""))

/-- A rule that was read: the items of its lists and its clients. -/
structure AddressRule where
  line : Nat
  databases : List String
  users : List String
  clients : Clients
  deriving DecidableEq, Repr

/-- A client that asks for a database. -/
structure Connection where
  database : String
  user : String
  host : String
  deriving DecidableEq, Repr

namespace AddressRule

/-- The rules that are for clients with an address. -/
def compile : List Rule → Except RuleError (List AddressRule)
  | [] => .ok []
  | rule :: rules =>
    if rule.address = "" then compile rules
    else do
      let clients ← Clients.ofRule rule
      let others ← compile rules
      return ⟨rule.line, listItems rule.database, listItems rule.user, clients⟩ :: others

end AddressRule

end LogAudit.Access
