import FleetSearch.Json.Basic

/-! # Written documents

A value as text: compact, without a space, or set out on lines with an indent of two. -/
namespace FleetSearch.Json

def hexDigit (n : Nat) : Char := Nat.digitChar (n % 16)

/-- Only the quote, the backslash and the control characters are escaped. -/
def escape (c : Char) : List Char :=
  if c = '"' then ['\\', '"']
  else if c = '\\' then ['\\', '\\']
  else if c = '\n' then ['\\', 'n']
  else if c = '\r' then ['\\', 'r']
  else if c = '\t' then ['\\', 't']
  else if c.toNat = 8 then ['\\', 'b']
  else if c.toNat = 12 then ['\\', 'f']
  else if c.toNat < 32 then ['\\', 'u', '0', '0', hexDigit (c.toNat / 16), hexDigit c.toNat]
  else [c]

def quote (s : String) : String :=
  String.ofList ('"' :: s.toList.flatMap escape ++ ['"'])

def braced (text : String) : String := "\x7b" ++ text ++ "\x7d"

mutual

def compact : Json → String
  | .null => "null"
  | .bool b => if b then "true" else "false"
  | .number n => n.text
  | .string s => quote s
  | .array items => "[" ++ String.intercalate "," (compactItems items) ++ "]"
  | .object members => braced (String.intercalate "," (compactMembers members))

def compactItems : List Json → List String
  | [] => []
  | item :: rest => compact item :: compactItems rest

def compactMembers : List (String × Json) → List String
  | [] => []
  | (name, value) :: rest => (quote name ++ ":" ++ compact value) :: compactMembers rest

end

def lineBreak (depth : Nat) : String := String.ofList ('\n' :: List.replicate (2 * depth) ' ')

/-- The parts of a container that opens at a depth, each on its own line; without parts it stays on
one line. -/
def onLines (depth : Nat) (parts : List String) : String :=
  if parts.isEmpty then ""
  else
    lineBreak (depth + 1) ++ String.intercalate ("," ++ lineBreak (depth + 1)) parts ++
      lineBreak depth

mutual

/-- The layout on lines at a depth of nesting. -/
def prettyAt (depth : Nat) : Json → String
  | .null => "null"
  | .bool b => if b then "true" else "false"
  | .number n => n.text
  | .string s => quote s
  | .array items => "[" ++ onLines depth (prettyItems (depth + 1) items) ++ "]"
  | .object members => braced (onLines depth (prettyMembers (depth + 1) members))

def prettyItems (depth : Nat) : List Json → List String
  | [] => []
  | item :: rest => prettyAt depth item :: prettyItems depth rest

def prettyMembers (depth : Nat) : List (String × Json) → List String
  | [] => []
  | (name, value) :: rest =>
    (quote name ++ ": " ++ prettyAt depth value) :: prettyMembers depth rest

end

def pretty (value : Json) : String := prettyAt 0 value

end FleetSearch.Json
