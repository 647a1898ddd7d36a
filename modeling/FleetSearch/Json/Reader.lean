import FleetSearch.Json.Literal
import FleetSearch.Json.Payload

/-! # Reading JSON text

The strict grammar: one value with white space around it. Text that departs from the grammar is
refused; numbers beyond the doubles, unpaired surrogates and containers nested too deeply make an
unreadable part. -/
namespace FleetSearch.Payload

def isBlank (c : Char) : Bool := c = ' ' || c = '\t' || c = '\n' || c = '\r'

def skipBlanks (text : List Char) : List Char := text.dropWhile isBlank

/-- Containers nested beyond this many are not readable. -/
def deepest : Nat := 127

/-! ## Numbers -/

def digitOf (c : Char) : Nat := c.toNat - '0'.toNat

/-- The digits that the text starts with, and what follows them. -/
def digits (text : List Char) : List Nat × List Char :=
  ((text.takeWhile Char.isDigit).map digitOf, text.dropWhile Char.isDigit)

/-- At least one digit. -/
def digits? (text : List Char) : Option (List Nat × List Char) :=
  match digits text with
  | ([], _) => none
  | found => some found

def whole? (text : List Char) : Option (List Nat × List Char) :=
  match digits text with
  | ([], _) => none
  | (0 :: _ :: _, _) => none
  | found => some found

def fraction? : List Char → Option (Option (List Nat) × List Char)
  | '.' :: text => (digits? text).map fun (found, rest) => (some found, rest)
  | text => some (none, text)

def exponentSign : List Char → Bool × List Char
  | '-' :: text => (true, text)
  | '+' :: text => (false, text)
  | text => (false, text)

def exponent? : List Char → Option (Option (Bool × List Nat) × List Char)
  | [] => some (none, [])
  | c :: text =>
    if c = 'e' || c = 'E' then
      let (negative, text) := exponentSign text
      (digits? text).map fun (found, rest) => (some (negative, found), rest)
    else some (none, c :: text)

def minus : List Char → Bool × List Char
  | '-' :: text => (true, text)
  | text => (false, text)

def literal? (text : List Char) : Option (Literal × List Char) := do
  let (negative, text) := minus text
  let (whole, text) ← whole? text
  let (fraction, text) ← fraction? text
  let (exponent, text) ← exponent? text
  return (⟨negative, whole, fraction, exponent⟩, text)

/-! ## Strings -/

/-- A written string is a row of characters and escaped code units. -/
inductive Piece where
  | char (c : Char)
  | unit (n : Nat)
  deriving DecidableEq, Repr

def hexValue? (c : Char) : Option Nat :=
  if c.isDigit then some (c.toNat - '0'.toNat)
  else if 'a'.toNat ≤ c.toNat ∧ c.toNat ≤ 'f'.toNat then some (c.toNat - 'a'.toNat + 10)
  else if 'A'.toNat ≤ c.toNat ∧ c.toNat ≤ 'F'.toNat then some (c.toNat - 'A'.toNat + 10)
  else none

def codeUnit? (a b c d : Char) : Option Nat := do
  return (((← hexValue? a) * 16 + (← hexValue? b)) * 16 + (← hexValue? c)) * 16 + (← hexValue? d)

def shortEscape? (c : Char) : Option Char :=
  if c = '"' || c = '\\' || c = '/' then some c
  else if c = 'b' then some '\x08'
  else if c = 'f' then some '\x0c'
  else if c = 'n' then some '\n'
  else if c = 'r' then some '\r'
  else if c = 't' then some '\t'
  else none

/-- The pieces up to the closing quote, and what follows it. -/
def pieces? : List Char → Option (List Piece × List Char)
  | [] => none
  | '"' :: rest => some ([], rest)
  | '\\' :: 'u' :: a :: b :: c :: d :: rest => do
    let n ← codeUnit? a b c d
    let (found, rest) ← pieces? rest
    return (.unit n :: found, rest)
  | '\\' :: c :: rest => do
    let c ← shortEscape? c
    let (found, rest) ← pieces? rest
    return (.char c :: found, rest)
  | c :: rest =>
    if c.toNat < 32 || c = '\\' then none
    else do
      let (found, rest) ← pieces? rest
      return (.char c :: found, rest)

def isHigh (n : Nat) : Bool := decide (0xD800 ≤ n) && decide (n < 0xDC00)

def isLow (n : Nat) : Bool := decide (0xDC00 ≤ n) && decide (n < 0xE000)

/-- The characters of the pieces: a high unit and the low unit after it make one; none if a
surrogate stands alone. -/
def join? : List Piece → Option (List Char)
  | [] => some []
  | .char c :: rest => (join? rest).map (c :: ·)
  | .unit n :: .unit m :: rest =>
    if isHigh n && isLow m then
      (join? rest).map (Char.ofNat (0x10000 + (n - 0xD800) * 0x400 + (m - 0xDC00)) :: ·)
    else if isHigh n || isLow n then none
    else (join? (.unit m :: rest)).map (Char.ofNat n :: ·)
  | .unit n :: rest =>
    if isHigh n || isLow n then none else (join? rest).map (Char.ofNat n :: ·)

def ofPieces (found : List Piece) : Payload :=
  match join? found with
  | some cs => .string (String.ofList cs)
  | none => .unreadable

/-! ## Values -/

/-- An object one of whose names stands for no text is unreadable as a whole. -/
def ofNamed (members : List (List Piece × Payload)) : Payload :=
  match members.mapM (fun (name, item) => (join? name).map fun cs => (String.ofList cs, item)) with
  | some named => .object named
  | none => .unreadable

/-- What a container is read as that has `room` levels left, itself included. -/
def within (room : Nat) (container : Payload) : Payload :=
  match room with
  | 0 => .unreadable
  | _ => container

def keyword? (word : List Char) (meaning : Payload) (text : List Char) :
    Option (Payload × List Char) :=
  if word.isPrefixOf text then some (meaning, text.drop word.length) else none

mutual

/-- One value after blanks. Every call spends a unit of fuel, and every two spend a character. -/
def readValue (room : Nat) : Nat → List Char → Option (Payload × List Char)
  | 0, _ => none
  | fuel + 1, text =>
    match skipBlanks text with
    | [] => none
    | 'n' :: rest => keyword? "ull".toList .null rest
    | 't' :: rest => keyword? "rue".toList (.bool true) rest
    | 'f' :: rest => keyword? "alse".toList (.bool false) rest
    | '"' :: rest => (pieces? rest).map fun (found, rest) => (ofPieces found, rest)
    | '[' :: rest =>
      match skipBlanks rest with
      | ']' :: rest => some (within room (.array []), rest)
      | rest =>
        (readItems (room - 1) fuel rest).map fun (items, rest) => (within room (.array items), rest)
    | '{' :: rest =>
      match skipBlanks rest with
      | '}' :: rest => some (within room (.object []), rest)
      | rest =>
        (readMembers (room - 1) fuel rest).map fun (members, rest) =>
          (within room (ofNamed members), rest)
    | text =>
      (literal? text).map fun (l, rest) =>
        (match l.number? with
          | some n => .number n
          | none => .unreadable, rest)

def readItems (room : Nat) : Nat → List Char → Option (List Payload × List Char)
  | 0, _ => none
  | fuel + 1, text => do
    let (item, rest) ← readValue room fuel text
    match skipBlanks rest with
    | ',' :: rest =>
      let (items, rest) ← readItems room fuel rest
      return (item :: items, rest)
    | ']' :: rest => return ([item], rest)
    | _ => none

def readMembers (room : Nat) : Nat → List Char → Option (List (List Piece × Payload) × List Char)
  | 0, _ => none
  | fuel + 1, text => do
    match skipBlanks text with
    | '"' :: rest =>
      let (name, rest) ← pieces? rest
      match skipBlanks rest with
      | ':' :: rest =>
        let (item, rest) ← readValue room fuel rest
        match skipBlanks rest with
        | ',' :: rest =>
          let (members, rest) ← readMembers room fuel rest
          return ((name, item) :: members, rest)
        | '}' :: rest => return ([(name, item)], rest)
        | _ => none
      | _ => none
    | _ => none

end

/-- The payload of a whole text. -/
def read? (text : String) : Option Payload := do
  let cs := text.toList
  let (payload, rest) ← readValue deepest (2 * cs.length + 2) cs
  if (skipBlanks rest).isEmpty then return payload else none

end FleetSearch.Payload
