import GraphQLIR.Json.Basic
import GraphQLIR.Number.Shortest
/-!
# JSON text

`Json.render` writes a value on one line without blanks. `Json.parse?` reads a text of the JSON
grammar. A repeated member keeps its first place and takes its last value, and escapes of
surrogates count only in pairs.
-/

namespace GraphQLIR

namespace Number

def text : Number → String
  | .int value => toString value
  | .double value => value.text

end Number

namespace Json

/-! ## Writing -/

/-- Quotes, backslashes and control characters are escaped. -/
def escapeChar (c : Char) : String :=
  if c = '"' then "\\\""
  else if c = '\\' then "\\\\"
  else if c = '\n' then "\\n"
  else if c = '\r' then "\\r"
  else if c = '\t' then "\\t"
  else if c.toNat < 0x20 then
    "\\u00" ++ (if c.toNat < 0x10 then "0" else "1") ++ String.ofList (Nat.toDigits 16 (c.toNat % 16))
  else c.toString

def writeString (out : String) (value : String) : String :=
  (value.foldl (fun out c => out ++ escapeChar c) (out.push '"')).push '"'

mutual

def write (out : String) : Json → String
  | .null => out ++ "null"
  | .bool true => out ++ "true"
  | .bool false => out ++ "false"
  | .num value => out ++ value.text
  | .str value => writeString out value
  | .arr items => (writeItems (out.push '[') true items).push ']'
  | .obj members => (writeMembers (out.push '{') true members).push '}'

def writeItems (out : String) (first : Bool) : List Json → String
  | [] => out
  | item :: rest => writeItems (write (if first then out else out.push ',') item) false rest

def writeMembers (out : String) (first : Bool) : List (String × Json) → String
  | [] => out
  | (key, value) :: rest =>
    let out := (writeString (if first then out else out.push ',') key).push ':'
    writeMembers (write out value) false rest

end

def render (value : Json) : String :=
  write "" value

/-! ## Reading -/

def isBlank (c : Char) : Bool :=
  c = ' ' || c = '\n' || c = '\r' || c = '\t'

def skipBlanks (chars : List Char) : List Char :=
  chars.dropWhile isBlank

def hexDigit? (c : Char) : Option Nat :=
  if c.isDigit then some (c.toNat - '0'.toNat)
  else if 'a' ≤ c && c ≤ 'f' then some (c.toNat - 'a'.toNat + 10)
  else if 'A' ≤ c && c ≤ 'F' then some (c.toNat - 'A'.toNat + 10)
  else none

def codeUnit? (a b c d : Char) : Option Nat := do
  return (((← hexDigit? a) * 16 + (← hexDigit? b)) * 16 + (← hexDigit? c)) * 16 + (← hexDigit? d)

def isHighSurrogate (unit : Nat) : Bool := 0xD800 ≤ unit && unit < 0xDC00

def isLowSurrogate (unit : Nat) : Bool := 0xDC00 ≤ unit && unit < 0xE000

/-- The character of an escape of one letter. -/
def escaped? (c : Char) : Option Char :=
  if c = '"' || c = '\\' || c = '/' then some c
  else if c = 'b' then some '\x08'
  else if c = 'f' then some '\x0c'
  else if c = 'n' then some '\n'
  else if c = 'r' then some '\r'
  else if c = 't' then some '\t'
  else none

/-- Reads up to the closing quote, with what was read so far in reverse. -/
def scanString (seen : List Char) : List Char → Option (String × List Char)
  | [] => none
  | '"' :: rest => some (String.ofList seen.reverse, rest)
  | '\\' :: 'u' :: a :: b :: c :: d :: rest =>
    match codeUnit? a b c d with
    | none => none
    | some unit =>
      if isHighSurrogate unit then
        match rest with
        | '\\' :: 'u' :: a :: b :: c :: d :: rest =>
          match codeUnit? a b c d with
          | none => none
          | some low =>
            if isLowSurrogate low then
              scanString (Char.ofNat (0x10000 + (unit - 0xD800) * 0x400 + (low - 0xDC00)) :: seen)
                rest
            else none
        | _ => none
      else if isLowSurrogate unit then none
      else scanString (Char.ofNat unit :: seen) rest
  | '\\' :: c :: rest =>
    match escaped? c with
    | some c => scanString (c :: seen) rest
    | none => none
  | c :: rest => if c.toNat < 0x20 || c = '\\' then none else scanString (c :: seen) rest

mutual

/-- Reads one value from the front of a text. The depth of nesting plus the number of items read
before is bounded by `fuel`. -/
def scanValue : Nat → List Char → Option (Json × List Char)
  | 0, _ => none
  | fuel + 1, chars =>
    match skipBlanks chars with
    | 'n' :: 'u' :: 'l' :: 'l' :: rest => some (.null, rest)
    | 't' :: 'r' :: 'u' :: 'e' :: rest => some (.bool true, rest)
    | 'f' :: 'a' :: 'l' :: 's' :: 'e' :: rest => some (.bool false, rest)
    | '"' :: rest =>
      match scanString [] rest with
      | some (value, rest) => some (.str value, rest)
      | none => none
    | '[' :: rest =>
      match skipBlanks rest with
      | ']' :: rest => some (.arr [], rest)
      | _ => scanItems fuel [] rest
    | '{' :: rest =>
      match skipBlanks rest with
      | '}' :: rest => some (.obj [], rest)
      | _ => scanMembers fuel [] rest
    | chars =>
      match NumberLiteral.scan chars with
      | some (literal, rest) => literal.value?.map fun value => (.num value, rest)
      | none => none

/-- Reads the items of an array up to its end. -/
def scanItems : Nat → List Json → List Char → Option (Json × List Char)
  | 0, _, _ => none
  | fuel + 1, seen, chars =>
    match scanValue fuel chars with
    | none => none
    | some (item, rest) =>
      match skipBlanks rest with
      | ',' :: rest => scanItems fuel (item :: seen) rest
      | ']' :: rest => some (.arr (item :: seen).reverse, rest)
      | _ => none

/-- Reads the members of an object up to its end. -/
def scanMembers : Nat → List (String × Json) → List Char → Option (Json × List Char)
  | 0, _, _ => none
  | fuel + 1, seen, chars =>
    match skipBlanks chars with
    | '"' :: rest =>
      match scanString [] rest with
      | none => none
      | some (key, rest) =>
        match skipBlanks rest with
        | ':' :: rest =>
          match scanValue fuel rest with
          | none => none
          | some (value, rest) =>
            match skipBlanks rest with
            | ',' :: rest => scanMembers fuel ((key, value) :: seen) rest
            | '}' :: rest => some (.obj (Entries.ofList ((key, value) :: seen).reverse), rest)
            | _ => none
        | _ => none
    | _ => none

end

/-- The value of a text that is one JSON value, with blanks around it. Every item and every level
takes at least one character, which bounds the recursion. -/
def parse? (text : String) : Option Json :=
  let chars := text.toList
  match scanValue (chars.length + 1) chars with
  | some (value, rest) => if (skipBlanks rest).isEmpty then some value else none
  | none => none

end Json

end GraphQLIR
