import Crosswalk.Json.Basic
import Crosswalk.Text.Integer

/-!
# Reading JSON

The grammar of JSON, without extensions: blanks are the four of the grammar, a number has
no leading zeros, and a text has no control characters. What follows the tree must be
blank.
-/

namespace Crosswalk.Json

/-- The four blanks of the grammar. -/
def isBlank (c : Char) : Bool := c == ' ' || c == '\t' || c == '\n' || c == '\r'

/-- What follows the blanks. -/
def skipBlanks (cs : List Char) : List Char := cs.dropWhile isBlank

/-! ## Texts -/

/-- The value of a hexadecimal digit. -/
def hexValue? (c : Char) : Option Nat :=
  if '0' ≤ c ∧ c ≤ '9' then some (c.toNat - '0'.toNat)
  else if 'a' ≤ c ∧ c ≤ 'f' then some (c.toNat - 'a'.toNat + 10)
  else if 'A' ≤ c ∧ c ≤ 'F' then some (c.toNat - 'A'.toNat + 10)
  else none

/-- Four hexadecimal digits, and what follows. -/
def readHex? : List Char → Option (Nat × List Char)
  | a :: b :: c :: d :: cs =>
    match hexValue? a, hexValue? b, hexValue? c, hexValue? d with
    | some a, some b, some c, some d => some (4096 * a + 256 * b + 16 * c + d, cs)
    | _, _, _, _ => none
  | _ => none

/-- The unit is the first of a surrogate pair. -/
def isHighSurrogate (n : Nat) : Bool := decide (0xd800 ≤ n) && decide (n ≤ 0xdbff)

/-- The unit is the second of a surrogate pair. -/
def isLowSurrogate (n : Nat) : Bool := decide (0xdc00 ≤ n) && decide (n ≤ 0xdfff)

/-- The character of a surrogate pair. -/
def pairChar (high low : Nat) : Char :=
  Char.ofNat (0x10000 + 0x400 * (high - 0xd800) + (low - 0xdc00))

/-- The character after a backslash and `u`, absent for half of a surrogate pair, and what
follows. -/
def readUnicode? (cs : List Char) : Option (Option Char × List Char) :=
  match readHex? cs with
  | none => none
  | some (n, rest) =>
    if isHighSurrogate n then
      match rest with
      | '\\' :: 'u' :: cs' =>
        match readHex? cs' with
        | none => none
        | some (m, rest') =>
          if isLowSurrogate m then some (some (pairChar n m), rest') else some (none, rest)
      | _ => some (none, rest)
    else if isLowSurrogate n then some (none, rest)
    else some (some (Char.ofNat n), rest)

/-- The character that a short escape stands for. -/
def shortEscape? (c : Char) : Option Char :=
  if c = '"' then some '"'
  else if c = '\\' then some '\\'
  else if c = '/' then some '/'
  else if c = 'b' then some '\x08'
  else if c = 'f' then some '\x0c'
  else if c = 'n' then some '\n'
  else if c = 'r' then some '\r'
  else if c = 't' then some '\t'
  else none

/-- The next character of a text, perhaps absent, and what follows. -/
def readChar? : List Char → Option (Option Char × List Char)
  | '\\' :: 'u' :: cs => readUnicode? cs
  | '\\' :: c :: cs => (shortEscape? c).map fun d => (some d, cs)
  | '\\' :: [] => none
  | c :: cs => if c.toNat < 32 then none else some (some c, cs)
  | [] => none

/-- The characters up to the closing quote, absent if one of them is, and what follows. -/
def readText? (fuel : Nat) (cs : List Char) : Option (Option (List Char) × List Char) :=
  match fuel with
  | 0 => none
  | fuel + 1 =>
    match cs with
    | '"' :: rest => some (some [], rest)
    | cs =>
      match readChar? cs with
      | none => none
      | some (c, rest) =>
        (readText? fuel rest).map fun (s, rest') =>
          (c.bind fun c => s.map (c :: ·), rest')

/-- The text after an opening quote. -/
def readString? (cs : List Char) : Option (Option String × List Char) :=
  (readText? (cs.length + 1) cs).map fun (s, rest) => (s.map String.ofList, rest)

/-! ## Numbers -/

/-- The digits in front, and what follows. -/
def splitDigits (cs : List Char) : List Char × List Char :=
  (cs.takeWhile Char.isDigit, cs.dropWhile Char.isDigit)

/-- The digits before the point: zero alone, or digits that do not start with it. -/
def readWhole? (cs : List Char) : Option (List Char × List Char) :=
  match splitDigits cs with
  | ([], _) => none
  | (['0'], rest) => some (['0'], rest)
  | ('0' :: _, _) => none
  | (ds, rest) => some (ds, rest)

/-- The digits after a point, if there is one. -/
def readFraction? : List Char → Option (List Char × List Char)
  | '.' :: cs =>
    match splitDigits cs with
    | ([], _) => none
    | (ds, rest) => some (ds, rest)
  | cs => some ([], cs)

/-- The exponent after its mark and an optional sign. -/
def readExponentDigits? (negative : Bool) (cs : List Char) : Option (Option Int × List Char) :=
  match splitDigits cs with
  | ([], _) => none
  | (ds, rest) =>
    let n : Int := Text.natOfDigits 0 ds
    some (some (if negative then -n else n), rest)

/-- The exponent, if there is one. -/
def readExponent? : List Char → Option (Option Int × List Char)
  | [] => some (none, [])
  | c :: cs =>
    if c = 'e' ∨ c = 'E' then
      match cs with
      | '-' :: cs => readExponentDigits? true cs
      | '+' :: cs => readExponentDigits? false cs
      | cs => readExponentDigits? false cs
    else some (none, c :: cs)

/-- A number after its sign. -/
def readNumber? (negative : Bool) (cs : List Char) : Option (Decimal.Numeral × List Char) := do
  let (whole, cs) ← readWhole? cs
  let (fraction, cs) ← readFraction? cs
  let (exponent, cs) ← readExponent? cs
  return (⟨negative, whole, fraction, exponent⟩, cs)

/-! ## Trees -/

mutual

/-- The tree in front, and what follows. -/
def readTree? (fuel : Nat) (cs : List Char) : Option (Json × List Char) :=
  match fuel with
  | 0 => none
  | fuel + 1 =>
    match skipBlanks cs with
    | 'n' :: 'u' :: 'l' :: 'l' :: cs => some (null, cs)
    | 't' :: 'r' :: 'u' :: 'e' :: cs => some (bool true, cs)
    | 'f' :: 'a' :: 'l' :: 's' :: 'e' :: cs => some (bool false, cs)
    | '"' :: cs => (readString? cs).map fun (s, cs) => (string s, cs)
    | '[' :: cs =>
      match skipBlanks cs with
      | ']' :: cs => some (array [], cs)
      | cs => (readItems? fuel cs).map fun (js, cs) => (array js, cs)
    | '\x7b' :: cs =>
      match skipBlanks cs with
      | '\x7d' :: cs => some (object [], cs)
      | cs => (readFields? fuel cs).map fun (fs, cs) => (object fs, cs)
    | '-' :: cs => (readNumber? true cs).map fun (x, cs) => (number x, cs)
    | cs => (readNumber? false cs).map fun (x, cs) => (number x, cs)

/-- The items up to the closing bracket, at least one, and what follows. -/
def readItems? (fuel : Nat) (cs : List Char) : Option (List Json × List Char) :=
  match fuel with
  | 0 => none
  | fuel + 1 =>
    match readTree? fuel cs with
    | none => none
    | some (j, cs) =>
      match skipBlanks cs with
      | ',' :: cs => (readItems? fuel cs).map fun (js, cs) => (j :: js, cs)
      | ']' :: cs => some ([j], cs)
      | _ => none

/-- The fields up to the closing brace, at least one, and what follows. -/
def readFields? (fuel : Nat) (cs : List Char) :
    Option (List (Option String × Json) × List Char) :=
  match fuel with
  | 0 => none
  | fuel + 1 =>
    match skipBlanks cs with
    | '"' :: cs =>
      match readString? cs with
      | none => none
      | some (k, cs) =>
        match skipBlanks cs with
        | ':' :: cs =>
          match readTree? fuel cs with
          | none => none
          | some (j, cs) =>
            match skipBlanks cs with
            | ',' :: cs => (readFields? fuel cs).map fun (fs, cs) => ((k, j) :: fs, cs)
            | '\x7d' :: cs => some ([(k, j)], cs)
            | _ => none
        | _ => none
    | _ => none

end

/-- The tree of a text. -/
def parse? (s : String) : Option Json :=
  let cs := s.toList
  match readTree? (2 * cs.length + 2) cs with
  | some (j, rest) => if (skipBlanks rest).isEmpty then some j else none
  | none => none

end Crosswalk.Json
