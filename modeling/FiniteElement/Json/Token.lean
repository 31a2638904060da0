import FiniteElement.Text

/-!
# Tokens of JSON texts

A JSON text is read as a list of tokens. Where the text breaks the rules of JSON inside a token,
the list ends with the token `broken`, so that a reader of the tokens meets the fault at its place
in the text and not before. Strings are kept without their escapes; one with half a surrogate pair
is a string of the grammar but has no text.
-/

namespace FiniteElement.Json

/-- A number as it is written: the decimal of its absolute value, its sign, and whether it is
written without fraction and exponent. -/
structure Number where
  negative : Bool
  decimal : Decimal
  integral : Bool
  deriving DecidableEq, Repr

inductive Token where
  | openList
  | closeList
  | openObject
  | closeObject
  | comma
  | colon
  | null
  | bool (value : Bool)
  | number (value : Number)
  | string (value : Option String)
  | broken
  deriving DecidableEq, Repr

/-- A piece of a string: a character, or a number of 16 bits from an escape. -/
inductive StringUnit where
  | char (c : Char)
  | escape (code : Nat)
  deriving DecidableEq, Repr

def hexDigit? (c : Char) : Option Nat :=
  if '0' ≤ c ∧ c ≤ '9' then some (c.toNat - '0'.toNat)
  else if 'a' ≤ c ∧ c ≤ 'f' then some (c.toNat - 'a'.toNat + 10)
  else if 'A' ≤ c ∧ c ≤ 'F' then some (c.toNat - 'A'.toNat + 10)
  else none

def hexCode? (a b c d : Char) : Option Nat := do
  return 4096 * (← hexDigit? a) + 256 * (← hexDigit? b) + 16 * (← hexDigit? c) + (← hexDigit? d)

def shortEscape? (c : Char) : Option Char :=
  [('\x22', '\x22'), ('\x5c', '\x5c'), ('/', '/'), ('b', '\x08'), ('f', '\x0c'), ('n', '\n'),
    ('r', '\r'), ('t', '\t')].lookup c

/-- The pieces of a string after its opening quote, in reverse order, and what follows its closing
quote. -/
def stringUnits (units : List StringUnit) : List Char → Option (List StringUnit × List Char)
  | [] => none
  | '\x22' :: rest => some (units, rest)
  | '\x5c' :: 'u' :: a :: b :: c :: d :: rest =>
    match hexCode? a b c d with
    | some code => stringUnits (.escape code :: units) rest
    | none => none
  | '\x5c' :: c :: rest =>
    match shortEscape? c with
    | some c => stringUnits (.char c :: units) rest
    | none => none
  | c :: rest => if c.toNat < 32 then none else stringUnits (.char c :: units) rest

/-- The characters of a string, unless one of its escapes is half a surrogate pair. -/
def joinUnits : List StringUnit → Option (List Char)
  | [] => some []
  | .char c :: rest => (joinUnits rest).map (c :: ·)
  | .escape high :: .escape low :: rest =>
    if 0xD800 ≤ high ∧ high < 0xDC00 then
      if 0xDC00 ≤ low ∧ low < 0xE000 then
        (joinUnits rest).map
          (Char.ofNat (0x10000 + 1024 * (high - 0xD800) + (low - 0xDC00)) :: ·)
      else none
    else if 0xDC00 ≤ high ∧ high < 0xE000 then none
    else (joinUnits (.escape low :: rest)).map (Char.ofNat high :: ·)
  | .escape code :: rest =>
    if 0xD800 ≤ code ∧ code < 0xE000 then none
    else (joinUnits rest).map (Char.ofNat code :: ·)

def lexString (cs : List Char) : Option (Token × List Char) := do
  let (units, rest) ← stringUnits [] cs
  return (.string ((joinUnits units.reverse).map String.ofList), rest)

def spanDigits (cs : List Char) : List Char × List Char := cs.span Char.isDigit

def digitsValue (start : Nat) (digits : List Char) : Nat :=
  digits.foldl (fun value c => 10 * value + (c.toNat - '0'.toNat)) start

/-- The digits of the whole part of a number: a single zero, or digits that do not start with it. -/
def lexWhole (cs : List Char) : Option (List Char × List Char) :=
  match spanDigits cs with
  | ([], _) => none
  | ('0' :: _ :: _, _) => none
  | (digits, rest) => some (digits, rest)

def lexFraction : List Char → Option (List Char × List Char)
  | '.' :: cs =>
    match spanDigits cs with
    | ([], _) => none
    | (digits, rest) => some (digits, rest)
  | cs => some ([], cs)

def lexExponent (cs : List Char) : Option (Option Int × List Char) :=
  match cs with
  | [] => some (none, [])
  | e :: rest =>
    if e = 'e' ∨ e = 'E' then
      let (sign, rest) := match rest with
        | '-' :: rest => (-1, rest)
        | '+' :: rest => (1, rest)
        | rest => ((1 : Int), rest)
      match spanDigits rest with
      | ([], _) => none
      | (digits, rest) => some (some (sign * digitsValue 0 digits), rest)
    else some (none, cs)

def lexNumber (negative : Bool) (cs : List Char) : Option (Token × List Char) := do
  let (whole, rest) ← lexWhole cs
  let (fraction, rest) ← lexFraction rest
  let (exponent?, rest) ← lexExponent rest
  let digits := digitsValue (digitsValue 0 whole) fraction
  let exponent := exponent?.getD 0 - fraction.length
  let integral := fraction.isEmpty && exponent?.isNone
  return (.number ⟨negative, ⟨digits, exponent⟩, integral⟩, rest)

def lexToken : List Char → Option (Token × List Char)
  | '[' :: rest => some (.openList, rest)
  | ']' :: rest => some (.closeList, rest)
  | '\x7b' :: rest => some (.openObject, rest)
  | '\x7d' :: rest => some (.closeObject, rest)
  | ',' :: rest => some (.comma, rest)
  | ':' :: rest => some (.colon, rest)
  | 'n' :: 'u' :: 'l' :: 'l' :: rest => some (.null, rest)
  | 't' :: 'r' :: 'u' :: 'e' :: rest => some (.bool true, rest)
  | 'f' :: 'a' :: 'l' :: 's' :: 'e' :: rest => some (.bool false, rest)
  | '\x22' :: rest => lexString rest
  | '-' :: rest => lexNumber true rest
  | cs => lexNumber false cs

def isBlank (c : Char) : Bool := c = ' ' || c = '\n' || c = '\t' || c = '\r'

/-- The tokens of a text after those already found. Each token takes at least one character, so the
number of characters bounds the number of steps. -/
def tokensFrom (found : Array Token) : Nat → List Char → Array Token
  | 0, _ => found
  | fuel + 1, cs =>
    match cs.dropWhile isBlank with
    | [] => found
    | cs =>
      match lexToken cs with
      | some (token, rest) => tokensFrom (found.push token) fuel rest
      | none => found.push .broken

def tokens (text : String) : List Token :=
  (tokensFrom #[] text.length text.toList).toList

end FiniteElement.Json
