import FiniteElement.Json.Token
import FiniteElement.Mesh.Basic
import FiniteElement.Text

/-!
# Readers of JSON texts

A reader takes a value of a known kind from the front of a list of tokens. It walks the tokens in
the order of the text and stops at the first thing that is wrong, be it the grammar or the kind of
a value, so of several faults the first in the text is reported. An object may list its members in
any order and may have members that are not asked for; in place of an object stands a list of the
values of its members in their declared order.
-/

namespace FiniteElement

inductive Found where
  | null
  | bool (value : Bool)
  | integer (value : Int)
  | float (value : Float)
  | string (value : String)
  | list
  | object

inductive Expected where
  | index
  | number
  | list
  | variantName
  | nothing
  | mesh
  | layout
  | options

inductive DecodeError where
  /-- The text is no JSON, is incomplete or goes on after the value. -/
  | malformed
  | unknownVariant (name : String) (variants : List String)
  | missingField (name : String)
  | duplicateField (name : String)
  | wrongKind (found : Found) (expected : Expected)
  /-- An index is expected and a negative integer found. -/
  | negativeIndex (value : Int)
  /-- A list in place of an object is too short. -/
  | tooShort (length : Nat) (expected : Expected) (members : Nat)
  /-- A mesh is read whose lists do not form one. -/
  | mesh (error : MeshError)

def Found.text : Found → String
  | null => "null"
  | bool value => s!"boolean `{value}`"
  | integer value => s!"integer `{value}`"
  | float value => s!"floating point `{floatText value}`"
  | string value => s!"string {quote value}"
  | list => "sequence"
  | object => "map"

def Expected.text : Expected → String
  | index => "usize"
  | number => "f64"
  | list => "a sequence"
  | variantName => "variant identifier"
  | nothing => "unit"
  | mesh => "struct SimplexMeshData"
  | layout => "struct EntityDofs"
  | options => "struct AssemblyOptions"

def alternatives (names : List String) : String :=
  let quoted := names.map fun name => s!"`{name}`"
  match quoted with
  | [one, other] => one ++ " or " ++ other
  | _ => "one of " ++ ", ".intercalate quoted

def DecodeError.message : DecodeError → String
  | malformed => "malformed"
  | unknownVariant name variants =>
    s!"unknown variant `{name}`, expected {alternatives variants}"
  | missingField name => s!"missing field `{name}`"
  | duplicateField name => s!"duplicate field `{name}`"
  | wrongKind found expected => s!"invalid type: {found.text}, expected {expected.text}"
  | negativeIndex value => s!"invalid value: integer `{value}`, expected {Expected.index.text}"
  | tooShort length expected members =>
    s!"invalid length {length}, expected {expected.text} with {members} elements"
  | mesh error => error.message

namespace Json

abbrev Reader (β : Type) := List Token → Except DecodeError (β × List Token)

/-- The value of a written number: an integer of 64 bits, or else the nearest double. A number
beyond all doubles has no value. -/
def Number.found? (number : Number) : Option Found :=
  let digits := number.decimal.digits
  if number.integral ∧ ¬ number.negative ∧ digits < Nat.pow 2 64 then some (.integer digits)
  else if number.integral ∧ number.negative ∧ 0 < digits ∧ digits ≤ Nat.pow 2 63 then
    some (.integer (-digits))
  else
    let magnitude := number.decimal.toFloat
    if magnitude.isFinite then some (.float (if number.negative then -magnitude else magnitude))
    else none

def found? : List Token → Option Found
  | .null :: _ => some .null
  | .bool value :: _ => some (.bool value)
  | .number value :: _ => value.found?
  | .string value :: _ => value.map .string
  | .openList :: _ => some .list
  | .openObject :: _ => some .object
  | _ => none

def refuse {β : Type} (expected : Expected) : Reader β := fun tokens =>
  match found? tokens with
  | some found => .error (.wrongKind found expected)
  | none => .error .malformed

def readIndex : Reader Nat := fun tokens =>
  match found? tokens with
  | some (.integer (.ofNat value)) => .ok (value, tokens.tail)
  | some (.integer (.negSucc value)) => .error (.negativeIndex (.negSucc value))
  | _ => refuse .index tokens

def readFloat : Reader Float := fun tokens =>
  match found? tokens with
  | some (.integer value) =>
    let magnitude := Decimal.toFloat ⟨value.natAbs, 0⟩
    .ok (if value < 0 then -magnitude else magnitude, tokens.tail)
  | some (.float value) => .ok (value, tokens.tail)
  | _ => refuse .number tokens

def readEntry? {β : Type} (first : Bool) (entry : Reader β) : Reader (Option β) := fun tokens =>
  match tokens with
  | .closeList :: rest => .ok (none, rest)
  | .comma :: rest => if first then .error .malformed else (entry rest).map (Prod.map some id)
  | _ => if first then (entry tokens).map (Prod.map some id) else .error .malformed

/-- Reads the other entries of a list after those already read. Each takes at least one token, so
the number of tokens bounds the number of steps. -/
def readEntries {β : Type} (entry : Reader β) (entries : Array β) : Nat → Reader (Array β)
  | 0, _ => .error .malformed
  | fuel + 1, tokens => do
    match ← readEntry? entries.isEmpty entry tokens with
    | (none, rest) => return (entries, rest)
    | (some value, rest) => readEntries entry (entries.push value) fuel rest

def readList {β : Type} (entry : Reader β) : Reader (Array β) := fun tokens =>
  match tokens with
  | .openList :: rest => readEntries entry #[] (rest.length + 1) rest
  | _ => refuse .list tokens

def variant {β : Type} (variants : List (String × β)) (name : String) : Except DecodeError β :=
  match variants.lookup name with
  | some value => .ok value
  | none => .error (.unknownVariant name (variants.map Prod.fst))

/-- Reads the name of a variant, which may also stand as the only member of an object with the value
null. -/
def readVariant {β : Type} (variants : List (String × β)) : Reader β
  | .string (some name) :: rest => do
    return (← variant variants name, rest)
  | .openObject :: .string (some name) :: rest => do
    let value ← variant variants name
    match rest with
    | .colon :: .null :: .closeObject :: rest => return (value, rest)
    | .colon :: .null :: _ => .error .malformed
    | .colon :: rest => refuse .nothing rest
    | _ => .error .malformed
  | .openObject :: rest => refuse .variantName rest
  | _ => .error .malformed

inductive Bracket where
  | list
  | object

mutual

def skipValue (brackets : List Bracket) : List Token → Except DecodeError (List Token)
  | .openList :: .closeList :: rest => skipRest brackets rest
  | .openList :: rest => skipValue (.list :: brackets) rest
  | .openObject :: .closeObject :: rest => skipRest brackets rest
  | .openObject :: .string _ :: .colon :: rest => skipValue (.object :: brackets) rest
  | .null :: rest => skipRest brackets rest
  | .bool _ :: rest => skipRest brackets rest
  | .number _ :: rest => skipRest brackets rest
  | .string _ :: rest => skipRest brackets rest
  | _ => .error .malformed

/-- The tokens after the closing of all open brackets, when a value has just ended. -/
def skipRest (brackets : List Bracket) (tokens : List Token) :
    Except DecodeError (List Token) :=
  match brackets, tokens with
  | [], rest => .ok rest
  | .list :: brackets, .closeList :: rest => skipRest brackets rest
  | .list :: brackets, .comma :: rest => skipValue (.list :: brackets) rest
  | .object :: brackets, .closeObject :: rest => skipRest brackets rest
  | .object :: brackets, .comma :: .string _ :: .colon :: rest =>
    skipValue (.object :: brackets) rest
  | _, _ => .error .malformed

end

/-- A member of an object: its name, whether it has been read, and its reader, which stores it. -/
structure Member (σ : Type) where
  name : String
  isRead : σ → Bool
  read : σ → Reader σ

def member {σ β : Type} (name : String) (get : σ → Option β) (set : σ → β → σ)
    (read : Reader β) : Member σ where
  name := name
  isRead := fun state => (get state).isSome
  read := fun state tokens => do
    let (value, rest) ← read tokens
    return (set state value, rest)

def readMember {σ : Type} (members : List (Member σ)) (state : σ) (name : String) : Reader σ :=
  fun tokens =>
    match members.find? (·.name = name) with
    | some field =>
      if field.isRead state then .error (.duplicateField name)
      else match tokens with
        | .colon :: rest => field.read state rest
        | _ => .error .malformed
    | none =>
      match tokens with
      | .colon :: rest => (skipValue [] rest).map fun rest => (state, rest)
      | _ => .error .malformed

/-- Reads the other members of an object. Each takes at least one token, so the number of tokens
bounds the number of steps. -/
def readMembers {σ : Type} (members : List (Member σ)) (first : Bool) (state : σ) :
    Nat → Reader σ
  | 0, _ => .error .malformed
  | fuel + 1, tokens =>
    match first, tokens with
    | _, .closeObject :: rest => .ok (state, rest)
    | true, .string (some name) :: rest => do
      let (state, rest) ← readMember members state name rest
      readMembers members false state fuel rest
    | false, .comma :: .string (some name) :: rest => do
      let (state, rest) ← readMember members state name rest
      readMembers members false state fuel rest
    | _, _ => .error .malformed

/-- Reads the values of the members of an object from a list, in order; `index` counts those read.
Where the list ends early, `atEnd` decides. -/
def readPositional {σ : Type} (atEnd : Nat → Option DecodeError) (index : Nat) (state : σ) :
    List (Member σ) → Reader σ
  | [], .closeList :: rest => .ok (state, rest)
  | [], _ => .error .malformed
  | field :: others, tokens => do
    match ← readEntry? (index = 0) (field.read state) tokens with
    | (some state, rest) => readPositional atEnd (index + 1) state others rest
    | (none, rest) =>
      match atEnd index with
      | some error => .error error
      | none => return (state, rest)

/-- Reads an object with the given members, or the list of their values, and then builds a value
from what was read. -/
def readObject {σ β : Type} (expected : Expected) (atEnd : Nat → Option DecodeError)
    (members : List (Member σ)) (initial : σ) (build : σ → Except DecodeError β) : Reader β :=
  fun tokens => do
    let (state, rest) ← match tokens with
      | .openObject :: rest => readMembers members true initial (rest.length + 1) rest
      | .openList :: rest => readPositional atEnd 0 initial members rest
      | _ => refuse expected tokens
    return (← build state, rest)

def required {β : Type} (name : String) : Option β → Except DecodeError β
  | some value => .ok value
  | none => .error (.missingField name)

def decode {β : Type} (read : Reader β) (text : String) : Except DecodeError β := do
  match ← read (tokens text) with
  | (value, []) => return value
  | _ => .error .malformed

end Json
end FiniteElement
