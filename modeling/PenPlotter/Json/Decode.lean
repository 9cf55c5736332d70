import PenPlotter.Command.Token
import PenPlotter.Json.Node
import PenPlotter.Numeric.Notation

/-!
# Decoding JSON values

A decoder takes a node to a value of the program, or to the first problem it meets from left to
right: either the text is no JSON there, or it is, but what stands there does not fit.

Structures are read from objects, whose members may come in any order and may be more than are
known, and from lists of the fields in the order they are declared.  `Field` says how a field is
read and whether it may be left out.
-/

namespace PenPlotter.Json

/-- What stands where something else is expected. -/
inductive Found where
  | null
  | bool (value : Bool)
  | integer (value : Int)
  | real (value : Numeric.Double)
  | text (value : String)
  | sequence
  | map
  | unitVariant
  deriving DecidableEq, Repr

/-- Why a value that is JSON does not fit. -/
inductive Misfit where
  /-- It is of another kind. -/
  | wrongType (found : Found) (expected : String)
  /-- It is an integer out of range. -/
  | outOfRange (value : Int) (expected : String)
  /-- It is a list that ends too early. -/
  | wrongLength (length : Nat) (expected : String)
  | missingField (name : String)
  | duplicateField (name : String)
  | unknownVariant (name : String) (known : List String)
  /-- It is no command token. -/
  | badToken (error : TokenError)
  /-- It is no number of seconds that a duration can have. -/
  | badDuration
  deriving DecidableEq, Repr

/-- The first problem of a text. -/
inductive Problem where
  | malformed (fault : Malformed)
  | misfit (why : Misfit)
  deriving DecidableEq, Repr

/-- Numbers of double precision in JSON texts. -/
def doubleStyle : Numeric.Style where
  isPositional := fun order => decide (-5 ≤ order) && decide (order ≤ 15)
  pointZero := true
  tie := .even
  nan := "null"
  infinity := "null"
  negativeInfinity := "null"

/-- Numbers of single precision in JSON texts. -/
def singleStyle : Numeric.Style :=
  { doubleStyle with isPositional := fun order => decide (-6 ≤ order) && decide (order ≤ 12) }

/-- A text between the quotes that mark names in messages. -/
def marked (s : String) : String := "\x60" ++ s ++ "\x60"

/-- The wording of what was found. -/
def Found.message : Found → String
  | null => "null"
  | bool value => "boolean " ++ marked (if value then "true" else "false")
  | integer value => "integer " ++ marked (Numeric.signedDecimal value)
  | real value => "floating point " ++ marked (value.written doubleStyle)
  | text value => "string " ++ Text.quoted value
  | sequence => "sequence"
  | map => "map"
  | unitVariant => "unit variant"

/-- The wording of a choice between names. -/
def oneOf : List String → String
  | [] => "there are no variants"
  | [a] => marked a
  | [a, b] => marked a ++ " or " ++ marked b
  | names => "one of " ++ ", ".intercalate (names.map marked)

/-- The wording of a misfit. -/
def Misfit.message : Misfit → String
  | wrongType found expected => "invalid type: " ++ found.message ++ ", expected " ++ expected
  | outOfRange value expected =>
    "invalid value: integer " ++ marked (Numeric.signedDecimal value) ++ ", expected " ++ expected
  | wrongLength length expected =>
    "invalid length " ++ Numeric.decimal length ++ ", expected " ++ expected
  | missingField name => "missing field " ++ marked name
  | duplicateField name => "duplicate field " ++ marked name
  | unknownVariant name known =>
    "unknown variant " ++ marked name ++ ", expected " ++ oneOf known
  | badToken error => error.message
  | badDuration =>
    "duration seconds must be finite, non-negative, and representable as a Duration"

/-- The wording of a problem. -/
def Problem.message : Problem → String
  | malformed fault => fault.message
  | misfit why => why.message

/-- What takes a node to a value. -/
abbrev Decoder (α : Type) := Node → Except Problem α

/-- The text is no JSON here. -/
def malformed {α : Type} (m : Malformed) : Except Problem α := .error (.malformed m)

/-- What stands here does not fit. -/
def misfit {α : Type} (m : Misfit) : Except Problem α := .error (.misfit m)

/-- Something else is expected here. -/
def Node.unexpected {α : Type} (v : Node) (expected : String) : Except Problem α :=
  let wrong (found : Found) : Except Problem α := misfit (.wrongType found expected)
  match v with
  | .null => wrong .null
  | .bool b => wrong (.bool b)
  | .number n =>
    match n.value? with
    | some (.integer i) => wrong (.integer i)
    | some (.real d) => wrong (.real d)
    | none => malformed .numberOutOfRange
  | .text (.ok s) => wrong (.text s)
  | .text (.error m) => malformed m
  | .list _ _ => wrong .sequence
  | .object _ _ => wrong .map
  | .broken stop => malformed stop.strict

/-! ### Single values -/

/-- A truth value. -/
def decodeBool : Decoder Bool
  | .bool b => .ok b
  | v => v.unexpected "a boolean"

/-- Nothing. -/
def decodeUnit : Decoder Unit
  | .null => .ok ()
  | v => v.unexpected "unit"

/-- A natural number below a bound. -/
def decodeNat (bound : Nat) (expected : String) : Decoder Nat := fun v =>
  match v with
  | .number n =>
    match n.value? with
    | some (.integer i) =>
      if 0 ≤ i ∧ i < bound then .ok i.toNat else misfit (.outOfRange i expected)
    | _ => v.unexpected expected
  | v => v.unexpected expected

/-- A 32-bit word. -/
def decodeWord : Decoder UInt32 := fun v => (decodeNat UInt32.size "u32" v).map UInt32.ofNat

/-- A count of things in memory. -/
def decodeSize : Decoder Nat := decodeNat UInt64.size "usize"

/-- A 64-bit count. -/
def decodeCount : Decoder Nat := decodeNat UInt64.size "u64"

/-- The number nearest to an integer. -/
def nearestTo {f : Numeric.Format} (i : Int) : Numeric.Binary f :=
  Numeric.Binary.ofRatio (decide (i < 0)) i.natAbs 1

/-- A number of double precision. -/
def decodeDouble : Decoder Numeric.Double := fun v =>
  match v with
  | .number n =>
    match n.value? with
    | some (.integer i) => .ok (nearestTo i)
    | some (.real d) => .ok d
    | none => v.unexpected "f64"
  | v => v.unexpected "f64"

/-- A number of single precision; one with a point or an exponent is read in double precision
first. -/
def decodeSingle : Decoder Numeric.Single := fun v =>
  match v with
  | .number n =>
    match n.value? with
    | some (.integer i) => .ok (nearestTo i)
    | some (.real d) => .ok d.toSingle
    | none => v.unexpected "f32"
  | v => v.unexpected "f32"

/-- A command, by its token. -/
def decodeCommand : Decoder Command := fun v => do
  let token ← match v with
    | .text (.ok s) => .ok s
    | v => v.unexpected "a string"
  match Command.ofToken token with
  | .ok c => .ok c
  | .error e => misfit (.badToken e)

/-! ### Lists -/

/-- The fault that stopped a value, if there is one. -/
def ended (stop : Option Stop) : Except Problem Unit :=
  match stop with
  | some stop => malformed stop.strict
  | none => .ok ()

/-- A list of values of one kind. -/
def decodeList {α : Type} (item : Decoder α) : Decoder (List α)
  | .list items stop => do
    let values ← items.mapM item
    ended stop
    return values
  | v => v.unexpected "a sequence"

/-- A list whose values have all been read must end. -/
def mustEnd (rest : List Node) (stop : Option Stop) : Except Problem Unit :=
  match rest, stop with
  | [], none => .ok ()
  | [], some stop =>
    malformed (if stop.strict = .endInList then .endInList else .trailingCharacters)
  | .broken stop :: _, _ =>
    malformed (if stop.strict = .trailingComma then .trailingComma else .trailingCharacters)
  | _ :: _, _ => malformed .trailingCharacters

/-! ### Structures -/

/-- Whether a field may be left out. -/
inductive Presence where
  /-- It may not. -/
  | required
  /-- Of an object it may. -/
  | optional
  /-- It may, and so may all fields at the end of a list. -/
  | defaulted
  deriving DecidableEq, Repr

/-- A field of a structure: its name, whether it may be left out, and how it is read into the
structure. -/
structure Field (α : Type) where
  name : String
  presence : Presence
  put : Node → α → Except Problem α

/-- A field that may not be left out. -/
def Field.required {α β : Type} (name : String) (decode : Decoder β) (set : β → α → α) : Field α :=
  ⟨name, .required, fun v a => do return set (← decode v) a⟩

/-- Read fields from a list; `place` counts those read before. -/
def putItems {α : Type} (expected : String) (place : Nat) :
    List (Field α) → List Node → Option Stop → α → Except Problem α
  | [], rest, stop, a => do
    mustEnd rest stop
    return a
  | field :: fields, v :: rest, stop, a => do
    putItems expected (place + 1) fields rest stop (← field.put v a)
  | _ :: _, [], some stop, _ => malformed stop.strict
  | field :: _, [], none, a =>
    if field.presence = .defaulted then .ok a else misfit (.wrongLength place expected)

/-- Read fields from the members of an object; `seen` has the names of those read before. -/
def putMembers {α : Type} (fields : List (Field α)) :
    List (Text × Node) → List String → α → Except Problem (List String × α)
  | [], seen, a => .ok (seen, a)
  | (.error m, _) :: _, _, _ => malformed m
  | (.ok key, v) :: rest, seen, a =>
    match fields.find? fun field => field.name == key with
    | none =>
      match v.skip with
      | .ok () => putMembers fields rest seen a
      | .error m => malformed m
    | some field =>
      if seen.contains key then misfit (.duplicateField key)
      else do putMembers fields rest (key :: seen) (← field.put v a)

/-- The first field that may not be left out but was. -/
def missing? {α : Type} (fields : List (Field α)) (seen : List String) : Option String :=
  (fields.find? fun field =>
    field.presence = .required && !seen.contains field.name).map Field.name

/-- A structure, from an object or from a list of its fields. -/
def decodeStruct {α : Type} (title : String) (fields : List (Field α)) (start : α) : Decoder α
  | .list items stop =>
    let plural := if fields.length = 1 then " element" else " elements"
    putItems (title ++ " with " ++ Numeric.decimal fields.length ++ plural) 0 fields items stop
      start
  | .object members stop => do
    let (seen, a) ← putMembers fields members [] start
    ended stop
    match missing? fields seen with
    | some name => misfit (.missingField name)
    | none => return a
  | v => v.unexpected title

/-- A list of exactly two words. -/
def decodeWordPair : Decoder (UInt32 × UInt32)
  | .list items stop =>
    let fields : List (Field (UInt32 × UInt32)) :=
      [.required "" decodeWord fun w p => (w, p.2), .required "" decodeWord fun w p => (p.1, w)]
    putItems "an array of length 2" 0 fields items stop (0, 0)
  | v => v.unexpected "an array of length 2"

/-! ### Variants -/

/-- The case that a name stands for. -/
def caseOf {β : Type} (cases : List (String × β)) (name : String) : Except Problem β :=
  match cases.lookup name with
  | some b => .ok b
  | none => misfit (.unknownVariant name (cases.map (·.1)))

/-- One of several named cases: its name alone, or an object with the name and a payload. -/
def decodeVariant {α β : Type} (cases : List (String × β)) (bare : β → Except Problem α)
    (payload : β → Decoder α) : Decoder α
  | .text (.ok name) => do bare (← caseOf cases name)
  | .text (.error m) => malformed m
  | .object ((.ok name, v) :: rest) stop => do
    let a ← payload (← caseOf cases name) v
    match rest, stop with
    | [], none => return a
    | [], some stop =>
      malformed (if stop.strict = .endInObject then .endInObject else .expectedValue)
    | _ :: _, _ => malformed .expectedValue
  | .object ((.error m, _) :: _) _ => malformed m
  | .object [] (some stop) => malformed stop.strict
  | .broken stop => malformed stop.strict
  | _ => malformed .expectedValue

/-- One of several names that stand for values. -/
def decodeName {α : Type} (names : List (String × α)) : Decoder α :=
  decodeVariant names .ok fun a v => (decodeUnit v).map fun _ => a

/-! ### Whole texts -/

/-- Decode a text, after which nothing may follow. -/
def decode {α : Type} (decoder : Decoder α) (text : String) : Except Problem α := do
  let d := read text.toList
  let a ← decoder d.root
  if d.trailing then malformed .trailingCharacters else return a

end PenPlotter.Json
