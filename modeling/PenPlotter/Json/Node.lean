import PenPlotter.Json.Token

/-!
# Reading JSON

A text is read into a tree, as far as it goes.  Where the text goes wrong the tree says so in its
place: a value that cannot be read is a `broken` node, and a list or an object that does not come
to its end keeps what it holds and the fault that stopped it.  Who walks over the tree from left
to right therefore meets the first fault of the text exactly where the text has it, after
everything that comes before.

The reader is a machine that takes one token at a time.  It keeps the lists and objects that are
open in a stack of frames, so that no nesting is too deep for it.

`Node.skip` walks over a value that nobody wants.
-/

namespace PenPlotter.Json

/-- What stopped the reading: the fault of a text that is wanted, and of one that is skipped. -/
structure Stop where
  strict : Malformed
  lenient : Malformed
  deriving DecidableEq, Repr

/-- A stop that is the same for both. -/
def Stop.both (m : Malformed) : Stop := ⟨m, m⟩

/-- A value of a text, read as far as it goes. -/
inductive Node where
  | null
  | bool (value : Bool)
  | number (numeral : Numeral)
  | text (value : Text)
  /-- The items of a list, and what stopped it before its end. -/
  | list (items : List Node) (stop : Option Stop)
  /-- The members of an object, and what stopped it before its end. -/
  | object (members : List (Text × Node)) (stop : Option Stop)
  /-- No value can be read. -/
  | broken (stop : Stop)

/-- A text as a whole: its value, and whether more follows. -/
structure Document where
  root : Node
  trailing : Bool

/-! ### The machine -/

/-- A list or an object that is open. -/
inductive Frame where
  /-- The items before the one that is being read, latest first. -/
  | list (items : List Node)
  /-- The members before the one that is being read, latest first, and its key. -/
  | object (members : List (Text × Node)) (key : Text)

/-- Where the machine is in the text. -/
inductive State where
  /-- A value is expected. -/
  | value (frames : List Frame)
  /-- A list has begun. -/
  | firstItem (frames : List Frame)
  /-- An item is expected after a comma. -/
  | nextItem (frames : List Frame) (items : List Node)
  /-- An object has begun. -/
  | firstKey (frames : List Frame)
  /-- A key is expected after a comma. -/
  | nextKey (frames : List Frame) (members : List (Text × Node))
  /-- A colon is expected. -/
  | colon (frames : List Frame) (members : List (Text × Node)) (key : Text)
  /-- A value is complete. -/
  | complete (frames : List Frame) (value : Node)

/-- Close everything that is open around a value at which the text goes wrong. -/
def abandon (stop : Stop) : List Frame → Node → Node
  | [], v => v
  | .list items :: frames, v => abandon stop frames (.list (v :: items).reverse (some stop))
  | .object members key :: frames, v =>
    abandon stop frames (.object ((key, v) :: members).reverse (some stop))

/-- The text goes wrong at a value that is itself broken off. -/
def halt (stop : Stop) (frames : List Frame) (v : Node) : Document :=
  ⟨abandon stop frames v, false⟩

/-- The text goes wrong where a value should be. -/
def haltAtValue (stop : Stop) (frames : List Frame) : Document := halt stop frames (.broken stop)

/-- What a token is by itself, in the place of a value. -/
def Token.asNode : Token → Node
  | .null => .null
  | .bool b => .bool b
  | .number n => .number n
  | .text t => .text t
  | .beginList => .list [] none
  | .beginObject => .object [] none
  | .brokenText strict lenient => .broken ⟨strict, lenient⟩
  | .broken m => .broken (.both m)
  | .endList | .endObject | .comma | .colon => .broken (.both .expectedValue)

/-- Where the machine is after a token in the place of a value, or the end if it is no value. -/
def enter (frames : List Frame) : Token → State ⊕ Document
  | .beginList => .inl (.firstItem frames)
  | .beginObject => .inl (.firstKey frames)
  | t =>
    match t.asNode with
    | .broken stop => .inr (haltAtValue stop frames)
    | v => .inl (.complete frames v)

/-- Where the machine is after a token in the place of a key. -/
def enterKey (frames : List Frame) (members : List (Text × Node)) (first : Bool) :
    Token → State ⊕ Document
  | .text key => .inl (.colon frames members key)
  | t =>
    let stop : Stop :=
      match first, t with
      | _, .brokenText strict lenient => ⟨strict, lenient⟩
      | false, .endObject => ⟨.trailingComma, .keyNotText⟩
      | _, _ => .both .keyNotText
    .inr (halt stop frames (.object members.reverse (some stop)))

/-- Where the machine is after one more token. -/
def step : State → Token → State ⊕ Document
  | .value frames, t => enter frames t
  | .firstItem frames, .endList => .inl (.complete frames (.list [] none))
  | .firstItem frames, t => enter (.list [] :: frames) t
  | .nextItem frames items, .endList =>
    .inr (haltAtValue ⟨.trailingComma, .expectedValue⟩ (.list items :: frames))
  | .nextItem frames items, t => enter (.list items :: frames) t
  | .firstKey frames, .endObject => .inl (.complete frames (.object [] none))
  | .firstKey frames, t => enterKey frames [] true t
  | .nextKey frames members, t => enterKey frames members false t
  | .colon frames members key, .colon => .inl (.value (.object members key :: frames))
  | .colon frames members key, _ =>
    .inr (haltAtValue (.both .expectedColon) (.object members key :: frames))
  | .complete [] v, _ => .inr ⟨v, true⟩
  | .complete (.list items :: frames) v, .comma => .inl (.nextItem frames (v :: items))
  | .complete (.list items :: frames) v, .endList =>
    .inl (.complete frames (.list (v :: items).reverse none))
  | .complete (.list items :: frames) v, _ =>
    .inr (halt (.both .expectedCommaOrListEnd) (.list items :: frames) v)
  | .complete (.object members key :: frames) v, .comma =>
    .inl (.nextKey frames ((key, v) :: members))
  | .complete (.object members key :: frames) v, .endObject =>
    .inl (.complete frames (.object ((key, v) :: members).reverse none))
  | .complete (.object members key :: frames) v, _ =>
    .inr (halt (.both .expectedCommaOrObjectEnd) (.object members key :: frames) v)

/-- What has been read when the text ends. -/
def atEnd : State → Document
  | .value frames => haltAtValue (.both .endInValue) frames
  | .firstItem frames => halt (.both .endInList) frames (.list [] (some (.both .endInList)))
  | .nextItem frames items => haltAtValue (.both .endInValue) (.list items :: frames)
  | .firstKey frames => halt (.both .endInObject) frames (.object [] (some (.both .endInObject)))
  | .nextKey frames members =>
    let stop : Stop := ⟨.endInValue, .endInObject⟩
    halt stop frames (.object members.reverse (some stop))
  | .colon frames members key =>
    haltAtValue (.both .endInObject) (.object members key :: frames)
  | .complete [] v => ⟨v, false⟩
  | .complete (.list items :: frames) v => halt (.both .endInList) (.list items :: frames) v
  | .complete (.object members key :: frames) v =>
    halt (.both .endInObject) (.object members key :: frames) v

/-- Take tokens until the text ends or goes wrong. -/
def readFrom : State → List Token → Document
  | s, [] => atEnd s
  | s, t :: ts =>
    match step s t with
    | .inl s' => readFrom s' ts
    | .inr d => d

/-- Read a text as far as it goes. -/
def read (text : List Char) : Document := readFrom (.value []) (tokens text)

/-! ### Skipping -/

mutual

/-- Walk over a value that nobody wants: strings and numbers pass whatever they stand for. -/
def Node.skip : Node → Except Malformed Unit
  | .null | .bool _ | .number _ | .text _ => .ok ()
  | .list items stop => do
    skipItems items
    match stop with
    | some stop => .error stop.lenient
    | none => .ok ()
  | .object members stop => do
    skipMembers members
    match stop with
    | some stop => .error stop.lenient
    | none => .ok ()
  | .broken stop => .error stop.lenient

/-- Walk over the items of a list. -/
def skipItems : List Node → Except Malformed Unit
  | [] => .ok ()
  | v :: vs => do
    v.skip
    skipItems vs

/-- Walk over the members of an object. -/
def skipMembers : List (Text × Node) → Except Malformed Unit
  | [] => .ok ()
  | (_, v) :: vs => do
    v.skip
    skipMembers vs

end

end PenPlotter.Json
