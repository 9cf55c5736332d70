import PenPlotter.Proofs.Json.Tokens

/-!
# Reading a written value

The machine that reads tokens, given those of a value, completes the value and is left with what
follows (`readFrom_tokens`); so a written text is read back whole, in either layout
(`read_compact`, `read_pretty`), with a line end behind it or without (`Closes`).  `Value.node` is
what a value is read as.

Where a value is expected, the machine need not have been told so by the same token: at the front
of a document, after a colon, at the front of a list and after a comma.  What these states have in
common is how they take a token that begins a value (`State.Awaits`).
-/

namespace PenPlotter.Json

namespace Value

mutual

/-- What a value is read as. -/
def node : Value → Node
  | .null => .null
  | .bool b => .bool b
  | .number written => .number (.ofNat (Numeric.ofDigits written))
  | .text s => .text (.ok s)
  | .list items => .list (itemNodes items) none
  | .object members => .object (memberNodes members) none

/-- What the items of a list are read as. -/
def itemNodes : List Value → List Node
  | [] => []
  | v :: vs => v.node :: itemNodes vs

/-- What the members of an object are read as. -/
def memberNodes : List (String × Value) → List (Text × Node)
  | [] => []
  | (k, v) :: vs => (.ok k, v.node) :: memberNodes vs

end

theorem itemNodes_eq_map (vs : List Value) : itemNodes vs = vs.map node := by
  induction vs with
  | nil => rfl
  | cons v vs ih => rw [itemNodes, ih, List.map_cons]

end Value

/-- The machine takes a token that begins a value as in the place of a value within `frames`. -/
def State.Awaits (s : State) (frames : List Frame) : Prop :=
  ∀ t, t ≠ .endList → step s t = enter frames t

/-- The machine takes a string as the next key of an object within `frames`. -/
def State.AwaitsKey (s : State) (frames : List Frame) (members : List (Text × Node)) : Prop :=
  ∀ key, step s (.text key) = .inl (.colon frames members key)

theorem awaits_value (frames : List Frame) : (State.value frames).Awaits frames := fun _ _ => rfl

theorem awaits_firstItem (frames : List Frame) :
    (State.firstItem frames).Awaits (.list [] :: frames) := by
  intro t ht
  cases t with
  | endList => exact absurd rfl ht
  | _ => rfl

theorem awaits_nextItem (frames : List Frame) (items : List Node) :
    (State.nextItem frames items).Awaits (.list items :: frames) := by
  intro t ht
  cases t with
  | endList => exact absurd rfl ht
  | _ => rfl

theorem awaitsKey_firstKey (frames : List Frame) : (State.firstKey frames).AwaitsKey frames [] :=
  fun _ => rfl

theorem awaitsKey_nextKey (frames : List Frame) (members : List (Text × Node)) :
    (State.nextKey frames members).AwaitsKey frames members :=
  fun _ => rfl

theorem readFrom_cons {s s' : State} {t : Token} (h : step s t = .inl s') (ts : List Token) :
    readFrom s (t :: ts) = readFrom s' ts := by
  rw [readFrom, h]

-- The three statements are proved along the mutual recursion of the tokens.  A list or an object
-- that is not empty is entered by its first item or key, which the general statements on items and
-- members do not tell from a later one.
mutual

/-- The machine completes a value and is left with what follows. -/
theorem readFrom_tokens (v : Value) {s : State} {frames : List Frame} (hs : s.Awaits frames)
    (ts : List Token) :
    readFrom s (v.tokens ++ ts) = readFrom (.complete frames v.node) ts := by
  match v with
  | .null => exact readFrom_cons (hs .null (by simp)) ts
  | .bool b => exact readFrom_cons (hs (.bool b) (by simp)) ts
  | .number _ => exact readFrom_cons (hs (.number _) (by simp)) ts
  | .text s => exact readFrom_cons (hs (.text (.ok s)) (by simp)) ts
  | .list [] => exact readFrom_cons (hs .beginList (by simp)) (.endList :: ts)
  | .list (v :: vs) =>
      have hitems := readFrom_itemTokens (v :: vs) (by simp) (awaits_firstItem frames) ts
      rw [← readFrom_cons (hs .beginList (by simp))] at hitems
      simpa [Value.tokens, Value.node] using hitems
  | .object [] => exact readFrom_cons (hs .beginObject (by simp)) (.endObject :: ts)
  | .object (v :: vs) =>
      have hmembers := readFrom_memberTokens (v :: vs) (by simp) (awaitsKey_firstKey frames) ts
      rw [← readFrom_cons (hs .beginObject (by simp))] at hmembers
      simpa [Value.tokens, Value.node] using hmembers

theorem readFrom_itemTokens (vs : List Value) (hne : vs ≠ []) {s : State} {frames : List Frame}
    {items : List Node} (hs : s.Awaits (.list items :: frames)) (ts : List Token) :
    readFrom s (Value.itemTokens vs ++ .endList :: ts) =
      readFrom (.complete frames (.list (items.reverse ++ Value.itemNodes vs) none)) ts := by
  match vs, hne with
  | [v], _ =>
      rw [Value.itemTokens, readFrom_tokens v hs, readFrom_cons rfl, List.reverse_cons]
      rfl
  | v :: w :: vs, _ =>
      -- The comma leaves the machine before the next item, with one more behind it.
      rw [Value.itemTokens, List.append_assoc, readFrom_tokens v hs, List.cons_append,
        readFrom_cons rfl,
        readFrom_itemTokens (w :: vs) (by simp) (awaits_nextItem frames (v.node :: items))]
      simp [Value.itemNodes]

theorem readFrom_memberTokens (vs : List (String × Value)) (hne : vs ≠ []) {s : State}
    {frames : List Frame} {members : List (Text × Node)} (hs : s.AwaitsKey frames members)
    (ts : List Token) :
    readFrom s (Value.memberTokens vs ++ .endObject :: ts) =
      readFrom (.complete frames (.object (members.reverse ++ Value.memberNodes vs) none)) ts := by
  match vs, hne with
  | [(k, v)], _ =>
      rw [Value.memberTokens, List.cons_append, List.cons_append, readFrom_cons (hs _),
        readFrom_cons rfl, readFrom_tokens v (awaits_value _), readFrom_cons rfl,
        List.reverse_cons]
      rfl
  | (k, v) :: w :: vs, _ =>
      rw [Value.memberTokens, List.append_assoc, List.cons_append, List.cons_append,
        readFrom_cons (hs _), readFrom_cons rfl, readFrom_tokens v (awaits_value _),
        List.cons_append, readFrom_cons rfl,
        readFrom_memberTokens (w :: vs) (by simp)
          (awaitsKey_nextKey frames ((.ok k, v.node) :: members))]
      simp [Value.memberNodes]

end

/-- What may stand behind a written value at the end of a text. -/
structure Closes (rest : List Char) : Prop where
  breaks : Breaks rest
  blank : tokens rest = []

theorem closes_nil : Closes [] where
  breaks := breaks_nil
  blank := by rw [tokens]

section Read

variable (v : Value) {rest : List Char}

/-- A compact text is read back whole. -/
theorem read_compact (hv : v.Natural) (hrest : Closes rest) :
    read (v.compact ++ rest) = ⟨v.node, false⟩ := by
  rw [read, tokens_compact v hv hrest.breaks, hrest.blank, readFrom_tokens v (awaits_value []),
    readFrom, atEnd]

/-- An indented text is read back whole. -/
theorem read_pretty (hv : v.Natural) (depth : Nat) (hrest : Closes rest) :
    read (v.pretty depth ++ rest) = ⟨v.node, false⟩ := by
  rw [read, tokens_pretty v hv depth hrest.breaks, hrest.blank,
    readFrom_tokens v (awaits_value []), readFrom, atEnd]

end Read

section Decode

variable {α : Type} (decoder : Decoder α) (v : Value) {tail : String}

/-- A compact text is decoded as what it says. -/
theorem decode_compactText (hv : v.Natural) (htail : Closes tail.toList) :
    decode decoder (v.compactText ++ tail) = decoder v.node := by
  rw [decode, Value.compactText, String.toList_append, String.toList_ofList,
    read_compact v hv htail]
  cases decoder v.node <;> rfl

/-- An indented text is decoded as what it says. -/
theorem decode_prettyText (hv : v.Natural) (htail : Closes tail.toList) :
    decode decoder (v.prettyText ++ tail) = decoder v.node := by
  rw [decode, Value.prettyText, String.toList_append, String.toList_ofList,
    read_pretty v hv 0 htail]
  cases decoder v.node <;> rfl

end Decode

end PenPlotter.Json
