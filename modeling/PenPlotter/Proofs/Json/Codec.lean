import PenPlotter.Json.Codec
import PenPlotter.Proofs.Json.Reading

/-!
# Codecs that read what they write

A codec *restores* a value to another if the other is what its decoder makes of what its encoder
writes (`Codec.Restores`); both texts of the value are then read as the other
(`Codec.Restores.read_write`, `Codec.Restores.read_prettyText`), with a line end behind them or
without.  Words, pairs of words and lists are restored to themselves, or item by item.

The other way round, what a decoder yields has every property that its parts bring along:
`decodeList_forall` for the items of a list and `decodeStruct_keeps` for the fields of a structure,
whether it is read from an object or from a list.
-/

namespace PenPlotter.Json

/-! ### What is written -/

theorem Numeral.value?_ofNat {n : Nat} (h : n < UInt64.size) :
    (Numeral.ofNat n).value? = some (.integer n) := by
  have hmin : Int64.minValue.toInt ≤ (n : Int) :=
    Int.le_trans (by decide) (Int.natCast_nonneg n)
  have hmax : (n : Int) < UInt64.size := Int.ofNat_lt.mpr h
  simp only [Numeral.value?, Numeral.ofNat, Bool.false_eq_true, if_false, false_and,
    not_false_eq_true, true_and]
  rw [if_pos ⟨hmin, hmax⟩]

/-- A natural number below the bound is read as itself. -/
theorem decodeNat_natural {bound n : Nat} (expected : String) (hn : n < bound)
    (hbound : bound ≤ UInt64.size) : decodeNat bound expected (Value.natural n).node = .ok n := by
  have hnode : (Value.natural n).node = .number (.ofNat n) := by
    rw [Value.natural, Value.node, Numeric.ofDigits_digits]
  have hvalue := Numeral.value?_ofNat (Nat.lt_of_lt_of_le hn hbound)
  have hrange : (0 : Int) ≤ n ∧ (n : Int) < bound :=
    ⟨Int.natCast_nonneg n, Int.ofNat_lt.mpr hn⟩
  rw [hnode, decodeNat]
  simp only [hvalue, hrange, and_self, if_true, Int.toNat_natCast]

theorem decodeWord_word (w : UInt32) : decodeWord (Value.word w).node = .ok w := by
  rw [decodeWord, Value.word, decodeNat_natural "u32" w.toNat_lt_size (by decide), Except.map,
    UInt32.ofNat_toNat]

theorem Field.put_required {α β : Type} {name : String} {decode : Decoder β} {set : β → α → α}
    {v : Node} {b : β} (h : decode v = .ok b) (a : α) :
    (Field.required name decode set).put v a = .ok (set b a) := by
  simp only [required, h]
  rfl

theorem decodeWordPair_words (w h : UInt32) :
    decodeWordPair (Value.list [.word w, .word h]).node = .ok (w, h) := by
  rw [Value.node, Value.itemNodes, Value.itemNodes, Value.itemNodes, decodeWordPair]
  simp only [putItems, Field.put_required (decodeWord_word _)]
  rfl

theorem natural_word (w : UInt32) : (Value.word w).Natural := by
  rw [Value.word, Value.natural, Value.Natural]
  exact ⟨_, rfl⟩

/-- A member that is a new field is put, and the members after it are read. -/
theorem putMembers_put {α : Type} {fields : List (Field α)} {field : Field α} {key : String}
    {v : Node} {rest : List (Text × Node)} {seen : List String} {a b : α}
    (hfield : fields.find? (fun field => field.name == key) = some field)
    (hnew : seen.contains key = false) (hput : field.put v a = .ok b) :
    putMembers fields ((.ok key, v) :: rest) seen a =
      putMembers fields rest (key :: seen) b := by
  rw [putMembers, hfield]
  simp only [hnew, Bool.false_eq_true, if_false, hput]
  rfl

/-- Items that are all read make up the list. -/
theorem mapM_eq_ok {α β : Type} {item : α → Except Problem β} {f : α → β} {as : List α}
    (h : ∀ a ∈ as, item a = .ok (f a)) : as.mapM item = .ok (as.map f) := by
  induction as with
  | nil => rfl
  | cons a as ih =>
      rw [List.mapM_cons, h a List.mem_cons_self, ih fun b hb => h b (List.mem_cons_of_mem a hb)]
      rfl

namespace Codec

variable {α : Type}

/-- What the codec writes for `a` is read as `b`. -/
structure Restores (c : Codec α) (a b : α) : Prop where
  natural : (c.encode a).Natural
  decode : c.decode (c.encode a).node = .ok b

namespace Restores

variable {c : Codec α} {a b : α}

theorem read_write_append (h : c.Restores a b) {tail : String} (htail : Closes tail.toList) :
    c.read (c.write a ++ tail) = .ok b := by
  rw [Codec.read, Codec.write, decode_compactText _ _ h.natural htail, h.decode]

theorem read_prettyText_append (h : c.Restores a b) {tail : String}
    (htail : Closes tail.toList) : c.read ((c.encode a).prettyText ++ tail) = .ok b := by
  rw [Codec.read, decode_prettyText _ _ h.natural htail, h.decode]

theorem read_write (h : c.Restores a b) : c.read (c.write a) = .ok b := by
  have hread : c.read (c.write a ++ "") = .ok b := h.read_write_append closes_nil
  rwa [String.append_empty] at hread

theorem read_prettyText (h : c.Restores a b) : c.read (c.encode a).prettyText = .ok b := by
  have hread : c.read ((c.encode a).prettyText ++ "") = .ok b :=
    h.read_prettyText_append closes_nil
  rwa [String.append_empty] at hread

/-- A list is restored item by item. -/
theorem list {f : α → α} (h : ∀ a, c.Restores a (f a)) (as : List α) :
    c.list.Restores as (as.map f) where
  natural := by
    rw [Codec.list, Value.Natural]
    induction as with
    | nil => trivial
    | cons a as ih => exact ⟨(h a).natural, ih⟩
  decode := by
    have hitems : (Value.itemNodes (as.map c.encode)).mapM c.decode = .ok (as.map f) := by
      rw [Value.itemNodes_eq_map, List.map_map, List.mapM_map]
      exact mapM_eq_ok fun a _ => (h a).decode
    simp only [Codec.list, Value.node, decodeList, hitems, ended]
    rfl

end Restores

end Codec

/-! ### What is read -/

theorem bind_eq_ok {α β : Type} {x : Except Problem α} {f : α → Except Problem β} {b : β} :
    (x >>= f) = .ok b ↔ ∃ a, x = .ok a ∧ f a = .ok b := by
  cases x <;> simp [bind, Except.bind]

/-- What is unexpected is a problem. -/
theorem unexpected_ne_ok {α : Type} (v : Node) (expected : String) (a : α) :
    v.unexpected expected ≠ .ok a := by
  intro h
  cases v with
  | number n =>
      simp only [Node.unexpected] at h
      split at h <;> cases h
  | text t => cases t <;> cases h
  | _ => cases h

section Kept

variable {α : Type} {P : α → Prop}

theorem mapM_forall {item : Decoder α} (hitem : ∀ v a, item v = .ok a → P a) {vs : List Node}
    {as : List α} (h : vs.mapM item = .ok as) : ∀ a ∈ as, P a := by
  induction vs generalizing as with
  | nil =>
      cases h
      exact List.forall_mem_nil _
  | cons v vs ih =>
      rw [List.mapM_cons, bind_eq_ok] at h
      obtain ⟨a, ha, h⟩ := h
      obtain ⟨rest, hrest, h⟩ := bind_eq_ok.mp h
      cases h
      exact List.forall_mem_cons.mpr ⟨hitem v a ha, ih hrest⟩

/-- The items of a list have every property that the decoder of items ensures. -/
theorem decodeList_forall {item : Decoder α} (hitem : ∀ v a, item v = .ok a → P a) {v : Node}
    {as : List α} (h : decodeList item v = .ok as) : ∀ a ∈ as, P a := by
  unfold decodeList at h
  split at h
  · obtain ⟨values, hvalues, h⟩ := bind_eq_ok.mp h
    obtain ⟨_, _, h⟩ := bind_eq_ok.mp h
    cases h
    exact mapM_forall hitem hvalues
  · exact absurd h (unexpected_ne_ok _ _ _)

/-- Reading the field leaves a structure with the property, if it had it before. -/
def Field.Keeps (field : Field α) (P : α → Prop) : Prop :=
  ∀ v a b, P a → field.put v a = .ok b → P b

theorem Field.keeps_required {β : Type} {name : String} {decode : Decoder β} {set : β → α → α}
    (hset : ∀ v b a, decode v = .ok b → P a → P (set b a)) :
    (Field.required name decode set).Keeps P := by
  intro v a a' ha h
  obtain ⟨b, hb, h⟩ := bind_eq_ok.mp h
  cases h
  exact hset v b a hb ha

variable {fields : List (Field α)}

theorem putItems_keeps (hput : ∀ field ∈ fields, field.Keeps P)
    {expected : String} {place : Nat} {vs : List Node} {stop : Option Stop} {a b : α} (ha : P a)
    (h : putItems expected place fields vs stop a = .ok b) : P b := by
  induction fields generalizing place vs a with
  | nil =>
      obtain ⟨_, _, h⟩ := bind_eq_ok.mp h
      cases h
      exact ha
  | cons field fields ih =>
      obtain ⟨hfield, hfields⟩ := List.forall_mem_cons.mp hput
      match vs, stop with
      | v :: vs, _ =>
          obtain ⟨a', ha', h⟩ := bind_eq_ok.mp h
          exact ih hfields (hfield v a a' ha ha') h
      | [], some _ => cases h
      | [], none =>
          rw [putItems] at h
          split at h <;> cases h
          exact ha

theorem putMembers_keeps (hput : ∀ field ∈ fields, field.Keeps P)
    {members : List (Text × Node)} {seen seen' : List String} {a b : α} (ha : P a)
    (h : putMembers fields members seen a = .ok (seen', b)) : P b := by
  induction members generalizing seen a with
  | nil =>
      cases h
      exact ha
  | cons member members ih =>
      obtain ⟨_ | key, v⟩ := member
      · cases h
      rw [putMembers] at h
      split at h
      · split at h
        · exact ih ha h
        · cases h
      · rename_i field hfield
        split at h
        · cases h
        · obtain ⟨a', ha', h⟩ := bind_eq_ok.mp h
          exact ih (hput field (List.mem_of_find?_eq_some hfield) v a a' ha ha') h

/-- A structure has every property that it starts with and that all fields keep. -/
theorem decodeStruct_keeps (hput : ∀ field ∈ fields, field.Keeps P)
    {title : String} {start a : α} {v : Node} (hstart : P start)
    (h : decodeStruct title fields start v = .ok a) : P a := by
  unfold decodeStruct at h
  split at h
  · exact putItems_keeps hput hstart h
  · obtain ⟨⟨seen, b⟩, hmembers, h⟩ := bind_eq_ok.mp h
    obtain ⟨_, _, h⟩ := bind_eq_ok.mp h
    have hb := putMembers_keeps hput hstart hmembers
    split at h <;> cases h
    exact hb
  · exact absurd h (unexpected_ne_ok _ _ _)

end Kept

end PenPlotter.Json
