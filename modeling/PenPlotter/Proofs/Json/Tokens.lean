import Mathlib.Data.List.Basic
import PenPlotter.Json.Value

/-!
# The tokens of a written value

What is written is cut into the tokens that were meant, in either layout.  `Value.tokens` are the
tokens of a value.

* `tokens_quoted`: a string between its quotes is one token, the string, whatever its characters
  are.
* `tokens_digits`: a natural number is one token, its numeral, unless what follows could belong to
  a number (`Breaks`).
* `tokens_compact`, `tokens_pretty`: the tokens of a text that begins with a written value are those
  of the value and those of the rest.

A value may hold numbers of any writing; here they are natural numbers (`Value.Natural`).
-/

namespace PenPlotter.Json

theorem tokens_of_next {c : Char} {t : Token} {rest rest' : List Char} (hblank : isBlank c = false)
    (hnext : nextToken c rest = (t, rest')) : tokens (c :: rest) = t :: tokens rest' := by
  rw [tokens, hblank, if_neg Bool.false_ne_true, hnext]

/-! ### Strings -/

/-- A piece of a string is one character, whatever follows. -/
def Piece.Is (p : Piece) (c : Char) : Prop :=
  ∀ ending ps, joinPieces ending (p :: ps) = (joinPieces ending ps).map (c :: ·)

theorem Piece.Is.of_char (c : Char) : (Piece.char c).Is c := fun _ _ => rfl

theorem Piece.Is.of_unit {c : Char} (h : c.toNat < 0x20) : (Piece.unit c.toNat).Is c := by
  intro ending ps
  have htrail : isTrailing c.toNat = false := by simp [isTrailing]; omega
  have hlead : isLeading c.toNat = false := by simp [isLeading]; omega
  rw [joinPieces.eq_def]
  simp only [htrail, hlead, Char.ofNat_toNat, Bool.false_eq_true, if_false]

theorem hexUnit?_control {n : Nat} (h : n < 0x20) :
    hexUnit? '0' '0' (Nat.digitChar (n / 16)) (Nat.digitChar (n % 16)) = some n := by
  have : ∀ k : Fin 0x20,
      hexUnit? '0' '0' (Nat.digitChar (k / 16)) (Nat.digitChar (k % 16)) = some k.val := by decide
  exact this ⟨n, h⟩

/-- A character is written as one piece. -/
theorem scanText_escapedChar (c : Char) (rest : List Char) :
    ∃ p : Piece, p.Is c ∧ scanText (Value.escapedChar c ++ rest) = (scanText rest).after p := by
  rw [Value.escapedChar]
  split
  case isTrue h => exact ⟨.char '"', h ▸ .of_char _, rfl⟩
  split
  case isTrue h => exact ⟨.char '\\', h ▸ .of_char _, rfl⟩
  split
  case isTrue h => exact ⟨.char '\n', h ▸ .of_char _, rfl⟩
  split
  case isTrue h => exact ⟨.char '\r', h ▸ .of_char _, rfl⟩
  split
  case isTrue h => exact ⟨.char '\t', h ▸ .of_char _, rfl⟩
  split
  case isTrue h => exact ⟨.char (Char.ofNat 8), h ▸ .of_char _, rfl⟩
  split
  case isTrue h => exact ⟨.char (Char.ofNat 12), h ▸ .of_char _, rfl⟩
  split
  case isTrue h =>
    refine ⟨.unit c.toNat, .of_unit h, ?_⟩
    simp only [List.cons_append, List.nil_append, scanText, hexUnit?_control h]
  case isFalse hquote hbackslash _ _ _ _ _ hcontrol =>
    refine ⟨.char c, .of_char c, ?_⟩
    rw [List.singleton_append, scanText, if_neg hcontrol]
    · exact hquote
    all_goals simp [hbackslash]

/-- A string between its quotes is scanned to its end. -/
theorem scanText_quoted (cs rest : List Char) :
    ∃ ps, scanText (cs.flatMap Value.escapedChar ++ '"' :: rest) = ⟨ps, .ok rest⟩ ∧
      ∀ ending, joinPieces ending ps = .ok cs := by
  induction cs with
  | nil => exact ⟨[], rfl, fun _ => rfl⟩
  | cons c cs ih =>
      obtain ⟨ps, hscan, hjoin⟩ := ih
      obtain ⟨p, hp, hc⟩ :=
        scanText_escapedChar c (cs.flatMap Value.escapedChar ++ '"' :: rest)
      refine ⟨p :: ps, ?_, fun ending => ?_⟩
      · rw [List.flatMap_cons, List.append_assoc, hc, hscan]
        rfl
      · rw [hp, hjoin]
        rfl

theorem textToken_quoted (s : String) (rest : List Char) :
    textToken (s.toList.flatMap Value.escapedChar ++ '"' :: rest) = (.text (.ok s), rest) := by
  obtain ⟨ps, hscan, hjoin⟩ := scanText_quoted s.toList rest
  rw [textToken, hscan]
  simp only [hjoin, Except.map, String.ofList_toList]

/-- A string between its quotes is one token. -/
theorem tokens_quoted (s : String) (rest : List Char) :
    tokens (Value.quotedText s ++ rest) = .text (.ok s) :: tokens rest := by
  rw [Value.quotedText, List.cons_append, List.cons_append, List.append_assoc,
    List.singleton_append]
  exact tokens_of_next (by decide) (textToken_quoted s rest)

/-! ### Numbers -/

/-- The numeral of a natural number. -/
def Numeral.ofNat (n : Nat) : Numeral := ⟨false, n, 0, true⟩

/-- What follows does not belong to a number. -/
def Breaks (rest : List Char) : Prop :=
  ∀ c ∈ rest.head?, ¬ c.isDigit ∧ c ≠ '.' ∧ c ≠ 'e' ∧ c ≠ 'E'

theorem breaks_nil : Breaks [] := fun _ h => nomatch h

theorem breaks_cons {c : Char} (h : c ∈ [',', ']', '\x7d', '\n']) (rest : List Char) :
    Breaks (c :: rest) := by
  intro d hd
  obtain rfl : c = d := Option.some.inj hd
  simp only [List.mem_cons, List.not_mem_nil, or_false] at h
  rcases h with rfl | rfl | rfl | rfl <;> decide

theorem breaks_newLine (depth : Nat) (rest : List Char) : Breaks (Value.newLine depth ++ rest) :=
  breaks_cons (by decide) _

/-- A positive number is written without a leading zero. -/
theorem head?_digits_ne_zero {n : Nat} (h : 0 < n) : (Numeric.digits n).head? ≠ some '0' := by
  induction n using Nat.strongRecOn with
  | ind n ih =>
      by_cases hn : n < 10
      · have : ∀ k : Fin 10, 0 < k.val → [Numeric.digitChar k].head? ≠ some '0' := by decide
        rw [Numeric.digits_of_lt hn]
        exact this ⟨n, hn⟩ h
      · rw [Numeric.digits_of_ge (by omega),
          List.head?_append_of_ne_nil _ (Numeric.digits_ne_nil _)]
        exact ih (n / 10) (by omega) (by omega)

theorem spanDigits_append {ds rest : List Char} (hds : ∀ c ∈ ds, c.isDigit = true)
    (hrest : Breaks rest) : spanDigits (ds ++ rest) = (ds, rest) := by
  have hstop : rest.takeWhile Char.isDigit = [] ∧ rest.dropWhile Char.isDigit = rest := by
    cases rest with
    | nil => exact ⟨rfl, rfl⟩
    | cons c rest =>
        have hc := (hrest c rfl).1
        exact ⟨List.takeWhile_cons_of_neg hc, List.dropWhile_cons_of_neg hc⟩
  rw [spanDigits, List.takeWhile_append_of_pos hds, List.dropWhile_append_of_pos hds, hstop.1,
    hstop.2, List.append_nil]

theorem scanDigits_digits (n : Nat) {rest : List Char} (hrest : Breaks rest) :
    scanDigits (Numeric.digits n ++ rest) = .ok (Numeric.digits n, rest) := by
  rw [scanDigits, spanDigits_append (fun _ => Numeric.isDigit_of_mem_digits) hrest]
  simp [Numeric.digits_ne_nil]

theorem scanWhole_digits (n : Nat) {rest : List Char} (hrest : Breaks rest) :
    scanWhole (Numeric.digits n ++ rest) = .ok (Numeric.digits n, rest) := by
  rw [scanWhole, scanDigits_digits n hrest]
  refine if_neg fun ⟨hzero, hlong⟩ => ?_
  by_cases hn : n < 10
  · rw [Numeric.digits_of_lt hn] at hlong
    exact absurd hlong (by simp)
  · exact head?_digits_ne_zero (by omega) hzero

theorem scanFraction_of_breaks {rest : List Char} (hrest : Breaks rest) :
    scanFraction rest = .ok ([], rest) := by
  rw [scanFraction]
  intro cs he
  exact (hrest '.' (by rw [he]; rfl)).2.1 rfl

theorem scanExponent_of_breaks {rest : List Char} (hrest : Breaks rest) :
    scanExponent rest = .ok (none, rest) := by
  cases rest with
  | nil => rfl
  | cons c rest =>
      obtain ⟨-, -, he, hE⟩ := hrest c rfl
      rw [scanExponent, if_neg (not_or.mpr ⟨he, hE⟩)]

/-- A natural number is scanned as its numeral. -/
theorem scanNumber_digits (n : Nat) {rest : List Char} (hrest : Breaks rest) :
    scanNumber (Numeric.digits n ++ rest) = .ok (.ofNat n, rest) := by
  -- The first character is a digit, hence no sign.
  have hsign : ∀ cs, Numeric.digits n ++ rest ≠ '-' :: cs := by
    intro cs he
    obtain ⟨d, ds, hd⟩ := List.exists_cons_of_ne_nil (Numeric.digits_ne_nil n)
    rw [hd, List.cons_append] at he
    have := Numeric.isDigit_of_mem_digits (n := n) (c := d) (hd ▸ List.mem_cons_self)
    rw [(List.cons.inj he).1] at this
    cases this
  rw [scanNumber]
  · simp only [scanWhole_digits n hrest, scanFraction_of_breaks hrest,
      scanExponent_of_breaks hrest, bind, Except.bind, pure, Except.pure, List.append_nil,
      Numeric.ofDigits_digits]
    rfl
  · exact hsign

/-- A natural number is one token. -/
theorem tokens_digits (n : Nat) {rest : List Char} (hrest : Breaks rest) :
    tokens (Numeric.digits n ++ rest) = .number (.ofNat n) :: tokens rest := by
  obtain ⟨d, ds, hd⟩ := List.exists_cons_of_ne_nil (Numeric.digits_ne_nil n)
  have hdigit : d.isDigit = true :=
    Numeric.isDigit_of_mem_digits (n := n) (hd ▸ List.mem_cons_self)
  have hnext : nextToken d (ds ++ rest) = numberToken (d :: (ds ++ rest)) := by
    -- No other token begins with a digit.
    rw [nextToken]
    · exact if_pos (.inr hdigit)
    all_goals
      rintro rfl
      cases hdigit
  have hblank : isBlank d = false := by
    by_contra hb
    simp only [isBlank, Bool.not_eq_false, Bool.or_eq_true, beq_iff_eq] at hb
    rcases hb with ((rfl | rfl) | rfl) | rfl <;> cases hdigit
  have hnumber : numberToken (d :: (ds ++ rest)) = (.number (.ofNat n), rest) := by
    rw [numberToken, ← List.cons_append, ← hd, scanNumber_digits n hrest]
  rw [hd, List.cons_append]
  exact tokens_of_next hblank (hnext.trans hnumber)

/-! ### Punctuation and blanks -/

theorem tokens_blank {c : Char} (h : isBlank c = true) (rest : List Char) :
    tokens (c :: rest) = tokens rest := by
  rw [tokens, if_pos h]

theorem tokens_space (rest : List Char) : tokens (' ' :: rest) = tokens rest :=
  tokens_blank (by decide) rest

theorem tokens_newLine (depth : Nat) (rest : List Char) :
    tokens (Value.newLine depth ++ rest) = tokens rest := by
  have hspaces : ∀ n, tokens (List.replicate n ' ' ++ rest) = tokens rest := by
    intro n
    induction n with
    | zero => rfl
    | succ n ih => rw [List.replicate_succ, List.cons_append, tokens_space, ih]
  rw [Value.newLine, List.cons_append, tokens_blank (by decide), hspaces]

@[simp] theorem tokens_beginList (rest : List Char) :
    tokens ('[' :: rest) = .beginList :: tokens rest :=
  tokens_of_next (by decide) rfl

@[simp] theorem tokens_endList (rest : List Char) :
    tokens (']' :: rest) = .endList :: tokens rest :=
  tokens_of_next (by decide) rfl

@[simp] theorem tokens_beginObject (rest : List Char) :
    tokens ('\x7b' :: rest) = .beginObject :: tokens rest :=
  tokens_of_next (by decide) rfl

@[simp] theorem tokens_endObject (rest : List Char) :
    tokens ('\x7d' :: rest) = .endObject :: tokens rest :=
  tokens_of_next (by decide) rfl

@[simp] theorem tokens_comma (rest : List Char) :
    tokens (',' :: rest) = .comma :: tokens rest :=
  tokens_of_next (by decide) rfl

@[simp] theorem tokens_colon (rest : List Char) :
    tokens (':' :: rest) = .colon :: tokens rest :=
  tokens_of_next (by decide) rfl

/-! ### Words -/

theorem scanWord_append (word rest : List Char) : scanWord word (word ++ rest) = .ok rest := by
  induction word with
  | nil => rfl
  | cons w word ih => rw [List.cons_append, scanWord, if_pos rfl, ih]

theorem wordToken_append (word : String) (t : Token) (rest : List Char) :
    wordToken word t (word.toList ++ rest) = (t, rest) := by
  rw [wordToken, scanWord_append]

theorem tokens_word (c : Char) (word : String) {t : Token} (hblank : isBlank c = false)
    (hnext : ∀ rest, nextToken c rest = wordToken word t rest) (rest : List Char) :
    tokens (c :: (word.toList ++ rest)) = t :: tokens rest :=
  tokens_of_next hblank ((hnext _).trans (wordToken_append word t rest))

theorem tokens_null (rest : List Char) : tokens ("null".toList ++ rest) = .null :: tokens rest :=
  tokens_word 'n' "ull" (by decide) (fun _ => rfl) rest

theorem tokens_true (rest : List Char) :
    tokens ("true".toList ++ rest) = .bool true :: tokens rest :=
  tokens_word 't' "rue" (by decide) (fun _ => rfl) rest

theorem tokens_false (rest : List Char) :
    tokens ("false".toList ++ rest) = .bool false :: tokens rest :=
  tokens_word 'f' "alse" (by decide) (fun _ => rfl) rest

/-! ### Values -/

namespace Value

mutual

/-- The tokens of a value. -/
def tokens : Value → List Token
  | .null => [.null]
  | .bool b => [.bool b]
  | .number written => [.number (.ofNat (Numeric.ofDigits written))]
  | .text s => [.text (.ok s)]
  | .list items => .beginList :: itemTokens items ++ [.endList]
  | .object members => .beginObject :: memberTokens members ++ [.endObject]

/-- The tokens of the items of a list. -/
def itemTokens : List Value → List Token
  | [] => []
  | [v] => v.tokens
  | v :: w :: vs => v.tokens ++ .comma :: itemTokens (w :: vs)

/-- The tokens of the members of an object. -/
def memberTokens : List (String × Value) → List Token
  | [] => []
  | [(k, v)] => .text (.ok k) :: .colon :: v.tokens
  | (k, v) :: w :: vs =>
    .text (.ok k) :: .colon :: v.tokens ++ .comma :: memberTokens (w :: vs)

end

mutual

/-- The numbers of a value are natural numbers. -/
def Natural : Value → Prop
  | .null | .bool _ | .text _ => True
  | .number written => ∃ n, written = Numeric.digits n
  | .list items => NaturalItems items
  | .object members => NaturalMembers members

/-- The numbers of the items of a list are natural numbers. -/
def NaturalItems : List Value → Prop
  | [] => True
  | v :: vs => v.Natural ∧ NaturalItems vs

/-- The numbers of the members of an object are natural numbers. -/
def NaturalMembers : List (String × Value) → Prop
  | [] => True
  | (_, v) :: vs => v.Natural ∧ NaturalMembers vs

end

end Value

@[simp] theorem Value.compactItems_cons_cons (v w : Value) (vs : List Value) :
    compactItems (v :: w :: vs) = v.compact ++ ',' :: compactItems (w :: vs) := by
  simp [compactItems]

@[simp] theorem Value.compactMembers_cons_cons (k : String) (v : Value) (w : String × Value)
    (vs : List (String × Value)) :
    compactMembers ((k, v) :: w :: vs) =
      quotedText k ++ ':' :: v.compact ++ ',' :: compactMembers (w :: vs) := by
  simp [compactMembers]

mutual

/-- The compact text of a value is cut into its tokens. -/
theorem tokens_compact (v : Value) (hv : v.Natural) {rest : List Char} (hrest : Breaks rest) :
    tokens (v.compact ++ rest) = v.tokens ++ tokens rest := by
  match v, hv with
  | .null, _ => exact tokens_null rest
  | .bool true, _ => exact tokens_true rest
  | .bool false, _ => exact tokens_false rest
  | .number _, ⟨n, rfl⟩ =>
      rw [Value.compact, tokens_digits n hrest, Value.tokens, Numeric.ofDigits_digits]
      rfl
  | .text s, _ => exact tokens_quoted s rest
  | .list items, hv =>
      simp [Value.compact, Value.tokens, tokens_compactItems items hv (breaks_cons _ _)]
  | .object members, hv =>
      simp [Value.compact, Value.tokens, tokens_compactMembers members hv (breaks_cons _ _)]

theorem tokens_compactItems (vs : List Value) (hvs : Value.NaturalItems vs) {rest : List Char}
    (hrest : Breaks rest) :
    tokens (Value.compactItems vs ++ rest) = Value.itemTokens vs ++ tokens rest := by
  match vs, hvs with
  | [], _ => rfl
  | [v], hvs => exact tokens_compact v hvs.1 hrest
  | v :: w :: vs, hvs =>
      simp [Value.itemTokens, tokens_compact v hvs.1 (breaks_cons _ _),
        tokens_compactItems (w :: vs) hvs.2 hrest]

theorem tokens_compactMembers (vs : List (String × Value)) (hvs : Value.NaturalMembers vs)
    {rest : List Char} (hrest : Breaks rest) :
    tokens (Value.compactMembers vs ++ rest) = Value.memberTokens vs ++ tokens rest := by
  match vs, hvs with
  | [], _ => rfl
  | [(k, v)], hvs =>
      simp [Value.compactMembers, Value.memberTokens, tokens_quoted, tokens_compact v hvs.1 hrest]
  | (k, v) :: w :: vs, hvs =>
      simp [Value.memberTokens, tokens_quoted, tokens_compact v hvs.1 (breaks_cons _ _),
        tokens_compactMembers (w :: vs) hvs.2 hrest]

end

@[simp] theorem Value.prettyItems_cons_cons (depth : Nat) (v w : Value) (vs : List Value) :
    prettyItems depth (v :: w :: vs) =
      v.pretty depth ++ ',' :: newLine depth ++ prettyItems depth (w :: vs) := by
  simp [prettyItems]

@[simp] theorem Value.prettyMembers_cons_cons (depth : Nat) (k : String) (v : Value)
    (w : String × Value) (vs : List (String × Value)) :
    prettyMembers depth ((k, v) :: w :: vs) =
      quotedText k ++ ':' :: ' ' :: v.pretty depth ++ ',' :: newLine depth
        ++ prettyMembers depth (w :: vs) := by
  simp [prettyMembers]

mutual

/-- The indented text of a value is cut into its tokens. -/
theorem tokens_pretty (v : Value) (hv : v.Natural) (depth : Nat) {rest : List Char}
    (hrest : Breaks rest) : tokens (v.pretty depth ++ rest) = v.tokens ++ tokens rest := by
  match v, hv with
  | .null, hv | .bool _, hv | .number _, hv | .text _, hv =>
      rw [Value.pretty]
      exact tokens_compact _ hv hrest
      all_goals simp
  | .list [], _ => simp [Value.pretty, Value.tokens, Value.itemTokens]
  | .list (v :: vs), hv =>
      simp [Value.pretty, Value.tokens, tokens_newLine,
        tokens_prettyItems (v :: vs) hv (depth + 1) (breaks_newLine _ _)]
  | .object [], _ => simp [Value.pretty, Value.tokens, Value.memberTokens]
  | .object (v :: vs), hv =>
      simp [Value.pretty, Value.tokens, tokens_newLine,
        tokens_prettyMembers (v :: vs) hv (depth + 1) (breaks_newLine _ _)]

theorem tokens_prettyItems (vs : List Value) (hvs : Value.NaturalItems vs) (depth : Nat)
    {rest : List Char} (hrest : Breaks rest) :
    tokens (Value.prettyItems depth vs ++ rest) = Value.itemTokens vs ++ tokens rest := by
  match vs, hvs with
  | [], _ => rfl
  | [v], hvs => exact tokens_pretty v hvs.1 depth hrest
  | v :: w :: vs, hvs =>
      simp [Value.itemTokens, tokens_newLine, tokens_pretty v hvs.1 depth (breaks_cons _ _),
        tokens_prettyItems (w :: vs) hvs.2 depth hrest]

theorem tokens_prettyMembers (vs : List (String × Value)) (hvs : Value.NaturalMembers vs)
    (depth : Nat) {rest : List Char} (hrest : Breaks rest) :
    tokens (Value.prettyMembers depth vs ++ rest) = Value.memberTokens vs ++ tokens rest := by
  match vs, hvs with
  | [], _ => rfl
  | [(k, v)], hvs =>
      simp [Value.prettyMembers, Value.memberTokens, tokens_quoted, tokens_space,
        tokens_pretty v hvs.1 depth hrest]
  | (k, v) :: w :: vs, hvs =>
      simp [Value.memberTokens, tokens_quoted, tokens_space, tokens_newLine,
        tokens_pretty v hvs.1 depth (breaks_cons _ _),
        tokens_prettyMembers (w :: vs) hvs.2 depth hrest]

end

end PenPlotter.Json
