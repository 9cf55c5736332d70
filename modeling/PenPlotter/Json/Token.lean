import PenPlotter.Numeric.Binary
import PenPlotter.Numeric.Digits

/-!
# JSON tokens

A JSON text is first cut into tokens.  A text that is no JSON still has the tokens up to the place
where it goes wrong; the last one says what is wrong there, so that the reader, which meets tokens
in order, finds the first fault first.

Some faults depend on how closely one looks.  A string is *pieces*: characters, and code units
written in hexadecimal.  Units beyond the basic plane come in pairs; a text that is wanted must
have them paired, while one that is skipped need not.  Likewise a number may be too large to be
wanted but not too large to be skipped.
-/

namespace PenPlotter.Json

/-- What is wrong with a text that is no JSON. -/
inductive Malformed where
  | endInValue
  | endInList
  | endInObject
  | endInText
  | expectedColon
  | expectedCommaOrListEnd
  | expectedCommaOrObjectEnd
  | expectedWord
  | expectedValue
  | invalidEscape
  | invalidNumber
  | numberOutOfRange
  | controlCharacter
  | keyNotText
  | loneSurrogate
  | unfinishedPair
  | trailingComma
  | trailingCharacters
  deriving DecidableEq, Repr

/-- The wording of a fault. -/
def Malformed.message : Malformed → String
  | endInValue => "EOF while parsing a value"
  | endInList => "EOF while parsing a list"
  | endInObject => "EOF while parsing an object"
  | endInText => "EOF while parsing a string"
  | expectedColon => "expected \x60:\x60"
  | expectedCommaOrListEnd => "expected \x60,\x60 or \x60]\x60"
  | expectedCommaOrObjectEnd => "expected \x60,\x60 or \x60\x7d\x60"
  | expectedWord => "expected ident"
  | expectedValue => "expected value"
  | invalidEscape => "invalid escape"
  | invalidNumber => "invalid number"
  | numberOutOfRange => "number out of range"
  | controlCharacter => "control character (\\u0000-\\u001F) found while parsing a string"
  | keyNotText => "key must be a string"
  | loneSurrogate => "lone leading surrogate in hex escape"
  | unfinishedPair => "unexpected end of hex escape"
  | trailingComma => "trailing comma"
  | trailingCharacters => "trailing characters"

/-! ### Strings -/

/-- A part of a string. -/
inductive Piece where
  | char (c : Char)
  /-- A code unit written in hexadecimal. -/
  | unit (n : Nat)
  deriving DecidableEq, Repr

/-- The pieces of a string and what comes after its closing quote. -/
structure TextScan where
  pieces : List Piece
  ending : Except Malformed (List Char)

/-- The scan with one more piece in front. -/
def TextScan.after (p : Piece) (s : TextScan) : TextScan := { s with pieces := p :: s.pieces }

/-- The character that a letter after a backslash stands for. -/
def escaped? : Char → Option Char
  | '"' => some '"'
  | '\\' => some '\\'
  | '/' => some '/'
  | 'b' => some (Char.ofNat 8)
  | 'f' => some (Char.ofNat 12)
  | 'n' => some '\n'
  | 'r' => some '\r'
  | 't' => some '\t'
  | _ => none

/-- The value of a hexadecimal digit. -/
def hexValue? (c : Char) : Option Nat :=
  let n := c.toNat
  if 48 ≤ n ∧ n ≤ 57 then some (n - 48)
  else if 65 ≤ n ∧ n ≤ 70 then some (n - 55)
  else if 97 ≤ n ∧ n ≤ 102 then some (n - 87)
  else none

/-- The value of four hexadecimal digits. -/
def hexUnit? (a b c d : Char) : Option Nat := do
  let a ← hexValue? a
  let b ← hexValue? b
  let c ← hexValue? c
  let d ← hexValue? d
  return ((a * 16 + b) * 16 + c) * 16 + d

/-- Scan a string from behind its opening quote. -/
def scanText : List Char → TextScan
  | [] => ⟨[], .error .endInText⟩
  | '"' :: rest => ⟨[], .ok rest⟩
  | '\\' :: 'u' :: a :: b :: c :: d :: rest =>
    match hexUnit? a b c d with
    | some n => (scanText rest).after (.unit n)
    | none => ⟨[], .error .invalidEscape⟩
  | '\\' :: 'u' :: _ => ⟨[], .error .endInText⟩
  | ['\\'] => ⟨[], .error .endInText⟩
  | '\\' :: c :: rest =>
    match escaped? c with
    | some e => (scanText rest).after (.char e)
    | none => ⟨[], .error .invalidEscape⟩
  | c :: rest =>
    if c.toNat < 0x20 then ⟨[], .error .controlCharacter⟩ else (scanText rest).after (.char c)

/-- The first half of a pair of code units. -/
def isLeading (n : Nat) : Bool := 0xD800 ≤ n && n ≤ 0xDBFF

/-- The second half of a pair of code units. -/
def isTrailing (n : Nat) : Bool := 0xDC00 ≤ n && n ≤ 0xDFFF

/-- The character of a pair of code units. -/
def pairChar (lead trail : Nat) : Char :=
  Char.ofNat (0x10000 + (lead - 0xD800) * 0x400 + (trail - 0xDC00))

/-- The characters of the pieces of a string; `ending` is wrong where a pair is cut off by the end
of the pieces. -/
def joinPieces (ending : Malformed) : List Piece → Except Malformed (List Char)
  | [] => .ok []
  | .char c :: rest => (joinPieces ending rest).map (c :: ·)
  | .unit n :: rest =>
    if isTrailing n then .error .loneSurrogate
    else if isLeading n then
      match rest with
      | [] => .error ending
      | .char _ :: _ => .error .unfinishedPair
      | .unit m :: rest =>
        if isTrailing m then (joinPieces ending rest).map (pairChar n m :: ·)
        else .error .loneSurrogate
    else (joinPieces ending rest).map (Char.ofNat n :: ·)

/-- A string, or what is wrong with it when it is wanted. -/
abbrev Text := Except Malformed String

/-! ### Numbers -/

/-- A number as it is written: its digits without the point, and the power of ten they count. -/
structure Numeral where
  negative : Bool
  digits : Nat
  exponent : Int
  /-- There is neither a point nor an exponent. -/
  isInteger : Bool
  deriving DecidableEq, Repr

/-- The value of a number: integers that fit 64 bits, signed or not, are exact, but there is no
negative zero among them. -/
inductive Number where
  | integer (value : Int)
  | real (value : Numeric.Double)
  deriving DecidableEq, Repr

/-- The value of a numeral, unless it is beyond every finite number of double precision. -/
def Numeral.value? (n : Numeral) : Option Number :=
  let value : Int := if n.negative then -n.digits else n.digits
  if n.isInteger ∧ ¬ (n.negative ∧ n.digits = 0) ∧ Int64.minValue.toInt ≤ value
      ∧ value < UInt64.size then
    some (.integer value)
  else
    let d : Numeric.Double := Numeric.Binary.ofDecimal n.negative n.digits n.exponent
    if d.isFinite then some (.real d) else none

/-- The digits at the front of a text and what comes after them. -/
def spanDigits (cs : List Char) : List Char × List Char :=
  (cs.takeWhile Char.isDigit, cs.dropWhile Char.isDigit)

/-- Scan digits, of which there must be one at least. -/
def scanDigits (cs : List Char) : Except Malformed (List Char × List Char) :=
  let s := spanDigits cs
  if s.1.isEmpty then .error (if s.2.isEmpty then .endInValue else .invalidNumber) else .ok s

/-- Scan the digits of the whole part: a zero stands alone. -/
def scanWhole (cs : List Char) : Except Malformed (List Char × List Char) :=
  match scanDigits cs with
  | .error m => .error m
  | .ok s => if s.1.head? = some '0' ∧ 1 < s.1.length then .error .invalidNumber else .ok s

/-- Scan the digits behind a point, if there is one. -/
def scanFraction (cs : List Char) : Except Malformed (List Char × List Char) :=
  match cs with
  | '.' :: cs => scanDigits cs
  | cs => .ok ([], cs)

/-- Take a sign off the front of an exponent. -/
def exponentSign : List Char → Bool × List Char
  | '-' :: cs => (true, cs)
  | '+' :: cs => (false, cs)
  | cs => (false, cs)

/-- Scan the exponent, if there is one. -/
def scanExponent (cs : List Char) : Except Malformed (Option Int × List Char) :=
  match cs with
  | c :: cs' =>
    if c = 'e' ∨ c = 'E' then
      let (negative, cs') := exponentSign cs'
      match scanDigits cs' with
      | .error m => .error m
      | .ok (ds, rest) =>
        let n : Int := Numeric.ofDigits ds
        .ok (some (if negative then -n else n), rest)
    else .ok (none, cs)
  | [] => .ok (none, [])

/-- Scan a number. -/
def scanNumber (cs : List Char) : Except Malformed (Numeral × List Char) := do
  let (negative, cs) := match cs with
    | '-' :: cs => (true, cs)
    | cs => (false, cs)
  let (whole, cs) ← scanWhole cs
  let (fraction, cs) ← scanFraction cs
  let (exponent, cs) ← scanExponent cs
  return (⟨negative, Numeric.ofDigits (whole ++ fraction), exponent.getD 0 - fraction.length,
    fraction.isEmpty && exponent.isNone⟩, cs)

/-! ### Tokens -/

/-- A token of a JSON text. -/
inductive Token where
  | beginList
  | endList
  | beginObject
  | endObject
  | comma
  | colon
  | null
  | bool (value : Bool)
  | number (numeral : Numeral)
  | text (value : Text)
  /-- A string that does not end: what is wrong when it is wanted and when it is skipped. -/
  | brokenText (strict lenient : Malformed)
  /-- What starts no token. -/
  | broken (fault : Malformed)

/-- The characters that may stand between tokens. -/
def isBlank (c : Char) : Bool := c == ' ' || c == '\t' || c == '\n' || c == '\r'

/-- The rest of a text after a word, the first letter of which has been met. -/
def scanWord : List Char → List Char → Except Malformed (List Char)
  | [], rest => .ok rest
  | _ :: _, [] => .error .endInValue
  | w :: word, c :: rest => if w = c then scanWord word rest else .error .expectedWord

/-- The token of a word that must follow, and the text after it. -/
def wordToken (word : String) (t : Token) (rest : List Char) : Token × List Char :=
  match scanWord word.toList rest with
  | .ok rest => (t, rest)
  | .error m => (.broken m, [])

/-- The token of a string from behind its opening quote, and the text after it. -/
def textToken (rest : List Char) : Token × List Char :=
  let scan := scanText rest
  match scan.ending with
  | .ok rest => (.text ((joinPieces .unfinishedPair scan.pieces).map String.ofList), rest)
  | .error lenient =>
    match joinPieces lenient scan.pieces with
    | .ok _ => (.brokenText lenient lenient, [])
    | .error strict => (.brokenText strict lenient, [])

/-- The token of a number, and the text after it. -/
def numberToken (cs : List Char) : Token × List Char :=
  match scanNumber cs with
  | .ok (n, rest) => (.number n, rest)
  | .error m => (.broken m, [])

/-- The token that starts with a character, and the text after it; nothing is read after a token
that says what is wrong. -/
def nextToken (c : Char) (rest : List Char) : Token × List Char :=
  match c with
  | '[' => (.beginList, rest)
  | ']' => (.endList, rest)
  | '\x7b' => (.beginObject, rest)
  | '\x7d' => (.endObject, rest)
  | ',' => (.comma, rest)
  | ':' => (.colon, rest)
  | '"' => textToken rest
  | 'n' => wordToken "ull" .null rest
  | 't' => wordToken "rue" (.bool true) rest
  | 'f' => wordToken "alse" (.bool false) rest
  | c => if c = '-' ∨ c.isDigit then numberToken (c :: rest) else (.broken .expectedValue, [])

/-! ### Every token takes a character -/

theorem length_scanText {cs rest : List Char} (h : (scanText cs).ending = .ok rest) :
    rest.length < cs.length := by
  fun_induction scanText cs with
  | case1 => cases h
  | case2 r => cases h; simp
  | case3 a b c d r n hn ih =>
    have := ih h
    simp only [List.length_cons]
    omega
  | case4 => cases h
  | case5 => cases h
  | case6 => cases h
  | case7 c r _ _ e he ih =>
    have := ih h
    simp only [List.length_cons]
    omega
  | case8 => cases h
  | case9 => cases h
  | case10 c r _ _ _ _ _ _ ih =>
    have := ih h
    simp only [List.length_cons]
    omega

theorem length_spanDigits (cs : List Char) :
    (spanDigits cs).1.length + (spanDigits cs).2.length = cs.length := by
  simp only [spanDigits, ← List.length_append, List.takeWhile_append_dropWhile]

theorem length_scanDigits {cs ds rest : List Char} (h : scanDigits cs = .ok (ds, rest)) :
    rest.length < cs.length := by
  have hlen := length_spanDigits cs
  unfold scanDigits at h
  simp only at h
  split at h
  · cases h
  · rename_i hne
    injection h with h
    rw [h] at hlen hne
    simp only at hlen hne
    have := List.length_pos_iff.mpr (fun e => hne (List.isEmpty_iff.mpr e))
    omega

theorem length_scanWhole {cs ds rest : List Char} (h : scanWhole cs = .ok (ds, rest)) :
    rest.length < cs.length := by
  unfold scanWhole at h
  split at h
  · cases h
  · rename_i s hs
    split at h
    · cases h
    · cases h
      exact length_scanDigits hs

theorem length_scanFraction {cs ds rest : List Char} (h : scanFraction cs = .ok (ds, rest)) :
    rest.length ≤ cs.length := by
  unfold scanFraction at h
  split at h
  · have := length_scanDigits h
    simp only [List.length_cons]
    omega
  · cases h
    exact Nat.le_refl _

theorem length_exponentSign (cs : List Char) : (exponentSign cs).2.length ≤ cs.length := by
  unfold exponentSign
  split <;> simp

theorem length_scanExponent {cs rest : List Char} {e : Option Int}
    (h : scanExponent cs = .ok (e, rest)) : rest.length ≤ cs.length := by
  unfold scanExponent at h
  split at h
  · rename_i c cs'
    split at h
    · have hsign := length_exponentSign cs'
      simp only at h
      split at h
      · cases h
      · rename_i hs
        cases h
        have := length_scanDigits hs
        simp only [List.length_cons]
        omega
    · cases h
      exact Nat.le_refl _
  · cases h
    exact Nat.le_refl _

theorem length_scanNumber {cs rest : List Char} {n : Numeral}
    (h : scanNumber cs = .ok (n, rest)) : rest.length < cs.length := by
  unfold scanNumber at h
  simp only [bind, Except.bind, pure, Except.pure] at h
  split at h
  · cases h
  · rename_i w hw
    split at h
    · cases h
    · rename_i f hf
      split at h
      · cases h
      · rename_i e he
        cases h
        have h₁ := length_scanWhole hw
        have h₂ := length_scanFraction hf
        have h₃ := length_scanExponent he
        split at h₁ <;> simp only [List.length_cons] at * <;> omega

theorem length_scanWord {word cs rest : List Char} (h : scanWord word cs = .ok rest) :
    rest.length ≤ cs.length := by
  fun_induction scanWord word cs with
  | case1 => cases h; exact Nat.le_refl _
  | case2 => cases h
  | case3 word c r ih =>
    have := ih h
    simp only [List.length_cons]
    omega
  | case4 => cases h

theorem length_wordToken (word : String) (t : Token) (rest : List Char) :
    (wordToken word t rest).2.length ≤ rest.length := by
  unfold wordToken
  split
  · rename_i h
    exact length_scanWord h
  · exact Nat.zero_le _

theorem length_textToken (rest : List Char) : (textToken rest).2.length ≤ rest.length := by
  unfold textToken
  simp only
  split
  · rename_i h
    exact Nat.le_of_lt (length_scanText h)
  · split <;> exact Nat.zero_le _

theorem length_numberToken (cs : List Char) (h : cs ≠ []) :
    (numberToken cs).2.length < cs.length := by
  unfold numberToken
  split
  · rename_i hs
    exact length_scanNumber hs
  · exact List.length_pos_iff.mpr h

/-- What comes after a token is shorter than what starts with it. -/
theorem length_nextToken (c : Char) (rest : List Char) :
    (nextToken c rest).2.length ≤ rest.length := by
  unfold nextToken
  split
  case h_7 => exact length_textToken _
  case h_8 | h_9 | h_10 => exact length_wordToken _ _ _
  case h_11 =>
    split
    · exact Nat.le_of_lt_succ (length_numberToken _ (List.cons_ne_nil _ _))
    · exact Nat.zero_le _
  all_goals exact Nat.le_refl _

/-- The tokens of a text. -/
def tokens : List Char → List Token
  | [] => []
  | c :: rest =>
    if isBlank c then tokens rest
    else
      let next := nextToken c rest
      next.1 :: tokens next.2
termination_by cs => cs.length
decreasing_by
  · simp
  · have := length_nextToken c rest
    simp only [List.length_cons]
    omega

end PenPlotter.Json
