import Mathlib.Data.List.Induction
import PenPlotter.Proofs.NormalForm

/-!
# The grammar of command tokens

A *numeral* is a digit, or a numeral with one more digit behind it; leading zeros are digits like
all others.  `Command.Reads s r` says what the text `s` is read as, a command or an error, without
saying how it is read: the letter `m`, `r` or `l` wants a numeral whose value fits a 32-bit word, and
a turn is the normal one of its degrees (`NormalFor`).

* `magnitude?_eq_some_iff`: a magnitude is read from exactly the numerals of a word.
* `normalFor_iff`: every angle has one normal turn.
* `ofToken_eq_iff`: a text is read as the grammar says, and as nothing else.
* `token_injective`: different commands have different tokens.

**Main statement** (`ofToken_grammar`): this, and that a token that has been read and written again
is read as the same command.
-/

namespace PenPlotter

namespace Numeric

/-! ### Numerals -/

/-- The characters are a numeral of the number. -/
inductive Numeral : List Char → Nat → Prop where
  | digit {d : Nat} (hd : d < 10) : Numeral [digitChar d] d
  | more {cs : List Char} {v d : Nat} (h : Numeral cs v) (hd : d < 10) :
      Numeral (cs ++ [digitChar d]) (10 * v + d)

theorem digitValue_lt {c : Char} (h : c.isDigit = true) : digitValue c < 10 := by
  simp only [Char.isDigit, Bool.and_eq_true, decide_eq_true_iff] at h
  have h₂ : c.toNat ≤ 57 := h.2
  simp only [digitValue]
  omega

theorem digitChar_digitValue {c : Char} (h : c.isDigit = true) : digitChar (digitValue c) = c := by
  simp only [Char.isDigit, Bool.and_eq_true, decide_eq_true_iff] at h
  have h₁ : 48 ≤ c.toNat := h.1
  rw [digitChar, digitValue, Nat.add_sub_cancel' h₁, Char.ofNat_toNat]

/-- A numeral is a run of digits, and its number is their value. -/
theorem numeral_iff {cs : List Char} {v : Nat} :
    Numeral cs v ↔ cs ≠ [] ∧ cs.all Char.isDigit = true ∧ ofDigits cs = v := by
  constructor
  · intro h
    induction h with
    | @digit d hd =>
        refine ⟨by simp, ?_, ?_⟩
        · simpa using isDigit_digitChar hd
        · simp [ofDigits, digitValue_digitChar hd]
    | @more cs v d _ hd ih =>
        obtain ⟨-, hdigits, hvalue⟩ := ih
        refine ⟨by simp, ?_, ?_⟩
        · rw [List.all_append, hdigits]
          simpa using isDigit_digitChar hd
        · rw [ofDigits_concat, hvalue, digitValue_digitChar hd]
  · rintro ⟨hne, hdigits, rfl⟩
    induction cs using List.reverseRecOn with
    | nil => exact absurd rfl hne
    | append_singleton cs c ih =>
        rw [List.all_append, Bool.and_eq_true] at hdigits
        obtain ⟨hcs, hc⟩ := hdigits
        have hdigit : c.isDigit = true := by simpa using hc
        rw [ofDigits_concat]
        by_cases hnil : cs = []
        · subst hnil
          have hone := Numeral.digit (digitValue_lt hdigit)
          rw [digitChar_digitValue hdigit] at hone
          simpa [ofDigits] using hone
        · have hmore := Numeral.more (ih hnil hcs) (digitValue_lt hdigit)
          rwa [digitChar_digitValue hdigit] at hmore

end Numeric

open Numeric

/-- A magnitude is read from the numerals of a word. -/
theorem magnitude?_eq_some_iff {cs : List Char} {m : UInt32} :
    magnitude? cs = some m ↔ Numeral cs m.toNat := by
  rw [magnitude?, numeral_iff]
  constructor
  · intro h
    split at h
    case isTrue hm =>
      obtain ⟨hne, hdigits, hlt⟩ := hm
      cases h
      exact ⟨hne, hdigits, (UInt32.toNat_ofNat_of_lt' hlt).symm⟩
    case isFalse => cases h
  · rintro ⟨hne, hdigits, hvalue⟩
    rw [if_pos ⟨hne, hdigits, hvalue ▸ m.toNat_lt_size⟩, hvalue, UInt32.ofNat_toNat]

/-- No magnitude is read from anything else. -/
theorem magnitude?_eq_none_iff {cs : List Char} :
    magnitude? cs = none ↔ ∀ v < UInt32.size, ¬ Numeral cs v := by
  constructor
  · intro hnone v hv h
    have hm : (UInt32.ofNat v).toNat = v := UInt32.toNat_ofNat_of_lt' hv
    rw [← hm, ← magnitude?_eq_some_iff, hnone] at h
    cases h
  · intro h
    cases hm : magnitude? cs with
    | none => rfl
    | some m => exact absurd (magnitude?_eq_some_iff.mp hm) (h m.toNat m.toNat_lt_size)

/-! ### Normal turns -/

/-- The turn lies in (−180, 180] and faces the same way as a turn by the degrees. -/
structure NormalFor (degrees : Int) (t : Int16) : Prop where
  lower : -180 < t.toInt
  upper : t.toInt ≤ 180
  faces : 360 ∣ t.toInt - degrees

/-- Every angle has one normal turn. -/
theorem normalFor_iff {degrees : Int} {t : Int16} :
    NormalFor degrees t ↔ t = normalTurn degrees := by
  constructor
  · rintro ⟨hlower, hupper, hfaces⟩
    rw [← normalTurn_toInt hlower hupper]
    exact normalTurn_congr (by omega)
  · rintro rfl
    have hrange := normalTurn_range degrees
    have hmod := normalTurn_emod degrees
    exact ⟨hrange.1, hrange.2, by omega⟩

/-- Full circles do not count in a magnitude. -/
theorem normalTurn_mul_mod (sign : Int) (v : Nat) :
    normalTurn (sign * (v % 360 : Nat)) = normalTurn (sign * v) := by
  have hmod : ((v % 360 : Nat) : Int) % 360 = v % 360 := by omega
  refine normalTurn_congr ?_
  rw [Int.mul_emod, hmod, ← Int.mul_emod]

namespace Command

/-! ### Tokens -/

/-- What a text is read as. -/
inductive Reads (s : String) : Except TokenError Command → Prop where
  | penUp (h : s = "u") : Reads s (.ok .penUp)
  | penDown (h : s = "d") : Reads s (.ok .penDown)
  | move {ds : List Char} {v : UInt32} (h : s.toList = 'm' :: ds) (hv : Numeral ds v.toNat) :
      Reads s (.ok (.move v))
  | right {ds : List Char} {v : Nat} {t : Int16} (h : s.toList = 'r' :: ds) (hv : Numeral ds v)
      (hlt : v < UInt32.size) (ht : NormalFor v t) : Reads s (.ok (.rotate t))
  | left {ds : List Char} {v : Nat} {t : Int16} (h : s.toList = 'l' :: ds) (hv : Numeral ds v)
      (hlt : v < UInt32.size) (ht : NormalFor (-v) t) : Reads s (.ok (.rotate t))
  | empty (h : s = "") : Reads s (.error .empty)
  /-- The letter of a turn or a move, but no numeral of a word. -/
  | invalidMagnitude {letter : Char} {ds : List Char} (h : s.toList = letter :: ds)
      (hletter : letter ∈ ['r', 'l', 'm']) (hds : ∀ v < UInt32.size, ¬ Numeral ds v) :
      Reads s (.error (.invalidMagnitude s))
  /-- Every other text. -/
  | unknown {first : Char} {rest : List Char} (h : s.toList = first :: rest)
      (hfirst : first ∉ ['r', 'l', 'm']) (hup : s ≠ "u") (hdown : s ≠ "d") :
      Reads s (.error (.unknown s))

theorem exists_magnitude?_eq {ds : List Char} {v : Nat} (h : Numeral ds v)
    (hlt : v < UInt32.size) : ∃ m : UInt32, m.toNat = v ∧ magnitude? ds = some m := by
  have hm : (UInt32.ofNat v).toNat = v := UInt32.toNat_ofNat_of_lt' hlt
  exact ⟨UInt32.ofNat v, hm, magnitude?_eq_some_iff.mpr (hm.symm ▸ h)⟩

theorem reads_ofToken (s : String) : Reads s (ofToken s) := by
  simp only [ofToken]
  split
  case h_1 h => exact .empty (String.toList_eq_nil_iff.mp h)
  case h_2 h => exact .penUp (String.toList_inj.mp h)
  case h_3 h => exact .penDown (String.toList_inj.mp h)
  case h_4 rest h =>
    split
    case h_1 m hm =>
      have hv := magnitude?_eq_some_iff.mp hm
      refine .right h hv m.toNat_lt_size (normalFor_iff.mpr ?_)
      rw [normalTurn_mul_mod, Int.one_mul]
    case h_2 hm => exact .invalidMagnitude h (by simp) (magnitude?_eq_none_iff.mp hm)
  case h_5 rest h =>
    split
    case h_1 m hm =>
      have hv := magnitude?_eq_some_iff.mp hm
      refine .left h hv m.toNat_lt_size (normalFor_iff.mpr ?_)
      rw [normalTurn_mul_mod, Int.neg_one_mul]
    case h_2 hm => exact .invalidMagnitude h (by simp) (magnitude?_eq_none_iff.mp hm)
  case h_6 rest h =>
    split
    case h_1 m hm => exact .move h (magnitude?_eq_some_iff.mp hm)
    case h_2 hm => exact .invalidMagnitude h (by simp) (magnitude?_eq_none_iff.mp hm)
  case h_7 hempty hup hdown hright hleft hmove =>
    obtain ⟨first, rest, h⟩ := List.exists_cons_of_ne_nil hempty
    refine .unknown h ?_ ?_ ?_
    · intro hfirst
      simp only [List.mem_cons, List.not_mem_nil, or_false] at hfirst
      rcases hfirst with rfl | rfl | rfl
      · exact hright rest h
      · exact hleft rest h
      · exact hmove rest h
    · rintro rfl
      exact hup rfl
    · rintro rfl
      exact hdown rfl

theorem ofToken_of_reads {s : String} {r : Except TokenError Command} (h : Reads s r) :
    ofToken s = r := by
  cases h with
  | penUp h => subst h; rfl
  | penDown h => subst h; rfl
  | empty h => subst h; rfl
  | move h hv => simp only [ofToken, h, magnitude?_eq_some_iff.mpr hv]
  | right h hv hlt ht =>
      obtain ⟨m, rfl, hm⟩ := exists_magnitude?_eq hv hlt
      simp only [ofToken, h, hm]
      rw [normalTurn_mul_mod, Int.one_mul, normalFor_iff.mp ht]
  | left h hv hlt ht =>
      obtain ⟨m, rfl, hm⟩ := exists_magnitude?_eq hv hlt
      simp only [ofToken, h, hm]
      rw [normalTurn_mul_mod, Int.neg_one_mul, normalFor_iff.mp ht]
  | invalidMagnitude h hletter hds =>
      have hm := magnitude?_eq_none_iff.mpr hds
      simp only [List.mem_cons, List.not_mem_nil, or_false] at hletter
      rcases hletter with rfl | rfl | rfl <;> simp only [ofToken, h, hm]
  | @unknown first rest h hfirst hup hdown =>
      have hne : ∀ letter ∈ ['r', 'l', 'm'], ∀ ds, s.toList ≠ letter :: ds := by
        rintro letter hletter ds hs
        rw [h] at hs
        exact hfirst ((List.cons.inj hs).1 ▸ hletter)
      simp only [ofToken]
      split
      case h_1 hs => rw [h] at hs; cases hs
      case h_2 hs => exact absurd (String.toList_inj.mp hs) hup
      case h_3 hs => exact absurd (String.toList_inj.mp hs) hdown
      case h_4 ds hs => exact absurd hs (hne 'r' (by simp) ds)
      case h_5 ds hs => exact absurd hs (hne 'l' (by simp) ds)
      case h_6 ds hs => exact absurd hs (hne 'm' (by simp) ds)
      case h_7 => rfl

/-- **A text is read as the grammar says.** -/
theorem ofToken_eq_iff {s : String} {r : Except TokenError Command} :
    ofToken s = r ↔ Reads s r := by
  constructor
  · rintro rfl
    exact reads_ofToken s
  · exact ofToken_of_reads

/-! ### Writing and reading -/

/-- The letter of a turn gives its side, and its digits give its size. -/
theorem eq_of_tokenChars_rotate {s t : Int16}
    (h : (rotate s).tokenChars = (rotate t).tokenChars) : s = t := by
  obtain ⟨hletter, hdigits⟩ := List.cons.inj h
  have hsize : s.toInt.natAbs = t.toInt.natAbs := digits_injective hdigits
  have hside : s.toInt < 0 ↔ t.toInt < 0 := by
    rw [← Int16.toInt_zero, ← Int16.lt_iff_toInt_lt, ← Int16.lt_iff_toInt_lt]
    by_cases hs : s < 0 <;> by_cases ht : t < 0 <;> simp [hs, ht] at hletter ⊢
  exact Int16.toInt_inj.mp (by omega)

/-- Different commands have different tokens. -/
theorem token_injective : Function.Injective token := by
  intro c d h
  have hnormal : c.normal = d.normal := by
    have hc := ofToken_token c
    rw [h, ofToken_token d] at hc
    exact (Except.ok.inj hc).symm
  -- Commands with the same normal form differ in the size of a turn at most.
  cases c with
  | rotate s =>
      cases d with
      | rotate t => rw [eq_of_tokenChars_rotate (String.ofList_injective h)]
      | _ => cases hnormal
  | _ =>
      cases d with
      | rotate t => cases hnormal
      | _ => exact hnormal

/-- **The grammar of command tokens.**  A text is read as the grammar says, and every angle has one
normal turn, so a text is read as one thing.  The token of a command is read as the command with its
turn in normal form, and different commands have different tokens.  What has been read is read again
from its own token. -/
theorem ofToken_grammar :
    (∀ s r, ofToken s = r ↔ Reads s r) ∧
      (∀ degrees, ∃! t, NormalFor degrees t) ∧
      (∀ c : Command, ofToken c.token = .ok c.normal) ∧
      Function.Injective token ∧
      ∀ s c, ofToken s = .ok c → ofToken c.token = .ok c := by
  refine ⟨fun s r => ofToken_eq_iff, ?_, ofToken_token, token_injective, ?_⟩
  · intro degrees
    refine ⟨normalTurn degrees, normalFor_iff.mpr rfl, fun t ht => normalFor_iff.mp ht⟩
  · intro s c h
    have hc := c.ofToken_token
    rwa [normal_of_ofToken h] at hc

/-- A turn to the left by more than a circle, with leading zeros. -/
theorem ofToken_grammar_left :
    ofToken "l00450" = .ok (.rotate (-90)) ∧ ofToken (rotate (-90)).token = .ok (.rotate (-90)) := by
  have h : ofToken "l00450" = .ok (.rotate (-90)) := by rfl
  exact ⟨h, ofToken_grammar.2.2.2.2 _ _ h⟩

end Command

end PenPlotter
