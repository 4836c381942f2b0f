import Mathlib.Data.List.TakeWhile
import Smartmeter.Firmware.Mqttsndev.Settings

/-!
# Port numbers

Which texts `cmd_gateway_port` takes for a port, and for which one.
-/

namespace Smartmeter
namespace Firmware
namespace Mqttsndev
namespace Settings

structure Numeral (spaces sign digits : List UInt8) : Prop where
  spaces_mem : forall c, c ∈ spaces -> isSpace c
  sign_eq : sign = [] ∨ sign = [0x2B] ∨ sign = [0x2D]
  digits_mem : forall c, c ∈ digits -> isDigit c
  digits_ne_nil : digits ≠ []

def numeralValue (sign digits : List UInt8) : Nat :=
  if sign = [0x2D] then (ulongSize - decimal digits) % ulongSize else decimal digits

theorem not_isSpace_of_isDigit {c : UInt8} (h : isDigit c = true) : ¬ isSpace c = true := by
  unfold isDigit at h
  unfold isSpace
  grind

theorem takeSign_cases (text : List UInt8) :
    exists sign, text = sign ++ (takeSign text).2 ∧
      ((takeSign text).1 = true ∧ sign = [0x2D] ∨
        (takeSign text).1 = false ∧ (sign = [] ∨ sign = [0x2B])) := by
  unfold takeSign
  split
  · exists [0x2D]
    exact ⟨rfl, .inl ⟨rfl, rfl⟩⟩
  · exists [0x2B]
    exact ⟨rfl, .inr ⟨rfl, .inr rfl⟩⟩
  · exists []
    exact ⟨rfl, .inr ⟨rfl, .inl rfl⟩⟩

namespace Numeral

variable {spaces sign digits : List UInt8}

theorem takeSign_eq (h : Numeral spaces sign digits) :
    takeSign (sign ++ digits) = (decide (sign = [0x2D]), digits) := by
  rcases h.sign_eq with rfl | rfl | rfl
  · rcases digits with _ | ⟨c, digits⟩
    · exact absurd rfl h.digits_ne_nil
    · have hdigit := h.digits_mem c List.mem_cons_self
      unfold takeSign isDigit at *
      grind
  · rfl
  · rfl

theorem dropWhile_eq (h : Numeral spaces sign digits) :
    (spaces ++ (sign ++ digits)).dropWhile isSpace = sign ++ digits := by
  rw [List.dropWhile_append_of_pos h.spaces_mem]
  rcases h.sign_eq with rfl | rfl | rfl
  · rcases digits with _ | ⟨c, digits⟩
    · exact absurd rfl h.digits_ne_nil
    · exact List.dropWhile_cons_of_neg (not_isSpace_of_isDigit (h.digits_mem c List.mem_cons_self))
  · rfl
  · rfl

theorem strtoul_eq (h : Numeral spaces sign digits) (einval : Bool) :
    strtoul einval (spaces ++ (sign ++ digits)) =
      if ulongSize ≤ decimal digits then { ret := ulongSize - 1, errno := true, endptr := [] }
      else { ret := numeralValue sign digits, errno := false, endptr := [] } := by
  have htake : digits.takeWhile isDigit = digits := List.takeWhile_eq_self_iff.mpr h.digits_mem
  have hdrop : digits.dropWhile isDigit = [] := List.dropWhile_eq_nil_iff.mpr h.digits_mem
  unfold strtoul numeralValue
  rw [h.dropWhile_eq, h.takeSign_eq]
  dsimp only
  rw [htake, hdrop, if_neg h.digits_ne_nil]
  split
  · rfl
  · by_cases hsign : sign = [0x2D]
    · simp [hsign]
    · simp [hsign]

end Numeral

theorem numeral_of_endptr {einval : Bool} {text : List UInt8}
    (hend : (strtoul einval text).endptr = []) :
    text = [] ∧ strtoul einval text = { ret := 0, errno := einval, endptr := [] } ∨
      exists spaces sign digits, text = spaces ++ (sign ++ digits) ∧
        Numeral spaces sign digits := by
  rcases takeSign_cases (text.dropWhile isSpace) with ⟨sign, htext, hsign⟩
  by_cases hdigits : (takeSign (text.dropWhile isSpace)).2.takeWhile isDigit = []
  · left
    have hstrtoul : strtoul einval text = { ret := 0, errno := einval, endptr := text } :=
      if_pos hdigits
    rw [hstrtoul] at hend
    have hnil : text = [] := hend
    rw [hstrtoul, hnil]
    exact ⟨rfl, rfl⟩
  · right
    have hrest : (takeSign (text.dropWhile isSpace)).2.dropWhile isDigit = [] := by
      unfold strtoul at hend
      grind
    have hsplit := List.takeWhile_append_dropWhile (p := isDigit)
      (l := (takeSign (text.dropWhile isSpace)).2)
    rw [hrest, List.append_nil] at hsplit
    exists text.takeWhile isSpace, sign, (takeSign (text.dropWhile isSpace)).2.takeWhile isDigit
    constructor
    · rw [hsplit, ← htext, List.takeWhile_append_dropWhile]
    · constructor
      · intro c hc
        exact List.mem_takeWhile_imp hc
      · rcases hsign with ⟨_, hsign⟩ | ⟨_, hsign⟩
        · exact .inr (.inr hsign)
        · rcases hsign with hsign | hsign
          · exact .inl hsign
          · exact .inr (.inl hsign)
      · intro c hc
        exact List.mem_takeWhile_imp hc
      · exact hdigits

/--
A port is read from a text exactly if the text is a number that fits into an
`unsigned long`, with blanks and a sign in front of it, whose value is the port;
the value of a negative number wraps around first.  An empty text is port 0
unless `strtoul` tells of it.
-/
theorem portOf_eq_some_iff (einval : Bool) (text : List UInt8) (port : UInt16) :
    portOf einval text = some port <->
      text = [] ∧ einval = false ∧ port = 0 ∨
      exists spaces sign digits, text = spaces ++ (sign ++ digits) ∧
        Numeral spaces sign digits ∧ decimal digits < ulongSize ∧
        numeralValue sign digits = port.toNat := by
  constructor
  · intro h
    unfold portOf at h
    rcases Option.ite_none_left_eq_some.mp h with ⟨hfits, hport⟩
    rcases not_or.mp hfits with ⟨herrno, hfits⟩
    rcases not_or.mp hfits with ⟨hend, hle⟩
    rcases numeral_of_endptr (not_not.mp hend) with ⟨hnil, heq⟩ | ⟨spaces, sign, digits, htext, hnum⟩
    · left
      rw [heq] at herrno hport
      cases hport
      exact ⟨hnil, Bool.eq_false_of_not_eq_true herrno, rfl⟩
    · right
      exists spaces, sign, digits
      rw [htext, hnum.strtoul_eq] at herrno hle hport
      by_cases hbig : ulongSize ≤ decimal digits
      · rw [if_pos hbig] at herrno
        exact absurd rfl herrno
      · rw [if_neg hbig] at hle hport
        have hvalue : numeralValue sign digits < UInt16.size := Nat.lt_succ_of_le (Nat.le_of_not_lt hle)
        cases hport
        exact ⟨htext, hnum, Nat.lt_of_not_le hbig, (UInt16.toNat_ofNat_of_lt hvalue).symm⟩
  · rintro (⟨rfl, rfl, rfl⟩ | ⟨spaces, sign, digits, rfl, hnum, hlt, hvalue⟩)
    · rfl
    · unfold portOf
      rw [hnum.strtoul_eq, if_neg (Nat.not_le.mpr hlt), hvalue]
      have hle : ¬ port.toNat > 0xFFFF := Nat.not_lt.mpr (Nat.le_of_lt_succ port.toNat_lt)
      simp [hle]

end Settings
end Mqttsndev
end Firmware
end Smartmeter
