import Bookkeeping.Decimal.Text
import Mathlib.Order.Basic

/-! # Decimals survive their text

Reading takes in the digits of a text from left to right. On the written form of a decimal it finds
room for each of them, and gives back the mantissa and the scale.
-/
namespace Bookkeeping

namespace Text

theorem digit?_of_isDigit {c : Char} (h : c.isDigit = true) :
    digit? c = some (c.toNat - '0'.toNat) := by
  have hc : '0' ≤ c ∧ c ≤ '9' := by simpa [Char.isDigit, Char.le_def] using h
  exact if_pos hc

theorem isDigit_of_mem_paddedText {width n : Nat} {c : Char}
    (h : c ∈ (paddedText width n).toList) : c.isDigit = true := by
  simp only [paddedText, String.toList_ofList, List.mem_append] at h
  rcases h with h | h
  · rw [List.eq_of_mem_replicate h]
    decide
  · exact Nat.isDigit_of_mem_toDigits (by decide) (by decide) h

theorem length_paddedText {width n : Nat} (hw : 0 < width) (hn : n < pow10 width) :
    (paddedText width n).toList.length = width := by
  have hle := (Nat.length_toDigits_le_iff (by decide) hw).mpr hn
  simp only [paddedText, String.toList_ofList, List.length_append, List.length_replicate]
  omega

theorem ofDigitChars_paddedText (width n : Nat) :
    Nat.ofDigitChars 10 (paddedText width n).toList 0 = n := by
  simp [paddedText, Nat.ofDigitChars_append]

theorem le_ofDigitChars (cs : List Char) (n : Nat) : n ≤ Nat.ofDigitChars 10 cs n := by
  induction cs generalizing n with
  | nil => simp
  | cons c rest ih =>
    rw [Nat.ofDigitChars_cons]
    have hle : n ≤ 10 * n + (c.toNat - '0'.toNat) := by omega
    exact Nat.le_trans hle (ih _)

end Text

namespace Decimal
open Bookkeeping.Text

theorem Scan.run_digits (s : Scan) (cs rest : List Char)
    (hcs : ∀ c ∈ cs, c.isDigit = true)
    (hroom : Nat.ofDigitChars 10 cs s.mantissa < mantissaBound)
    (hscale : s.point = true → s.scale + cs.length ≤ maxScale) :
    ∃ wide, s.run (cs ++ rest) = Scan.run
      { mantissa := Nat.ofDigitChars 10 cs s.mantissa
        scale := if s.point then s.scale + cs.length else s.scale
        point := s.point
        digits := s.digits || !cs.isEmpty
        wide } rest := by
  induction cs generalizing s with
  | nil => exact ⟨s.wide, by simp⟩
  | cons c cs ih =>
    obtain ⟨hc, hcs⟩ := List.forall_mem_cons.mp hcs
    have hd := digit?_of_isDigit hc
    rw [Nat.ofDigitChars_cons] at hroom ⊢
    generalize c.toNat - '0'.toNat = d at hd hroom ⊢
    have hpush : (s.push d).mantissa = 10 * s.mantissa + d := by
      rw [Scan.push, Nat.mul_comm]
    have hhas : s.HasRoom d := by
      refine ⟨?_, fun h => ?_⟩
      · have hle := le_ofDigitChars cs (10 * s.mantissa + d)
        omega
      · have hle := hscale h.1
        rw [h.2, List.length_cons] at hle
        omega
    have hrun : s.run (c :: cs ++ rest) = (s.push d).run (cs ++ rest) := by
      rw [List.cons_append, Scan.run, hd]
      exact if_pos hhas
    have hscale' : (s.push d).point = true → (s.push d).scale + cs.length ≤ maxScale := by
      intro hp
      have hp : s.point = true := hp
      have hle := hscale hp
      simp only [Scan.push, hp, if_true, List.length_cons] at hle ⊢
      omega
    obtain ⟨wide, hwide⟩ := ih (s.push d) hcs (by rwa [hpush]) hscale'
    refine ⟨wide, ?_⟩
    rw [hrun, hwide, hpush]
    cases hp : s.point <;> simp [Scan.push, hp, Nat.add_assoc, Nat.add_comm 1]

theorem Scan.run_point (s : Scan) (hs : s.point = false) (rest : List Char) :
    s.run ('.' :: rest) = Scan.run { s with point := true } rest := by
  have hd : digit? '.' = none := by decide
  rw [Scan.run, hd]
  simp [hs]

theorem splitSign_of_isDigit {c : Char} (h : c.isDigit = true) (rest : List Char) :
    splitSign (c :: rest) = (false, c :: rest) := by
  unfold splitSign
  split
  · rename_i he
    cases he
    cases h
  · rename_i he
    cases he
    cases h
  · rfl

theorem toList_naturalText (n : Nat) : (naturalText n).toList = Nat.toDigits 10 n := by
  simp [naturalText]

theorem isDigit_of_mem_toDigits {n : Nat} {c : Char} (h : c ∈ Nat.toDigits 10 n) :
    c.isDigit = true :=
  Nat.isDigit_of_mem_toDigits (by decide) (by decide) h

theorem run_digitsText {scale n : Nat} (hn : n < mantissaBound) (hs : scale ≤ maxScale) :
    ({} : Scan).run (digitsText scale n).toList = .ok (n, scale) := by
  unfold digitsText
  split
  · rename_i hzero
    subst hzero
    obtain ⟨wide, hwide⟩ := Scan.run_digits {} (Nat.toDigits 10 n) []
      (fun c => isDigit_of_mem_toDigits) (by simpa using hn) (by simp)
    rw [List.append_nil] at hwide
    rw [toList_naturalText, hwide]
    simp [Scan.run]
  · rename_i hpos
    have hlt : n % 10 ^ scale < 10 ^ scale := Nat.mod_lt _ (Nat.pow_pos (by decide))
    have hlength := length_paddedText (Nat.pos_of_ne_zero hpos) hlt
    have hvalue : Nat.ofDigitChars 10 (paddedText scale (n % 10 ^ scale)).toList (n / 10 ^ scale) =
        n := by
      rw [Nat.ofDigitChars_eq_ofDigitChars_zero, ofDigitChars_paddedText, hlength]
      exact Nat.div_add_mod n (10 ^ scale)
    change Scan.run {} (naturalText (n / 10 ^ scale) ++ "." ++
      paddedText scale (n % 10 ^ scale)).toList = _
    -- the digits before the point
    obtain ⟨wide, hwide⟩ := Scan.run_digits {} (Nat.toDigits 10 (n / 10 ^ scale))
      ('.' :: (paddedText scale (n % 10 ^ scale)).toList) (fun c => isDigit_of_mem_toDigits)
      (by simpa using Nat.lt_of_le_of_lt (Nat.div_le_self n _) hn) (by simp)
    -- the digits after it
    obtain ⟨wide', hwide'⟩ := Scan.run_digits ⟨n / 10 ^ scale, 0, true, true, wide⟩
      (paddedText scale (n % 10 ^ scale)).toList [] (fun c => isDigit_of_mem_paddedText)
      (by simpa [hvalue] using hn) (by simpa [hlength] using hs)
    rw [List.append_nil] at hwide'
    simp only [Nat.ofDigitChars_ten_toDigits] at hwide
    rw [String.toList_append, String.toList_append, toList_naturalText, List.append_assoc]
    refine hwide.trans ?_
    have hne : (Nat.toDigits 10 (n / 10 ^ scale)).isEmpty = false :=
      List.isEmpty_eq_false_iff.mpr Nat.toDigits_ne_nil
    simp only [hne, hvalue, hlength, Bool.false_eq_true, if_false, if_true, Bool.not_false,
      Bool.or_true, Bool.true_or, Nat.zero_add] at hwide' ⊢
    rw [Scan.run_point _ rfl, hwide', Scan.run]
    rfl

theorem exists_cons_digitsText (scale n : Nat) :
    ∃ c rest, (digitsText scale n).toList = c :: rest ∧ c.isDigit = true := by
  have hfirst (m : Nat) (tail : List Char) :
      ∃ c rest, Nat.toDigits 10 m ++ tail = c :: rest ∧ c.isDigit = true := by
    obtain ⟨c, rest, hc⟩ := List.exists_cons_of_ne_nil (Nat.toDigits_ne_nil (n := m) (b := 10))
    exact ⟨c, rest ++ tail, by rw [hc, List.cons_append],
      isDigit_of_mem_toDigits (hc ▸ List.mem_cons_self)⟩
  unfold digitsText
  split
  · simpa [toList_naturalText] using hfirst n []
  · rw [String.toList_append, String.toList_append, toList_naturalText, List.append_assoc]
    exact hfirst _ _

theorem ofParts?_self (a : Decimal) : ofParts? a.mantissa a.scale = some a :=
  ofParts?_eq_some_iff.mpr ⟨rfl, rfl⟩

/-- A text without an exponent is read as it stands. -/
theorem parsePlain_eq {cs digits : List Char} (negative : Bool) {n scale : Nat} {a : Decimal}
    (hne : cs ≠ []) (hsign : splitSign cs = (negative, digits))
    (hrun : ({} : Scan).run digits = .ok (n, scale))
    (hparts : ofParts? (signed negative n) scale = some a) : parsePlain cs = .ok a := by
  have he : cs.isEmpty = false := List.isEmpty_eq_false_iff.mpr hne
  simp only [parsePlain, he, hsign]
  simp [hrun, hparts, bind, Except.bind, pure, Except.pure]

/-- Every decimal is read back from its text. -/
theorem parse_text (a : Decimal) : parse a.text = .ok a := by
  have hrun := run_digitsText a.mantissa_lt a.scale_le
  obtain ⟨c, rest, hcons, hc⟩ := exists_cons_digitsText a.scale a.mantissa.natAbs
  have hplain : parsePlain a.text.toList = .ok a := by
    unfold text
    split
    · rename_i hneg
      have hsigned : signed true a.mantissa.natAbs = a.mantissa := by
        simp only [signed, if_true]
        omega
      refine parsePlain_eq true ?_ ?_ hrun (by rw [hsigned, ofParts?_self])
      · simp
      · rw [String.toList_append]
        rfl
    · rename_i hpos
      have hsigned : signed false a.mantissa.natAbs = a.mantissa := by
        simp only [signed, Bool.false_eq_true, if_false]
        omega
      refine parsePlain_eq false ?_ ?_ hrun (by rw [hsigned, ofParts?_self])
      · simp [hcons]
      · rw [hcons, splitSign_of_isDigit hc]
  rw [parse, parseList, hplain]

end Decimal

end Bookkeeping
