import Bookkeeping.Proofs.DecimalText
import Bookkeeping.Proofs.Results
import Bookkeeping.Settings

/-! # Settings from variables

What a text says once its blanks are cut off does not depend on how it was read. Each setting follows from
the text of its own variable, and the first variable that says nothing acceptable is reported.
-/
namespace Bookkeeping

namespace Text

variable {c : Char} {cs : List Char} {limit value n m d : ℕ} {s padded : String}

/-! ## Numbers in digits -/

/-- Decimal digits, at least one. -/
def Numeral (digits : List Char) (n : ℕ) : Prop :=
  digits ≠ [] ∧ (∀ c ∈ digits, c.isDigit = true) ∧ Nat.ofDigitChars 10 digits 0 = n

/-- Decimal digits after a plus sign or without one. -/
def Denotes (cs : List Char) (n : ℕ) : Prop :=
  Numeral cs n ∨ ∃ digits, cs = '+' :: digits ∧ Numeral digits n

theorem digit?_eq_some_iff : digit? c = some d ↔ c.isDigit = true ∧ c.toNat - '0'.toNat = d := by
  constructor
  · intro h
    have hdigit : c.isDigit = true := by
      unfold digit? at h
      split at h
      · rename_i hc
        simpa [Char.isDigit, Char.le_def] using hc
      · cases h
    rw [digit?_of_isDigit hdigit] at h
    exact ⟨hdigit, Option.some.inj h⟩
  · rintro ⟨hdigit, rfl⟩
    exact digit?_of_isDigit hdigit

/-- Stopping at the first number past the limit loses nothing, as more digits only make it larger. -/
theorem appendDigits_eq_ok_iff (hvalue : value ≤ limit) : appendDigits limit value cs = .ok n ↔
    (∀ c ∈ cs, c.isDigit = true) ∧ Nat.ofDigitChars 10 cs value = n ∧ n ≤ limit := by
  induction cs generalizing value with
  | nil =>
    simp only [appendDigits, Except.ok.injEq, List.not_mem_nil, false_implies, implies_true, true_and,
      Nat.ofDigitChars_nil]
    constructor
    · rintro rfl
      exact ⟨rfl, hvalue⟩
    · intro h
      exact h.1
  | cons c rest ih =>
    rw [appendDigits, List.forall_mem_cons, Nat.ofDigitChars_cons, Nat.mul_comm 10 value]
    cases hdigit : digit? c with
    | none =>
      have hc : ¬c.isDigit = true := by
        intro hc
        rw [digit?_of_isDigit hc] at hdigit
        cases hdigit
      simp [hc]
    | some d =>
      obtain ⟨hc, rfl⟩ := digit?_eq_some_iff.mp hdigit
      simp only [hc, true_and]
      split
      · rename_i hroom
        exact ih hroom
      · rename_i hroom
        constructor
        · intro h
          cases h
        · rintro ⟨-, hn, hle⟩
          have hmono := le_ofDigitChars rest (value * 10 + (c.toNat - '0'.toNat))
          omega

theorem appendDigits_zero_eq_ok_iff (hne : cs ≠ []) :
    appendDigits limit 0 cs = .ok n ↔ Numeral cs n ∧ n ≤ limit := by
  rw [appendDigits_eq_ok_iff (Nat.zero_le limit), Numeral, and_assoc, and_assoc]
  exact (and_iff_right hne).symm

theorem not_numeral_plus (digits : List Char) : ¬Numeral ('+' :: digits) n := by
  intro h
  exact absurd (h.2.1 '+' List.mem_cons_self) (by decide)

theorem denotes_plus_iff {digits : List Char} : Denotes ('+' :: digits) n ↔ Numeral digits n := by
  constructor
  · rintro (h | ⟨_, heq, h⟩)
    · exact absurd h (not_numeral_plus digits)
    · cases heq
      exact h
  · intro h
    exact .inr ⟨digits, rfl, h⟩

theorem parseNatural_eq_ok_iff : parseNatural limit cs = .ok n ↔ Denotes cs n ∧ n ≤ limit := by
  have hempty : ¬Numeral [] n := fun h ↦ h.1 rfl
  unfold parseNatural
  split
  · simp [Denotes, hempty]
  · simp [denotes_plus_iff, hempty]
  · rename_i digits hne
    rw [denotes_plus_iff]
    exact appendDigits_zero_eq_ok_iff (fun h ↦ hne (h ▸ rfl))
  · rename_i hne _ hplus
    have hdenotes : Denotes cs n ↔ Numeral cs n := by
      refine or_iff_left ?_
      rintro ⟨digits, rfl, -⟩
      exact hplus digits rfl
    rw [hdenotes]
    exact appendDigits_zero_eq_ok_iff hne

theorem Denotes.unique (hn : Denotes cs n) (hm : Denotes cs m) : n = m := by
  have hn := parseNatural_eq_ok_iff.mpr ⟨hn, Nat.le_max_left n m⟩
  have hm := parseNatural_eq_ok_iff.mpr ⟨hm, Nat.le_max_right n m⟩
  exact Except.ok.inj (hn.symm.trans hm)

theorem denotes_naturalText (n : ℕ) : Denotes (naturalText n).toList n := by
  rw [Decimal.toList_naturalText]
  exact .inl ⟨Nat.toDigits_ne_nil, fun c ↦ Decimal.isDigit_of_mem_toDigits, Nat.ofDigitChars_ten_toDigits⟩

/-! ## Blanks around a text -/

/-- A text with any blanks before and after it. -/
def Padded (s padded : String) : Prop :=
  ∃ left right : List Char, (∀ c ∈ left, isBlank c = true) ∧ (∀ c ∈ right, isBlank c = true) ∧
    padded.toList = left ++ s.toList ++ right

theorem dropWhile_isBlank_append {left : List Char} (hleft : ∀ c ∈ left, isBlank c = true)
    (hcs : ∀ c ∈ cs.head?, isBlank c = false) : (left ++ cs).dropWhile isBlank = cs := by
  rw [List.dropWhile_append_of_pos hleft, dropWhile_isBlank_eq_self hcs]

theorem trimList_append {left right : List Char} (hleft : ∀ c ∈ left, isBlank c = true)
    (hright : ∀ c ∈ right, isBlank c = true) (hcs : Trimmed cs) (hne : cs ≠ []) :
    trimList (left ++ cs ++ right) = cs := by
  have hhead : ∀ c ∈ (cs ++ right).head?, isBlank c = false := by
    rw [List.head?_append, Option.or_of_isSome (by simpa using hne)]
    exact hcs.1
  have hlast : ∀ c ∈ cs.reverse.head?, isBlank c = false := by
    rw [List.head?_reverse]
    exact hcs.2
  have hright' : ∀ c ∈ right.reverse, isBlank c = true := fun c hc ↦ hright c (List.mem_reverse.mp hc)
  rw [trimList, List.append_assoc, dropWhile_isBlank_append hleft hhead, List.reverse_append,
    dropWhile_isBlank_append hright' hlast, List.reverse_reverse]

theorem Padded.trim_eq (h : Padded s padded) (hs : Trimmed s.toList) (hne : s ≠ "") : trim padded = s := by
  obtain ⟨left, right, hleft, hright, heq⟩ := h
  have hcs : s.toList ≠ [] := by simpa using hne
  rw [trim, heq, trimList_append hleft hright hs hcs, String.ofList_toList]

theorem isBlank_of_isDigit (h : c.isDigit = true) : isBlank c = false := by
  have hc : 48 ≤ c.toNat ∧ c.toNat ≤ 57 := by
    simpa [Char.isDigit, UInt32.le_iff_toNat_le] using h
  simp only [isBlank]
  grind

theorem trimmed_naturalText (n : ℕ) : Trimmed (naturalText n).toList := by
  have hblank : ∀ c ∈ (naturalText n).toList, isBlank c = false := by
    intro c hc
    rw [Decimal.toList_naturalText] at hc
    exact isBlank_of_isDigit (Decimal.isDigit_of_mem_toDigits hc)
  exact ⟨fun c hc ↦ hblank c (List.mem_of_mem_head? hc), fun c hc ↦ hblank c (List.mem_of_mem_getLast? hc)⟩

theorem naturalText_ne_empty (n : ℕ) : naturalText n ≠ "" := by
  have hdigits := Decimal.toList_naturalText n
  intro h
  rw [h] at hdigits
  exact Nat.toDigits_ne_nil hdigits.symm

end Text

namespace Settings
open Bookkeeping.Text

variable {lookup : String → Option String} {low high : ℕ} {raw : String}

/-! ## The values of variables -/

theorem readMillis_eq_ok_iff {subject : String} {m : Millis low high} (hhigh : high < 18446744073709551616) :
    readMillis (Millis.accept subject low high) raw = .ok m ↔ Denotes (trim raw).toList m.value := by
  constructor
  · intro h
    unfold readMillis at h
    split at h
    · cases h
    · rename_i n hn
      have hm : m.value = n := by
        unfold Millis.accept at h
        split at h
        · split at h
          · cases h
            rfl
          · cases h
        · cases h
      rw [hm]
      exact (parseNatural_eq_ok_iff.mp hn).1
  · intro h
    have hlimit : m.value ≤ 18446744073709551615 := by
      have hle := m.le_high
      omega
    simp [readMillis, parseNatural_eq_ok_iff.mpr ⟨h, hlimit⟩, Millis.accept, m.low_le, m.le_high,
      Except.mapError]

theorem exists_millis_iff (hhigh : high < 18446744073709551616) :
    (∃ n, Denotes (trim raw).toList n ∧ n < 18446744073709551616 ∧ low ≤ n ∧ n ≤ high) ↔
      ∃ m : Millis low high, Denotes (trim raw).toList m.value := by
  constructor
  · rintro ⟨n, hn, -, hlow, hle⟩
    exact ⟨⟨n, hlow, hle⟩, hn⟩
  · rintro ⟨m, hm⟩
    exact ⟨m.value, hm, Nat.lt_of_le_of_lt m.le_high hhigh, m.low_le, m.le_high⟩

theorem accept_eq_ok_iff {v : SchemaVersion} :
    (SchemaVersion.accept raw).mapError Reason.refused = .ok v ↔ v.text = trim raw := by
  constructor
  · intro h
    unfold SchemaVersion.accept Label.accept at h
    split at h
    · cases h
    · split at h
      · cases h
        rfl
      · cases h
  · intro h
    have hne := v.nonempty
    have hshort := v.short
    rw [h] at hne hshort
    simp only [SchemaVersion.accept, Label.accept, hne, hshort, dite_true, dite_false, Except.mapError]
    exact congrArg Except.ok (Label.ext h.symm)

inductive Variable where
  | threshold
  | timeout
  | version

namespace Variable

def name : Variable → String
  | threshold => thresholdVariable
  | timeout => timeoutVariable
  | version => versionVariable

def earlier : Variable → List Variable
  | threshold => []
  | timeout => [threshold]
  | version => [threshold, timeout]

/-- The text of a number of 64 bits between the bounds, or of one to 32 characters, once trimmed. -/
def Valid : Variable → String → Prop
  | threshold, raw => ∃ n, Denotes (trim raw).toList n ∧ n < 18446744073709551616 ∧ 1 ≤ n ∧ n ≤ 86400000
  | timeout, raw => ∃ n, Denotes (trim raw).toList n ∧ n < 18446744073709551616 ∧ 100 ≤ n ∧ n ≤ 600000
  | version, raw => 1 ≤ (trim raw).toList.length ∧ (trim raw).toList.length ≤ 32

abbrev Setting : Variable → Type
  | threshold => FreshnessThreshold
  | timeout => OperationTimeout
  | version => SchemaVersion

/-- A text means a setting. -/
def Means : (v : Variable) → String → v.Setting → Prop
  | threshold, raw, m => Denotes (trim raw).toList m.value
  | timeout, raw, m => Denotes (trim raw).toList m.value
  | version, raw, l => l.text = trim raw

end Variable

def setting (s : Settings) : (v : Variable) → v.Setting
  | .threshold => s.threshold
  | .timeout => s.timeout
  | .version => s.version

def written (s : Settings) : Variable → String
  | .threshold => naturalText s.threshold.value
  | .timeout => naturalText s.timeout.value
  | .version => s.version.text

namespace Variable

def scan : (v : Variable) → String → Except Reason v.Setting
  | threshold => readMillis FreshnessThreshold.accept
  | timeout => readMillis OperationTimeout.accept
  | version => fun s => (SchemaVersion.accept s).mapError .refused

def read (lookup : String → Option String) (v : Variable) : Except VariableError v.Setting :=
  readVariable lookup v.name (standard.setting v) v.scan

section

variable {v : Variable} {a : v.Setting} {e : VariableError}

theorem scan_eq_ok_iff : v.scan raw = .ok a ↔ v.Means raw a := by
  unfold scan Means
  cases v with
  | threshold => exact readMillis_eq_ok_iff (by decide)
  | timeout => exact readMillis_eq_ok_iff (by decide)
  | version => exact accept_eq_ok_iff

theorem valid_iff : v.Valid raw ↔ ∃ a, v.Means raw a := by
  cases v with
  | threshold => exact exists_millis_iff (by decide)
  | timeout => exact exists_millis_iff (by decide)
  | version =>
    constructor
    · rintro ⟨hpos, hshort⟩
      refine ⟨⟨trim raw, ?_, ?_, hshort⟩, rfl⟩
      · simpa [trim] using trimmed_trimList raw.toList
      · intro hempty
        rw [hempty] at hpos
        cases hpos
    · rintro ⟨l, hl⟩
      have hl : l.text = trim raw := hl
      have hne := l.nonempty
      have hshort := l.short
      rw [hl] at hne hshort
      exact ⟨List.length_pos_iff.mpr (by simpa using hne), hshort⟩

/-- The variable is absent or valid. -/
def Admissible (lookup : String → Option String) (v : Variable) : Prop :=
  ∀ raw, lookup v.name = some raw → v.Valid raw

/-- A setting is what its variable says, or the standard in its absence. -/
def Holds (lookup : String → Option String) (v : Variable) (a : v.Setting) : Prop :=
  match lookup v.name with
  | none => a = standard.setting v
  | some raw => v.Means raw a

theorem read_eq_ok_iff : v.read lookup = .ok a ↔ v.Holds lookup a := by
  unfold read readVariable Holds
  cases lookup v.name with
  | none => simp [eq_comm]
  | some raw =>
    refine Iff.trans ?_ scan_eq_ok_iff
    cases hscan : v.scan raw <;> simp [hscan, Except.mapError]

theorem admissible_iff : v.Admissible lookup ↔ ∃ a, v.Holds lookup a := by
  unfold Admissible Holds
  cases lookup v.name with
  | none => simp
  | some raw => simp [valid_iff]

theorem of_read_eq_error (h : v.read lookup = .error e) :
    e.name = v.name ∧ lookup v.name = some e.value ∧ ¬v.Valid e.value := by
  unfold read readVariable at h
  split at h
  · cases h
  · rename_i raw hraw
    cases hscan : v.scan raw with
    | ok a =>
      rw [hscan] at h
      cases h
    | error reason =>
      rw [hscan] at h
      cases h
      refine ⟨rfl, hraw, ?_⟩
      rw [valid_iff]
      rintro ⟨a, ha⟩
      rw [scan_eq_ok_iff.mpr ha] at hscan
      cases hscan

end

end Variable

theorem ofVariables_eq (lookup : String → Option String) :
    ofVariables lookup = (do
      let threshold ← Variable.threshold.read lookup
      let timeout ← Variable.timeout.read lookup
      let version ← Variable.version.read lookup
      return { threshold, timeout, version }) := rfl

theorem ofVariables_eq_ok_iff {s : Settings} :
    ofVariables lookup = .ok s ↔ ∀ v : Variable, v.Holds lookup (s.setting v) := by
  simp only [ofVariables_eq, bind_eq_ok_iff]
  constructor
  · rintro ⟨threshold, hthreshold, timeout, htimeout, version, hversion, heq⟩ v
    cases heq
    cases v with
    | threshold => exact Variable.read_eq_ok_iff.mp hthreshold
    | timeout => exact Variable.read_eq_ok_iff.mp htimeout
    | version => exact Variable.read_eq_ok_iff.mp hversion
  · intro h
    have hread (v : Variable) : v.read lookup = .ok (s.setting v) := Variable.read_eq_ok_iff.mpr (h v)
    exact ⟨s.threshold, hread .threshold, s.timeout, hread .timeout, s.version, hread .version, rfl⟩

theorem exists_ofVariables_iff :
    (∃ s, ofVariables lookup = .ok s) ↔ ∀ v : Variable, v.Admissible lookup := by
  simp only [ofVariables_eq_ok_iff, Variable.admissible_iff]
  constructor
  · rintro ⟨s, hs⟩ v
    exact ⟨_, hs v⟩
  · intro h
    obtain ⟨threshold, hthreshold⟩ := h .threshold
    obtain ⟨timeout, htimeout⟩ := h .timeout
    obtain ⟨version, hversion⟩ := h .version
    refine ⟨⟨threshold, timeout, version⟩, fun v ↦ ?_⟩
    cases v with
    | threshold => exact hthreshold
    | timeout => exact htimeout
    | version => exact hversion

theorem exists_read_of_ofVariables_eq_error {e : VariableError} (h : ofVariables lookup = .error e) :
    ∃ v : Variable, v.read lookup = .error e ∧ ∀ u ∈ v.earlier, u.Admissible lookup := by
  have hadmissible {u : Variable} {a : u.Setting} (hu : u.read lookup = .ok a) : u.Admissible lookup :=
    Variable.admissible_iff.mpr ⟨a, Variable.read_eq_ok_iff.mp hu⟩
  simp only [ofVariables_eq, bind_eq_error_iff] at h
  rcases h with h | ⟨threshold, hthreshold, h | ⟨timeout, htimeout, h | ⟨version, -, h⟩⟩⟩
  · exact ⟨.threshold, h, by simp [Variable.earlier]⟩
  · exact ⟨.timeout, h, by simp [Variable.earlier, hadmissible hthreshold]⟩
  · exact ⟨.version, h, by simp [Variable.earlier, hadmissible hthreshold, hadmissible htimeout]⟩
  · cases h

namespace Variable

theorem means_of_padded {s : Settings} (v : Variable) (h : Padded (s.written v) raw) :
    v.Means raw (s.setting v) := by
  have hmillis {n : ℕ} (hn : Padded (naturalText n) raw) : Denotes (trim raw).toList n := by
    rw [hn.trim_eq (trimmed_naturalText n) (naturalText_ne_empty n)]
    exact denotes_naturalText n
  cases v with
  | threshold => exact hmillis h
  | timeout => exact hmillis h
  | version => exact (h.trim_eq s.version.trimmed s.version.nonempty).symm

theorem holds_of_padded {s : Settings} {v : Variable} (hraw : lookup v.name = some raw)
    (h : Padded (s.written v) raw) : v.Holds lookup (s.setting v) := by
  rw [Holds, hraw]
  exact means_of_padded v h

end Variable

/-- There are settings if and only if each variable is absent or valid. Each of them is what its own
variable says, or the standard in its absence. Otherwise the first variable that is not valid is reported
with its whole text. Settings come back from texts that say them, with any blanks around these. -/
theorem from_variables (lookup : String → Option String) :
    ((∃ s, ofVariables lookup = .ok s) ↔ ∀ v : Variable, v.Admissible lookup) ∧
    (∀ s, ofVariables lookup = .ok s → ∀ v : Variable, v.Holds lookup (s.setting v)) ∧
    (∀ e, ofVariables lookup = .error e → ∃ v : Variable, e.name = v.name ∧
      lookup v.name = some e.value ∧ ¬v.Valid e.value ∧ ∀ u ∈ v.earlier, u.Admissible lookup) ∧
    ∀ s : Settings,
      (∀ v : Variable, ∃ raw, lookup v.name = some raw ∧ Padded (s.written v) raw) →
      ofVariables lookup = .ok s := by
  refine ⟨exists_ofVariables_iff, ?_, ?_, ?_⟩
  · intro s
    exact ofVariables_eq_ok_iff.mp
  · intro e he
    obtain ⟨v, hread, hearlier⟩ := exists_read_of_ofVariables_eq_error he
    obtain ⟨hname, hvalue, hinvalid⟩ := Variable.of_read_eq_error hread
    exact ⟨v, hname, hvalue, hinvalid, hearlier⟩
  · intro s hs
    rw [ofVariables_eq_ok_iff]
    intro v
    obtain ⟨raw, hraw, hpadded⟩ := hs v
    exact Variable.holds_of_padded hraw hpadded

/-- A number with a sign, zeros and blanks around it, no timeout, and a version between blanks. -/
def spaced (name : String) : Option String :=
  if name = thresholdVariable then some " +0060000\u3000"
  else if name = versionVariable then some "\tv2\n"
  else none

theorem from_variables_spaced :
    (∀ v : Variable, v.Admissible spaced) ∧
    ∃ s, ofVariables spaced = .ok s ∧ s.threshold.value = 60000 ∧ s.timeout = standard.timeout ∧
      s.version.text = "v2" := by
  obtain ⟨hok, hholds, -⟩ := from_variables spaced
  have hnumber : Denotes (trim " +0060000\u3000").toList 60000 := by
    have hpadded : Padded "+0060000" " +0060000\u3000" :=
      ⟨[' '], ['\u3000'], by simp [isBlank], by simp [isBlank], by simp⟩
    rw [hpadded.trim_eq (by simp [Trimmed, isBlank]) (by decide)]
    exact .inr ⟨['0', '0', '6', '0', '0', '0', '0'], by simp, by simp, by simp, by decide⟩
  have hversion : trim "\tv2\n" = "v2" := by
    have hpadded : Padded "v2" "\tv2\n" := ⟨['\t'], ['\n'], by simp [isBlank], by simp [isBlank], by simp⟩
    exact hpadded.trim_eq (by simp [Trimmed, isBlank]) (by decide)
  have hadmissible : ∀ v : Variable, v.Admissible spaced := by
    intro v raw hraw
    cases v with
    | threshold =>
      cases hraw
      exact ⟨60000, hnumber, by decide⟩
    | timeout => cases hraw
    | version =>
      cases hraw
      simp [Variable.Valid, hversion]
  obtain ⟨s, hs⟩ := hok.mpr hadmissible
  have htext : s.version.text = trim "\tv2\n" := hholds s hs .version
  exact ⟨hadmissible, s, hs, Denotes.unique (hholds s hs .threshold) hnumber, hholds s hs .timeout,
    htext.trans hversion⟩

end Settings

end Bookkeeping
