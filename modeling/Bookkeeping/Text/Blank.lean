/-! # Blank characters and trimming

The class is the Unicode property White_Space. Trimming removes blanks at both ends, and a trimmed
text is a fixed point of it.
-/
namespace Bookkeeping.Text

/-- The code points with the property White_Space. -/
def isBlank (c : Char) : Bool :=
  let n := c.toNat
  (9 ≤ n && n ≤ 13) || n == 0x20 || n == 0x85 || n == 0xA0 || n == 0x1680 ||
    (0x2000 ≤ n && n ≤ 0x200A) || n == 0x2028 || n == 0x2029 || n == 0x202F || n == 0x205F ||
    n == 0x3000

def trimList (cs : List Char) : List Char :=
  ((cs.dropWhile isBlank).reverse.dropWhile isBlank).reverse

def trim (s : String) : String := String.ofList (trimList s.toList)

/-- Neither the first nor the last character is blank. -/
def Trimmed (cs : List Char) : Prop :=
  (∀ c ∈ cs.head?, isBlank c = false) ∧ ∀ c ∈ cs.getLast?, isBlank c = false

instance (cs : List Char) : Decidable (Trimmed cs) :=
  inferInstanceAs (Decidable (_ ∧ _))

theorem head?_dropWhile_isBlank (cs : List Char) :
    ∀ c ∈ (cs.dropWhile isBlank).head?, isBlank c = false := by
  intro c hc
  have := List.head?_dropWhile_not isBlank cs
  rw [Option.mem_def.mp hc] at this
  simpa using this

theorem dropWhile_isBlank_eq_self {cs : List Char} (h : ∀ c ∈ cs.head?, isBlank c = false) :
    cs.dropWhile isBlank = cs := by
  cases cs with
  | nil => rfl
  | cons c r => simp [h c (by simp)]

theorem trimList_eq_self {cs : List Char} (h : Trimmed cs) : trimList cs = cs := by
  rw [trimList, dropWhile_isBlank_eq_self h.1, dropWhile_isBlank_eq_self (by simpa using h.2),
    List.reverse_reverse]

theorem trimmed_trimList (cs : List Char) : Trimmed (trimList cs) := by
  refine ⟨?_, by simpa [trimList] using head?_dropWhile_isBlank (cs.dropWhile isBlank).reverse⟩
  intro c hc
  refine head?_dropWhile_isBlank cs c ?_
  have hp : trimList cs <+: cs.dropWhile isBlank := by
    simpa [trimList] using
      List.reverse_prefix.mpr (List.dropWhile_suffix (l := (cs.dropWhile isBlank).reverse) isBlank)
  obtain ⟨t, ht⟩ := hp
  rw [← ht, List.head?_append, Option.mem_def.mp hc]
  rfl

theorem trim_eq_self {s : String} (h : Trimmed s.toList) : trim s = s := by
  simp [trim, trimList_eq_self h]

end Bookkeeping.Text
