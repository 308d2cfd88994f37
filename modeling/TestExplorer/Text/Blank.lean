set_option autoImplicit false

namespace TestExplorer.Text

-- The characters with the Unicode property White_Space.
def isBlank (c : Char) : Bool :=
  (9 ≤ c.val && c.val ≤ 13) || c.val == 0x20 || c.val == 0x85 || c.val == 0xA0 ||
    c.val == 0x1680 || (0x2000 ≤ c.val && c.val ≤ 0x200A) || c.val == 0x2028 ||
    c.val == 0x2029 || c.val == 0x202F || c.val == 0x205F || c.val == 0x3000

def trimStart (text : List Char) : List Char :=
  text.dropWhile isBlank

def trimEnd (text : List Char) : List Char :=
  (text.reverse.dropWhile isBlank).reverse

def trim (text : List Char) : List Char :=
  trimEnd (trimStart text)

theorem head?_trimStart (text : List Char) (c : Char) (h : (trimStart text).head? = some c) :
    isBlank c = false := by
  unfold trimStart at h
  induction text with
  | nil => simp at h
  | cons d rest ih =>
    rw [List.dropWhile_cons] at h
    split at h
    next => exact ih h
    next plain => simp_all

theorem getLast?_trimEnd (text : List Char) (c : Char) (h : (trimEnd text).getLast? = some c) :
    isBlank c = false := by
  apply head?_trimStart text.reverse c
  simpa [trimEnd, trimStart] using h

theorem trimStart_eq_self {text : List Char} (first : ∀ c ∈ text.head?, isBlank c = false) :
    trimStart text = text := by
  cases text with
  | nil => rfl
  | cons c rest => simp [trimStart, first c rfl]

theorem trimEnd_eq_self {text : List Char} (last : ∀ c ∈ text.getLast?, isBlank c = false) :
    trimEnd text = text := by
  have reversed : trimStart text.reverse = text.reverse := trimStart_eq_self (by simpa using last)
  rw [trimEnd, ← trimStart, reversed, List.reverse_reverse]

theorem trimStart_append {before : List Char} (blank : ∀ c ∈ before, isBlank c)
    (text : List Char) : trimStart (before ++ text) = trimStart text := by
  rw [trimStart, List.dropWhile_append_of_pos blank, trimStart]

theorem trimEnd_append (text : List Char) {after : List Char} (blank : ∀ c ∈ after, isBlank c) :
    trimEnd (text ++ after) = trimEnd text := by
  have reversed : ∀ c ∈ after.reverse, isBlank c := by simpa using blank
  rw [trimEnd, List.reverse_append, List.dropWhile_append_of_pos reversed, trimEnd]

end TestExplorer.Text
