/-!
# Blank characters and trimming

Configuration values, hex texts and endpoint addresses are read between blanks, and "blank"
means the Unicode property `White_Space` throughout. `isBlank` is that property, and
`trimmed p` cuts every leading and trailing character of a class `p` from a text.

Main statement: a text without a character of the class at either end is left alone
(`trimmed_eq_self`).
-/

namespace BlockRelay.Text

/-- **The Unicode property `White_Space`.** The list is closed: the standard keeps it stable. -/
def isBlank (c : Char) : Bool :=
  let n := c.toNat
  (9 ≤ n && n ≤ 13) || n == 0x20 || n == 0x85 || n == 0xA0 || n == 0x1680 ||
    (0x2000 ≤ n && n ≤ 0x200A) || n == 0x2028 || n == 0x2029 || n == 0x202F ||
    n == 0x205F || n == 0x3000

/-- Cuts the longest run of characters in `p` from the end. -/
def dropEndWhile (p : Char → Bool) (cs : List Char) : List Char :=
  (cs.reverse.dropWhile p).reverse

/-- Cuts the longest runs of characters in `p` from both ends. -/
def trimmed (p : Char → Bool) (cs : List Char) : List Char :=
  dropEndWhile p (cs.dropWhile p)

/-- A text between blanks. -/
def trim (s : String) : String :=
  String.ofList (trimmed isBlank s.toList)

@[simp] theorem dropEndWhile_nil (p : Char → Bool) : dropEndWhile p [] = [] := rfl

theorem dropEndWhile_append_singleton (p : Char → Bool) (cs : List Char) (c : Char) :
    dropEndWhile p (cs ++ [c]) = if p c then dropEndWhile p cs else cs ++ [c] := by
  by_cases h : p c <;> simp [dropEndWhile, h]

/-- What stays after cutting at the end is a beginning of the text. -/
theorem dropEndWhile_append_takeWhile (p : Char → Bool) (cs : List Char) :
    dropEndWhile p cs ++ (cs.reverse.takeWhile p).reverse = cs := by
  rw [dropEndWhile, ← List.reverse_append, List.takeWhile_append_dropWhile, List.reverse_reverse]

/-- A text that has no character of the class at its end keeps its end. -/
theorem dropEndWhile_eq_self {p : Char → Bool} {cs : List Char}
    (h : ∀ c, cs.getLast? = some c → p c = false) : dropEndWhile p cs = cs := by
  rcases List.eq_nil_or_concat cs with rfl | ⟨r, c, rfl⟩
  · rfl
  · rw [List.concat_eq_append] at h ⊢
    simp [dropEndWhile_append_singleton, h c (by simp)]

/-- A text without a character of the class at either end is left alone. -/
theorem trimmed_eq_self {p : Char → Bool} {cs : List Char}
    (hd : ∀ c, cs.head? = some c → p c = false)
    (hl : ∀ c, cs.getLast? = some c → p c = false) : trimmed p cs = cs := by
  have h : cs.dropWhile p = cs := by
    cases cs with
    | nil => rfl
    | cons c r => simp [hd c (by simp)]
  rw [trimmed, h, dropEndWhile_eq_self hl]

end BlockRelay.Text
