import BlockRelay.Json.Reader
import BlockRelay.Proofs.Json.Scan
import Mathlib.Data.List.TakeWhile

/-!
# Reading written values

A value in compact text is read back as itself, object fields in their order and repetitions
included, as long as it is `plain`: every part has a value, whole numbers are in the range that is
kept, and no number has a fraction.

The text is a list of tokens, so the statement has two halves. `spaced_tokens` says that the
tokens of a plain value are scanned again (a word is always followed by a sign); `advance_tokens`
says what the machine does on them: from waiting for a value, below any stack and in front of any
further tokens, it goes to having read exactly that value. Both are inductions over the value, in
step with the five functions that list its tokens.

* `read?_render` — the text of a plain value reads as that value;
* `readBytes?_renderBytes` — so do its bytes.
-/

namespace BlockRelay.Json

/-! ### Plain values -/

mutual

/-- Whether a value is written without loss: it is readable, its whole numbers are in range, and
it has no others. -/
def plain : Json → Bool
  | .int n => -0x8000000000000000 ≤ n && n < 0x10000000000000000
  | .arr xs => plainItems xs
  | .obj fields => plainFields fields
  | .real _ => false
  | .unreadable => false
  | _ => true

/-- Whether every item is plain. -/
def plainItems : List Json → Bool
  | [] => true
  | x :: xs => plain x && plainItems xs

/-- Whether every field's value is plain. -/
def plainFields : List (String × Json) → Bool
  | [] => true
  | (_, x) :: fields => plain x && plainFields fields

end

/-- The mutual definition is a test of all items, for which the library has its lemmas. -/
theorem plainItems_eq_all (xs : List Json) : plainItems xs = xs.all plain := by
  induction xs with
  | nil => rfl
  | cons x xs ih => rw [plainItems, ih, List.all_cons]

theorem plainFields_eq_all (fields : List (String × Json)) :
    plainFields fields = fields.all fun f => plain f.2 := by
  induction fields with
  | nil => rfl
  | cons f fields ih => rw [plainFields, ih, List.all_cons]

@[simp] theorem plain_str (s : String) : plain (.str s) = true := rfl

@[simp] theorem plain_arr (xs : List Json) : plain (.arr xs) = xs.all plain :=
  plainItems_eq_all xs

@[simp] theorem plain_obj (fields : List (String × Json)) :
    plain (.obj fields) = fields.all fun f => plain f.2 := plainFields_eq_all fields

/-! ### Whole numbers -/

open Text in
/-- Only zero is written with a zero in front. -/
theorem ofNat_head?_zero {n : Nat} (h : (Decimal.ofNat n).head? = some '0') : n = 0 := by
  induction n using Decimal.ofNat.induct with
  | case1 n hn =>
    rw [Decimal.ofNat, if_pos hn, List.head?_cons, Option.some.injEq] at h
    have hv := Decimal.value_digit n
    rw [h] at hv
    have zero : Decimal.value '0' = 0 := by decide
    omega
  -- the first digit is that of the tenth, which is not zero
  | case2 n hn ih =>
    obtain ⟨c, cs, hcs⟩ := List.exists_cons_of_ne_nil (Decimal.ofNat_ne_nil (n / 10))
    rw [Decimal.ofNat, if_neg hn, hcs] at h
    have := ih (by rw [hcs]; exact h)
    omega

open Text in
/-- What the reader of numbers sees of the digits of a written one. -/
theorem takeWhile_isDigit_ofNat (n : Nat) :
    (Decimal.ofNat n).takeWhile Decimal.isDigit = Decimal.ofNat n ∧
      (Decimal.ofNat n).dropWhile Decimal.isDigit = [] := by
  have digits := List.all_eq_true.1 (Decimal.all_isDigit_ofNat n)
  exact ⟨List.takeWhile_eq_self_iff.2 digits, List.dropWhile_eq_nil_iff.2 digits⟩

open Text in
/-- A written number has digits, and none of them is a zero in front of others. -/
theorem not_zeros_ofNat (n : Nat) : ¬ ((Decimal.ofNat n).isEmpty = true ∨
    ((Decimal.ofNat n).head? = some '0' ∧ (Decimal.ofNat n).length ≠ 1)) := by
  rintro (h | ⟨hzero, hlength⟩)
  · exact Decimal.ofNat_ne_nil n (List.isEmpty_iff.1 h)
  · rw [ofNat_head?_zero hzero, Decimal.ofNat, if_pos (by decide)] at hlength
    exact hlength rfl

open Text in
/-- The digits of a natural number are read as a literal without a sign. -/
theorem number?_ofNat (n : Nat) :
    number? (Decimal.ofNat n) = some (ofIntegerLiteral false n) := by
  have sign : ∀ cs, Decimal.ofNat n ≠ '-' :: cs := by
    intro cs h
    have hd := List.all_eq_true.1 (Decimal.all_isDigit_ofNat n) '-' (by rw [h]; exact .head _)
    exact absurd hd (by decide)
  unfold number?
  -- without a sign in front, the digits are all there is
  split
  next negative cs h =>
  split at h
  · next cs' hcs => exact absurd hcs (sign cs')
  · cases h
    simp only [takeWhile_isDigit_ofNat, if_neg (not_zeros_ofNat n), Decimal.toNat_ofNat, fraction?]

open Text in
/-- Behind a minus sign, they are read as a literal with one. -/
theorem number?_neg_ofNat (n : Nat) :
    number? ('-' :: Decimal.ofNat n) = some (ofIntegerLiteral true n) := by
  simp only [number?, takeWhile_isDigit_ofNat, if_neg (not_zeros_ofNat n), Decimal.toNat_ofNat,
    fraction?]

open Text in
/-- What is written of an integer is read as the literal of its sign and its size. -/
theorem number?_ofInt (n : Int) :
    number? (Decimal.ofInt n) = some (ofIntegerLiteral (decide (n < 0)) n.natAbs) := by
  cases n with
  | ofNat n => exact number?_ofNat n
  | negSucc n =>
    rw [decide_eq_true (Int.negSucc_lt_zero n)]
    exact number?_neg_ofNat (n + 1)

/-- A literal in range is kept. -/
theorem ofIntegerLiteral_natAbs {n : Int} (low : -0x8000000000000000 ≤ n)
    (high : n < 0x10000000000000000) :
    ofIntegerLiteral (decide (n < 0)) n.natAbs = .int n := by
  unfold ofIntegerLiteral
  -- each sign has its own bound
  by_cases h : n < 0
  · have kept : decide (n < 0) = true ∧ 0 < n.natAbs ∧ n.natAbs ≤ 0x8000000000000000 :=
      ⟨decide_eq_true h, by omega, by omega⟩
    rw [if_pos kept]
    congr 1
    omega
  · have kept : (!decide (n < 0)) = true ∧ n.natAbs < 0x10000000000000000 :=
      ⟨by rw [decide_eq_false h, Bool.not_false], by omega⟩
    rw [if_neg (fun negative => h (of_decide_eq_true negative.1)), if_pos kept]
    congr 1
    omega

open Text in
/-- A written integer is made of characters of words, its sign included. -/
theorem isWordChar_ofInt (n : Int) : ∀ c ∈ Decimal.ofInt n, isWordChar c = true := by
  have digit : ∀ m : Nat, ∀ c ∈ Decimal.ofNat m, isWordChar c = true := by
    intro m c hc
    have hd := List.all_eq_true.1 (Decimal.all_isDigit_ofNat m) c hc
    unfold Decimal.isDigit at hd
    simp only [isWordChar, hd, Bool.true_or]
  -- the sign is the only character that is no digit, and it stands in front
  cases n with
  | ofNat n => exact digit n
  | negSucc n =>
    intro c hc
    rcases List.mem_cons.1 hc with rfl | hc
    · decide
    · exact digit (n + 1) c hc

open Text in
theorem ofInt_ne_nil (n : Int) : Decimal.ofInt n ≠ [] := by
  cases n with
  | ofNat n => exact Decimal.ofNat_ne_nil n
  | negSucc n => exact List.cons_ne_nil _ _

/-- A word that begins with a letter is no written number. -/
theorem ofInt_ne_of_head? {n : Int} {w : List Char}
    (hhead : w.head?.all (fun c => !Text.Decimal.isDigit c && c != '-') = true) (hw : w ≠ []) :
    Text.Decimal.ofInt n ≠ w := by
  rintro rfl
  have h (c : Char) (hc : (Text.Decimal.ofInt n).head? = some c) :
      Text.Decimal.isDigit c = false ∧ c ≠ '-' := by
    rw [hc, Option.all_some, Bool.and_eq_true, Bool.not_eq_true', bne_iff_ne] at hhead
    exact hhead
  -- a written number begins with a digit or with a minus sign
  cases n with
  | ofNat n =>
    obtain ⟨c, cs, hcs⟩ := List.exists_cons_of_ne_nil (Text.Decimal.ofNat_ne_nil n)
    have hd := List.all_eq_true.1 (Text.Decimal.all_isDigit_ofNat n) c (by simp [hcs])
    have := (h c (by simp [Text.Decimal.ofInt, hcs])).1
    rw [hd] at this
    cases this
  | negSucc n => exact (h '-' rfl).2 rfl

/-- **A whole number in range is read as itself.** -/
theorem ofWord?_ofInt {n : Int} (low : -0x8000000000000000 ≤ n) (high : n < 0x10000000000000000) :
    ofWord? (Text.Decimal.ofInt n) = some (.int n) := by
  unfold ofWord?
  -- it is none of the three names
  rw [if_neg (ofInt_ne_of_head? (by decide) (by decide)),
    if_neg (ofInt_ne_of_head? (by decide) (by decide)),
    if_neg (ofInt_ne_of_head? (by decide) (by decide)), number?_ofInt,
    ofIntegerLiteral_natAbs low high]

/-! ### The tokens of a plain value are spaced -/

/-- What comes after an item or a field is a sign. -/
theorem head?_tokensMoreItems (xs : List Json) :
    ∀ u, (tokensMoreItems xs).head? = some u → u.isWord = false := by
  intro u hu
  cases xs <;> cases hu <;> rfl

/-- What comes after a field is a sign, too: a comma or the end of the object. -/
theorem head?_tokensMoreFields (fields : List (String × Json)) :
    ∀ u, (tokensMoreFields fields).head? = some u → u.isWord = false := by
  intro u hu
  rcases fields with _ | ⟨⟨name, x⟩, fields⟩ <;> cases hu <;> rfl

/-- A single word is spaced. -/
theorem spaced_word {w : List Char} (hw : w ≠ []) (h : ∀ c ∈ w, isWordChar c = true) :
    Spaced [.word w] := by
  refine ⟨⟨hw, h⟩, fun _ u hu => ?_, trivial⟩
  cases hu

mutual

/-- **The tokens of a plain value are spaced.** -/
theorem spaced_tokens : ∀ j : Json, j.plain = true → Spaced j.tokens
  | .null, _ => spaced_word (by decide) (List.all_eq_true.1 (by decide))
  | .bool true, _ => spaced_word (by decide) (List.all_eq_true.1 (by decide))
  | .bool false, _ => spaced_word (by decide) (List.all_eq_true.1 (by decide))
  | .int n, _ => spaced_word (ofInt_ne_nil n) (isWordChar_ofInt n)
  | .real _, h => by cases h
  | .str s, _ => .cons ⟨s.toList, rfl⟩ rfl trivial
  -- the sign that opens a list or an object keeps spaced what stands behind it
  | .arr xs, h => .cons trivial rfl (spaced_tokensItems xs h)
  | .obj fields, h => .cons trivial rfl (spaced_tokensFields fields h)
  | .unreadable, h => by cases h

/-- The items and the end of an array are spaced. -/
theorem spaced_tokensItems : ∀ xs : List Json, plainItems xs = true → Spaced (tokensItems xs)
  | [], _ => .cons trivial rfl trivial
  | x :: xs, h => by
    rw [plainItems, Bool.and_eq_true] at h
    exact (spaced_tokens x h.1).append (spaced_tokensMoreItems xs h.2) (head?_tokensMoreItems xs)

theorem spaced_tokensMoreItems :
    ∀ xs : List Json, plainItems xs = true → Spaced (tokensMoreItems xs)
  | [], _ => .cons trivial rfl trivial
  | x :: xs, h => by
    rw [plainItems, Bool.and_eq_true] at h
    exact .cons trivial rfl ((spaced_tokens x h.1).append (spaced_tokensMoreItems xs h.2)
      (head?_tokensMoreItems xs))

/-- The fields and the end of an object are spaced. A name is a string, so it may stand before
anything. -/
theorem spaced_tokensFields :
    ∀ fields : List (String × Json), plainFields fields = true → Spaced (tokensFields fields)
  | [], _ => .cons trivial rfl trivial
  | (name, x) :: fields, h => by
    rw [plainFields, Bool.and_eq_true] at h
    exact .cons ⟨name.toList, rfl⟩ rfl (.cons trivial rfl ((spaced_tokens x h.1).append
      (spaced_tokensMoreFields fields h.2) (head?_tokensMoreFields fields)))

theorem spaced_tokensMoreFields :
    ∀ fields : List (String × Json), plainFields fields = true → Spaced (tokensMoreFields fields)
  | [], _ => .cons trivial rfl trivial
  | (name, x) :: fields, h => by
    rw [plainFields, Bool.and_eq_true] at h
    exact .cons trivial rfl (.cons ⟨name.toList, rfl⟩ rfl (.cons trivial rfl
      ((spaced_tokens x h.1).append (spaced_tokensMoreFields fields h.2)
        (head?_tokensMoreFields fields))))

end

/-! ### The machine on the tokens of a plain value -/

/-- The machine on a list of tokens. -/
def advance (s : State) (ts : List Token) : Option State := ts.foldlM step s

theorem advance_cons {s s' : State} {t : Token} (h : step s t = some s') (ts : List Token) :
    advance s (t :: ts) = advance s' ts := by
  rw [advance, List.foldlM_cons, h]
  rfl

/-- The fields of an object whose names all have a text. -/
theorem ofFields_map_some (fields : List (String × Json)) :
    ofFields (fields.map fun f => (some f.1, f.2)) = .obj fields := by
  have names : (fields.map fun f => (some f.1, f.2)).mapM
      (fun f : Option String × Json => f.1.map fun name => (name, f.2)) = some fields := by
    -- every name has a text, so the lookup of texts fails for none of them
    induction fields with
    | nil => rfl
    | cons f fields ih =>
      rw [List.map_cons, List.mapM_cons, ih]
      rfl
  rw [ofFields, names]

/-- The first token of a plain value does not end an array that has just been opened. -/
theorem step_first {j : Json} (hj : j.plain = true) :
    ∃ t ts, j.tokens = t :: ts ∧
      ∀ stack, step (.first stack) t = beginValue (.array [] :: stack) t := by
  cases j with
  | bool b => cases b <;> exact ⟨_, _, rfl, fun _ => rfl⟩
  | real x => cases hj
  | unreadable => cases hj
  | _ => exact ⟨_, _, rfl, fun _ => rfl⟩

/-- A value that may be the first of an array is read as one. -/
theorem advance_first {j : Json} (hj : j.plain = true) (stack : List Frame) (ts : List Token) :
    advance (.first stack) (j.tokens ++ ts) =
      advance (.value (.array [] :: stack)) (j.tokens ++ ts) := by
  obtain ⟨t, us, ht, hstep⟩ := step_first hj
  rw [ht, List.cons_append, advance, advance, List.foldlM_cons, List.foldlM_cons, hstep]
  rfl

mutual

/-- **On the tokens of a plain value the machine reads that value,** below any stack and in front
of any further tokens. -/
theorem advance_tokens : ∀ (j : Json) (_ : j.plain = true) (stack : List Frame) (ts : List Token),
    advance (.value stack) (j.tokens ++ ts) = advance (.after stack j) ts
  -- a value of one token is read in one step
  | .null, _, _, ts => advance_cons rfl ts
  | .bool true, _, _, ts => advance_cons rfl ts
  | .bool false, _, _, ts => advance_cons rfl ts
  | .int n, h, stack, ts => by
    rw [plain, Bool.and_eq_true, decide_eq_true_eq, decide_eq_true_eq] at h
    refine advance_cons ?_ ts
    rw [step, beginValue, ofWord?_ofInt h.1 h.2, Option.map_some]
  | .real _, h, _, _ => by cases h
  | .str s, _, stack, ts => by
    refine advance_cons ?_ ts
    rw [step, beginValue, String.ofList_toList]
  -- a value of several begins with the sign that opens it, and the rest is read below a new frame
  | .arr xs, h, stack, ts => by
    rw [tokens, List.cons_append, advance_cons rfl]
    exact advance_tokensItems xs h stack ts
  | .obj fields, h, stack, ts => by
    rw [tokens, List.cons_append, advance_cons rfl]
    exact advance_tokensFields fields h stack ts
  | .unreadable, h, _, _ => by cases h

/-- Behind its opening sign, an array is read to its end. The first item is read by `advance_first`,
as the sign may also be followed by the end. -/
theorem advance_tokensItems : ∀ (xs : List Json) (_ : plainItems xs = true) (stack : List Frame)
    (ts : List Token),
    advance (.first stack) (tokensItems xs ++ ts) = advance (.after stack (.arr xs)) ts
  | [], _, _, ts => advance_cons rfl ts
  | x :: xs, h, stack, ts => by
    rw [plainItems, Bool.and_eq_true] at h
    calc advance (.first stack) (tokensItems (x :: xs) ++ ts)
        = advance (.first stack) (x.tokens ++ (tokensMoreItems xs ++ ts)) := by
          rw [tokensItems, List.append_assoc]
      _ = advance (.value (.array [] :: stack)) (x.tokens ++ (tokensMoreItems xs ++ ts)) :=
          advance_first h.1 stack _
      _ = advance (.after (.array [] :: stack) x) (tokensMoreItems xs ++ ts) :=
          advance_tokens x h.1 _ _
      _ = advance (.after stack (.arr (x :: xs))) ts :=
          advance_tokensMoreItems xs h.2 stack [] x ts

/-- The items behind the one just read; `before` are those in front of it, the last first. -/
theorem advance_tokensMoreItems : ∀ (xs : List Json) (_ : plainItems xs = true)
    (stack : List Frame) (before : List Json) (x : Json) (ts : List Token),
    advance (.after (.array before :: stack) x) (tokensMoreItems xs ++ ts) =
      advance (.after stack (.arr (before.reverse ++ x :: xs))) ts
  | [], _, stack, before, x, ts => by
    rw [tokensMoreItems, List.singleton_append, advance_cons rfl, List.reverse_cons]
  | y :: xs, h, stack, before, x, ts => by
    rw [plainItems, Bool.and_eq_true] at h
    calc advance (.after (.array before :: stack) x) (tokensMoreItems (y :: xs) ++ ts)
        = advance (.value (.array (x :: before) :: stack))
            (y.tokens ++ (tokensMoreItems xs ++ ts)) := by
          -- the comma puts `x` in front of the next item
          simp only [tokensMoreItems, List.cons_append, List.append_assoc]
          rw [advance_cons rfl]
      _ = advance (.after (.array (x :: before) :: stack) y) (tokensMoreItems xs ++ ts) :=
          advance_tokens y h.1 _ _
      _ = advance (.after stack (.arr ((x :: before).reverse ++ y :: xs))) ts :=
          advance_tokensMoreItems xs h.2 stack (x :: before) y ts
      _ = advance (.after stack (.arr (before.reverse ++ x :: y :: xs))) ts := by
          rw [List.reverse_cons, List.append_assoc, List.singleton_append]

/-- Behind its opening sign, an object is read to its end. -/
theorem advance_tokensFields : ∀ (fields : List (String × Json)) (_ : plainFields fields = true)
    (stack : List Frame) (ts : List Token),
    advance (.name stack [] true) (tokensFields fields ++ ts) =
      advance (.after stack (.obj fields)) ts
  | [], _, _, ts => advance_cons rfl ts
  | (name, x) :: fields, h, stack, ts => by
    rw [plainFields, Bool.and_eq_true] at h
    calc advance (.name stack [] true) (tokensFields ((name, x) :: fields) ++ ts)
        = advance (.value (.object [] (some name) :: stack))
            (x.tokens ++ (tokensMoreFields fields ++ ts)) := by
          -- the name and the colon
          simp only [tokensFields, List.cons_append, List.append_assoc]
          rw [advance_cons rfl, advance_cons rfl, Option.map_some, String.ofList_toList]
      _ = advance (.after (.object [] (some name) :: stack) x) (tokensMoreFields fields ++ ts) :=
          advance_tokens x h.1 _ _
      _ = advance (.after stack (.obj ((name, x) :: fields))) ts :=
          advance_tokensMoreFields fields h.2 stack [] name x ts

/-- The fields behind the one just read; `before` are those in front of it. -/
theorem advance_tokensMoreFields : ∀ (fields : List (String × Json))
    (_ : plainFields fields = true) (stack : List Frame) (before : List (String × Json))
    (name : String) (x : Json) (ts : List Token),
    advance (.after (.object (before.map fun f => (some f.1, f.2)).reverse (some name) :: stack) x)
        (tokensMoreFields fields ++ ts) =
      advance (.after stack (.obj (before ++ (name, x) :: fields))) ts
  | [], _, stack, before, name, x, ts => by
    have all : ((some name, x) :: (before.map fun f => (some f.1, f.2)).reverse).reverse =
        (before ++ [(name, x)]).map fun f => (some f.1, f.2) := by simp
    rw [tokensMoreFields, List.singleton_append, advance_cons rfl, all, ofFields_map_some]
  | (next, y) :: fields, h, stack, before, name, x, ts => by
    rw [plainFields, Bool.and_eq_true] at h
    -- the field just read joins those in front of the next one
    have ih := advance_tokensMoreFields fields h.2 stack (before ++ [(name, x)]) next y ts
    rw [List.map_append, List.reverse_append, List.append_assoc] at ih
    simp only [tokensMoreFields, List.cons_append, List.append_assoc]
    rw [advance_cons rfl, advance_cons rfl, advance_cons rfl, advance_tokens y h.1, Option.map_some,
      String.ofList_toList]
    exact ih

end

/-! ### Texts and bytes -/

/-- The machine takes the tokens of a plain value for that value, and for nothing more. -/
theorem ofTokens?_tokens {j : Json} (hj : j.plain = true) : ofTokens? j.tokens = some j := by
  have h := advance_tokens j hj [] []
  rw [List.append_nil] at h
  rw [ofTokens?, ← advance, h]
  rfl

/-- The characters of a plain value are read as that value: its tokens are scanned again, and the
machine reads them. -/
theorem readSymbols?_chars {j : Json} (hj : j.plain = true) :
    readSymbols? (j.chars.map some) = some j := by
  -- first the tokens are found again, then the value
  have h := scan_spelled (spaced_tokens j hj)
  rw [spelled] at h
  rw [readSymbols?, chars, h, Option.bind_some, ofTokens?_tokens hj]

/-- **A plain value is read back from its text.** -/
theorem read?_render {j : Json} (hj : j.plain = true) : read? j.render = some j := by
  calc read? j.render
      = readSymbols? (j.chars.map some) := by rw [read?, render, String.toList_ofList]
    _ = some j := readSymbols?_chars hj

/-- **A plain value is read back from its bytes.** -/
theorem readBytes?_renderBytes {j : Json} (hj : j.plain = true) :
    readBytes? j.renderBytes = some j := by
  calc readBytes? j.renderBytes
      = readSymbols? (j.chars.map some) := by
        rw [readBytes?, renderBytes, Text.Utf8.decode_encode]
    _ = some j := readSymbols?_chars hj

end BlockRelay.Json
