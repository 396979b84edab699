import BlockRelay.Proofs.Json.Records
import BlockRelay.Proofs.Json.Declared

/-!
# Lists of texts in JSON

A written list of texts is read back (`texts_render`), and in JSON its texts are in quotes: a
bracket with anything else behind it opens no list of texts, whatever follows
(`not_texts_of_unquoted`).

What the reader makes of the rest can be anything, hence the proof of the second follows the
machine. `State.Spoilt` says that the outermost array has an item that is no text, or is about to
get one, and no token takes that away (`State.Spoilt.step`). The scanner never takes back a token,
and it passes over nothing but blanks (`scanFrom_eq_some`); so the first two tokens of the text are
known, and there is one more if anything but blanks follows.
-/

namespace BlockRelay.Json

/-- A written list of texts is read back. -/
theorem texts_render (texts : List String) :
    (read? (render (.arr (texts.map .str)))).bind (list? text?) = some texts :=
  read_render (plain_arr_map plain_str texts) (@list?_map String text? .str (fun _ => rfl) texts)

/-- A written list is in brackets. -/
theorem exists_chars_arr (xs : List Json) :
    ∃ inner, (Json.arr xs).chars = '[' :: (inner ++ [']']) := by
  -- the closing token is last in either half of the printer: after a first item, and after more
  have further : ∀ xs, ∃ ts, tokensMoreItems xs = ts ++ [.endArray] := by
    intro xs
    induction xs with
    | nil => exact ⟨[], by rw [tokensMoreItems, List.nil_append]⟩
    | cons x xs ih =>
      obtain ⟨ts, hts⟩ := ih
      exact ⟨.comma :: x.tokens ++ ts, by rw [tokensMoreItems, hts, List.append_assoc]⟩
  have items : ∃ ts, tokensItems xs = ts ++ [.endArray] := by
    cases xs with
    | nil => exact ⟨[], by rw [tokensItems, List.nil_append]⟩
    | cons x xs =>
      obtain ⟨ts, hts⟩ := further xs
      exact ⟨x.tokens ++ ts, by rw [tokensItems, hts, List.append_assoc]⟩
  obtain ⟨ts, hts⟩ := items
  -- what the opening bracket leaves is `ts`, spelt out
  refine ⟨ts.flatMap Token.chars, ?_⟩
  rw [chars, tokens, hts, List.flatMap_cons, List.flatMap_append, List.flatMap_singleton]
  rfl

/-! ### Items that are no texts -/

/-- An array with an item that is no text is no list of texts. -/
theorem texts_of_mem {xs : List Json} {x : Json} (hx : x ∈ xs) (no : text? x = none) :
    list? text? (.arr xs) = none := by
  rw [Option.eq_none_iff_forall_ne_some]
  intro texts h
  have each := list?_eq_some_iff.1 h
  obtain ⟨i, hi, rfl⟩ := List.mem_iff_get.1 hx
  have same : text? (xs.get i) = some (texts.get ⟨i, each.length_eq ▸ i.isLt⟩) := each.get _ _
  rw [no] at same
  cases same

/-- No word is a text. -/
theorem text?_of_ofWord? {w : List Char} {x : Json} (h : ofWord? w = some x) : text? x = none := by
  unfold ofWord? number? ofIntegerLiteral at h
  grind [text?]

/-! ### The machine -/

/-- **The array at the bottom of a stack has an item that is no text,** or gets one: something is
open inside it, or `current` says that the value just read is no text. -/
def Spoilt (current : Prop) (stack : List Frame) : Prop :=
  ∃ inner before, stack = inner ++ [.array before] ∧
    (inner = [] → current ∨ ∃ x ∈ before, text? x = none)

/-- The value that the machine is reading is no list of texts, however it ends. -/
def State.Spoilt : State → Prop
  | .value stack => Json.Spoilt False stack
  | .first stack => Json.Spoilt True stack
  | .name stack _ _ => Json.Spoilt True stack
  | .colon stack _ _ => Json.Spoilt True stack
  | .after [] x => list? text? x = none
  | .after stack x => Json.Spoilt (text? x = none) stack

variable {p q : Prop} {stack : List Frame} {frame : Frame} {s s' : State} {t : Token}

/-- A weaker reason to call the stack spoilt will do. -/
theorem Spoilt.mono (h : Spoilt p stack) (hpq : p → q) : Spoilt q stack := by
  obtain ⟨inner, before, split_, bottom⟩ := h
  exact ⟨inner, before, split_, fun none_ => (bottom none_).imp_left hpq⟩

/-- What is opened inside an array is an item that is no text. -/
theorem Spoilt.push (h : Spoilt p stack) (frame : Frame) (q : Prop) :
    Spoilt q (frame :: stack) := by
  obtain ⟨inner, before, rfl, -⟩ := h
  exact ⟨frame :: inner, before, rfl, nofun⟩

/-- A container ends: it was the array at the bottom, or something is left around it. -/
theorem Spoilt.pop (h : Spoilt p (frame :: stack)) :
    (∃ before, frame = .array before ∧ stack = [] ∧ (p ∨ ∃ x ∈ before, text? x = none)) ∨
      Spoilt True stack := by
  obtain ⟨inner, before, split_, bottom⟩ := h
  cases inner with
  -- the outer list itself is closed
  | nil =>
    obtain ⟨rfl, rfl⟩ := List.cons.inj split_
    exact .inl ⟨before, rfl, rfl, bottom rfl⟩
  | cons _ inner =>
    obtain ⟨rfl, rfl⟩ := List.cons.inj split_
    exact .inr ⟨inner, before, rfl, fun _ => .inl trivial⟩

theorem Spoilt.ne_nil (h : Spoilt p stack) : stack ≠ [] := by
  obtain ⟨inner, before, rfl, -⟩ := h
  exact List.append_ne_nil_of_right_ne_nil _ (List.cons_ne_nil _ _)

/-- A value takes its place in what is open around it. -/
theorem Spoilt.after {x : Json} (h : Spoilt p stack) (hx : p → text? x = none) :
    State.Spoilt (.after stack x) := by
  cases stack with
  | nil => exact absurd rfl h.ne_nil
  | cons frame stack => exact h.mono hx

/-- A value begins. -/
theorem Spoilt.beginValue (h : Spoilt False stack) (hs : beginValue stack t = some s') :
    s'.Spoilt := by
  cases t with
  -- opening a list or a record puts a layer on top and leaves what lies below alone
  | beginArray =>
    cases hs
    exact h.mono nofun
  | beginObject =>
    cases hs
    exact h.mono nofun
  -- a finished value joins the layer on top; that it is a text excuses nothing here
  | text cs =>
    cases cs with
    | none =>
      cases hs
      exact h.after nofun
    | some cs =>
      cases hs
      exact h.after nofun
  | word w =>
    obtain ⟨x, -, rfl⟩ := Option.map_eq_some_iff.1 hs
    exact h.after nofun
  -- no other token starts a value
  | endArray => cases hs
  | endObject => cases hs
  | comma => cases hs
  | colon => cases hs

theorem text?_ofFields (fields : OpenFields) : text? (ofFields fields) = none := by
  unfold ofFields
  split <;> rfl

/-- **What is no list of texts stays none.** -/
theorem State.Spoilt.step (h : s.Spoilt) (hs : step s t = some s') : s'.Spoilt := by
  unfold Json.step at hs
  split at hs
  · -- a value may begin
    exact Json.Spoilt.beginValue h hs
  · -- an array ends as soon as it has begun
    cases hs
    exact Json.Spoilt.after h fun _ => rfl
  · -- its first item begins
    exact Json.Spoilt.beginValue (Json.Spoilt.push h _ False) hs
  · -- an object ends as soon as it has begun
    cases hs
    exact Json.Spoilt.after h fun _ => rfl
  · -- a name
    cases hs
    exact h
  · cases hs
  · -- a field begins
    cases hs
    exact Json.Spoilt.push h _ False
  · cases hs
  · next before stack x =>
    -- the next item of an array begins
    cases hs
    rcases Json.Spoilt.pop h with ⟨_, array, rfl, no⟩ | around
    · cases array
      refine ⟨[], x :: before, rfl, fun _ => .inr ?_⟩
      rcases no with no | ⟨y, hy, no⟩
      · exact ⟨x, List.mem_cons_self, no⟩
      · exact ⟨y, List.mem_cons_of_mem x hy, no⟩
    · exact around.push _ False
  · next before stack x =>
    -- an array ends
    cases hs
    rcases Json.Spoilt.pop h with ⟨_, array, rfl, no⟩ | around
    · cases array
      rcases no with no | ⟨y, hy, no⟩
      · exact texts_of_mem (List.mem_reverse.2 List.mem_cons_self) no
      · exact texts_of_mem (List.mem_reverse.2 (List.mem_cons_of_mem x hy)) no
    · exact around.after fun _ => rfl
  · -- the next field of an object begins
    cases hs
    rcases Json.Spoilt.pop h with ⟨_, array, -⟩ | around
    · cases array
    · exact around
  · -- an object ends
    cases hs
    rcases Json.Spoilt.pop h with ⟨_, array, -⟩ | around
    · cases array
    · exact around.after fun _ => text?_ofFields _
  · cases hs

/-- What is no list of texts stays none, whatever follows. -/
theorem State.Spoilt.foldlM {ts : List Token} (h : s.Spoilt)
    (hs : ts.foldlM Json.step s = some s') :
    s'.Spoilt := by
  induction ts generalizing s with
  | nil =>
    cases hs
    exact h
  -- one step keeps the state spoilt, and so does the rest
  | cons t ts ih =>
    rw [List.foldlM_cons, Option.bind_eq_bind, Option.bind_eq_some_iff] at hs
    obtain ⟨s₁, first, rest⟩ := hs
    exact ih (h.step first) rest

/-- An array that begins with something else than a text, or than an array, is spoilt from then on,
unless it is empty. -/
theorem step_first_cases (array : t ≠ .beginArray) (text : ∀ cs, t ≠ .text cs)
    (hs : step (.first []) t = some s) : s.Spoilt ∨ t = .endArray ∧ s = .after [] (.arr []) := by
  -- what is opened now will be an item of the outer list and is no text
  have begun : Json.Spoilt True [.array []] := ⟨[], [], rfl, fun _ => .inl trivial⟩
  cases t with
  | beginArray => exact absurd rfl array
  | text cs => exact absurd rfl (text cs)
  -- only here may the list end at once
  | endArray =>
    cases hs
    exact .inr ⟨rfl, rfl⟩
  | beginObject =>
    cases hs
    exact .inl begun
  | word w =>
    obtain ⟨x, word, rfl⟩ := Option.map_eq_some_iff.1 hs
    exact .inl (begun.after fun _ => text?_of_ofWord? word)
  | endObject => cases hs
  | comma => cases hs
  | colon => cases hs

/-- Tokens that open an array with something else than a text are no list of texts. -/
theorem not_texts_of_tokens {ts : List Token} (array : t ≠ .beginArray) (text : ∀ cs, t ≠ .text cs)
    (more : t = .endArray → ts ≠ []) :
    (ofTokens? (.beginArray :: t :: ts)).bind (list? text?) = none := by
  rw [Option.bind_eq_none_iff]
  intro j read
  unfold ofTokens? at read
  split at read
  · next x run =>
    cases read
    -- the first token opens the list, so the second meets an empty one
    rw [List.foldlM_cons, Option.bind_eq_bind, Option.bind_eq_some_iff] at run
    obtain ⟨_, opened, run⟩ := run
    cases opened
    rw [List.foldlM_cons, Option.bind_eq_bind, Option.bind_eq_some_iff] at run
    obtain ⟨s, first, run⟩ := run
    rcases step_first_cases array text first with spoilt | ⟨rfl, rfl⟩
    · exact spoilt.foldlM run
    · -- nothing may follow the empty array
      obtain ⟨u, us, rfl⟩ := List.exists_cons_of_ne_nil (more rfl)
      rw [List.foldlM_cons, Option.bind_eq_bind, Option.bind_eq_some_iff] at run
      obtain ⟨_, after, -⟩ := run
      cases after
  · cases read

/-! ### The scanner -/

/-- The scanner adds to the tokens that it has, and passes over nothing but blanks. -/
theorem scanFrom_eq_some {cs : List Symbol} {done ts : List Token}
    (h : scanFrom cs done = some ts) :
    ∃ new, ts = new ++ done ∧ (new = [] → ∀ x ∈ cs, ∃ c, x = some c ∧ isBlank c = true) := by
  fun_induction scanFrom cs done with
  | case1 done =>
    cases h
    exact ⟨[], rfl, nofun⟩
  | case2 => cases h
  -- a blank adds no token
  | case3 done c r blank ih =>
    obtain ⟨new, rfl, blanks⟩ := ih h
    refine ⟨new, rfl, fun none_ x hx => ?_⟩
    rcases List.mem_cons.1 hx with rfl | hx
    · exact ⟨c, rfl, blank⟩
    · exact blanks none_ x hx
  | case4 => cases h
  -- from here a text, a word or a sign: one token more, so the tokens are not empty
  | case5 =>
    rename_i ih
    obtain ⟨new, rfl, -⟩ := ih h
    exact ⟨new ++ [_], List.append_cons .., by simp⟩
  | case6 done c r _ _ word ih =>
    obtain ⟨new, rfl, -⟩ := ih h
    exact ⟨new ++ [_], List.append_cons .., by simp⟩
  | case7 => cases h
  | case8 done c r _ _ _ t sign ih =>
    obtain ⟨new, rfl, -⟩ := ih h
    exact ⟨new ++ [t], List.append_cons .., by simp⟩

/-- Of the signs, only `[` opens a list, none is a text, and only `]` closes a list. -/
theorem sign?_cases {c : Char} (h : Token.sign? c = some t) (bracket : c ≠ '[') :
    t ≠ .beginArray ∧ (∀ cs, t ≠ .text cs) ∧ (t = .endArray → c = ']') := by
  unfold Token.sign? at h
  grind

/-- **A bracket with something else than a quote or another bracket behind it opens no list of
texts,** unless it is closed at once and nothing but blanks follows. -/
theorem not_texts_of_unquoted {c : Char} {cs : List Char} (blank : isBlank c = false)
    (quote : c ≠ '"') (bracket : c ≠ '[') (more : c = ']' → ∃ d ∈ cs, isBlank d = false) :
    (read? (String.ofList ('[' :: c :: cs))).bind (list? text?) = none := by
  have opened : scanFrom (some '[' :: some c :: cs.map some) [] =
      scanFrom (some c :: cs.map some) [.beginArray] := scanFrom_sign rfl (by decide) _ _
  rw [read?, String.toList_ofList, List.map_cons, List.map_cons, readSymbols?, scan, opened]
  -- what is scanned behind the bracket is a word or a sign
  rw [scanFrom, if_neg (by rw [blank]; decide), if_neg quote]
  split
  · cases scanned : scanFrom ((cs.map some).dropWhile isWordSymbol)
        [.word (c :: ((cs.map some).takeWhile isWordSymbol).filterMap id), .beginArray] with
    | none => rfl
    | some ts =>
      obtain ⟨new, rfl, -⟩ := scanFrom_eq_some scanned
      rw [Option.map_some, Option.bind_some, List.reverse_append]
      exact not_texts_of_tokens (fun same => by cases same) (fun _ same => by cases same)
        fun same => by cases same
  · split
    · rfl
    · next t sign =>
      obtain ⟨array, text, closed⟩ := sign?_cases sign bracket
      cases scanned : scanFrom (cs.map some) [t, .beginArray] with
      | none => rfl
      | some ts =>
        obtain ⟨new, rfl, blanks⟩ := scanFrom_eq_some scanned
        rw [Option.map_some, Option.bind_some, List.reverse_append]
        refine not_texts_of_tokens array text fun ended none_ => ?_
        -- behind a closed bracket there is something to scan
        obtain ⟨d, hd, visible⟩ := more (closed ended)
        obtain ⟨e, same, blank⟩ := blanks (List.reverse_eq_nil_iff.1 none_) _
          (List.mem_map_of_mem hd)
        cases same
        rw [visible] at blank
        cases blank

end BlockRelay.Json
