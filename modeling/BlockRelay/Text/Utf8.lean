/-!
# UTF-8

Response bodies and cached values arrive as bytes. `Utf8.decode` splits them into characters and
ill-formed pieces: an ill-formed piece is a longest run of bytes that begins a character and is
not finished by the next byte, or one byte that begins no character. Both readings of foreign
bytes are views of that one list: the strict one (`decode?`) refuses any ill-formed piece, the
lossy one (`lossy`) shows each as U+FFFD.

Main statement: what was encoded decodes to the same characters, by either reading
(`decode_encode`, `decode?_encode`, `lossy_encode`).
-/

namespace BlockRelay.Text.Utf8

/-- What a first byte announces: the number of bytes that follow, the bits it carries, and the
range of the byte right after it. -/
structure Lead where
  /-- The number of bytes that follow. -/
  tails : Nat
  /-- The bits that the first byte carries. -/
  bits : Nat
  /-- The least byte that may come second. -/
  low : UInt8
  /-- The greatest byte that may come second. -/
  high : UInt8
deriving DecidableEq, Repr

/-- The byte ranges of well-formed UTF-8, by first byte. The narrowed second ranges keep out
overlong forms, surrogates and code points beyond U+10FFFF. -/
def Lead.of? (a : UInt8) : Option Lead :=
  if a ≤ 0x7F then some ⟨0, a.toNat, 0x80, 0xBF⟩
  -- `0xC0` and `0xC1` would only begin overlong forms
  else if 0xC2 ≤ a && a ≤ 0xDF then some ⟨1, a.toNat - 0xC0, 0x80, 0xBF⟩
  else if a == 0xE0 then some ⟨2, 0, 0xA0, 0xBF⟩
  -- the second bytes above this range would make surrogates
  else if a == 0xED then some ⟨2, 13, 0x80, 0x9F⟩
  else if 0xE1 ≤ a && a ≤ 0xEF then some ⟨2, a.toNat - 0xE0, 0x80, 0xBF⟩
  else if a == 0xF0 then some ⟨3, 0, 0x90, 0xBF⟩
  else if 0xF1 ≤ a && a ≤ 0xF3 then some ⟨3, a.toNat - 0xF0, 0x80, 0xBF⟩
  -- and those above this one code points that do not exist
  else if a == 0xF4 then some ⟨3, 4, 0x80, 0x8F⟩
  else none

/-- Reads `n` further bytes of a character; stops in front of a byte that cannot follow. -/
def tails : Nat → Nat → List UInt8 → Option Char × List UInt8
  | 0, bits, r => (some (Char.ofNat bits), r)
  | _ + 1, _, [] => (none, [])
  | n + 1, bits, b :: r =>
    if 0x80 ≤ b && b ≤ 0xBF then tails n (64 * bits + (b.toNat - 0x80)) r else (none, b :: r)

/-- Reads one character or one ill-formed piece that begins with the byte `a`. -/
def piece (a : UInt8) (r : List UInt8) : Option Char × List UInt8 :=
  match Lead.of? a with
  | none => (none, r)
  | some ⟨0, bits, _, _⟩ => (some (Char.ofNat bits), r)
  | some ⟨n + 1, bits, low, high⟩ =>
    match r with
    | [] => (none, [])
    | b :: r' =>
      -- a byte that cannot come second begins the next piece
      if low ≤ b && b ≤ high then tails n (64 * bits + (b.toNat - 0x80)) r' else (none, r)

theorem length_tails_le (n bits : Nat) (r : List UInt8) :
    (tails n bits r).2.length ≤ r.length := by
  induction n generalizing bits r with
  | zero => simp [tails]
  | succ n ih =>
    cases r with
    | nil => simp [tails]
    | cons b r =>
      unfold tails
      split
      · exact Nat.le_succ_of_le (ih _ _)
      · simp

theorem length_piece_le (a : UInt8) (r : List UInt8) : (piece a r).2.length ≤ r.length := by
  unfold piece
  split
  · simp
  · simp
  · split
    · simp
    · split
      · exact Nat.le_succ_of_le (length_tails_le _ _ _)
      · simp

/-- **The characters of a byte sequence**, with `none` for each ill-formed piece. -/
def decode : List UInt8 → List (Option Char)
  | [] => []
  | a :: r => (piece a r).1 :: decode (piece a r).2
termination_by bs => bs.length
decreasing_by
  have := length_piece_le a r
  simp only [List.length_cons]
  omega

/-- The characters of a byte sequence, if it is well-formed. -/
def decode? (bs : List UInt8) : Option (List Char) := (decode bs).mapM id

/-- The character that stands in for an ill-formed piece. -/
def replacement : Char := '\uFFFD'

/-- The characters of a byte sequence, with U+FFFD for each ill-formed piece. -/
def lossy (bs : List UInt8) : List Char := (decode bs).map (·.getD replacement)

/-- The bytes of a text. -/
def encode (cs : List Char) : List UInt8 := cs.flatMap String.utf8EncodeChar

@[simp] theorem encode_nil : encode [] = [] := rfl

@[simp] theorem encode_cons (c : Char) (cs : List Char) :
    encode (c :: cs) = String.utf8EncodeChar c ++ encode cs := rfl

theorem encode_append (cs ds : List Char) : encode (cs ++ ds) = encode cs ++ encode ds := by
  simp [encode]

/-- The number of bytes of a text. -/
def size (cs : List Char) : Nat := (cs.map Char.utf8Size).foldr (· + ·) 0

@[simp] theorem size_nil : size [] = 0 := rfl

@[simp] theorem size_cons (c : Char) (cs : List Char) : size (c :: cs) = c.utf8Size + size cs := rfl

theorem length_encode (cs : List Char) : (encode cs).length = size cs := by
  induction cs with
  | nil => rfl
  | cons c cs ih => rw [encode_cons, List.length_append, String.length_utf8EncodeChar, ih, size_cons]

/-- Whether a byte only goes on with a character. -/
def isTail (b : UInt8) : Bool := 0x80 ≤ b && b ≤ 0xBF

/-- Whether the place behind the first `n` bytes of a text is between two characters, or at one of
its ends. -/
def isBoundary (bytes : List UInt8) (n : Nat) : Bool :=
  n = 0 ||
    match bytes[n]? with
    | some b => !isTail b
    | none => n = bytes.length

/-- **The last place between characters,** searched for backwards from the place behind `n` bytes. -/
def lastBoundary (bytes : List UInt8) : Nat → Nat
  | 0 => 0
  | n + 1 => if isBoundary bytes (n + 1) then n + 1 else lastBoundary bytes n

@[simp] theorem decode_nil : decode [] = [] := by simp [decode]

theorem decode_cons (a : UInt8) (r : List UInt8) :
    decode (a :: r) = (piece a r).1 :: decode (piece a r).2 := by
  rw [decode]

/-! ### Round trip -/

/-- A byte that can follow gives its six bits. -/
theorem tails_cons {n bits d : Nat} {b : UInt8} (hb : b.toNat = d + 128) (h : d < 64)
    (r : List UInt8) : tails (n + 1) bits (b :: r) = tails n (64 * bits + d) r := by
  have low : (0x80 : UInt8) ≤ b := by simp [UInt8.le_iff_toNat_le, hb]
  have high : b ≤ (0xBF : UInt8) := by simp [UInt8.le_iff_toNat_le, hb]; omega
  simp [tails, low, high, hb]

/-- The first byte of a character of one byte. -/
theorem Lead.of?_one {v : Nat} (h : v < 128) : Lead.of? (.ofNat v) = some ⟨0, v, 0x80, 0xBF⟩ :=
  (show ∀ x : Fin 128, Lead.of? (.ofNat x) = some ⟨0, x, 0x80, 0xBF⟩ by decide +kernel) ⟨v, h⟩

/-- The first byte of a character of two bytes. -/
theorem Lead.of?_two {v : Nat} (h : v < 32) (h₂ : 2 ≤ v) :
    Lead.of? (.ofNat (v + 192)) = some ⟨1, v, 0x80, 0xBF⟩ :=
  (show ∀ x : Fin 32, 2 ≤ x.val → Lead.of? (.ofNat (x + 192)) = some ⟨1, x, 0x80, 0xBF⟩ by
    decide +kernel) ⟨v, h⟩ h₂

/-- The first byte of a character of three bytes. -/
theorem Lead.of?_three {v : Nat} (h : v < 16) : Lead.of? (.ofNat (v + 224)) =
    some ⟨2, v, if v = 0 then 0xA0 else 0x80, if v = 13 then 0x9F else 0xBF⟩ :=
  (show ∀ x : Fin 16, Lead.of? (.ofNat (x + 224)) =
    some ⟨2, x, if x.val = 0 then 0xA0 else 0x80, if x.val = 13 then 0x9F else 0xBF⟩ by
    decide +kernel) ⟨v, h⟩

/-- The first byte of a character of four bytes. -/
theorem Lead.of?_four {v : Nat} (h : v < 5) : Lead.of? (.ofNat (v + 240)) =
    some ⟨3, v, if v = 0 then 0x90 else 0x80, if v = 4 then 0x8F else 0xBF⟩ :=
  (show ∀ x : Fin 5, Lead.of? (.ofNat (x + 240)) =
    some ⟨3, x, if x.val = 0 then 0x90 else 0x80, if x.val = 4 then 0x8F else 0xBF⟩ by
    decide +kernel) ⟨v, h⟩

/-- A first byte and a second one in its range are read with the bytes after them. -/
theorem piece_cons {a b : UInt8} {n x d : Nat} {low high : UInt8}
    (ha : Lead.of? a = some ⟨n + 1, x, low, high⟩) (hb : b.toNat = d + 128)
    (hlow : low.toNat ≤ d + 128) (hhigh : d + 128 ≤ high.toNat) (r : List UInt8) :
    piece a (b :: r) = tails n (64 * x + d) r := by
  have h₁ : low ≤ b := by rw [UInt8.le_iff_toNat_le, hb]; exact hlow
  have h₂ : b ≤ high := by rw [UInt8.le_iff_toNat_le, hb]; exact hhigh
  simp [piece, ha, h₁, h₂, hb]

/-- **The bytes of a character are one piece**, whatever follows them. -/
theorem piece_encodeChar (c : Char) (r : List UInt8) :
    ∃ a t, String.utf8EncodeChar c = a :: t ∧ piece a (t ++ r) = (some c, r) := by
  have hc : c.val.toNat < 0xD800 ∨ 0xDFFF < c.val.toNat ∧ c.val.toNat < 0x110000 := c.valid
  have back {n : Nat} (h : n = c.val.toNat) : Char.ofNat n = c := by
    rw [h]; exact Char.ofNat_toNat c
  have byte {n : Nat} (h : n < 64) : (UInt8.ofNat (n + 128)).toNat = n + 128 :=
    UInt8.toNat_ofNat_of_lt' (by simp only [UInt8.size]; omega)
  unfold String.utf8EncodeChar
  generalize c.val.toNat = v at *
  dsimp only
  split
  · -- one byte
    refine ⟨_, _, rfl, ?_⟩
    simp [piece, Lead.of?_one (v := v) (by omega), back]
  split
  · -- two bytes
    refine ⟨_, _, rfl, ?_⟩
    simp only [List.cons_append, List.nil_append]
    rw [piece_cons (Lead.of?_two (by omega) (by omega)) (byte (by omega)) (by simp)
      (by simp; omega), tails, back (by omega)]
  split
  · -- three bytes: no surrogate among them, so the narrowed ranges hold
    refine ⟨_, _, rfl, ?_⟩
    simp only [List.cons_append, List.nil_append]
    rw [piece_cons (Lead.of?_three (by omega)) (byte (by omega)) (by split <;> simp; omega)
      (by split <;> simp <;> omega), tails_cons (byte (by omega)) (by omega), tails,
      back (by omega)]
  · -- four bytes, the first at most four above the least
    refine ⟨_, _, rfl, ?_⟩
    simp only [List.cons_append, List.nil_append]
    rw [piece_cons (Lead.of?_four (by omega)) (byte (by omega)) (by split <;> simp; omega)
      (by split <;> simp <;> omega), tails_cons (byte (by omega)) (by omega),
      tails_cons (byte (by omega)) (by omega), tails, back (by omega)]

/-- A text in front of other bytes decodes to its characters, whatever follows. -/
theorem decode_encode_append (cs : List Char) (r : List UInt8) :
    decode (encode cs ++ r) = cs.map some ++ decode r := by
  induction cs with
  | nil => rfl
  | cons c cs ih =>
    obtain ⟨a, t, h, hp⟩ := piece_encodeChar c (encode cs ++ r)
    simp [h, decode_cons, hp, ih]

/-- **A text is what its bytes decode to.** -/
theorem decode_encode (cs : List Char) : decode (encode cs) = cs.map some := by
  simpa using decode_encode_append cs []

/-- The strict reading of the bytes of a text is the text. -/
theorem decode?_encode (cs : List Char) : decode? (encode cs) = some cs := by
  rw [decode?, decode_encode]
  induction cs with
  | nil => rfl
  | cons c cs ih => simp [ih]

/-- The lossy reading of the bytes of a text is the text. -/
theorem lossy_encode (cs : List Char) : lossy (encode cs) = cs := by
  simp [lossy, decode_encode, Function.comp_def]

end BlockRelay.Text.Utf8
