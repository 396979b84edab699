import Mathlib.Data.List.Induction
import BlockRelay.Proofs.Hex.Digits
import BlockRelay.Proofs.Url.Domain

/-!
# Hosts given by numbers

An IPv4 address has 32 bits and an IPv6 address eight pieces of 16, however they were written
(`ipv4?_lt`, `ipv6?_fits`). Their canonical texts are read back: four decimal numbers
(`ipv4?_dotted`), and eight hexadecimal ones of which a run of zeros may be left out
(`ipv6?_ipv6Chars`).
-/

namespace BlockRelay.Url

/-! ### IPv4 -/

/-- A byte in decimal reads as that number. -/
theorem ipv4Number?_ofNat : ∀ n < 256, ipv4Number? (Text.Decimal.ofNat n) = some n := by
  decide +kernel

/-- What holds of the ten digits is checked for each of them. -/
theorem digit_forall (p : Char → Bool) (h : ∀ n < 10, p (Char.ofNat (n + 48)) = true) {c : Char}
    (digit : Text.Decimal.isDigit c = true) : p c = true := by
  simp only [Text.Decimal.isDigit, Bool.and_eq_true, decide_eq_true_eq] at digit
  have checked := h (c.toNat - 48) (by omega)
  rwa [Nat.sub_add_cancel digit.1, Char.ofNat_toNat] at checked

/-- The canonical text of an IPv4 address in pieces. -/
def dotted (address : Nat) : List (List Char) :=
  [3, 2, 1, 0].map fun i => Text.Decimal.ofNat (address / Nat.pow 256 i % 256)

theorem isDigit_of_mem_dotted {address : Nat} {piece : List Char} (h : piece ∈ dotted address) :
    ∀ c ∈ piece, Text.Decimal.isDigit c = true := by
  obtain ⟨i, -, rfl⟩ := List.mem_map.1 h
  exact List.all_eq_true.1 (Text.Decimal.all_isDigit_ofNat _)

theorem pieces_dotted (address : Nat) :
    Text.pieces (· = '.') (Text.joined ['.'] (dotted address)) = dotted address :=
  Text.pieces_joined (by decide) (List.cons_ne_nil _ _) fun _ hl c hc => by
    have noDot := digit_forall (fun c => !decide (c = '.')) (by decide)
      (isDigit_of_mem_dotted hl c hc)
    simpa using noDot

/-- What holds of digits and the dot holds of the characters of such a text. -/
theorem forall_mem_dotted (p : Char → Bool) (digits : ∀ n < 10, p (Char.ofNat (n + 48)) = true)
    (dot : p '.' = true) (address : Nat) :
    ∀ c ∈ Text.joined ['.'] (dotted address), p c = true := by
  intro c hc
  rcases Text.mem_joined hc with rfl | ⟨piece, hpiece, hc⟩
  · exact dot
  · exact digit_forall p digits (isDigit_of_mem_dotted hpiece c hc)

/-- The text of an IPv4 address is a plain name. -/
theorem isPlainName_dotted (address : Nat) :
    isPlainName (Text.joined ['.'] (dotted address)) = true := by
  have ascii := forall_mem_dotted (fun c => c.toNat < 0x80) (by decide) (by decide) address
  refine isPlainName_iff.2 ⟨fun c hc => of_decide_eq_true (ascii c hc), fun l hl => ?_⟩
  rw [pieces_dotted] at hl
  -- a mark begins with a letter, and a number does not
  cases l with
  | nil => rfl
  | cons c l =>
    have noMark := digit_forall (fun c => !decide (c.toLower = 'x')) (by decide)
      (isDigit_of_mem_dotted hl c List.mem_cons_self)
    refine decide_eq_false fun marked => ?_
    rw [(List.cons.inj marked).1] at noMark
    cases noMark

/-- Nothing in a dotted address is forbidden in a name. -/
theorem allowed_of_mem_dotted (address : Nat) :
    ∀ c ∈ Text.joined ['.'] (dotted address), isForbiddenInDomain c = false := by
  have allowed :=
    forall_mem_dotted (fun c => !isForbiddenInDomain c) (by decide) (by decide) address
  simpa using allowed

/-- **The text of an IPv4 address** is its own form as a domain name. -/
theorem asciiDomain?_dotted {naming : Naming} (lawful : naming.Lawful) (address : Nat) :
    asciiDomain? naming (Text.joined ['.'] (dotted address)) =
      some (Text.joined ['.'] (dotted address)) := by
  have small := forall_mem_dotted (fun c => c.toLower = c) (by decide) (by decide) address
  refine asciiDomain?_of_plain lawful (isPlainName_dotted address) ?_
    (allowed_of_mem_dotted address)
  exact (List.map_congr_left fun c hc => of_decide_eq_true (small c hc)).trans (List.map_id _)

/-- The text of an IPv4 address ends in a number. -/
theorem endsInNumber_dotted (address : Nat) :
    endsInNumber (Text.joined ['.'] (dotted address)) = true := by
  -- the last part has a digit, and nothing but digits
  obtain ⟨c, cs, last⟩ := List.exists_cons_of_ne_nil
    (Text.Decimal.ofNat_ne_nil (address / Nat.pow 256 0 % 256))
  have digits := Text.Decimal.all_isDigit_ofNat (address / Nat.pow 256 0 % 256)
  rw [endsInNumber, pieces_dotted]
  simp only [dotted, List.map_cons, List.map_nil, List.reverse_cons, List.reverse_nil,
    List.nil_append, List.cons_append]
  rw [last] at digits ⊢
  rw [digits]
  rfl

/-- The value of numbers that stand in the places from `k` on, with a last one behind them. -/
def placed (k : Nat) (front : List Nat) (last : Nat) : Nat :=
  ((front.zipIdx k).map fun (n, i) => n * Nat.pow 256 (3 - i)).foldr (· + ·) last

theorem placed_cons (k n : Nat) (front : List Nat) (last : Nat) :
    placed k (n :: front) last = n * Nat.pow 256 (3 - k) + placed (k + 1) front last := rfl

/-- Numbers in all four places. -/
theorem placed_three (a b c d : Nat) : placed 0 [a, b, c] d =
    a * Nat.pow 256 3 + (b * Nat.pow 256 2 + (c * Nat.pow 256 1 + d)) := by
  rw [placed_cons, placed_cons, placed_cons]
  rfl

/-- The bytes of an address, each in its place. -/
theorem placed_bytes {address : Nat} (h : address < Nat.pow 256 4) :
    placed 0 ([3, 2, 1].map fun i => address / Nat.pow 256 i % 256)
      (address / Nat.pow 256 0 % 256) = address := by
  -- the powers are written out one by one, as no arithmetic knows them
  have p₀ : Nat.pow 256 0 = 1 := rfl
  have p₁ : Nat.pow 256 1 = 256 := rfl
  have p₂ : Nat.pow 256 2 = 65536 := rfl
  have p₃ : Nat.pow 256 3 = 16777216 := rfl
  have p₄ : Nat.pow 256 4 = 4294967296 := rfl
  rw [p₄] at h
  rw [List.map_cons, List.map_cons, List.map_cons, List.map_nil, placed_three, p₀, p₁, p₂, p₃]
  omega

/-- The address of up to four numbers, if they are small enough. -/
def combined? (numbers : List Nat) : Option Nat := do
  let last ← numbers.getLast?
  let front := numbers.dropLast
  guard (front.all (· ≤ 255) ∧ last < Nat.pow 256 (4 - front.length))
  return placed 0 front last

/-- Numbers are one address if all but the last are bytes and the last fits into what is left. -/
theorem combined?_append (front : List Nat) (last : Nat) : combined? (front ++ [last]) =
    if front.all (· ≤ 255) ∧ last < Nat.pow 256 (4 - front.length) then
      some (placed 0 front last)
    else none := by
  rw [combined?, List.getLast?_concat, List.dropLast_concat]
  show (if _ then pure () else failure : Option Unit).bind _ = _
  split <;> rfl

/-- Bytes in the first places leave the value below the number of addresses. -/
theorem placed_lt {k last : Nat} {front : List Nat} (bytes : ∀ n ∈ front, n ≤ 255)
    (short : k + front.length ≤ 3) (below : last < Nat.pow 256 (4 - (k + front.length))) :
    placed k front last < Nat.pow 256 (4 - k) := by
  induction front generalizing k with
  | nil => exact below
  | cons n front ih =>
    rw [List.length_cons] at short below
    have rest : placed (k + 1) front last < Nat.pow 256 (4 - (k + 1)) := by
      refine ih (fun m hm => bytes m (List.mem_cons_of_mem n hm)) (by omega) ?_
      rwa [Nat.add_right_comm, Nat.add_assoc]
    have place : 4 - k = (3 - k) + 1 := by omega
    have same : 4 - (k + 1) = 3 - k := by omega
    have byte : n ≤ 255 := bytes n List.mem_cons_self
    rw [same] at rest
    rw [placed_cons, place]
    -- one byte more is one place of 256 more
    calc n * Nat.pow 256 (3 - k) + placed (k + 1) front last
        < n * Nat.pow 256 (3 - k) + Nat.pow 256 (3 - k) := Nat.add_lt_add_left rest _
      _ = (n + 1) * Nat.pow 256 (3 - k) := (Nat.succ_mul _ _).symm
      _ ≤ 256 * Nat.pow 256 (3 - k) := Nat.mul_le_mul_right _ (Nat.succ_le_succ byte)
      _ = Nat.pow 256 (3 - k + 1) := Nat.mul_comm _ _

/-- Numbers that are small enough make an address of 32 bits. -/
theorem combined?_lt {numbers : List Nat} {address : Nat} (short : numbers.length ≤ 4)
    (h : combined? numbers = some address) : address < Nat.pow 256 4 := by
  obtain rfl | ⟨front, last, rfl⟩ := List.eq_nil_or_concat' numbers
  · cases h
  rw [combined?_append, Option.ite_none_right_eq_some] at h
  -- all but the last number are bytes, and the last fits into what is left
  obtain ⟨⟨bytes, below⟩, h⟩ := h
  rw [← Option.some.inj h]
  rw [List.length_append, List.length_singleton] at short
  refine placed_lt (fun n hn => of_decide_eq_true (List.all_eq_true.1 bytes n hn)) (by omega) ?_
  rwa [Nat.zero_add]

/-- The pieces of a name that count: a dot may stand at its end. -/
def countedPieces (name : List Char) : List (List Char) :=
  let pieces := Text.pieces (· = '.') name
  if pieces.getLast? = some [] then pieces.dropLast else pieces

theorem ipv4?_eq (name : List Char) : ipv4? name =
    if 4 < (countedPieces name).length then none
    else ((countedPieces name).mapM ipv4Number?).bind combined? := rfl

/-- **The text of an IPv4 address** is read as the address. -/
theorem ipv4?_dotted {address : Nat} (h : address < Nat.pow 256 4) :
    ipv4? (Text.joined ['.'] (dotted address)) = some address := by
  -- the last part is not empty, so it is counted
  have counted : countedPieces (Text.joined ['.'] (dotted address)) = dotted address := by
    rw [countedPieces, pieces_dotted]
    exact if_neg fun h => Text.Decimal.ofNat_ne_nil _ (Option.some.inj h)
  have number (i : Nat) : ipv4Number? (Text.Decimal.ofNat (address / Nat.pow 256 i % 256)) =
      some (address / Nat.pow 256 i % 256) :=
    ipv4Number?_ofNat _ (Nat.mod_lt _ (by decide))
  -- each part is read as the byte it was written for
  have numbers : (dotted address).mapM ipv4Number? =
      some ([3, 2, 1, 0].map fun i => address / Nat.pow 256 i % 256) := by
    rw [mapM_eq_some_iff, dotted, List.forall₂_map_left_iff, List.forall₂_map_right_iff]
    exact List.forall₂_same.2 fun i _ => number i
  have bytes : ([3, 2, 1].map fun i => address / Nat.pow 256 i % 256).all (· ≤ 255) = true := by
    refine List.all_eq_true.2 fun n hn => decide_eq_true ?_
    obtain ⟨i, -, rfl⟩ := List.mem_map.1 hn
    exact Nat.le_of_lt_succ (Nat.mod_lt _ (by decide))
  rw [ipv4?_eq, counted, numbers, if_neg (show ¬ 4 < (dotted address).length from Nat.lt_irrefl 4)]
  show combined? ([3, 2, 1].map (fun i => address / Nat.pow 256 i % 256) ++
    [address / Nat.pow 256 0 % 256]) = _
  have below : address / Nat.pow 256 0 % 256 < Nat.pow 256 (4 -
      ([3, 2, 1].map fun i => address / Nat.pow 256 i % 256).length) := by
    rw [List.length_map]
    exact Nat.mod_lt _ (by decide)
  rw [combined?_append, if_pos ⟨bytes, below⟩]
  exact congrArg some (placed_bytes h)

/-- **An IPv4 address has 32 bits,** however it is written. -/
theorem ipv4?_lt {name : List Char} {address : Nat} (h : ipv4? name = some address) :
    address < Nat.pow 256 4 := by
  rw [ipv4?_eq] at h
  split at h
  · cases h
  · next short =>
    obtain ⟨numbers, hnumbers, h⟩ := Option.bind_eq_some_iff.1 h
    have same := (mapM_eq_some_iff.1 hnumbers).length_eq
    exact combined?_lt (by omega) h

/-! ### IPv6: what is read -/

theorem value?_lt {c : Char} {v : Nat} (h : Hex.value? c = some v) : v < 16 := by
  unfold Hex.value? at h
  dsimp only at h
  -- a digit, a small letter or a capital
  split at h
  · cases h
    omega
  split at h
  · cases h
    omega
  split at h
  · cases h
    omega
  · cases h

theorem ofDigits_lt {ds : List Nat} (h : ∀ d ∈ ds, d < 16) :
    Hex.ofDigits ds < Nat.pow 16 ds.length := by
  induction ds using List.reverseRecOn with
  | nil => exact Nat.zero_lt_one
  | append_singleton ds d ih =>
    have front := ih fun e he => h e (List.mem_append_left _ he)
    have last : d < 16 := h d (List.mem_append_right _ (List.mem_singleton_self d))
    -- one digit more is one place of 16 more
    have power : Nat.pow 16 (ds.length + 1) = Nat.pow 16 ds.length * 16 := rfl
    rw [Hex.ofDigits] at front
    rw [Hex.ofDigits, List.foldl_append, List.foldl_cons, List.foldl_nil, List.length_append,
      List.length_singleton, power]
    omega

theorem length_takeHex (n : Nat) (cs : List Char) : (takeHex n cs).1.length ≤ n := by
  induction n generalizing cs with
  | zero => exact Nat.le_of_eq rfl
  | succ n ih =>
    cases cs with
    | nil => exact Nat.zero_le _
    | cons c cs =>
      rw [takeHex]
      split
      · exact Nat.succ_le_succ (ih cs)
      · exact Nat.zero_le _

/-- Four digits make a piece of 16 bits. -/
theorem piece_lt (cs : List Char) :
    ((takeHex 4 cs).1.mapM Hex.value?).elim 0 Hex.ofDigits < 65536 := by
  cases read : (takeHex 4 cs).1.mapM Hex.value? with
  | none => exact Nat.zero_lt_succ _
  | some ds =>
    -- four digits make 16 bits
    have four := length_takeHex 4 cs
    rw [(mapM_eq_some_iff.1 read).length_eq] at four
    have below := ofDigits_lt fun d hd =>
      have ⟨_, _, value⟩ := exists_mem_of_mapM read hd
      value?_lt value
    exact Nat.lt_of_lt_of_le below (Nat.pow_le_pow_right (by decide) four)

namespace Ipv6Pieces

/-- **Pieces that fit into an address.** -/
structure Fits (p : Ipv6Pieces) : Prop where
  count : p.count ≤ 8
  small : ∀ n ∈ p.front ++ p.back.getD [], n < 65536

variable {p q : Ipv6Pieces} {n : Nat}

theorem count_push (p : Ipv6Pieces) (n : Nat) : (p.push n).count = p.count + 1 := by
  obtain ⟨front, _ | back⟩ := p
  · exact List.length_append
  · simp only [push, count, Option.elim_some, List.length_append, List.length_singleton]
    omega

/-- Below eight pieces there is room for one more. -/
theorem Fits.push (h : p.Fits) (room : p.count < 8) (hn : n < 65536) : (p.push n).Fits := by
  refine ⟨by rw [count_push]; exact room, fun m hm => ?_⟩
  -- the new number goes to the front or, behind the gap, to the back
  have mem : m ∈ p.front ++ p.back.getD [] ∨ m = n := by
    obtain ⟨front, _ | back⟩ := p
    · simpa [Ipv6Pieces.push, or_comm] using hm
    · simpa [Ipv6Pieces.push, or_assoc] using hm
  rcases mem with hm | rfl
  · exact h.small m hm
  · exact hn

/-- A gap needs room for a piece, and there is one gap at most. -/
theorem Fits.gap (h : p.Fits) (room : p.count < 8) (first : p.back = none) :
    Fits { p with back := some [] } := by
  obtain ⟨front, back⟩ := p
  cases first
  refine ⟨room, ?_⟩
  simpa using h.small

/-- **An address has eight pieces of 16 bits.** -/
theorem Fits.close {pieces : List Nat} (h : p.Fits) (closed : p.close = some pieces) :
    pieces.length = 8 ∧ ∀ n ∈ pieces, n < 65536 := by
  obtain ⟨⟨front, _ | back⟩, count, small⟩ := p, h.count, h.small
  · rw [Ipv6Pieces.close] at closed
    dsimp only at closed
    split at closed
    · next whole =>
      cases closed
      refine ⟨whole, ?_⟩
      simpa using small
    · cases closed
  · cases closed
    simp only [Ipv6Pieces.count, Option.elim_some] at count
    constructor
    · -- the gap stands for the zeros that are missing from eight
      simp only [List.length_append, List.length_replicate]
      omega
    · intro n hn
      rcases List.mem_append.1 hn with hn | hn
      · rcases List.mem_append.1 hn with hn | hn
        · exact small n (List.mem_append_left _ hn)
        · rw [List.eq_of_mem_replicate hn]
          exact Nat.zero_lt_succ _
      · exact small n (List.mem_append_right _ hn)

end Ipv6Pieces

/-- The numbers of an IPv4 address fill two pieces. -/
theorem ipv6Tail?_lt {cs : List Char} {a b : Nat} (h : ipv6Tail? cs = some (a, b)) :
    a < 65536 ∧ b < 65536 := by
  rw [ipv6Tail?] at h
  split at h
  · next w x y z read =>
    -- four bytes make two pieces of 16 bits
    have byte : ∀ n ∈ [w, x, y, z], n ≤ 255 := by
      intro n hn
      obtain ⟨ds, -, value⟩ := exists_mem_of_mapM read hn
      split at value
      · cases value
      · obtain ⟨m, -, bound⟩ := Option.bind_eq_some_iff.1 value
        split at bound
        · cases bound
          assumption
        · cases bound
    have hw := byte w (by simp)
    have hx := byte x (by simp)
    have hy := byte y (by simp)
    have hz := byte z (by simp)
    cases h
    omega
  · cases h

/-- Whatever is read fits. -/
theorem ipv6From_fits {p q : Ipv6Pieces} {cs : List Char} (fits : p.Fits)
    (h : ipv6From p cs = some q) : q.Fits := by
  have room {p : Ipv6Pieces} (fits : p.Fits) (open_ : ¬ p.count = 8) : p.count < 8 :=
    Nat.lt_of_le_of_ne fits.count open_
  -- a gap, a last piece, a piece and the numbers of an IPv4 address go on; all else fails
  fun_induction ipv6From p cs with
  | case1 =>
    cases h
    exact fits
  | case2 | case3 | case6 | case8 | case10 => cases h
  | case4 p r open_ first ih =>
    exact ih (fits.gap (room fits open_) (Option.not_isSome_iff_eq_none.1 first)) h
  -- a last piece
  | case5 p c r open_ =>
    cases h
    exact fits.push (room fits open_) (piece_lt _)
  | case7 p c r open_ _ _ _ _ _ _ ih => exact ih (fits.push (room fits open_) (piece_lt _)) h
  -- an IPv4 address at the end takes two places
  | case9 p c r open_ _ _ _ _ free =>
    obtain ⟨⟨a, b⟩, tail, h⟩ := Option.map_eq_some_iff.1 h
    cases h
    obtain ⟨ha, hb⟩ := ipv6Tail?_lt tail
    have two : p.count ≤ 6 := Nat.not_lt.1 fun full => free (.inr full)
    refine (fits.push (by omega) ha).push ?_ hb
    rw [Ipv6Pieces.count_push]
    omega

/-- **An IPv6 address has eight pieces of 16 bits,** however it is written. -/
theorem ipv6?_fits {cs : List Char} {pieces : List Nat} (h : ipv6? cs = some pieces) :
    pieces.length = 8 ∧ ∀ n ∈ pieces, n < 65536 := by
  have none_ : Ipv6Pieces.Fits ⟨[], none⟩ := ⟨by decide, by simp⟩
  -- an address may begin with its gap, or with a piece
  have gap : Ipv6Pieces.Fits ⟨[], some []⟩ := ⟨by decide, by simp⟩
  unfold ipv6? at h
  split at h
  · obtain ⟨p, read, closed⟩ := Option.bind_eq_some_iff.1 h
    exact (ipv6From_fits gap read).close closed
  · cases h
  · cases h
  · cases h
  · obtain ⟨p, read, closed⟩ := Option.bind_eq_some_iff.1 h
    exact (ipv6From_fits none_ read).close closed

/-! ### IPv6: what is written -/

/-- Digits in front of what is no digit are taken. -/
theorem takeHex_append {k : Nat} {ds rest : List Char} (digits : ∀ c ∈ ds, Hex.isDigit c = true)
    (short : ds.length ≤ k) (stop : ∀ c, rest.head? = some c → Hex.isDigit c = false) :
    takeHex k (ds ++ rest) = (ds, rest) := by
  induction ds generalizing k with
  -- the digits are used up, and what follows is none
  | nil =>
    cases k with
    | zero => rfl
    | succ k =>
      cases rest with
      | nil => rfl
      | cons c rest => exact if_neg (Bool.eq_false_iff.1 (stop c rfl))
  | cons d ds ih =>
    cases k with
    | zero => cases short
    | succ k =>
      have rest_ := ih (fun c hc => digits c (List.mem_cons_of_mem d hc))
        (Nat.le_of_succ_le_succ short)
      rw [List.cons_append, takeHex, if_pos (digits d List.mem_cons_self), rest_]

/-- A written piece is read as its number. -/
theorem piece_ofNat (n : Nat) : ((Hex.ofNat n).mapM Hex.value?).elim 0 Hex.ofDigits = n := by
  obtain ⟨ds, read, value⟩ := Hex.ofDigits_ofNat n
  rw [read, Option.elim_some, value]

/-- What follows the digits of a piece decides how reading goes on. -/
theorem takeHex_ofNat {n : Nat} (hn : n < 65536) (rest : List Char)
    (stop : rest.head? = none ∨ rest.head? = some ':') :
    ∃ c r, Hex.ofNat n ++ rest = c :: r ∧ c ≠ ':' ∧ takeHex 4 (c :: r) = (Hex.ofNat n, rest) := by
  obtain ⟨c, cs, shape⟩ := List.exists_cons_of_ne_nil (Hex.ofNat_ne_nil n)
  -- four digits at most, and a colon or the end behind them
  have taken : takeHex 4 (Hex.ofNat n ++ rest) = (Hex.ofNat n, rest) := by
    refine takeHex_append (Hex.isDigit_ofNat n) (Hex.length_ofNat_le (by decide) hn) ?_
    intro d hd
    rcases stop with none_ | colon
    · rw [none_] at hd
      cases hd
    · rw [colon] at hd
      cases hd
      decide
  refine ⟨c, cs ++ rest, by rw [shape, List.cons_append], ?_, by rwa [shape] at taken ⊢⟩
  rintro rfl
  have digit := Hex.isDigit_ofNat n ':' (by rw [shape]; exact List.mem_cons_self)
  revert digit
  decide

section

variable {p : Ipv6Pieces} {n : Nat}

/-- The last piece. -/
theorem ipv6From_last (room : p.count < 8) (hn : n < 65536) :
    ipv6From p (Hex.ofNat n) = some (p.push n) := by
  obtain ⟨c, r, shape, hc, taken⟩ := takeHex_ofNat hn [] (.inl rfl)
  rw [List.append_nil] at shape
  rw [shape, ipv6From.eq_def]
  dsimp only
  rw [if_neg (Nat.ne_of_lt room), if_neg hc]
  -- nothing stands behind the digits, so the other branches are not taken
  split
  · rw [taken, piece_ofNat]
  · next colon =>
    rw [taken] at colon
    cases colon
  · next dot =>
    rw [taken] at dot
    cases dot
  · next none_ _ _ => exact (none_ (congrArg Prod.snd taken)).elim

/-- A piece with more behind it. -/
theorem ipv6From_piece (room : p.count < 8) (hn : n < 65536) {r : List Char} (more : r ≠ []) :
    ipv6From p (Hex.ofNat n ++ ':' :: r) = ipv6From (p.push n) r := by
  obtain ⟨c, r', shape, hc, taken⟩ := takeHex_ofNat hn (':' :: r) (.inr rfl)
  rw [shape, ipv6From.eq_def]
  dsimp only
  rw [if_neg (Nat.ne_of_lt room), if_neg hc]
  -- of what can follow the digits, it is a colon
  split
  · next none_ =>
    rw [taken] at none_
    cases none_
  · next r'' colon =>
    rw [taken] at colon
    cases colon
    rw [if_neg (by simpa using more), taken, piece_ofNat]
  · next dot =>
    rw [taken] at dot
    cases dot
  · next colon _ => exact (colon r (congrArg Prod.snd taken)).elim

/-- The gap. -/
theorem ipv6From_gap {front : List Nat} (room : front.length < 8) (r : List Char) :
    ipv6From ⟨front, none⟩ (':' :: r) = ipv6From ⟨front, some []⟩ r := by
  have open_ : ¬ Ipv6Pieces.count ⟨front, none⟩ = 8 := Nat.ne_of_lt room
  rw [ipv6From, if_neg open_, if_pos rfl]
  rfl

end

/-- Pieces in hexadecimal, with colons between them. -/
def colons (ps : List Nat) : List Char := Text.joined [':'] (ps.map Hex.ofNat)

theorem colons_cons_cons (n m : Nat) (ps : List Nat) :
    colons (n :: m :: ps) = Hex.ofNat n ++ ':' :: colons (m :: ps) := List.append_assoc ..

theorem colons_cons_ne_nil (n : Nat) (ps : List Nat) : colons (n :: ps) ≠ [] := by
  cases ps with
  | nil => exact Hex.ofNat_ne_nil n
  | cons m ps =>
    rw [colons_cons_cons]
    exact List.append_ne_nil_of_right_ne_nil _ (List.cons_ne_nil _ _)

/-- Pieces are read one by one. -/
theorem ipv6From_colons {p : Ipv6Pieces} {n : Nat} {ps : List Nat}
    (room : p.count + (n :: ps).length ≤ 8) (small : ∀ m ∈ n :: ps, m < 65536) :
    ipv6From p (colons (n :: ps)) = some ((n :: ps).foldl Ipv6Pieces.push p) := by
  induction ps generalizing p n with
  | nil => exact ipv6From_last room (small n List.mem_cons_self)
  -- a piece and its colon, and then the rest with room for one less
  | cons m ps ih =>
    rw [List.length_cons] at room
    rw [colons_cons_cons, ipv6From_piece (by omega) (small n List.mem_cons_self)
      (colons_cons_ne_nil m ps)]
    refine ih ?_ fun k hk => small k (List.mem_cons_of_mem n hk)
    rw [Ipv6Pieces.count_push]
    omega

/-- Pieces in front of a gap are read one by one, and then the gap. -/
theorem ipv6From_colons_gap (front : List Nat) {ps : List Nat} {n : Nat}
    (room : front.length + (n :: ps).length < 8) (small : ∀ m ∈ n :: ps, m < 65536)
    (r : List Char) : ipv6From ⟨front, none⟩ (colons (n :: ps) ++ ':' :: ':' :: r) =
      ipv6From ⟨front ++ n :: ps, some []⟩ r := by
  induction ps generalizing front n with
  -- the last piece before the gap: its colon is the first of the two
  | nil =>
    have full : (front ++ [n]).length < 8 := by
      rw [List.length_append]
      exact room
    have first : Ipv6Pieces.count ⟨front, none⟩ < 8 := by
      rw [List.length_singleton] at room
      exact Nat.lt_of_succ_lt room
    show ipv6From _ (Hex.ofNat n ++ ':' :: ':' :: r) = _
    rw [ipv6From_piece first (small n List.mem_cons_self) (List.cons_ne_nil _ _)]
    exact ipv6From_gap full r
  -- a colon and another piece
  | cons m ps ih =>
    rw [List.length_cons] at room
    have first : Ipv6Pieces.count ⟨front, none⟩ < 8 := show front.length < 8 by omega
    rw [colons_cons_cons, List.append_assoc, List.cons_append,
      ipv6From_piece first (small n List.mem_cons_self)
        (List.append_ne_nil_of_left_ne_nil (colons_cons_ne_nil m ps) _)]
    refine (ih (front ++ [n]) ?_ fun k hk => small k (List.mem_cons_of_mem n hk)).trans ?_
    · rwa [List.length_append, List.length_singleton, Nat.add_assoc, Nat.add_comm 1]
    · rw [List.append_assoc]
      rfl

theorem foldl_push_none (front ps : List Nat) :
    ps.foldl Ipv6Pieces.push ⟨front, none⟩ = ⟨front ++ ps, none⟩ := by
  induction ps generalizing front with
  | nil => rw [List.append_nil, List.foldl_nil]
  | cons n ps ih =>
    rw [List.foldl_cons, ← List.singleton_append, ← List.append_assoc]
    exact ih _

theorem foldl_push_some (front back ps : List Nat) :
    ps.foldl Ipv6Pieces.push ⟨front, some back⟩ = ⟨front, some (back ++ ps)⟩ := by
  induction ps generalizing back with
  | nil => rw [List.append_nil, List.foldl_nil]
  | cons n ps ih =>
    rw [List.foldl_cons, ← List.singleton_append, ← List.append_assoc]
    exact ih _

/-- The zeros at the beginning of a list are at its beginning. -/
theorem eq_replicate_append_of_le_zeros {ps : List Nat} {n : Nat} (h : n ≤ zeros ps) :
    ps = List.replicate n 0 ++ ps.drop n := by
  induction n generalizing ps with
  | zero => rfl
  | succ n ih =>
    cases ps with
    | nil => cases h
    | cons m ps =>
      by_cases zero : m = 0
      · subst zero
        have rest : n ≤ zeros ps := Nat.le_of_succ_le_succ h
        rw [List.replicate_succ, List.cons_append, List.drop_succ_cons, ← ih rest]
      · -- the run of zeros ends before it has begun
        rw [zeros, List.takeWhile_cons_of_neg (by simpa using zero)] at h
        cases h

/-- **What is left out are zeros.** -/
theorem longestZeros_le (ps : List Nat) :
    (longestZeros ps).2 ≤ zeros (ps.drop (longestZeros ps).1) := by
  refine List.foldlRecOn _ _ (motive := fun best : Nat × Nat => best.2 ≤ zeros (ps.drop best.1))
    (Nat.zero_le _) fun best h i _ => ?_
  dsimp only
  split
  · exact Nat.le_refl _
  · exact h

/-- A text that begins with a piece has no gap at its beginning. -/
theorem ipv6?_of_piece {n : Nat} (hn : n < 65536) (r : List Char) :
    ipv6? (Hex.ofNat n ++ ':' :: r) =
      (ipv6From ⟨[], none⟩ (Hex.ofNat n ++ ':' :: r)).bind Ipv6Pieces.close := by
  obtain ⟨c, cs, shape, hc, -⟩ := takeHex_ofNat hn (':' :: r) (.inr rfl)
  have two : 2 ≤ (c :: cs).length := by
    have one := List.length_pos_of_ne_nil (Hex.ofNat_ne_nil n)
    rw [← shape, List.length_append, List.length_cons]
    omega
  rw [shape]
  -- the branches for a gap need a colon first, and the one for a single character has no second
  unfold ipv6?
  split
  · next colon =>
    cases colon
    exact absurd rfl hc
  · next colon =>
    cases colon
    exact absurd rfl hc
  · next none_ => cases none_
  · next single =>
    cases single
    exact absurd two (Nat.not_succ_le_self 1)
  · rfl

/-- A text without a gap is read. -/
theorem ipv6?_colons {pieces : List Nat} (eight : pieces.length = 8)
    (small : ∀ n ∈ pieces, n < 65536) : ipv6? (colons pieces) = some pieces := by
  -- with eight pieces there is a first one and a second one
  obtain ⟨n, m, ps, rfl⟩ : ∃ n m ps, pieces = n :: m :: ps := by
    match pieces, eight with
    | n :: m :: ps, _ => exact ⟨n, m, ps, rfl⟩
  have read : ipv6From ⟨[], none⟩ (colons (n :: m :: ps)) = some ⟨n :: m :: ps, none⟩ := by
    rw [ipv6From_colons (by rw [eight]; decide) small, foldl_push_none]
    rfl
  rw [colons_cons_cons] at read ⊢
  rw [ipv6?_of_piece (small n List.mem_cons_self), read]
  exact if_pos eight

/-- A text with a gap is read, with the zeros of the gap. -/
theorem ipv6?_gap {front back : List Nat} {n : Nat} (eight : front.length + n + back.length = 8)
    (two : 2 ≤ n) (small : ∀ m ∈ front ++ back, m < 65536) :
    ipv6? (colons front ++ [':', ':'] ++ colons back) =
      some (front ++ List.replicate n 0 ++ back) := by
  -- the gap stands for as many zeros as are missing
  have closed : Ipv6Pieces.close ⟨front, some back⟩ =
      some (front ++ List.replicate n 0 ++ back) := by
    have rest : 8 - front.length - back.length = n := by omega
    show some (front ++ List.replicate (8 - front.length - back.length) 0 ++ back) = _
    rw [rest]
  -- behind the gap there may be nothing more
  have read : ipv6From ⟨front, some []⟩ (colons back) = some ⟨front, some back⟩ := by
    cases back with
    | nil =>
      rw [ipv6From.eq_def]
      rfl
    | cons m back =>
      rw [ipv6From_colons, foldl_push_some]
      · rfl
      · show front.length + 1 + _ ≤ 8
        omega
      · exact fun k hk => small k (List.mem_append_right _ hk)
  rw [List.append_assoc]
  -- a gap at the beginning is two colons of its own; elsewhere the first colon ends a piece
  cases front with
  | nil =>
    show (ipv6From ⟨[], some []⟩ (colons back)).bind _ = _
    rw [read]
    exact closed
  | cons m front =>
    have whole := ipv6From_colons_gap [] (by rw [List.length_nil]; omega)
      (fun k hk => small k (List.mem_append_left back hk)) (colons back)
    rw [List.nil_append, read] at whole
    obtain ⟨r, shape⟩ : ∃ r, colons (m :: front) ++ ':' :: ':' :: colons back =
        Hex.ofNat m ++ ':' :: r := by
      cases front with
      | nil => exact ⟨_, rfl⟩
      | cons k front => exact ⟨_, by rw [colons_cons_cons, List.append_assoc, List.cons_append]⟩
    rw [shape] at whole
    show ipv6? (colons (m :: front) ++ ':' :: ':' :: colons back) = _
    rw [shape, ipv6?_of_piece (small m List.mem_cons_self), whole]
    exact closed

/-- **The text of an IPv6 address is read as the address,** whatever is left out. -/
theorem ipv6?_ipv6Chars {pieces : List Nat} (eight : pieces.length = 8)
    (small : ∀ n ∈ pieces, n < 65536) : ipv6? (ipv6Chars pieces) = some pieces := by
  rw [ipv6Chars]
  split
  next start n run =>
  split
  · -- no run of zeros is long enough for a gap
    exact ipv6?_colons eight small
  · -- at least two zeros are left out, and the gap puts back as many
    next two =>
    have zeros_ : n ≤ zeros (pieces.drop start) := by
      have left := longestZeros_le pieces
      rwa [run] at left
    have left : pieces.drop start = List.replicate n 0 ++ pieces.drop (start + n) := by
      rw [← List.drop_drop]
      exact eq_replicate_append_of_le_zeros zeros_
    have parts : pieces = pieces.take start ++ List.replicate n 0 ++ pieces.drop (start + n) := by
      rw [List.append_assoc, ← left, List.take_append_drop]
    have counts := congrArg List.length parts
    rw [List.length_append, List.length_append, List.length_replicate, eight] at counts
    have read := ipv6?_gap counts.symm (Nat.not_lt.1 two) fun m hm =>
      small m ((List.mem_append.1 hm).elim List.mem_of_mem_take List.mem_of_mem_drop)
    rw [← parts] at read
    exact read

/-- The characters of such a text. -/
theorem mem_ipv6Chars {pieces : List Nat} {c : Char} (h : c ∈ ipv6Chars pieces) :
    c = ':' ∨ Hex.isDigit c = true := by
  -- the pieces before the gap, and those behind it
  have part {ps : List Nat} (h : c ∈ colons ps) : c = ':' ∨ Hex.isDigit c = true := by
    refine (Text.mem_joined h).imp_right fun ⟨p, hp, hc⟩ => ?_
    obtain ⟨n, -, rfl⟩ := List.mem_map.1 hp
    exact Hex.isDigit_ofNat n c hc
  rw [ipv6Chars] at h
  split at h
  split at h
  · exact part h
  · rcases List.mem_append.1 h with h | h
    · rcases List.mem_append.1 h with h | h
      · exact part h
      · exact .inl (by simpa using h)
    · exact part h

end BlockRelay.Url
