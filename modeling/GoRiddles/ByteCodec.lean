import GoRiddles.QueryString
import Mathlib.Algebra.Ring.Nat
/-!
# ByteCodec — numbers and texts as bytes

Numbers of a fixed width, the highest byte first, and texts in UTF-8.  What is written is read back, and the reader is left
with the bytes after it.  Nothing here names a program.
-/
namespace Riddles
namespace ByteCodec

/-! ## Numbers -/

/-- The lowest `width` bytes of a number. -/
def putNat : Nat → Nat → List UInt8
  | 0, _         => []
  | width + 1, n => UInt8.ofNat (n / 256 ^ width) :: putNat width n

/-- Reads so many bytes; `none` if there are fewer. -/
def getNat : Nat → List UInt8 → Option (Nat × List UInt8)
  | 0, bytes          => some (0, bytes)
  | _ + 1, []         => none
  | width + 1, b :: bytes => (getNat width bytes).map (fun r => (b.toNat * 256 ^ width + r.1, r.2))

theorem length_putNat (width n : Nat) : (putNat width n).length = width := by
  induction width with
  | zero => rfl
  | succ width ih => rw [putNat, List.length_cons, ih]

theorem getNat_putNat (width n : Nat) (rest : List UInt8) :
    getNat width (putNat width n ++ rest) = some (n % 256 ^ width, rest) := by
  induction width with
  | zero => simp [getNat, putNat, Nat.mod_one]
  | succ width ih =>
    have hbyte : (UInt8.ofNat (n / 256 ^ width)).toNat = n / 256 ^ width % 256 := UInt8.toNat_ofNat'
    rw [putNat, List.cons_append, getNat, ih, Option.map_some, hbyte]
    have hsplit : n / 256 ^ width % 256 * 256 ^ width + n % 256 ^ width = n % 256 ^ (width + 1) := by
      rw [Nat.pow_succ, Nat.mod_mul, Nat.mul_comm, Nat.add_comm]
    rw [hsplit]

/-- **A number whose first byte is not zero is a large one.** -/
theorem le_getNat {width n : Nat} {b : UInt8} {bytes rest : List UInt8} (h : getNat (width + 1) (b :: bytes) = some (n, rest))
    (hb : b ≠ 0) : 256 ^ width ≤ n := by
  rw [getNat, Option.map_eq_some_iff] at h
  obtain ⟨r, -, heq⟩ := h
  have hpos : 1 ≤ b.toNat := Nat.pos_of_ne_zero (fun h0 => hb (UInt8.toNat_inj.1 h0))
  have hle : 1 * 256 ^ width ≤ b.toNat * 256 ^ width := Nat.mul_le_mul_right _ hpos
  have hn : b.toNat * 256 ^ width + r.1 = n := congrArg Prod.fst heq
  omega

theorem length_getNat : ∀ {width n : Nat} {bytes rest : List UInt8}, getNat width bytes = some (n, rest) →
    bytes.length = width + rest.length
  | 0, n, bytes, rest, h => by
    cases h
    exact (Nat.zero_add _).symm
  | width + 1, n, [], rest, h => by cases h
  | width + 1, n, b :: bytes, rest, h => by
    rw [getNat, Option.map_eq_some_iff] at h
    obtain ⟨⟨m, rest'⟩, hget, heq⟩ := h
    cases heq
    have hlength := length_getNat hget
    rw [List.length_cons, hlength]
    exact Nat.add_right_comm _ _ _

/-! ## Texts -/

def encode (text : List Char) : List UInt8 := text.flatMap String.utf8EncodeChar

def decodeFrom : QueryString.Utf8 → List UInt8 → List Char
  | s, []         => s.flush
  | s, b :: bytes => (s.next b.toNat).1 ++ decodeFrom (s.next b.toNat).2 bytes

def decode (bytes : List UInt8) : List Char := decodeFrom .start bytes

section
open QueryString (Utf8)

theorem next_start {b : Nat} : Utf8.start.next b = Utf8.lead b := if_pos rfl

theorem next_last {s : Utf8} {b : Nat} (h : s.needed = 1) (hb : s.lower ≤ b ∧ b ≤ s.upper) :
    s.next b = ([Char.ofNat (s.code * 64 + (b - 0x80))], .start) := by
  rw [Utf8.next, if_neg (by omega), if_neg (by omega), if_pos h]

theorem next_more {s : Utf8} {b : Nat} (h : 1 < s.needed) (hb : s.lower ≤ b ∧ b ≤ s.upper) :
    s.next b = ([], ⟨s.needed - 1, s.code * 64 + (b - 0x80), 0x80, 0xBF⟩) := by
  rw [Utf8.next, if_neg (by omega), if_neg (by omega), if_neg (by omega)]

theorem toNat_ofNat {n : Nat} (h : n < 256) : (UInt8.ofNat n).toNat = n := by
  rw [UInt8.toNat_ofNat']
  exact Nat.mod_eq_of_lt h

/-- A character of two bytes. -/
theorem decodeFrom_two {v : Nat} (h : 0x80 ≤ v ∧ v ≤ 0x7FF) (rest : List UInt8) :
    decodeFrom .start (UInt8.ofNat (v / 64 % 32 + 192) :: UInt8.ofNat (v % 64 + 128) :: rest) =
      Char.ofNat v :: decodeFrom .start rest := by
  rw [decodeFrom, decodeFrom, toNat_ofNat (by omega), toNat_ofNat (by omega), next_start, Utf8.lead, if_neg (by omega),
    if_pos (by omega)]
  rw [next_last rfl (by dsimp only; omega)]
  dsimp only
  rw [show (v / 64 % 32 + 192 - 0xC0) * 64 + (v % 64 + 128 - 0x80) = v by omega]
  rfl

/-- A character of three bytes; the second byte rules out the surrogates and what two bytes would do for. -/
theorem decodeFrom_three {v : Nat} (h : 0x800 ≤ v ∧ v ≤ 0xFFFF) (hvalid : v < 0xD800 ∨ 0xDFFF < v) (rest : List UInt8) :
    decodeFrom .start (UInt8.ofNat (v / 4096 % 16 + 224) :: UInt8.ofNat (v / 64 % 64 + 128) :: UInt8.ofNat (v % 64 + 128) ::
      rest) = Char.ofNat v :: decodeFrom .start rest := by
  have hlower : (if v / 4096 % 16 + 224 = 0xE0 then 0xA0 else 0x80) ≤ v / 64 % 64 + 128 := by split <;> omega
  have hupper : v / 64 % 64 + 128 ≤ if v / 4096 % 16 + 224 = 0xED then 0x9F else 0xBF := by split <;> omega
  rw [decodeFrom, decodeFrom, decodeFrom, toNat_ofNat (by omega), toNat_ofNat (by omega), toNat_ofNat (by omega), next_start,
    Utf8.lead, if_neg (by omega), if_neg (by omega), if_pos (by omega)]
  rw [next_more (by dsimp only; omega) ⟨hlower, hupper⟩]
  rw [next_last rfl (by dsimp only; omega)]
  dsimp only
  rw [show ((v / 4096 % 16 + 224 - 0xE0) * 64 + (v / 64 % 64 + 128 - 0x80)) * 64 + (v % 64 + 128 - 0x80) = v by omega]
  rfl

theorem decodeFrom_four {v : Nat} (h : 0x10000 ≤ v ∧ v ≤ 0x10FFFF) (rest : List UInt8) :
    decodeFrom .start (UInt8.ofNat (v / 262144 % 8 + 240) :: UInt8.ofNat (v / 4096 % 64 + 128) ::
      UInt8.ofNat (v / 64 % 64 + 128) :: UInt8.ofNat (v % 64 + 128) :: rest) = Char.ofNat v :: decodeFrom .start rest := by
  have hlower : (if v / 262144 % 8 + 240 = 0xF0 then 0x90 else 0x80) ≤ v / 4096 % 64 + 128 := by split <;> omega
  have hupper : v / 4096 % 64 + 128 ≤ if v / 262144 % 8 + 240 = 0xF4 then 0x8F else 0xBF := by split <;> omega
  rw [decodeFrom, decodeFrom, decodeFrom, decodeFrom, toNat_ofNat (by omega), toNat_ofNat (by omega), toNat_ofNat (by omega),
    toNat_ofNat (by omega), next_start, Utf8.lead, if_neg (by omega), if_neg (by omega), if_neg (by omega), if_pos (by omega)]
  rw [next_more (by dsimp only; omega) ⟨hlower, hupper⟩]
  rw [next_more (by dsimp only; omega) (by dsimp only; omega)]
  rw [next_last rfl (by dsimp only; omega)]
  dsimp only
  rw [show (((v / 262144 % 8 + 240 - 0xF0) * 64 + (v / 4096 % 64 + 128 - 0x80)) * 64 + (v / 64 % 64 + 128 - 0x80)) * 64 +
    (v % 64 + 128 - 0x80) = v by omega]
  rfl

theorem decodeFrom_encodeChar (c : Char) (rest : List UInt8) :
    decodeFrom .start (String.utf8EncodeChar c ++ rest) = c :: decodeFrom .start rest := by
  have hvalid : c.toNat < 0xD800 ∨ 0xDFFF < c.toNat ∧ c.toNat < 0x110000 := c.valid
  have hc : Char.ofNat c.toNat = c := Char.ofNat_toNat c
  unfold String.utf8EncodeChar
  rw [show c.val.toNat = c.toNat from rfl]
  dsimp only
  by_cases h₁ : c.toNat ≤ 127
  · rw [if_pos h₁, List.singleton_append, decodeFrom, toNat_ofNat (by omega), next_start, Utf8.lead, if_pos (by omega), hc]
    rfl
  · rw [if_neg h₁]
    by_cases h₂ : c.toNat ≤ 2047
    · rw [if_pos h₂]
      exact (decodeFrom_two ⟨by omega, h₂⟩ rest).trans (by rw [hc])
    · rw [if_neg h₂]
      by_cases h₃ : c.toNat ≤ 65535
      · rw [if_pos h₃]
        exact (decodeFrom_three ⟨by omega, h₃⟩ (by omega) rest).trans (by rw [hc])
      · rw [if_neg h₃]
        exact (decodeFrom_four ⟨by omega, by omega⟩ rest).trans (by rw [hc])

end

/-- **A text that was written is read.** -/
theorem decode_encode (text : List Char) : decode (encode text) = text := by
  unfold decode encode
  induction text with
  | nil => rfl
  | cons c text ih => rw [List.flatMap_cons, decodeFrom_encodeChar, ih]

end ByteCodec
end Riddles
