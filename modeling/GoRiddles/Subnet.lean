import GoRiddles.Cache
import GoRiddles.TextReader
/-!
# Subnet — addresses, and the first bits of them

`Subnet.kt`.  An address is its bytes, four or sixteen of them, and a subnet says how many of its first bits count.
`matches` compares whole bytes as long as it can and masks the last one; what it decides is whether the first bits are the
same (`matches_iff`).  The texts of addresses are the platform's.
-/
namespace Riddles

structure InetAddress where
  bytes   : List (BitVec 8)
  size_eq : bytes.length = 4 ∨ bytes.length = 16
  deriving DecidableEq

/-- The constructor requires the prefix to be within the address. -/
structure Subnet where
  address       : InetAddress
  prefixSize    : Nat
  prefixSize_le : prefixSize ≤ 8 * address.bytes.length
  deriving DecidableEq

namespace Subnet

/-! ## Matching -/

/-- `(b.toInt() and -(1 shl k)).toByte()`: a byte is an `Int` of 32 bits for the `and`. -/
def masked (b : BitVec 8) (k : Nat) : BitVec 8 := (b.signExtend 32 &&& -(BitVec.twoPow 32 k)).setWidth 8

structure Immutable where
  a          : List (BitVec 8)
  prefixSize : Nat

/-- The rest of `matches` from the byte `i` on.  An index is never out of the array: `Option` compares what is there. -/
def matchesFrom (a b : List (BitVec 8)) (prefixSize i : Nat) : Bool :=
  if i * 8 < prefixSize ∧ i * 8 + 8 ≤ prefixSize then
    if a[i]? ≠ b[i]? then false else matchesFrom a b prefixSize (i + 1)
  else i * 8 == prefixSize || a[i]? == b[i]?.map (masked · (i * 8 + 8 - prefixSize))
  termination_by prefixSize - i * 8

def Immutable.matches (s : Immutable) (b : List (BitVec 8)) : Bool :=
  if s.a.length ≠ b.length then false else matchesFrom s.a b s.prefixSize 0

/-- `toImmutable`: the byte with the last bit of the prefix is masked, the bytes after it are zero. -/
def toImmutable (s : Subnet) : Immutable where
  a := s.address.bytes.mapIdx (fun i b =>
    if i < s.prefixSize / 8 then b
    else if i = s.prefixSize / 8 ∧ 0 < s.prefixSize % 8 then masked b (i * 8 + 8 - s.prefixSize)
    else 0)
  prefixSize := s.prefixSize

/-- The bits of an array, the first byte's highest bit first. -/
def bit (bytes : List (BitVec 8)) (j : Nat) : Option Bool := bytes[j / 8]?.map (·.getMsbD (j % 8))

theorem getLsbD_neg_twoPow {k i : Nat} (hk : k < 32) (hi : i < 32) :
    (-(BitVec.twoPow 32 k)).getLsbD i = decide (k ≤ i) := by
  have hbelow : (∃ j < i, (BitVec.twoPow 32 k).getLsbD j = true) ↔ k < i := by
    simp only [BitVec.getLsbD_twoPow, hk, decide_true, Bool.true_and, decide_eq_true_eq, exists_eq_right']
  rw [BitVec.getLsbD_neg, BitVec.getLsbD_twoPow]
  simp only [hbelow, hk, hi, decide_true, Bool.true_and]
  rcases Nat.lt_trichotomy k i with h | rfl | h
  · simp [h, Nat.ne_of_lt h, Nat.le_of_lt h]
  · simp
  · simp [Nat.ne_of_gt h, Nat.not_lt_of_gt h, Nat.not_le_of_gt h]

theorem getMsbD_masked (b : BitVec 8) {k j : Nat} (hk : k ≤ 8) (hj : j < 8) :
    (masked b k).getMsbD j = (b.getMsbD j && decide (j + k < 8)) := by
  have hiff : k ≤ 8 - 1 - j ↔ j + k < 8 := by omega
  rw [masked, BitVec.getMsbD_eq_getLsbD, BitVec.getLsbD_setWidth, BitVec.getLsbD_and, BitVec.getLsbD_signExtend,
    getLsbD_neg_twoPow (by omega) (by omega), BitVec.getMsbD_eq_getLsbD, if_pos (by omega)]
  simp only [show 8 - 1 - j < 8 by omega, show 8 - 1 - j < 32 by omega, hj, hiff, decide_true, Bool.true_and]

/-- Masked bytes are the same if the bits that the mask leaves are. -/
theorem masked_eq_iff {u v : BitVec 8} {k : Nat} (hk : k ≤ 8) :
    masked u k = masked v k ↔ ∀ j < 8 - k, u.getMsbD j = v.getMsbD j := by
  constructor
  · intro heq j hj
    have hbit := congrArg (·.getMsbD j) heq
    simp only [getMsbD_masked _ hk (show j < 8 by omega), show j + k < 8 by omega, decide_true, Bool.and_true] at hbit
    exact hbit
  · intro hbits
    apply BitVec.eq_of_getMsbD_eq
    intro j hj
    rw [getMsbD_masked u hk hj, getMsbD_masked v hk hj]
    by_cases hin : j + k < 8
    · rw [hbits j (by omega)]
    · simp [hin]

/-- The first `r` bits of the byte `i`, as bits of the arrays. -/
theorem bits_of_byte {x y : List (BitVec 8)} {i r : Nat} {u v : BitVec 8} (hx : x[i]? = some u) (hy : y[i]? = some v)
    (hr : r ≤ 8) :
    (∀ j, i * 8 ≤ j → j < i * 8 + r → bit x j = bit y j) ↔ ∀ j < r, u.getMsbD j = v.getMsbD j := by
  have hbit : ∀ j < 8, bit x (i * 8 + j) = some (u.getMsbD j) ∧ bit y (i * 8 + j) = some (v.getMsbD j) := by
    intro j hj
    have hdiv : (i * 8 + j) / 8 = i := by omega
    have hmod : (i * 8 + j) % 8 = j := by omega
    simp [bit, hdiv, hmod, hx, hy]
  constructor
  · intro h j hj
    have heq := h (i * 8 + j) (by omega) (by omega)
    rw [(hbit j (by omega)).1, (hbit j (by omega)).2, Option.some.injEq] at heq
    exact heq
  · intro h j hle hlt
    obtain ⟨d, rfl⟩ := Nat.exists_eq_add_of_le hle
    rw [(hbit d (by omega)).1, (hbit d (by omega)).2, h d (by omega)]

section
variable {s : Subnet} {b : List (BitVec 8)}

theorem getElem?_toImmutable (s : Subnet) (i : Nat) : s.toImmutable.a[i]? = s.address.bytes[i]?.map (fun b =>
    if i < s.prefixSize / 8 then b
    else if i = s.prefixSize / 8 ∧ 0 < s.prefixSize % 8 then masked b (i * 8 + 8 - s.prefixSize)
    else 0) := by
  simp [toImmutable]

/-- **The loop from the byte `i` on compares the bits from there on.** -/
theorem matchesFrom_iff (hsize : s.address.bytes.length = b.length) (i : Nat) (hi : i * 8 ≤ s.prefixSize) :
    matchesFrom s.toImmutable.a b s.prefixSize i = true ↔
      ∀ j, i * 8 ≤ j → j < s.prefixSize → bit s.address.bytes j = bit b j := by
  have hle := s.prefixSize_le
  rw [matchesFrom]
  by_cases hwhole : i * 8 + 8 ≤ s.prefixSize
  · -- a whole byte, and the turns after it
    obtain ⟨u, hu⟩ : ∃ u, s.address.bytes[i]? = some u := ⟨_, List.getElem?_eq_getElem (by omega)⟩
    obtain ⟨v, hv⟩ : ∃ v, b[i]? = some v := ⟨_, List.getElem?_eq_getElem (by omega)⟩
    have ha : s.toImmutable.a[i]? = some u := by
      rw [getElem?_toImmutable, hu, Option.map_some, if_pos (by omega)]
    have hbyte := bits_of_byte hu hv (Nat.le_refl 8)
    have hsame : u = v ↔ ∀ j < 8, u.getMsbD j = v.getMsbD j :=
      ⟨fun heq j _ => by rw [heq], fun hbits => BitVec.eq_of_getMsbD_eq hbits⟩
    have hrest := matchesFrom_iff hsize (i + 1) (by omega)
    rw [if_pos ⟨by omega, hwhole⟩, ha, hv]
    by_cases huv : u = v
    · rw [if_neg (by simp [huv]), hrest]
      constructor
      · intro h j hij hj
        by_cases hlast : j < i * 8 + 8
        · exact (hbyte.2 (hsame.1 huv)) j hij hlast
        · exact h j (by omega) hj
      · intro h j hij hj
        exact h j (by omega) hj
    · rw [if_pos (by simpa using huv)]
      constructor
      · intro h
        cases h
      · intro h
        exact absurd (hsame.2 (hbyte.1 (fun j hij hj => h j hij (by omega)))) huv
  · rw [if_neg (by omega)]
    by_cases hend : i * 8 = s.prefixSize
    · simp only [hend, beq_self_eq_true, Bool.true_or, true_iff]
      intro j hij hj
      omega
    · -- the byte in which the prefix ends
      obtain ⟨u, hu⟩ : ∃ u, s.address.bytes[i]? = some u := ⟨_, List.getElem?_eq_getElem (by omega)⟩
      obtain ⟨v, hv⟩ : ∃ v, b[i]? = some v := ⟨_, List.getElem?_eq_getElem (by omega)⟩
      have ha : s.toImmutable.a[i]? = some (masked u (i * 8 + 8 - s.prefixSize)) := by
        rw [getElem?_toImmutable, hu, Option.map_some, if_neg (by omega), if_pos ⟨by omega, by omega⟩]
      have hbyte := bits_of_byte hu hv (show s.prefixSize - i * 8 ≤ 8 by omega)
      rw [show i * 8 + (s.prefixSize - i * 8) = s.prefixSize by omega] at hbyte
      rw [hbyte, show s.prefixSize - i * 8 = 8 - (i * 8 + 8 - s.prefixSize) by omega, ← masked_eq_iff (by omega), ha, hv,
        Option.map_some]
      simp [hend]
  termination_by s.prefixSize - i * 8

/-- **A subnet matches the addresses of its kind whose first bits are its own**, as many as its prefix has. -/
theorem matches_iff (s : Subnet) (b : List (BitVec 8)) : s.toImmutable.matches b = true ↔
    b.length = s.address.bytes.length ∧ ∀ j < s.prefixSize, bit b j = bit s.address.bytes j := by
  have hlength : s.toImmutable.a.length = s.address.bytes.length := by simp [toImmutable]
  rw [Immutable.matches, hlength]
  by_cases hsize : s.address.bytes.length = b.length
  · rw [if_neg (by simpa using hsize)]
    refine (matchesFrom_iff hsize 0 (by omega)).trans ⟨fun h => ⟨hsize.symm, fun j hj => (h j (by omega) hj).symm⟩, ?_⟩
    rintro ⟨-, h⟩ j - hj
    exact (h j hj).symm
  · simp [hsize, Ne.symm hsize]

end

/-! ## Texts -/

/-- The platform's texts of addresses: `parseNumericAddress` and `hostAddress`. -/
structure AddressText where
  parseNumericAddress : Text → Option InetAddress
  hostAddress         : InetAddress → Text

/-- An address that was read is read from its own text, which has digits, letters up to `f`, colons and dots. -/
structure AddressText.Lawful (T : AddressText) : Prop where
  parse_host  : ∀ {t a}, T.parseNumericAddress t = some a → T.parseNumericAddress (T.hostAddress a) = some a
  host_ne_nil : ∀ a, T.hostAddress a ≠ []
  host_chars  : ∀ a, ∀ c ∈ T.hostAddress a, c.isDigit ∨ c ∈ "abcdef:.".toList

def addressLength (a : InetAddress) : Nat := 8 * a.bytes.length

def fromString (T : AddressText) (value : Text) : Option Subnet :=
  match T.parseNumericAddress (TextReader.cut '/' value).1 with
  | none => none
  | some addr =>
    match (TextReader.cut '/' value).2 with
    | none => some ⟨addr, addressLength addr, Nat.le_refl _⟩
    | some size =>
      match TextReader.toInt size with
      | none => none
      | some n =>
        if h : n < 0 ∨ addressLength addr < n then none
        else some ⟨addr, n.toNat, by unfold addressLength at h; omega⟩

def toString (T : AddressText) (s : Subnet) : Text :=
  if s.prefixSize = addressLength s.address then T.hostAddress s.address
  else T.hostAddress s.address ++ '/' :: intToString s.prefixSize

def compareBytes : List (BitVec 8) → List (BitVec 8) → Ordering
  | u :: us, v :: vs => (compare u.toNat v.toNat).then (compareBytes us vs)
  | _, _ => .eq

/-- `compareTo`: IPv4 goes first, a byte has no sign. -/
def compareTo (s other : Subnet) : Ordering :=
  (compare s.address.bytes.length other.address.bytes.length).then
    ((compareBytes s.address.bytes other.address.bytes).then (compare s.prefixSize other.prefixSize))

theorem compareBytes_self : ∀ us, compareBytes us us = .eq
  | []      => rfl
  | u :: us => by simp [compareBytes, compareBytes_self us]

theorem compareTo_self (s : Subnet) : s.compareTo s = .eq := by
  simp [compareTo, compareBytes_self]

section
variable {T : AddressText} {s : Subnet}

theorem address_of_fromString {value : Text} (h : fromString T value = some s) :
    T.parseNumericAddress (TextReader.cut '/' value).1 = some s.address := by
  unfold fromString at h
  split at h
  · cases h
  · rename_i addr haddr
    rw [haddr]
    split at h
    · cases h
      rfl
    · split at h
      · cases h
      · split at h
        · cases h
        · cases h
          rfl

/-- **A subnet that was read is read from its own text.** -/
theorem fromString_toString (hT : T.Lawful) {t : Text} (ht : T.parseNumericAddress t = some s.address) :
    fromString T (toString T s) = some s := by
  have hslash : '/' ∉ T.hostAddress s.address := by
    intro hmem
    exact absurd (hT.host_chars _ _ hmem) (by decide)
  have hparse := hT.parse_host ht
  have hle : s.prefixSize ≤ addressLength s.address := s.prefixSize_le
  have hsize : addressLength s.address ≤ 128 := by
    have := s.address.size_eq
    unfold addressLength
    omega
  unfold toString
  split
  · rename_i hfull
    unfold fromString
    rw [TextReader.cut_of_not_mem hslash]
    simp only [hparse, ← hfull]
  · have hdigits : TextReader.toInt (intToString s.prefixSize) = some (s.prefixSize : Int) := by
      rw [intToString, if_neg (by omega), Int.natAbs_natCast, TextReader.toInt_digits, if_pos (by omega)]
    unfold fromString
    rw [TextReader.cut_append hslash]
    simp only [hparse, hdigits]
    rw [dif_neg (by omega)]
    rfl

/-- The characters of a written subnet. -/
theorem mem_toString (hT : T.Lawful) {c : Char} (h : c ∈ toString T s) : c.isDigit ∨ c ∈ "abcdef:./".toList := by
  have hhost : c ∈ T.hostAddress s.address → c.isDigit ∨ c ∈ "abcdef:./".toList := by
    intro hc
    have hsub : "abcdef:.".toList ⊆ "abcdef:./".toList := by decide
    exact (hT.host_chars _ c hc).imp_right (fun hin => hsub hin)
  unfold toString at h
  split at h
  · exact hhost h
  · rcases List.mem_append.1 h with h | h
    · exact hhost h
    · rcases List.mem_cons.1 h with rfl | h
      · exact .inr (by decide)
      · rw [intToString, if_neg (by omega)] at h
        exact .inl (Nat.isDigit_of_mem_toDigits (by decide) (by decide) h)

theorem toString_ne_nil (hT : T.Lawful) : toString T s ≠ [] := by
  unfold toString
  split
  · exact hT.host_ne_nil _
  · simp

end

end Subnet
end Riddles
