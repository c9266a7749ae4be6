import GoRiddles.ByteCodec
import GoRiddles.Cache
import GoRiddles.LinkedMap
/-!
# KeyValueStore — settings as bytes in a table

`KeyValuePair.kt` and `RoomPreferenceDataStore.kt`.  A row has a type and bytes, and each getter reads the bytes of its own
type only.  Over all calls the table is a map of typed values (`store_exact`), but for one type: a set of strings is written
with the length of each string in characters and read with that number as its length in bytes.
-/
namespace Riddles

inductive ValueType where
  | uninitialized
  | boolean
  | float
  | int
  | long
  | string
  | stringSet
  deriving DecidableEq

/-- What a `ByteBuffer` throws, and what the constructor of an array throws. -/
inductive BufferFailure where
  | bufferUnderflow
  | negativeArraySize
  deriving DecidableEq

/-- A row without its key; a `Float` is its bits. -/
structure KeyValuePair where
  valueType : ValueType
  value     : List UInt8

namespace KeyValuePair

/-! ## Reading -/

/-- `ByteBuffer.wrap(value)` and one number of so many bytes. -/
def number (width : Nat) (value : List UInt8) : Except BufferFailure Nat :=
  match ByteCodec.getNat width value with
  | none   => .error .bufferUnderflow
  | some r => .ok r.1

def boolean (p : KeyValuePair) : Except BufferFailure (Option Bool) :=
  if p.valueType = .boolean then (number 1 p.value).map (fun n => some (n ≠ 0)) else .ok none

def float (p : KeyValuePair) : Except BufferFailure (Option (BitVec 32)) :=
  if p.valueType = .float then (number 4 p.value).map (fun n => some (BitVec.ofNat 32 n)) else .ok none

def long (p : KeyValuePair) : Except BufferFailure (Option (BitVec 64)) :=
  match p.valueType with
  | .int  => (number 4 p.value).map (fun n => some ((BitVec.ofNat 32 n).signExtend 64))
  | .long => (number 8 p.value).map (fun n => some (BitVec.ofNat 64 n))
  | _     => .ok none

def string (p : KeyValuePair) : Except BufferFailure (Option Text) :=
  if p.valueType = .string then .ok (some (ByteCodec.decode p.value)) else .ok none

/-- The loop of `stringSet`.  A turn takes four bytes at least, so that as many turns as there are bytes will do. -/
def strings : Nat → List UInt8 → Except BufferFailure (List Text)
  | _, []              => .ok []
  | 0, _ :: _          => .error .bufferUnderflow
  | turns + 1, b :: bs =>
    match ByteCodec.getNat 4 (b :: bs) with
    | none => .error .bufferUnderflow
    | some (size, rest) =>
      if 2147483648 ≤ size then .error .negativeArraySize
      else if rest.length < size then .error .bufferUnderflow
      else (strings turns (rest.drop size)).map (ByteCodec.decode (rest.take size) :: ·)

def stringSet (p : KeyValuePair) : Except BufferFailure (Option (List Text)) :=
  if p.valueType = .stringSet then (strings p.value.length p.value).map some else .ok none

/-! ## Writing -/

def ofBoolean (value : Bool) : KeyValuePair := ⟨.boolean, ByteCodec.putNat 1 (if value then 1 else 0)⟩

def ofFloat (value : BitVec 32) : KeyValuePair := ⟨.float, ByteCodec.putNat 4 value.toNat⟩

def ofInt (value : BitVec 32) : KeyValuePair := ⟨.int, ByteCodec.putNat 4 value.toNat⟩

def ofLong (value : BitVec 64) : KeyValuePair := ⟨.long, ByteCodec.putNat 8 value.toNat⟩

def ofString (value : Text) : KeyValuePair := ⟨.string, ByteCodec.encode value⟩

/-- `String.length`. -/
def length (v : Text) : Nat := (v.flatMap utf16).length

def setBytes (value : List Text) : List UInt8 :=
  value.flatMap (fun v => ByteCodec.putNat 4 (length v) ++ ByteCodec.encode v)

def ofStringSet (value : List Text) : KeyValuePair := ⟨.stringSet, setBytes value⟩

end KeyValuePair

/-! ## The store -/

abbrev RoomPreferenceDataStore := LinkedMap Text KeyValuePair

namespace RoomPreferenceDataStore

def read {α : Type} (getter : KeyValuePair → Except BufferFailure (Option α)) (s : RoomPreferenceDataStore) (key : Text) :
    Except BufferFailure (Option α) :=
  match s.get key with
  | none   => .ok none
  | some p => getter p

def getBoolean : RoomPreferenceDataStore → Text → Except BufferFailure (Option Bool) := read KeyValuePair.boolean

def getFloat : RoomPreferenceDataStore → Text → Except BufferFailure (Option (BitVec 32)) := read KeyValuePair.float

def getLong : RoomPreferenceDataStore → Text → Except BufferFailure (Option (BitVec 64)) := read KeyValuePair.long

def getInt (s : RoomPreferenceDataStore) (key : Text) : Except BufferFailure (Option (BitVec 32)) :=
  (s.getLong key).map (Option.map (·.setWidth 32))

def getString : RoomPreferenceDataStore → Text → Except BufferFailure (Option Text) := read KeyValuePair.string

def getStringSet : RoomPreferenceDataStore → Text → Except BufferFailure (Option (List Text)) := read KeyValuePair.stringSet

/-- A null removes the row. -/
def write (s : RoomPreferenceDataStore) (key : Text) : Option KeyValuePair → RoomPreferenceDataStore
  | none   => s.remove key
  | some p => s.put key p

def putBoolean (s : RoomPreferenceDataStore) (key : Text) (value : Option Bool) : RoomPreferenceDataStore :=
  s.write key (value.map .ofBoolean)

def putFloat (s : RoomPreferenceDataStore) (key : Text) (value : Option (BitVec 32)) : RoomPreferenceDataStore :=
  s.write key (value.map .ofFloat)

def putLong (s : RoomPreferenceDataStore) (key : Text) (value : Option (BitVec 64)) : RoomPreferenceDataStore :=
  s.write key (value.map .ofLong)

def putInt (s : RoomPreferenceDataStore) (key : Text) (value : Option (BitVec 32)) : RoomPreferenceDataStore :=
  s.putLong key (value.map (·.signExtend 64))

def putString (s : RoomPreferenceDataStore) (key : Text) (value : Option Text) : RoomPreferenceDataStore :=
  s.write key (value.map .ofString)

def putStringSet (s : RoomPreferenceDataStore) (key : Text) (values : Option (List Text)) : RoomPreferenceDataStore :=
  s.write key (values.map .ofStringSet)

end RoomPreferenceDataStore

/-! ## Values -/

/-- What a row stands for. -/
inductive StoredValue where
  | boolean (value : Bool)
  | float (value : BitVec 32)
  | int (value : BitVec 32)
  | long (value : BitVec 64)
  | string (value : Text)
  | stringSet (value : List Text)

namespace StoredValue

def pair : StoredValue → KeyValuePair
  | .boolean value   => .ofBoolean value
  | .float value     => .ofFloat value
  | .int value       => .ofInt value
  | .long value      => .ofLong value
  | .string value    => .ofString value
  | .stringSet value => .ofStringSet value

def asBoolean : StoredValue → Option Bool
  | .boolean value => some value
  | _              => none

def asFloat : StoredValue → Option (BitVec 32)
  | .float value => some value
  | _            => none

def asLong : StoredValue → Option (BitVec 64)
  | .int value  => some (value.signExtend 64)
  | .long value => some value
  | _           => none

def asString : StoredValue → Option Text
  | .string value => some value
  | _             => none

def asStringSet : StoredValue → Option (List Text)
  | .stringSet value => some value
  | _                => none

end StoredValue

namespace KeyValuePair

open StoredValue (pair)

theorem number_putNat (width n : Nat) : number width (ByteCodec.putNat width n) = .ok (n % 256 ^ width) := by
  have hget := ByteCodec.getNat_putNat width n []
  rw [List.append_nil] at hget
  rw [number, hget]

theorem number_bits32 (v : BitVec 32) : number 4 (ByteCodec.putNat 4 v.toNat) = .ok v.toNat := by
  rw [number_putNat, show v.toNat % 256 ^ 4 = v.toNat from Nat.mod_eq_of_lt v.isLt]

theorem number_bits64 (v : BitVec 64) : number 8 (ByteCodec.putNat 8 v.toNat) = .ok v.toNat := by
  rw [number_putNat, show v.toNat % 256 ^ 8 = v.toNat from Nat.mod_eq_of_lt v.isLt]

theorem boolean_pair (v : StoredValue) : (pair v).boolean = .ok v.asBoolean := by
  cases v with
  | boolean value => cases value <;> simp [boolean, pair, ofBoolean, number_putNat, Except.map, StoredValue.asBoolean]
  | float | int | long | string | stringSet => rfl

theorem float_pair (v : StoredValue) : (pair v).float = .ok v.asFloat := by
  cases v with
  | float value => simp [float, pair, ofFloat, number_bits32, Except.map, StoredValue.asFloat]
  | boolean | int | long | string | stringSet => rfl

theorem long_pair (v : StoredValue) : (pair v).long = .ok v.asLong := by
  cases v with
  | int value => simp [long, pair, ofInt, number_bits32, Except.map, StoredValue.asLong]
  | long value => simp [long, pair, ofLong, number_bits64, Except.map, StoredValue.asLong]
  | boolean | float | string | stringSet => rfl

theorem string_pair (v : StoredValue) : (pair v).string = .ok v.asString := by
  cases v with
  | string value => simp [string, pair, ofString, ByteCodec.decode_encode, StoredValue.asString]
  | boolean | float | int | long | stringSet => rfl

/-! ## Sets of strings -/

def Ascii (t : Text) : Prop := ∀ c ∈ t, c.toNat < 128

theorem length_utf8EncodeChar (c : Char) :
    (utf16 c).length ≤ (String.utf8EncodeChar c).length ∧
      ((utf16 c).length = (String.utf8EncodeChar c).length ↔ c.toNat < 128) := by
  unfold utf16 String.utf8EncodeChar
  rw [show c.val.toNat = c.toNat from rfl]
  dsimp only
  split_ifs <;> simp <;> omega

theorem length_le (t : Text) : length t ≤ (ByteCodec.encode t).length := by
  unfold length ByteCodec.encode
  induction t with
  | nil => exact Nat.le_refl _
  | cons c t ih =>
    have hc := (length_utf8EncodeChar c).1
    rw [List.flatMap_cons, List.flatMap_cons, List.length_append, List.length_append]
    omega

/-- **A string has as many bytes as characters just when it is ASCII.** -/
theorem length_eq_iff (t : Text) : length t = (ByteCodec.encode t).length ↔ Ascii t := by
  induction t with
  | nil => simp [length, ByteCodec.encode, Ascii]
  | cons c t ih =>
    have hle := length_le t
    obtain ⟨hc, hiff⟩ := length_utf8EncodeChar c
    have hlength : length (c :: t) = (utf16 c).length + length t := by simp [length]
    have hencode : (ByteCodec.encode (c :: t)).length = (String.utf8EncodeChar c).length + (ByteCodec.encode t).length := by
      simp [ByteCodec.encode]
    have hsum : length (c :: t) = (ByteCodec.encode (c :: t)).length ↔
        (utf16 c).length = (String.utf8EncodeChar c).length ∧ length t = (ByteCodec.encode t).length := by omega
    rw [hsum, hiff, ih]
    simp [Ascii]

theorem ofNat_ne_zero {n : Nat} (hpos : 0 < n) (hlt : n < 256) : UInt8.ofNat n ≠ 0 := by
  intro h0
  have hnat := congrArg UInt8.toNat h0
  rw [ByteCodec.toNat_ofNat hlt] at hnat
  exact absurd hnat (Nat.ne_of_gt hpos)

theorem ne_zero_of_mem_encode {t : Text} (h : '\x00' ∉ t) {b : UInt8} (hb : b ∈ ByteCodec.encode t) : b ≠ 0 := by
  obtain ⟨c, hc, hb⟩ := List.mem_flatMap.1 hb
  have hpos : 0 < c.toNat := by
    apply Nat.pos_of_ne_zero
    intro h0
    have hnul : c = '\x00' := Char.toNat_inj.1 h0
    exact h (hnul ▸ hc)
  unfold String.utf8EncodeChar at hb
  rw [show c.val.toNat = c.toNat from rfl] at hb
  dsimp only at hb
  split_ifs at hb <;> simp only [List.mem_cons, List.not_mem_nil, or_false] at hb
  · rw [hb]
    exact ofNat_ne_zero hpos (by omega)
  · rcases hb with rfl | rfl <;> exact ofNat_ne_zero (by omega) (by omega)
  · rcases hb with rfl | rfl | rfl <;> exact ofNat_ne_zero (by omega) (by omega)
  · rcases hb with rfl | rfl | rfl | rfl <;> exact ofNat_ne_zero (by omega) (by omega)

/-- Bytes that begin with the rest of a string: their length is not a length. -/
theorem strings_misplaced (turns : Nat) {b : UInt8} (hb : b ≠ 0) {bs : List UInt8} (hsize : (b :: bs).length < 2 ^ 24) :
    ∃ e, strings turns (b :: bs) = .error e := by
  cases turns with
  | zero => exact ⟨_, rfl⟩
  | succ turns =>
    rw [strings]
    split
    · exact ⟨_, rfl⟩
    · rename_i size rest hget
      have hlarge : 256 ^ 3 ≤ size := ByteCodec.le_getNat hget hb
      have hlength := ByteCodec.length_getNat hget
      by_cases hneg : 2147483648 ≤ size
      · exact ⟨_, if_pos hneg⟩
      · rw [if_neg hneg, if_pos (by omega)]
        exact ⟨_, rfl⟩

theorem strings_cons {turns : Nat} {v : Text} {bytes : List UInt8} (hsize : (ByteCodec.encode v).length < 2 ^ 24) :
    strings (turns + 1) (ByteCodec.putNat 4 (length v) ++ (ByteCodec.encode v ++ bytes)) =
      (strings turns ((ByteCodec.encode v ++ bytes).drop (length v))).map
        (ByteCodec.decode ((ByteCodec.encode v ++ bytes).take (length v)) :: ·) := by
  have hle := length_le v
  have hget := ByteCodec.getNat_putNat 4 (length v) (ByteCodec.encode v ++ bytes)
  rw [Nat.mod_eq_of_lt (by omega)] at hget
  rw [show ByteCodec.putNat 4 (length v) = UInt8.ofNat (length v / 256 ^ 3) :: ByteCodec.putNat 3 (length v) from rfl,
    List.cons_append] at hget ⊢
  rw [strings, hget]
  simp only
  rw [if_neg (by omega), if_neg (by rw [List.length_append]; omega)]

/-- **A set of strings is read back just when its strings are ASCII**; otherwise the reader throws. -/
theorem strings_setBytes : ∀ {vs : List Text} {turns : Nat}, (setBytes vs).length ≤ turns → (setBytes vs).length < 2 ^ 24 →
    (∀ v ∈ vs, '\x00' ∉ v) → ((∀ v ∈ vs, Ascii v) → strings turns (setBytes vs) = .ok vs) ∧
      ((∃ v ∈ vs, ¬ Ascii v) → ∃ e, strings turns (setBytes vs) = .error e)
  | [], turns, _, _, _ => ⟨fun _ => by cases turns <;> rfl, fun ⟨v, hv, _⟩ => absurd hv List.not_mem_nil⟩
  | v :: vs, turns, hturns, hsize, hnul => by
    have hbytes : setBytes (v :: vs) = ByteCodec.putNat 4 (length v) ++ (ByteCodec.encode v ++ setBytes vs) := by
      simp [setBytes]
    have hlength : (setBytes (v :: vs)).length = 4 + ((ByteCodec.encode v).length + (setBytes vs).length) := by
      rw [hbytes, List.length_append, List.length_append, ByteCodec.length_putNat]
    obtain ⟨turns, rfl⟩ : ∃ t, turns = t + 1 := ⟨turns - 1, by omega⟩
    rw [hbytes, strings_cons (by omega)]
    by_cases hascii : Ascii v
    · have hall := (length_eq_iff v).2 hascii
      have hrest : (setBytes vs).length ≤ turns := by omega
      obtain ⟨hok, hfail⟩ := strings_setBytes hrest (by omega) (fun w hw => hnul w (List.mem_cons_of_mem _ hw))
      rw [hall, List.drop_left, List.take_left, ByteCodec.decode_encode]
      constructor
      · intro h
        rw [hok (fun w hw => h w (List.mem_cons_of_mem _ hw))]
        rfl
      · rintro ⟨w, hw, hnot⟩
        rcases List.mem_cons.1 hw with rfl | hw
        · exact absurd hascii hnot
        · obtain ⟨e, he⟩ := hfail ⟨w, hw, hnot⟩
          exact ⟨e, by rw [he]; rfl⟩
    · have hlt : length v < (ByteCodec.encode v).length :=
        Nat.lt_of_le_of_ne (length_le v) (fun heq => hascii ((length_eq_iff v).1 heq))
      rw [List.drop_append_of_le_length (by omega)]
      obtain ⟨b, bs, hrest⟩ := List.exists_cons_of_ne_nil (l := (ByteCodec.encode v).drop (length v))
        (by intro hnil; rw [List.drop_eq_nil_iff] at hnil; omega)
      have hb : b ≠ 0 := by
        refine ne_zero_of_mem_encode (hnul v List.mem_cons_self) (List.mem_of_mem_drop (i := length v) ?_)
        rw [hrest]
        exact List.mem_cons_self
      have hdrop : (b :: bs).length ≤ (ByteCodec.encode v).length := by
        rw [← hrest, List.length_drop]
        omega
      have hshort : (b :: (bs ++ setBytes vs)).length < 2 ^ 24 := by
        simp only [List.length_cons, List.length_append] at hdrop ⊢
        omega
      obtain ⟨e, he⟩ := strings_misplaced turns hb hshort
      rw [hrest, List.cons_append, he]
      exact ⟨fun h => absurd (h v List.mem_cons_self) hascii, fun _ => ⟨e, rfl⟩⟩

/-- A set that is smaller than sixteen megabytes, and without the character zero. -/
structure Moderate (vs : List Text) : Prop where
  size : (setBytes vs).length < 2 ^ 24
  nul  : ∀ v ∈ vs, '\x00' ∉ v

theorem stringSet_ofStringSet {vs : List Text} (h : Moderate vs) :
    ((∀ v ∈ vs, Ascii v) → (ofStringSet vs).stringSet = .ok (some vs)) ∧
      ((∃ v ∈ vs, ¬ Ascii v) → ∃ e, (ofStringSet vs).stringSet = .error e) := by
  obtain ⟨hok, hfail⟩ := strings_setBytes (Nat.le_refl _) h.size h.nul
  unfold stringSet ofStringSet
  constructor
  · intro hascii
    simp [hok hascii, Except.map]
  · intro hnot
    obtain ⟨e, he⟩ := hfail hnot
    exact ⟨e, by simp [he, Except.map]⟩

theorem stringSet_pair {v : StoredValue} (h : v.asStringSet = none) : (pair v).stringSet = .ok none := by
  cases v with
  | stringSet value => cases h
  | boolean | float | int | long | string => rfl

end KeyValuePair

namespace RoomPreferenceDataStore

/-! ## Runs -/

inductive Call where
  | putBoolean (key : Text) (value : Option Bool)
  | putFloat (key : Text) (value : Option (BitVec 32))
  | putInt (key : Text) (value : Option (BitVec 32))
  | putLong (key : Text) (value : Option (BitVec 64))
  | putString (key : Text) (value : Option Text)
  | putStringSet (key : Text) (values : Option (List Text))
  | remove (key : Text)

namespace Call

def run (s : RoomPreferenceDataStore) : Call → RoomPreferenceDataStore
  | .putBoolean key value    => s.putBoolean key value
  | .putFloat key value      => s.putFloat key value
  | .putInt key value        => s.putInt key value
  | .putLong key value       => s.putLong key value
  | .putString key value     => s.putString key value
  | .putStringSet key values => s.putStringSet key values
  | .remove key              => s.remove key

def key : Call → Text
  | .putBoolean key _ | .putFloat key _ | .putInt key _ | .putLong key _ | .putString key _ | .putStringSet key _
  | .remove key => key

/-- The value that the key has after the call. -/
def value : Call → Option StoredValue
  | .putBoolean _ value    => value.map .boolean
  | .putFloat _ value      => value.map .float
  | .putInt _ value        => value.map (fun v => .long (v.signExtend 64))
  | .putLong _ value       => value.map .long
  | .putString _ value     => value.map .string
  | .putStringSet _ values => values.map .stringSet
  | .remove _              => none

end Call

/-- The map that the calls make of another. -/
def written (values : Text → Option StoredValue) (c : Call) : Text → Option StoredValue :=
  fun key => if key = c.key then c.value else values key

def Represents (s : RoomPreferenceDataStore) (values : Text → Option StoredValue) : Prop :=
  ∀ key, s.get key = (values key).map StoredValue.pair

theorem get_write (s : RoomPreferenceDataStore) (key : Text) (p : Option KeyValuePair) (k : Text) :
    LinkedMap.get (s.write key p) k = if k = key then p else s.get k := by
  cases p with
  | none => exact LinkedMap.get_remove
  | some p => exact LinkedMap.get_put

theorem get_run (s : RoomPreferenceDataStore) (c : Call) (k : Text) :
    LinkedMap.get (c.run s) k = if k = c.key then c.value.map StoredValue.pair else s.get k := by
  cases c with
  | remove key => exact get_write s key none k
  | putBoolean key value | putFloat key value | putInt key value | putLong key value | putString key value
  | putStringSet key value =>
    refine (get_write s key _ k).trans ?_
    cases value <;> rfl

theorem represents_run {s : RoomPreferenceDataStore} {values : Text → Option StoredValue} (h : Represents s values)
    (c : Call) : Represents (c.run s) (written values c) := by
  intro k
  rw [get_run, written]
  split
  · rfl
  · exact h k

theorem represents_calls : ∀ (calls : List Call) {s : RoomPreferenceDataStore} {values : Text → Option StoredValue},
    Represents s values → Represents (calls.foldl Call.run s) (calls.foldl written values)
  | [], _, _, h => h
  | c :: calls, _, _, h => represents_calls calls (represents_run h c)

/-- What the getters return. -/
structure Exact (s : RoomPreferenceDataStore) (values : Text → Option StoredValue) : Prop where
  boolean    : ∀ key, s.getBoolean key = .ok ((values key).bind StoredValue.asBoolean)
  float      : ∀ key, s.getFloat key = .ok ((values key).bind StoredValue.asFloat)
  long       : ∀ key, s.getLong key = .ok ((values key).bind StoredValue.asLong)
  int        : ∀ key, s.getInt key = .ok (((values key).bind StoredValue.asLong).map (·.setWidth 32))
  string     : ∀ key, s.getString key = .ok ((values key).bind StoredValue.asString)
  noSet      : ∀ key, (values key).bind StoredValue.asStringSet = none → s.getStringSet key = .ok none
  asciiSet   : ∀ key vs, values key = some (.stringSet vs) → (∀ v ∈ vs, KeyValuePair.Ascii v) →
    s.getStringSet key = .ok (some vs)
  foreignSet : ∀ key vs, values key = some (.stringSet vs) → (∃ v ∈ vs, ¬ KeyValuePair.Ascii v) →
    ∃ e, s.getStringSet key = .error e

/-! A getter looks at the row of its key alone. -/
section
variable {s : RoomPreferenceDataStore} {key : Text} {v : Option StoredValue}

theorem read_of_get {α : Type} {getter : KeyValuePair → Except BufferFailure (Option α)} {view : StoredValue → Option α}
    (hgetter : ∀ v : StoredValue, getter v.pair = .ok (view v)) (h : s.get key = v.map StoredValue.pair) :
    read getter s key = .ok (v.bind view) := by
  rw [read, h]
  cases v with
  | none => rfl
  | some v => exact hgetter v

theorem getLong_of_get (h : s.get key = v.map StoredValue.pair) : s.getLong key = .ok (v.bind StoredValue.asLong) :=
  read_of_get KeyValuePair.long_pair h

theorem getInt_of_get (h : s.get key = v.map StoredValue.pair) :
    s.getInt key = .ok ((v.bind StoredValue.asLong).map (·.setWidth 32)) := by
  rw [getInt, getLong_of_get h]
  rfl

theorem getBoolean_of_get (h : s.get key = v.map StoredValue.pair) : s.getBoolean key = .ok (v.bind StoredValue.asBoolean) :=
  read_of_get KeyValuePair.boolean_pair h

theorem getString_of_get (h : s.get key = v.map StoredValue.pair) : s.getString key = .ok (v.bind StoredValue.asString) :=
  read_of_get KeyValuePair.string_pair h

end

def ModerateSets (values : Text → Option StoredValue) : Prop :=
  ∀ key vs, values key = some (.stringSet vs) → KeyValuePair.Moderate vs

theorem exact_of_represents {s : RoomPreferenceDataStore} {values : Text → Option StoredValue} (h : Represents s values)
    (hsets : ModerateSets values) : Exact s values where
  boolean key := getBoolean_of_get (h key)
  float key   := read_of_get KeyValuePair.float_pair (h key)
  long key    := getLong_of_get (h key)
  int key     := getInt_of_get (h key)
  string key  := getString_of_get (h key)
  noSet key hnone := by
    rw [getStringSet, read, h key]
    cases hv : values key with
    | none => rfl
    | some v =>
      rw [hv] at hnone
      exact KeyValuePair.stringSet_pair hnone
  asciiSet key vs hv hascii := by
    rw [getStringSet, read, h key, hv]
    exact (KeyValuePair.stringSet_ofStringSet (hsets key vs hv)).1 hascii
  foreignSet key vs hv hnot := by
    rw [getStringSet, read, h key, hv]
    exact (KeyValuePair.stringSet_ofStringSet (hsets key vs hv)).2 hnot

theorem moderate_calls : ∀ (calls : List Call) {values : Text → Option StoredValue}, ModerateSets values →
    (∀ key vs, .putStringSet key (some vs) ∈ calls → KeyValuePair.Moderate vs) → ModerateSets (calls.foldl written values)
  | [], _, h, _ => h
  | c :: calls, values, h, hcalls => by
    refine moderate_calls calls (fun key vs hv => ?_) (fun key vs hc => hcalls key vs (List.mem_cons_of_mem _ hc))
    rw [written] at hv
    split at hv
    · cases c with
      | putStringSet k values =>
        obtain ⟨vs', rfl, heq⟩ := Option.map_eq_some_iff.1 hv
        cases heq
        exact hcalls k vs List.mem_cons_self
      | remove k => cases hv
      | putBoolean k value | putFloat k value | putInt k value | putLong k value | putString k value =>
        obtain ⟨x, -, hx⟩ := Option.map_eq_some_iff.1 hv
        cases hx
    · exact h key vs hv

/-- **The store is a map of typed values.**  From any table that stands for one, and after any calls, each getter returns the
value that was put last under its key if it is of its type, and nothing otherwise; no getter throws, save that of a set with
a string that is not ASCII. -/
theorem store_exact {s : RoomPreferenceDataStore} {values : Text → Option StoredValue} (h : Represents s values)
    (hsets : ModerateSets values) (calls : List Call)
    (hcalls : ∀ key vs, .putStringSet key (some vs) ∈ calls → KeyValuePair.Moderate vs) :
    Exact (calls.foldl Call.run s) (calls.foldl written values) :=
  exact_of_represents (represents_calls calls h) (moderate_calls calls hsets hcalls)

/-- A set is put under the key of a number. -/
def accented : List Call := [.putInt "k".toList (some 7), .putStringSet "k".toList (some ["é".toList])]

theorem moderate_accented : KeyValuePair.Moderate ["é".toList] := ⟨by decide, by decide⟩

/-- The number is gone, and the set cannot be read. -/
theorem store_exact_accented :
    getInt (accented.foldl Call.run .empty) "k".toList = .ok none ∧
      ∃ e, getStringSet (accented.foldl Call.run .empty) "k".toList = .error e := by
  have hcalls : ∀ key vs, .putStringSet key (some vs) ∈ accented → KeyValuePair.Moderate vs := by
    intro key vs hmem
    simp only [accented, List.mem_cons, List.not_mem_nil, or_false, reduceCtorEq, false_or, Call.putStringSet.injEq,
      Option.some.injEq] at hmem
    rw [hmem.2]
    exact moderate_accented
  have hexact := @store_exact .empty (fun _ => none) (fun _ => rfl) (fun _ _ h => by cases h) accented hcalls
  refine ⟨hexact.int _, hexact.foreignSet "k".toList ["é".toList] rfl ⟨_, List.mem_singleton_self _, ?_⟩⟩
  intro hascii
  exact absurd (hascii 'é' List.mem_cons_self) (by decide)

end RoomPreferenceDataStore
end Riddles
