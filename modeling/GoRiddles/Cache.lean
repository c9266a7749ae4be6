import Mathlib.Algebra.Ring.Int.Defs
import Mathlib.Algebra.Ring.Nat
import Mathlib.Data.List.Basic
/-!
# Cache — the preference store and the language's integers and strings

`CacheUtils.kt` and `KeyUtils.kt` keep every stored value of the quiz in one preference file, under keys that share one
prefix.  The store is a map from keys to values; a string is its list of characters.  `Int` is 32 bits wide: every sum
and difference the source computes on stored numbers goes through `wrap`.
-/
namespace Riddles

/-- A string, as its characters. -/
abbrev Text := List Char

/-! ## The language's `Int` and `String` -/

/-- Two's complement at 32 bits. -/
def wrap (n : Int) : Int := n.bmod (2 ^ 32)

theorem wrap_of_range {n : Int} (h₁ : -2 ^ 31 ≤ n) (h₂ : n < 2 ^ 31) : wrap n = n := by
  unfold wrap
  rw [Int.bmod_def]
  omega

theorem wrap_lt (n : Int) : wrap n < 2 ^ 31 := by
  unfold wrap
  rw [Int.bmod_def]
  omega

theorem wrap_le {n : Int} (h : -2 ^ 31 ≤ n) : wrap n ≤ n := by
  unfold wrap
  rw [Int.bmod_def]
  omega

/-- The UTF-16 code units of a character. -/
def utf16 (c : Char) : List Nat :=
  if c.toNat < 0x10000 then [c.toNat]
  else [0xD800 + (c.toNat - 0x10000) / 0x400, 0xDC00 + (c.toNat - 0x10000) % 0x400]

/-- `String.hashCode`: the polynomial in 31 over the code units, at 32 bits. -/
def hashCode (s : Text) : Int := (s.flatMap utf16).foldl (fun h u => wrap (31 * h + u)) 0

/-- `Int.toString`. -/
def intToString (n : Int) : Text :=
  if n < 0 then '-' :: Nat.toDigits 10 n.natAbs else Nat.toDigits 10 n.natAbs

theorem underscore_not_mem_intToString (n : Int) : '_' ∉ intToString n := by
  have hd : '_' ∉ Nat.toDigits 10 n.natAbs := Nat.underscore_not_in_toDigits
  unfold intToString
  split
  · intro h
    rcases List.mem_cons.1 h with h | h
    · exact absurd h (by decide)
    · exact hd h
  · exact hd

/-! ## The preference store -/

inductive PrefValue where
  | bool (b : Bool)
  | int (n : Int)
  | string (s : Text)
  deriving DecidableEq, Repr

/-- The preference file "GoRiddles". -/
abbrev Prefs := Text → Option PrefValue

def Prefs.empty : Prefs := fun _ => none

def Prefs.put (p : Prefs) (key : Text) (v : PrefValue) : Prefs := fun j => if j = key then some v else p j

/-- `BuildConfig.LIBRARY_PACKAGE_NAME` of the core library. -/
def libraryPackageName : Text := "game.riddles.core".toList

def toUniqueKey (key : Text) : Text := libraryPackageName ++ '.' :: key

theorem toUniqueKey_inj {a b : Text} : toUniqueKey a = toUniqueKey b ↔ a = b := by
  simp [toUniqueKey]

def writeBooleanToCache (p : Prefs) (key : Text) (value : Bool) : Prefs := p.put (toUniqueKey key) (.bool value)

-- a read of a value stored at another type raises ClassCastException; keys of the two kinds never meet
-- (`underscore_not_mem_intToString`), so the default stands in for a branch no run takes
def readBooleanFromCache (p : Prefs) (key : Text) : Bool :=
  match p (toUniqueKey key) with
  | some (.bool b) => b
  | _ => false

def writeIntToCache (p : Prefs) (key : Text) (value : Int) : Prefs := p.put (toUniqueKey key) (.int value)

def readIntFromCache (p : Prefs) (key : Text) (dflt : Int) : Int :=
  match p (toUniqueKey key) with
  | some (.int n) => n
  | _ => dflt

@[simp] theorem readInt_writeInt_self (p : Prefs) (key : Text) (v dflt : Int) :
    readIntFromCache (writeIntToCache p key v) key dflt = v := by
  simp [readIntFromCache, writeIntToCache, Prefs.put]

theorem readInt_writeInt_of_ne (p : Prefs) {key key' : Text} (h : key' ≠ key) (v dflt : Int) :
    readIntFromCache (writeIntToCache p key v) key' dflt = readIntFromCache p key' dflt := by
  simp [readIntFromCache, writeIntToCache, Prefs.put, toUniqueKey_inj, h]

theorem readInt_writeBoolean_of_ne (p : Prefs) {key key' : Text} (h : key' ≠ key) (v : Bool) (dflt : Int) :
    readIntFromCache (writeBooleanToCache p key v) key' dflt = readIntFromCache p key' dflt := by
  simp [readIntFromCache, writeBooleanToCache, Prefs.put, toUniqueKey_inj, h]

@[simp] theorem readBoolean_writeBoolean (p : Prefs) (key key' : Text) (v : Bool) :
    readBooleanFromCache (writeBooleanToCache p key v) key' = if key' = key then v else readBooleanFromCache p key' := by
  by_cases h : key' = key
  · subst h
    simp [readBooleanFromCache, writeBooleanToCache, Prefs.put]
  · simp [readBooleanFromCache, writeBooleanToCache, Prefs.put, toUniqueKey_inj, h]

theorem readBoolean_writeInt_of_ne (p : Prefs) {key key' : Text} (h : key' ≠ key) (v : Int) :
    readBooleanFromCache (writeIntToCache p key v) key' = readBooleanFromCache p key' := by
  simp [readBooleanFromCache, writeIntToCache, Prefs.put, toUniqueKey_inj, h]

end Riddles
