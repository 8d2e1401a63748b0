import Mathlib.Data.List.Basic
import Mathlib.Tactic.Common
import Mathlib.Tactic.Ring

/-!
# Stream attributes

Integers are written to a stream of octets with a fixed width, the least significant octet first.  An
array is written after its bounds.  What is written is read back, whatever follows it in the stream.
-/

namespace AdaWebServer
namespace StreamAttributes

/-! ## Little-endian numbers -/

/-- The octets of a number, the least significant one first. -/
def littleEndian : Nat → Nat → List UInt8
  | 0, _ => []
  | width + 1, number => UInt8.ofNat (number % 256) :: littleEndian width (number / 256)

/-- The number of which these are the octets. -/
def ofLittleEndian : List UInt8 → Nat
  | [] => 0
  | octet :: octets => octet.toNat + 256 * ofLittleEndian octets

@[simp]
theorem length_littleEndian (width number : Nat) : (littleEndian width number).length = width := by
  induction width generalizing number with
  | zero => rfl
  | succ width induction => simp [littleEndian, induction]

theorem ofLittleEndian_littleEndian {width number : Nat} (fits : number < 256 ^ width) :
    ofLittleEndian (littleEndian width number) = number := by
  induction width generalizing number with
  | zero =>
      simp only [pow_zero, Nat.lt_one_iff] at fits
      rw [fits]
      rfl
  | succ width induction =>
      have quotient : number / 256 < 256 ^ width := by
        rw [Nat.div_lt_iff_lt_mul (by omega), ← pow_succ]
        exact fits
      have octet : (UInt8.ofNat (number % 256)).toNat = number % 256 := by
        rw [UInt8.toNat_ofNat']
        omega
      rw [littleEndian, ofLittleEndian, induction quotient, octet]
      omega

/-! ## Readers -/

/-- Exceptions of the readers. -/
inductive StreamError where
  | endError
  | constraintError
  deriving DecidableEq

/-- A reader of a stream. -/
abbrev Reader (α : Type) := StateT (List UInt8) (Except StreamError) α

variable {α β : Type} {reader : Reader α} {next : α → Reader β} {item : α} {result : β}
  {written later : List UInt8}

/-- The reader takes an item from what has been written, whatever follows. -/
def Restores (written : List UInt8) (reader : Reader α) (item : α) : Prop :=
  ∀ rest, reader (written ++ rest) = .ok (item, rest)

theorem Restores.pure (item : α) : Restores [] (pure item) item := fun _ => rfl

theorem Restores.bind (first : Restores written reader item)
    (second : Restores later (next item) result) :
    Restores (written ++ later) (reader >>= next) result := by
  intro rest
  change (reader (written ++ later ++ rest) >>= fun pair => next pair.1 pair.2) = _
  rw [List.append_assoc, first]
  exact second rest

theorem Restores.bind_pure (first : Restores written reader item)
    (accepted : next item = Pure.pure result) : Restores written (reader >>= next) result := by
  have both := first.bind (accepted ▸ Restores.pure result)
  rwa [List.append_nil] at both

/-- A reader that leaves at least so many octets less than it has found. -/
def Consumes (count : Nat) (reader : Reader α) : Prop :=
  ∀ stream item rest, reader stream = .ok (item, rest) → rest.length + count ≤ stream.length

theorem Consumes.pure (item : α) : Consumes 0 (pure item : Reader α) := by
  intro stream found rest read
  cases read
  exact Nat.le_refl _

theorem Consumes.bind {count more : Nat} (first : Consumes count reader)
    (second : ∀ item, Consumes more (next item)) : Consumes (count + more) (reader >>= next) := by
  intro stream found rest read
  change (reader stream >>= fun pair => next pair.1 pair.2) = _ at read
  cases taken : reader stream with
  | error failure =>
      rw [taken] at read
      cases read
  | ok pair =>
      rw [taken] at read
      have := first _ _ _ taken
      have := second _ _ _ _ read
      omega

theorem Consumes.raise (count : Nat) (failure : StreamError) :
    Consumes count (throw failure : Reader α) := by
  intro stream found rest read
  cases read

/-- Take octets. -/
def take (count : Nat) : Reader (List UInt8) := fun stream =>
  if stream.length < count then .error .endError
  else .ok (stream.take count, stream.drop count)

theorem take_restores (octets : List UInt8) : Restores octets (take octets.length) octets := by
  intro rest
  rw [take, if_neg (by simp), List.take_left, List.drop_left]

theorem take_consumes (count : Nat) : Consumes count (take count) := by
  intro stream found rest read
  rw [take] at read
  split_ifs at read with short
  cases read
  rw [List.length_drop]
  omega

/-! ## Integers -/

/-- `Integer'Output`. -/
def integerOutput (number : Int) : List UInt8 := littleEndian 4 (number % 2 ^ 32).toNat

/-- `Integer'Input`. -/
def integerInput : Reader Int := do
  let octets ← take 4
  return (ofLittleEndian octets : Int).bmod (2 ^ 32)

theorem integer_restores {number : Int} (low : -2 ^ 31 ≤ number) (high : number < 2 ^ 31) :
    Restores (integerOutput number) integerInput number := by
  have value : (ofLittleEndian (integerOutput number) : Int).bmod (2 ^ 32) = number := by
    rw [integerOutput, ofLittleEndian_littleEndian (by omega), Int.toNat_of_nonneg (by omega)]
    exact (Int.emod_bmod number (2 ^ 32)).trans (Int.bmod_eq_of_le (by omega) (by omega))
  have octets : Restores (integerOutput number) (take 4) (integerOutput number) := by
    have whole := take_restores (integerOutput number)
    rwa [integerOutput, length_littleEndian] at whole
  exact octets.bind_pure (by rw [value])

theorem integerInput_consumes : Consumes 4 integerInput :=
  (take_consumes 4).bind fun _ => Consumes.pure _

/-- `Natural'Input`. -/
def naturalInput : Reader Nat := do
  let number ← integerInput
  if number < 0 then throw .constraintError else return number.toNat

theorem natural_restores {number : Nat} (fits : number < 2 ^ 31) :
    Restores (integerOutput number) naturalInput number := by
  have integer : Restores (integerOutput number) integerInput number :=
    integer_restores (by omega) (by omega)
  exact integer.bind_pure (by rw [if_neg (by omega), Int.toNat_natCast])

theorem naturalInput_consumes : Consumes 4 naturalInput := by
  have checked (number : Int) : Consumes 0
      (if number < 0 then throw .constraintError else return number.toNat) := by
    split_ifs
    · exact Consumes.raise 0 _
    · exact Consumes.pure _
  exact integerInput_consumes.bind checked

/-! ## Arrays of characters -/

/-- `String'Output`: the bounds and the characters. -/
def stringOutput (first : Int) (characters : List UInt8) : List UInt8 :=
  integerOutput first ++ (integerOutput (first + characters.length - 1) ++ characters)

/-- `String'Input`. -/
def stringInput : Reader (List UInt8) := do
  let first ← integerInput
  let last ← integerInput
  take (last - first + 1).toNat

/-- The bounds of an array of characters are integers. -/
structure Bounded (first : Int) (characters : List UInt8) : Prop where
  low : -2 ^ 31 < first
  high : first < 2 ^ 31
  last : first + characters.length - 1 < 2 ^ 31

theorem Bounded.of_length {characters : List UInt8} (fits : characters.length < 2 ^ 31) :
    Bounded 1 characters :=
  ⟨by omega, by omega, by omega⟩

theorem string_restores {first : Int} {characters : List UInt8} (bounded : Bounded first characters) :
    Restores (stringOutput first characters) stringInput characters := by
  have count : (first + characters.length - 1 - first + 1).toNat = characters.length := by omega
  have taken : Restores characters (take (first + characters.length - 1 - first + 1).toNat)
      characters := by
    rw [count]
    exact take_restores characters
  have low := bounded.low
  exact (integer_restores (by omega) bounded.high).bind
    ((integer_restores (by omega) bounded.last).bind taken)

theorem stringInput_consumes : Consumes 8 stringInput := by
  have taken (first last : Int) : Consumes 0 (take (last - first + 1).toNat) := by
    intro stream found rest read
    have := take_consumes _ _ _ _ read
    omega
  exact integerInput_consumes.bind fun first => integerInput_consumes.bind (taken first)

/-- Input of an array of a given length. -/
def fixedStringInput (length : Nat) : Reader (List UInt8) := do
  let characters ← stringInput
  if characters.length = length then return characters else throw .constraintError

theorem fixedString_restores {first : Int} {characters : List UInt8}
    (bounded : Bounded first characters) :
    Restores (stringOutput first characters) (fixedStringInput characters.length) characters := by
  exact (string_restores bounded).bind_pure (if_pos rfl)

theorem fixedStringInput_consumes (length : Nat) : Consumes 8 (fixedStringInput length) := by
  have checked (characters : List UInt8) : Consumes 0
      (if characters.length = length then return characters else throw .constraintError) := by
    split_ifs
    · exact Consumes.pure _
    · exact Consumes.raise 0 _
  exact stringInput_consumes.bind checked

end StreamAttributes
end AdaWebServer
