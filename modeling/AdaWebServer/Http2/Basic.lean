import Mathlib.Data.Nat.Digits.Defs
import Mathlib.Tactic.Common

/-!
# Numbers, strings and exceptions

Stream elements are octets and an Ada string is the list of the codes of its Latin-1 characters.
A range check that fails raises `Constraint_Error`; the checked conversions and operations of the
`Natural` and `Positive` subtypes are the functions below.
-/

namespace AdaWebServer
namespace Http2

/-- `Stream_Element`. -/
abbrev Octet := UInt8

/-- `Stream_Element_Array`. -/
abbrev Octets := List Octet

/-- An Ada `String`, as the codes of its characters. -/
abbrev Text := List UInt8

instance : LawfulBEq Text := inferInstance

/-- The Ada string of an ASCII literal. -/
def text (literal : String) : Text := literal.toUTF8.data.toList

theorem text_append (left right : String) : text (left ++ right) = text left ++ text right := by
  show (left ++ right).toByteArray.data.toList = _
  rw [String.toByteArray_append, ByteArray.data_append, Array.toList_append]
  rfl

/-- Error codes that are used in `RST_Stream` and `GoAway` frames. -/
inductive ErrorCode where
  | noError
  | protocolError
  | internalError
  | flowControlError
  | settingsTimeout
  | streamClosed
  | frameSizeError
  | refusedStream
  | cancel
  | compressionError
  | connectError
  | enhanceYourCalm
  | inadequateSecurity
  | http11Required
  deriving DecidableEq, Repr

/-- Value of an error code on the wire. -/
def ErrorCode.pos : ErrorCode → Nat
  | noError => 0
  | protocolError => 1
  | internalError => 2
  | flowControlError => 3
  | settingsTimeout => 4
  | streamClosed => 5
  | frameSizeError => 6
  | refusedStream => 7
  | cancel => 8
  | compressionError => 9
  | connectError => 10
  | enhanceYourCalm => 11
  | inadequateSecurity => 12
  | http11Required => 13

theorem ErrorCode.pos_injective {left right : ErrorCode} (same : left.pos = right.pos) :
    left = right := by
  cases left <;> cases right <;> first | rfl | cases same

/-- Exceptions raised by the modelled code. -/
inductive Exn where
  /-- `Protocol_Error` with its message. -/
  | protocolError (message : String)
  /-- `Constraint_Error`, raised by a failed language check. -/
  | constraintError
  /-- `Storage_Error`, raised when a local array does not fit on the stack or memory is read through
  a null view. -/
  | storageError
  /-- `Net.Socket_Error`. -/
  | socketError
  /-- `Net.Buffered.Data_Overflow`, `Parameters.Too_Long_Parameter` and
  `Parameters.Too_Many_Parameters`, with the status code that they lead to. -/
  | refused (code : String) (message : String)
  /-- Any other exception, raised by user code. -/
  | userException
  deriving DecidableEq, Repr

/-- The exception is `Protocol_Error`. -/
def Exn.IsProtocolError : Exn → Prop
  | protocolError _ => True
  | _ => False

/-- Exception message with the error code encoded at its start between square brackets. -/
def exceptionMessage (error : ErrorCode) (message : String) : String :=
  "[" ++ String.singleton (Nat.digitChar error.pos).toUpper ++ "] " ++ message

/-- `raise Protocol_Error with Exception_Message (Error, Message)`. -/
def raiseProtocolError {α : Type} (error : ErrorCode) (message : String) : Except Exn α :=
  .error (.protocolError (exceptionMessage error message))

/-! ## Sequencing -/

section Sequencing

variable {α β Failure : Type}

@[simp]
theorem ok_bind (a : α) (f : α → Except Failure β) : (Except.ok a >>= f) = f a := rfl

@[simp]
theorem error_bind (failure : Failure) (f : α → Except Failure β) :
    ((Except.error failure : Except Failure α) >>= f) = .error failure := rfl

@[simp]
theorem pure_eq_ok (a : α) : (pure a : Except Failure α) = .ok a := rfl

theorem bind_eq_ok_iff {computation : Except Failure α} {f : α → Except Failure β} {b : β} :
    (computation >>= f) = .ok b ↔ ∃ a, computation = .ok a ∧ f a = .ok b := by
  cases computation <;> simp

theorem map_eq_ok_iff {computation : Except Failure α} {f : α → β} {b : β} :
    f <$> computation = .ok b ↔ ∃ a, computation = .ok a ∧ f a = b := by
  cases computation <;> simp

theorem length_of_mapM {step : α → Except Failure β} {items : List α} {results : List β}
    (mapped : items.mapM step = .ok results) : results.length = items.length := by
  induction items generalizing results with
  | nil =>
      cases mapped
      rfl
  | cons item items ih =>
      rw [List.mapM_cons] at mapped
      obtain ⟨result, -, mapped⟩ := bind_eq_ok_iff.1 mapped
      obtain ⟨later, later_eq, mapped⟩ := bind_eq_ok_iff.1 mapped
      cases mapped
      rw [List.length_cons, List.length_cons, ih later_eq]

theorem mem_toOption_iff {computation : Except Exn α} {a : α} :
    a ∈ computation.toOption ↔ computation = .ok a := by
  cases computation <;> simp [Except.toOption]

end Sequencing

/-! ## Checked numbers -/

/-- `Natural'Last`. -/
def naturalLast : Nat := 2 ^ 31 - 1

/-- The subtype `Positive`. -/
abbrev Positive := { number : Nat // 1 ≤ number ∧ number ≤ naturalLast }

theorem one_positive : 1 ≤ 1 ∧ 1 ≤ naturalLast := by decide

/-- Conversion to `Natural`. -/
def natural (number : Nat) : Except Exn Nat :=
  if number ≤ naturalLast then .ok number else .error .constraintError

/-- Conversion to `Positive`. -/
def positive (number : Nat) : Except Exn Nat :=
  if 1 ≤ number ∧ number ≤ naturalLast then .ok number else .error .constraintError

/-- Subtraction in `Natural`. -/
def naturalSub (left right : Nat) : Except Exn Nat :=
  if right ≤ left then .ok (left - right) else .error .constraintError

/-- Conversion of an `Integer` to `Natural`. -/
def naturalOfInt (number : Int) : Except Exn Nat :=
  if 0 ≤ number ∧ number ≤ naturalLast then .ok number.toNat else .error .constraintError

theorem natural_of_le {number : Nat} (small : number ≤ naturalLast) :
    natural number = .ok number := if_pos small

theorem natural_of_gt {number : Nat} (large : naturalLast < number) :
    natural number = .error .constraintError := if_neg (not_le.mpr large)

theorem positive_of_le {number : Nat} (nonzero : 1 ≤ number) (small : number ≤ naturalLast) :
    positive number = .ok number := if_pos ⟨nonzero, small⟩

theorem positive_of_gt {number : Nat} (large : naturalLast < number) :
    positive number = .error .constraintError := if_neg fun both => by omega

theorem natural_eq_ok {number result : Nat} (converted : natural number = .ok result) :
    result = number ∧ number ≤ naturalLast := by
  unfold natural at converted
  split at converted
  · next small => exact ⟨(Except.ok.inj converted).symm, small⟩
  · cases converted

theorem positive_eq_ok {number result : Nat} (converted : positive number = .ok result) :
    result = number ∧ 1 ≤ number ∧ number ≤ naturalLast := by
  unfold positive at converted
  split at converted
  · next valid => exact ⟨(Except.ok.inj converted).symm, valid⟩
  · cases converted

theorem naturalSub_of_le {left right : Nat} (ordered : right ≤ left) :
    naturalSub left right = .ok (left - right) := if_pos ordered

theorem naturalSub_eq_ok {left right result : Nat}
    (subtracted : naturalSub left right = .ok result) :
    right ≤ left ∧ result = left - right := by
  unfold naturalSub at subtracted
  split at subtracted
  · next ordered => exact ⟨ordered, (Except.ok.inj subtracted).symm⟩
  · cases subtracted

/-! ## Integer literals -/

/-- Value of a digit of a based literal. -/
def digitValue (c : UInt8) : Option Nat :=
  if 48 ≤ c ∧ c ≤ 57 then some (c.toNat - 48)
  else if 65 ≤ c ∧ c ≤ 70 then some (c.toNat - 55)
  else if 97 ≤ c ∧ c ≤ 102 then some (c.toNat - 87)
  else none

/-- Scan the digits of a numeral, with single underlines between them. -/
def scanDigits (base : Nat) : Nat → Text → Nat × Text
  | number, [] => (number, [])
  | number, c :: rest =>
      match (digitValue c).filter (· < base) with
      | some digit => scanDigits base (number * base + digit) rest
      | none =>
          match c, rest with
          | 95, next :: rest =>
              match (digitValue next).filter (· < base) with
              | some digit => scanDigits base (number * base + digit) rest
              | none => (number, c :: next :: rest)
          | _, _ => (number, c :: rest)

/-- Scan a numeral, which starts with a digit. -/
def scanNumeral (base : Nat) : Text → Option (Nat × Text)
  | [] => none
  | c :: rest =>
      ((digitValue c).filter (· < base)).map fun digit => scanDigits base digit rest

/-- Scan an optional exponent and apply it. -/
def scanExponent (base number : Nat) : Text → Option Nat
  | [] => some number
  | mark :: rest =>
      if mark ≠ 69 ∧ mark ≠ 101 then
        none
      else
        match scanNumeral 10 (if rest.head? = some 43 then rest.tail else rest) with
        | some (exponent, []) => some (number * base ^ exponent)
        | _ => none

/-- Scan an unsigned integer literal. -/
def scanLiteral (literal : Text) : Option Nat := do
  let (number, rest) ← scanNumeral 10 literal
  match rest with
  | 35 :: rest =>
      if 2 ≤ number ∧ number ≤ 16 then do
        let (mantissa, rest) ← scanNumeral number rest
        if rest.head? = some 35 then scanExponent number mantissa rest.tail else none
      else
        none
  | _ => scanExponent 10 number rest

/-- `Integer'Value` of a string. -/
def integerValue (image : Text) : Option Int :=
  let trimmed := ((image.dropWhile (· = 32)).reverse.dropWhile (· = 32)).reverse
  match trimmed with
  | 45 :: literal => (scanLiteral literal).map fun number => -(number : Int)
  | 43 :: literal => (scanLiteral literal).map fun number => (number : Int)
  | literal => (scanLiteral literal).map fun number => (number : Int)

/-- `Image` of a number, without a leading space. -/
def image (number : Nat) : Text := text (toString number)

/-! ## Integers on the wire -/

/-- The number with the given octets, most significant octet first. -/
def bigEndian (octets : Octets) : Nat :=
  octets.foldl (fun number octet => number * 256 + octet.toNat) 0

/-- The octets of a number on the wire, most significant octet first. -/
def octetsOf : Nat → Nat → Octets
  | 0, _ => []
  | count + 1, number => octetsOf count (number / 256) ++ [UInt8.ofNat number]

/-! ## Characters -/

/-- `Ada.Characters.Handling.To_Lower` on one Latin-1 character. -/
def toLowerOctet (c : UInt8) : UInt8 :=
  if (65 ≤ c ∧ c ≤ 90) ∨ (192 ≤ c ∧ c ≤ 222 ∧ c ≠ 215) then c + 32 else c

/-- `Ada.Characters.Handling.To_Lower`. -/
def toLower (name : Text) : Text := name.map toLowerOctet

@[simp]
theorem toLower_length (name : Text) : (toLower name).length = name.length := by
  simp [toLower]

theorem forall_octet (property : Octet → Prop) (all : ∀ n < 256, property (UInt8.ofNat n))
    (octet : Octet) : property octet := by
  simpa using all octet.toNat octet.toNat_lt

theorem toLowerOctet_idem (c : UInt8) : toLowerOctet (toLowerOctet c) = toLowerOctet c :=
  forall_octet (fun c => toLowerOctet (toLowerOctet c) = toLowerOctet c)
    (by decide +kernel) c

@[simp]
theorem toLower_idem (name : Text) : toLower (toLower name) = toLower name := by
  simp [toLower, toLowerOctet_idem, Function.comp_def]

end Http2
end AdaWebServer
