import AdaWebServer.Foundations.Search
import AdaWebServer.Server.Multipart

/-!
# The data of a file

The octets in front of the first signature are written in the order in which they were read, whatever they
are read from and wherever they are written to.
-/

namespace AdaWebServer
namespace Server
namespace Multipart

open Containers (Failure)
open Http2 (Octet Octets Text)
open Search (window)

variable {Socket : Type} {reader : Reader Socket} {system : Surroundings} {mode : MessageMode}
  {e : Nat → Octet}

/-- Octets that are read one after another, and written: a number of them has been read, and a number has
been written. -/
structure Source (reader : Reader Socket) (system : Surroundings) (mode : MessageMode)
    (e : Nat → Octet) (Within : Nat → Prop) (Ahead : Nat → Nat → Transfer Socket → Prop) :
    Prop where
  /-- The next octet is read. -/
  read {i k : Nat} {transfer : Transfer Socket} (ahead : Ahead i k transfer)
    (within : Within (i + 1)) :
    ∃ next, transfer.readData reader = .ok next ∧ next.data = e i ∧ next.buffer = transfer.buffer ∧
      next.error = transfer.error ∧ Ahead (i + 1) k next
  /-- The buffer does not matter. -/
  rebuffer {i k : Nat} {transfer : Transfer Socket} (ahead : Ahead i k transfer)
    (buffer : Octets) : Ahead i k { transfer with buffer }
  /-- Octets that have been read are written. -/
  write {i j k : Nat} {transfer : Transfer Socket} (ahead : Ahead i k transfer)
    (within : Within i) (sound : transfer.error = .noError) (written_le : k ≤ j) (read_le : j ≤ i)
    (trim : Bool) : Ahead i j (transfer.write system mode (window e k (j - k)) trim)
  timeout {i k : Nat} {transfer : Transfer Socket} (ahead : Ahead i k transfer) :
    reader.checkDataTimeout transfer.request = .ok transfer.request
  earlier {i : Nat} (within : Within (i + 1)) : Within i

/-- The octets in front of a position are stored: those that have not been written are in the buffer, unless
an error has occurred. -/
structure Stored (Ahead : Nat → Nat → Transfer Socket → Prop) (e : Nat → Octet) (Fits : Prop)
    (i j k : Nat) (transfer : Transfer Socket) : Prop where
  ahead : Ahead i k transfer
  written_le : k ≤ j
  read_le : j ≤ i
  buffer_eq : transfer.error = .noError → transfer.buffer = window e k (j - k)
  short : Fits → transfer.buffer.length < bufferLast

/-! ## Writing -/

@[simp]
theorem write_data (octets : Octets) (trim : Bool) (transfer : Transfer Socket) :
    (transfer.write system mode octets trim).data = transfer.data := by
  rw [Transfer.write]
  split_ifs <;> rfl

theorem write_of_error {transfer : Transfer Socket} (failed : transfer.error ≠ .noError)
    (octets : Octets) (trim : Bool) : transfer.write system mode octets trim = transfer :=
  if_pos failed

variable {Within : Nat → Prop} {Ahead : Nat → Nat → Transfer Socket → Prop} {Fits : Prop}
  {may : Stop Failure → Prop} {i j k : Nat} {transfer : Transfer Socket}

/-- Writing the buffer leaves it empty. -/
theorem Stored.flush (source : Source reader system mode e Within Ahead)
    (ahead : Ahead i k transfer) (written_le : k ≤ j) (read_le : j ≤ i)
    (buffer_eq : transfer.error = .noError → transfer.buffer = window e k (j - k))
    (within : Within i) :
    ∃ k', Stored Ahead e Fits i j k' (transfer.flush system mode) := by
  by_cases failed : transfer.error = .noError
  · have written := source.write ahead within failed written_le read_le false
    rw [← buffer_eq failed] at written
    refine ⟨j, source.rebuffer written [], le_rfl, read_le, fun _ => ?_, fun _ => Nat.succ_pos 4095⟩
    rw [Nat.sub_self]
    rfl
  · refine ⟨k, ?_, written_le, read_le, fun sound => absurd ?_ failed, fun _ => Nat.succ_pos 4095⟩
    · rw [Transfer.flush, write_of_error failed]
      exact source.rebuffer ahead []
    · rwa [Transfer.flush, write_of_error failed] at sound

/-- The octets of a candidate are stored. -/
theorem Stored.writeData (source : Source reader system mode e Within Ahead) {q m : Nat}
    (stored : Stored Ahead e Fits i q k transfer) (within : Within i) (read_le : q + m ≤ i)
    (short : Fits → m < bufferLast)
    (allowed : Fits ∨ may (.raised (.exception .constraintError))) :
    Meets may (fun next => next.data = transfer.data ∧ ∃ k', Stored Ahead e Fits i (q + m) k' next)
      (transfer.writeData system mode (window e q m)) := by
  have count : ∀ k' ≤ q, q - k' + m = q + m - k' := fun k' k'_le => by omega
  rw [Transfer.writeData]
  by_cases failed : transfer.error ≠ .noError
  · rw [if_pos failed]
    exact .ok ⟨rfl, k, stored.ahead, by have := stored.written_le; omega, read_le,
      fun sound => absurd sound failed, stored.short⟩
  · rw [if_neg failed]
    obtain ⟨flushed, flushed_eq, same_data, room, k', flushed_stored⟩ :
        ∃ flushed, (if bufferLast < transfer.buffer.length + 1 + (window e q m).length then
            transfer.flush system mode else transfer) = flushed ∧ flushed.data = transfer.data ∧
          (flushed.buffer.length + m < bufferLast ∨ flushed.buffer = []) ∧
          ∃ k', Stored Ahead e Fits i q k' flushed := by
      rw [Search.length_window]
      by_cases full : bufferLast < transfer.buffer.length + 1 + m
      · refine ⟨_, rfl, ?_, ?_, ?_⟩ <;> rw [if_pos full]
        · exact write_data _ _ _
        · exact .inr rfl
        · exact Stored.flush source stored.ahead stored.written_le stored.read_le stored.buffer_eq
            within
      · refine ⟨_, rfl, ?_, ?_, ?_⟩ <;> rw [if_neg full]
        · exact .inl (by omega)
        · exact ⟨k, stored⟩
    dsimp only
    rw [flushed_eq, Search.length_window]
    by_cases overflow : bufferLast < flushed.buffer.length + m
    · rw [if_pos overflow]
      refine .stop (allowed.resolve_left fun fits => ?_)
      have small := short fits
      obtain fitting | empty := room
      · omega
      · rw [empty, List.length_nil] at overflow
        omega
    · rw [if_neg overflow]
      refine .ok ⟨same_data, k', source.rebuffer flushed_stored.ahead _, ?_, read_le,
        fun sound => ?_, fun fits => ?_⟩
      · have := flushed_stored.written_le
        omega
      · have joined := Search.window_append e k' (q - k') m
        have start : k' + (q - k') = q := by have := flushed_stored.written_le; omega
        dsimp only
        rw [start, count k' flushed_stored.written_le] at joined
        rw [flushed_stored.buffer_eq sound, joined]
      · have small := short fits
        dsimp only
        rw [List.length_append, Search.length_window]
        obtain fitting | empty := room
        · exact fitting
        · rwa [empty, List.length_nil, Nat.zero_add]

/-- The octet that was read last is stored. -/
theorem Stored.store (source : Source reader system mode e Within Ahead) {x : Nat}
    (stored : Stored Ahead e Fits (x + 1) x k transfer) (data_eq : transfer.data = e x)
    (within : Within (x + 1)) (allowed : Fits ∨ may (.raised (.exception .constraintError))) :
    Meets may (fun next => ∃ k', Stored Ahead e Fits (x + 1) (x + 1) k' next)
      (transfer.store reader system mode) := by
  have written_le := stored.written_le
  have buffer_eq : transfer.error = .noError →
      transfer.buffer ++ [transfer.data] = window e k (x + 1 - k) := by
    intro sound
    have joined := Search.window_concat e k (x - k)
    rw [show k + (x - k) = x by omega, show x - k + 1 = x + 1 - k by omega] at joined
    rw [stored.buffer_eq sound, data_eq, joined]
  rw [Transfer.store]
  by_cases overflow : bufferLast ≤ transfer.buffer.length
  · rw [if_pos overflow]
    exact .stop (allowed.resolve_left fun fits => by have := stored.short fits; omega)
  · rw [if_neg overflow]
    have ahead := source.rebuffer stored.ahead (transfer.buffer ++ [transfer.data])
    dsimp only
    by_cases full : (transfer.buffer ++ [transfer.data]).length = bufferLast
    · rw [if_pos full]
      obtain ⟨k', flushed⟩ : ∃ k', Stored Ahead e Fits (x + 1) (x + 1) k' (Transfer.flush system mode
          { transfer with buffer := transfer.buffer ++ [transfer.data] }) :=
        Stored.flush source ahead (by omega) le_rfl buffer_eq within
      rw [source.timeout flushed.ahead]
      exact .ok ⟨k', flushed⟩
    · rw [if_neg full]
      refine .ok ⟨k, ahead, by omega, le_rfl, buffer_eq, fun _ => ?_⟩
      rw [List.length_append, List.length_singleton] at full ⊢
      omega

/-- The rest of the buffer is written. -/
theorem Stored.finish (source : Source reader system mode e Within Ahead)
    (stored : Stored Ahead e Fits i j k transfer) (within : Within i) :
    ∃ k' ≤ j, Ahead i k' (transfer.finish system mode) ∧
      ((transfer.finish system mode).error = .noError → k' = j) := by
  have written_le := stored.written_le
  rw [Transfer.finish]
  by_cases failed : transfer.error = .noError
  · by_cases nothing : transfer.buffer = []
    · rw [if_neg (not_not.2 nothing)]
      refine ⟨k, written_le, stored.ahead, fun sound => ?_⟩
      have length_eq := congrArg List.length (stored.buffer_eq sound)
      rw [nothing, Search.length_window, List.length_nil] at length_eq
      omega
    · rw [if_pos nothing]
      have written := source.write stored.ahead within failed written_le stored.read_le true
      rw [← stored.buffer_eq failed] at written
      exact ⟨j, le_rfl, written, fun _ => rfl⟩
  · have unchanged : (if transfer.buffer ≠ [] then
        transfer.write system mode transfer.buffer true else transfer) = transfer := by
      rw [write_of_error failed, ite_self]
    rw [unchanged]
    exact ⟨k, written_le, stored.ahead, fun sound => absurd sound failed⟩

/-! ## Searching -/

/-- A signature starts with a carriage return and has no other one. -/
structure IsSignature (sought : Octets) : Prop where
  starts : sought[0]? = some 13
  once : ∀ index, 0 < index → sought[index]? ≠ some 13

/-- The signature is what comes at a position. -/
def Occurs (e : Nat → Octet) (sought : Octets) (position : Nat) : Prop :=
  window e position sought.length = sought

/-- The first position at which the signature comes, or none. -/
def IsFirst (e : Nat → Octet) (sought : Octets) : Option Nat → Prop
  | some first => Occurs e sought first ∧ ∀ earlier < first, ¬Occurs e sought earlier
  | none => ∀ position, ¬Occurs e sought position

variable {sought : Octets}

theorem IsSignature.positive (signed : IsSignature sought) : 0 < sought.length := by
  by_contra nothing
  have empty : sought = [] := List.length_eq_zero_iff.1 (by omega)
  have starts := signed.starts
  rw [empty] at starts
  cases starts

theorem isSignature {startBoundary : Text} (plain : 13 ∉ startBoundary) :
    IsSignature (signature startBoundary) where
  starts := rfl
  once index positive there := by
    obtain ⟨index, rfl⟩ : ∃ before, index = before + 1 := ⟨index - 1, by omega⟩
    cases index with
    | zero => cases there
    | succ index => exact plain (List.mem_of_getElem? there)

theorem length_signature (startBoundary : Text) :
    (signature startBoundary).length = startBoundary.length + 2 := by
  rw [signature, List.length_append]
  exact Nat.add_comm _ _

theorem Occurs.return_eq {position : Nat} (signed : IsSignature sought)
    (occurs : Occurs e sought position) : e position = 13 := by
  have starts := signed.starts
  rw [← occurs, Search.getElem?_window e signed.positive] at starts
  exact Option.some.inj starts

/-- Where a carriage return follows too soon there is no signature. -/
theorem IsSignature.not_occurs {position x : Nat} (signed : IsSignature sought)
    (behind : position < x) (within : x < position + sought.length) (ret : e x = 13) :
    ¬Occurs e sought position := by
  intro occurs
  refine signed.once (x - position) (by omega) ?_
  rw [← occurs, Search.getElem?_window e (by omega), show position + (x - position) = x by omega, ret]

/-- The next octet is read. -/
theorem Stored.read (source : Source reader system mode e Within Ahead)
    (stored : Stored Ahead e Fits i j k transfer) (within : Within (i + 1)) :
    ∃ next, transfer.readData reader = .ok next ∧ next.data = e i ∧
      Stored Ahead e Fits (i + 1) j k next := by
  obtain ⟨next, read_eq, data_eq, buffer_eq, error_eq, ahead⟩ := source.read stored.ahead within
  refine ⟨next, read_eq, data_eq, ahead, stored.written_le, Nat.le_succ_of_le stored.read_le, ?_, ?_⟩
  · rw [buffer_eq, error_eq]
    exact stored.buffer_eq
  · rw [buffer_eq]
    exact stored.short

/-- The octet at a position has been read, and those in front of it are stored. -/
def Ready (Ahead : Nat → Nat → Transfer Socket → Prop) (e : Nat → Octet) (sought : Octets) (x : Nat)
    (transfer : Transfer Socket) : Prop :=
  transfer.data = e x ∧ ∃ k, Stored Ahead e (sought.length ≤ bufferLast) (x + 1) x k transfer

/-- The signature has been found at a position. -/
def FoundAt (Ahead : Nat → Nat → Transfer Socket → Prop) (e : Nat → Octet) (sought : Octets) (x : Nat)
    (transfer : Transfer Socket) : Prop :=
  Occurs e sought x ∧
    ∃ k, Stored Ahead e (sought.length ≤ bufferLast) (x + sought.length) x k transfer

/-- What is known after a search from a carriage return on: the signature is there, or the search goes on
from a later octet, with no carriage return in between. -/
def Checked (Ahead : Nat → Nat → Transfer Socket → Prop) (e : Nat → Octet) (sought : Octets)
    (q : Nat) (outcome : Bool × Transfer Socket) : Prop :=
  if outcome.1 then FoundAt Ahead e sought q outcome.2
  else ¬Occurs e sought q ∧
    ∃ x, q < x ∧ (∀ y, q < y → y < x → e y ≠ 13) ∧ Ready Ahead e sought x outcome.2

/-- The octets of a candidate that is not the signature are stored. -/
theorem Stored.reject (source : Source reader system mode e Within Ahead)
    (allowed : sought.length ≤ bufferLast ∨ may (.raised (.exception .constraintError))) {q m : Nat}
    (shorter : m < sought.length) (positive : 0 < m)
    (no_return : ∀ y, q < y → y < q + m → e y ≠ 13) (data_eq : transfer.data = e (q + m))
    (stored : Stored Ahead e (sought.length ≤ bufferLast) (q + m + 1) q k transfer)
    (within : Within (q + m + 1)) (other : ¬Occurs e sought q) :
    Meets may (Checked Ahead e sought q)
      (transfer.writeData system mode (window e q m) >>= fun next => .ok (false, next)) := by
  refine (stored.writeData source within (Nat.le_succ _) (fun fits => by omega) allowed).bind ?_
  rintro next ⟨same_data, k', next_stored⟩
  exact .ok ⟨other, q + m, by omega, no_return, same_data.trans data_eq, k', next_stored⟩

/-- The loop of `Check_EOF` finds the signature if it is there. -/
theorem Stored.checkEofLoop (source : Source reader system mode e Within Ahead)
    (signed : IsSignature sought)
    (allowed : sought.length ≤ bufferLast ∨ may (.raised (.exception .constraintError)))
    {q m missing : Nat} (length_eq : m + (missing + 1) = sought.length) (positive : 0 < m)
    (no_return : ∀ y, q < y → y < q + m → e y ≠ 13)
    (stored : Stored Ahead e (sought.length ≤ bufferLast) (q + m) q k transfer)
    (within : ∀ i ≤ q + sought.length, Within i) :
    Meets may (Checked Ahead e sought q)
      (transfer.checkEofLoop reader system mode sought (missing + 1) (window e q m)) := by
  induction missing generalizing m transfer with
  | zero =>
      obtain ⟨next, read_eq, data_eq, next_stored⟩ := stored.read source (within _ (by omega))
      have candidate : window e q m ++ [e (q + m)] = window e q sought.length := by
        rw [Search.window_concat, ← length_eq]
      rw [Transfer.checkEofLoop, read_eq, Http2.ok_bind, data_eq, if_pos rfl, candidate]
      by_cases ret : e (q + m) = 13
      · rw [if_pos ret]
        exact next_stored.reject source allowed (by omega) positive no_return data_eq
          (within _ (by omega)) (signed.not_occurs (by omega) (by omega) ret)
      · rw [if_neg ret]
        by_cases same : window e q sought.length = sought
        · rw [if_pos same]
          have stop : q + sought.length = q + m + 1 := by omega
          exact .ok ⟨same, k, stop ▸ next_stored⟩
        · rw [if_neg same]
          exact next_stored.reject source allowed (by omega) positive no_return data_eq
            (within _ (by omega)) same
  | succ missing ih =>
      obtain ⟨next, read_eq, data_eq, next_stored⟩ := stored.read source (within _ (by omega))
      rw [Transfer.checkEofLoop, read_eq, Http2.ok_bind, data_eq, if_neg (Nat.succ_ne_zero _)]
      by_cases ret : e (q + m) = 13
      · rw [if_pos ret]
        exact next_stored.reject source allowed (by omega) positive no_return data_eq
          (within _ (by omega)) (signed.not_occurs (by omega) (by omega) ret)
      · rw [if_neg ret, Search.window_concat]
        refine ih (by omega) (Nat.succ_pos m) (fun y behind before => ?_) next_stored
        by_cases last : y = q + m
        · rwa [last]
        · exact no_return y behind (by omega)

/-- `Check_EOF` finds the signature if it is there. -/
theorem Ready.checkEof (source : Source reader system mode e Within Ahead)
    (signed : IsSignature sought) (long : 1 < sought.length)
    (allowed : sought.length ≤ bufferLast ∨ may (.raised (.exception .constraintError)))
    {q : Nat} (ready : Ready Ahead e sought q transfer) (ret : e q = 13)
    (within : ∀ i ≤ q + sought.length, Within i) :
    Meets may (Checked Ahead e sought q) (transfer.checkEof reader system mode sought) := by
  obtain ⟨_, k, stored⟩ := ready
  have start : [13] = window e q 1 := by rw [Search.window_succ, ret, Search.window_zero]
  have length_eq : sought.length - 1 = sought.length - 2 + 1 := by omega
  rw [Transfer.checkEof, start, length_eq]
  exact stored.checkEofLoop source signed allowed (by omega) Nat.one_pos (fun y behind before => by omega)
    within

/-! ## The whole data -/

/-- The search has not passed the first signature. -/
def NotPassed (first : Option Nat) (x : Nat) : Prop := ∀ position ∈ first, x ≤ position

/-- Without a carriage return in between, the first signature is not passed. -/
theorem NotPassed.advance (signed : IsSignature sought) {first : Option Nat}
    (is_first : IsFirst e sought first) {q x : Nat} (not_passed : NotPassed first q)
    (other : ¬Occurs e sought q) (no_return : ∀ y, q < y → y < x → e y ≠ 13) :
    NotPassed first x := by
  rintro position rfl
  have not_before := not_passed position rfl
  have occurs : Occurs e sought position := is_first.1
  by_contra passed
  by_cases here : position = q
  · exact other (here ▸ occurs)
  · exact no_return position (by omega) (by omega) (occurs.return_eq signed)

theorem NotPassed.mem_of_occurs {first : Option Nat} (is_first : IsFirst e sought first) {x : Nat}
    (not_passed : NotPassed first x) (occurs : Occurs e sought x) : x ∈ first := by
  cases first with
  | none => exact absurd occurs (is_first x)
  | some position =>
      have before := not_passed position rfl
      by_contra different
      exact is_first.2 x (lt_of_le_of_ne before fun same => different (same ▸ rfl)) occurs

/-- How far the first signature is. -/
def distance (first : Option Nat) (x : Nat) : Nat := first.getD 0 - x

/-- The loop ends at the first signature, or it may not end. -/
def Bounded (may : Stop Failure → Prop) (first : Option Nat) : Prop :=
  first.isSome ∨ may .unfinished

theorem NotPassed.distance_lt {first : Option Nat} {q x : Nat} (not_passed : NotPassed first x)
    (bounded : Bounded may first) (further : q < x) :
    distance first x < distance first q ∨ may .unfinished := by
  refine bounded.imp_left fun there => ?_
  obtain ⟨position, rfl⟩ := Option.isSome_iff_exists.1 there
  have before := not_passed position rfl
  rw [distance, distance, Option.getD_some]
  omega

section Whole

variable {first : Option Nat} {times : Nat}

/-- What is known after the carriage returns at the front: the first signature has been found, or the octet
that was read last is none. -/
def Returned (Ahead : Nat → Nat → Transfer Socket → Prop) (e : Nat → Octet) (sought : Octets)
    (first : Option Nat) (q : Nat) (outcome : Bool × Transfer Socket) : Prop :=
  if outcome.1 then ∃ x ∈ first, FoundAt Ahead e sought x outcome.2
  else ∃ x, q ≤ x ∧ NotPassed first (x + 1) ∧ Ready Ahead e sought x outcome.2

/-- The loop over carriage returns. -/
theorem Ready.returns (source : Source reader system mode e Within Ahead)
    (signed : IsSignature sought) (long : 1 < sought.length)
    (allowed : sought.length ≤ bufferLast ∨ may (.raised (.exception .constraintError)))
    (is_first : IsFirst e sought first) (bounded : Bounded may first)
    (within : ∀ i, (∀ position ∈ first, i ≤ position + sought.length) → Within i) {q : Nat}
    (not_passed : NotPassed first q) (ready : Ready Ahead e sought q transfer)
    (enough : distance first q < times ∨ may .unfinished) :
    Meets may (Returned Ahead e sought first q)
      (turns (Transfer.returnTurn reader system mode sought) times transfer) := by
  refine @meets_turns _ _ _ may _ (fun measure transfer => ∃ x, q ≤ x ∧ NotPassed first x ∧
    Ready Ahead e sought x transfer ∧ measure = distance first x) _ ?_ _ _ _
    ⟨q, le_rfl, not_passed, ready, rfl⟩ enough
  rintro _ transfer ⟨x, q_le, not_passed, ready, rfl⟩
  rw [Transfer.returnTurn, ready.1]
  by_cases ret : e x = 13
  · rw [if_pos ret]
    have within_candidate : ∀ i ≤ x + sought.length, Within i := fun i i_le =>
      within i fun position there => by have := not_passed position there; omega
    refine (ready.checkEof source signed long allowed ret within_candidate).bind ?_
    rintro ⟨found, next⟩ checked
    cases found with
    | true => exact .ok ⟨x, not_passed.mem_of_occurs is_first checked.1, checked⟩
    | false =>
        obtain ⟨other, x', further, no_return, next_ready⟩ := checked
        have next_not_passed := not_passed.advance signed is_first other no_return
        exact .ok ⟨_, next_not_passed.distance_lt bounded further, x', by omega, next_not_passed,
          next_ready, rfl⟩
  · rw [if_neg ret]
    refine .ok ⟨x, q_le, fun position there => ?_, ready⟩
    have before := not_passed position there
    have different : x ≠ position := by
      rintro rfl
      obtain rfl : first = some x := there
      exact ret (Occurs.return_eq signed is_first.1)
    omega

/-- The loop `Read_File` ends with the first signature, and what is in front of it is stored. -/
theorem Stored.readFile (source : Source reader system mode e Within Ahead)
    (signed : IsSignature sought) (long : 1 < sought.length)
    (allowed : sought.length ≤ bufferLast ∨ may (.raised (.exception .constraintError)))
    (is_first : IsFirst e sought first) (bounded : Bounded may first)
    (within : ∀ i, (∀ position ∈ first, i ≤ position + sought.length) → Within i)
    (stored : Stored Ahead e (sought.length ≤ bufferLast) 0 0 0 transfer)
    (enough : first.getD 0 < times ∨ may .unfinished) :
    Meets may (fun next => ∃ x ∈ first, FoundAt Ahead e sought x next)
      (turns (Transfer.readTurn reader system mode sought times) times transfer) := by
  refine @meets_turns _ _ _ may _ (fun measure transfer => ∃ x, NotPassed first x ∧
    (∃ k, Stored Ahead e (sought.length ≤ bufferLast) x x k transfer) ∧ measure = distance first x)
    _ ?_ _ _ _ ⟨0, fun _ _ => Nat.zero_le _, ⟨0, stored⟩, rfl⟩ enough
  rintro _ transfer ⟨x, not_passed, ⟨k, stored⟩, rfl⟩
  have within_next : ∀ {y}, NotPassed first y → Within (y + 1) := fun not_passed =>
    within _ fun position there => by
      have := not_passed position there
      have := signed.positive
      omega
  obtain ⟨next, read_eq, data_eq, next_stored⟩ := stored.read source (within_next not_passed)
  have near : distance first x < times ∨ may .unfinished :=
    enough.imp_left fun enough => by rw [distance]; omega
  rw [Transfer.readTurn, read_eq, Http2.ok_bind]
  refine (Ready.returns source signed long allowed is_first bounded within not_passed
    ⟨data_eq, k, next_stored⟩ near).bind ?_
  rintro ⟨found, returned⟩ known
  cases found with
  | true => exact .ok known
  | false =>
      obtain ⟨x', x_le, next_not_passed, ready_eq, k', ready⟩ := known
      refine (ready.store source ready_eq
        (source.earlier (within_next next_not_passed)) allowed).bind ?_
      rintro last ⟨k'', last_stored⟩
      exact .ok ⟨_, next_not_passed.distance_lt bounded (by omega), x' + 1, next_not_passed,
        ⟨k'', last_stored⟩, rfl⟩

end Whole

end Multipart
end Server
end AdaWebServer
