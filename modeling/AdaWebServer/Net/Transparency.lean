import AdaWebServer.Net.Buffered

/-!
# What the buffered operations return

The octets that the operations on a buffered socket return, one operation after the other, are the
octets that the socket receives.  Only an operation that takes octets out of the cache before it knows
whether it succeeds loses some, when it raises.
-/

namespace AdaWebServer
namespace Net

open Http2 (Octet Octets Exn)

/-- A call of one of the reading operations. -/
inductive Operation where
  | getByte
  | getChar
  | peekChar
  | read (size : Nat)
  | readFull (size : Nat)
  | readBuffer (size : Nat)
  | readUntil (inputLimit : Nat) (delimiter : Octets) (wait : Bool)

/-- What a call gives to its caller. -/
inductive Outcome where
  /-- Octets that have been taken. -/
  | returned (data : Octets)
  /-- The octet that will be taken next. -/
  | peeked (octet : Octet)
  | raised (exn : Exn)
  deriving DecidableEq

namespace Outcome

/-- The octets that have been taken. -/
def octets : Outcome → Octets
  | returned data => data
  | peeked _ => []
  | raised _ => []

/-- The outcome of an operation and the socket after it. -/
def ofResult {α : Type} (outcome : α → Outcome) :
    EStateM.Result Exn Buffered α → Outcome × Buffered
  | .ok a next => (outcome a, next)
  | .error exn next => (raised exn, next)

end Outcome

namespace Operation

/-- A call is performed. -/
def perform : Operation → Buffered → Outcome × Buffered
  | getByte, socket => Outcome.ofResult (fun octet => .returned [octet]) socket.getByte
  | getChar, socket => Outcome.ofResult (fun octet => .returned [octet]) socket.getChar
  | peekChar, socket => Outcome.ofResult .peeked socket.peekChar
  | read size, socket => Outcome.ofResult .returned (socket.read size)
  | readFull size, socket => Outcome.ofResult .returned (socket.readFull size)
  | readBuffer size, socket => Outcome.ofResult .returned (socket.readBuffer size)
  | readUntil inputLimit delimiter wait, socket =>
      Outcome.ofResult .returned (socket.readUntil inputLimit delimiter wait)

/-- Calls are performed one after the other. -/
def performAll : List Operation → Buffered → List Outcome × Buffered
  | [], socket => ([], socket)
  | operation :: later, socket =>
      let (outcome, next) := operation.perform socket
      let (outcomes, final) := performAll later next
      (outcome :: outcomes, final)

/-- The operation takes octets out of the cache before it knows whether it succeeds. -/
def MayLose : Operation → Prop
  | readFull _ => True
  | readUntil _ _ wait => wait = true
  | _ => False

/-- The exceptions that an operation raises. -/
def MayRaise : Operation → Exn → Prop
  | readBuffer _, _ => False
  | readUntil _ delimiter _, exn => Buffered.ReadUntilRaises delimiter exn
  | _, exn => exn = .socketError

/-- How many octets an operation may return. -/
def Admits : Operation → Nat → Prop
  | getByte, count => count = 1
  | getChar, count => count = 1
  | peekChar, _ => False
  | read size, count => count ≤ size ∧ (0 < size → 0 < count)
  | readFull size, count => count = size
  | readBuffer size, count => count ≤ size
  | readUntil _ _ _, _ => True

/-- How one call leads from what has not been read to what has not been read after it. -/
inductive Explains (operation : Operation) : Outcome → Octets → Octets → Prop where
  | returned {data after : Octets} (admitted : operation.Admits data.length) :
      Explains operation (.returned data) (data ++ after) after
  | peeked {octet : Octet} {after : Octets} (peeking : operation = .peekChar) :
      Explains operation (.peeked octet) (octet :: after) (octet :: after)
  | raised {exn : Exn} {lost after : Octets} (raises : operation.MayRaise exn)
      (losing : lost ≠ [] → operation.MayLose) :
      Explains operation (.raised exn) (lost ++ after) after

/-- How calls lead from what has not been read to what has not been read after them. -/
inductive Transparent : List Operation → List Outcome → Octets → Octets → Prop where
  | done {rest : Octets} : Transparent [] [] rest rest
  | call {operation : Operation} {later : List Operation} {outcome : Outcome}
      {outcomes : List Outcome} {before middle rest : Octets}
      (explained : operation.Explains outcome before middle)
      (further : Transparent later outcomes middle rest) :
      Transparent (operation :: later) (outcome :: outcomes) before rest

variable {operation : Operation} {socket next : Buffered}

/-- Octets that have been taken are returned. -/
theorem explains_returned {data : Octets} (taken : Buffered.Took data socket next)
    (admitted : operation.Admits data.length) :
    operation.Explains (.returned data) socket.unread next.unread :=
  taken.unread_eq ▸ .returned admitted

/-- An operation that takes nothing may raise. -/
theorem explains_failed {exn : Exn} (failed : Buffered.Failed socket next)
    (raises : operation.MayRaise exn) :
    operation.Explains (.raised exn) socket.unread next.unread :=
  failed.unread_eq ▸ .raised raises fun nonempty => absurd rfl nonempty

/-- The next octet is returned. -/
theorem explains_getByte (admitted : operation.Admits 1) (raises : operation.MayRaise .socketError) :
    operation.Explains (Outcome.ofResult (fun octet => .returned [octet]) socket.getByte).1
      socket.unread (Outcome.ofResult (fun octet => .returned [octet]) socket.getByte).2.unread := by
  obtain ⟨octet, next, byte_eq, taken⟩ | ⟨next, failed_eq, failed⟩ := socket.getByte_spec
  · rw [byte_eq]
    exact explains_returned taken admitted
  · rw [failed_eq]
    exact explains_failed failed raises

theorem perform_explains (operation : Operation) (socket : Buffered) :
    operation.Explains (operation.perform socket).1 socket.unread
      (operation.perform socket).2.unread := by
  cases operation with
  | getByte => exact explains_getByte rfl rfl
  | getChar => exact explains_getByte rfl rfl
  | peekChar =>
      rw [perform]
      obtain ⟨octet, next, peek_eq, taken, head_eq⟩ | ⟨next, failed_eq, failed⟩ :=
        socket.peekChar_spec
      · obtain ⟨after, unread_eq⟩ := List.head?_eq_some_iff.1 head_eq
        have next_eq : next.unread = octet :: after := taken.unread_eq.symm.trans unread_eq
        rw [peek_eq, Outcome.ofResult, unread_eq, next_eq]
        exact .peeked rfl
      · rw [failed_eq]
        exact explains_failed failed rfl
  | read size =>
      rw [perform]
      obtain ⟨data, next, read_eq, taken, data_le, data_ne⟩ | ⟨next, failed_eq, failed, _⟩ :=
        socket.read_spec size
      · rw [read_eq]
        exact explains_returned taken
          ⟨data_le, fun positive => List.length_pos_iff.2 (data_ne positive)⟩
      · rw [failed_eq]
        exact explains_failed failed rfl
  | readFull size =>
      rw [perform, Buffered.readFull]
      obtain ⟨data, next, read_eq, taken, full⟩ | ⟨lost, next, failed_eq, taken⟩ :=
        Buffered.readLoop_spec socket [] (Nat.lt_succ_self size)
      · rw [read_eq]
        exact explains_returned taken full
      · rw [failed_eq, taken.unread_eq]
        exact .raised rfl fun _ => trivial
  | readBuffer size =>
      rw [perform, Buffered.readBuffer, ReadCache.slice_readLast]
      exact explains_returned (Buffered.took_readBuffer size socket) (List.length_take_le size _)
  | readUntil inputLimit delimiter wait =>
      rw [perform, Buffered.readUntil]
      obtain ⟨data, next, read_eq, taken⟩ | ⟨exn, lost, next, failed_eq, taken, raises, kept⟩ :=
        Buffered.readUntilLoop_spec inputLimit delimiter wait [] 0 socket (Nat.lt_succ_self _)
          fun _ => rfl
      · rw [read_eq]
        exact explains_returned taken trivial
      · rw [failed_eq, taken.unread_eq]
        refine .raised raises fun nonempty => ?_
        cases wait with
        | false => exact absurd (kept rfl) nonempty
        | true => rfl

/-- No operation that may lose octets has raised. -/
def Kept (operations : List Operation) (outcomes : List Outcome) : Prop :=
  ∀ call ∈ operations.zip outcomes, call.1.MayLose → ∀ exn, call.2 ≠ .raised exn

/-- The calls of a run are explained one after the other. -/
theorem performAll_transparent (operations : List Operation) (socket : Buffered) :
    Transparent operations (performAll operations socket).1 socket.unread
      (performAll operations socket).2.unread := by
  induction operations generalizing socket with
  | nil => exact .done
  | cons operation later ih => exact .call (operation.perform_explains socket) (ih _)

/-- A run in which no octets are lost returns a prefix of what the socket receives. -/
theorem Transparent.returned_eq {operations : List Operation} {outcomes : List Outcome}
    {before after : Octets} (transparent : Transparent operations outcomes before after)
    (kept : Kept operations outcomes) :
    before = outcomes.flatMap Outcome.octets ++ after := by
  induction transparent with
  | done => rfl
  | @call operation later outcome outcomes before middle rest explained further ih =>
      rw [Kept, List.zip_cons_cons, List.forall_mem_cons] at kept
      have middle_eq := ih kept.2
      rw [List.flatMap_cons, List.append_assoc, ← middle_eq]
      cases explained with
      | returned admitted => rfl
      | peeked peeking => rfl
      | @raised exn lost after raises losing =>
          cases lost with
          | nil => rfl
          | cons octet lost => exact absurd rfl (kept.1 (losing (List.cons_ne_nil _ _)) exn)

end Operation
end Net
end AdaWebServer
