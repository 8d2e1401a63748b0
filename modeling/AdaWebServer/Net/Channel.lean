import AdaWebServer.Foundations.Protected
import AdaWebServer.Net.Lines

/-!
# Buffered sockets that are read and written

What is written is kept in the write cache of the socket and is sent when the cache is full, when it
is flushed, or before something is read.  The peer accepts a number of calls of `Send`.
-/

namespace AdaWebServer
namespace Net

open Http2 (Octets Exn Positive)

/-- `W_Cache_Size`. -/
def wCacheSize : Nat := 2048

/-- A socket with its read cache and its write cache. -/
structure Channel where
  socket : Buffered
  cache : Octets := []
  /-- How many calls of `Send` the peer still accepts. -/
  accepts : Nat
  sent : Octets := []

/-- An operation on a channel. -/
abbrev Channeling (α : Type) := EStateM Exn Channel α

namespace Channel

/-- `Send`. -/
def send (item : Octets) : Channeling Unit := fun channel =>
  match channel.accepts with
  | 0 => .error .socketError channel
  | accepts + 1 => .ok () { channel with accepts, sent := channel.sent ++ item }

/-- `Flush`. -/
def flush : Channeling Unit := do
  let channel ← get
  if channel.cache ≠ [] then
    send channel.cache
    modify fun channel => { channel with cache := [] }

/-- `Write`. -/
def write (item : Octets) : Channeling Unit := do
  let channel ← get
  if channel.cache.length + item.length > wCacheSize then
    send channel.cache
    send item
    modify fun channel => { channel with cache := [] }
  else
    modify fun channel => { channel with cache := channel.cache ++ item }

/-- `Put_Line`. -/
def putLine (item : Octets) : Channeling Unit := write (item ++ crlf)

/-- `Get_Line`, which flushes first. -/
def getLine (inputLimit : Positive) : Channeling Octets := do
  flush
  fun channel =>
    match Buffered.getLine inputLimit channel.socket with
    | .ok line socket => .ok line { channel with socket }
    | .error exn socket => .error exn { channel with socket }

/-! ## What the operations do -/

/-- How many calls of `Send` are needed for what is in the write cache. -/
def owes (channel : Channel) : Nat := if channel.cache = [] then 0 else 1

variable {channel : Channel} {inputLimit : Positive}

theorem flush_accepted (accepted : channel.owes ≤ channel.accepts) :
    ∃ sent, flush channel =
      .ok () { channel with cache := [], accepts := channel.accepts - channel.owes, sent } := by
  obtain ⟨socket, cache, accepts, sent⟩ := channel
  by_cases empty : cache = []
  · subst empty
    exact ⟨sent, rfl⟩
  · rw [owes, if_neg empty] at accepted ⊢
    obtain ⟨accepts, rfl⟩ : ∃ rest, accepts = rest + 1 := ⟨accepts - 1, by
      dsimp only at accepted
      omega⟩
    refine ⟨sent ++ cache, ?_⟩
    simp only [flush, bind, EStateM.bind, get, getThe, MonadStateOf.get, Protected.get_returned, if_pos empty,
      send, modify, modifyGet, MonadStateOf.modifyGet, Protected.modifyGet_returned, ne_eq]
    rfl

theorem flush_refused (refused : ¬channel.owes ≤ channel.accepts) :
    flush channel = .error .socketError channel := by
  obtain ⟨socket, cache, accepts, sent⟩ := channel
  by_cases empty : cache = []
  · rw [owes, if_pos empty] at refused
    exact absurd (Nat.zero_le _) refused
  · rw [owes, if_neg empty] at refused
    obtain rfl : accepts = 0 := by
      dsimp only at refused
      omega
    simp only [flush, bind, EStateM.bind, get, getThe, MonadStateOf.get, Protected.get_returned, if_pos empty,
      send, ne_eq]

/-- A line is read when the peer accepts what is in the write cache. -/
theorem getLine_ok (accepted : channel.owes ≤ channel.accepts) {line : Octets} {next : Buffered}
    (read : Buffered.getLine inputLimit channel.socket = .ok line next) :
    ∃ sent, getLine inputLimit channel =
      .ok line { socket := next, cache := [], accepts := channel.accepts - channel.owes, sent } := by
  obtain ⟨sent, flushed⟩ := flush_accepted accepted
  refine ⟨sent, ?_⟩
  simp only [getLine, bind, EStateM.bind, flushed, read]

theorem getLine_error (failing : ¬channel.owes ≤ channel.accepts ∨
    ∃ exn next, Buffered.getLine inputLimit channel.socket = .error exn next) :
    ∃ exn next, getLine inputLimit channel = .error exn next := by
  by_cases accepted : channel.owes ≤ channel.accepts
  · obtain ⟨exn, next, failed⟩ := failing.resolve_left (not_not_intro accepted)
    obtain ⟨sent, flushed⟩ := flush_accepted accepted
    simp only [getLine, bind, EStateM.bind, flushed, failed]
    exact ⟨_, _, rfl⟩
  · simp only [getLine, bind, EStateM.bind, flush_refused accepted]
    exact ⟨_, _, rfl⟩

theorem putLine_empty (empty : channel.cache = []) {item : Octets}
    (fits : item.length + 2 ≤ wCacheSize) :
    putLine item channel = .ok () { channel with cache := item ++ crlf } := by
  obtain ⟨socket, cache, accepts, sent⟩ := channel
  obtain rfl : cache = [] := empty
  have short : ¬([] : Octets).length + (item ++ crlf).length > wCacheSize := by
    rw [List.length_append, crlf]
    exact Nat.not_lt.mpr (by simpa using fits)
  simp only [putLine, write, bind, EStateM.bind, get, getThe, MonadStateOf.get, Protected.get_returned,
    if_neg short, modify, modifyGet, MonadStateOf.modifyGet, Protected.modifyGet_returned]
  rfl

end Channel

/-! ## Lines consume what arrives -/

namespace Buffered

private theorem readUntilLoop_ne_nil {inputLimit times matched : Nat} {delimiter buffer line : Octets}
    {socket next : Buffered}
    (read : readUntilLoop inputLimit delimiter true times buffer matched socket = .ok line next) :
    line ≠ [] := by
  induction times generalizing buffer matched socket with
  | zero => cases read
  | succ times ih =>
      rw [readUntilLoop] at read
      by_cases unindexed : delimiter = [] ∧ ¬socket.cache.IsEmpty
      · rw [if_pos unindexed] at read
        cases read
      · rw [if_neg unindexed] at read
        cases scanned : scan delimiter matched socket.cache.content with
        | found taken =>
            obtain ⟨positive, within_content⟩ := scan_found scanned
            rw [scanned] at read
            dsimp only at read
            split_ifs at read with within
            cases read
            refine List.append_ne_nil_of_right_ne_nil _ ?_
            rw [ReadCache.slice_first _ (by omega), Ne, List.take_eq_nil_iff]
            rintro (none | none)
            · omega
            · rw [none, List.length_nil] at within_content
              omega
        | missing matched' =>
            rw [scanned] at read
            dsimp only at read
            rw [if_neg Bool.noConfusion] at read
            by_cases overflow : inputLimit < (buffer ++ socket.cache.content).length
            · rw [if_pos overflow] at read
              cases read
            · rw [if_neg overflow] at read
              cases refilled : refill socket with
              | ok _ next' =>
                  rw [refilled] at read
                  exact ih read
              | error exn next' =>
                  rw [refilled] at read
                  dsimp only at read
                  split_ifs at read with raised
                  cases read
                  exact (not_or.mp raised).1

/-- A line takes at least one octet. -/
theorem getLine_shorter {inputLimit : Positive} {line : Octets} {socket next : Buffered}
    (read : getLine inputLimit socket = .ok line next) :
    next.unread.length < socket.unread.length := by
  rw [getLine, readUntil] at read
  obtain ⟨data, next', ok_eq, took⟩ | ⟨exn, _, next', error_eq, _⟩ :=
    readUntilLoop_spec inputLimit.1 [lf] true [] 0 socket (Nat.lt_succ_self _) (by rintro ⟨⟩)
  · have data_ne := readUntilLoop_ne_nil ok_eq
    rw [ok_eq] at read
    cases read
    have positive := List.length_pos_iff.mpr data_ne
    rw [List.nil_append] at positive
    rw [took.unread_eq, List.length_append]
    omega
  · rw [error_eq] at read
    cases read

end Buffered
end Net
end AdaWebServer
