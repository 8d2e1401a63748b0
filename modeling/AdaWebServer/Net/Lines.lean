import AdaWebServer.Net.Buffered

/-!
# Lines of a buffered socket

A line ends with a line feed and is read without its end, whichever way it arrives, as long as it is
not longer than the limit for input.
-/

namespace AdaWebServer
namespace Net

open Http2 (Octet Octets Exn Positive)

/-- The line feed. -/
def lf : Octet := 10

/-- The carriage return. -/
def cr : Octet := 13

/-- The end of a line. -/
def crlf : Octets := [cr, lf]

/-- The line without its end. -/
def stripLine (line : Octets) : Octets :=
  if line.getLast? = some lf then
    if line.dropLast.getLast? = some cr then line.dropLast.dropLast else line.dropLast
  else line

theorem stripLine_crlf (line : Octets) : stripLine (line ++ crlf) = line := by
  simp [stripLine, crlf, List.getLast?_append]

theorem scan_line {line behind : Octets} (no_feed : lf ∉ line) :
    scan [lf] 0 (line ++ lf :: behind) = .found (line.length + 1) := by
  induction line with
  | nil => rfl
  | cons octet line ih =>
      rw [List.mem_cons, not_or] at no_feed
      have unmatched : matchNext [lf] 0 octet = 0 := by simp [matchNext, no_feed.1]
      rw [List.cons_append, scan, unmatched, ih no_feed.2]
      rfl

theorem scan_without_line {octets : Octets} (no_feed : lf ∉ octets) :
    scan [lf] 0 octets = .missing 0 := by
  induction octets with
  | nil => rfl
  | cons octet octets ih =>
      rw [List.mem_cons, not_or] at no_feed
      have unmatched : matchNext [lf] 0 octet = 0 := by simp [matchNext, no_feed.1]
      rw [scan, unmatched, ih no_feed.2]
      rfl

namespace Buffered

/-- `Get_Line`. -/
def getLine (inputLimit : Positive) : Buffering Octets := fun self =>
  match readUntil inputLimit [lf] true self with
  | .ok line next => .ok (stripLine line) next
  | .error exn next => .error exn next

/-- The first index of the string that `Get_Line` returns.  What stands in the cache is returned with its
bounds there, as nothing stands in front of it; what goes on behind the cache begins at 1. -/
def lineFirst (self : Buffered) : Nat :=
  match scan [lf] 0 self.cache.content with
  | .found _ => self.cache.first
  | .missing _ => 1

theorem lineFirst_pos (self : Buffered) : 0 < self.lineFirst := by
  rw [lineFirst]
  split
  · exact self.cache.first_pos
  · exact Nat.one_pos

variable {socket : Buffered}

/-- The line feed is in the cache, or the line goes on after it. -/
theorem line_cases {line rest : Octets} (content : socket.unread = line ++ lf :: rest)
    (no_feed : lf ∉ line) :
    (∃ behind, socket.cache.content = line ++ lf :: behind ∧ behind ++ socket.incoming = rest) ∨
    (∃ further, lf ∉ socket.cache.content ∧ line = socket.cache.content ++ further ∧
      socket.incoming = further ++ lf :: rest) := by
  obtain ⟨further, line_eq, incoming_eq⟩ | ⟨behind, cache_eq, rest_eq⟩ :=
    List.append_eq_append_iff.1 content
  · refine .inr ⟨further, fun feed => no_feed ?_, line_eq, incoming_eq⟩
    rw [line_eq]
    exact List.mem_append_left _ feed
  · cases behind with
    | nil =>
        rw [List.append_nil] at cache_eq
        rw [List.nil_append] at rest_eq
        exact .inr ⟨[], cache_eq ▸ no_feed, by rw [cache_eq, List.append_nil], rest_eq.symm⟩
    | cons octet behind =>
        rw [List.cons_append] at rest_eq
        obtain ⟨rfl, tail_eq⟩ := List.cons.inj rest_eq
        exact .inl ⟨behind, cache_eq, tail_eq.symm⟩

section Loop

variable {inputLimit times : Nat} {buffer line rest : Octets}

/-- A line in the cache is taken from there. -/
theorem readUntilLoop_cached {behind : Octets}
    (cached : socket.cache.content = line ++ lf :: behind) (no_feed : lf ∉ line) :
    ∃ next, readUntilLoop inputLimit [lf] true (times + 1) buffer 0 socket =
        .ok (buffer ++ line ++ [lf]) next ∧ next.cache.content = behind ∧
        next.arrivals = socket.arrivals ∧ next.pendings = socket.pendings := by
  have cached_length := socket.cache.content_length
  rw [cached, List.length_append, List.length_cons] at cached_length
  have within : socket.cache.first + (line.length + 1) ≤ socket.cache.last + 1 := by omega
  have slice_eq : socket.cache.slice socket.cache.first
      (socket.cache.first + (line.length + 1) - 1) = line ++ [lf] := by
    have stop_eq : socket.cache.first + (line.length + 1) - 1 + 1 - socket.cache.first =
        line.length + 1 := by omega
    rw [ReadCache.slice_first _ (by omega), cached, stop_eq, List.take_length_add_append]
    rfl
  refine ⟨{ socket with cache := socket.cache.advance (line.length + 1) within }, ?_, ?_, rfl, rfl⟩
  · rw [readUntilLoop, if_neg (fun both => List.cons_ne_nil _ _ both.1), cached, scan_line no_feed]
    dsimp only
    rw [dif_pos within, slice_eq, List.append_assoc]
  · rw [ReadCache.content_advance, cached, List.drop_length_add_append]
    rfl

/-- The line feed is looked for in what is received next. -/
theorem readUntilLoop_further {next : Buffered} (no_feed : lf ∉ socket.cache.content)
    (fits : (buffer ++ socket.cache.content).length ≤ inputLimit)
    (refilled : refill socket = .ok () next) :
    readUntilLoop inputLimit [lf] true (times + 1) buffer 0 socket =
      readUntilLoop inputLimit [lf] true times (buffer ++ socket.cache.content) 0 next := by
  rw [readUntilLoop, if_neg (fun both => List.cons_ne_nil _ _ both.1), scan_without_line no_feed]
  dsimp only
  rw [if_neg (by decide), if_neg (not_lt.2 fits), refilled]

/-- Too much has been taken without a line feed. -/
theorem readUntilLoop_overflow (no_feed : lf ∉ socket.cache.content)
    (overflow : inputLimit < (buffer ++ socket.cache.content).length) :
    readUntilLoop inputLimit [lf] true (times + 1) buffer 0 socket =
      .error (.refused "S400" s!"Size {(buffer ++ socket.cache.content).length}") socket := by
  rw [readUntilLoop, if_neg (fun both => List.cons_ne_nil _ _ both.1), scan_without_line no_feed]
  dsimp only
  rw [if_neg (by decide), if_pos overflow]

/-- More is received while data arrive. -/
theorem refill_flows (flowing : socket.Flows) (something : socket.incoming ≠ []) :
    ∃ next, refill socket = .ok () next ∧ Took socket.cache.content socket next ∧
      next.incoming.length < socket.incoming.length := by
  obtain ⟨next, refilled, taken, _, shorter⟩ | ⟨next, _, failed⟩ := refill_spec socket
  · exact ⟨next, refilled, taken, shorter⟩
  · exact absurd (failed.stuck flowing) something

/-- A line is taken up to its line feed, or it is too long. -/
theorem readUntilLoop_line (flowing : socket.Flows) (content : socket.unread = line ++ lf :: rest)
    (no_feed : lf ∉ line) (enough : socket.incoming.length < times) :
    (∃ next, readUntilLoop inputLimit [lf] true times buffer 0 socket =
      .ok (buffer ++ line ++ [lf]) next ∧ next.unread = rest) ∨
    ∃ exn next, readUntilLoop inputLimit [lf] true times buffer 0 socket = .error exn next ∧
      inputLimit < (buffer ++ line).length := by
  induction times generalizing socket buffer line with
  | zero => exact absurd enough (Nat.not_lt_zero _)
  | succ times ih =>
      obtain ⟨behind, cache_eq, rest_eq⟩ | ⟨further, no_cached_feed, line_eq, incoming_eq⟩ :=
        line_cases content no_feed
      · obtain ⟨next, read_eq, content_eq, arrivals_eq, -⟩ := readUntilLoop_cached cache_eq no_feed
        refine .inl ⟨next, read_eq, ?_⟩
        rw [unread, content_eq, incoming, arrivals_eq]
        exact rest_eq
      · have something : socket.incoming ≠ [] := by
          rw [incoming_eq]
          exact List.append_ne_nil_of_right_ne_nil _ (List.cons_ne_nil _ _)
        obtain ⟨next, refilled, taken, shorter⟩ := refill_flows flowing something
        have next_unread : next.unread = further ++ lf :: rest :=
          (List.append_cancel_left taken.unread_eq).symm.trans incoming_eq
        have no_further_feed : lf ∉ further := fun feed =>
          no_feed (line_eq ▸ List.mem_append_right _ feed)
        by_cases overflow : inputLimit < (buffer ++ socket.cache.content).length
        · rw [readUntilLoop_overflow no_cached_feed overflow]
          refine .inr ⟨_, _, rfl, ?_⟩
          rw [line_eq, ← List.append_assoc, List.length_append]
          omega
        · rw [readUntilLoop_further no_cached_feed (not_lt.1 overflow) refilled, line_eq,
            ← List.append_assoc]
          exact ih (taken.flows flowing) next_unread no_further_feed (by omega)

/-- A line that is too long is refused when it arrives octet by octet. -/
theorem readUntilLoop_refused (flowing : socket.Flows) (pieces : socket.PiecesWithin 1)
    (content : socket.unread = line ++ lf :: rest) (no_feed : lf ∉ line)
    (started : 0 < line.length) (too_long : inputLimit < (buffer ++ line).length)
    (fits : buffer.length ≤ inputLimit) :
    ∃ exn next, readUntilLoop inputLimit [lf] true times buffer 0 socket = .error exn next := by
  induction times generalizing socket buffer line with
  | zero => exact ⟨_, _, rfl⟩
  | succ times ih =>
      obtain ⟨behind, cache_eq, _⟩ | ⟨further, no_cached_feed, line_eq, incoming_eq⟩ :=
        line_cases content no_feed
      · exfalso
        have cached_le := pieces.1
        rw [cache_eq, List.length_append, List.length_cons] at cached_le
        omega
      · by_cases overflow : inputLimit < (buffer ++ socket.cache.content).length
        · rw [readUntilLoop_overflow no_cached_feed overflow]
          exact ⟨_, _, rfl⟩
        · have something : socket.incoming ≠ [] := by
            rw [incoming_eq]
            exact List.append_ne_nil_of_right_ne_nil _ (List.cons_ne_nil _ _)
          obtain ⟨next, refilled, taken, _⟩ := refill_flows flowing something
          have next_unread : next.unread = further ++ lf :: rest :=
            (List.append_cancel_left taken.unread_eq).symm.trans incoming_eq
          rw [line_eq, ← List.append_assoc] at too_long
          rw [not_lt] at overflow
          rw [readUntilLoop_further no_cached_feed overflow refilled]
          refine ih (taken.flows flowing) (taken.pieces 1 pieces) next_unread
            (fun feed => no_feed (line_eq ▸ List.mem_append_right _ feed)) ?_ too_long overflow
          rw [List.length_append] at too_long
          omega

end Loop

variable {inputLimit : Positive} {line rest : Octets}

/-- A line is read and what follows it is left, or it is too long. -/
theorem getLine_spec (flowing : socket.Flows) (content : socket.unread = line ++ crlf ++ rest)
    (no_feed : lf ∉ line) :
    (∃ next, getLine inputLimit socket = .ok line next ∧ Took (line ++ crlf) socket next ∧
      next.unread = rest) ∨
    ∃ exn next, getLine inputLimit socket = .error exn next ∧ inputLimit ≤ line.length := by
  have content_eq : socket.unread = (line ++ [cr]) ++ lf :: rest := by
    rw [content]
    simp [crlf]
  have no_feed_cr : lf ∉ line ++ [cr] := by simpa [lf, cr] using no_feed
  have enough := Nat.lt_succ_self socket.incoming.length
  rw [getLine, readUntil]
  obtain ⟨next, read_eq, next_unread⟩ | ⟨exn, next, failed_eq, too_long⟩ :=
    readUntilLoop_line flowing content_eq no_feed_cr enough
  · obtain ⟨data, after, other_eq, taken⟩ | ⟨_, _, _, failed_eq, _⟩ :=
      readUntilLoop_spec inputLimit [lf] true [] 0 socket enough nofun
    · obtain ⟨octets_eq, rfl⟩ := EStateM.Result.ok.inj (read_eq.symm.trans other_eq)
      have line_eq : [] ++ (line ++ [cr]) ++ [lf] = line ++ crlf := by simp [crlf]
      rw [line_eq] at read_eq octets_eq
      rw [read_eq]
      dsimp only
      rw [stripLine_crlf]
      rw [List.nil_append] at octets_eq
      exact .inl ⟨next, rfl, octets_eq ▸ taken, next_unread⟩
    · cases read_eq.symm.trans failed_eq
  · rw [failed_eq]
    refine .inr ⟨exn, next, rfl, ?_⟩
    simpa [Nat.lt_succ_iff] using too_long

/-- A line that is too long is refused when it arrives octet by octet. -/
theorem getLine_refused (flowing : socket.Flows) (pieces : socket.PiecesWithin 1)
    (content : socket.unread = line ++ crlf ++ rest) (no_feed : lf ∉ line)
    (too_long : inputLimit.1 ≤ line.length) :
    ∃ exn next, getLine inputLimit socket = .error exn next := by
  have content_eq : socket.unread = (line ++ [cr]) ++ lf :: rest := by
    rw [content]
    simp [crlf]
  have no_feed_cr : lf ∉ line ++ [cr] := by simpa [lf, cr] using no_feed
  have too_long_cr : inputLimit.1 < ([] ++ (line ++ [cr])).length := by
    simpa using Nat.lt_succ_of_le too_long
  obtain ⟨exn, next, failed_eq⟩ :
      ∃ exn next, readUntilLoop inputLimit [lf] true (socket.incoming.length + 1) [] 0 socket =
        .error exn next :=
    readUntilLoop_refused flowing pieces content_eq no_feed_cr (by simp) too_long_cr (Nat.zero_le _)
  refine ⟨exn, next, ?_⟩
  rw [getLine, readUntil, failed_eq]

end Buffered
end Net
end AdaWebServer
