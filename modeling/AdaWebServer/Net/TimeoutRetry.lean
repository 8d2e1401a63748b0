import AdaWebServer.Net.Delimiters

/-!
# Time-outs of a read

When `Receive` times out, `Read_Until` raises and leaves in the cache what it received last.  What it
had received before that is in its local buffer, and lost.
-/

namespace AdaWebServer
namespace Net

open Http2 (Octet Octets Exn)

namespace Arrival

/-- The data that arrive before the first failure. -/
def arrived : List Arrival → List Octets
  | [] => []
  | .failure _ :: _ => []
  | .data octets _ :: later => octets :: arrived later

/-- What arrives after the first failure. -/
def afterFailure : List Arrival → List Arrival
  | [] => []
  | .failure _ :: later => later
  | .data _ _ :: later => afterFailure later

/-- The arrivals without the first failure. -/
def withoutFailure : List Arrival → List Arrival
  | [] => []
  | .failure _ :: later => later
  | .data octets octets_ne :: later => .data octets octets_ne :: withoutFailure later

/-- Whether the first failure is a timeout; another answer is given when there is none. -/
def timesOut (otherwise : Bool) : List Arrival → Bool
  | [] => otherwise
  | .failure timeout :: _ => timeout
  | .data _ _ :: later => timesOut otherwise later

variable {leftover : Octets} {arrivals later : List Arrival}

theorem flatMap_octets (arrivals : List Arrival) :
    arrivals.flatMap octets = (arrived arrivals).flatten ++ (afterFailure arrivals).flatMap octets := by
  induction arrivals with
  | nil => rfl
  | cons arrival later ih =>
      cases arrival with
      | failure timeout => rfl
      | data octets octets_ne =>
          rw [List.flatMap_cons, ih, arrived, List.flatten_cons, List.append_assoc]
          rfl

theorem withoutFailure_eq (nothing : arrived arrivals = []) :
    withoutFailure arrivals = afterFailure arrivals := by
  cases arrivals with
  | nil => rfl
  | cons arrival later =>
      cases arrival with
      | failure timeout => rfl
      | data octets octets_ne => cases nothing

theorem arrived_nil (nothing : (arrived arrivals).flatten = []) : arrived arrivals = [] := by
  cases arrivals with
  | nil => rfl
  | cons arrival later =>
      cases arrival with
      | failure timeout => rfl
      | data octets octets_ne =>
          rw [arrived, List.flatten_cons, List.append_eq_nil_iff] at nothing
          exact absurd nothing.1 octets_ne

/-- The arrivals that are left behave as those behind the part that was received. -/
theorem leave_flatten (leftover : Octets) (later : List Arrival) :
    (arrived (leave leftover later)).flatten = leftover ++ (arrived later).flatten ∧
      afterFailure (leave leftover later) = afterFailure later ∧
      ∀ otherwise, timesOut otherwise (leave leftover later) = timesOut otherwise later := by
  rw [leave]
  split_ifs with leftover_ne
  · exact ⟨rfl, rfl, fun _ => rfl⟩
  · rw [not_ne_iff.1 leftover_ne]
    exact ⟨rfl, rfl, fun _ => rfl⟩

end Arrival

namespace Buffered

/-- The octets that are received before the first failure. -/
def received (self : Buffered) : Octets := (Arrival.arrived self.arrivals).flatten

/-- The socket, had the first failure not happened. -/
def resumed (self : Buffered) : Buffered :=
  { self with arrivals := Arrival.withoutFailure self.arrivals }

/-- The socket after its first failure, its cache being as it was before. -/
def failedOnce (self : Buffered) : Buffered :=
  { self with arrivals := Arrival.afterFailure self.arrivals }

/-- The first failure is a timeout. -/
def failureTimesOut (self : Buffered) : Bool := Arrival.timesOut self.timesOut self.arrivals

/-- Everything that is read before the first failure is in the cache at once: it is cached already
and nothing more is received, or nothing is cached and it is received in one piece. -/
def OneLoad (self : Buffered) : Prop :=
  Arrival.arrived self.arrivals = [] ∨
    self.cache.content = [] ∧ ∃ octets, Arrival.arrived self.arrivals = [octets] ∧
      octets.length ≤ rCacheSize

/-- The socket times out before the delimiter has arrived and the limit has been reached. -/
structure TimesOut (inputLimit : Nat) (delimiter : Octets) (socket : Buffered) : Prop where
  missing : ∃ matched, scan delimiter 0 (socket.cache.content ++ socket.received) = .missing matched
  fits : (socket.cache.content ++ socket.received).length ≤ inputLimit
  timeout : socket.failureTimesOut = true

variable {socket next : Buffered} {delimiter buffer : Octets}
  {inputLimit times matched further : Nat}

theorem unread_eq_received (socket : Buffered) :
    socket.unread = socket.cache.content ++ socket.received ++ socket.failedOnce.incoming := by
  rw [unread, incoming, Arrival.flatMap_octets, ← List.append_assoc]
  rfl

/-! ## Refilling the cache -/

/-- One load is received, or the first failure is met. -/
theorem refill_cases (socket : Buffered) :
    (∃ next, refill socket = .ok () next ∧
      socket.received = next.cache.content ++ next.received ∧ next.cache.content ≠ [] ∧
      next.failedOnce.arrivals = socket.failedOnce.arrivals ∧
      next.failureTimesOut = socket.failureTimesOut ∧
      next.incoming.length < socket.incoming.length) ∨
    refill socket = .error .socketError socket.failedOnce ∧ socket.received = [] ∧
      Arrival.arrived socket.arrivals = [] ∧ socket.isTimeout = socket.failureTimesOut := by
  obtain ⟨cache, arrivals, pendings, timesOut⟩ := socket
  cases arrivals with
  | nil => exact .inr ⟨rfl, rfl, rfl, rfl⟩
  | cons arrival later =>
      cases arrival with
      | failure timeout => exact .inr ⟨rfl, rfl, rfl, rfl⟩
      | data octets octets_ne =>
          obtain ⟨flatten_eq, after_eq, timesOut_eq⟩ :=
            Arrival.leave_flatten (octets.drop rCacheSize) later
          have some_taken : octets.take rCacheSize ≠ [] := by
            rw [Ne, List.take_eq_nil_iff]
            exact fun nothing => nothing.elim (by decide) octets_ne
          have positive := List.length_pos_iff.mpr some_taken
          refine .inl ⟨_, rfl, ?_, ?_, after_eq, timesOut_eq _, ?_⟩
          · simp only [received, ReadCache.content_fill, Arrival.arrived, List.flatten_cons,
              flatten_eq]
            rw [← List.append_assoc, List.take_append_drop]
          · rw [ReadCache.content_fill]
            exact some_taken
          · simp only [incoming, Arrival.flatMap_leave, List.flatMap_cons, List.length_append,
              List.length_drop]
            rw [List.length_take] at positive
            show octets.length - rCacheSize + _ < octets.length + _
            omega

theorem oneLoad_of_refill (emptied : socket.cache.content = [])
    (refilled : refill socket = .ok () next) (nothing : next.received = []) : OneLoad socket := by
  obtain ⟨cache, arrivals, pendings, timesOut⟩ := socket
  cases arrivals with
  | nil => cases refilled
  | cons arrival later =>
      cases arrival with
      | failure timeout => cases refilled
      | data octets octets_ne =>
          cases refilled
          rw [received, (Arrival.leave_flatten _ _).1, List.append_eq_nil_iff] at nothing
          refine .inr ⟨emptied, octets, ?_, List.drop_eq_nil_iff.mp nothing.1⟩
          rw [Arrival.arrived, Arrival.arrived_nil nothing.2]

/-- The loop does the same however many turns more it is allowed. -/
theorem readUntilLoop_enough {times more : Nat} (enough : socket.incoming.length < times)
    (enough_more : socket.incoming.length < more) :
    readUntilLoop inputLimit delimiter true times buffer matched socket =
      readUntilLoop inputLimit delimiter true more buffer matched socket := by
  induction times generalizing more buffer matched socket with
  | zero => exact absurd enough (Nat.not_lt_zero _)
  | succ times ih =>
      obtain ⟨more, rfl⟩ := Nat.exists_eq_succ_of_ne_zero (Nat.ne_of_gt (Nat.zero_lt_of_lt enough_more))
      rw [readUntilLoop, readUntilLoop]
      obtain ⟨next, refilled, -, -, -, -, shorter⟩ | ⟨failed, -⟩ := refill_cases socket
      · have same : ∀ buffer matched,
            readUntilLoop inputLimit delimiter true times buffer matched next =
              readUntilLoop inputLimit delimiter true more buffer matched next :=
          fun buffer matched => ih (by omega) (by omega)
        simp only [refilled, same]
      · simp only [failed]

/-! ## What a time-out loses -/

/-- What is in the cache when the loop raises, and under which condition it does. -/
theorem readUntilLoop_raised (nonempty : delimiter ≠ [])
    (raised : readUntilLoop inputLimit delimiter true times buffer matched socket =
      .error .socketError next) :
    next.arrivals = socket.failedOnce.arrivals ∧
      (∃ further, scan delimiter matched (socket.cache.content ++ socket.received) =
        .missing further) ∧
      (buffer ++ socket.cache.content ++ socket.received).length ≤ inputLimit ∧
      (socket.failureTimesOut = true ∨ buffer ++ socket.cache.content ++ socket.received = []) ∧
      (socket.received = [] → next = socket.failedOnce) ∧
      (socket.received ≠ [] → next.cache.content <:+ socket.received) := by
  induction times generalizing socket buffer matched with
  | zero => cases raised
  | succ times ih =>
      cases scanned : scan delimiter matched socket.cache.content with
      | found taken =>
          obtain ⟨after, done, -⟩ := @readUntilLoop_in_cache socket delimiter buffer inputLimit
            times matched taken nonempty scanned
          cases done.symm.trans raised
      | missing further =>
          by_cases overflow : inputLimit < (buffer ++ socket.cache.content).length
          · cases (readUntilLoop_exceeded nonempty scanned overflow).symm.trans raised
          have fits := not_lt.mp overflow
          obtain ⟨filled, refilled, received_eq, some_load, after_eq, timeout_eq, -⟩ |
              ⟨failed, received_nil, -, timeout_eq⟩ := refill_cases socket
          · rw [readUntilLoop_refilled nonempty scanned fits refilled] at raised
            obtain ⟨arrivals_eq, ⟨last, missing⟩, short, timeout, settled, behind⟩ := ih raised
            refine ⟨arrivals_eq.trans after_eq, ⟨last, ?_⟩, ?_, ?_, fun nothing => ?_, fun _ => ?_⟩
            · rw [scan_append, scanned, received_eq]
              exact Scan.after_eq_missing.mpr missing
            · rw [received_eq, ← List.append_assoc]
              exact short
            · rw [received_eq, ← List.append_assoc, ← timeout_eq]
              exact timeout
            · rw [received_eq] at nothing
              exact absurd (List.append_eq_nil_iff.mp nothing).1 some_load
            · rw [received_eq]
              by_cases nothing : filled.received = []
              · rw [settled nothing, nothing, List.append_nil]
                exact List.suffix_rfl
              · exact (behind nothing).trans (List.suffix_append _ _)
          · rw [readUntilLoop_failed nonempty scanned fits failed] at raised
            split at raised
            · next stopped =>
                cases raised
                rw [received_nil, List.append_nil, List.append_nil, ← timeout_eq]
                exact ⟨rfl, ⟨further, scanned⟩, fits, stopped.symm, fun _ => rfl,
                  fun something => absurd rfl something⟩
            · cases raised

/-- The loop raises when the socket times out before the delimiter has arrived. -/
theorem readUntilLoop_times_out (nonempty : delimiter ≠ [])
    (missing : scan delimiter matched (socket.cache.content ++ socket.received) =
      .missing further)
    (fits : (buffer ++ socket.cache.content ++ socket.received).length ≤ inputLimit)
    (timeout : socket.failureTimesOut = true) (enough : socket.incoming.length < times) :
    ∃ next, readUntilLoop inputLimit delimiter true times buffer matched socket =
      .error .socketError next := by
  induction times generalizing socket buffer matched with
  | zero => exact absurd enough (Nat.not_lt_zero _)
  | succ times ih =>
      rw [scan_append] at missing
      have fits_now : (buffer ++ socket.cache.content).length ≤ inputLimit := by
        rw [List.length_append] at fits
        omega
      cases scanned : scan delimiter matched socket.cache.content with
      | found taken =>
          rw [scanned] at missing
          cases missing
      | missing middle =>
          rw [scanned] at missing
          have later := Scan.after_eq_missing.mp missing
          obtain ⟨filled, refilled, received_eq, -, -, timeout_eq, shorter⟩ |
              ⟨failed, -, -, timeout_eq⟩ := refill_cases socket
          · rw [readUntilLoop_refilled nonempty scanned fits_now refilled]
            refine ih (received_eq ▸ later) ?_ (timeout_eq.trans timeout) (by omega)
            rw [List.append_assoc, ← received_eq]
            exact fits
          · rw [readUntilLoop_failed nonempty scanned fits_now failed,
              if_pos (.inr (timeout_eq.trans timeout))]
            exact ⟨_, rfl⟩

theorem readUntil_nil_raised
    (raised : readUntil inputLimit [] true socket = .error .socketError next) :
    Arrival.arrived socket.arrivals = [] ∧ next = socket.failedOnce := by
  rw [readUntil, readUntilLoop] at raised
  by_cases empty : socket.cache.IsEmpty
  · rw [if_neg (fun both => both.2 empty), (ReadCache.isEmpty_iff _).mp empty] at raised
    simp only [scan, Bool.true_eq_false, if_false, List.append_nil, List.length_nil,
      Nat.not_lt_zero] at raised
    obtain ⟨filled, refilled, -, some_load, -, -, shorter⟩ | ⟨failed, -, nothing, -⟩ :=
      refill_cases socket
    · obtain ⟨times, times_eq⟩ := Nat.exists_eq_succ_of_ne_zero (Nat.ne_of_gt
        (Nat.zero_lt_of_lt shorter))
      have filled_some : ¬ filled.cache.IsEmpty := by rwa [ReadCache.isEmpty_iff]
      simp only [refilled, times_eq, readUntilLoop, filled_some, not_false_eq_true, and_self,
        if_true] at raised
      cases raised
    · simp only [failed, true_or, if_true] at raised
      cases raised
      exact ⟨nothing, rfl⟩
  · rw [if_pos ⟨rfl, empty⟩] at raised
    cases raised

/-- After a time-out all octets that were received can still be read, and reading again yields what
it had yielded without the failure. -/
def LosesNothing (inputLimit : Nat) (delimiter : Octets) (socket : Buffered) : Prop :=
  ∀ next, readUntil inputLimit delimiter true socket = .error .socketError next →
    next.unread = socket.unread ∧
      readUntil inputLimit delimiter true next = readUntil inputLimit delimiter true socket.resumed

theorem retry_failedOnce (nothing : Arrival.arrived socket.arrivals = []) :
    socket.failedOnce.unread = socket.unread ∧ socket.failedOnce = socket.resumed := by
  constructor
  · rw [unread_eq_received socket, received, nothing]
    simp [unread, failedOnce]
  · rw [failedOnce, resumed, Arrival.withoutFailure_eq nothing]

/-- One piece that is received is left in the cache. -/
theorem retry_one_piece (nonempty : delimiter ≠ []) (emptied : socket.cache.content = [])
    {octets : Octets} (single : Arrival.arrived socket.arrivals = [octets])
    (fits : octets.length ≤ rCacheSize)
    (raised : readUntil inputLimit delimiter true socket = .error .socketError next) :
    next.unread = socket.unread ∧
      readUntil inputLimit delimiter true next =
        readUntil inputLimit delimiter true socket.resumed := by
  obtain ⟨cache, arrivals, pendings, timesOut⟩ := socket
  cases arrivals with
  | nil => cases single
  | cons arrival later =>
      cases arrival with
      | failure timeout => cases single
      | data piece piece_ne =>
          obtain ⟨rfl, nothing⟩ := List.cons.inj single
          have whole : piece.take rCacheSize = piece := List.take_of_length_le fits
          have leftover : piece.drop rCacheSize = [] := List.drop_eq_nil_of_le fits
          -- the socket once the piece is in its cache, before further arrivals
          let cached (further : List Arrival) : Buffered :=
            { cache := cache.fill (piece.take rCacheSize) (List.length_take_le _ _)
              arrivals := further, pendings, timesOut }
          have refilled : ∀ further, refill
              { cache, arrivals := .data piece piece_ne :: further, pendings, timesOut } =
                .ok () (cached further) := by
            intro further
            simp only [refill, receive, Arrival.leave, leftover, ne_eq, not_true_eq_false,
              dite_false, cached]
          have first_turn : ∀ further, readUntil inputLimit delimiter true
              { cache, arrivals := .data piece piece_ne :: further, pendings, timesOut } =
                readUntil inputLimit delimiter true (cached further) := by
            intro further
            have scanned : scan delimiter 0 cache.content = .missing 0 := by
              rw [show cache.content = [] from emptied]
              rfl
            rw [readUntil, readUntilLoop_refilled nonempty scanned
              (by rw [show cache.content = [] from emptied]; exact Nat.zero_le _)
              (refilled further), show cache.content = [] from emptied, readUntil]
            apply readUntilLoop_enough
            · have positive := List.length_pos_iff.mpr piece_ne
              simp only [incoming, List.flatMap_cons, Arrival.octets, List.length_append, cached]
              omega
            · exact Nat.lt_succ_self _
          rw [first_turn] at raised
          have settled : Arrival.arrived (cached later).arrivals = [] := nothing
          have none_received : (cached later).received = [] := by rw [received, settled]; rfl
          obtain ⟨-, -, -, -, next_eq, -⟩ := readUntilLoop_raised nonempty raised
          obtain ⟨same_unread, same⟩ := retry_failedOnce settled
          rw [next_eq none_received, same_unread, same]
          constructor
          · rw [unread, ReadCache.content_fill, whole, unread,
              show cache.content = [] from emptied]
            rfl
          · exact (first_turn (Arrival.withoutFailure later)).symm

theorem losesNothing_of_oneLoad (one : OneLoad socket) :
    LosesNothing inputLimit delimiter socket := by
  intro next raised
  by_cases nonempty : delimiter = []
  · subst nonempty
    obtain ⟨nothing, rfl⟩ := readUntil_nil_raised raised
    obtain ⟨same_unread, same⟩ := retry_failedOnce nothing
    exact ⟨same_unread, by rw [same]⟩
  · obtain nothing | ⟨emptied, octets, single, fits⟩ := one
    · obtain ⟨-, -, -, -, next_eq, -⟩ := readUntilLoop_raised nonempty raised
      obtain ⟨same_unread, same⟩ := retry_failedOnce nothing
      rw [next_eq (by rw [received, nothing]; rfl)]
      exact ⟨same_unread, by rw [same]⟩
    · exact retry_one_piece nonempty emptied single fits raised

/-- What the loop had in its buffer when a refill of the cache met the time-out is lost. -/
theorem raised_loses (nonempty : delimiter ≠ [])
    (raised : readUntilLoop inputLimit delimiter true times buffer matched socket =
      .error .socketError next)
    (some_cached : socket.cache.content ≠ []) (some_received : socket.received ≠ []) :
    next.unread ≠ socket.unread := by
  obtain ⟨arrivals_eq, -, -, -, -, behind⟩ := readUntilLoop_raised nonempty raised
  intro same
  have lengths := congrArg List.length same
  rw [unread_eq_received socket, unread, incoming, arrivals_eq, List.length_append,
    List.length_append, List.length_append] at lengths
  have cached_le := (behind some_received).length_le
  have positive := List.length_pos_iff.mpr some_cached
  simp only [incoming] at lengths
  omega

theorem not_losesNothing (timed_out : TimesOut inputLimit delimiter socket)
    (several : ¬ OneLoad socket) : ¬ LosesNothing inputLimit delimiter socket := by
  intro lossless
  obtain ⟨⟨matched, missing⟩, fits, timeout⟩ := timed_out
  have some_arrived : Arrival.arrived socket.arrivals ≠ [] := fun nothing => several (.inl nothing)
  obtain ⟨filled, refilled, received_eq, some_load, after_eq, timeout_eq, shorter⟩ |
      ⟨-, -, nothing, -⟩ := refill_cases socket
  swap
  · exact some_arrived nothing
  have some_received : socket.received ≠ [] := by
    rw [received_eq]
    exact List.append_ne_nil_of_left_ne_nil some_load _
  have nonempty : delimiter ≠ [] := by
    rintro rfl
    obtain ⟨octet, octets, content_eq⟩ := List.exists_cons_of_ne_nil
      (List.append_ne_nil_of_right_ne_nil socket.cache.content some_received)
    rw [content_eq] at missing
    cases missing
  obtain ⟨next, raised⟩ := @readUntilLoop_times_out socket delimiter [] inputLimit
    (socket.incoming.length + 1) 0 matched nonempty missing (by rw [List.nil_append]; exact fits)
    timeout (Nat.lt_succ_self _)
  have same_unread := (lossless next raised).1
  by_cases emptied : socket.cache.content = []
  · -- the first load fills the empty cache, and more is received behind it
    have scanned : scan delimiter 0 socket.cache.content = .missing 0 := by rw [emptied]; rfl
    rw [readUntilLoop_refilled nonempty scanned (by rw [emptied]; exact Nat.zero_le _) refilled]
      at raised
    have unread_filled : filled.unread = socket.unread := by
      rw [unread_eq_received filled, unread_eq_received socket, emptied, received_eq, incoming,
        incoming, after_eq, List.nil_append]
    refine raised_loses nonempty raised some_load ?_ (same_unread.trans unread_filled.symm)
    exact fun nothing_more => several (oneLoad_of_refill emptied refilled nothing_more)
  · exact raised_loses nonempty raised emptied some_received same_unread

/-- `Read_Until` loses nothing when the socket times out exactly when it has not refilled the cache
over octets of it. -/
theorem losesNothing_iff (inputLimit : Nat) (delimiter : Octets) (socket : Buffered) :
    LosesNothing inputLimit delimiter socket ↔
      OneLoad socket ∨ ¬ TimesOut inputLimit delimiter socket := by
  constructor
  · intro lossless
    by_contra neither
    rw [not_or, not_not] at neither
    exact not_losesNothing neither.2 neither.1 lossless
  · rintro (one | in_time) next raised
    · exact losesNothing_of_oneLoad one next raised
    · refine losesNothing_of_oneLoad ?_ next raised
      by_cases nonempty : delimiter = []
      · subst nonempty
        exact .inl (readUntil_nil_raised raised).1
      · obtain ⟨-, missing, fits, timeout | nothing, -, -⟩ := readUntilLoop_raised nonempty raised
        · exact absurd ⟨missing, fits, timeout⟩ in_time
        · exact .inl (Arrival.arrived_nil (List.append_eq_nil_iff.mp nothing).2)

/-- A line that arrives in one piece and is interrupted. -/
theorem losesNothing_one_piece :
    LosesNothing 1024 [lf] { arrivals := [.data [72, 105] (by decide), .failure true] } :=
  (losesNothing_iff _ _ _).mpr (.inl (.inr ⟨rfl, [72, 105], rfl, by decide⟩))

/-- The first of two pieces is lost when the socket times out behind the second one. -/
theorem first_piece_lost : ¬ LosesNothing 1024 [lf]
    { arrivals := [.data [72] (by decide), .data [105] (by decide), .failure true,
        .data [lf] (by decide)] } := by
  refine not_losesNothing ⟨⟨0, rfl⟩, by decide, rfl⟩ ?_
  rintro (nothing | ⟨-, octets, single, -⟩)
  · cases nothing
  · cases single

end Buffered
end Net
end AdaWebServer
