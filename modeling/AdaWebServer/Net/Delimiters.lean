import AdaWebServer.Foundations.NaiveMatch
import AdaWebServer.Net.Arrivals

/-!
# Delimiters

`Read_Until` looks for its delimiter octet by octet and, at an octet that does not continue the
match, starts again at this octet.  It stops at the first delimiter of every stream exactly when the
delimiter goes on behind the borders of its prefixes as behind the prefixes.
-/

namespace AdaWebServer
namespace Net

open Http2 (Octet Octets Exn)
open NaiveMatch (Restartable EndsFirst Longest missedFront)

theorem matchNext_eq (delimiter : Octets) (matched : Nat) (octet : Octet) :
    matchNext delimiter matched octet = NaiveMatch.step delimiter matched octet := rfl

/-- So many more octets have been passed. -/
def Scan.after (count : Nat) : Scan → Scan
  | found taken => .found (taken + count)
  | missing matched => .missing matched

@[simp]
theorem Scan.after_eq_missing {result : Scan} {count matched : Nat} :
    result.after count = .missing matched ↔ result = .missing matched := by
  cases result <;> simp [after]

section Scans

variable {delimiter seen octets front rest : Octets} {matched taken further : Nat}

theorem scan_append (delimiter : Octets) (matched : Nat) (front rest : Octets) :
    scan delimiter matched (front ++ rest) =
      match scan delimiter matched front with
      | .found taken => .found taken
      | .missing further => (scan delimiter further rest).after front.length := by
  induction front generalizing matched with
  | nil =>
      show scan delimiter matched rest = (scan delimiter matched rest).after 0
      cases scan delimiter matched rest <;> rfl
  | cons octet front ih =>
      rw [List.cons_append, scan, scan, ih]
      split_ifs
      · rfl
      · cases scan delimiter (matchNext delimiter matched octet) front with
        | found taken => rfl
        | missing further =>
            simp only [Scan.further]
            cases scan delimiter further rest <;> rfl

/-- What is found is the delimiter. -/
theorem scan_sound (below : matched < delimiter.length)
    (suffix : delimiter.take matched <:+ seen)
    (found : scan delimiter matched octets = .found taken) :
    delimiter <:+ seen ++ octets.take taken := by
  induction octets generalizing matched seen taken with
  | nil => cases found
  | cons octet octets ih =>
      obtain ⟨step_le, step_suffix⟩ := NaiveMatch.step_sound below suffix octet
      rw [scan, matchNext_eq] at found
      split_ifs at found with complete
      · cases found
        rw [complete, List.take_length] at step_suffix
        exact step_suffix
      · cases scanned : scan delimiter (NaiveMatch.step delimiter matched octet) octets with
        | found earlier =>
            rw [scanned, Scan.further, Scan.found.injEq] at found
            subst found
            have sound := ih (lt_of_le_of_ne step_le complete) step_suffix scanned
            rwa [List.append_assoc] at sound
        | missing further =>
            rw [scanned] at found
            cases found

/-- A restartable delimiter that ends in the octets is found. -/
theorem scan_complete (restartable : Restartable delimiter)
    (longest : Longest delimiter matched seen) {count : Nat} (within : count ≤ octets.length)
    (some_octets : 0 < count) (ends : delimiter <:+ seen ++ octets.take count) :
    ∃ taken ≤ count, scan delimiter matched octets = .found taken := by
  induction octets generalizing matched seen count with
  | nil => exact absurd some_octets (by simpa using within)
  | cons octet octets ih =>
      obtain ⟨count, rfl⟩ := Nat.exists_eq_succ_of_ne_zero some_octets.ne'
      rw [scan, matchNext_eq]
      rcases longest.step_cases restartable octet with
        ⟨complete, -⟩ | ⟨incomplete, missed, longest⟩
      · rw [if_pos complete]
        exact ⟨1, by omega, rfl⟩
      · rw [if_neg incomplete]
        have later : 0 < count := by
          rcases Nat.eq_zero_or_pos count with rfl | positive
          · exact absurd (by simpa using ends) missed
          · exact positive
        obtain ⟨taken, taken_le, found⟩ := ih longest
          (Nat.le_of_succ_le_succ within) later (by simpa [List.append_assoc] using ends)
        exact ⟨taken + 1, by omega, by rw [found]; rfl⟩

/-- A restartable delimiter is found where it ends first. -/
theorem scan_endsFirst (restartable : Restartable delimiter) (nonempty : delimiter ≠ [])
    (ends : EndsFirst delimiter front) :
    scan delimiter 0 (front ++ rest) = .found front.length := by
  have some_front : 0 < front.length :=
    (List.length_pos_iff.mpr nonempty).trans_le ends.suffix.length_le
  obtain ⟨taken, taken_le, found⟩ := scan_complete restartable (NaiveMatch.longest_nil nonempty)
    le_rfl some_front (by simpa using ends.suffix)
  have nothing : delimiter.take 0 <:+ [] := List.nil_suffix
  have sound := scan_sound (List.length_pos_iff.mpr nonempty) nothing found
  have whole : taken = front.length := by
    refine taken_le.antisymm (not_lt.mp fun earlier => ?_)
    exact ends.first taken earlier sound
  rw [scan_append, found, whole]

/-- The octets before the end of the first delimiter do not contain it. -/
theorem scan_before_end (nonempty : delimiter ≠ []) (ends : EndsFirst delimiter front)
    {count : Nat} (before : count < front.length) :
    ∃ further, scan delimiter 0 (front.take count) = .missing further := by
  cases scanned : scan delimiter 0 (front.take count) with
  | missing further => exact ⟨further, rfl⟩
  | found taken =>
      obtain ⟨-, taken_le⟩ := Buffered.scan_found scanned
      rw [List.length_take, Nat.min_eq_left before.le] at taken_le
      have nothing : delimiter.take 0 <:+ [] := List.nil_suffix
      have sound := scan_sound (List.length_pos_iff.mpr nonempty) nothing scanned
      rw [List.nil_append, List.take_take, Nat.min_eq_left taken_le] at sound
      exact absurd sound (ends.first taken (taken_le.trans_lt before))

/-- Octets of the delimiter continue a match. -/
theorem scan_take (within : matched + octets.length < delimiter.length)
    (same : delimiter.drop matched = octets ++ rest) :
    scan delimiter matched octets = .missing (matched + octets.length) := by
  induction octets generalizing matched with
  | nil => rfl
  | cons octet octets ih =>
      rw [List.length_cons] at within
      have item : delimiter[matched]? = some octet := by
        have head := congrArg List.head? same
        rwa [List.head?_drop] at head
      have behind : delimiter.drop (matched + 1) = octets ++ rest := by
        rw [← List.drop_drop, same]
        rfl
      rw [scan, matchNext, if_pos item, if_neg (by omega), ih (by omega) behind, Scan.further,
        List.length_cons]
      congr 1
      omega

theorem scan_short (short : matched + octets.length < delimiter.length) :
    ∃ further, scan delimiter matched octets = .missing further := by
  induction octets generalizing matched with
  | nil => exact ⟨matched, rfl⟩
  | cons octet octets ih =>
      rw [List.length_cons] at short
      have next_le : matchNext delimiter matched octet ≤ matched + 1 := by
        unfold matchNext
        split_ifs <;> omega
      obtain ⟨further, missing⟩ : ∃ further,
          scan delimiter (matchNext delimiter matched octet) octets = .missing further :=
        ih (by omega)
      rw [scan, if_neg (by omega), missing]
      exact ⟨further, rfl⟩

/-- A delimiter behind a longer match of it is missed. -/
theorem scan_missedFront {border : Nat} (within : matched < delimiter.length)
    (shorter : border < matched) (some_border : 1 ≤ border)
    (different : delimiter[border]? ≠ delimiter[matched]?) :
    ∃ further, scan delimiter 0 (missedFront delimiter matched border) = .missing further := by
  have border_lt : border < delimiter.length := shorter.trans within
  have matches_front : scan delimiter 0 (delimiter.take matched) = .missing matched := by
    have taken := @scan_take delimiter (delimiter.take matched) (delimiter.drop matched) 0
      (by rw [List.length_take]; omega) (by rw [List.drop_zero, List.take_append_drop])
    rwa [List.length_take, Nat.min_eq_left within.le, Nat.zero_add] at taken
  rw [missedFront, scan_append, matches_front]
  simp only
  rw [List.drop_eq_getElem_cons border_lt, scan]
  have mismatch : delimiter[matched]? ≠ some delimiter[border] := by
    rw [← List.getElem?_eq_getElem border_lt]
    exact different.symm
  have restarted : matchNext delimiter matched delimiter[border] ≤ 1 := by
    rw [matchNext, if_neg mismatch]
    split_ifs <;> omega
  have short : matchNext delimiter matched delimiter[border] +
      (delimiter.drop (border + 1)).length < delimiter.length := by
    rw [List.length_drop]
    omega
  obtain ⟨further, missing⟩ := scan_short short
  have incomplete : matchNext delimiter matched delimiter[border] ≠ delimiter.length := by omega
  rw [if_neg incomplete, missing]
  exact ⟨further, rfl⟩

end Scans

namespace Buffered

section Loop

variable {socket next : Buffered} {delimiter buffer : Octets}
  {inputLimit times matched further taken : Nat}

/-! ## One turn of the loop -/

/-- A delimiter that ends in the cache is taken from there. -/
theorem readUntilLoop_in_cache (nonempty : delimiter ≠ [])
    (scanned : scan delimiter matched socket.cache.content = .found taken) :
    ∃ next, readUntilLoop inputLimit delimiter true (times + 1) buffer matched socket =
        .ok (buffer ++ socket.cache.content.take taken) next ∧
      next.cache.content = socket.cache.content.drop taken ∧
      next.arrivals = socket.arrivals := by
  obtain ⟨positive, taken_le⟩ := scan_found scanned
  rw [ReadCache.content_length] at taken_le
  have within : socket.cache.first + taken ≤ socket.cache.last + 1 := by omega
  have slice_eq : socket.cache.slice socket.cache.first (socket.cache.first + taken - 1) =
      socket.cache.content.take taken := by
    rw [ReadCache.slice_first _ (by omega)]
    congr 1
    omega
  refine ⟨{ socket with cache := socket.cache.advance taken within }, ?_, ?_, rfl⟩
  · rw [readUntilLoop, if_neg (fun both => nonempty both.1), scanned]
    dsimp only
    rw [dif_pos within, slice_eq]
  · exact ReadCache.content_advance _ _ _

/-- The cache is passed, and more than the limit has been. -/
theorem readUntilLoop_exceeded (nonempty : delimiter ≠ [])
    (scanned : scan delimiter matched socket.cache.content = .missing further)
    (overflow : inputLimit < (buffer ++ socket.cache.content).length) :
    readUntilLoop inputLimit delimiter true (times + 1) buffer matched socket =
      .error (.refused "S400" s!"Size {(buffer ++ socket.cache.content).length}") socket := by
  rw [readUntilLoop, if_neg (fun both => nonempty both.1), scanned]
  dsimp only
  rw [if_neg (by decide), if_pos overflow]

/-- The cache is passed and refilled. -/
theorem readUntilLoop_refilled (nonempty : delimiter ≠ [])
    (scanned : scan delimiter matched socket.cache.content = .missing further)
    (fits : (buffer ++ socket.cache.content).length ≤ inputLimit)
    (refilled : refill socket = .ok () next) :
    readUntilLoop inputLimit delimiter true (times + 1) buffer matched socket =
      readUntilLoop inputLimit delimiter true times (buffer ++ socket.cache.content) further
        next := by
  rw [readUntilLoop, if_neg (fun both => nonempty both.1), scanned]
  dsimp only
  rw [if_neg (by decide), if_neg (not_lt.2 fits), refilled]

/-- The cache is passed, and nothing more is received. -/
theorem readUntilLoop_failed (nonempty : delimiter ≠ []) {exn : Exn}
    (scanned : scan delimiter matched socket.cache.content = .missing further)
    (fits : (buffer ++ socket.cache.content).length ≤ inputLimit)
    (failed : refill socket = .error exn next) :
    readUntilLoop inputLimit delimiter true (times + 1) buffer matched socket =
      if buffer ++ socket.cache.content = [] ∨ socket.isTimeout = true then
        .error exn next
      else
        .ok (buffer ++ socket.cache.content) { next with cache := next.cache.clear } := by
  rw [readUntilLoop, if_neg (fun both => nonempty both.1), scanned]
  dsimp only
  rw [if_neg (by decide), if_neg (not_lt.2 fits), failed]

/-! ## The loop -/

/-- A delimiter that is found within the limit is returned with what precedes it, whichever way the
octets arrive. -/
theorem readUntilLoop_found (nonempty : delimiter ≠ []) (flowing : socket.Flows)
    (found : scan delimiter matched socket.unread = .found taken)
    (fits : buffer.length + taken ≤ inputLimit + 1) (enough : socket.incoming.length < times) :
    ∃ next, readUntilLoop inputLimit delimiter true times buffer matched socket =
        .ok (buffer ++ socket.unread.take taken) next ∧
      next.unread = socket.unread.drop taken := by
  induction times generalizing socket buffer matched taken with
  | zero => exact absurd enough (Nat.not_lt_zero _)
  | succ times ih =>
      rw [unread, scan_append] at found
      cases scanned : scan delimiter matched socket.cache.content with
      | found earlier =>
          rw [scanned] at found
          obtain rfl : earlier = taken := Scan.found.inj found
          obtain ⟨-, taken_le⟩ := scan_found scanned
          obtain ⟨next, done, content_eq, arrivals_eq⟩ :=
            @readUntilLoop_in_cache socket delimiter buffer inputLimit times matched earlier
              nonempty scanned
          refine ⟨next, ?_, ?_⟩
          · rw [done, unread, List.take_append_of_le_length taken_le]
          · rw [unread, incoming, content_eq, arrivals_eq, unread,
              List.drop_append_of_le_length taken_le]
            rfl
      | missing further =>
          rw [scanned] at found
          simp only at found
          cases later : scan delimiter further socket.incoming with
          | missing last =>
              rw [later] at found
              cases found
          | found more =>
              rw [later, Scan.after, Scan.found.injEq] at found
              obtain ⟨some_more, -⟩ := scan_found later
              have something : socket.incoming ≠ [] := by
                intro nothing
                rw [nothing] at later
                cases later
              have fits_now : (buffer ++ socket.cache.content).length ≤ inputLimit := by
                rw [List.length_append]
                omega
              obtain ⟨next, refilled, taken_out, shorter⟩ := refill_flows flowing something
              have next_unread : next.unread = socket.incoming :=
                (List.append_cancel_left taken_out.unread_eq).symm
              obtain ⟨last, done, last_unread⟩ := ih (taken_out.flows flowing)
                (next_unread ▸ later)
                (by rw [List.length_append]; omega :
                  (buffer ++ socket.cache.content).length + more ≤ inputLimit + 1) (by omega)
              refine ⟨last, ?_, ?_⟩
              · rw [readUntilLoop_refilled nonempty scanned fits_now refilled, done,
                  next_unread, unread, ← found, Nat.add_comm more, List.take_length_add_append,
                  List.append_assoc]
              · rw [last_unread, next_unread, unread, ← found, Nat.add_comm more,
                  List.drop_length_add_append]

theorem timesOut_refill (refilled : refill socket = .ok () next) :
    next.timesOut = socket.timesOut := by
  rw [refill, receive] at refilled
  split at refilled
  · next receives =>
      split at receives <;> cases receives
      cases refilled
      rfl
  · cases refilled

theorem arrivals_nil (flowing : socket.Flows) (nothing : socket.incoming = []) :
    socket.arrivals = [] := by
  cases arrivals_eq : socket.arrivals with
  | nil => rfl
  | cons arrival later =>
      have among : arrival ∈ socket.arrivals := arrivals_eq ▸ List.mem_cons_self
      refine absurd ?_ (flowing arrival among)
      exact List.flatMap_eq_nil_iff.mp nothing arrival among

/-- A delimiter that is not found is waited for until the socket times out. -/
theorem readUntilLoop_missing (nonempty : delimiter ≠ []) (flowing : socket.Flows)
    (times_out : socket.timesOut = true)
    (missing : scan delimiter matched socket.unread = .missing further) :
    ∃ exn next, readUntilLoop inputLimit delimiter true times buffer matched socket =
      .error exn next := by
  induction times generalizing socket buffer matched with
  | zero => exact ⟨_, _, rfl⟩
  | succ times ih =>
      rw [unread, scan_append] at missing
      cases scanned : scan delimiter matched socket.cache.content with
      | found earlier =>
          rw [scanned] at missing
          cases missing
      | missing middle =>
          rw [scanned] at missing
          have later := Scan.after_eq_missing.mp missing
          by_cases overflow : inputLimit < (buffer ++ socket.cache.content).length
          · exact ⟨_, _, readUntilLoop_exceeded nonempty scanned overflow⟩
          obtain ⟨next, refilled, taken_out, -, -⟩ | ⟨next, failed_eq, failed⟩ :=
            refill_spec socket
          · have next_unread : next.unread = socket.incoming :=
              (List.append_cancel_left taken_out.unread_eq).symm
            rw [readUntilLoop_refilled nonempty scanned (not_lt.mp overflow) refilled]
            exact ih (taken_out.flows flowing) ((timesOut_refill refilled).trans times_out)
              (next_unread ▸ later)
          · have stopped : socket.isTimeout = true := by
              rw [isTimeout, arrivals_nil flowing (failed.stuck flowing)]
              exact times_out
            rw [readUntilLoop_failed nonempty scanned (not_lt.mp overflow) failed_eq,
              if_pos (.inr stopped)]
            exact ⟨_, _, rfl⟩

/-- Octets without the delimiter that exceed the limit are refused when they arrive one by one. -/
theorem readUntilLoop_too_long (nonempty : delimiter ≠ []) (flowing : socket.Flows)
    (pieces : socket.PiecesWithin 1) {count : Nat} (within : count ≤ socket.unread.length)
    (missing : scan delimiter matched (socket.unread.take count) = .missing further)
    (fits : buffer.length ≤ inputLimit) (too_long : inputLimit < buffer.length + count) :
    ∃ exn next, readUntilLoop inputLimit delimiter true times buffer matched socket =
      .error exn next := by
  induction times generalizing socket buffer matched count with
  | zero => exact ⟨_, _, rfl⟩
  | succ times ih =>
      have cached_le := pieces.1
      have split : socket.unread.take count = socket.cache.content ++
          socket.incoming.take (count - socket.cache.content.length) := by
        rw [unread, List.take_append, List.take_of_length_le (by omega)]
      rw [split, scan_append] at missing
      cases scanned : scan delimiter matched socket.cache.content with
      | found earlier =>
          rw [scanned] at missing
          cases missing
      | missing middle =>
          rw [scanned] at missing
          have later := Scan.after_eq_missing.mp missing
          by_cases overflow : inputLimit < (buffer ++ socket.cache.content).length
          · exact ⟨_, _, readUntilLoop_exceeded nonempty scanned overflow⟩
          rw [unread, List.length_append] at within
          rw [List.length_append] at overflow
          have something : socket.incoming ≠ [] := by
            intro nothing
            rw [nothing, List.length_nil] at within
            omega
          obtain ⟨next, refilled, taken_out, -⟩ := refill_flows flowing something
          have next_unread : next.unread = socket.incoming :=
            (List.append_cancel_left taken_out.unread_eq).symm
          rw [readUntilLoop_refilled nonempty scanned
            (by rw [List.length_append]; omega) refilled]
          exact ih (taken_out.flows flowing) (taken_out.pieces 1 pieces)
            (by rw [next_unread]; omega) (next_unread ▸ later)
            (by rw [List.length_append]; omega) (by rw [List.length_append]; omega)

end Loop

/-- Whichever way the octets arrive, `Read_Until` returns the front of them, and what follows remains
to be read. -/
def ReturnsFront (inputLimit : Nat) (delimiter front rest : Octets) : Prop :=
  ∀ socket : Buffered, socket.Flows → socket.unread = front ++ rest →
    ∃ next, readUntil inputLimit delimiter true socket = .ok front next ∧ next.unread = rest

/-- `Read_Until` refuses a front that exceeds the limit when it arrives octet by octet. -/
theorem not_returnsFront_of_gt {inputLimit : Nat} {delimiter front rest : Octets}
    (nonempty : delimiter ≠ []) (ends : EndsFirst delimiter front)
    (too_long : inputLimit + 1 < front.length) :
    ¬ ReturnsFront inputLimit delimiter front rest := by
  intro returns
  let socket : Buffered := { arrivals := singles (front ++ rest) }
  have flowing : socket.Flows := fun _ among => singles_some among
  have unread_eq : socket.unread = front ++ rest := flatMap_singles _
  obtain ⟨next, done, -⟩ := returns socket flowing unread_eq
  obtain ⟨further, missing⟩ := scan_before_end nonempty ends
    (show front.length - 1 < front.length by omega)
  have pieces : socket.PiecesWithin 1 := by
    refine ⟨Nat.zero_le _, fun arrival among => ?_⟩
    obtain ⟨octet, -, rfl⟩ := List.mem_map.1 among
    exact le_rfl
  have front_taken : socket.unread.take (front.length - 1) = front.take (front.length - 1) := by
    rw [unread_eq, List.take_append_of_le_length (by omega)]
  obtain ⟨exn, after, refused⟩ :
      ∃ exn after, readUntilLoop inputLimit delimiter true (socket.incoming.length + 1) [] 0
        socket = .error exn after :=
    readUntilLoop_too_long nonempty flowing pieces
      (by rw [unread_eq, List.length_append]; omega) (front_taken ▸ missing) (Nat.zero_le _)
      (by rw [List.length_nil]; omega)
  rw [readUntil, refused] at done
  cases done

/-- `Read_Until` waits for a delimiter that it has missed. -/
theorem not_returnsFront_of_missing {inputLimit further : Nat} {delimiter front rest : Octets}
    (nonempty : delimiter ≠ []) (missing : scan delimiter 0 (front ++ rest) = .missing further) :
    ¬ ReturnsFront inputLimit delimiter front rest := by
  intro returns
  let socket : Buffered := { arrivals := singles (front ++ rest) }
  have flowing : socket.Flows := fun _ among => singles_some among
  have unread_eq : socket.unread = front ++ rest := flatMap_singles _
  obtain ⟨next, done, -⟩ := returns socket flowing unread_eq
  obtain ⟨exn, after, waited⟩ :
      ∃ exn after, readUntilLoop inputLimit delimiter true (socket.incoming.length + 1) [] 0
        socket = .error exn after :=
    readUntilLoop_missing nonempty flowing rfl (unread_eq ▸ missing)
  rw [readUntil, waited] at done
  cases done

/-- `Read_Until` stops at the first delimiter of every stream within the limit exactly when the
delimiter is restartable. -/
theorem returnsFront_iff_restartable {delimiter : Octets} (nonempty : delimiter ≠ []) :
    (∀ inputLimit front rest, EndsFirst delimiter front →
      (ReturnsFront inputLimit delimiter front rest ↔ front.length ≤ inputLimit + 1)) ↔
        Restartable delimiter := by
  constructor
  · intro returns
    by_contra missed
    obtain ⟨matched, border, within, shorter, some_border, suffix, different, longest⟩ :=
      NaiveMatch.exists_border missed
    have ends := NaiveMatch.endsFirst_missedFront within shorter suffix different longest
    obtain ⟨further, missing⟩ := scan_missedFront within shorter some_border different
    have returned := (returns (missedFront delimiter matched border).length _ [] ends).mpr
      (Nat.le_succ _)
    exact not_returnsFront_of_missing nonempty (by rw [List.append_nil]; exact missing) returned
  · intro restartable inputLimit front rest ends
    constructor
    · intro returned
      exact not_lt.mp fun too_long => not_returnsFront_of_gt nonempty ends too_long returned
    · intro fits socket flowing unread_eq
      have found : scan delimiter 0 socket.unread = .found front.length :=
        unread_eq ▸ scan_endsFirst restartable nonempty ends
      obtain ⟨next, done, next_unread⟩ := @readUntilLoop_found socket delimiter []
        inputLimit (socket.incoming.length + 1) 0 front.length nonempty flowing found
        (by rw [List.length_nil, Nat.zero_add]; exact fits) (Nat.lt_succ_self _)
      refine ⟨next, ?_, ?_⟩
      · rw [readUntil, done, unread_eq, List.take_left]
        rfl
      · rw [next_unread, unread_eq, List.drop_left]

/-- The empty line behind a header. -/
theorem returnsFront_empty_line :
    ReturnsFront 1023 (crlf ++ crlf) (72 :: crlf ++ crlf) [66] :=
  ((returnsFront_iff_restartable (by decide)).mpr (by decide) 1023 _ _
    ⟨⟨[72], rfl⟩, by decide⟩).mpr (by decide)

/-- In `---x` the delimiter `--x` is missed. -/
theorem missed_behind_dash : EndsFirst [45, 45, 120] [45, 45, 45, 120] ∧
    ¬ ReturnsFront 1024 [45, 45, 120] [45, 45, 45, 120] [] :=
  ⟨⟨⟨[45], rfl⟩, by decide⟩,
    not_returnsFront_of_missing (by decide) (show scan _ 0 _ = .missing 0 from rfl)⟩

end Buffered
end Net
end AdaWebServer
