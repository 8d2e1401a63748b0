import AdaWebServer.Net.Lines

/-!
# How lines and data arrive

While data arrive, a read of exactly a number of octets takes them, and a line is taken unless too much
of it has been received before its end.  The limit for input is compared only when the cache is refilled,
so that a line may be longer by what the cache holds.
-/

namespace AdaWebServer
namespace Net
namespace Buffered

open Http2 (Octet Octets Exn Positive)

variable {socket next : Buffered} {bound : Nat} {data rest : Octets}

/-- No more than so many octets come into the cache at once. -/
def Bursts (bound : Nat) (socket : Buffered) : Prop :=
  bound = rCacheSize ∨ socket.PiecesWithin bound

theorem Bursts.cached (bursts : socket.Bursts bound) : socket.cache.content.length ≤ bound := by
  obtain rfl | pieces := bursts
  · have first_pos := socket.cache.first_pos
    have last_le := socket.cache.last_le
    rw [ReadCache.content_length]
    omega
  · exact pieces.1

theorem Took.bursts (taken : Took data socket next) (bursts : socket.Bursts bound) :
    next.Bursts bound :=
  bursts.imp_right (taken.pieces bound)

/-! ## Data -/

theorem Failed.unread_nil (failed : Failed socket next) (flowing : socket.Flows)
    (empty : socket.cache.IsEmpty) : socket.unread = [] := by
  rw [unread, failed.stuck flowing, (ReadCache.isEmpty_iff _).1 empty]
  rfl

private theorem readLoop_flows (flowing : socket.Flows) (taken : Octets) {times space : Nat}
    (enough : space < times) (some_space : 0 < space) (arrives : space ≤ socket.unread.length) :
    ∃ more next, readLoop times taken space socket = .ok (taken ++ more) next ∧
      Took more socket next ∧ more.length = space := by
  induction times generalizing socket taken space with
  | zero => exact absurd enough (Nat.not_lt_zero _)
  | succ times ih =>
      rw [readLoop]
      obtain ⟨more, next, read_eq, more_taken, more_le, more_ne⟩ | ⟨next, -, failed, empty⟩ :=
        read_spec space socket
      · rw [read_eq]
        dsimp only
        have positive := List.length_pos_iff.2 (more_ne some_space)
        have unread_length := congrArg List.length more_taken.unread_eq
        rw [List.length_append] at unread_length
        split_ifs with full
        · exact ⟨more, next, rfl, more_taken, full⟩
        · obtain ⟨further, last, loop_eq, further_taken, further_length⟩ :=
            @ih next (more_taken.flows flowing) (taken ++ more) (space - more.length) (by omega)
              (by omega) (by omega)
          refine ⟨more ++ further, last, ?_, more_taken.trans further_taken, ?_⟩
          · rw [loop_eq, List.append_assoc]
          · rw [List.length_append, further_length]
            omega
      · rw [failed.unread_nil flowing empty, List.length_nil] at arrives
        omega

/-- Data that arrive are read. -/
theorem readFull_flows (flowing : socket.Flows) (content : socket.unread = data ++ rest)
    (some_data : data ≠ []) :
    ∃ next, readFull data.length socket = .ok data next ∧ Took data socket next ∧ next.unread = rest := by
  have arrives : data.length ≤ socket.unread.length := by
    rw [content, List.length_append]
    exact Nat.le_add_right _ _
  obtain ⟨more, next, read_eq, taken, more_length⟩ := readLoop_flows flowing []
    (Nat.lt_succ_self data.length) (List.length_pos_iff.2 some_data) arrives
  obtain ⟨rfl, rest_eq⟩ := List.append_inj (content.symm.trans taken.unread_eq) more_length.symm
  exact ⟨next, read_eq, taken, rest_eq.symm⟩

theorem readFull_took {size : Nat} (done : readFull size socket = .ok data next) :
    Took data socket next ∧ data.length = size := by
  obtain ⟨more, last, read_eq, taken, more_length⟩ | ⟨lost, last, failed_eq, -⟩ :=
    readLoop_spec socket [] (Nat.lt_succ_self size)
  · cases done.symm.trans read_eq
    exact ⟨taken, more_length⟩
  · cases done.symm.trans failed_eq

/-- To read nothing, something has to be in the cache or to arrive. -/
theorem readFull_zero (flowing : socket.Flows) :
    socket.unread ≠ [] ∧ (∃ next, readFull 0 socket = .ok [] next ∧ Took [] socket next) ∨
      socket.unread = [] ∧ ∃ exn next, readFull 0 socket = .error exn next := by
  by_cases nothing : socket.unread = []
  · refine .inr ⟨nothing, ?_⟩
    obtain ⟨cached, -⟩ := List.append_eq_nil_iff.1 nothing
    have empty := (ReadCache.isEmpty_iff socket.cache).2 cached
    have not_direct : ¬(socket.cache.IsEmpty ∧ rCacheSize ≤ 0) := fun both => absurd both.2 (by decide)
    rw [readFull, readLoop, read, if_neg not_direct]
    obtain ⟨filled, -, taken, filled_some⟩ | ⟨next, failed_eq, -⟩ := fillCache_spec socket
    · have filled_nothing : filled.unread = [] := taken.unread_eq.symm.trans nothing
      have filled_empty := (List.append_eq_nil_iff.1 filled_nothing).1
      exact absurd ((ReadCache.isEmpty_iff _).2 filled_empty) filled_some
    · rw [failed_eq]
      exact ⟨_, _, rfl⟩
  · refine .inl ⟨nothing, ?_⟩
    rw [readFull, readLoop]
    obtain ⟨more, next, read_eq, taken, more_le, -⟩ | ⟨next, -, failed, empty⟩ := read_spec 0 socket
    · obtain rfl := List.length_eq_zero_iff.1 (Nat.le_zero.1 more_le)
      rw [read_eq]
      exact ⟨next, rfl, taken⟩
    · exact absurd (failed.unread_nil flowing empty) nothing

/-! ## Lines -/

/-- A line has been taken from the cache. -/
private theorem took_cached {line behind : Octets} (cached : socket.cache.content = line ++ behind)
    (content_eq : next.cache.content = behind) (arrivals_eq : next.arrivals = socket.arrivals) :
    Took line socket next where
  unread_eq := by
    rw [unread, unread, cached, content_eq, incoming, incoming, arrivals_eq, List.append_assoc]
  flows flowing := by rwa [Flows, arrivals_eq]
  pieces bound within := by
    refine ⟨?_, by rw [arrivals_eq]; exact within.2⟩
    have cached_le := within.1
    rw [cached, List.length_append] at cached_le
    rw [content_eq]
    omega

private theorem readUntilLoop_taken {inputLimit times : Nat} {buffer result : Octets}
    (flowing : socket.Flows) (bursts : socket.Bursts bound) (fits : buffer.length ≤ inputLimit)
    (done : readUntilLoop inputLimit [lf] true times buffer 0 socket = .ok result next) :
    (∃ line, lf ∉ line ∧ result = buffer ++ line ++ [lf] ∧ Took (line ++ [lf]) socket next ∧
      buffer.length + line.length < inputLimit + bound) ∨ next.unread = [] := by
  induction times generalizing socket buffer with
  | zero => cases done
  | succ times ih =>
      by_cases feed : lf ∈ socket.cache.content
      · obtain ⟨line, behind, cached, no_feed⟩ := List.eq_append_cons_of_mem feed
        obtain ⟨after, read_eq, content_eq, arrivals_eq, -⟩ :=
          @readUntilLoop_cached socket inputLimit times buffer line behind cached no_feed
        cases done.symm.trans read_eq
        have cached_le := bursts.cached
        rw [cached, List.length_append, List.length_cons] at cached_le
        refine .inl ⟨line, no_feed, rfl, ?_, by omega⟩
        refine took_cached ?_ content_eq arrivals_eq
        rw [cached, List.append_assoc]
        rfl
      · by_cases overflow : inputLimit < (buffer ++ socket.cache.content).length
        · rw [readUntilLoop_overflow feed overflow] at done
          cases done
        · obtain ⟨middle, refilled, taken, -⟩ | ⟨middle, failed_eq, failed⟩ := refill_spec socket
          · rw [readUntilLoop_further feed (not_lt.1 overflow) refilled] at done
            obtain ⟨line, no_feed, result_eq, line_taken, line_le⟩ | beyond :=
              ih (taken.flows flowing) (taken.bursts bursts) (not_lt.1 overflow) done
            · refine .inl ⟨socket.cache.content ++ line, ?_, ?_, ?_, ?_⟩
              · rw [List.mem_append, not_or]
                exact ⟨feed, no_feed⟩
              · rw [result_eq, ← List.append_assoc]
              · rw [List.append_assoc]
                exact taken.trans line_taken
              · rw [List.length_append] at line_le ⊢
                omega
            · exact .inr beyond
          · rw [readUntilLoop, if_neg (fun both => List.cons_ne_nil _ _ both.1),
              scan_without_line feed] at done
            dsimp only at done
            rw [if_neg (by decide), if_neg overflow, failed_eq] at done
            dsimp only at done
            split_ifs at done
            cases done
            refine .inr ?_
            have same := failed.unread_eq
            rw [unread, unread, failed.cache_eq, List.nil_append, failed.stuck flowing] at same
            exact (List.append_cancel_left same).symm

/-- A line that has been read has been taken with its line feed, unless nothing is left to arrive. -/
theorem getLine_taken {inputLimit : Positive} {result : Octets} (flowing : socket.Flows)
    (bursts : socket.Bursts bound) (done : getLine inputLimit socket = .ok result next) :
    (∃ line, lf ∉ line ∧ result = stripLine (line ++ [lf]) ∧ Took (line ++ [lf]) socket next ∧
      line.length < inputLimit + bound) ∨ next.unread = [] := by
  rw [getLine, readUntil] at done
  cases read_eq : readUntilLoop inputLimit [lf] true (socket.incoming.length + 1) [] 0 socket with
  | error exn last =>
      rw [read_eq] at done
      cases done
  | ok taken last =>
      rw [read_eq] at done
      cases done
      obtain ⟨line, no_feed, rfl, line_taken, line_le⟩ | beyond :=
        readUntilLoop_taken flowing bursts (Nat.zero_le _) read_eq
      · rw [List.length_nil, Nat.zero_add] at line_le
        exact .inl ⟨line, no_feed, rfl, line_taken, line_le⟩
      · exact .inr beyond

/-- A line within the limit is read, whichever way it arrives. -/
theorem getLine_within {inputLimit : Positive} {line : Octets} (flowing : socket.Flows)
    (content : socket.unread = line ++ lf :: rest) (no_feed : lf ∉ line)
    (fits : line.length ≤ inputLimit) :
    ∃ next, getLine inputLimit socket = .ok (stripLine (line ++ [lf])) next ∧
      Took (line ++ [lf]) socket next ∧ next.unread = rest := by
  have enough := Nat.lt_succ_self socket.incoming.length
  rw [getLine, readUntil]
  obtain ⟨next, read_eq, next_unread⟩ | ⟨exn, next, -, too_long⟩ :=
    @readUntilLoop_line _ inputLimit _ [] _ _ flowing content no_feed enough
  · obtain ⟨data, after, other_eq, taken⟩ | ⟨_, _, _, failed_eq, -⟩ :=
      readUntilLoop_spec inputLimit [lf] true [] 0 socket enough (by rintro ⟨⟩)
    · obtain ⟨octets_eq, rfl⟩ := EStateM.Result.ok.inj (read_eq.symm.trans other_eq)
      rw [List.nil_append, List.nil_append] at octets_eq
      rw [read_eq]
      exact ⟨next, rfl, octets_eq ▸ taken, next_unread⟩
    · cases read_eq.symm.trans failed_eq
  · exact absurd fits (not_le.2 too_long)

/-! ## Arrivals in pieces -/

/-- Octets that arrive one by one. -/
def singles (octets : Octets) : List Arrival :=
  octets.map fun octet => .data [octet] (Arrival.single_ne octet)

theorem flatMap_singles (octets : Octets) : (singles octets).flatMap Arrival.octets = octets := by
  rw [singles, List.flatMap_map]
  exact List.flatMap_singleton' octets

theorem singles_append (front back : Octets) : singles (front ++ back) = singles front ++ singles back :=
  List.map_append

theorem singles_some {octets : Octets} {arrival : Arrival} (among : arrival ∈ singles octets) :
    arrival.octets ≠ [] := by
  obtain ⟨octet, -, rfl⟩ := List.mem_map.1 among
  exact List.cons_ne_nil _ _

/-- The cache is empty and these pieces arrive. -/
structure Stands (arrivals : List Arrival) (socket : Buffered) : Prop where
  emptied : socket.cache.content = []
  arrivals_eq : socket.arrivals = arrivals
  pendings_nil : socket.pendings = []

variable {later : List Arrival}

/-- A piece that fits is received. -/
private theorem receive_piece {piece : Octets} {some_piece : piece ≠ []}
    (arrivals_eq : socket.arrivals = .data piece some_piece :: later) {size : Nat}
    (fits : piece.length ≤ size) :
    ∃ within, receive size socket = .ok ⟨piece, within⟩ { socket with arrivals := later } := by
  refine ⟨fits, ?_⟩
  rw [receive, arrivals_eq]
  dsimp only
  congr 1
  · exact Subtype.ext (List.take_of_length_le fits)
  · rw [Arrival.leave, List.drop_of_length_le fits, dif_neg (fun nonempty => nonempty rfl)]

/-- A piece replaces what was in the cache. -/
private theorem refill_piece {piece : Octets} {some_piece : piece ≠ []}
    (arrivals_eq : socket.arrivals = .data piece some_piece :: later)
    (fits : piece.length ≤ rCacheSize) :
    ∃ next, refill socket = .ok () next ∧ next.cache.content = piece ∧ next.arrivals = later ∧
      next.pendings = socket.pendings := by
  obtain ⟨within, received⟩ := receive_piece arrivals_eq fits
  rw [refill, received]
  exact ⟨_, rfl, ReadCache.content_fill .., rfl, rfl⟩

private theorem read_single {octet : Octet} {some_piece : [octet] ≠ []} {size : Nat}
    (some_space : 0 < size) (stands : Stands (.data [octet] some_piece :: later) socket) :
    ∃ next, read size socket = .ok [octet] next ∧ Stands later next := by
  obtain ⟨emptied, arrivals_eq, pendings_nil⟩ := stands
  have empty := (ReadCache.isEmpty_iff socket.cache).2 emptied
  rw [read]
  split_ifs with direct
  · obtain ⟨within, received⟩ := receive_piece arrivals_eq some_space
    rw [received]
    exact ⟨_, rfl, emptied, rfl, pendings_nil⟩
  · obtain ⟨filled, refilled, content_eq, later_eq, pendings_eq⟩ :=
      refill_piece arrivals_eq (by rw [List.length_singleton]; decide)
    have left : (filled.cache.afterRead size).content = [] := by
      rw [ReadCache.content_afterRead, content_eq]
      exact List.drop_of_length_le some_space
    rw [fillCache, if_pos empty, refilled]
    dsimp only [readBuffer]
    rw [ReadCache.slice_readLast, content_eq, List.take_of_length_le some_space, readMore]
    split_ifs with space
    · dsimp only
      rw [pendings_eq, pendings_nil]
      exact ⟨_, rfl, left, later_eq, rfl⟩
    · exact ⟨_, rfl, left, later_eq, pendings_eq.trans pendings_nil⟩

/-- Data that arrive octet by octet are read, and nothing else. -/
theorem readFull_singles (some_data : data ≠ []) (stands : Stands (singles data ++ later) socket) :
    ∃ next, readFull data.length socket = .ok data next ∧ Stands later next := by
  have reads : ∀ (data taken : Octets) (times : Nat) (socket : Buffered), data ≠ [] →
      data.length < times → Stands (singles data ++ later) socket →
      ∃ next, readLoop times taken data.length socket = .ok (taken ++ data) next ∧
        Stands later next := by
    intro data
    induction data with
    | nil => exact fun _ _ _ nothing => absurd rfl nothing
    | cons octet data ih =>
        intro taken times socket _ enough stands
        obtain ⟨times, rfl⟩ : ∃ fewer, times = fewer + 1 := ⟨times - 1, by omega⟩
        rw [List.length_cons] at enough ⊢
        obtain ⟨next, read_eq, next_stands⟩ := read_single (Nat.succ_pos data.length) stands
        rw [readLoop, read_eq]
        dsimp only
        by_cases last : data = []
        · subst last
          have whole : [octet].length = ([] : Octets).length + 1 := rfl
          rw [if_pos whole]
          exact ⟨next, rfl, next_stands⟩
        · have some_left := List.length_pos_iff.2 last
          rw [if_neg (by rw [List.length_singleton]; omega), List.length_singleton,
            Nat.add_sub_cancel]
          obtain ⟨final, loop_eq, final_stands⟩ :=
            ih (taken ++ [octet]) times next last (by omega) next_stands
          refine ⟨final, ?_, final_stands⟩
          rw [loop_eq, List.append_assoc]
          rfl
  exact reads data [] _ socket some_data (Nat.lt_succ_self _) stands

/-- A line is read that arrives octet by octet as far as the limit allows, and then as one piece. -/
theorem getLine_piece {inputLimit : Positive} {head tail : Octets} (no_feed : lf ∉ head ++ tail)
    (head_fits : head.length ≤ inputLimit) (tail_fits : tail.length < rCacheSize)
    {some_piece : tail ++ [lf] ≠ []}
    (stands : Stands (singles head ++ .data (tail ++ [lf]) some_piece :: later) socket) :
    ∃ next, getLine inputLimit socket = .ok (stripLine (head ++ tail ++ [lf])) next ∧
      Stands later next := by
  have reads : ∀ (head buffer : Octets) (times : Nat) (socket : Buffered), lf ∉ head ++ tail →
      lf ∉ socket.cache.content → head.length + 1 < times →
      (buffer ++ socket.cache.content ++ head).length ≤ inputLimit.1 →
      socket.arrivals = singles head ++ .data (tail ++ [lf]) some_piece :: later →
      socket.pendings = [] →
      ∃ next, readUntilLoop inputLimit [lf] true times buffer 0 socket =
        .ok (buffer ++ socket.cache.content ++ (head ++ tail) ++ [lf]) next ∧ Stands later next := by
    intro head
    induction head with
    | nil =>
        intro buffer times socket no_feed no_cached enough fits arrivals_eq pendings_nil
        obtain ⟨times, rfl⟩ : ∃ fewer, times = fewer + 1 + 1 := ⟨times - 2, by omega⟩
        rw [List.append_nil] at fits
        obtain ⟨filled, refilled, content_eq, later_eq, pendings_eq⟩ := refill_piece arrivals_eq
          (by rw [List.length_append, List.length_singleton]; omega)
        obtain ⟨next, read_eq, behind, arrivals_same, pendings_same⟩ := @readUntilLoop_cached filled
          inputLimit times (buffer ++ socket.cache.content) tail [] content_eq no_feed
        rw [readUntilLoop_further no_cached fits refilled]
        exact ⟨next, read_eq, behind, arrivals_same.trans later_eq,
          pendings_same.trans (pendings_eq.trans pendings_nil)⟩
    | cons octet head ih =>
        intro buffer times socket no_feed no_cached enough fits arrivals_eq pendings_nil
        obtain ⟨times, rfl⟩ : ∃ fewer, times = fewer + 1 := ⟨times - 1, by omega⟩
        rw [List.length_cons] at enough
        rw [List.cons_append, List.mem_cons, not_or] at no_feed
        have before_fits : (buffer ++ socket.cache.content).length ≤ inputLimit.1 := by
          rw [List.length_append] at fits
          omega
        obtain ⟨filled, refilled, content_eq, later_eq, pendings_eq⟩ := refill_piece arrivals_eq
          (by rw [List.length_singleton]; decide)
        have no_filled : lf ∉ filled.cache.content := by
          rw [content_eq, List.mem_singleton]
          exact no_feed.1
        obtain ⟨next, read_eq, next_stands⟩ := ih (buffer ++ socket.cache.content) times filled
          no_feed.2 no_filled (by omega) (by rwa [content_eq, List.append_assoc]) later_eq
          (pendings_eq.trans pendings_nil)
        rw [readUntilLoop_further no_cached before_fits refilled]
        refine ⟨next, ?_, next_stands⟩
        rw [read_eq, content_eq]
        simp only [List.append_assoc, List.cons_append, List.nil_append]
  obtain ⟨emptied, arrivals_eq, pendings_nil⟩ := stands
  have enough : head.length + 1 < socket.incoming.length + 1 := by
    rw [incoming, arrivals_eq, List.flatMap_append, flatMap_singles, List.flatMap_cons,
      List.length_append, List.length_append]
    show head.length + 1 < head.length + ((tail ++ [lf]).length + _) + 1
    rw [List.length_append, List.length_singleton]
    omega
  obtain ⟨next, read_eq, next_stands⟩ := reads head [] (socket.incoming.length + 1) socket no_feed
    (by rw [emptied]; exact List.not_mem_nil) enough
    (by rw [emptied, List.nil_append, List.nil_append]; exact head_fits) arrivals_eq pendings_nil
  rw [emptied, List.nil_append, List.nil_append] at read_eq
  rw [getLine, readUntil, read_eq]
  exact ⟨next, rfl, next_stands⟩

/-- A line can arrive in such a way that it is read, if it is not longer than the limit and what the
cache holds. -/
theorem exists_line_pieces {inputLimit : Positive} {line : Octets} (no_feed : lf ∉ line)
    (fits : line.length < inputLimit + rCacheSize) :
    ∃ arrivals : List Arrival, arrivals.flatMap Arrival.octets = line ++ [lf] ∧
      (∀ arrival ∈ arrivals, arrival.octets ≠ []) ∧
      ∀ {later : List Arrival} {socket : Buffered}, Stands (arrivals ++ later) socket →
        ∃ next, getLine inputLimit socket = .ok (stripLine (line ++ [lf])) next ∧ Stands later next := by
  obtain ⟨head, tail, rfl, head_fits, tail_fits⟩ : ∃ head tail : Octets, line = head ++ tail ∧
      head.length ≤ inputLimit ∧ tail.length < rCacheSize := by
    refine ⟨line.take (line.length + 1 - rCacheSize), line.drop (line.length + 1 - rCacheSize),
      (List.take_append_drop _ _).symm, ?_, ?_⟩
    · rw [List.length_take]
      omega
    · rw [List.length_drop]
      have some_room : 0 < rCacheSize := by decide
      omega
  have some_piece : tail ++ [lf] ≠ [] := List.append_ne_nil_of_right_ne_nil _ (List.cons_ne_nil _ _)
  refine ⟨singles head ++ [.data (tail ++ [lf]) some_piece], ?_, ?_, ?_⟩
  · rw [List.flatMap_append, flatMap_singles, List.flatMap_singleton, List.append_assoc]
    rfl
  · intro arrival among
    obtain single | last := List.mem_append.1 among
    · exact singles_some single
    · rw [List.mem_singleton.1 last]
      exact some_piece
  · intro later socket stands
    rw [List.append_assoc, List.singleton_append] at stands
    exact getLine_piece no_feed head_fits tail_fits stands

end Buffered
end Net
end AdaWebServer
