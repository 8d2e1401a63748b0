import AdaWebServer.Net.ReadCache

/-!
# Buffered sockets

A socket receives octets in arrivals, and one call of `Receive` returns a part of one arrival or fails.
What has been received and not read yet is kept in the read cache of the socket.
-/

namespace AdaWebServer
namespace Net

open Http2 (Octet Octets Exn)

/-- What a call of `Receive` meets: some octets, or a failure, which may be a timeout. -/
inductive Arrival where
  | data (octets : Octets) (octets_ne : octets ≠ [])
  | failure (timeout : Bool)

namespace Arrival

theorem single_ne (octet : Octet) : [octet] ≠ [] := List.cons_ne_nil _ _

/-- The octets that arrive. -/
def octets : Arrival → Octets
  | data octets _ => octets
  | failure _ => []

/-- The arrivals that are left after a part of the first one has been received. -/
def leave (leftover : Octets) (later : List Arrival) : List Arrival :=
  if leftover_ne : leftover ≠ [] then .data leftover leftover_ne :: later else later

theorem flatMap_leave (leftover : Octets) (later : List Arrival) :
    (leave leftover later).flatMap octets = leftover ++ later.flatMap octets := by
  rw [leave]
  split_ifs with leftover_ne
  · rfl
  · rw [not_ne_iff.1 leftover_ne, List.nil_append]

end Arrival

/-- A socket with its read cache.  The answers of `Pending` are given, and once nothing more arrives
`Receive` fails, with a timeout or because the peer has closed the connection. -/
structure Buffered where
  cache : ReadCache := .create
  arrivals : List Arrival
  pendings : List Bool := []
  timesOut : Bool := true

/-- An operation on a buffered socket. -/
abbrev Buffering (α : Type) := Buffered → EStateM.Result Exn Buffered α

/-- How far a delimiter has been found. -/
inductive Scan where
  /-- The delimiter ends after so many octets. -/
  | found (taken : Nat)
  /-- The delimiter has not been found, and so many of its octets match. -/
  | missing (matched : Nat)

/-- One more octet has been passed. -/
def Scan.further : Scan → Scan
  | found taken => .found (taken + 1)
  | missing matched => .missing matched

/-- How many octets of the delimiter match after one more octet. -/
def matchNext (delimiter : Octets) (matched : Nat) (octet : Octet) : Nat :=
  if delimiter[matched]? = some octet then matched + 1
  else if matched = 0 then 0
  else if delimiter[0]? = some octet then 1
  else 0

/-- The delimiter is looked for, from a number of its octets that match already. -/
def scan (delimiter : Octets) : Nat → Octets → Scan
  | matched, [] => .missing matched
  | matched, octet :: rest =>
      if matchNext delimiter matched octet = delimiter.length then .found 1
      else (scan delimiter (matchNext delimiter matched octet) rest).further

namespace Buffered

/-- What will arrive. -/
def incoming (self : Buffered) : Octets := self.arrivals.flatMap Arrival.octets

/-- What has not been read. -/
def unread (self : Buffered) : Octets := self.cache.content ++ self.incoming

/-- The next call of `Receive` times out. -/
def isTimeout (self : Buffered) : Bool :=
  match self.arrivals with
  | [] => self.timesOut
  | .failure timeout :: _ => timeout
  | .data _ _ :: _ => false

/-- `Receive` into a buffer of the given size. -/
def receive (size : Nat) : Buffering { data : Octets // data.length ≤ size } := fun self =>
  match self.arrivals with
  | [] => .error .socketError self
  | .failure _ :: later => .error .socketError { self with arrivals := later }
  | .data octets _ :: later =>
      .ok ⟨octets.take size, List.length_take_le size octets⟩
        { self with arrivals := Arrival.leave (octets.drop size) later }

/-- `Read` into the cache, whose indexes change only after `Receive` has succeeded. -/
def refill : Buffering Unit := fun self =>
  match receive rCacheSize self with
  | .ok received next => .ok () { next with cache := next.cache.fill received.1 received.2 }
  | .error exn next => .error exn next

/-- The cache is refilled if it is empty. -/
def fillCache : Buffering Unit := fun self =>
  if self.cache.IsEmpty then refill self else .ok () self

/-- `Get_Byte`. -/
def getByte : Buffering Octet := fun self =>
  match fillCache self with
  | .ok () next =>
      if nonempty : ¬next.cache.IsEmpty then
        .ok (next.cache.next nonempty)
          { next with cache := next.cache.advance 1 (by rw [ReadCache.IsEmpty] at nonempty; omega) }
      else .error .constraintError next
  | .error exn next => .error exn next

/-- `Get_Char`. -/
def getChar : Buffering Octet := getByte

/-- `Peek_Char`. -/
def peekChar : Buffering Octet := fun self =>
  match fillCache self with
  | .ok () next =>
      if nonempty : ¬next.cache.IsEmpty then .ok (next.cache.next nonempty) next
      else .error .constraintError next
  | .error exn next => .error exn next

/-- `Read_Buffer` into a buffer of the given size. -/
def readBuffer (size : Nat) : Buffering Octets := fun self =>
  .ok (self.cache.slice self.cache.first (self.cache.readLast size))
    { self with cache := self.cache.afterRead size }

/-- Data could remain in the socket, so it is read if there is some space left. -/
def readMore (size : Nat) (data : Octets) : Buffering Octets := fun self =>
  if data.length < size then
    let next := { self with pendings := self.pendings.tail }
    match self.pendings.headD false, self.arrivals with
    | true, .data _ _ :: _ =>
        match receive (size - data.length) next with
        | .ok more next => .ok (data ++ more.1) next
        | .error exn next => .error exn next
    | _, _ => .ok data next
  else .ok data self

/-- `Read` of at most a number of octets. -/
def read (size : Nat) : Buffering Octets := fun self =>
  if self.cache.IsEmpty ∧ rCacheSize ≤ size then
    match receive size self with
    | .ok data next => .ok data.1 next
    | .error exn next => .error exn next
  else
    match fillCache self with
    | .ok () next =>
        match readBuffer size next with
        | .ok data next => readMore size data next
        | .error exn next => .error exn next
    | .error exn next => .error exn next

/-- The loop of the `Read` that fills its buffer, with the data read so far and the space that is left,
at most so many times. -/
def readLoop : Nat → Octets → Nat → Buffered → EStateM.Result Exn Buffered Octets
  | 0, _, _, self => .error .storageError self
  | times + 1, data, space, self =>
      match read space self with
      | .ok more next =>
          if more.length = space then .ok (data ++ more) next
          else readLoop times (data ++ more) (space - more.length) next
      | .error exn next => .error exn next

/-- `Read` of exactly a number of octets. -/
def readFull (size : Nat) : Buffering Octets := readLoop (size + 1) [] size

/-- The loop of `Read_Until`, with the octets taken out of the cache so far and the number of octets
of the delimiter that match, at most so many times. -/
def readUntilLoop (inputLimit : Nat) (delimiter : Octets) (wait : Bool) :
    Nat → Octets → Nat → Buffered → EStateM.Result Exn Buffered Octets
  | 0, _, _, self => .error .storageError self
  | times + 1, buffer, matched, self =>
      if delimiter = [] ∧ ¬self.cache.IsEmpty then .error .constraintError self
      else
        match scan delimiter matched self.cache.content with
        | .found taken =>
            if within : self.cache.first + taken ≤ self.cache.last + 1 then
              .ok (buffer ++ self.cache.slice self.cache.first (self.cache.first + taken - 1))
                { self with cache := self.cache.advance taken within }
            else .error .constraintError self
        | .missing matched =>
            if wait = false then .ok [] self
            else
              let buffer := buffer ++ self.cache.content
              if inputLimit < buffer.length then
                .error (.refused "S400" s!"Size {buffer.length}") self
              else
                match refill self with
                | .ok () next => readUntilLoop inputLimit delimiter wait times buffer matched next
                | .error exn next =>
                    if buffer = [] ∨ self.isTimeout = true then .error exn next
                    else .ok buffer { next with cache := next.cache.clear }

/-- `Read_Until`. -/
def readUntil (inputLimit : Nat) (delimiter : Octets) (wait : Bool) : Buffering Octets := fun self =>
  readUntilLoop inputLimit delimiter wait (self.incoming.length + 1) [] 0 self

/-! ## What the operations take -/

/-- Everything that arrives is data. -/
def Flows (self : Buffered) : Prop := ∀ arrival ∈ self.arrivals, arrival.octets ≠ []

/-- No more than so many octets are cached, or arrive, at once. -/
def PiecesWithin (bound : Nat) (self : Buffered) : Prop :=
  self.cache.content.length ≤ bound ∧ ∀ arrival ∈ self.arrivals, arrival.octets.length ≤ bound

/-- Some octets have been taken from a socket. -/
structure Took (data : Octets) (socket next : Buffered) : Prop where
  unread_eq : socket.unread = data ++ next.unread
  flows : socket.Flows → next.Flows
  pieces : ∀ bound, socket.PiecesWithin bound → next.PiecesWithin bound

/-- Nothing has been taken, which does not happen while data arrive. -/
structure Failed (socket next : Buffered) : Prop extends Took [] socket next where
  cache_eq : next.cache = socket.cache
  stuck : socket.Flows → socket.incoming = []

variable {socket middle next : Buffered} {data more : Octets}

theorem Took.refl (socket : Buffered) : Took [] socket socket :=
  ⟨rfl, id, fun _ => id⟩

theorem Took.trans (earlier : Took data socket middle) (later : Took more middle next) :
    Took (data ++ more) socket next where
  unread_eq := by rw [earlier.unread_eq, later.unread_eq, List.append_assoc]
  flows flowing := later.flows (earlier.flows flowing)
  pieces bound within := later.pieces bound (earlier.pieces bound within)

/-- The answers of `Pending` do not matter. -/
theorem Took.of_pendings {pendings : List Bool}
    (taken : Took data { socket with pendings } next) : Took data socket next :=
  ⟨taken.unread_eq, taken.flows, taken.pieces⟩

theorem mem_leave {leftover : Octets} {later : List Arrival} {arrival : Arrival}
    (among : arrival ∈ Arrival.leave leftover later) :
    arrival.octets = leftover ∧ leftover ≠ [] ∨ arrival ∈ later := by
  rw [Arrival.leave] at among
  split_ifs at among with leftover_ne
  · obtain rfl | among := List.mem_cons.1 among
    · exact .inl ⟨rfl, leftover_ne⟩
    · exact .inr among
  · exact .inr among

/-- `Receive` has returned some octets. -/
structure Received (data : Octets) (socket next : Buffered) : Prop where
  cache_eq : next.cache = socket.cache
  incoming_eq : socket.incoming = data ++ next.incoming
  flows : socket.Flows → next.Flows
  within : ∀ bound, (∀ arrival ∈ socket.arrivals, arrival.octets.length ≤ bound) →
    data.length ≤ bound ∧ ∀ arrival ∈ next.arrivals, arrival.octets.length ≤ bound

/-- `Receive` returns a part of the first arrival or fails. -/
theorem receive_spec (size : Nat) (socket : Buffered) :
    (∃ data next, receive size socket = .ok data next ∧ Received data.1 socket next ∧
      (0 < size → data.1 ≠ [])) ∨
    ∃ next, receive size socket = .error .socketError next ∧ Failed socket next := by
  obtain ⟨cache, arrivals, pendings, timesOut⟩ := socket
  cases arrivals with
  | nil => exact .inr ⟨_, rfl, .refl _, rfl, fun _ => rfl⟩
  | cons arrival later =>
      cases arrival with
      | failure timeout =>
          refine .inr ⟨_, rfl, ⟨rfl, ?_, ?_⟩, rfl, ?_⟩
          · exact fun flowing other among => flowing other (List.mem_cons_of_mem _ among)
          · exact fun bound within => ⟨within.1, fun other among =>
              within.2 other (List.mem_cons_of_mem _ among)⟩
          · exact fun flowing => absurd rfl (flowing _ List.mem_cons_self)
      | data octets octets_ne =>
          refine .inl ⟨⟨_, _⟩, _, rfl, ⟨rfl, ?_, ?_, ?_⟩, ?_⟩
          · show octets ++ later.flatMap _ = octets.take size ++ (Arrival.leave _ _).flatMap _
            rw [Arrival.flatMap_leave, ← List.append_assoc, List.take_append_drop]
          · intro flowing other among
            obtain ⟨octets_eq, leftover_ne⟩ | among := mem_leave among
            · rw [octets_eq]
              exact leftover_ne
            · exact flowing other (List.mem_cons_of_mem _ among)
          · intro bound within
            have octets_le : octets.length ≤ bound := within _ List.mem_cons_self
            refine ⟨(List.length_take_le' size octets).trans octets_le, fun other among => ?_⟩
            obtain ⟨octets_eq, _⟩ | among := mem_leave among
            · rw [octets_eq, List.length_drop]
              omega
            · exact within other (List.mem_cons_of_mem _ among)
          · intro positive nothing
            obtain zero | none_arrived := List.take_eq_nil_iff.1 nothing
            · exact positive.ne' zero
            · exact octets_ne none_arrived

/-- A refilled cache replaces what it held. -/
theorem refill_spec (socket : Buffered) :
    (∃ next, refill socket = .ok () next ∧ Took socket.cache.content socket next ∧
      ¬next.cache.IsEmpty ∧ next.incoming.length < socket.incoming.length) ∨
    ∃ next, refill socket = .error .socketError next ∧ Failed socket next := by
  rw [refill]
  obtain ⟨data, next, received, taken, data_ne⟩ | ⟨next, failed_eq, failed⟩ :=
    receive_spec rCacheSize socket
  · have nonempty : data.1 ≠ [] := data_ne (by decide)
    have unread_eq : socket.incoming = data.1 ++ next.incoming := taken.incoming_eq
    refine .inl ⟨{ next with cache := next.cache.fill data.1 data.2 }, by rw [received],
      ⟨?_, taken.flows, fun bound within => ?_⟩, ?_, ?_⟩
    · rw [unread, unread_eq, unread, ReadCache.content_fill]
      rfl
    · obtain ⟨data_le, arrivals_le⟩ := taken.within bound within.2
      refine ⟨?_, arrivals_le⟩
      rw [ReadCache.content_fill]
      exact data_le
    · rw [ReadCache.isEmpty_iff, ReadCache.content_fill]
      exact nonempty
    · have positive := List.length_pos_iff.2 nonempty
      show next.incoming.length < socket.incoming.length
      rw [unread_eq, List.length_append]
      omega
  · exact .inr ⟨next, by rw [failed_eq], failed⟩

/-- The cache is not empty once it has been filled. -/
theorem fillCache_spec (socket : Buffered) :
    (∃ next, fillCache socket = .ok () next ∧ Took [] socket next ∧ ¬next.cache.IsEmpty) ∨
    ∃ next, fillCache socket = .error .socketError next ∧ Failed socket next ∧
      socket.cache.IsEmpty := by
  rw [fillCache]
  split_ifs with empty
  · obtain ⟨next, refilled, taken, nonempty, _⟩ | ⟨next, failed_eq, failed⟩ := refill_spec socket
    · rw [(ReadCache.isEmpty_iff _).1 empty] at taken
      exact .inl ⟨next, refilled, taken, nonempty⟩
    · exact .inr ⟨next, failed_eq, failed, empty⟩
  · exact .inl ⟨socket, rfl, .refl socket, empty⟩

/-- One octet is taken from a cache that is not empty. -/
theorem took_next (nonempty : ¬socket.cache.IsEmpty)
    (enough : socket.cache.first + 1 ≤ socket.cache.last + 1) :
    Took [socket.cache.next nonempty] socket { socket with cache := socket.cache.advance 1 enough } := by
  have content_eq := socket.cache.content_eq_cons nonempty enough
  refine ⟨?_, id, fun bound within => ⟨?_, within.2⟩⟩
  · rw [unread, content_eq]
    rfl
  · rw [ReadCache.content_advance, List.length_drop]
    have := within.1
    omega

/-- The next octet is taken. -/
theorem getByte_spec (socket : Buffered) :
    (∃ octet next, getByte socket = .ok octet next ∧ Took [octet] socket next) ∨
    ∃ next, getByte socket = .error .socketError next ∧ Failed socket next := by
  rw [getByte]
  obtain ⟨filled, filled_eq, taken, nonempty⟩ | ⟨next, failed_eq, failed, _⟩ := fillCache_spec socket
  · rw [filled_eq]
    dsimp only
    rw [dif_pos nonempty]
    exact .inl ⟨_, _, rfl, taken.trans (took_next nonempty _)⟩
  · rw [failed_eq]
    exact .inr ⟨next, rfl, failed⟩

/-- The next octet is seen and stays where it is. -/
theorem peekChar_spec (socket : Buffered) :
    (∃ octet next, peekChar socket = .ok octet next ∧ Took [] socket next ∧
      socket.unread.head? = some octet) ∨
    ∃ next, peekChar socket = .error .socketError next ∧ Failed socket next := by
  rw [peekChar]
  obtain ⟨filled, filled_eq, taken, nonempty⟩ | ⟨next, failed_eq, failed, _⟩ := fillCache_spec socket
  · rw [filled_eq]
    dsimp only
    rw [dif_pos nonempty]
    refine .inl ⟨_, _, rfl, taken, ?_⟩
    have enough : filled.cache.first + 1 ≤ filled.cache.last + 1 := by
      rw [ReadCache.IsEmpty] at nonempty
      omega
    rw [taken.unread_eq, unread, filled.cache.content_eq_cons nonempty enough]
    rfl
  · rw [failed_eq]
    exact .inr ⟨next, rfl, failed⟩

/-- `Read_Buffer` takes the front of the cache. -/
theorem took_readBuffer (size : Nat) (socket : Buffered) :
    Took (socket.cache.content.take size) socket
      { socket with cache := socket.cache.afterRead size } := by
  refine ⟨?_, id, fun bound within => ⟨?_, within.2⟩⟩
  · rw [unread, unread, ReadCache.content_afterRead, ← List.append_assoc, List.take_append_drop]
    rfl
  · rw [ReadCache.content_afterRead, List.length_drop]
    have := within.1
    omega

theorem Received.took (received : Received data socket next) (emptied : socket.cache.content = []) :
    Took data socket next where
  unread_eq := by
    rw [unread, unread, received.cache_eq, emptied, List.nil_append, List.nil_append,
      received.incoming_eq]
  flows := received.flows
  pieces bound within := ⟨received.cache_eq ▸ within.1, (received.within bound within.2).2⟩

/-- More is read into the space that is left. -/
theorem readMore_spec (socket : Buffered) (size : Nat) {taken : Octets} (fits : taken.length ≤ size)
    (emptied : taken.length < size → socket.cache.content = []) :
    ∃ more next, readMore size taken socket = .ok (taken ++ more) next ∧
      (taken ++ more).length ≤ size ∧ Took more socket next := by
  have nothing_more : ∀ next : Buffered, Took [] socket next →
      ∃ more after, (.ok taken next : EStateM.Result Exn Buffered Octets) =
        .ok (taken ++ more) after ∧ (taken ++ more).length ≤ size ∧ Took more socket after :=
    fun next same => ⟨[], next, by rw [List.append_nil], by rwa [List.append_nil], same⟩
  rw [readMore]
  split_ifs with space
  · have asked : Took [] socket { socket with pendings := socket.pendings.tail } :=
      ⟨rfl, id, fun _ => id⟩
    dsimp only
    split
    · obtain ⟨more, next, received_eq, received, _⟩ | ⟨next, failed_eq, failed⟩ :=
        receive_spec (size - taken.length) { socket with pendings := socket.pendings.tail }
      · rw [received_eq]
        refine ⟨more.1, next, rfl, ?_, (received.took (emptied space)).of_pendings⟩
        have more_le := more.2
        rw [List.length_append]
        omega
      · next arrivals_eq =>
        exfalso
        rw [receive, arrivals_eq] at failed_eq
        cases failed_eq
    · exact nothing_more _ asked
  · exact nothing_more socket (.refl socket)

/-- A read takes the front of what has not been read, and at least one octet if there is space. -/
theorem read_spec (size : Nat) (socket : Buffered) :
    (∃ data next, read size socket = .ok data next ∧ Took data socket next ∧ data.length ≤ size ∧
      (0 < size → data ≠ [])) ∨
    ∃ next, read size socket = .error .socketError next ∧ Failed socket next ∧
      socket.cache.IsEmpty := by
  rw [read]
  split_ifs with direct
  · obtain ⟨empty, large⟩ := direct
    have positive : 0 < size := Nat.lt_of_lt_of_le (by decide) large
    obtain ⟨data, next, received_eq, received, data_ne⟩ | ⟨next, failed_eq, failed⟩ :=
      receive_spec size socket
    · have emptied := (ReadCache.isEmpty_iff _).1 empty
      rw [received_eq]
      exact .inl ⟨data.1, next, rfl, received.took emptied, data.2, fun _ => data_ne positive⟩
    · rw [failed_eq]
      exact .inr ⟨next, rfl, failed, empty⟩
  · obtain ⟨filled, filled_eq, filling, nonempty⟩ | ⟨next, failed_eq, failed, empty⟩ :=
      fillCache_spec socket
    · rw [filled_eq]
      dsimp only [readBuffer]
      rw [ReadCache.slice_readLast]
      have emptied : (filled.cache.content.take size).length < size →
          (filled.cache.afterRead size).content = [] := by
        intro short
        rw [List.length_take] at short
        rw [ReadCache.content_afterRead]
        exact List.drop_eq_nil_of_le (by omega)
      obtain ⟨more, next, more_eq, fits, taken⟩ :=
        readMore_spec { filled with cache := filled.cache.afterRead size } size
          (List.length_take_le size filled.cache.content) emptied
      refine .inl ⟨_, next, more_eq, ?_, fits, fun positive nothing => ?_⟩
      · exact filling.trans ((took_readBuffer size filled).trans taken)
      · obtain ⟨none_cached, _⟩ := List.append_eq_nil_iff.1 nothing
        obtain zero | cache_nil := List.take_eq_nil_iff.1 none_cached
        · exact positive.ne' zero
        · exact nonempty ((ReadCache.isEmpty_iff _).2 cache_nil)
    · rw [failed_eq]
      exact .inr ⟨next, rfl, failed, empty⟩

/-- The loop of the `Read` that fills its buffer takes as much as there is space, or fails after
having taken some octets. -/
theorem readLoop_spec (socket : Buffered) (taken : Octets) {times space : Nat}
    (enough : space < times) :
    (∃ more next, readLoop times taken space socket = .ok (taken ++ more) next ∧
      Took more socket next ∧ more.length = space) ∨
    ∃ lost next, readLoop times taken space socket = .error .socketError next ∧
      Took lost socket next := by
  induction times generalizing socket taken space with
  | zero => exact absurd enough (Nat.not_lt_zero _)
  | succ times ih =>
      rw [readLoop]
      obtain ⟨more, next, read_eq, more_taken, more_le, more_ne⟩ | ⟨next, failed_eq, failed, _⟩ :=
        read_spec space socket
      · rw [read_eq]
        dsimp only
        split_ifs with full
        · exact .inl ⟨more, next, rfl, more_taken, full⟩
        · have positive : 0 < more.length := List.length_pos_iff.2 (more_ne (by omega))
          obtain ⟨further, last, loop_eq, further_taken, further_length⟩ |
              ⟨lost, last, failed_eq, lost_taken⟩ :=
            ih next (taken ++ more) (by omega : space - more.length < times)
          · refine .inl ⟨more ++ further, last, ?_, more_taken.trans further_taken, ?_⟩
            · rw [loop_eq, List.append_assoc]
            · rw [List.length_append, further_length]
              omega
          · exact .inr ⟨more ++ lost, last, failed_eq, more_taken.trans lost_taken⟩
      · rw [failed_eq]
        exact .inr ⟨[], next, rfl, failed.toTook⟩

theorem scan_found {delimiter octets : Octets} {matched taken : Nat}
    (found : scan delimiter matched octets = .found taken) : 1 ≤ taken ∧ taken ≤ octets.length := by
  induction octets generalizing matched taken with
  | nil => cases found
  | cons octet rest ih =>
      rw [scan] at found
      split_ifs at found with complete
      · cases found
        exact ⟨le_rfl, Nat.le_add_left 1 _⟩
      · cases scanned : scan delimiter (matchNext delimiter matched octet) rest with
        | found earlier =>
            rw [scanned, Scan.further, Scan.found.injEq] at found
            obtain ⟨_, earlier_le⟩ := ih scanned
            rw [List.length_cons]
            omega
        | missing later =>
            rw [scanned] at found
            cases found

/-- The exceptions of `Read_Until`. -/
def ReadUntilRaises (delimiter : Octets) (exn : Exn) : Prop :=
  exn = .socketError ∨ (∃ message, exn = .refused "S400" message) ∨
    delimiter = [] ∧ exn = .constraintError

/-- What `Read_Until` returns follows what it has taken out of the cache; when it raises, what it has
taken out of the cache is lost. -/
theorem readUntilLoop_spec (inputLimit : Nat) (delimiter : Octets) (wait : Bool) (buffer : Octets)
    (matched : Nat) (socket : Buffered) {times : Nat} (enough : socket.incoming.length < times) (waiting : wait = false → buffer = []) :
    (∃ data next, readUntilLoop inputLimit delimiter wait times buffer matched socket =
        .ok (buffer ++ data) next ∧ Took data socket next) ∨
    ∃ exn lost next, readUntilLoop inputLimit delimiter wait times buffer matched socket =
        .error exn next ∧ Took lost socket next ∧ ReadUntilRaises delimiter exn ∧
        (wait = false → lost = []) := by
  induction times generalizing socket buffer matched with
  | zero => exact absurd enough (Nat.not_lt_zero _)
  | succ times ih =>
      rw [readUntilLoop]
      by_cases unindexed : delimiter = [] ∧ ¬socket.cache.IsEmpty
      · rw [if_pos unindexed]
        exact .inr ⟨_, [], socket, rfl, .refl socket, .inr (.inr ⟨unindexed.1, rfl⟩), fun _ => rfl⟩
      · rw [if_neg unindexed]
        cases scanned : scan delimiter matched socket.cache.content with
        | found taken =>
            obtain ⟨positive, taken_le⟩ := scan_found scanned
            rw [ReadCache.content_length] at taken_le
            have within : socket.cache.first + taken ≤ socket.cache.last + 1 := by omega
            have slice_eq : socket.cache.slice socket.cache.first (socket.cache.first + taken - 1) =
                socket.cache.content.take taken := by
              rw [ReadCache.slice_first _ (by omega)]
              congr 1
              omega
            dsimp only
            rw [dif_pos within, slice_eq]
            refine .inl ⟨_, _, rfl, ?_, id, fun bound bounded => ⟨?_, bounded.2⟩⟩
            · rw [unread, unread, ReadCache.content_advance, ← List.append_assoc,
                List.take_append_drop]
              rfl
            · rw [ReadCache.content_advance, List.length_drop]
              have := bounded.1
              omega
        | missing further =>
            dsimp only
            cases wait with
            | false =>
                rw [if_pos rfl]
                exact .inl ⟨[], socket, by rw [waiting rfl]; rfl, .refl socket⟩
            | true =>
                rw [if_neg (by decide)]
                by_cases overflow : inputLimit < (buffer ++ socket.cache.content).length
                · rw [if_pos overflow]
                  exact .inr ⟨_, [], socket, rfl, .refl socket, .inr (.inl ⟨_, rfl⟩), nofun⟩
                · rw [if_neg overflow]
                  obtain ⟨next, refilled, taken, _, shorter⟩ | ⟨next, failed_eq, failed⟩ :=
                    refill_spec socket
                  · rw [refilled]
                    dsimp only
                    obtain ⟨data, last, loop_eq, data_taken⟩ |
                        ⟨exn, lost, last, loop_eq, lost_taken, raises, _⟩ :=
                      ih (buffer ++ socket.cache.content) further next (by omega) nofun
                    · refine .inl ⟨_, last, ?_, taken.trans data_taken⟩
                      rw [loop_eq, List.append_assoc]
                    · exact .inr ⟨exn, _, last, loop_eq, taken.trans lost_taken, raises, nofun⟩
                  · rw [failed_eq]
                    dsimp only
                    split_ifs with raising
                    · exact .inr ⟨_, [], next, rfl, failed.toTook, .inl rfl, nofun⟩
                    · refine .inl ⟨_, _, rfl, ?_, failed.flows, fun bound bounded => ⟨?_, ?_⟩⟩
                      · rw [failed.unread_eq, unread, failed.cache_eq]
                        rfl
                      · exact Nat.zero_le _
                      · exact (failed.pieces bound bounded).2

end Buffered
end Net
end AdaWebServer
