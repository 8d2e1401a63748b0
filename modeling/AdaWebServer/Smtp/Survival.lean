import AdaWebServer.Smtp.Server

/-!
# The SMTP server and its clients

The task goes back to accepting after exactly those clients that send command lines up to `QUIT`,
of which those at index 1 are not empty and do not start with a blank, and complete messages, of
which the header lines behind index 2 have a colon, and that accept the replies.  The callback is
called for these only.
-/

namespace AdaWebServer
namespace Smtp

open Http2 (Octets Exn Positive Text)
open Containers (Table)
open Net Smtp.Session

/-! ## What clients send -/

section Grammar

variable (inputLimit : Positive)

/-- Fitting lines up to one that ends them. -/
inductive LinesUpTo (fits : Line → Prop) (stop : Text) : Buffered → Buffered → Prop where
  | done {socket next : Buffered} (read : Buffered.getLine inputLimit socket = .ok stop next) :
      LinesUpTo fits stop socket next
  | line {socket next final : Buffered} {line : Text}
      (read : Buffered.getLine inputLimit socket = .ok line next) (other : line ≠ stop)
      (fitting : fits (.readFrom socket line)) (rest : LinesUpTo fits stop next final) :
      LinesUpTo fits stop socket final

/-- A line of the header has a colon, or begins at one of the first two positions. -/
def Splits (line : Line) : Prop := 58 ∈ line.characters ∨ line.first ≤ 2

instance : DecidablePred Splits := fun _ => inferInstanceAs (Decidable (_ ∨ _))

/-- Any line fits in the body. -/
def AnyLine (_ : Line) : Prop := True

instance : DecidablePred AnyLine := fun _ => inferInstanceAs (Decidable True)

/-- The word that a line starts with. -/
def wordOf (line : Text) : Text := line.takeWhile (· ≠ 32)

/-- A command line starts with a word, or does not begin at the first position. -/
def Named (line : Line) : Prop := wordOf line.characters ≠ [] ∨ 1 < line.first

/-- Commands up to `QUIT` from a client that accepts a number of replies.  A message is a header up
to an empty line and a body up to a dot. -/
inductive Quits : Buffered → List Peer → Nat → Prop where
  | quit {socket next : Buffered} {upgrades : List Peer} {accepts : Nat} {line : Text}
      (read : Buffered.getLine inputLimit socket = .ok line next) (word : wordOf line = wordQuit) :
      Quits socket upgrades (accepts + 1)
  | data {socket next middle final : Buffered} {upgrades : List Peer} {accepts : Nat} {line : Text}
      (read : Buffered.getLine inputLimit socket = .ok line next) (word : wordOf line = wordData)
      (header : LinesUpTo inputLimit Splits [] next middle)
      (body : LinesUpTo inputLimit AnyLine [46] middle final)
      (rest : Quits final upgrades accepts) : Quits socket upgrades (accepts + 2)
  | startTls {socket next : Buffered} {secured : Peer} {upgrades : List Peer} {accepts : Nat}
      {line : Text} (read : Buffered.getLine inputLimit socket = .ok line next)
      (word : wordOf line = wordStartTls) (rest : Quits secured.socket upgrades secured.accepts) :
      Quits socket (secured :: upgrades) (accepts + 1)
  | other {socket next : Buffered} {upgrades : List Peer} {accepts : Nat} {line : Text}
      (read : Buffered.getLine inputLimit socket = .ok line next)
      (named : Named (.readFrom socket line))
      (known : wordOf line ∉ [wordQuit, wordData, wordStartTls])
      (rest : Quits next upgrades accepts) : Quits socket upgrades (accepts + 1)

/-- A client that accepts the greeting and sends such commands. -/
def Client.Quits (client : Client) : Prop :=
  ∃ accepts, client.peer.accepts = accepts + 1 ∧
    Smtp.Quits inputLimit client.peer.socket client.upgrades accepts

end Grammar

variable {inputLimit : Positive} {fits : Line → Prop} {stop : Text} {socket middle final : Buffered}

theorem LinesUpTo.unique {other : Buffered} (lines : LinesUpTo inputLimit fits stop socket final)
    (again : LinesUpTo inputLimit fits stop socket other) : final = other := by
  induction lines with
  | done read =>
      cases again with
      | done read' =>
          rw [read] at read'
          cases read'
          rfl
      | line read' different _ _ =>
          rw [read] at read'
          cases read'
          exact absurd rfl different
  | line read different _ _ ih =>
      cases again with
      | done read' =>
          rw [read] at read'
          cases read'
          exact absurd rfl different
      | line read' _ _ rest' =>
          rw [read] at read'
          cases read'
          exact ih rest'

theorem LinesUpTo.shorter (lines : LinesUpTo inputLimit fits stop socket final) :
    final.unread.length < socket.unread.length := by
  induction lines with
  | done read => exact Buffered.getLine_shorter read
  | line read _ _ _ ih => exact ih.trans (Buffered.getLine_shorter read)

/-! ## The loops over lines -/

/-- A turn of a loop over fitting lines, each of which changes what is received. -/
def linesTurn (inputLimit : Positive) (fits : Line → Prop) [DecidablePred fits] (stop : Text)
    (receive : Line → Message → Message) (session : Session) :
    Trial Exn (Turn Session Session) := do
  let (line, session) ← session.getLine inputLimit
  if line.characters = stop then
    return .leave session
  else if fits line then
    return .again { session with received := receive line session.received }
  else
    .error (.raised .constraintError)

/-- The session is at a line: nothing is in the write cache, or a reply that is accepted. -/
structure At (session : Session) (socket : Buffered) (upgrades : List Peer) (accepts : Nat) :
    Prop where
  socket_eq : session.channel.socket = socket
  upgrades_eq : session.upgrades = upgrades
  accepts_eq : session.channel.accepts = accepts + session.channel.owes

/-- Nothing is in the write cache. -/
structure Flushed (session : Session) (socket : Buffered) (upgrades : List Peer) (accepts : Nat) :
    Prop where
  socket_eq : session.channel.socket = socket
  upgrades_eq : session.upgrades = upgrades
  accepts_eq : session.channel.accepts = accepts
  empty : session.channel.cache = []

theorem Flushed.at {session : Session} {upgrades : List Peer} {accepts : Nat}
    (flushed : Flushed session socket upgrades accepts) : At session socket upgrades accepts := by
  refine ⟨flushed.socket_eq, flushed.upgrades_eq, ?_⟩
  rw [flushed.accepts_eq, Channel.owes, if_pos flushed.empty]
  rfl

variable (inputLimit) in
/-- What a session raises, or how it goes on. -/
theorem getLine_cases (session : Session) :
    (∃ exn, session.getLine inputLimit = .error (.raised exn) ∧
      ¬∃ accepts line next, At session session.channel.socket session.upgrades accepts ∧
        Buffered.getLine inputLimit session.channel.socket = .ok line next) ∨
    ∃ accepts line next session',
      session.getLine inputLimit = .ok (.readFrom session.channel.socket line, session') ∧
      At session session.channel.socket session.upgrades accepts ∧
      Buffered.getLine inputLimit session.channel.socket = .ok line next ∧
      Flushed session' next session.upgrades accepts ∧ session'.received = session.received := by
  have at_iff : ∀ {accepts}, At session session.channel.socket session.upgrades accepts →
      session.channel.owes ≤ session.channel.accepts := by
    intro accepts here
    rw [here.accepts_eq]
    exact Nat.le_add_left _ _
  by_cases accepted : session.channel.owes ≤ session.channel.accepts
  · cases read : Buffered.getLine inputLimit session.channel.socket with
    | ok line next =>
        obtain ⟨sent, got⟩ := Channel.getLine_ok accepted read
        refine .inr ⟨session.channel.accepts - session.channel.owes, line, next,
          { session with
            channel := ⟨next, [], session.channel.accepts - session.channel.owes, sent⟩ },
          ?_, ⟨rfl, rfl, (Nat.sub_add_cancel accepted).symm⟩, rfl, ⟨rfl, rfl, rfl, rfl⟩, rfl⟩
        rw [Session.getLine, attempt, got]
        rfl
    | error exn next =>
        obtain ⟨exn', next', got⟩ : ∃ exn' next',
            Channel.getLine inputLimit session.channel = .error exn' next' :=
          Channel.getLine_error (.inr ⟨exn, next, read⟩)
        refine .inl ⟨exn', ?_, ?_⟩
        · rw [Session.getLine, attempt, got]
          rfl
        · rintro ⟨_, _, _, _, impossible⟩
          cases impossible
  · obtain ⟨exn', next', got⟩ : ∃ exn' next',
        Channel.getLine inputLimit session.channel = .error exn' next' :=
      Channel.getLine_error (.inl accepted)
    refine .inl ⟨exn', ?_, ?_⟩
    · rw [Session.getLine, attempt, got]
      rfl
    · rintro ⟨_, _, _, here, _⟩
      exact accepted (at_iff here)

theorem At.unique {session : Session} {upgrades : List Peer} {accepts other : Nat}
    (here : At session socket upgrades accepts) (there : At session socket upgrades other) :
    accepts = other := by
  have first := here.accepts_eq
  have second := there.accepts_eq
  omega

variable (inputLimit fits stop) in
/-- The loop takes the lines up to the one that ends them, or raises. -/
theorem lines_cases [DecidablePred fits] (receive : Line → Message → Message) {session : Session}
    {times : Nat} (enough : session.channel.socket.unread.length < times) :
    (∃ exn, turns (linesTurn inputLimit fits stop receive) times session = .error (.raised exn) ∧
      ¬∃ accepts final, At session session.channel.socket session.upgrades accepts ∧
        LinesUpTo inputLimit fits stop session.channel.socket final) ∨
    ∃ accepts final session',
      turns (linesTurn inputLimit fits stop receive) times session = .ok session' ∧
      At session session.channel.socket session.upgrades accepts ∧
      LinesUpTo inputLimit fits stop session.channel.socket final ∧
      Flushed session' final session.upgrades accepts := by
  induction times generalizing session with
  | zero => exact absurd enough (Nat.not_lt_zero _)
  | succ times ih =>
      rcases getLine_cases inputLimit session with
        ⟨exn, raised, nothing⟩ | ⟨accepts, line, next, session', got, here, read, flushed, _⟩
      · refine .inl ⟨exn, turns_stop (by rw [linesTurn, raised]; rfl), ?_⟩
        rintro ⟨accepts, final, here, lines⟩
        cases lines with
        | done read => exact nothing ⟨accepts, _, _, here, read⟩
        | line read _ _ _ => exact nothing ⟨accepts, _, _, here, read⟩
      · by_cases last : line = stop
        · subst last
          refine .inr ⟨accepts, next, session', turns_leave ?_, here, .done read, flushed⟩
          rw [linesTurn, got]
          exact if_pos rfl
        by_cases fitting : fits (.readFrom session.channel.socket line)
        · let after : Session :=
            { session' with
              received := receive (.readFrom session.channel.socket line) session'.received }
          have flushed' : Flushed after next session.upgrades accepts :=
            ⟨flushed.socket_eq, flushed.upgrades_eq, flushed.accepts_eq, flushed.empty⟩
          have turn : linesTurn inputLimit fits stop receive session = .ok (.again after) := by
            rw [linesTurn, got]
            exact (if_neg last).trans (if_pos fitting)
          rw [turns_again turn]
          have shorter := Buffered.getLine_shorter read
          rcases @ih after (by rw [flushed'.socket_eq]; omega) with
            ⟨exn, raised, nothing⟩ | ⟨accepts', final, result, ended, there, lines, done⟩
          · refine .inl ⟨exn, raised, ?_⟩
            rintro ⟨other, final, there, lines⟩
            refine nothing ⟨accepts, final, ?_, ?_⟩
            · rw [flushed'.socket_eq, flushed'.upgrades_eq]
              exact flushed'.at
            · rw [flushed'.socket_eq]
              cases lines with
              | done read' =>
                  rw [read] at read'
                  cases read'
                  exact absurd rfl last
              | line read' _ _ rest =>
                  rw [read] at read'
                  cases read'
                  exact rest
          · rw [flushed'.socket_eq] at there lines
            rw [flushed'.upgrades_eq] at there done
            obtain rfl := flushed'.at.unique there
            exact .inr ⟨accepts, final, result, ended, here, .line read last fitting lines, done⟩
        · have turn : linesTurn inputLimit fits stop receive session =
              .error (.raised .constraintError) := by
            rw [linesTurn, got]
            exact (if_neg last).trans (if_neg fitting)
          refine .inl ⟨_, turns_stop turn, ?_⟩
          rintro ⟨_, final, _, lines⟩
          cases lines with
          | done read' =>
              rw [read] at read'
              cases read'
              exact last rfl
          | line read' _ fitting' _ =>
              rw [read] at read'
              cases read'
              exact fitting fitting'

/-- A slice is returned when its bounds are those of the line, or when it is null. -/
theorem Line.slice_ok {line : Line} {start stop : Nat}
    (within : start ≤ stop → line.first ≤ start ∧ stop ≤ line.last) :
    line.slice start stop =
      .ok ((line.characters.take (stop + 1 - line.first)).drop (start - line.first)) :=
  if_neg fun outside => outside.2 (within outside.1)

theorem Line.index_missing {line : Line} {character : Http2.Octet}
    (missing : character ∉ line.characters) : line.index character = 0 := by
  rw [Line.index, List.idxOf?_eq_none_iff.2 missing]

theorem Line.index_colon {line : Line} (colon : 58 ∈ line.characters) :
    line.first ≤ line.index 58 ∧ line.index 58 ≤ line.last := by
  rw [Line.index]
  cases found : line.characters.idxOf? 58 with
  | none => exact absurd colon (List.idxOf?_eq_none_iff.1 found)
  | some place =>
      have below : place < line.characters.length := by
        rw [List.idxOf?_eq_some_iff] at found
        exact found.1
      rw [Line.last]
      dsimp only
      omega

theorem headerTurn_eq (inputLimit : Positive) :
    ∃ receive, headerTurn inputLimit = linesTurn inputLimit Splits [] receive := by
  choose added added_eq using Table.added_eq
  let front (line : Line) : Text := (line.characters.take (line.index 58 - 1 + 1 - line.first)).drop
    (line.first - line.first)
  let behind (line : Line) : Text :=
    (line.characters.take (line.last + 1 - line.first)).drop (line.index 58 + 2 - line.first)
  refine ⟨fun line message =>
    { message with headers := added message.headers (front line) (behind line) },
    funext fun session => ?_⟩
  rw [headerTurn, linesTurn]
  refine congrArg _ (funext ?_)
  rintro ⟨line, session⟩
  by_cases last : line.characters = []
  · exact (if_pos last).trans (if_pos last).symm
  refine ((if_neg last).trans ?_).trans (if_neg last).symm
  have some_characters := List.length_pos_iff.2 last
  have first_pos := line.first_pos
  have last_eq : line.last = line.first + line.characters.length - 1 := rfl
  have name_eq : line.slice line.first (line.index 58 - 1) = .ok (front line) := by
    refine Line.slice_ok fun _ => ⟨le_rfl, ?_⟩
    by_cases colon : 58 ∈ line.characters
    · have := Line.index_colon colon
      omega
    · rw [Line.index_missing colon]
      exact Nat.zero_le _
  dsimp only
  by_cases splits : Splits line
  · have value_eq : line.slice (line.index 58 + 2) line.last = .ok (behind line) := by
      refine Line.slice_ok fun _ => ⟨?_, le_rfl⟩
      obtain colon | near := splits
      · have := Line.index_colon colon
        omega
      · omega
    rw [if_pos splits, name_eq, Http2.ok_bind, value_eq, Http2.ok_bind, added_eq]
  · obtain ⟨missing, far⟩ := not_or.1 splits
    have value_eq : line.slice (line.index 58 + 2) line.last =
        .error (.raised .constraintError) := by
      rw [Line.index_missing missing]
      exact if_pos ⟨by omega, by omega⟩
    rw [if_neg splits, name_eq, value_eq]
    rfl

theorem bodyTurn_eq (inputLimit : Positive) :
    bodyTurn inputLimit = linesTurn inputLimit AnyLine [46] fun line message =>
      { message with
        body := message.body ++
          (if line.characters.head? = some 46 then line.characters.drop 1 else line.characters) ++
            crlf } :=
  rfl

theorem unread_le_size (session : Session) :
    session.channel.socket.unread.length ≤ session.size :=
  Nat.le_add_right _ _

variable (inputLimit) in
/-- A header and a body are read, or there are none. -/
theorem readMessageBody_cases (session : Session) :
    (∃ exn, session.readMessageBody inputLimit = .error (.raised exn) ∧
      ¬∃ accepts middle final, At session session.channel.socket session.upgrades accepts ∧
        LinesUpTo inputLimit Splits [] session.channel.socket middle ∧
        LinesUpTo inputLimit AnyLine [46] middle final) ∨
    ∃ accepts middle final session', session.readMessageBody inputLimit = .ok session' ∧
      At session session.channel.socket session.upgrades accepts ∧
      LinesUpTo inputLimit Splits [] session.channel.socket middle ∧
      LinesUpTo inputLimit AnyLine [46] middle final ∧
        Flushed session' final session.upgrades accepts := by
  obtain ⟨receive, header_eq⟩ := headerTurn_eq inputLimit
  rw [readMessageBody, header_eq, bodyTurn_eq]
  rcases lines_cases inputLimit Splits [] receive
      (Nat.lt_succ_of_le (unread_le_size session)) with
    ⟨exn, raised, nothing⟩ | ⟨accepts, middle, session', ended, here, header, flushed⟩
  · rw [raised]
    exact .inl ⟨exn, rfl, fun ⟨accepts, middle, _, here, header, _⟩ =>
      nothing ⟨accepts, middle, here, header⟩⟩
  · rw [ended]
    rcases lines_cases inputLimit AnyLine [46] (fun line message =>
        { message with
          body := message.body ++
            (if line.characters.head? = some 46 then line.characters.drop 1 else line.characters) ++
              crlf })
        (Nat.lt_succ_of_le (unread_le_size session')) with
      ⟨exn, raised, nothing⟩ | ⟨accepts', final, result, ended', there, body, done⟩
    · refine .inl ⟨exn, raised, ?_⟩
      rintro ⟨_, middle', final, _, header', body⟩
      obtain rfl := header.unique header'
      refine nothing ⟨accepts, final, ?_, ?_⟩
      · rw [flushed.socket_eq, flushed.upgrades_eq]
        exact flushed.at
      · rw [flushed.socket_eq]
        exact body
    · rw [flushed.socket_eq] at there body
      rw [flushed.upgrades_eq] at there done
      obtain rfl := flushed.at.unique there
      exact .inr ⟨accepts, middle, final, result, ended', here, header, body, done⟩

/-! ## A turn of the loop over commands -/

theorem length_wordOf (line : Text) :
    (line.idxOf? 32).getD line.length = (wordOf line).length ∧
      line.take (wordOf line).length = wordOf line := by
  induction line with
  | nil => exact ⟨rfl, rfl⟩
  | cons byte line ih =>
      rw [List.idxOf?_cons, wordOf]
      by_cases blank : byte = 32
      · subst blank
        exact ⟨rfl, rfl⟩
      · rw [List.takeWhile_cons_of_pos (by simpa using blank), List.length_cons,
          if_neg (by simpa using blank), ← wordOf]
        refine ⟨?_, (List.take_succ_cons).trans (congrArg _ ih.2)⟩
        rw [List.length_cons, ← ih.1]
        cases line.idxOf? 32 <;> rfl

theorem lastOf_eq (line : Line) :
    lastOf line = line.first + (wordOf line.characters).length - 1 := by
  have first_pos := line.first_pos
  rw [lastOf, Line.index, ← (length_wordOf line.characters).1]
  cases line.characters.idxOf? 32 with
  | none => exact if_pos rfl
  | some place => exact if_neg (by dsimp only; omega)

theorem command_eq (line : Line) :
    (Named line → command line = .ok (wordOf line.characters)) ∧
      (¬Named line → command line = .error (.raised .constraintError)) := by
  have first_pos := line.first_pos
  have within : (wordOf line.characters).length ≤ line.characters.length :=
    (List.takeWhile_sublist _).length_le
  rw [command, lastOf_eq, Named, ne_eq, ← List.length_eq_zero_iff]
  constructor
  · intro named
    rw [if_neg (by omega), Line.slice_ok fun _ => ⟨le_rfl, by rw [Line.last]; omega⟩]
    have width : line.first + (wordOf line.characters).length - 1 + 1 - line.first =
        (wordOf line.characters).length := by omega
    rw [width, Nat.sub_self, List.drop_zero, (length_wordOf line.characters).2]
  · exact fun unnamed => if_pos (by omega)

/-- A reply is in the write cache. -/
structure Replied (session : Session) (socket : Buffered) (upgrades : List Peer) (accepts : Nat) :
    Prop where
  socket_eq : session.channel.socket = socket
  upgrades_eq : session.upgrades = upgrades
  accepts_eq : session.channel.accepts = accepts
  owes_eq : session.channel.owes = 1

theorem Replied.at_iff {session : Session} {upgrades : List Peer} {accepts rest : Nat}
    (replied : Replied session socket upgrades accepts) :
    At session socket upgrades rest ↔ accepts = rest + 1 := by
  constructor
  · intro here
    rw [← replied.accepts_eq, here.accepts_eq, replied.owes_eq]
  · intro accepts_eq
    exact ⟨replied.socket_eq, replied.upgrades_eq, by
      rw [replied.accepts_eq, accepts_eq, replied.owes_eq]⟩

/-- Every reply fits in the write cache. -/
theorem putLine_flushed (reply : Reply) {session : Session} {upgrades : List Peer} {accepts : Nat}
    (flushed : Flushed session socket upgrades accepts) :
    ∃ session', session.putLine reply = .ok session' ∧
      Replied session' socket upgrades accepts := by
  have fits : (message reply.code).length + 2 ≤ wCacheSize := by
    cases reply <;> decide
  refine ⟨{ session with
    channel := { session.channel with cache := message reply.code ++ crlf } },
    ?_, flushed.socket_eq, flushed.upgrades_eq, flushed.accepts_eq, ?_⟩
  · rw [Session.putLine, attempt, Channel.putLine_empty flushed.empty fits]
    rfl
  · rw [Channel.owes, if_neg]
    exact List.append_ne_nil_of_right_ne_nil _ (by rintro ⟨⟩)

/-- What a client that is at a command must send after it. -/
def Continues (inputLimit : Positive) (word : Text) (socket : Buffered) (upgrades : List Peer)
    (rest : Nat) : Prop :=
  word = wordQuit ∨
    (word = wordData ∧ ∃ left middle final, rest = left + 1 ∧
      LinesUpTo inputLimit Splits [] socket middle ∧
        LinesUpTo inputLimit AnyLine [46] middle final ∧
      Quits inputLimit final upgrades left) ∨
    (word = wordStartTls ∧ ∃ secured later, upgrades = secured :: later ∧
      Quits inputLimit secured.socket later secured.accepts) ∨
    (word ∉ [wordQuit, wordData, wordStartTls] ∧ Quits inputLimit socket upgrades rest)

/-- What a client still sends after a line, given the line. -/
theorem quits_iff_of_read {next : Buffered} {line : Text} {upgrades : List Peer} {accepts : Nat}
    (read : Buffered.getLine inputLimit socket = .ok line next)
    (named : Named (.readFrom socket line)) :
    Quits inputLimit socket upgrades accepts ↔
      ∃ rest, accepts = rest + 1 ∧ Continues inputLimit (wordOf line) next upgrades rest := by
  constructor
  · intro quits
    cases quits with
    | quit read' word =>
        rw [read] at read'
        cases read'
        exact ⟨_, rfl, .inl word⟩
    | data read' word header body rest =>
        rw [read] at read'
        cases read'
        exact ⟨_, rfl, .inr (.inl ⟨word, _, _, _, rfl, header, body, rest⟩)⟩
    | startTls read' word rest =>
        rw [read] at read'
        cases read'
        exact ⟨_, rfl, .inr (.inr (.inl ⟨word, _, _, rfl, rest⟩))⟩
    | other read' _ known rest =>
        rw [read] at read'
        cases read'
        exact ⟨_, rfl, .inr (.inr (.inr ⟨known, rest⟩))⟩
  · rintro ⟨_, rfl, word | ⟨word, _, _, _, rfl, header, body, rest⟩ | ⟨word, _, _, rfl, rest⟩ |
      ⟨known, rest⟩⟩
    · exact .quit read word
    · exact .data read word header body rest
    · exact .startTls read word rest
    · exact .other read named known rest

/-- A client that goes on well names a command. -/
theorem Quits.named {next : Buffered} {line : Text} {upgrades : List Peer} {accepts : Nat}
    (quits : Quits inputLimit socket upgrades accepts)
    (read : Buffered.getLine inputLimit socket = .ok line next) :
      Named (.readFrom socket line) := by
  cases quits with
  | quit read' word | data read' word _ _ _ | startTls read' word _ =>
      rw [read] at read'
      cases read'
      exact .inl fun unnamed => absurd (word.symm.trans unnamed) (by decide)
  | other read' named _ _ =>
      rw [read] at read'
      cases read'
      exact named

theorem Quits.reads {upgrades : List Peer} {accepts : Nat}
    (quits : Quits inputLimit socket upgrades accepts) :
    ∃ line next, Buffered.getLine inputLimit socket = .ok line next := by
  cases quits with
  | quit read _ => exact ⟨_, _, read⟩
  | data read _ _ _ _ => exact ⟨_, _, read⟩
  | startTls read _ _ => exact ⟨_, _, read⟩
  | other read _ _ _ => exact ⟨_, _, read⟩

/-- The client goes on so that the session ends with `QUIT`. -/
def Good (inputLimit : Positive) (session : Session) : Prop :=
  ∃ accepts, At session session.channel.socket session.upgrades accepts ∧
    Quits inputLimit session.channel.socket session.upgrades accepts

theorem At.good_iff {session : Session} {accepts : Nat}
    (here : At session session.channel.socket session.upgrades accepts) :
    Good inputLimit session ↔
      Quits inputLimit session.channel.socket session.upgrades accepts := by
  constructor
  · rintro ⟨other, there, quits⟩
    obtain rfl := here.unique there
    exact quits
  · exact fun quits => ⟨accepts, here, quits⟩

theorem Replied.good_iff {session : Session} {upgrades : List Peer} {accepts : Nat}
    (replied : Replied session socket upgrades accepts) :
    Good inputLimit session ↔
      ∃ rest, accepts = rest + 1 ∧ Quits inputLimit socket upgrades rest := by
  obtain ⟨rfl, rfl, accepts_eq, owes_eq⟩ := replied
  exact exists_congr fun rest => and_congr_left fun _ =>
    Replied.at_iff ⟨rfl, rfl, accepts_eq, owes_eq⟩

theorem Replied.size_eq {session : Session} {upgrades : List Peer} {accepts : Nat}
    (replied : Replied session socket upgrades accepts) :
    session.size = socket.unread.length +
      (upgrades.map fun peer => peer.socket.unread.length + 1).sum := by
  rw [Session.size, replied.socket_eq, replied.upgrades_eq]

/-- How a session goes on if the client does so under a condition. -/
def Steps (inputLimit : Positive) (measure : Nat) (condition : Prop)
    (computation : Trial Exn (Turn Session Session)) : Prop :=
  (∃ exn, computation = .error (.raised exn) ∧ ¬condition) ∨
  (∃ session, computation = .ok (.again session) ∧ session.size < measure ∧
    (Good inputLimit session ↔ condition)) ∨
  ∃ session, computation = .ok (.leave session) ∧
    (session.channel.owes ≤ session.channel.accepts ↔ condition)

theorem continues_quit {upgrades : List Peer} {rest : Nat} :
    Continues inputLimit wordQuit socket upgrades rest :=
  .inl rfl

theorem continues_data {upgrades : List Peer} {rest : Nat} :
    Continues inputLimit wordData socket upgrades rest ↔ ∃ left middle final, rest = left + 1 ∧
      LinesUpTo inputLimit Splits [] socket middle ∧
        LinesUpTo inputLimit AnyLine [46] middle final ∧
      Quits inputLimit final upgrades left := by
  constructor
  · rintro (quit | ⟨-, data⟩ | ⟨startTls, -⟩ | ⟨unknown, -⟩)
    · exact absurd quit (by decide)
    · exact data
    · exact absurd startTls (by decide)
    · exact absurd (by decide) unknown
  · exact fun data => .inr (.inl ⟨rfl, data⟩)

theorem continues_startTls {upgrades : List Peer} {rest : Nat} :
    Continues inputLimit wordStartTls socket upgrades rest ↔ ∃ secured later,
      upgrades = secured :: later ∧ Quits inputLimit secured.socket later secured.accepts := by
  constructor
  · rintro (quit | ⟨data, -⟩ | ⟨-, startTls⟩ | ⟨unknown, -⟩)
    · exact absurd quit (by decide)
    · exact absurd data (by decide)
    · exact startTls
    · exact absurd (by decide) unknown
  · exact fun startTls => .inr (.inr (.inl ⟨rfl, startTls⟩))

theorem continues_other {word : Text} {upgrades : List Peer} {rest : Nat}
    (other : word ∉ [wordQuit, wordData, wordStartTls]) :
    Continues inputLimit word socket upgrades rest ↔ Quits inputLimit socket upgrades rest := by
  constructor
  · rintro (rfl | ⟨rfl, -⟩ | ⟨rfl, -⟩ | ⟨-, quits⟩)
    · exact absurd (by decide) other
    · exact absurd (by decide) other
    · exact absurd (by decide) other
    · exact quits
  · exact fun quits => .inr (.inr (.inr ⟨other, quits⟩))

/-- A reply is written, and the client goes on at the next line. -/
theorem steps_putLine (reply : Reply) {session : Session} {upgrades : List Peer}
    {accepts measure : Nat} (flushed : Flushed session socket upgrades accepts)
    (smaller : session.size < measure) :
    Steps inputLimit measure
        (∃ rest, accepts = rest + 1 ∧ Quits inputLimit socket upgrades rest) (do
      let session ← session.putLine reply
      return .again session) := by
  obtain ⟨session', put, replied⟩ := putLine_flushed reply flushed
  rw [put]
  refine .inr (.inl ⟨session', rfl, ?_, replied.good_iff⟩)
  rwa [replied.size_eq, ← flushed.socket_eq, ← flushed.upgrades_eq]

/-- A message is read after `DATA`. -/
theorem steps_data {session : Session} {upgrades : List Peer} {accepts measure : Nat}
    (flushed : Flushed session socket upgrades accepts) (smaller : session.size < measure) :
    Steps inputLimit measure
      (∃ rest, accepts = rest + 1 ∧ Continues inputLimit wordData socket upgrades rest) (do
        let session ← session.putLine .startMailInput
        let session ← session.readMessageBody inputLimit
        let session ← session.putLine .requestedActionOk
        return .again session) := by
  obtain ⟨asked, put, replied⟩ := putLine_flushed .startMailInput flushed
  rw [put]
  show Steps _ _ _ (asked.readMessageBody inputLimit >>= _)
  simp only [continues_data]
  rcases readMessageBody_cases inputLimit asked with
    ⟨exn, raised, nothing⟩ | ⟨accepts', middle, final, received, ended, here, header, body, done⟩
  · rw [raised]
    refine .inl ⟨exn, rfl, ?_⟩
    rintro ⟨_, rfl, left, middle, final, _, header, body, _⟩
    rw [replied.socket_eq, replied.upgrades_eq] at nothing
    exact nothing ⟨_, middle, final, replied.at_iff.mpr rfl, header, body⟩
  · rw [replied.socket_eq] at here header
    rw [replied.upgrades_eq] at here done
    obtain rfl := replied.at_iff.mp here
    obtain ⟨confirmed, put', replied'⟩ := putLine_flushed .requestedActionOk done
    rw [ended]
    show Steps _ _ _ (received.putLine .requestedActionOk >>= _)
    rw [put']
    refine .inr (.inl ⟨confirmed, rfl, ?_, replied'.good_iff.trans ?_⟩)
    · have header_shorter := header.shorter
      have body_shorter := body.shorter
      rw [Session.size, flushed.socket_eq, flushed.upgrades_eq] at smaller
      rw [replied'.size_eq]
      omega
    · constructor
      · rintro ⟨left, rfl, quits⟩
        exact ⟨_, rfl, left, middle, final, rfl, header, body, quits⟩
      · rintro ⟨_, same, left, middle', final', rfl, header', body', quits⟩
        obtain rfl := header.unique header'
        obtain rfl := body.unique body'
        exact ⟨left, Nat.succ.inj same, quits⟩

/-- The session goes on over the secured socket after `STARTTLS`. -/
theorem steps_startTls {session : Session} {upgrades : List Peer} {accepts measure : Nat}
    (flushed : Flushed session socket upgrades accepts) (smaller : session.size < measure) :
    Steps inputLimit measure
      (∃ rest, accepts = rest + 1 ∧ Continues inputLimit wordStartTls socket upgrades rest) (do
        let session ← session.startTls
        return .again session) := by
  simp only [continues_startTls]
  cases upgrades with
  | nil =>
      rw [startTls, flushed.upgrades_eq]
      refine .inl ⟨_, rfl, ?_⟩
      rintro ⟨_, _, _, _, impossible, _⟩
      cases impossible
  | cons secured later =>
      obtain ⟨replying, put, replied⟩ := putLine_flushed .serviceReady flushed
      rw [startTls, flushed.upgrades_eq]
      dsimp only
      rw [put]
      show Steps _ _ _ ((replying.flush >>= fun session =>
        .ok { session with channel := secured.channel, upgrades := later }) >>= _)
      by_cases accepted : replying.channel.owes ≤ replying.channel.accepts
      · obtain ⟨sent, flushed_eq⟩ := Channel.flush_accepted accepted
        rw [Session.flush, attempt, flushed_eq]
        refine .inr (.inl ⟨{ replying with channel := secured.channel, upgrades := later }, rfl,
          ?_, ?_⟩)
        · rw [Session.size, flushed.upgrades_eq, List.map_cons, List.sum_cons] at smaller
          show secured.socket.unread.length + (later.map _).sum < measure
          omega
        · have here : At { replying with channel := secured.channel, upgrades := later }
              secured.socket later secured.accepts := ⟨rfl, rfl, rfl⟩
          refine here.good_iff.trans ⟨fun quits => ?_, ?_⟩
          · rw [replied.owes_eq, replied.accepts_eq] at accepted
            exact ⟨accepts - 1, by omega, secured, later, rfl, quits⟩
          · rintro ⟨_, _, _, _, same, quits⟩
            cases same
            exact quits
      · rw [Session.flush, attempt, Channel.flush_refused accepted]
        refine .inl ⟨_, rfl, ?_⟩
        rintro ⟨rest, rfl, _⟩
        rw [replied.owes_eq, replied.accepts_eq] at accepted
        exact accepted (Nat.le_add_left 1 rest)

/-- A command is obeyed. -/
theorem steps_obey {word : Text} {session : Session} {upgrades : List Peer}
    {accepts measure : Nat} (flushed : Flushed session socket upgrades accepts)
    (smaller : session.size < measure) :
    Steps inputLimit measure
      (∃ rest, accepts = rest + 1 ∧ Continues inputLimit word socket upgrades rest)
      (session.obey inputLimit word) := by
  rw [obey]
  by_cases data : word = wordData
  · subst data
    rw [if_pos rfl]
    exact steps_data flushed smaller
  rw [if_neg data]
  by_cases known : word = wordHelo ∨ word = wordMail ∨ word = wordRcpt
  · rw [if_pos known]
    have other : word ∉ [wordQuit, wordData, wordStartTls] := by
      obtain rfl | rfl | rfl := known <;> decide
    simp only [continues_other other]
    exact steps_putLine _ flushed smaller
  rw [if_neg known]
  by_cases quit : word = wordQuit
  · subst quit
    rw [if_pos rfl]
    obtain ⟨session', put, replied⟩ := putLine_flushed .serviceClosing flushed
    rw [put]
    refine .inr (.inr ⟨session', rfl, ?_⟩)
    rw [replied.owes_eq, replied.accepts_eq]
    constructor
    · exact fun positive => ⟨accepts - 1, by omega, continues_quit⟩
    · rintro ⟨rest, rfl, -⟩
      exact Nat.le_add_left 1 rest
  rw [if_neg quit]
  by_cases startTls : word = wordStartTls
  · subst startTls
    rw [if_pos rfl]
    exact steps_startTls flushed smaller
  · rw [if_neg startTls]
    have other : word ∉ [wordQuit, wordData, wordStartTls] := by
      simp only [List.mem_cons, List.not_mem_nil, or_false, not_or]
      exact ⟨quit, data, startTls⟩
    simp only [continues_other other]
    exact steps_putLine _ flushed smaller

variable (inputLimit) in
theorem steps_turn (session : Session) :
    Steps inputLimit session.size (Good inputLimit session) (session.turn inputLimit) := by
  rcases getLine_cases inputLimit session with
    ⟨exn, raised, nothing⟩ | ⟨accepts, line, next, session', got, here, read, flushed, _⟩
  · refine .inl ⟨exn, by rw [Session.turn, raised]; rfl, ?_⟩
    rintro ⟨accepts, here, quits⟩
    obtain ⟨line, next, read⟩ := quits.reads
    exact nothing ⟨accepts, line, next, here, read⟩
  · have shorter := Buffered.getLine_shorter read
    rw [here.good_iff, Session.turn, got]
    show Steps _ _ _ (command (.readFrom session.channel.socket line) >>= fun cmd =>
      session'.obey inputLimit cmd)
    by_cases named : Named (.readFrom session.channel.socket line)
    · rw [(command_eq _).1 named, quits_iff_of_read read named]
      refine steps_obey flushed ?_
      rw [Session.size, Session.size, flushed.socket_eq, flushed.upgrades_eq]
      omega
    · rw [(command_eq _).2 named]
      exact .inl ⟨_, rfl, fun quits => named (quits.named read)⟩

/-! ## Sessions and sequences of clients -/

variable (inputLimit) in
/-- The loop over commands ends, and what it leaves is accepted, exactly if the client goes on
well. -/
theorem run_cases {session : Session} {times : Nat} (enough : session.size < times) :
    (∃ exn, (turns (Session.turn inputLimit) times session >>= Session.flush) =
        .error (.raised exn) ∧ ¬Good inputLimit session) ∨
    ∃ result, (turns (Session.turn inputLimit) times session >>= Session.flush) = .ok result ∧
      Good inputLimit session := by
  induction times generalizing session with
  | zero => exact absurd enough (Nat.not_lt_zero _)
  | succ times ih =>
      rcases steps_turn inputLimit session with
        ⟨exn, raised, bad⟩ | ⟨next, again, smaller, good_iff⟩ | ⟨last, leave, good_iff⟩
      · rw [turns_stop raised]
        exact .inl ⟨exn, rfl, bad⟩
      · rw [turns_again again, ← good_iff]
        exact ih (by omega)
      · rw [turns_leave leave, ← good_iff]
        show (∃ exn, last.flush = _ ∧ _) ∨ ∃ result, last.flush = _ ∧ _
        by_cases accepted : last.channel.owes ≤ last.channel.accepts
        · obtain ⟨sent, flushed⟩ := Channel.flush_accepted accepted
          rw [Session.flush, attempt, flushed]
          exact .inr ⟨_, rfl, accepted⟩
        · rw [Session.flush, attempt, Channel.flush_refused accepted]
          exact .inl ⟨_, rfl, accepted⟩

variable (inputLimit) in
/-- A message is returned exactly for a client that quits, and every other client raises. -/
theorem getMessage_cases (client : Client) :
    (∃ exn, getMessage inputLimit client = .error (.raised exn) ∧ ¬client.Quits inputLimit) ∨
    ∃ message, getMessage inputLimit client = .ok message ∧ client.Quits inputLimit := by
  have flushed : Flushed { channel := client.peer.channel, upgrades := client.upgrades }
      client.peer.socket client.upgrades client.peer.accepts := ⟨rfl, rfl, rfl, rfl⟩
  obtain ⟨greeting, put, replied⟩ := putLine_flushed .serviceReady flushed
  have good_iff : Good inputLimit greeting ↔ client.Quits inputLimit := replied.good_iff
  have message_eq : getMessage inputLimit client =
      (turns (Session.turn inputLimit) (greeting.size + 1) greeting >>= Session.flush) >>=
        fun session => .ok session.received := by
    rw [getMessage, put, bind_assoc]
    rfl
  rw [message_eq, ← good_iff]
  rcases run_cases inputLimit (Nat.lt_succ_self greeting.size) with
    ⟨exn, raised, bad⟩ | ⟨result, ended, good⟩
  · rw [raised]
    exact .inl ⟨exn, rfl, bad⟩
  · rw [ended]
    exact .inr ⟨_, rfl, good⟩

/-- The task has gone back to accepting after a sequence of clients exactly if each of them quits.
It has called back for the clients that quit, up to the first that does not, and only for these. -/
theorem mailHandler_survives_iff (inputLimit : Positive) (clients : List Client) :
    ((mailHandler inputLimit clients).ended = none ↔
      ∀ client ∈ clients, client.Quits inputLimit) ∧
    (mailHandler inputLimit clients).ended ≠ some .unfinished ∧
    ∃ quitting, quitting <+: clients ∧ (∀ client ∈ quitting, client.Quits inputLimit) ∧
      List.Forall₂ (fun client message => getMessage inputLimit client = .ok message) quitting
        (mailHandler inputLimit clients).called := by
  induction clients with
  | nil => exact ⟨by simp [mailHandler], nofun, [], List.prefix_refl _, nofun, .nil⟩
  | cons client clients ih =>
      obtain ⟨survives_iff, finished, quitting, earlier, quit, called⟩ := ih
      rw [mailHandler]
      rcases getMessage_cases inputLimit client with
        ⟨exn, raised, bad⟩ | ⟨message, returned, good⟩
      · rw [raised]
        refine ⟨?_, nofun, [], List.nil_prefix, nofun, .nil⟩
        exact ⟨nofun, fun all => absurd (all client List.mem_cons_self) bad⟩
      · rw [returned]
        refine ⟨?_, finished, client :: quitting, ?_, ?_, .cons returned called⟩
        · rw [List.forall_mem_cons]
          exact survives_iff.trans ⟨fun all => ⟨good, all⟩, fun all => all.2⟩
        · exact List.prefix_cons_inj client |>.mpr earlier
        · exact List.forall_mem_cons.mpr ⟨good, quit⟩

/-- A client that sends some octets, closes, and accepts all replies. -/
private def sending (octets : Octets) : Client where
  peer := { socket := { arrivals := Arrival.leave octets [], timesOut := false }, accepts := 9 }

/-- An empty line ends the task, as a line that starts with a blank, a client that closes, or a
header line without a colon does; an empty line behind another one in the cache does not. -/
theorem mailHandler_fails :
    (mailHandler ⟨16384, by decide⟩ [sending [13, 10]]).ended =
        some (.raised .constraintError) ∧
      (mailHandler ⟨16384, by decide⟩ [sending [32, 13, 10]]).ended =
        some (.raised .constraintError) ∧
      (mailHandler ⟨16384, by decide⟩ [sending []]).ended = some (.raised .socketError) ∧
      (mailHandler ⟨16384, by decide⟩ [sending (wordData ++ crlf ++ wordMail ++ crlf ++ crlf ++
        [46] ++ crlf ++ wordQuit ++ crlf)]).ended = some (.raised .constraintError) ∧
      (mailHandler ⟨16384, by decide⟩
        [sending (wordHelo ++ crlf ++ crlf ++ wordQuit ++ crlf)]).ended = none := by
  decide +kernel

end Smtp
end AdaWebServer
