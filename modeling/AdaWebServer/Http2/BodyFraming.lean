import AdaWebServer.Http2.HeaderFraming
import AdaWebServer.Http2.Pieces
import AdaWebServer.Resources.MemoryStream

/-!
# Framing of a body

The calls of `To_Frames` on a message put the content of its body in data frames, as much at each
call as the flow-control windows of that moment allow.  They do so exactly when the body is not
empty and the headers fit in frames.
-/

namespace AdaWebServer
namespace Http2

open Resources

/-- What one call of `To_Frames` is given. -/
structure Offer where
  ctx : Context
  stream : Stream

namespace Offer

/-- The flow-control window that the call may use. -/
def window (offer : Offer) : Int :=
  min offer.stream.flowSendWindow offer.ctx.settings.flowSendWindow

/-- The maximum frame size. -/
def limit (offer : Offer) : Nat := offer.ctx.settings.values .maxFrameSize

/-- The window is a `Natural`, and the maximum frame size is positive and a `Length_Type`. -/
structure Valid (offer : Offer) : Prop where
  nonnegative : 0 ≤ offer.window
  representable : offer.window ≤ naturalLast
  positive_limit : 1 ≤ offer.limit
  limit_lt : offer.limit < 2 ^ 24

end Offer

/-- The octets that some offers allow in all. -/
def offered : List Offer → Nat
  | [] => 0
  | offer :: offers => offer.window.toNat + offered offers

/-- Offers to a message that is framed for the first time in the given context. -/
structure Offers (first : Context) (offers : List Offer) : Prop where
  valid : ∀ offer ∈ offers, offer.Valid
  first_ctx : ∀ offer ∈ offers.head?, offer.ctx = first

/-- Every frame of every call fits, and no call is without frames unless its window is. -/
def CallsFit : List (List Frame) → List Offer → Prop
  | [], _ => True
  | _ :: _, [] => False
  | frames :: calls, offer :: offers =>
      (frames ≠ [] ∨ offer.window = 0) ∧ (∀ frame ∈ frames, frame.length ≤ offer.limit) ∧
        CallsFit calls offers

namespace Message

/-- A message has a body as long as its mode and its stream stay. -/
theorem hasBody_of_mode {Resource : Type} {state after : Message Resource}
    (mode : after.mode = state.mode) (body : after.mBody.isSome = state.mBody.isSome) :
    after.hasBody = state.hasBody := by
  rw [hasBody, hasBody, mode, body]

variable {Resource : Type} [StreamType Resource]

/-- Call `To_Frames` with one offer after the other as long as more frames remain. -/
def answer : Message Resource → List Offer → Except Exn (List (List Frame) × Message Resource)
  | self, [] => .ok ([], self)
  | self, offer :: offers =>
      if self.moreFrames then do
        let (frames, self, _) ← self.toFrames offer.ctx offer.stream
        let (calls, self) ← self.answer offers
        return (frames :: calls, self)
      else
        .ok ([], self)

/-- The body has been sent once the windows have allowed all of it. -/
def finished (content : Octets) (offers : List Offer) : Bool :=
  content.length ≤ offered offers ∧ 0 < offered offers

/-- The calls do not raise; their data frames hold the content as far as the windows allow; no frame
is too long, and `End_Stream_Flag` is on the last frame alone, behind which no frames remain. -/
def BodyFramed (content : Octets) (self : Message Resource) (offers : List Offer) : Prop :=
  ∃ calls final, self.answer offers = .ok (calls, final) ∧
    payloads calls.flatten = content.take (offered offers) ∧
    Marked (finished content offers) calls.flatten ∧
    final.moreFrames = !finished content offers ∧ CallsFit calls offers

/-! ## One call -/

section Call

variable [Documented Resource]

/-- A message of which the given number of octets of its content have been put in frames. -/
structure Ready (content : Octets) (sent : Nat) (state : Message Resource) : Prop where
  hasBody : state.hasBody = true
  whole : state.ranges = []
  body : ∃ file position, state.mBody = some file ∧ Documented.Holds file content position
  sent_eq : state.sent = sent
  unsent : state.bSent = false
  unfinished : sent < content.length

/-- A message after some octets of its content have been put in frames. -/
structure After (content : Octets) (sent : Nat) (state : Message Resource) : Prop where
  hSent : state.hSent = true
  hasBody : state.hasBody = true
  bSent : state.bSent = decide (content.length ≤ sent)
  ready : sent < content.length → Ready content sent state

/-- `From_Stream` puts in frames what the window allows. -/
theorem fromStream_spec {content : Octets} {sent limit fcw : Nat} {self : Message Resource}
    {settings : Connection} {streamId : StreamId} (list : List Frame)
    (ready : Ready content sent self) (sentHeaders : self.hSent = true)
    (maxFrameSize : settings.values .maxFrameSize = limit) (nonzero : 1 ≤ limit)
    (small : limit < 2 ^ 24) (window : 0 < fcw) :
    ∃ frames after, self.fromStream settings streamId list fcw = .ok (list ++ frames, after) ∧
      Pieces limit ((content.drop sent).take fcw) (decide (content.length ≤ sent + fcw)) frames ∧
      After content (sent + fcw) after := by
  obtain ⟨file, position, body, holds⟩ := ready.body
  obtain ⟨start, seeked, start_holds⟩ := Documented.setIndex_within holds ready.unfinished
  obtain ⟨last, final, frames, behind, outcome, last_holds, list_eq, bSent, pieces⟩ :=
    @Framing.sendPieces_delivers _ _ _ streamId content limit (fcw + 1) _
      { list, fcw, bSent := self.bSent } (min fcw limit) _ start_holds
      ready.unfinished (by omega) (min_le_left _ _) (min_le_right _ _) (Nat.lt_succ_self _)
      ready.unsent
  have size : settings.maxFrameSize = .ok limit := by
    rw [Connection.maxFrameSize, maxFrameSize, if_pos small]
  have converted : positive limit = .ok limit :=
    positive_of_le nonzero (by simp only [naturalLast]; omega)
  have sent_file : Framing.sendFile streamId file { list, fcw, bSent := self.bSent }
      (self.sent + 1) (min fcw limit) self.sent =
        .ok (last, final, min (sent + fcw) content.length) := by
    rw [Framing.sendFile, ready.sent_eq, seeked]
    exact outcome
  refine ⟨frames, { self with
      mBody := some last, bSent := final.bSent, sent := min (sent + fcw) content.length },
    ?_, pieces, ?_⟩
  · rw [fromStream, size, ok_bind, converted, ok_bind, body]
    simp only [ready.whole, ne_eq, not_true_eq_false, if_false, sent_file, ok_bind, pure_eq_ok,
      list_eq]
  · have hasBody : hasBody { self with
        mBody := some last, bSent := final.bSent, sent := min (sent + fcw) content.length } =
          true := by
      rw [← ready.hasBody]
      exact hasBody_of_mode rfl (by rw [body]; rfl)
    refine ⟨sentHeaders, hasBody, bSent, fun more => ?_⟩
    exact
      { hasBody := hasBody
        whole := ready.whole
        body := ⟨last, behind, rfl, last_holds⟩
        sent_eq := min_eq_left more.le
        unsent := bSent.trans (decide_eq_false (not_le.mpr more))
        unfinished := more }

/-- What a call leaves when it starts from the given number of octets: frames behind those that
were there, and the message. -/
structure Delivered (content : Octets) (sent limit fcw : Nat) (frames : List Frame)
    (after : Message Resource) : Prop where
  payload : payloads frames = (content.drop sent).take fcw
  marked : Marked (decide (content.length ≤ sent + fcw)) frames
  sizes : ∀ frame ∈ frames, frame.length ≤ limit
  present : frames ≠ [] ∨ fcw = 0
  after : After content (sent + fcw) after

/-- The data frames of a call. -/
theorem sendBody_spec {content : Octets} {sent limit : Nat} {self : Message Resource}
    (settings : Connection) (streamId : StreamId) (fcw : Nat) (list : List Frame)
    (ready : Ready content sent self) (sentHeaders : self.hSent = true)
    (maxFrameSize : settings.values .maxFrameSize = limit) (nonzero : 1 ≤ limit)
    (small : limit < 2 ^ 24) :
    ∃ frames after, self.sendBody settings streamId list fcw = .ok (list ++ frames, after) ∧
      Delivered content sent limit fcw frames after := by
  rcases Nat.eq_zero_or_pos fcw with rfl | window
  · refine ⟨[], self, ?_, ?_⟩
    · rw [sendBody, if_neg (by simp), List.append_nil]
    · have unfinished := ready.unfinished
      have more : decide (content.length ≤ sent + 0) = false := decide_eq_false (by omega)
      exact
        { payload := by simp [payloads]
          marked := more
          sizes := by simp
          present := Or.inr rfl
          after := ⟨sentHeaders, ready.hasBody, ready.unsent.trans more.symm, fun _ => ready⟩ }
  · obtain ⟨frames, after, framed, pieces, done⟩ :=
      fromStream_spec list ready sentHeaders maxFrameSize nonzero small window
    obtain ⟨last, last_eq⟩ : ∃ last, (list ++ frames).getLast? = some last ∧ last.kind = .data := by
      refine ⟨frames.getLast pieces.nonempty, ?_, pieces.kinds _ (List.getLast_mem _)⟩
      rw [List.getLast?_append_of_ne_nil _ pieces.nonempty, List.getLast?_eq_some_getLast]
    refine ⟨frames, after, ?_, ?_⟩
    · rw [sendBody, if_pos ⟨ready.hasBody, window⟩, framed, ok_bind]
      simp [last_eq]
    · exact ⟨pieces.payload, pieces.marked, pieces.sizes, Or.inl pieces.nonempty, done⟩

/-- A call that finds the header frames made already or makes them now. -/
theorem toFrames_spec {content : Octets} {sent : Nat} {self framed : Message Resource}
    {offer : Offer} {list : List Frame} {table : Hpack.DynamicTable} (valid : offer.Valid)
    (headers : self.sendHeaders offer.ctx offer.stream.id = .ok (list, framed, table))
    (ready : Ready content sent framed) (sentHeaders : framed.hSent = true)
    (blocks : ∀ frame ∈ list, OfBlock offer.stream.id frame ∧ frame.length ≤ offer.limit) :
    ∃ frames after, self.toFrames offer.ctx offer.stream = .ok (frames, after, table) ∧
      Delivered content sent offer.limit offer.window.toNat frames after := by
  obtain ⟨frames, after, sent_body, delivered⟩ :=
    sendBody_spec offer.ctx.settings offer.stream.id offer.window.toNat list ready sentHeaders rfl valid.positive_limit valid.limit_lt
  have window : naturalOfInt offer.window = .ok offer.window.toNat :=
    if_pos ⟨valid.nonnegative, valid.representable⟩
  have silent : payloads list = [] := payloads_of_kinds fun frame member => by
    rcases (blocks frame member).1.kind with kind | kind <;> rw [kind] <;> decide
  refine ⟨list ++ frames, after, ?_, ?_⟩
  · rw [toFrames, ← Offer.window, window, ok_bind, headers, ok_bind]
    simp [sent_body]
  · exact
      { payload := by rw [payloads_append, silent, List.nil_append, delivered.payload]
        marked := (marked_false_of_quiet fun frame member => (blocks frame member).1.quiet).append
          delivered.marked
        sizes := fun frame member => (List.mem_append.mp member).elim
          (fun front => (blocks frame front).2) (delivered.sizes frame)
        present := delivered.present.imp_left fun nonempty =>
          List.append_ne_nil_of_right_ne_nil _ nonempty
        after := delivered.after }

/-- A later call. -/
theorem toFrames_later {content : Octets} {sent : Nat} {self : Message Resource} {offer : Offer}
    (valid : offer.Valid) (ready : Ready content sent self) (sentHeaders : self.hSent = true) :
    ∃ frames after table, self.toFrames offer.ctx offer.stream = .ok (frames, after, table) ∧
      Delivered content sent offer.limit offer.window.toNat frames after := by
  obtain ⟨frames, after, framed, delivered⟩ :=
    toFrames_spec valid
      (show self.sendHeaders offer.ctx offer.stream.id = .ok ([], self, offer.ctx.tabEnc) from
        if_pos sentHeaders) ready sentHeaders (by simp)
  exact ⟨frames, after, _, framed, delivered⟩

/-! ## All calls -/

/-- The calls on a message of which the given number of octets have been put in frames. -/
def Answers (content : Octets) (sent : Nat) (state : Message Resource) (offers : List Offer) :
    Prop :=
  ∃ calls final, state.answer offers = .ok (calls, final) ∧
    payloads calls.flatten = (content.drop sent).take (offered offers) ∧
    Marked (decide (sent < content.length ∧ content.length ≤ sent + offered offers))
      calls.flatten ∧
    final.moreFrames = !decide (content.length ≤ sent + offered offers) ∧ CallsFit calls offers

theorem After.moreFrames {content : Octets} {sent : Nat} {state : Message Resource}
    (after : After content sent state) :
    state.moreFrames = !decide (content.length ≤ sent) := by
  rw [Message.moreFrames, if_pos after.hasBody, after.bSent]

/-- No call is made once the body has been sent. -/
theorem After.answer_finished {content : Octets} {sent : Nat} {state : Message Resource}
    (after : After content sent state) (last : content.length ≤ sent) (offers : List Offer) :
    state.answer offers = .ok ([], state) := by
  cases offers with
  | nil => rfl
  | cons offer offers =>
      rw [answer, after.moreFrames, decide_eq_true last]
      rfl

/-- One more call in front. -/
theorem answers_cons {content : Octets} {sent : Nat} {state next : Message Resource}
    {offer : Offer} {offers : List Offer} {frames : List Frame} {table : Hpack.DynamicTable}
    (valid : offer.Valid) (more : sent < content.length) (unfinished : state.moreFrames = true)
    (framed : state.toFrames offer.ctx offer.stream = .ok (frames, next, table))
    (delivered : Delivered content sent offer.limit offer.window.toNat frames next)
    (rest : Answers content (sent + offer.window.toNat) next offers) :
    Answers content sent state (offer :: offers) := by
  obtain ⟨calls, final, answered, payload, marked, ended, fit⟩ := rest
  have sum : sent + offered (offer :: offers) =
      sent + offer.window.toNat + offered offers := by
    rw [offered, Nat.add_assoc]
  refine ⟨frames :: calls, final, ?_, ?_, ?_, ?_, delivered.present.imp_right ?_,
    delivered.sizes, fit⟩
  · rw [answer, if_pos unfinished, framed, ok_bind]
    simp [answered]
  · rw [List.flatten_cons, payloads_append, delivered.payload, payload, offered, List.take_add,
      List.drop_drop]
  · have front := delivered.marked
    rw [List.flatten_cons, sum]
    by_cases last : content.length ≤ sent + offer.window.toNat
    · -- no call is made behind the frame that ends the stream
      rw [delivered.after.answer_finished last] at answered
      cases answered
      rw [decide_eq_true last] at front
      rw [List.flatten_nil, List.append_nil, decide_eq_true (by omega)]
      exact front
    · rw [decide_eq_false last] at front
      simp only [not_le.mp last, true_and] at marked
      simp only [more, true_and]
      exact front.append marked
  · rw [ended, sum]
  · intro zero
    exact le_antisymm (Int.toNat_eq_zero.mp zero) valid.nonnegative

/-- The calls on a message whose headers have been framed. -/
theorem answers_of_after {content : Octets} {offers : List Offer}
    (valid : ∀ offer ∈ offers, offer.Valid) :
    ∀ {sent : Nat} {state : Message Resource}, After content sent state →
      Answers content sent state offers := by
  induction offers with
  | nil =>
      intro sent state after
      refine ⟨[], state, rfl, by simp [payloads, offered], ?_, after.moreFrames, trivial⟩
      exact decide_eq_false (by simp only [offered]; omega)
  | cons offer offers ih =>
      intro sent state after
      have valid_offer := valid offer List.mem_cons_self
      by_cases more : sent < content.length
      · obtain ⟨frames, next, table, framed, delivered⟩ :=
          toFrames_later valid_offer (after.ready more) after.hSent
        have unfinished : state.moreFrames = true := by
          rw [after.moreFrames, decide_eq_false (not_le.mpr more)]
          rfl
        exact answers_cons valid_offer more unfinished framed delivered
          (ih (fun other member => valid other (List.mem_cons_of_mem offer member))
            delivered.after)
      · have last := not_lt.mp more
        refine ⟨[], state, after.answer_finished last _, ?_, ?_, ?_, trivial⟩
        · rw [List.drop_eq_nil_of_le last, List.take_nil]
          rfl
        · exact decide_eq_false fun both => more both.1
        · rw [after.moreFrames, decide_eq_true last, decide_eq_true (by omega)]

/-- A message that has not been framed, with a body of the given content. -/
structure Fresh (content : Octets) (state : Message Resource) : Prop where
  hasBody : state.hasBody = true
  whole : state.ranges = []
  body : ∃ file position, state.mBody = some file ∧ Documented.Holds file content position
  unsent : state.sent = 0 ∧ state.bSent = false
  unframed : state.hSent = false

/-- The message once its headers have been framed. -/
def framedHeaders (self : Message Resource) : Message Resource :=
  { self with headers := self.withContentLength, hSent := true }

/-- What the first call makes of the headers. -/
theorem sendHeaders_eq_ok_iff {content : Octets} {self framed : Message Resource} {ctx : Context}
    {streamId : StreamId} {list : List Frame} {table : Hpack.DynamicTable}
    (fresh : Fresh content self) :
    self.sendHeaders ctx streamId = .ok (list, framed, table) ↔
      framed = self.framedHeaders ∧ ∃ maxSize,
        positive ctx.settings.maxHeaderListSize = .ok maxSize ∧
        headerFrames ctx.stack ctx.settings streamId maxSize self.withContentLength [] 0 true ctx.tabEnc =
          .ok (list, table) := by
  have body : hasBody { self with headers := self.withContentLength } = true := fresh.hasBody
  rw [sendHeaders, if_neg (by simp [fresh.unframed])]
  constructor
  · intro sent
    obtain ⟨⟨frames, after⟩, handled, sent⟩ := bind_eq_ok_iff.mp sent
    cases sent
    obtain ⟨maxSize, size_eq, handled⟩ := bind_eq_ok_iff.mp handled
    obtain ⟨⟨frames, after⟩, made, handled⟩ := bind_eq_ok_iff.mp handled
    simp only [body, if_true] at handled
    cases handled
    exact ⟨rfl, maxSize, size_eq, made⟩
  · rintro ⟨rfl, maxSize, size_eq, made⟩
    have handled : handleHeaders { self with headers := self.withContentLength } ctx streamId =
        .ok (list, table) := by
      rw [handleHeaders, size_eq, ok_bind, made, ok_bind]
      exact if_pos body
    simp only [handled, ok_bind, pure_eq_ok]
    rfl

/-- The first call frames the headers exactly when their parts fit. -/
theorem sendHeaders_fit_iff {content : Octets} {self : Message Resource} {ctx : Context}
    (streamId : StreamId) {limit : Nat} (fresh : Fresh content self) (small : limit < 2 ^ 24) :
    (∃ list table, self.sendHeaders ctx streamId = .ok (list, self.framedHeaders, table) ∧
        ∀ frame ∈ list, OfBlock streamId frame ∧ frame.length ≤ limit) ↔
      HeadersFit ctx limit self.withContentLength := by
  simp only [sendHeaders_eq_ok_iff fresh, true_and]
  constructor
  · rintro ⟨list, table, ⟨maxSize, size_eq, made⟩, fits⟩
    obtain ⟨parts, parts_eq, fit⟩ := (headerFrames_fit_iff small).mp
      ⟨_, _, made, fun frame member => (fits frame member).2⟩
    exact ⟨maxSize, parts, size_eq, parts_eq, fit⟩
  · rintro ⟨maxSize, parts, size_eq, parts_eq, fit⟩
    obtain ⟨list, table, made, sizes⟩ :=
      (@headerFrames_fit_iff ctx.stack ctx.settings streamId _ _ small _ _ _ true _).mpr
        ⟨parts, parts_eq, fit⟩
    exact ⟨list, table, ⟨maxSize, size_eq, made⟩, fun frame member =>
      ⟨headerFrames_ofBlock made frame member, sizes frame member⟩⟩

theorem Fresh.ready {content : Octets} {self : Message Resource} (fresh : Fresh content self)
    (nonempty : content ≠ []) : Ready content 0 self.framedHeaders where
  hasBody := fresh.hasBody
  whole := fresh.whole
  body := fresh.body
  sent_eq := fresh.unsent.1
  unsent := fresh.unsent.2
  unfinished := List.length_pos_iff.mpr nonempty

/-- A body that is not empty, with headers that fit, is framed whatever is offered. -/
theorem bodyFramed_of_fit {content : Octets} {self : Message Resource} {first : Context}
    {offers : List Offer} (fresh : Fresh content self) (nonempty : content ≠ [])
    (fit : HeadersFit first (first.settings.values .maxFrameSize) self.withContentLength)
    (offering : Offers first offers) : BodyFramed content self offers := by
  have length := List.length_pos_iff.mpr nonempty
  have unfinished : self.moreFrames = true := by
    rw [Message.moreFrames, if_pos fresh.hasBody, fresh.unsent.2]
    rfl
  have answers : Answers content 0 self offers := by
    cases offers with
    | nil =>
        refine ⟨[], self, rfl, rfl, ?_, ?_, trivial⟩
        · exact decide_eq_false (by simp only [offered]; omega)
        · rw [unfinished, offered, decide_eq_false (by omega)]
          rfl
    | cons offer offers =>
        have valid := offering.valid offer List.mem_cons_self
        obtain rfl : offer.ctx = first := offering.first_ctx offer rfl
        obtain ⟨list, table, sent, blocks⟩ :=
          (sendHeaders_fit_iff offer.stream.id fresh valid.limit_lt).mpr fit
        obtain ⟨frames, next, framed, delivered⟩ :=
          toFrames_spec valid sent (fresh.ready nonempty) rfl blocks
        exact answers_cons valid length unfinished framed delivered
          (answers_of_after
            (fun other member => offering.valid other (List.mem_cons_of_mem offer member))
            delivered.after)
  obtain ⟨calls, final, answered, payload, marked, ended, calls_fit⟩ := answers
  have done : decide (0 < content.length ∧ content.length ≤ 0 + offered offers) =
      finished content offers := by
    rw [finished]
    exact decide_eq_decide.mpr (by omega)
  have last : decide (content.length ≤ 0 + offered offers) = finished content offers := by
    rw [finished]
    exact decide_eq_decide.mpr (by omega)
  exact ⟨calls, final, answered, payload, done ▸ marked, last ▸ ended, calls_fit⟩

/-! ## Empty bodies -/

/-- `From_Stream` makes no frame of an empty body. -/
theorem fromStream_empty {self after : Message Resource} {settings : Connection}
    {streamId : StreamId} {list frames : List Frame} {fcw : Nat} {file : Resource}
    {position : Nat} (whole : self.ranges = []) (body : self.mBody = some file)
    (holds : Documented.Holds file [] position) (unsent : self.sent = 0)
    (done : self.fromStream settings streamId list fcw = .ok (frames, after)) :
    frames = list ∧ after.bSent = self.bSent := by
  obtain ⟨maxFrameSize, -, done⟩ := bind_eq_ok_iff.mp done
  obtain ⟨limit, -, done⟩ := bind_eq_ok_iff.mp done
  simp only [body, whole, ne_eq, not_true_eq_false, if_false] at done
  obtain ⟨⟨last, framing, sent⟩, sent_file, done⟩ := bind_eq_ok_iff.mp done
  cases done
  obtain ⟨start, seeked, pieces⟩ := bind_eq_ok_iff.mp sent_file
  rw [unsent] at seeked
  have start_holds := Documented.setIndex_beyond holds (Nat.zero_le 0) seeked
  obtain ⟨⟨data, read_file⟩, read, pieces⟩ := bind_eq_ok_iff.mp pieces
  obtain ⟨rfl, read_holds⟩ := Documented.read_end start_holds read
  have ended : StreamType.endOfFile read_file = true :=
    (Documented.endOfFile_iff read_holds).mpr (Nat.zero_le _)
  simp only [ended, if_true, ne_eq, not_true_eq_false, if_false, pure_eq_ok, ok_bind] at pieces
  cases pieces
  exact ⟨rfl, rfl⟩

/-- A call that has only an empty body left raises. -/
theorem toFrames_empty {self : Message Resource} {offer : Offer} {file : Resource}
    {position : Nat} (hasBody : self.hasBody = true) (whole : self.ranges = [])
    (body : self.mBody = some file) (holds : Documented.Holds file [] position)
    (unsent : self.sent = 0) (sentHeaders : self.hSent = true) (window : 0 < offer.window) :
    ∃ exn, self.toFrames offer.ctx offer.stream = .error exn := by
  cases called : self.toFrames offer.ctx offer.stream with
  | error exn => exact ⟨exn, rfl⟩
  | ok outcome =>
      obtain ⟨fcw, fcw_eq, called⟩ := bind_eq_ok_iff.mp called
      obtain ⟨⟨list, framed, table⟩, headers, called⟩ := bind_eq_ok_iff.mp called
      rw [sendHeaders, if_pos sentHeaders] at headers
      cases headers
      have fcw_pos : 0 < fcw := by
        unfold naturalOfInt at fcw_eq
        split at fcw_eq
        · cases fcw_eq
          rw [Offer.window] at window
          omega
        · cases fcw_eq
      obtain ⟨⟨frames, after⟩, sent_body, -⟩ := bind_eq_ok_iff.mp called
      simp only [sendBody, if_pos (And.intro hasBody fcw_pos)] at sent_body
      obtain ⟨⟨list, last⟩, framed, sent_body⟩ := bind_eq_ok_iff.mp sent_body
      obtain ⟨rfl, -⟩ := fromStream_empty whole body holds unsent framed
      cases sent_body

/-- A first call without a window makes the header frames alone. -/
theorem toFrames_windowless {content : Octets} {self next : Message Resource} {offer : Offer}
    {frames : List Frame} {table : Hpack.DynamicTable} (fresh : Fresh content self)
    (windowless : offer.window = 0)
    (called : self.toFrames offer.ctx offer.stream = .ok (frames, next, table)) :
    self.sendHeaders offer.ctx offer.stream.id = .ok (frames, self.framedHeaders, table) ∧
      next = self.framedHeaders := by
  rw [Offer.window] at windowless
  obtain ⟨fcw, fcw_eq, called⟩ := bind_eq_ok_iff.mp called
  rw [windowless] at fcw_eq
  obtain rfl : 0 = fcw := Except.ok.inj fcw_eq
  obtain ⟨⟨list, framed, after⟩, headers, called⟩ := bind_eq_ok_iff.mp called
  simp only [sendBody, Nat.lt_irrefl, and_false, if_false, ok_bind, pure_eq_ok] at called
  cases called
  obtain ⟨rfl, -⟩ := (sendHeaders_eq_ok_iff fresh).mp headers
  exact ⟨headers, rfl⟩

/-- The body of a message is framed whatever is offered exactly when it is not empty and the headers
fit in frames. -/
theorem bodyFramed_iff {content : Octets} {self : Message Resource} {first : Context}
    (fresh : Fresh content self) (window : 0 ≤ first.settings.flowSendWindow)
    (positive_limit : 1 ≤ first.settings.values .maxFrameSize)
    (limit_lt : first.settings.values .maxFrameSize < 2 ^ 24) :
    (∀ offers, Offers first offers → BodyFramed content self offers) ↔
      content ≠ [] ∧ HeadersFit first (first.settings.values .maxFrameSize)
        self.withContentLength := by
  constructor
  · intro framed
    -- a call without a window, and then a call with one
    let shut : Offer := ⟨first, Stream.create 1 0⟩
    let single : Offer :=
      ⟨{ first with settings := { first.settings with flowSendWindow := 1 } }, Stream.create 1 1⟩
    have shut_window : shut.window = 0 := min_eq_left window
    have single_window : single.window = 1 := rfl
    have offering : Offers first [shut, single] := by
      refine ⟨?_, by simp [shut]⟩
      simp only [List.mem_cons, List.not_mem_nil, or_false, forall_eq_or_imp, forall_eq]
      refine ⟨⟨shut_window.ge, ?_, positive_limit, limit_lt⟩,
        ⟨?_, ?_, positive_limit, limit_lt⟩⟩
      · rw [shut_window]
        decide
      · rw [single_window]
        decide
      · rw [single_window]
        decide
    have unfinished : self.moreFrames = true := by
      rw [Message.moreFrames, if_pos fresh.hasBody, fresh.unsent.2]
      rfl
    obtain ⟨calls, final, answered, -, -, -, fit⟩ := framed _ offering
    rw [answer, if_pos unfinished] at answered
    obtain ⟨⟨frames, next, table⟩, called, answered⟩ := bind_eq_ok_iff.mp answered
    obtain ⟨⟨later, last⟩, rest, answered⟩ := bind_eq_ok_iff.mp answered
    cases answered
    obtain ⟨sent, rfl⟩ := toFrames_windowless fresh shut_window called
    refine ⟨?_, ?_⟩
    · rintro rfl
      obtain ⟨file, position, body, holds⟩ := fresh.body
      have more : self.framedHeaders.moreFrames = true := by
        rw [Message.moreFrames, if_pos (show self.framedHeaders.hasBody = true from fresh.hasBody)]
        exact congrArg not fresh.unsent.2
      obtain ⟨exn, raised⟩ : ∃ exn, self.framedHeaders.toFrames single.ctx single.stream =
          .error exn := toFrames_empty fresh.hasBody fresh.whole body holds fresh.unsent.1 rfl (by rw [single_window]; decide)
      rw [answer, if_pos more, raised] at rest
      cases rest
    · obtain ⟨-, maxSize, size_eq, made⟩ := (sendHeaders_eq_ok_iff fresh).mp sent
      refine (sendHeaders_fit_iff 1 fresh limit_lt).mp
        ⟨frames, table, sent, fun frame member => ⟨headerFrames_ofBlock made frame member, ?_⟩⟩
      exact fit.2.1 frame member
  · rintro ⟨nonempty, fit⟩ offers offering
    exact bodyFramed_of_fit fresh nonempty fit offering

end Call

/-! ## Two bodies -/

/-- A connection with the settings of this endpoint, before any header block. -/
def freshContext : Context where
  config := Config.default
  stack := 65536
  tabEnc := Hpack.DynamicTable.empty
  tabDec := Hpack.DynamicTable.empty
  settings := Connection.configured Config.default

/-- The answer to a request, with a memory stream of one block that holds the given octets. -/
def greeting (block : Octets) : Message Resources.MemoryStream where
  mode := .message
  ranges := []
  streamId := 1
  headers := [(text ":status", text "200")]
  sent := 0
  hSent := false
  bSent := false
  mBody := some
    { blocks := [block]
      lastLength := block.length
      length := block.length
      current := [block]
      currentOffset := 0 }

theorem bodyFramed_greeting :
    BodyFramed (text "hello") (greeting (text "hello"))
      [⟨freshContext, .create 1 3⟩, ⟨freshContext, .create 1 65535⟩] := by
  refine (@bodyFramed_iff _ _ _ _ _ freshContext ?_ ?_ ?_ ?_).mpr ⟨?_, ?_⟩ _ ?_
  · refine ⟨by decide +kernel, rfl, ⟨_, 0, rfl, ?_⟩, ⟨rfl, rfl⟩, rfl⟩
    exact
      { filled := ⟨by decide +kernel, fun _ => by decide +kernel, by decide +kernel⟩
        content_eq := by decide +kernel
        length_eq := rfl
        current_suffix := List.suffix_rfl
        designates := Or.inl (by decide +kernel)
        within := Nat.zero_le _
        remaining := by decide +kernel }
  · decide +kernel
  · decide +kernel
  · decide +kernel
  · decide +kernel
  · exact ⟨1048576, [(greeting (text "hello")).withContentLength], by decide +kernel,
      by decide +kernel, by decide +kernel⟩
  · refine ⟨?_, by rintro offer ⟨⟩; rfl⟩
    simp only [List.mem_cons, List.not_mem_nil, or_false, forall_eq_or_imp, forall_eq]
    exact ⟨⟨by decide +kernel, by decide +kernel, by decide +kernel, by decide +kernel⟩,
      ⟨by decide +kernel, by decide +kernel, by decide +kernel, by decide +kernel⟩⟩

/-- The answer of an empty file. -/
def emptyFile : Message Resources.DiskStream where
  mode := .file
  ranges := []
  streamId := 1
  headers := [(text ":status", text "200")]
  sent := 0
  hSent := false
  bSent := false
  mBody := some { file := [], index := 0 }

/-- The answer of an empty file is called for again after its end, and the next call raises. -/
theorem emptyFile_not_framed :
    ¬ ∀ offers, Offers freshContext offers → BodyFramed [] emptyFile offers := by
  intro framed
  have offering : Offers freshContext
      [⟨freshContext, Stream.create 1 65535⟩, ⟨freshContext, Stream.create 1 65535⟩] := by
    refine ⟨?_, fun offer first => by cases first; rfl⟩
    simp only [List.mem_cons, List.not_mem_nil, or_false, or_self, forall_eq]
    exact ⟨by decide +kernel, by decide +kernel, by decide +kernel, by decide +kernel⟩
  obtain ⟨calls, final, answered, -⟩ := framed _ offering
  have raised : emptyFile.answer
      [⟨freshContext, Stream.create 1 65535⟩, ⟨freshContext, Stream.create 1 65535⟩] =
        .error .constraintError := by
    rfl
  rw [raised] at answered
  cases answered

end Message
end Http2
end AdaWebServer
