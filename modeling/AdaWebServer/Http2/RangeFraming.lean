import AdaWebServer.Http2.BodyFraming
import AdaWebServer.Http2.RangePieces

/-!
# Framing of ranges

The calls of `To_Frames` on a message that answers a range request.  Nothing is kept of the ranges
that earlier calls have put in frames, so that the first window that is not zero has to allow the
whole range.  Several ranges never become a `multipart/byteranges` body.
-/

namespace AdaWebServer
namespace Http2

open Framing (parseContentRange sendFileRanges)
open Resources

/-! ## The size of the body -/

/-- The size of the body that answers a range header, for a resource of some length. -/
def bodySize (ranges : Text) (length : Nat) : Except Exn Nat :=
  List.length <$> rangesBody ranges (List.replicate length 0)

/-- The size depends on the length of the resource alone. -/
theorem length_rangesBody {content other : Octets} (same : content.length = other.length)
    (ranges : Text) :
    List.length <$> rangesBody ranges content = List.length <$> rangesBody ranges other := by
  rw [rangesBody, rangesBody]
  generalize specsOf ranges = specs
  split
  · next spec =>
      rw [same]
      cases parseContentRange spec other.length with
      | error exn => exact (rfl : Except.error exn = Except.error exn)
      | ok bounds =>
          obtain ⟨first, last⟩ := bounds
          show Except.ok (slice content first last).length =
            Except.ok (slice other first last).length
          rw [length_slice same]
  · rw [same]
    cases specs.mapM (parseContentRange · (other.length : Int)) with
    | error exn => exact (rfl : Except.error exn = Except.error exn)
    | ok all => exact congrArg Except.ok (length_byteranges same all)

theorem bodySize_eq_ok {ranges : Text} {content body : Octets}
    (body_eq : rangesBody ranges content = .ok body) :
    bodySize ranges content.length = .ok body.length := by
  rw [bodySize, length_rangesBody List.length_replicate, body_eq]
  rfl

/-- Where there is a size, every resource of the length has a body of that size. -/
theorem exists_rangesBody {ranges : Text} {content : Octets} {size : Nat}
    (size_eq : bodySize ranges content.length = .ok size) :
    ∃ body, rangesBody ranges content = .ok body ∧ body.length = size := by
  rw [bodySize, length_rangesBody List.length_replicate] at size_eq
  cases body_eq : rangesBody ranges content with
  | error exn =>
      rw [body_eq] at size_eq
      cases size_eq
  | ok body =>
      rw [body_eq] at size_eq
      exact ⟨body, rfl, Except.ok.inj size_eq⟩

/-! ## Windows -/

/-- The windows that are not zero. -/
def openings (offers : List Offer) : List Nat :=
  (offers.map (·.window.toNat)).filter (0 < ·)

/-- There is no window but zero; or there is a single range, and the first other window allows all
of it, which is not empty, or a part of it and is the last one. -/
def Allows (single : Prop) (size : Nat) : List Nat → Prop
  | [] => True
  | window :: later => single ∧ (0 < size ∧ size ≤ window ∨ window < size ∧ later = [])

instance (single : Prop) [Decidable single] (size : Nat) :
    (windows : List Nat) → Decidable (Allows single size windows)
  | [] => inferInstanceAs (Decidable True)
  | _ :: _ => inferInstanceAs (Decidable (_ ∧ _))

theorem offered_eq_sum (offers : List Offer) : offered offers = (openings offers).sum := by
  induction offers with
  | nil => rfl
  | cons offer offers ih =>
      rw [offered, ih, openings, openings, List.map_cons]
      by_cases shut : offer.window.toNat = 0
      · rw [List.filter_cons_of_neg (by simp [shut]), shut, Nat.zero_add]
      · rw [List.filter_cons_of_pos (by simp; omega), List.sum_cons]

theorem offered_pos {offers : List Offer} (opens : openings offers ≠ []) : 0 < offered offers := by
  obtain ⟨window, later, opening⟩ := List.exists_cons_of_ne_nil opens
  have among : window ∈ openings offers := opening ▸ List.mem_cons_self
  have positive : 0 < window := by simpa using List.of_mem_filter among
  rw [offered_eq_sum, opening, List.sum_cons]
  omega

namespace Message

variable {Resource : Type} [StreamType Resource]

section Asked

variable [Documented Resource] {ranges : Text} {content : Octets} {self framed : Message Resource}

/-- A message that answers a range request, of which the body has not been sent. -/
structure Asked (ranges : Text) (content : Octets) (state : Message Resource) : Prop where
  hasBody : state.hasBody = true
  ranges_eq : state.ranges = ranges
  body : ∃ file position, state.mBody = some file ∧ Documented.Holds file content position
  unsent : state.bSent = false

/-- The header frames have been made, or the first call can make them. -/
def HeadersMade (state : Message Resource) (offers : List Offer) : Prop :=
  state.hSent = true ∨
    ∀ offer ∈ offers.head?, ∃ made, state.sendHeaders offer.ctx offer.stream.id = .ok made

/-- The calls put in frames what the windows allow of the body, and no frames remain once it has
been sent. -/
def RangesFramed (content : Octets) (self : Message Resource) (offers : List Offer) : Prop :=
  ∃ body, rangesBody self.ranges content = .ok body ∧
    ∃ calls final, self.answer offers = .ok (calls, final) ∧
      payloads calls.flatten = body.take (offered offers) ∧
      final.moreFrames = !finished body offers

theorem Asked.moreFrames (asked : Asked ranges content self) : self.moreFrames = true := by
  rw [Message.moreFrames, if_pos asked.hasBody, asked.unsent]
  rfl

/-- The header frames hold nothing of the body. -/
theorem sendHeaders_asked {ctx : Context} {streamId : StreamId} {list : List Frame}
    {table : Hpack.DynamicTable} (asked : Asked ranges content self)
    (headers : self.sendHeaders ctx streamId = .ok (list, framed, table)) :
    Asked ranges content framed ∧ framed.hSent = true ∧ payloads list = [] ∧
      (self.hSent = true → list = [] ∧ framed = self) := by
  rw [sendHeaders] at headers
  split at headers
  · next sent =>
      cases headers
      exact ⟨asked, sent, rfl, fun _ => ⟨rfl, rfl⟩⟩
  · next unsent =>
      obtain ⟨⟨frames, after⟩, handled, headers⟩ := bind_eq_ok_iff.1 headers
      cases headers
      obtain ⟨maxSize, -, handled⟩ := bind_eq_ok_iff.1 handled
      obtain ⟨⟨frames', after'⟩, made, handled⟩ := bind_eq_ok_iff.1 handled
      have body : hasBody { self with headers := self.withContentLength } = true := asked.hasBody
      simp only [body, if_true] at handled
      cases handled
      refine ⟨⟨asked.hasBody, asked.ranges_eq, asked.body, asked.unsent⟩, rfl, ?_,
        fun sent => absurd sent unsent⟩
      refine payloads_of_kinds fun frame member => ?_
      obtain kind | kind := (headerFrames_ofBlock made frame member).kind <;> rw [kind] <;> decide

/-- A call without a window makes no data frames. -/
theorem toFrames_shut {offer : Offer} (shut : offer.window = 0) (asked : Asked ranges content self)
    {made : List Frame × Message Resource × Hpack.DynamicTable}
    (headers : self.sendHeaders offer.ctx offer.stream.id = .ok made) :
    ∃ frames next table, self.toFrames offer.ctx offer.stream = .ok (frames, next, table) ∧
      payloads frames = [] ∧ Asked ranges content next ∧ next.hSent = true := by
  obtain ⟨list, framed, table⟩ := made
  obtain ⟨framed_asked, framed_sent, silent, -⟩ := sendHeaders_asked asked headers
  refine ⟨list, framed, table, ?_, silent, framed_asked, framed_sent⟩
  have window : naturalOfInt (min offer.stream.flowSendWindow offer.ctx.settings.flowSendWindow) =
      .ok 0 := by
    rw [← Offer.window, shut]
    rfl
  rw [toFrames, window, ok_bind, headers, ok_bind]
  simp only [sendBody, Nat.lt_irrefl, and_false, if_false, ok_bind, pure_eq_ok]

variable [Regular Resource] {offer : Offer} {list : List Frame} {table : Hpack.DynamicTable}

/-- A call with a window puts ranges in frames behind the header frames, from the first range on. -/
theorem fromStream_ranges (valid : offer.Valid) (accepted : Accepted ranges)
    (asked : Asked ranges content framed) {window : Nat} :
    ∃ file position, framed.mBody = some file ∧ Documented.Holds file content position ∧
      framed.fromStream offer.ctx.settings offer.stream.id list window =
        sendFileRanges offer.stream.id file ⟨list, window, false⟩ ranges (min window offer.limit)
            content.length >>= fun sent =>
          .ok (sent.2.list, { framed with mBody := some sent.1, bSent := sent.2.bSent }) := by
  obtain ⟨file, position, body, holds⟩ := asked.body
  have limit_lt := valid.limit_lt
  have size : offer.ctx.settings.maxFrameSize = .ok offer.limit := by
    rw [Connection.maxFrameSize, ← Offer.limit, if_pos limit_lt]
  have converted : positive offer.limit = .ok offer.limit :=
    positive_of_le valid.positive_limit (by simp only [naturalLast]; omega)
  have ranges_ne : ranges ≠ [] := List.ne_nil_of_mem accepted.1
  refine ⟨file, position, body, holds, ?_⟩
  rw [fromStream, size, ok_bind, converted, ok_bind, body]
  simp only [asked.ranges_eq, if_pos ranges_ne, Regular.size_eq holds, Option.map_some,
    Option.getD_some, asked.unsent]
  rfl

private theorem naturalOfInt_window (valid : offer.Valid) :
    naturalOfInt (min offer.stream.flowSendWindow offer.ctx.settings.flowSendWindow) =
      .ok offer.window.toNat :=
  if_pos ⟨valid.nonnegative, valid.representable⟩

/-- The frames of a call that puts something in frames. -/
theorem toFrames_emits (valid : offer.Valid) (opened : 0 < offer.window.toNat)
    (accepted : Accepted ranges) (asked : Asked ranges content self)
    (headers : self.sendHeaders offer.ctx offer.stream.id = .ok (list, framed, table))
    {data : Octets} (some_data : data ≠ []) {done : Bool}
    (sends : ∀ (file : Resource) position, Documented.Holds file content position → ∃ after final,
      sendFileRanges offer.stream.id file ⟨list, offer.window.toNat, false⟩ ranges
          (min offer.window.toNat offer.limit) content.length = .ok (after, final) ∧
        (∃ behind, Documented.Holds after content behind) ∧
        Emitted data ⟨list, offer.window.toNat, false⟩ final ∧ final.bSent = done) :
    ∃ frames next table, self.toFrames offer.ctx offer.stream = .ok (frames, next, table) ∧
      payloads frames = data ∧ next.hSent = true ∧ next.moreFrames = !done ∧
      (done = false → Asked ranges content next) := by
  obtain ⟨framed_asked, framed_sent, silent, -⟩ := sendHeaders_asked asked headers
  obtain ⟨file, position, body, holds, framed_eq⟩ :=
    @fromStream_ranges _ _ _ ranges content framed _ offer list valid accepted framed_asked
      offer.window.toNat
  obtain ⟨after, final, sent, ⟨behind, after_holds⟩, emitted, bSent_eq⟩ := sends file position holds
  obtain ⟨⟨frames, final_eq, kinds, payload, -⟩, -⟩ := emitted
  have frames_ne : frames ≠ [] := by
    rintro rfl
    exact some_data payload.symm
  have last_eq : ∃ last, final.list.getLast? = some last ∧ last.kind = .data := by
    refine ⟨frames.getLast frames_ne, ?_, kinds _ (List.getLast_mem _)⟩
    rw [final_eq, List.getLast?_append_of_ne_nil _ frames_ne, List.getLast?_eq_some_getLast]
  obtain ⟨last, last_eq, last_kind⟩ := last_eq
  have hasBody_eq : hasBody { framed with mBody := some after, bSent := final.bSent } = true := by
    rw [← framed_asked.hasBody]
    exact hasBody_of_mode rfl (by rw [body]; rfl)
  refine ⟨final.list, { framed with mBody := some after, bSent := final.bSent }, table, ?_, ?_,
    framed_sent, ?_, fun unfinished => ?_⟩
  · rw [toFrames, naturalOfInt_window valid, ok_bind, headers, ok_bind]
    simp only [sendBody, if_pos (And.intro framed_asked.hasBody opened), framed_eq, sent, ok_bind,
      last_eq, Option.map_some, last_kind, pure_eq_ok]
  · rw [final_eq, payloads_append, silent, payload]
    rfl
  · rw [Message.moreFrames, if_pos hasBody_eq, bSent_eq]
  · exact ⟨hasBody_eq, framed_asked.ranges_eq, ⟨after, behind, rfl, after_holds⟩,
      bSent_eq.trans unfinished⟩

/-- A call raises what `Send_File_Ranges` raises. -/
theorem toFrames_raises {exn : Exn} (valid : offer.Valid) (opened : 0 < offer.window.toNat)
    (accepted : Accepted ranges) (asked : Asked ranges content self)
    (headers : self.sendHeaders offer.ctx offer.stream.id = .ok (list, framed, table))
    (raises : ∀ (file : Resource) position, Documented.Holds file content position →
      sendFileRanges offer.stream.id file ⟨list, offer.window.toNat, false⟩ ranges
        (min offer.window.toNat offer.limit) content.length = .error exn) :
    self.toFrames offer.ctx offer.stream = .error exn := by
  obtain ⟨framed_asked, -, -, -⟩ := sendHeaders_asked asked headers
  obtain ⟨file, position, -, holds, framed_eq⟩ :=
    @fromStream_ranges _ _ _ ranges content framed _ offer list valid accepted framed_asked
      offer.window.toNat
  rw [toFrames, naturalOfInt_window valid, ok_bind, headers, ok_bind]
  simp only [sendBody, if_pos (And.intro framed_asked.hasBody opened), framed_eq,
    raises file position holds, error_bind]

private theorem paced_start (valid : offer.Valid) :
    Paced ⟨list, offer.window.toNat, false⟩ (min offer.window.toNat offer.limit) where
  within := Nat.min_le_left _ _
  shut := by
    have := valid.positive_limit
    intro zero
    show offer.window.toNat = 0
    omega

variable {body : Octets}

/-- A window that allows all of a single range: the call puts all of it in frames. -/
theorem toFrames_whole (valid : offer.Valid) (opened : 0 < offer.window.toNat)
    (accepted : Accepted ranges) (single : ranges.count 44 = 0)
    (body_eq : rangesBody ranges content = .ok body)
    (some_body : body ≠ []) (fits : body.length ≤ offer.window.toNat)
    (asked : Asked ranges content self)
    (headers : self.sendHeaders offer.ctx offer.stream.id = .ok (list, framed, table)) :
    ∃ frames next table, self.toFrames offer.ctx offer.stream = .ok (frames, next, table) ∧
      payloads frames = body ∧ next.moreFrames = false := by
  have sends : ∀ (file : Resource) position, Documented.Holds file content position →
      ∃ after final,
        sendFileRanges offer.stream.id file ⟨list, offer.window.toNat, false⟩ ranges
            (min offer.window.toNat offer.limit) content.length = .ok (after, final) ∧
          (∃ behind, Documented.Holds after content behind) ∧
          Emitted body ⟨list, offer.window.toNat, false⟩ final ∧ final.bSent = true := by
    intro file position holds
    obtain ⟨after, final, sent, after_holds, emitted, bSent_eq⟩ :=
      Framing.sendFileRanges_single accepted single body_eq holds (@paced_start offer list valid)
    rw [List.take_of_length_le fits] at emitted
    rw [decide_eq_true ⟨some_body, fits⟩] at bSent_eq
    exact ⟨after, final, sent, after_holds, emitted, bSent_eq⟩
  obtain ⟨frames, next, table, called, payload, -, more, -⟩ :=
    toFrames_emits valid opened accepted asked headers some_body sends
  exact ⟨frames, next, table, called, payload, more⟩

/-- A smaller window and a single range: the call puts the start of it in frames. -/
theorem toFrames_part (valid : offer.Valid) (opened : 0 < offer.window.toNat)
    (accepted : Accepted ranges) (single : ranges.count 44 = 0)
    (body_eq : rangesBody ranges content = .ok body) (too_long : offer.window.toNat < body.length)
    (asked : Asked ranges content self)
    (headers : self.sendHeaders offer.ctx offer.stream.id = .ok (list, framed, table)) :
    ∃ frames next table, self.toFrames offer.ctx offer.stream = .ok (frames, next, table) ∧
      payloads frames = body.take offer.window.toNat ∧ Asked ranges content next ∧
      next.hSent = true := by
  have some_data : body.take offer.window.toNat ≠ [] := by
    rw [← List.length_pos_iff, List.length_take]
    omega
  have sends : ∀ (file : Resource) position, Documented.Holds file content position →
      ∃ after final,
        sendFileRanges offer.stream.id file ⟨list, offer.window.toNat, false⟩ ranges
            (min offer.window.toNat offer.limit) content.length = .ok (after, final) ∧
          (∃ behind, Documented.Holds after content behind) ∧
          Emitted (body.take offer.window.toNat) ⟨list, offer.window.toNat, false⟩ final ∧
          final.bSent = false := by
    intro file position holds
    obtain ⟨after, final, sent, after_holds, emitted, bSent_eq⟩ :=
      Framing.sendFileRanges_single accepted single body_eq holds (@paced_start offer list valid)
    rw [decide_eq_false fun both => absurd both.2 (Nat.not_le_of_lt too_long)] at bSent_eq
    exact ⟨after, final, sent, after_holds, emitted, bSent_eq⟩
  obtain ⟨frames, next, table, called, payload, sent, -, again⟩ :=
    toFrames_emits valid opened accepted asked headers some_data sends
  exact ⟨frames, next, table, called, payload, again rfl, sent⟩

/-- A window that allows all that is sent for several ranges: the call puts all of it in frames. -/
theorem toFrames_parts (valid : offer.Valid) (opened : 0 < offer.window.toNat)
    (accepted : Accepted ranges) (several : ranges.count 44 ≠ 0) {parts : List Octets}
    (parts_eq : (specsOf ranges).mapM (partOf content) = .ok parts)
    (fits : (parts.flatten ++ closing).length ≤ offer.window.toNat)
    (asked : Asked ranges content self)
    (headers : self.sendHeaders offer.ctx offer.stream.id = .ok (list, framed, table)) :
    ∃ frames next table, self.toFrames offer.ctx offer.stream = .ok (frames, next, table) ∧
      payloads frames = parts.flatten ++ closing ∧ next.moreFrames = false := by
  have some_data : parts.flatten ++ closing ≠ [] := List.append_ne_nil_of_right_ne_nil _ (by decide)
  obtain ⟨frames, next, table, called, payload, -, more, -⟩ :=
    toFrames_emits valid opened accepted asked headers some_data fun file position holds =>
      (Framing.sendFileRanges_several accepted several parts_eq holds (paced_start valid)).1 fits
  exact ⟨frames, next, table, called, payload, more⟩

/-- A smaller window and several ranges: the call never ends. -/
theorem toFrames_stuck (valid : offer.Valid) (opened : 0 < offer.window.toNat)
    (accepted : Accepted ranges) (several : ranges.count 44 ≠ 0) {parts : List Octets}
    (parts_eq : (specsOf ranges).mapM (partOf content) = .ok parts)
    (too_long : offer.window.toNat < (parts.flatten ++ closing).length)
    (asked : Asked ranges content self)
    (headers : self.sendHeaders offer.ctx offer.stream.id = .ok (list, framed, table)) :
    self.toFrames offer.ctx offer.stream = .error .storageError := by
  refine toFrames_raises valid opened accepted asked headers fun file position holds => ?_
  exact (Framing.sendFileRanges_several accepted several parts_eq holds (paced_start valid)).2
    too_long

/-- A single range without octets, behind header frames that have been made before: the call
raises. -/
theorem toFrames_void (valid : offer.Valid) (opened : 0 < offer.window.toNat)
    (accepted : Accepted ranges) (single : ranges.count 44 = 0)
    (body_eq : rangesBody ranges content = .ok []) (asked : Asked ranges content self)
    (sent : self.hSent = true) : ∃ exn, self.toFrames offer.ctx offer.stream = .error exn := by
  obtain ⟨file, position, -, holds, framed_eq⟩ :=
    @fromStream_ranges _ _ _ ranges content self _ offer [] valid accepted asked offer.window.toNat
  obtain ⟨after, final, ranges_sent, -, emitted, -⟩ :=
    @Framing.sendFileRanges_single offer.stream.id _ _ _ _ _ _ _ _ _ _ _ accepted
      single body_eq holds (@paced_start offer [] valid)
  obtain ⟨⟨frames, final_eq, -, -, nothing⟩, -⟩ := emitted
  rw [nothing List.take_nil, List.append_nil] at final_eq
  have headers : self.sendHeaders offer.ctx offer.stream.id = .ok ([], self, offer.ctx.tabEnc) :=
    if_pos sent
  refine ⟨.constraintError, ?_⟩
  rw [toFrames, naturalOfInt_window valid, ok_bind, headers, ok_bind]
  simp only [sendBody, if_pos (And.intro asked.hasBody opened), framed_eq, ranges_sent, ok_bind,
    final_eq, List.getLast?_nil, Option.map_none, error_bind]

/-! ## All calls -/

/-- What the calls put in frames of a body. -/
def Frames (body : Octets) (state : Message Resource) (offers : List Offer) : Prop :=
  ∃ calls final, state.answer offers = .ok (calls, final) ∧
    payloads calls.flatten = body.take (offered offers) ∧ final.moreFrames = !finished body offers

omit [Documented Resource] [Regular Resource] in
/-- One more call in front. -/
private theorem answer_cons {next : Message Resource} {frames : List Frame} {offers : List Offer}
    (more : self.moreFrames = true)
    (called : self.toFrames offer.ctx offer.stream = .ok (frames, next, table)) :
    self.answer (offer :: offers) =
      (fun later => (frames :: later.1, later.2)) <$> next.answer offers := by
  rw [answer, if_pos more, called, ok_bind]
  rfl

/-- What the windows allow is put in frames. -/
theorem frames_of_allows (accepted : Accepted ranges)
    (body_eq : rangesBody ranges content = .ok body)
    {offers : List Offer} (valid : ∀ offer ∈ offers, offer.Valid)
    (allows : Allows (ranges.count 44 = 0) body.length (openings offers))
    (asked : Asked ranges content self) (headers : HeadersMade self offers) :
    Frames body self offers := by
  induction offers generalizing self with
  | nil => exact ⟨[], self, rfl, rfl, asked.moreFrames.trans (by simp [finished, offered])⟩
  | cons offer offers ih =>
      have valid_offer := valid offer List.mem_cons_self
      have valid_later : ∀ offer ∈ offers, offer.Valid := fun other among =>
        valid other (List.mem_cons_of_mem _ among)
      have made : ∃ made, self.sendHeaders offer.ctx offer.stream.id = .ok made := by
        obtain sent | made := headers
        · exact ⟨_, if_pos sent⟩
        · exact made offer rfl
      obtain ⟨⟨list, framed, table⟩, made⟩ := made
      by_cases shut : offer.window.toNat = 0
      · have closed : offer.window = 0 := by
          have := valid_offer.nonnegative
          omega
        obtain ⟨frames, next, after, called, silent, next_asked, next_sent⟩ :=
          toFrames_shut closed asked made
        have same : openings (offer :: offers) = openings offers :=
          List.filter_cons_of_neg (by simp [shut])
        obtain ⟨calls, final, answered, payload, more⟩ :=
          ih valid_later (same ▸ allows) next_asked (.inl next_sent)
        have offered_eq : offered (offer :: offers) = offered offers := by
          rw [offered, shut, Nat.zero_add]
        refine ⟨frames :: calls, final, ?_, ?_, ?_⟩
        · rw [answer_cons asked.moreFrames called, answered]
          rfl
        · rw [List.flatten_cons, payloads_append, silent, payload, offered_eq]
          rfl
        · rw [more, finished, finished, offered_eq]
      · have opened : 0 < offer.window.toNat := Nat.pos_of_ne_zero shut
        have opening : openings (offer :: offers) = offer.window.toNat :: openings offers :=
          List.filter_cons_of_pos (by simp [opened])
        rw [opening] at allows
        obtain ⟨single, ⟨some_body, fits⟩ | ⟨too_long, last⟩⟩ := allows
        · obtain ⟨frames, next, after, called, payload, done⟩ := toFrames_whole valid_offer opened
            accepted single body_eq (List.length_pos_iff.1 some_body) fits asked made
          have beyond : next.answer offers = .ok ([], next) := by
            cases offers with
            | nil => rfl
            | cons => rw [answer, done]; rfl
          refine ⟨[frames], next, ?_, ?_, ?_⟩
          · rw [answer_cons asked.moreFrames called, beyond]
            rfl
          · rw [List.flatten_singleton, payload, offered, List.take_of_length_le (by omega)]
          · rw [done, finished, offered, decide_eq_true (by omega)]
            rfl
        · obtain ⟨frames, next, after, called, payload, next_asked, next_sent⟩ :=
            toFrames_part valid_offer opened accepted single body_eq too_long asked made
          obtain ⟨calls, final, answered, later_payload, more⟩ :=
            ih valid_later (by rw [last]; trivial) next_asked (.inl next_sent)
          have offered_later : offered offers = 0 := by
            rw [offered_eq_sum, last]
            rfl
          refine ⟨frames :: calls, final, ?_, ?_, ?_⟩
          · rw [answer_cons asked.moreFrames called, answered]
            rfl
          · rw [List.flatten_cons, payloads_append, payload, later_payload, offered, offered_later,
              List.take_zero, List.append_nil, Nat.add_zero]
          · rw [more, finished, finished, offered, offered_later, decide_eq_false (by omega),
              decide_eq_false (by omega)]

/-- What has been put in frames starts with the body, whatever has been put in frames before. -/
private theorem starts_again (accepted : Accepted ranges) (single : ranges.count 44 = 0)
    (body_eq : rangesBody ranges content = .ok body) (some_body : body ≠ []) {offers : List Offer}
    (valid : ∀ offer ∈ offers, offer.Valid) (opens : openings offers ≠ [])
    (asked : Asked ranges content self) (sent : self.hSent = true) {calls : List (List Frame)}
    {final : Message Resource} (answered : self.answer offers = .ok (calls, final)) :
    (payloads calls.flatten)[0]? = body[0]? := by
  induction offers generalizing self calls with
  | nil => exact absurd rfl opens
  | cons offer offers ih =>
      have valid_offer := valid offer List.mem_cons_self
      have made : self.sendHeaders offer.ctx offer.stream.id = .ok ([], self, offer.ctx.tabEnc) :=
        if_pos sent
      have starts : ∀ {frames : List Frame} {next : Message Resource} {count : Nat}
          {table : Hpack.DynamicTable},
          self.toFrames offer.ctx offer.stream = .ok (frames, next, table) →
          payloads frames = body.take count → 0 < count →
          (payloads calls.flatten)[0]? = body[0]? := by
        intro frames next count table called payload positive
        rw [answer_cons asked.moreFrames called] at answered
        cases later_eq : next.answer offers with
        | error exn =>
            rw [later_eq] at answered
            cases answered
        | ok later =>
            rw [later_eq] at answered
            cases answered
            have part_ne : 0 < (body.take count).length := by
              have := List.length_pos_iff.2 some_body
              rw [List.length_take]
              omega
            rw [List.flatten_cons, payloads_append, payload, List.getElem?_append_left part_ne,
              List.getElem?_take_of_lt positive]
      by_cases shut : offer.window.toNat = 0
      · have closed : offer.window = 0 := by
          have := valid_offer.nonnegative
          omega
        obtain ⟨frames, next, after, called, silent, next_asked, next_sent⟩ :=
          toFrames_shut closed asked made
        have same : openings (offer :: offers) = openings offers :=
          List.filter_cons_of_neg (by simp [shut])
        rw [answer_cons asked.moreFrames called] at answered
        cases later_eq : next.answer offers with
        | error exn =>
            rw [later_eq] at answered
            cases answered
        | ok later =>
            rw [later_eq] at answered
            cases answered
            rw [List.flatten_cons, payloads_append, silent, List.nil_append]
            exact ih (fun other among => valid other (List.mem_cons_of_mem _ among)) (same ▸ opens)
              next_asked next_sent later_eq
      · have opened : 0 < offer.window.toNat := Nat.pos_of_ne_zero shut
        by_cases fits : body.length ≤ offer.window.toNat
        · obtain ⟨frames, next, after, called, payload, -⟩ :=
            toFrames_whole valid_offer opened accepted single body_eq some_body fits asked made
          exact starts called (payload.trans (List.take_length).symm)
            (List.length_pos_iff.2 some_body)
        · obtain ⟨frames, next, after, called, payload, -⟩ := toFrames_part valid_offer opened
            accepted single body_eq (Nat.lt_of_not_le fits) asked made
          exact starts called payload opened

/-- Otherwise the calls raise, or begin the body again, which shows if its first octet is found
nowhere else. -/
theorem not_frames (accepted : Accepted ranges) (body_eq : rangesBody ranges content = .ok body)
    (distinct : ranges.count 44 = 0 → ∀ index, 0 < index → index < body.length →
      body[index]? ≠ body[0]?) {offers : List Offer} (valid : ∀ offer ∈ offers, offer.Valid)
    (refused : ¬Allows (ranges.count 44 = 0) body.length (openings offers))
    (asked : Asked ranges content self) (sent : self.hSent = true) : ¬Frames body self offers := by
  induction offers generalizing self with
  | nil => exact absurd trivial refused
  | cons offer offers ih =>
      have valid_offer := valid offer List.mem_cons_self
      have valid_later : ∀ offer ∈ offers, offer.Valid := fun other among =>
        valid other (List.mem_cons_of_mem _ among)
      have made : self.sendHeaders offer.ctx offer.stream.id = .ok ([], self, offer.ctx.tabEnc) :=
        if_pos sent
      rintro ⟨calls, final, answered, payload, more⟩
      have raises : ∀ {exn : Exn}, self.toFrames offer.ctx offer.stream ≠ .error exn := by
        intro exn failed
        rw [answer, if_pos asked.moreFrames, failed] at answered
        cases answered
      by_cases shut : offer.window.toNat = 0
      · have closed : offer.window = 0 := by
          have := valid_offer.nonnegative
          omega
        obtain ⟨frames, next, after, called, silent, next_asked, next_sent⟩ :=
          toFrames_shut closed asked made
        have same : openings (offer :: offers) = openings offers :=
          List.filter_cons_of_neg (by simp [shut])
        have offered_eq : offered (offer :: offers) = offered offers := by
          rw [offered, shut, Nat.zero_add]
        refine ih valid_later (same ▸ refused) next_asked next_sent ?_
        rw [answer_cons asked.moreFrames called] at answered
        cases later_eq : next.answer offers with
        | error exn =>
            rw [later_eq] at answered
            cases answered
        | ok later =>
            rw [later_eq] at answered
            cases answered
            refine ⟨later.1, later.2, later_eq, ?_, ?_⟩
            · rw [← offered_eq, ← payload, List.flatten_cons, payloads_append,
                silent, List.nil_append]
            · rw [more, finished, finished, offered_eq]
      · have opened : 0 < offer.window.toNat := Nat.pos_of_ne_zero shut
        have opening : openings (offer :: offers) = offer.window.toNat :: openings offers :=
          List.filter_cons_of_pos (by simp [opened])
        rw [opening, Allows] at refused
        by_cases single : ranges.count 44 = 0
        · by_cases empty : body = []
          · subst empty
            obtain ⟨exn, failed⟩ := toFrames_void valid_offer opened accepted
              single body_eq asked sent
            exact raises failed
          · have some_body := List.length_pos_iff.2 empty
            have too_long : offer.window.toNat < body.length :=
              Nat.lt_of_not_le fun fits => refused ⟨single, .inl ⟨some_body, fits⟩⟩
            have opens : openings offers ≠ [] := fun last =>
              refused ⟨single, .inr ⟨too_long, last⟩⟩
            obtain ⟨frames, next, after, called, front, next_asked, next_sent⟩ :=
              toFrames_part valid_offer opened accepted single body_eq too_long asked made
            rw [answer_cons asked.moreFrames called] at answered
            cases later_eq : next.answer offers with
            | error exn =>
                rw [later_eq] at answered
                cases answered
            | ok later =>
                rw [later_eq] at answered
                cases answered
                have again := starts_again accepted single body_eq empty
                  valid_later opens next_asked next_sent later_eq
                have front_length : (body.take offer.window.toNat).length = offer.window.toNat :=
                  List.length_take_of_le too_long.le
                have some_offered := offered_pos opens
                have at_window := congrArg (·[offer.window.toNat]?) payload
                simp only [List.flatten_cons, payloads_append, front] at at_window
                rw [List.getElem?_append_right front_length.le, front_length, Nat.sub_self, again,
                  offered, List.getElem?_take_of_lt (by omega)] at at_window
                exact distinct single _ opened too_long at_window.symm
        · -- all that is sent is no beginning of the body
          obtain ⟨first, second, later, rfl, parts_eq⟩ := accepted.ranges_of_several single body_eq
          rcases Nat.lt_or_ge offer.window.toNat _ with too_long | fits
          · exact raises (toFrames_stuck valid_offer opened accepted single parts_eq
              too_long asked made)
          · obtain ⟨frames, next, after, called, sends, done⟩ :=
              toFrames_parts valid_offer opened accepted single parts_eq fits asked made
            have beyond : next.answer offers = .ok ([], next) := by
              cases offers with
              | nil => rfl
              | cons => rw [answer, done]; rfl
            rw [answer_cons asked.moreFrames called, beyond] at answered
            cases answered
            rw [List.flatten_singleton, sends] at payload
            exact layout_not_prefix content first second later (payload ▸ List.take_prefix _ _)

end Asked

/-! ## Which windows are enough -/

/-- Every message that answers the range header from a resource of the length is put in frames as
the windows allow. -/
def Completes (ranges : Text) (length : Nat) (offers : List Offer) : Prop :=
  ∀ (Resource : Type) [StreamType Resource] [Documented Resource] [Regular Resource]
    (content : Octets) (self : Message Resource), content.length = length →
    Asked ranges content self → HeadersMade self offers → RangesFramed content self offers

/-- The windows allow the body, which has a size. -/
def Suffices (ranges : Text) (length : Nat) (offers : List Offer) : Prop :=
  ∃ size, bodySize ranges length = .ok size ∧ Allows (ranges.count 44 = 0) size (openings offers)

/-- A message with a file, after its header frames. -/
def ofFile (ranges : Text) (content : Octets) : Message DiskStream where
  mode := .file
  ranges := ranges
  streamId := 1
  headers := []
  sent := 0
  hSent := true
  bSent := false
  mBody := some ⟨content, 0⟩

theorem asked_ofFile (ranges : Text) (content : Octets) :
    Asked ranges content (ofFile ranges content) :=
  ⟨rfl, rfl, ⟨⟨content, 0⟩, 0, rfl, rfl, rfl⟩, rfl⟩

/-- There is a resource of which a single range begins with an octet that it has nowhere else. -/
private theorem exists_distinct {ranges : Text} (accepted : Accepted ranges)
    (single : ranges.count 44 = 0) {length size : Nat}
    (size_eq : bodySize ranges length = .ok size) :
    ∃ content body : Octets, content.length = length ∧ rangesBody ranges content = .ok body ∧
      ∀ index, 0 < index → index < body.length → body[index]? ≠ body[0]? := by
  have length_eq := accepted.length_specsOf
  rw [single, Nat.add_zero] at length_eq
  obtain ⟨spec, specs_eq⟩ := List.length_eq_one_iff.1 length_eq
  obtain ⟨first, last, parsed⟩ : ∃ first last,
    parseContentRange spec length = .ok (first, last) := by
    rw [bodySize, rangesBody, specs_eq, List.length_replicate] at size_eq
    dsimp only at size_eq
    cases parsed : parseContentRange spec length with
    | error exn =>
        rw [parsed] at size_eq
        cases size_eq
    | ok bounds => exact ⟨bounds.1, bounds.2, rfl⟩
  let content : Octets := (List.replicate length 0).set first.toNat 1
  have content_length : content.length = length := by
    rw [List.length_set, List.length_replicate]
  refine ⟨content, slice content first last, content_length, ?_, ?_⟩
  · rw [rangesBody, specs_eq, content_length]
    dsimp only
    rw [parsed]
    rfl
  · intro index positive below
    have octet_at : ∀ index < (slice content first last).length,
        (slice content first last)[index]? = some (if index = 0 then 1 else 0) := by
      intro index below
      rw [slice, List.length_take, List.length_drop, content_length] at below
      rw [slice, List.getElem?_take_of_lt (by omega), List.getElem?_drop, List.getElem?_set,
        List.length_replicate]
      by_cases start : index = 0
      · rw [if_pos start, if_pos (by omega), if_pos (by omega)]
      · rw [if_neg start, if_neg (by omega), List.getElem?_replicate, if_pos (by omega)]
    rw [octet_at index below, octet_at 0 (by omega), if_neg (by omega), if_pos rfl]
    decide

/-- Range responses are put in frames, each octet once, exactly when the windows suffice. -/
theorem completes_iff_suffices {ranges : Text} (accepted : Accepted ranges) (length : Nat)
    {offers : List Offer} (valid : ∀ offer ∈ offers, offer.Valid) :
    Completes ranges length offers ↔ Suffices ranges length offers := by
  constructor
  · intro completes
    have framed : ∀ content : Octets, content.length = length →
        RangesFramed content (ofFile ranges content) offers := fun content length_eq =>
      completes DiskStream content _ length_eq (asked_ofFile ranges content) (.inl rfl)
    have refutes : ∀ {content body : Octets}, content.length = length →
        rangesBody ranges content = .ok body →
        (ranges.count 44 = 0 → ∀ index, 0 < index → index < body.length →
          body[index]? ≠ body[0]?) → Allows (ranges.count 44 = 0) body.length
            (openings offers) := by
      intro content body length_eq body_eq distinct
      by_contra refused
      obtain ⟨other, other_eq, frames⟩ := framed content length_eq
      cases body_eq.symm.trans other_eq
      exact not_frames accepted body_eq distinct valid refused
        (asked_ofFile ranges content) rfl frames
    obtain ⟨body, body_eq, -⟩ := framed (List.replicate length 0) List.length_replicate
    have size_eq : bodySize ranges (List.replicate length (0 : Octet)).length = .ok body.length :=
      bodySize_eq_ok body_eq
    rw [List.length_replicate] at size_eq
    refine ⟨body.length, size_eq, ?_⟩
    by_cases single : ranges.count 44 = 0
    · obtain ⟨content, other, length_eq, other_eq, distinct⟩ :=
        exists_distinct accepted single size_eq
      have same := bodySize_eq_ok other_eq
      rw [length_eq, size_eq] at same
      rw [Except.ok.inj same]
      exact refutes length_eq other_eq fun _ => distinct
    · exact refutes List.length_replicate body_eq fun one => absurd one single
  · rintro ⟨size, size_eq, allows⟩ Resource _ _ _ content self rfl asked headers
    obtain ⟨body, body_eq, rfl⟩ := exists_rangesBody size_eq
    refine ⟨body, by rw [asked.ranges_eq]; exact body_eq, ?_⟩
    exact frames_of_allows accepted body_eq valid allows asked headers

/-- An offer with a window on both levels. -/
def offerOf (window : Nat) : Offer :=
  ⟨{ freshContext with settings := { freshContext.settings with flowSendWindow := window } },
    Stream.create 1 window⟩

theorem completes_single :
    Completes (text "bytes=1-") 4 [offerOf 0, offerOf 300, offerOf 5] := by
  refine (completes_iff_suffices (by decide +kernel) 4 ?_).2 ⟨_, rfl, by decide +kernel⟩
  simp only [List.mem_cons, List.not_mem_nil, or_false, forall_eq_or_imp, forall_eq]
  exact ⟨⟨by decide +kernel, by decide +kernel, by decide +kernel, by decide +kernel⟩,
    ⟨by decide +kernel, by decide +kernel, by decide +kernel, by decide +kernel⟩,
    ⟨by decide +kernel, by decide +kernel, by decide +kernel, by decide +kernel⟩⟩

/-- Two octets and two windows of one octet: the first octet is put in frames twice. -/
theorem first_octet_twice :
    ¬∀ (ranges : Text) (length : Nat) (offers : List Offer), Accepted ranges →
      (∀ offer ∈ offers, offer.Valid) → Completes ranges length offers := by
  intro completes
  have accepted : Accepted (text "bytes=0-1") := by decide +kernel
  have valid : ∀ offer ∈ [offerOf 1, offerOf 1], offer.Valid := by
    simp only [List.mem_cons, List.not_mem_nil, or_false, or_self, forall_eq]
    exact ⟨by decide +kernel, by decide +kernel, by decide +kernel, by decide +kernel⟩
  obtain ⟨body, body_eq, frames⟩ := completes (text "bytes=0-1") 2 [offerOf 1, offerOf 1] accepted
    valid DiskStream [1, 0] _ rfl (asked_ofFile (text "bytes=0-1") [1, 0]) (.inl rfl)
  have two_octets : rangesBody (text "bytes=0-1") [1, 0] = .ok [1, 0] := by decide +kernel
  cases two_octets.symm.trans body_eq
  refine not_frames accepted two_octets ?_ valid (by decide +kernel)
    (asked_ofFile (text "bytes=0-1") [1, 0]) rfl frames
  intro _ index positive below
  obtain rfl : index = 1 := by
    rw [List.length_cons, List.length_singleton] at below
    omega
  decide

end Message
end Http2
end AdaWebServer
