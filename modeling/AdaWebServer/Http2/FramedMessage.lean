import AdaWebServer.Http2.HeaderFraming

/-!
# Framed messages

What `To_Frames` makes of any message, also of one that answers a range request: the frames of the
header block, unless they have been made before, and data frames of the same stream behind them.
-/

namespace AdaWebServer
namespace Http2

open Resources

/-! ## Data frames -/

/-- Data frames of a stream have been appended. -/
def GrownBy (streamId : StreamId) (before after : List Frame) : Prop :=
  ∃ pieces : List (Octets × Bool),
    after = before ++ pieces.map fun piece => Frame.createData streamId piece.1 piece.2

theorem GrownBy.refl (streamId : StreamId) (list : List Frame) : GrownBy streamId list list :=
  ⟨[], by simp⟩

theorem GrownBy.trans {streamId : StreamId} {first second third : List Frame}
    (earlier : GrownBy streamId first second) (later : GrownBy streamId second third) :
    GrownBy streamId first third := by
  obtain ⟨front, rfl⟩ := earlier
  obtain ⟨back, rfl⟩ := later
  exact ⟨front ++ back, by simp⟩

namespace Framing

variable {Resource : Type} [StreamType Resource] {streamId : StreamId}

theorem createDataFrame_grows {framing after : Framing} {content : Octets} {nextSize size : Nat}
    (done : createDataFrame streamId framing content nextSize = .ok (after, size)) :
    GrownBy streamId framing.list after.list := by
  obtain ⟨fcw, -, done⟩ := bind_eq_ok_iff.mp done
  cases done
  exact ⟨[(content, nextSize = 0)], rfl⟩

private theorem sendPieces_grows {fuel : Nat} :
    ∀ {file rest : Resource} {framing after : Framing} {nextSize length total : Nat},
      sendPieces streamId fuel file framing nextSize length = .ok (rest, after, total) →
      GrownBy streamId framing.list after.list := by
  induction fuel with
  | zero =>
      intro file rest framing after nextSize length total done
      cases done
  | succ fuel ih =>
      intro file rest framing after nextSize length total done
      obtain ⟨⟨data, file⟩, -, done⟩ := bind_eq_ok_iff.mp done
      simp only at done
      generalize (if StreamType.endOfFile file then 0 else nextSize) = room at done
      split at done
      · obtain ⟨⟨middle, size⟩, made, done⟩ := bind_eq_ok_iff.mp done
        simp only at done
        split at done
        · cases done
          exact createDataFrame_grows made
        · exact (createDataFrame_grows made).trans (ih done)
      · simp only [pure_eq_ok, ok_bind] at done
        split at done
        · cases done
          exact .refl _ _
        · exact ih done

theorem sendFile_grows {file rest : Resource} {framing after : Framing}
    {start chunkSize length total : Nat}
    (done : sendFile streamId file framing start chunkSize length = .ok (rest, after, total)) :
    GrownBy streamId framing.list after.list := by
  obtain ⟨file, -, done⟩ := bind_eq_ok_iff.mp done
  exact sendPieces_grows done

private theorem sendText_grows {lastOne : Bool} {fuel : Nat} :
    ∀ {buffer : Octets} {framing after : Framing} {nextSize size : Nat},
      sendText streamId lastOne fuel buffer framing nextSize = .ok (after, size) →
      GrownBy streamId framing.list after.list := by
  induction fuel with
  | zero =>
      intro buffer framing after nextSize size done
      cases done
  | succ fuel ih =>
      intro buffer framing after nextSize size done
      rw [sendText] at done
      split at done
      · exact createDataFrame_grows done
      split at done
      · cases done
      · obtain ⟨⟨middle, next⟩, made, done⟩ := bind_eq_ok_iff.mp done
        exact (createDataFrame_grows made).trans (ih done)

private theorem sendRangePieces_grows {nRange : Nat} {fuel : Nat} :
    ∀ {file rest : Resource} {framing after : Framing} {nextSize size : Nat} {left : Int},
      sendRangePieces streamId nRange fuel file framing nextSize left = .ok (rest, after, size) →
      GrownBy streamId framing.list after.list := by
  induction fuel with
  | zero =>
      intro file rest framing after nextSize size left done
      cases done
  | succ fuel ih =>
      intro file rest framing after nextSize size left done
      rw [sendRangePieces] at done
      split at done
      · cases done
        exact .refl _ _
      · obtain ⟨⟨data, file⟩, -, done⟩ := bind_eq_ok_iff.mp done
        simp only at done
        split at done
        · cases done
          exact .refl _ _
        · obtain ⟨⟨middle, next⟩, made, done⟩ := bind_eq_ok_iff.mp done
          exact (createDataFrame_grows made).trans (ih done)

/-- A text between the parts of a body of several ranges. -/
private def sendBetween (streamId : StreamId) (nRange : Nat) (framing : Framing) (nextSize : Nat)
    (str : Text) : Except Exn (Framing × Nat) :=
  if nRange ≠ 1 then framing.send streamId nextSize str false else .ok (framing, nextSize)

private theorem sendBetween_grows {nRange nextSize size : Nat} {framing after : Framing}
    {str : Text} (done : sendBetween streamId nRange framing nextSize str = .ok (after, size)) :
    GrownBy streamId framing.list after.list := by
  unfold sendBetween at done
  split at done
  · exact sendText_grows done
  · cases done
    exact .refl _ _

private theorem sendRange_eq (streamId : StreamId) (file : Resource) {nRange nextSize : Nat}
    {length : Int} {framing : Framing} {range : Text} :
    ∃ separator : Text, ∃ part : Int → Int → Text,
      sendRange streamId nRange length file framing nextSize range =
        (sendBetween streamId nRange framing nextSize separator >>= fun first =>
          parseContentRange range length >>= fun bounds =>
            sendBetween streamId nRange first.1 first.2 (part bounds.1 bounds.2) >>= fun second =>
              StreamType.setIndex file (bounds.1 + 1).toNat >>= fun file =>
                sendRangePieces streamId nRange ((bounds.2 - bounds.1 + 1).toNat + 1) file second.1
                  second.2 (bounds.2 - bounds.1 + 1)) := by
  refine ⟨text "--" ++ boundary ++ crlf, fun first last =>
    text "Content-Range" ++ text ": bytes " ++ text (toString first) ++ text "-" ++
      text (toString last) ++ text "/" ++ text (toString length) ++ crlf ++
      text "Content-Length" ++ text ":" ++ offsetImage (last - first + 1) ++ crlf ++ crlf, ?_⟩
  unfold sendRange sendBetween
  by_cases single : nRange = 1
  · simp only [single, ne_eq, not_true_eq_false, if_false]
    rfl
  · simp only [single, ne_eq, not_false_eq_true, if_true]

private theorem sendRange_grows {nRange : Nat} {length : Int} {file rest : Resource}
    {framing after : Framing} {nextSize size : Nat} {range : Text}
    (done : sendRange streamId nRange length file framing nextSize range =
      .ok (rest, after, size)) : GrownBy streamId framing.list after.list := by
  obtain ⟨separator, part, same⟩ := sendRange_eq streamId file
  rw [same] at done
  obtain ⟨first, started, done⟩ := bind_eq_ok_iff.mp done
  obtain ⟨bounds, -, done⟩ := bind_eq_ok_iff.mp done
  obtain ⟨second, announced, done⟩ := bind_eq_ok_iff.mp done
  obtain ⟨file, -, done⟩ := bind_eq_ok_iff.mp done
  exact ((sendBetween_grows started).trans (sendBetween_grows announced)).trans
    (sendRangePieces_grows done)

private theorem sendEachRange_grows {nRange : Nat} {length : Int} {ranges : List Text} :
    ∀ {file rest : Resource} {framing after : Framing} {nextSize size : Nat},
      sendEachRange streamId nRange length ranges file framing nextSize = .ok (rest, after, size) →
      GrownBy streamId framing.list after.list := by
  induction ranges with
  | nil =>
      intro file rest framing after nextSize size done
      cases done
      exact .refl _ _
  | cons range ranges ih =>
      intro file rest framing after nextSize size done
      obtain ⟨⟨middle, next, room⟩, made, done⟩ := bind_eq_ok_iff.mp done
      exact (sendRange_grows made).trans (ih done)

theorem sendFileRanges_grows {file rest : Resource} {framing after : Framing} {ranges : Text}
    {chunkSize : Nat} {length : Int}
    (done : sendFileRanges streamId file framing ranges chunkSize length = .ok (rest, after)) :
    GrownBy streamId framing.list after.list := by
  unfold sendFileRanges at done
  simp only at done
  generalize (if 61 ∈ ranges then (ranges.dropWhile (· ≠ 61)).tail else ranges).splitOn 44 =
    specs at done
  split at done
  · cases done
  · obtain ⟨⟨file, middle, size⟩, made, done⟩ := bind_eq_ok_iff.mp done
    simp only at done
    split at done
    · obtain ⟨⟨last, size⟩, sent, done⟩ := bind_eq_ok_iff.mp done
      cases done
      exact (sendEachRange_grows made).trans (sendText_grows sent)
    · cases done
      exact sendEachRange_grows made

end Framing

/-! ## Messages -/

/-- The frames of a header block, to the last of which `End_Stream_Flag` may have been added. -/
def Sealed (list blocks : List Frame) : Prop :=
  blocks = list ∨ Frame.setLastFlag list endStreamFlag = .ok blocks

/-- A sealed header block has frames of the same kinds and the same stream. -/
theorem Sealed.forall {list blocks : List Frame} (sealed : Sealed list blocks)
    {property : Frame → Prop} (flagged : ∀ frame, property frame →
      property (frame.setFlag endStreamFlag)) (holds : ∀ frame ∈ list, property frame) :
    ∀ frame ∈ blocks, property frame := by
  rcases sealed with rfl | done
  · exact holds
  · unfold Frame.setLastFlag at done
    split at done
    · next last last_eq =>
        cases done
        intro frame member
        rcases List.mem_append.mp member with front | back
        · exact holds frame (List.dropLast_subset list front)
        · rw [List.mem_singleton.mp back]
          exact flagged last (holds last (List.mem_of_getLast? last_eq))
    · cases done

namespace Message

variable {Resource : Type} [StreamType Resource] {self rest : Message Resource} {ctx : Context}
  {streamId : StreamId}

/-- What a call of `To_Frames` has made. -/
structure Framed (message : Message Resource) (ctx : Context) (stream : Stream) (frames : List Frame)
    (rest : Message Resource) (tabEnc : Hpack.DynamicTable) : Prop where
  window_nonneg : 0 ≤ min stream.flowSendWindow ctx.settings.flowSendWindow
  streamId_eq : rest.streamId = message.streamId
  hasBody_eq : rest.hasBody = message.hasBody
  hSent : rest.hSent = true
  parts : ∃ (list blocks : List Frame) (pieces : List (Octets × Bool)),
    frames = blocks ++ pieces.map (fun piece => Frame.createData stream.id piece.1 piece.2) ∧
    Sealed list blocks ∧
    if message.hSent then
      list = [] ∧ tabEnc = ctx.tabEnc
    else
      headerFrames ctx.stack ctx.settings stream.id (ctx.settings.values .maxHeaderListSize)
        message.withContentLength [] 0 true ctx.tabEnc = .ok (list, tabEnc)

private theorem fromStream_grows {settings : Connection} {list frames : List Frame} {fcw : Nat}
    (done : self.fromStream settings streamId list fcw = .ok (frames, rest)) :
    GrownBy streamId list frames ∧ rest.streamId = self.streamId ∧ rest.hSent = self.hSent ∧
      rest.hasBody = self.hasBody := by
  obtain ⟨maxFrameSize, -, done⟩ := bind_eq_ok_iff.mp done
  obtain ⟨limit, -, done⟩ := bind_eq_ok_iff.mp done
  cases body : self.mBody with
  | none =>
      rw [body] at done
      cases done
  | some file =>
      rw [body] at done
      simp only at done
      split at done
      · obtain ⟨⟨after, framing⟩, made, done⟩ := bind_eq_ok_iff.mp done
        cases done
        exact ⟨Framing.sendFileRanges_grows made, rfl, rfl, by simp [hasBody, body]⟩
      · obtain ⟨⟨after, framing, sent⟩, made, done⟩ := bind_eq_ok_iff.mp done
        cases done
        exact ⟨Framing.sendFile_grows made, rfl, rfl, by simp [hasBody, body]⟩

private theorem pieces_last {list : List Frame} {pieces : List (Octets × Bool)}
    (headers : (list ++ pieces.map fun piece : Octets × Bool =>
      Frame.createData streamId piece.1 piece.2).getLast?.map Frame.kind = some .headers) :
    pieces = [] := by
  cases last : pieces.getLast? with
  | none => exact List.getLast?_eq_none_iff.mp last
  | some piece =>
      rw [List.getLast?_append, List.getLast?_map, last] at headers
      cases headers

private theorem sendBody_parts {settings : Connection} {list frames : List Frame} {fcw : Nat}
    (done : self.sendBody settings streamId list fcw = .ok (frames, rest)) :
    (∃ (blocks : List Frame) (pieces : List (Octets × Bool)),
      frames = blocks ++ pieces.map (fun piece => Frame.createData streamId piece.1 piece.2) ∧
      Sealed list blocks ∧ (self.hasBody = false → blocks = list ∧ pieces = [])) ∧
    rest.streamId = self.streamId ∧ rest.hSent = self.hSent ∧ rest.hasBody = self.hasBody := by
  unfold sendBody at done
  split at done
  · next allowed =>
      obtain ⟨⟨grown, after⟩, made, done⟩ := bind_eq_ok_iff.mp done
      obtain ⟨⟨pieces, rfl⟩, same⟩ := fromStream_grows made
      have impossible : self.hasBody ≠ false := by simp [allowed.1]
      simp only at done
      split at done
      · cases done
      · next headers =>
          obtain rfl := pieces_last headers
          obtain ⟨sealed, flagged, done⟩ := bind_eq_ok_iff.mp done
          rw [List.map_nil, List.append_nil] at flagged
          cases done
          exact ⟨⟨_, [], by simp, .inr flagged, fun bare => absurd bare impossible⟩, same⟩
      · cases done
        exact ⟨⟨list, pieces, rfl, .inl rfl, fun bare => absurd bare impossible⟩, same⟩
  · cases done
    exact ⟨⟨list, [], by simp, .inl rfl, fun _ => ⟨rfl, rfl⟩⟩, rfl, rfl, rfl⟩

private theorem sendHeaders_parts {framed : Message Resource} {list : List Frame}
    {tabEnc : Hpack.DynamicTable} (done : self.sendHeaders ctx streamId = .ok (list, framed, tabEnc)) :
    (∃ raw, Sealed raw list ∧ (self.hasBody = true → list = raw) ∧
      if self.hSent then
        raw = [] ∧ tabEnc = ctx.tabEnc
      else
        headerFrames ctx.stack ctx.settings streamId (ctx.settings.values .maxHeaderListSize)
          self.withContentLength [] 0 true ctx.tabEnc = .ok (raw, tabEnc)) ∧
    framed.streamId = self.streamId ∧ framed.hSent = true ∧ framed.hasBody = self.hasBody := by
  unfold sendHeaders at done
  split at done
  · next sent =>
      cases done
      exact ⟨⟨[], .inl rfl, fun _ => rfl, by rw [if_pos sent]; exact ⟨rfl, rfl⟩⟩, rfl, sent, rfl⟩
  · next unsent =>
      obtain ⟨⟨frames, table⟩, handled, done⟩ := bind_eq_ok_iff.mp done
      cases done
      obtain ⟨maxSize, size_eq, handled⟩ := bind_eq_ok_iff.mp handled
      obtain ⟨⟨raw, after⟩, made, handled⟩ := bind_eq_ok_iff.mp handled
      rw [(positive_eq_ok size_eq).1] at made
      have body : hasBody { self with headers := self.withContentLength } = self.hasBody := rfl
      simp only [body] at handled
      refine ⟨?_, rfl, rfl, rfl⟩
      split at handled
      · cases handled
        exact ⟨_, .inl rfl, fun _ => rfl, by rw [if_neg unsent]; exact made⟩
      · next bare =>
          obtain ⟨flagged, flag, handled⟩ := bind_eq_ok_iff.mp handled
          cases handled
          exact ⟨raw, .inr flag, fun body => absurd body bare, by rw [if_neg unsent]; exact made⟩

/-- Every call of `To_Frames` that returns has made the header block, unless it has been made
before, and data frames behind it. -/
theorem framed_of_toFrames {stream : Stream} {frames : List Frame} {tabEnc : Hpack.DynamicTable}
    (done : self.toFrames ctx stream = .ok (frames, rest, tabEnc)) :
    Framed self ctx stream frames rest tabEnc := by
  obtain ⟨fcw, window, done⟩ := bind_eq_ok_iff.mp done
  obtain ⟨⟨list, framed, table⟩, sent, done⟩ := bind_eq_ok_iff.mp done
  obtain ⟨⟨all, after⟩, made, done⟩ := bind_eq_ok_iff.mp done
  cases done
  obtain ⟨⟨raw, sealed, unsealed, origin⟩, stream_eq, hSent, body_eq⟩ := sendHeaders_parts sent
  obtain ⟨⟨blocks, pieces, shape, sealed_later, bare⟩, stream_later, hSent_later, body_later⟩ :=
    sendBody_parts made
  have window_nonneg : 0 ≤ min stream.flowSendWindow ctx.settings.flowSendWindow := by
    by_contra negative
    rw [Stream.naturalOfInt_neg (not_le.mp negative)] at window
    cases window
  refine ⟨window_nonneg, stream_later.trans stream_eq, body_later.trans body_eq,
    hSent_later.trans hSent, raw, blocks, pieces, shape, ?_, origin⟩
  cases body : self.hasBody with
  | true =>
      rw [← unsealed body]
      exact sealed_later
  | false =>
      rw [(bare (body_eq.trans body)).1]
      exact sealed

end Message
end Http2
end AdaWebServer
