import AdaWebServer.Http2.Hpack.RoundTrip
import AdaWebServer.Http2.HeaderFraming

/-!
# Header blocks that are sent

A header block is a HEADERS frame followed by CONTINUATION frames.  The loop of `Handle_Headers`
makes a HEADERS frame of the headers that are left at its end, whether or not frames have been made
before; so a header list is sent as a header block exactly when all of it makes one frame.
-/

namespace AdaWebServer
namespace Http2

/-! ## Length of an encoded list -/

namespace Hpack

/-- Octets of an integer of which `n` bits are in the first octet. -/
def integerLength (n i : Nat) : Nat := (PrefixInteger.encode n 0 i).length

/-- Octets of the literal of a string. -/
def literalLength (str : Text) : Nat := integerLength 7 (payload str).length + (payload str).length

/-- Octets of a header, by what the tables have of it. -/
def headerLength (settings : Connection) (table : DynamicTable) (header : Text × Text) : Nat :=
  match table.getNameValueIndex settings header.1 header.2 with
  | .ok (index, both, _) =>
      if index = 0 then
        1 + literalLength header.1 + literalLength header.2
      else if both then
        integerLength 7 index
      else
        integerLength 6 index + if header.2 = [] then 0 else literalLength header.2
  | .error _ => 0

/-- Octets of a header list, on the tables that its headers leave one after the other. -/
def blockLength (settings : Connection) : DynamicTable → Headers → Nat
  | _, [] => 0
  | table, header :: headers =>
      headerLength settings table header +
        match absorb settings table header with
        | .ok next => blockLength settings next headers
        | .error _ => 0

theorem length_sendInteger {i n : Nat} {flags : Octet} {octets : Octets}
    (clear : Clear flags n) (sent : Encode.sendInteger i flags n = .ok octets) :
    octets.length = integerLength n i := by
  obtain ⟨nonzero, small⟩ := sendInteger_bounds sent
  rw [sendInteger_eq clear nonzero small] at sent
  cases sent
  unfold integerLength PrefixInteger.encode
  split <;> simp

theorem length_send {stack : Nat} {str : Text} {octets : Octets}
    (sent : Encode.send stack str = .ok octets) :
    octets.length = literalLength str := by
  have sendable := sent_of_send sent
  rw [send_eq, if_neg (not_lt.mpr sendable.array_le), if_pos sendable.coded_le] at sent
  obtain ⟨length, length_sent, done⟩ := bind_eq_ok_iff.mp sent
  cases done
  have clear : Clear (literalFlags str) 7 := by
    unfold literalFlags
    split <;> decide
  rw [List.length_append, length_sendInteger clear length_sent, literalLength]

theorem length_header {stack : Nat} {settings : Connection} {table after : DynamicTable}
    {name value : Text} {octets : Octets} (encoded : Encode.header stack settings table name value =
      .ok (octets, after)) :
    octets.length = headerLength settings table (name, value) := by
  simp only [Encode.header, bind_eq_ok_iff, Prod.exists] at encoded
  obtain ⟨index, both, found, lookup, encoded⟩ := encoded
  simp only [headerLength, lookup]
  split_ifs at encoded with zero paired valued
  · simp only [bind_eq_ok_iff] at encoded
    obtain ⟨nameLiteral, name_sent, valueLiteral, value_sent, encoded⟩ := encoded
    cases encoded
    rw [if_pos zero, ← length_send name_sent, ← length_send value_sent, List.length_append,
      List.length_cons]
    omega
  · simp only [bind_eq_ok_iff] at encoded
    obtain ⟨indexed, sent, encoded⟩ := encoded
    cases encoded
    rw [if_neg zero, if_pos paired]
    exact length_sendInteger (by decide) sent
  · simp only [bind_eq_ok_iff] at encoded
    obtain ⟨indexed, sent, inserted, _, literal, value_sent, encoded⟩ := encoded
    cases encoded
    rw [if_neg zero, if_neg paired, if_neg valued, List.length_append,
      length_sendInteger (by decide) sent, length_send value_sent]
  · simp only [bind_eq_ok_iff] at encoded
    obtain ⟨indexed, sent, inserted, _, encoded⟩ := encoded
    cases encoded
    rw [if_neg zero, if_neg paired, if_pos (not_not.mp valued)]
    exact length_sendInteger (by decide) sent

theorem length_encode {stack : Nat} {settings : Connection} {headers : Headers}
    {table after : DynamicTable}
    {octets : Octets} (encoded : encode stack settings table headers = .ok (octets, after)) :
    octets.length = blockLength settings table headers := by
  induction headers generalizing table octets with
  | nil =>
      cases encoded
      rfl
  | cons header headers ih =>
      simp only [encode, bind_eq_ok_iff, Prod.exists] at encoded
      obtain ⟨front, next, first, back, _, others, encoded⟩ := encoded
      cases encoded
      rw [blockLength, header_absorbed first, List.length_append, length_header first, ih others]

/-- The peer decodes the encoded list into the list. -/
def Conveyed (sender receiver : Nat) (encoder peer : Endpoint) (headers : Headers) : Prop :=
  ∃ octets after final, encode sender encoder.settings encoder.table headers = .ok (octets, after) ∧
    decode none receiver peer.table peer.settings octets = .ok final ∧ final.headers = headers

/-- Between tables in step that hold nothing but what has been delivered, a list is conveyed exactly
when its strings can be delivered and the counters of the table take its insertions. -/
theorem conveyed_iff {sender receiver : Nat} {encoder : Endpoint} {headers : Headers}
    (delivered : Delivered sender receiver encoder.table) (valid : ValidHeaders headers) :
    Conveyed sender receiver encoder encoder headers ↔
      (∀ header ∈ headers, HeaderDeliverable sender receiver header) ∧
        (absorbAll encoder.settings encoder.table headers).isOk := by
  constructor
  · rintro ⟨octets, after, final, encoded, decoded, returned⟩
    refine ⟨?_, by rw [encode_absorbed encoded]; rfl⟩
    by_contra undeliverable
    exact encode_lost delivered valid.all undeliverable encoded
      ⟨encoder.table, encoder.settings, [], false⟩ rfl rfl (by simpa using valid.count) decoded
      (by simpa using returned)
  · rintro ⟨deliverable, absorbed⟩
    cases taken : absorbAll encoder.settings encoder.table headers with
    | error exn =>
        rw [taken] at absorbed
        cases absorbed
    | ok after =>
        obtain ⟨-, octets, encoded, read⟩ :=
          encode_delivered delivered valid.all deliverable taken
        obtain ⟨final, done, -, -, returned⟩ :=
          read ⟨encoder.table, encoder.settings, [], false⟩ rfl rfl (by simpa using valid.count)
        exact ⟨octets, after, final, encoded, done, by simpa using returned⟩

end Hpack

/-! ## The loop -/

section Loop

variable {stack : Nat} {settings : Connection} {streamId : StreamId} {maxSize : Nat}
    {headers : Hpack.Headers}

/-- A turn that does not raise has a `Natural` size. -/
theorem natural_size_of_headerFrames {header : Text × Text} {l : Hpack.Headers} {size : Nat}
    {isFirst : Bool} {table : Hpack.DynamicTable} {outcome : List Frame × Hpack.DynamicTable}
    (done : headerFrames stack settings streamId maxSize (header :: headers) l size isFirst table =
      .ok outcome) : size + headerSize header ≤ naturalLast := by
  by_contra large
  obtain ⟨exn, raised⟩ : ∃ exn, headerFrames stack settings streamId maxSize
    (header :: headers) l size isFirst table =
    .error exn := headerFrames_cons_of_gt (not_le.mp large)
  rw [raised] at done
  cases done

/-- Headers that stay within the size are all left at the end of the loop. -/
theorem headerFrames_within (natural_max : maxSize ≤ naturalLast) :
    ∀ {l : Hpack.Headers} {size : Nat} {isFirst : Bool} {table : Hpack.DynamicTable},
      size + (headers.map headerSize).sum ≤ maxSize →
        headerFrames stack settings streamId maxSize headers l size isFirst table =
          headerFrames stack settings streamId maxSize [] (l ++ headers)
            (size + (headers.map headerSize).sum) isFirst table := by
  induction headers with
  | nil => simp
  | cons header headers ih =>
      intro l size isFirst table within
      rw [List.map_cons, List.sum_cons] at within ⊢
      rw [headerFrames_cons_within (by omega) (by omega), ih (by omega), List.append_assoc,
        Nat.add_assoc]
      rfl

/-- The headers that are left at the end make a HEADERS frame. -/
theorem headerFrames_last :
    ∀ {l : Hpack.Headers} {size : Nat} {isFirst : Bool} {table after : Hpack.DynamicTable}
      {frames : List Frame}, l ≠ [] ∨ headers ≠ [] →
        headerFrames stack settings streamId maxSize headers l size isFirst table =
          .ok (frames, after) →
          ∃ front last, frames = front ++ [last] ∧ last.kind = .headers := by
  induction headers with
  | nil =>
      intro l size isFirst table after frames some_header done
      have left : l ≠ [] := some_header.resolve_right (fun other => other rfl)
      obtain ⟨frame, rfl, created⟩ := (headerFrames_nil_of_ne left).mp done
      rw [Frame.createPart, if_pos rfl] at created
      obtain ⟨octets, -, -, rfl⟩ := encoded_eq_ok_iff.mp created
      exact ⟨[], _, rfl, rfl⟩
  | cons header headers ih =>
      intro l size isFirst table after frames _ done
      have small := natural_size_of_headerFrames done
      by_cases beyond : maxSize < size + headerSize header
      · obtain ⟨frame, middle, rest, rfl, -, later⟩ := (headerFrames_cons_over small beyond).mp done
        obtain ⟨front, last, rfl, kind⟩ := ih (.inl (List.cons_ne_nil _ _)) later
        exact ⟨frame :: front, last, rfl, kind⟩
      · rw [headerFrames_cons_within small beyond] at done
        exact ih (.inl (by simp)) done

/-- Headers that exceed the size make another frame before the last one. -/
theorem headerFrames_over :
    ∀ {l : Hpack.Headers} {size : Nat} {isFirst : Bool} {table after : Hpack.DynamicTable}
      {frames : List Frame}, size ≤ maxSize → maxSize < size + (headers.map headerSize).sum →
        headerFrames stack settings streamId maxSize headers l size isFirst table =
          .ok (frames, after) →
          ∃ first front last, frames = first :: (front ++ [last]) ∧ last.kind = .headers := by
  induction headers with
  | nil =>
      intro l size isFirst table after frames within beyond
      exact absurd beyond (by simpa using within)
  | cons header headers ih =>
      intro l size isFirst table after frames within beyond done
      rw [List.map_cons, List.sum_cons] at beyond
      have small := natural_size_of_headerFrames done
      by_cases complete : maxSize < size + headerSize header
      · obtain ⟨frame, middle, rest, rfl, -, later⟩ :=
          (headerFrames_cons_over small complete).mp done
        obtain ⟨front, last, rfl, kind⟩ :=
          headerFrames_last (.inl (List.cons_ne_nil _ _)) later
        exact ⟨frame, front, last, rfl, kind⟩
      · rw [headerFrames_cons_within small complete] at done
        exact ih (by omega) (by omega) done

end Loop

/-! ## Header blocks -/

/-- The octets of a header list that a frame carries. -/
def Frame.blockFragment (self : Frame) : Octets :=
  match self.payload with
  | .headers content => content
  | .continuation content => content
  | _ => []

/-- The frames are the header block of a stream: a HEADERS frame, which alone may end the stream of
a message without a body, and CONTINUATION frames, the last of which alone ends the headers. -/
structure IsHeaderBlock (streamId : StreamId) (hasBody : Bool) (limit : Nat)
    (frames : List Frame) : Prop where
  kinds : ∃ first rest, frames = first :: rest ∧ first.kind = .headers ∧
    (first.hasFlag endStreamFlag → hasBody = false) ∧
    ∀ frame ∈ rest, frame.kind = .continuation ∧ frame.hasFlag endStreamFlag = false
  ends : ∃ front last, frames = front ++ [last] ∧ last.hasFlag endHeadersFlag ∧
    ∀ frame ∈ front, frame.hasFlag endHeadersFlag = false
  stream : ∀ frame ∈ frames, frame.streamId = streamId
  short : ∀ frame ∈ frames, frame.length = frame.blockFragment.length ∧ frame.length ≤ limit

namespace Message

variable {Resource : Type}

/-- `Handle_Headers` makes a header block that the peer decodes into the headers of the message. -/
def SendsBlock (receiver : Nat) (peer : Hpack.Endpoint) (self : Message Resource) (ctx : Context)
    (streamId : StreamId) : Prop :=
  ∃ frames after final, self.handleHeaders ctx streamId = .ok (frames, after) ∧
    IsHeaderBlock streamId self.hasBody (ctx.settings.values .maxFrameSize) frames ∧
    Hpack.decode none receiver peer.table peer.settings (frames.flatMap Frame.blockFragment) =
      .ok final ∧ final.headers = self.headers

/-- There are headers, all of them are within the maximum size of a header list, and encoded they
fit into one frame, whose length is a `Length_Type`. -/
structure OneFrame (message : Message Resource) (ctx : Context) : Prop where
  nonempty : message.headers ≠ []
  natural_max : ctx.settings.maxHeaderListSize ≤ naturalLast
  within : (message.headers.map headerSize).sum ≤ ctx.settings.maxHeaderListSize
  short : Hpack.blockLength ctx.settings ctx.tabEnc message.headers ≤
    ctx.settings.values .maxFrameSize
  length_type : Hpack.blockLength ctx.settings ctx.tabEnc message.headers < 2 ^ 24

theorem oneFrame_iff {self : Message Resource} {ctx : Context} : OneFrame self ctx ↔
    self.headers ≠ [] ∧ ctx.settings.maxHeaderListSize ≤ naturalLast ∧
      (self.headers.map headerSize).sum ≤ ctx.settings.maxHeaderListSize ∧
      Hpack.blockLength ctx.settings ctx.tabEnc self.headers ≤
        ctx.settings.values .maxFrameSize ∧
      Hpack.blockLength ctx.settings ctx.tabEnc self.headers < 2 ^ 24 :=
  ⟨fun one => ⟨one.1, one.2, one.3, one.4, one.5⟩,
    fun ⟨h₁, h₂, h₃, h₄, h₅⟩ => ⟨h₁, h₂, h₃, h₄, h₅⟩⟩

instance (self : Message Resource) (ctx : Context) : Decidable (OneFrame self ctx) :=
  decidable_of_iff' _ oneFrame_iff

/-- The frame that a header list within the size makes. -/
def soleFrame (self : Message Resource) (streamId : StreamId) (octets : Octets) : Frame where
  length := octets.length
  flags := if self.hasBody then endHeadersFlag else endHeadersFlag ||| endStreamFlag
  streamId := streamId
  payload := .headers octets

theorem isHeaderBlock_soleFrame (self : Message Resource) (streamId : StreamId) {octets : Octets}
    {limit : Nat} (short : octets.length ≤ limit) :
    IsHeaderBlock streamId self.hasBody limit [self.soleFrame streamId octets] where
  kinds := by
    refine ⟨_, [], rfl, rfl, ?_, by simp⟩
    cases body : self.hasBody with
    | true =>
        simp only [soleFrame, Frame.hasFlag, body]
        decide
    | false => exact fun _ => rfl
  ends := by
    refine ⟨[], _, rfl, ?_, by simp⟩
    cases body : self.hasBody with
    | true => simp [soleFrame, Frame.hasFlag, body]
    | false =>
        simp only [soleFrame, Frame.hasFlag, body]
        decide
  stream := by simp [soleFrame]
  short := by simpa [soleFrame, Frame.blockFragment] using short

/-- Headers within the size make one frame. -/
theorem handleHeaders_within {self : Message Resource} {ctx : Context} {streamId : StreamId}
    {frames : List Frame} {after : Hpack.DynamicTable} (nonempty : self.headers ≠ [])
    (natural_max : ctx.settings.maxHeaderListSize ≤ naturalLast)
    (within : (self.headers.map headerSize).sum ≤ ctx.settings.maxHeaderListSize) :
    self.handleHeaders ctx streamId = .ok (frames, after) ↔ ∃ octets,
      Hpack.encode ctx.stack ctx.settings ctx.tabEnc self.headers = .ok (octets, after) ∧
        octets.length < 2 ^ 24 ∧ frames = [self.soleFrame streamId octets] := by
  have positive_max : 1 ≤ ctx.settings.maxHeaderListSize := by
    obtain ⟨header, headers, list_eq⟩ := List.exists_cons_of_ne_nil nonempty
    rw [list_eq, List.map_cons, List.sum_cons, headerSize] at within
    omega
  rw [handleHeaders, positive_of_le positive_max natural_max, ok_bind,
    headerFrames_within natural_max (by simpa using within), List.nil_append]
  simp only [bind_eq_ok_iff, Prod.exists, headerFrames_nil_of_ne nonempty]
  constructor
  · rintro ⟨list, table, ⟨frame, rfl, created⟩, done⟩
    rw [Frame.createPart, if_pos rfl] at created
    obtain ⟨octets, encoded, short, rfl⟩ := encoded_eq_ok_iff.mp created
    refine ⟨octets, ?_⟩
    cases body : self.hasBody with
    | true =>
        rw [body] at done
        cases done
        exact ⟨encoded, short, by simp [soleFrame, body]⟩
    | false =>
        rw [body] at done
        cases done
        exact ⟨encoded, short, by simp [soleFrame, body, Frame.setFlag]⟩
  · rintro ⟨octets, encoded, short, rfl⟩
    refine ⟨[⟨octets.length, endHeadersFlag, streamId, .headers octets⟩], after,
      ⟨_, rfl, ?_⟩, ?_⟩
    · rw [Frame.createPart, if_pos rfl]
      exact encoded_eq_ok_iff.mpr ⟨octets, encoded, short, rfl⟩
    · cases body : self.hasBody with
      | true => simp [soleFrame, body]
      | false => simp [soleFrame, body, Frame.setFlag, Frame.setLastFlag]

/-- Headers that make a header block make one frame. -/
theorem within_of_isHeaderBlock {self : Message Resource} {ctx : Context} {streamId : StreamId}
    {frames : List Frame} {after : Hpack.DynamicTable} {limit : Nat}
    (done : self.handleHeaders ctx streamId = .ok (frames, after))
    (block : IsHeaderBlock streamId self.hasBody limit frames) :
    self.headers ≠ [] ∧ ctx.settings.maxHeaderListSize ≤ naturalLast ∧
      (self.headers.map headerSize).sum ≤ ctx.settings.maxHeaderListSize := by
  obtain ⟨first, rest, frames_eq, -, -, continuations⟩ := block.kinds
  simp only [handleHeaders, bind_eq_ok_iff, Prod.exists] at done
  obtain ⟨maxSize, max_read, list, table, made, done⟩ := done
  have max_bounds : maxSize = ctx.settings.maxHeaderListSize ∧ maxSize ≤ naturalLast := by
    unfold positive at max_read
    split at max_read
    · next bounds =>
        cases max_read
        exact ⟨rfl, bounds.2⟩
    · cases max_read
  obtain ⟨rfl, natural_max⟩ := max_bounds
  refine ⟨?_, natural_max, ?_⟩
  · intro empty
    rw [empty, headerFrames, if_pos rfl] at made
    cases made
    split at done
    · cases done
      cases frames_eq
    · cases done
  · by_contra beyond
    obtain ⟨frame, front, last, rfl, last_kind⟩ := headerFrames_over (Nat.zero_le _)
      (by rw [Nat.zero_add]; exact not_le.mp beyond) made
    -- whether or not the last frame ends the stream, it stays a HEADERS frame
    have last_frame : ∃ last' : Frame, last'.kind = .headers ∧
        frames = frame :: (front ++ [last']) := by
      split at done
      · cases done
        exact ⟨last, last_kind, rfl⟩
      · rw [← List.cons_append, Frame.setLastFlag, List.getLast?_concat] at done
        simp only [List.dropLast_concat, ok_bind, pure_eq_ok, Except.ok.injEq,
          Prod.mk.injEq] at done
        exact ⟨last.setFlag endStreamFlag, last_kind, done.1.symm⟩
    obtain ⟨last', kind, same⟩ := last_frame
    rw [frames_eq] at same
    obtain ⟨rfl, rfl⟩ := List.cons.inj same
    have continuation := (continuations last' (by simp)).1
    rw [kind] at continuation
    cases continuation

/-- A message is sent as a header block exactly when its headers make one frame and the HPACK codec
conveys them; which lists it conveys, between tables in step, is known. -/
theorem sendsBlock_iff (receiver : Nat) (peer : Hpack.Endpoint) (self : Message Resource)
    (ctx : Context) (streamId : StreamId) :
    (SendsBlock receiver peer self ctx streamId ↔
        OneFrame self ctx ∧
          Hpack.Conveyed ctx.stack receiver ⟨ctx.settings, ctx.tabEnc⟩ peer self.headers) ∧
      (peer = ⟨ctx.settings, ctx.tabEnc⟩ → Hpack.Delivered ctx.stack receiver ctx.tabEnc →
        Hpack.ValidHeaders self.headers →
          (Hpack.Conveyed ctx.stack receiver ⟨ctx.settings, ctx.tabEnc⟩ peer self.headers ↔
            (∀ header ∈ self.headers, Hpack.HeaderDeliverable ctx.stack receiver header) ∧
              (Hpack.absorbAll ctx.settings ctx.tabEnc self.headers).isOk)) := by
  constructor
  · constructor
    · rintro ⟨frames, after, final, done, block, decoded, returned⟩
      obtain ⟨nonempty, natural_max, within⟩ := within_of_isHeaderBlock done block
      obtain ⟨octets, encoded, length_type, rfl⟩ :=
        (handleHeaders_within nonempty natural_max within).mp done
      have length_eq := Hpack.length_encode encoded
      have short : octets.length ≤ ctx.settings.values .maxFrameSize :=
        (block.short _ List.mem_cons_self).2
      refine ⟨⟨nonempty, natural_max, within, length_eq ▸ short, length_eq ▸ length_type⟩,
        octets, after, final, encoded, ?_, returned⟩
      simpa [soleFrame, Frame.blockFragment] using decoded
    · rintro ⟨one, octets, after, final, encoded, decoded, returned⟩
      have length_eq : octets.length = Hpack.blockLength ctx.settings ctx.tabEnc self.headers :=
        Hpack.length_encode encoded
      refine ⟨_, after, final,
        (handleHeaders_within one.nonempty one.natural_max one.within).mpr
          ⟨octets, encoded, length_eq ▸ one.length_type, rfl⟩,
        isHeaderBlock_soleFrame self streamId (length_eq ▸ one.short), ?_, returned⟩
      simpa [soleFrame, Frame.blockFragment] using decoded
  · rintro rfl delivered valid
    exact Hpack.conveyed_iff delivered valid

/-- A response that has a header only. -/
def headerOnly (headers : Hpack.Headers) : Message Unit where
  mode := .header
  ranges := []
  streamId := 1
  headers := headers
  sent := 0
  hSent := false
  bSent := false
  mBody := none

/-- The context of a peer that announces a maximum header list size. -/
def contextOf (maxHeaderListSize : Positive) : Context :=
  .create { Config.default with maxHeaderListSize } 65536

theorem sendsBlock_status :
    SendsBlock 65536 ⟨(contextOf ⟨83, by decide⟩).settings, .empty⟩
      (headerOnly [(text ":status", text "200"), (text "server", text "AWS")])
      (contextOf ⟨83, by decide⟩) 1 := by
  have sole := sendsBlock_iff 65536 ⟨(contextOf ⟨83, by decide⟩).settings, .empty⟩
    (headerOnly [(text ":status", text "200"), (text "server", text "AWS")])
    (contextOf ⟨83, by decide⟩) 1
  exact sole.1.mpr ⟨by decide +kernel,
    (sole.2 rfl (Hpack.delivered_empty _ _) (by decide +kernel)).mpr (by decide +kernel)⟩

/-- Two headers that exceed the size together make two HEADERS frames. -/
theorem two_headers_frames :
    ¬ SendsBlock 65536 ⟨(contextOf ⟨82, by decide⟩).settings, .empty⟩
      (headerOnly [(text ":status", text "200"), (text "server", text "AWS")])
      (contextOf ⟨82, by decide⟩) 1 := by
  rintro ⟨frames, after, final, done, block, -⟩
  obtain ⟨-, -, within⟩ := within_of_isHeaderBlock done block
  exact absurd within (by decide)

end Message

end Http2
end AdaWebServer
