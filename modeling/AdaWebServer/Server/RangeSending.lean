import AdaWebServer.Server.ByteRanges
import Mathlib.Data.List.Forall2

/-!
# Sending ranges

`Send_File_Ranges_G` in HTTP/1 mode writes the ranges of a resource to the socket, each of them
behind its `Content-Range` and `Content-Length` headers.  They are the ranges of the request as far
as `Parse_Content_Range` finds them.  Several ranges do not make the answer that is asked for: no
empty line ends the fields of the message, and the delimiters are not at the beginning of a line.

What is written to the socket succeeds, and no data timeout expires as long as the resource gives
octets.
-/

namespace AdaWebServer
namespace Server
namespace RangeSending

open ByteRanges (Item RangeSpec header specsOf_header accepted_header)
open Http2 (Octets Text Exn text slice answerOf answerBody layoutPart separator partHeader closing
  specsOf rangesBody ok_bind)
open Http2.Framing (boundary crlf parseContentRange)
open Resources

variable {Resource : Type} [StreamType Resource]

/-- The resource, what has been sent, and the size of the next piece. -/
structure Sending (Resource : Type) where
  file : Resource
  sent : Octets
  nextSize : Nat

/-- The loop of `Send_File_G`.  `Check_Data_Timeout` ends it when the resource gives nothing. -/
def sendPieces : Nat → Sending Resource → Except Exn (Sending Resource)
  | 0, _ => .error .socketError
  | fuel + 1, self => do
      let (data, file) ← StreamType.read self.file self.nextSize
      let nextSize := if StreamType.endOfFile file then 0 else self.nextSize
      let next : Sending Resource := ⟨file, self.sent ++ data, nextSize⟩
      if nextSize = 0 then return next else sendPieces fuel next

/-- `Send_File_G`. -/
def sendFile (self : Sending Resource) (start length : Nat) : Except Exn (Sending Resource) := do
  let file ← StreamType.setIndex self.file start
  sendPieces (length + 2) { self with file }

/-- The loop of `Send`.  It would go on for ever if the next size was zero. -/
def sendText (lastOne : Bool) : Nat → Octets → Sending Resource → Except Exn (Sending Resource)
  | 0, _, _ => .error .storageError
  | fuel + 1, buffer, self =>
      if buffer.length ≤ self.nextSize then
        .ok { self with
          sent := self.sent ++ buffer
          nextSize := if lastOne then 0 else self.nextSize }
      else
        sendText lastOne fuel (buffer.drop self.nextSize)
          { self with sent := self.sent ++ buffer.take self.nextSize }

/-- `Send` on a text. -/
def send (self : Sending Resource) (str : Text) (lastOne : Bool) : Except Exn (Sending Resource) :=
  sendText lastOne (str.length + 1) str self

/-- The loop of `Send_Range`, with the number of octets of the range that are left. -/
def sendRangePieces (nRange : Nat) : Nat → Sending Resource → Int → Except Exn (Sending Resource)
  | 0, _, _ => .error .socketError
  | fuel + 1, self, left =>
      if left = 0 then
        .ok self
      else do
        let size := if (self.nextSize : Int) < left then self.nextSize else left.toNat
        let nextSize := if left ≤ (self.nextSize : Int) ∧ nRange = 1 then 0 else self.nextSize
        let (data, file) ← StreamType.read self.file size
        if data = [] then
          return { self with file, nextSize }
        else
          sendRangePieces nRange fuel ⟨file, self.sent ++ data, nextSize⟩ (left - data.length)

/-- `Send_Range`: a single range. -/
def sendRange (nRange : Nat) (length : Int) (self : Sending Resource) (range : Text) :
    Except Exn (Sending Resource) := do
  let self ← if nRange ≠ 1 then send self separator false else pure self
  let (first, last) ← parseContentRange range length
  let rangeLength := last - first + 1
  let self ← send self (partHeader first last length) false
  let file ← StreamType.setIndex self.file (first + 1).toNat
  sendRangePieces nRange (rangeLength.toNat + 1) { self with file } rangeLength

/-- The loop of `Send_File_Ranges_G` over the ranges. -/
def sendEachRange (nRange : Nat) (length : Int) :
    List Text → Sending Resource → Except Exn (Sending Resource)
  | [], self => .ok self
  | range :: ranges, self => do
      let self ← sendRange nRange length self range
      sendEachRange nRange length ranges self

/-- `Send_File_Ranges_G` in HTTP/1 mode, with the content type of the answer. -/
def sendFileRanges (file : Resource) (ranges : Text) (chunkSize : Nat) (length : Nat)
    (contentType : Text) (sent : Octets) : Except Exn (Sending Resource) :=
  let nRange := 1 + ranges.count 44
  let nMinus := ranges.count 45
  if nRange ≠ nMinus ∨ 61 ∉ ranges ∨ ranges.takeWhile (· ≠ 61) ≠ text "bytes" then
    sendFile ⟨file, sent, chunkSize⟩ 1 length
  else do
    let format :=
      if nRange = 1 then contentType else text "multipart/byteranges" ++
        text "; boundary=" ++ boundary
    let self ← send ⟨file, sent, chunkSize⟩ (text "Content-Type" ++ text ": " ++ format ++ crlf)
      false
    let self ← sendEachRange nRange length (specsOf ranges) self
    if nRange ≠ 1 then send self closing true else return self

/-! ## The octets of the ranges -/

/-- A range behind its headers, as it is sent. -/
def part (content : Octets) (bounds : Nat × Nat) : Octets :=
  partHeader bounds.1 bounds.2 content.length ++ slice content bounds.1 bounds.2

/-- What is sent for some ranges in HTTP/1 mode. -/
def response (contentType : Text) (content : Octets) : List (Nat × Nat) → Octets
  | [bounds] => text "Content-Type" ++ text ": " ++ contentType ++ crlf ++ part content bounds
  | all =>
      text "Content-Type" ++ text ": " ++
        (text "multipart/byteranges" ++ text "; boundary=" ++ boundary) ++ crlf ++
          ((all.map fun bounds => separator ++ part content bounds).flatten ++ closing)

/-- The indexes of ranges. -/
def indexes (all : List (Nat × Nat)) : List (Int × Int) :=
  all.map fun bounds => (bounds.1, bounds.2)

/-- A text is read as a range within the resource. -/
structure Parses (length : Nat) (spec : Text) (bounds : Nat × Nat) : Prop where
  parsed : parseContentRange spec length = .ok ((bounds.1 : Int), (bounds.2 : Int))
  ordered : bounds.1 ≤ bounds.2
  within : bounds.2 < length

/-! ## What is written -/

omit [StreamType Resource] in
theorem send_eq (self : Sending Resource) (some_size : self.nextSize ≠ 0) (str : Text)
    (lastOne : Bool) :
    send self str lastOne = .ok { self with
      sent := self.sent ++ str
      nextSize := if lastOne then 0 else self.nextSize } := by
  have sends : ∀ (fuel : Nat) (str : Text) (self : Sending Resource), self.nextSize ≠ 0 →
      str.length < fuel → sendText lastOne fuel str self = .ok { self with
        sent := self.sent ++ str
        nextSize := if lastOne then 0 else self.nextSize } := by
    intro fuel
    induction fuel with
    | zero => exact fun _ _ _ enough => absurd enough (Nat.not_lt_zero _)
    | succ fuel ih =>
        intro str self some_size enough
        rw [sendText]
        split
        · rfl
        · next longer =>
            have shorter : (str.drop self.nextSize).length < fuel := by
              rw [List.length_drop]
              omega
            have later := ih (str.drop self.nextSize)
              { self with sent := self.sent ++ str.take self.nextSize } some_size shorter
            rw [later, List.append_assoc, List.take_append_drop]
  exact sends _ str self some_size (Nat.lt_succ_self _)

section Regular

variable [Documented Resource] [Regular Resource] {content : Octets} {position nRange : Nat}

/-- The octets of a range are written one after another. -/
theorem sendRangePieces_eq {self : Sending Resource} (some_size : self.nextSize ≠ 0)
    (holds : Documented.Holds self.file content position) {left fuel : Nat}
    (within : position + left ≤ content.length) (enough : left < fuel) :
    ∃ final, sendRangePieces nRange fuel self left = .ok final ∧
      final.sent = self.sent ++ (content.drop position).take left ∧
      (∃ behind, Documented.Holds final.file content behind) ∧
      (nRange ≠ 1 → final.nextSize = self.nextSize) := by
  induction fuel generalizing self position left with
  | zero => exact absurd enough (Nat.not_lt_zero _)
  | succ fuel ih =>
      rw [sendRangePieces]
      by_cases beyond : left = 0
      · subst beyond
        rw [if_pos Int.natCast_zero, List.take_zero, List.append_nil]
        exact ⟨self, rfl, rfl, ⟨position, holds⟩, fun _ => rfl⟩
      · have not_over : (left : Int) ≠ 0 := by omega
        have size_eq : (if (self.nextSize : Int) < left then self.nextSize else
          (left : Int).toNat) = min self.nextSize left := by
          split <;> omega
        obtain ⟨after, read_eq, after_holds⟩ := Regular.read_eq holds (min self.nextSize left)
        have data_length : ((content.drop position).take (min self.nextSize left)).length =
            min self.nextSize left := by
          rw [List.length_take, List.length_drop]
          omega
        have some_data : (content.drop position).take (min self.nextSize left) ≠ [] := by
          rw [← List.length_pos_iff, data_length]
          omega
        dsimp only
        rw [if_neg not_over, size_eq, read_eq, ok_bind]
        dsimp only
        rw [if_neg some_data, data_length]
        rw [data_length] at after_holds
        have left_eq : (left : Int) - (min self.nextSize left : Nat) =
            ((left - min self.nextSize left : Nat) : Int) := by omega
        rw [left_eq]
        by_cases last : left ≤ self.nextSize
        · obtain ⟨fuel, rfl⟩ : ∃ rest, fuel = rest + 1 := ⟨fuel - 1, by omega⟩
          have nothing_left : left - min self.nextSize left = 0 := by omega
          rw [nothing_left, sendRangePieces, if_pos Int.natCast_zero, Nat.min_eq_right last]
          refine ⟨_, rfl, rfl, ⟨_, after_holds⟩, fun several => ?_⟩
          exact if_neg fun both => several both.2
        · have not_last : ¬((left : Int) ≤ self.nextSize ∧ nRange = 1) := by omega
          rw [if_neg not_last]
          obtain ⟨final, done, sent_eq, final_holds, next_eq⟩ := @ih _
            ⟨after, self.sent ++ (content.drop position).take (min self.nextSize left),
              self.nextSize⟩
            some_size after_holds (left - min self.nextSize left) (by omega) (by omega)
          refine ⟨final, done, ?_, final_holds, next_eq⟩
          rw [sent_eq, List.append_assoc, ← List.drop_drop, ← List.take_add]
          congr 3
          omega

/-- A range is written behind its headers. -/
theorem sendRange_eq {self : Sending Resource} (some_size : self.nextSize ≠ 0)
    (holds : Documented.Holds self.file content position) {spec : Text} {bounds : Nat × Nat}
    (parses : Parses content.length spec bounds) :
    ∃ final, sendRange nRange content.length self spec = .ok final ∧
      final.sent = self.sent ++ ((if nRange ≠ 1 then separator else []) ++ part content bounds) ∧
      (∃ behind, Documented.Holds final.file content behind) ∧
      (nRange ≠ 1 → final.nextSize = self.nextSize) := by
  obtain ⟨parsed, ordered, bounds_within⟩ := parses
  obtain ⟨middle, seeked, middle_holds⟩ := Regular.setIndex_eq holds bounds.1
  have start_eq : min bounds.1 content.length = bounds.1 := by omega
  rw [start_eq] at middle_holds
  have length_eq : (bounds.2 : Int) - bounds.1 + 1 = ((bounds.2 - bounds.1 + 1 : Nat) : Int) := by
    omega
  have target_eq : ((bounds.1 : Int) + 1).toNat = bounds.1 + 1 := by omega
  obtain ⟨final, done, sent_eq, final_holds, next_eq⟩ := @sendRangePieces_eq Resource _ _ _ content
    bounds.1 nRange ⟨middle, self.sent ++ (if nRange ≠ 1 then separator else []) ++
      partHeader bounds.1 bounds.2 content.length, self.nextSize⟩ some_size middle_holds
    (bounds.2 - bounds.1 + 1) (bounds.2 - bounds.1 + 1 + 1) (by omega) (Nat.lt_succ_self _)
  refine ⟨final, ?_, ?_, final_holds, next_eq⟩
  · have behind : ∀ announced : Octets, (do
        let (first, last) ← parseContentRange spec content.length
        let self ← send ⟨self.file, announced, self.nextSize⟩
          (partHeader first last content.length) false
        let file ← StreamType.setIndex self.file (first + 1).toNat
        sendRangePieces nRange ((last - first + 1).toNat + 1) { self with file }
          (last - first + 1)) =
        sendRangePieces nRange (bounds.2 - bounds.1 + 1 + 1)
          ⟨middle, announced ++ partHeader bounds.1 bounds.2 content.length, self.nextSize⟩
          ((bounds.2 - bounds.1 + 1 : Nat) : Int) := by
      intro announced
      rw [parsed, ok_bind]
      dsimp only
      rw [send_eq ⟨self.file, announced, self.nextSize⟩ some_size, ok_bind, target_eq, seeked,
        ok_bind, length_eq, Int.toNat_natCast]
      rfl
    rw [sendRange]
    by_cases several : nRange ≠ 1
    · rw [if_pos several] at done ⊢
      rw [send_eq self some_size, ok_bind]
      exact (behind _).trans done
    · rw [if_neg several] at done ⊢
      rw [List.append_nil] at done
      exact (behind _).trans done
  · rw [sent_eq, part, slice, length_eq]
    simp only [List.append_assoc, Int.toNat_natCast]

/-- Several ranges are written one after another. -/
theorem sendEachRange_several (several : nRange ≠ 1) {specs : List Text} {all : List (Nat × Nat)}
    (parses : List.Forall₂ (Parses content.length) specs all) {self : Sending Resource}
    (some_size : self.nextSize ≠ 0) (holds : Documented.Holds self.file content position) :
    ∃ final, sendEachRange nRange content.length specs self = .ok final ∧
      final.sent = self.sent ++ (all.map fun bounds => separator ++ part content bounds).flatten ∧
      final.nextSize = self.nextSize := by
  induction parses generalizing self position with
  | nil => exact ⟨self, rfl, (List.append_nil _).symm, rfl⟩
  | cons first later ih =>
      obtain ⟨middle, done, sent_eq, ⟨behind, middle_holds⟩, next_eq⟩ :=
        @sendRange_eq _ _ _ _ _ _ nRange _ some_size holds _ _ first
      rw [if_pos several] at sent_eq
      obtain ⟨final, finished, final_sent, final_next⟩ :=
        ih ((next_eq several).symm ▸ some_size) middle_holds
      refine ⟨final, ?_, ?_, final_next.trans (next_eq several)⟩
      · rw [sendEachRange, done]
        exact finished
      · rw [final_sent, sent_eq, List.map_cons, List.flatten_cons, List.append_assoc]

/-- The header of some items is answered by the ranges that they are read as. -/
theorem sendFileRanges_header {items : List Item} (nonempty : items ≠ []) {all : List (Nat × Nat)}
    (parses : List.Forall₂ (Parses content.length) (items.map Item.text) all) {file : Resource}
    (holds : Documented.Holds file content position) (contentType : Text) (sent : Octets) :
    ∃ final, sendFileRanges file (header items) 4096 content.length contentType sent = .ok final ∧
      final.sent = sent ++ response contentType content all := by
  have some_size : 4096 ≠ 0 := by decide
  have accepted := accepted_header nonempty
  have specs_length := accepted.length_specsOf
  rw [specsOf_header nonempty, List.length_map] at specs_length
  obtain ⟨has_equal, unit, minus⟩ := accepted
  have well_formed : ¬(1 + (header items).count 44 ≠ (header items).count 45 ∨ 61 ∉ header items ∨
      (header items).takeWhile (· ≠ 61) ≠ text "bytes") := by
    rw [not_or, not_or, not_not, not_not, not_not]
    exact ⟨minus.symm, has_equal, unit⟩
  have all_length := parses.length_eq
  rw [List.length_map, specs_length] at all_length
  rw [sendFileRanges]
  dsimp only
  rw [if_neg well_formed, send_eq ⟨file, sent, 4096⟩ some_size, ok_bind, specsOf_header nonempty]
  by_cases single : 1 + (header items).count 44 = 1
  · rw [single] at all_length
    obtain ⟨bounds, rfl⟩ := List.length_eq_one_iff.1 all_length.symm
    obtain ⟨spec, specs_eq⟩ : ∃ spec, items.map Item.text = [spec] := by
      rw [← List.length_eq_one_iff, List.length_map, specs_length, single]
    rw [specs_eq] at parses
    obtain ⟨final, done, sent_eq, -, -⟩ := @sendRange_eq Resource _ _ _ content position 1
      ⟨file, sent ++ (text "Content-Type" ++ text ": " ++ contentType ++ crlf), 4096⟩
        some_size holds
      spec bounds (List.forall₂_cons.1 parses).1
    refine ⟨final, ?_, ?_⟩
    · rw [single, specs_eq, sendEachRange]
      simp only [ne_eq, not_true_eq_false, if_false, if_true, Bool.false_eq_true, sendEachRange]
      rw [done]
      rfl
    · rw [sent_eq, response, if_neg (by decide)]
      simp only [List.nil_append, List.append_assoc]
  · obtain ⟨final, done, sent_eq, next_eq⟩ :=
      @sendEachRange_several Resource _ _ _ content position _
      single _ _ parses ⟨file, sent ++ (text "Content-Type" ++ text ": " ++
        (text "multipart/byteranges" ++ text "; boundary=" ++ boundary) ++ crlf), 4096⟩
          some_size holds
    refine ⟨{ final with sent := final.sent ++ closing, nextSize := 0 }, ?_, ?_⟩
    · simp only [ne_eq, single, not_false_eq_true, if_true, if_false, Bool.false_eq_true]
      have still_open : final.nextSize ≠ 0 := by
        rw [next_eq]
        exact some_size
      rw [done, ok_bind, send_eq final still_open]
      rfl
    · have several : ∀ bounds, all ≠ [bounds] :=
        fun bounds one => single (by rw [all_length, one]; rfl)
      have response_eq : response contentType content all = text "Content-Type" ++ text ": " ++
          (text "multipart/byteranges" ++ text "; boundary=" ++ boundary) ++ crlf ++
            ((all.map fun bounds => separator ++ part content bounds).flatten ++ closing) := by
        rw [response]
        exact several
      rw [response_eq]
      dsimp only
      rw [sent_eq]
      simp only [List.append_assoc]

end Regular

/-- A single range is sent as the answer that it asks for. -/
theorem response_single (contentType : Text) (content : Octets) {bounds : Nat × Nat}
    (ordered : bounds.1 ≤ bounds.2) :
    response contentType content [bounds] = answerOf contentType content (indexes [bounds]) := by
  have size_nonneg : (0 : Int) ≤ (bounds.2 : Int) - bounds.1 + 1 := by omega
  have bytes : text ": bytes " = text ": " ++ text "bytes " := by decide
  have colon : text ": " = text ":" ++ text " " := by decide
  rw [response, indexes, List.map_singleton, answerOf, part, partHeader, Http2.Framing.offsetImage,
    if_pos size_nonneg, Http2.messageOf, Http2.rangeFields, bytes]
  simp only [List.map_cons, List.map_nil, List.flatten_cons, List.flatten_nil, Http2.fieldLine,
    Http2.decimalText, List.append_assoc, List.append_nil]
  simp only [colon, List.append_assoc]
  rfl

/-- Several ranges, or none, are not sent as the answer that they ask for. -/
theorem response_several (contentType : Text) (content : Octets) {all : List (Nat × Nat)}
    (several : all.length ≠ 1) :
    response contentType content all ≠ answerOf contentType content (indexes all) := by
  have dashed : ∃ later, (all.map fun bounds => separator ++ part content bounds).flatten ++
    closing = 45 :: later := by
    have dashes : text "--" = [45, 45] := by decide
    cases all with
    | nil =>
        rw [closing, dashes]
        exact ⟨_, rfl⟩
    | cons bounds later =>
        rw [List.map_cons, List.flatten_cons, separator, dashes]
        exact ⟨_, rfl⟩
  obtain ⟨later, later_eq⟩ := dashed
  have not_single : ∀ bounds, all ≠ [bounds] := fun bounds one => several (one ▸ rfl)
  have not_index : ∀ bounds, indexes all ≠ [bounds] := by
    intro bounds one
    have length_eq := congrArg List.length one
    rw [indexes, List.length_map] at length_eq
    exact several length_eq
  rw [response, answerOf, later_eq, Http2.messageOf, List.map_singleton, List.flatten_singleton,
    Http2.fieldLine]
  · -- an octet of a delimiter stands where the fields should end
    intro same
    simp only [List.append_assoc] at same
    have behind := List.append_cancel_left (List.append_cancel_left (List.append_cancel_left
      (List.append_cancel_left (List.append_cancel_left same))))
    have same_octet := (List.cons.inj (List.append_cancel_left behind)).1
    exact absurd same_octet (by decide)
  · exact not_index
  · exact not_single

/-- The body for the header of one item in HTTP/2 mode. -/
theorem rangesBody_header {item : Item} {content : Octets} {bounds : Nat × Nat}
    (parses : Parses content.length item.text bounds) :
    rangesBody (header [item]) content = .ok (answerBody content (indexes [bounds])) := by
  have specs_eq : specsOf (header [item]) = [item.text] := specsOf_header (List.cons_ne_nil _ _)
  rw [rangesBody, specs_eq]
  dsimp only
  rw [parses.parsed]
  rfl

/-! ## The ranges of a request -/

/-- In both modes the ranges of a resource are sent as the answer that is asked for. -/
def Answered (items : List Item) (content : Octets) (all : List (Nat × Nat)) : Prop :=
  ∀ (Resource : Type) [StreamType Resource] [Documented Resource] [Regular Resource]
    (file : Resource) (position : Nat), Documented.Holds file content position →
      (∀ contentType sent, ∃ final,
        sendFileRanges file (header items) 4096 content.length contentType sent = .ok final ∧
          final.sent = sent ++ answerOf contentType content (indexes all)) ∧
      ∀ streamId framing chunkSize, Http2.Paced framing chunkSize →
        (answerBody content (indexes all)).length ≤ framing.fcw → ∃ after final,
          Http2.Framing.sendFileRanges streamId file framing (header items)
            chunkSize content.length = .ok (after, final) ∧
          Http2.Emitted (answerBody content (indexes all)) framing final

/-- Each item is parsed as the range of its specification, or rejected if there is none, and if
there are ranges for all items then they are sent. -/
def Served (items : List Item) (length : Nat) : Prop :=
  (∀ item ∈ items, item.Exact length) ∧
    ∀ all : List (Nat × Nat), items.map (·.spec.range length) = all.map some →
      ∀ content : Octets, content.length = length → Answered items content all

private theorem parses_of_exact {length : Nat} (some_length : 0 < length) {items : List Item}
    (exact : ∀ item ∈ items, item.Exact length) {all : List (Nat × Nat)}
    (ranges : items.map (·.spec.range length) = all.map some) :
    List.Forall₂ (Parses length) (items.map Item.text) all := by
  induction items generalizing all with
  | nil =>
      cases all with
      | nil => exact .nil
      | cons bounds all => cases ranges
  | cons item items ih =>
      cases all with
      | nil => cases ranges
      | cons bounds all =>
          have range_eq : item.spec.range length = some bounds := (List.cons.inj ranges).1
          have later_eq := (List.cons.inj ranges).2
          rw [List.forall_mem_cons] at exact
          refine .cons ?_ (ih exact.2 later_eq)
          have parsed := exact.1
          rw [Item.Exact, range_eq] at parsed
          obtain ⟨ordered, within⟩ := RangeSpec.range_within range_eq some_length
          exact ⟨parsed, ordered, within⟩

theorem answered_single {item : Item} {content : Octets} {bounds : Nat × Nat}
    (parses : Parses content.length item.text bounds) : Answered [item] content [bounds] := by
  intro Resource _ _ _ file position holds
  have nonempty : [item] ≠ [] := List.cons_ne_nil _ _
  constructor
  · intro contentType sent
    obtain ⟨final, done, sent_eq⟩ := sendFileRanges_header nonempty (.cons parses .nil) holds
      contentType sent
    exact ⟨final, done, by rw [sent_eq, response_single contentType content parses.ordered]⟩
  · intro streamId framing chunkSize paced fits
    have accepted := accepted_header nonempty
    have single : (header [item]).count 44 = 0 := by
      have length_eq := accepted.length_specsOf
      rw [specsOf_header nonempty, List.map_singleton, List.length_singleton] at length_eq
      omega
    obtain ⟨after, final, done, -, emitted, -⟩ := @Http2.Framing.sendFileRanges_single streamId
      framing _ _ _ _ file content position _ _ chunkSize accepted single
        (rangesBody_header parses) holds paced
    rw [List.take_of_length_le fits] at emitted
    exact ⟨after, final, done, emitted⟩

/-- Several ranges, or none, are never answered. -/
theorem not_answered {items : List Item} (nonempty : items ≠ []) {content : Octets}
    {all : List (Nat × Nat)}
    (parses : List.Forall₂ (Parses content.length) (items.map Item.text) all)
    (several : items.length ≠ 1) : ¬Answered items content all := by
  intro answered
  have holds : Documented.Holds (⟨content, 0⟩ : DiskStream) content 0 := ⟨rfl, rfl⟩
  obtain ⟨final, done, sent_eq⟩ := (answered DiskStream _ _ holds).1 [] []
  obtain ⟨other, other_done, other_eq⟩ := sendFileRanges_header nonempty parses holds [] []
  cases done.symm.trans other_done
  have all_length := parses.length_eq
  rw [List.length_map] at all_length
  exact response_several [] content (all_length ▸ several)
    (List.append_cancel_left (other_eq.symm.trans sent_eq))

/-- The ranges of a request are found, sent and announced exactly when each of its items is
supported, and there is a single one or one without a range. -/
theorem served_iff_supported {items : List Item} (nonempty : items ≠ []) {length : Nat}
    (some_length : 0 < length) :
    Served items length ↔ (∀ item ∈ items, item.Supported length) ∧
      (items.length ≠ 1 → ∃ item ∈ items, item.spec.range length = none) := by
  constructor
  · rintro ⟨exact, answered⟩
    refine ⟨fun item among => (item.exact_iff_supported some_length).1 (exact item among), ?_⟩
    intro several
    by_contra ranged
    have ranges : items.map (·.spec.range length) =
        (items.map fun item => (item.spec.range length).getD (0, 0)).map some := by
      rw [List.map_map]
      refine List.map_congr_left fun item among => ?_
      cases range_eq : item.spec.range length with
      | none => exact absurd ⟨item, among, range_eq⟩ ranged
      | some bounds => rw [Function.comp_apply, range_eq, Option.getD_some]
    obtain ⟨content, rfl⟩ : ∃ content : Octets, content.length = length :=
      ⟨List.replicate length 0, List.length_replicate⟩
    exact not_answered nonempty (parses_of_exact some_length exact ranges) several
      (answered _ ranges content rfl)
  · rintro ⟨supported, single⟩
    have exact : ∀ item ∈ items, item.Exact length := fun item among =>
      (item.exact_iff_supported some_length).2 (supported item among)
    refine ⟨exact, ?_⟩
    rintro all ranges content rfl
    have parses := parses_of_exact some_length exact ranges
    by_cases one : items.length = 1
    · obtain ⟨item, rfl⟩ := List.length_eq_one_iff.1 one
      obtain ⟨bounds, later, first, nothing, rfl⟩ := List.forall₂_cons_left_iff.1 parses
      cases nothing
      exact answered_single first
    · obtain ⟨item, among, range_eq⟩ := single one
      have missing := List.mem_map_of_mem (f := (·.spec.range content.length)) among
      rw [ranges, range_eq] at missing
      obtain ⟨_, -, found⟩ := List.mem_map.1 missing
      cases found

/-- The item for a specification, with spaces in front. -/
def itemOf (spec : RangeSpec) (spaces : Nat) : Item where
  before := List.replicate spaces 32
  spec := spec
  after := []
  before_blank := fun _ among => .inl (List.eq_of_mem_replicate among)
  after_blank := nofun

/-- The numeral with one digit. -/
def oneDigit (digit : Fin 10) : Utils.Numeral where
  digits := [48 + digit.1.toUInt8]
  some_digit := nofun
  decimal := by
    revert digit
    decide +kernel

theorem served_start : Served [itemOf (.start (oneDigit 3)) 1] 9 := by
  refine (served_iff_supported (List.cons_ne_nil _ _) (by decide)).2
    ⟨?_, fun several => absurd rfl several⟩
  simp only [List.mem_singleton, forall_eq]
  rw [Item.Supported, if_pos (by decide)]
  exact ⟨by decide, by rintro _ ⟨⟩⟩

/-- The last nine of nine octets: the range begins at the second of them. -/
theorem whole_suffix_cut :
    ¬∀ (items : List Item) (length : Nat), items ≠ [] → 0 < length → Served items length := by
  intro served
  have exact := (served [itemOf (.suffix (oneDigit 9)) 0] 9 (List.cons_ne_nil _ _) (by decide)).1
    _ List.mem_cons_self
  have other : parseContentRange (itemOf (.suffix (oneDigit 9)) 0).text (9 : Nat) = .ok (1, 8) := by
    decide +kernel
  exact absurd (other.symm.trans exact) (by decide)

end RangeSending
end Server
end AdaWebServer
