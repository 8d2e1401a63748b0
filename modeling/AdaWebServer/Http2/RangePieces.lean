import AdaWebServer.Http2.Pieces
import AdaWebServer.Http2.RangeBodies
import Mathlib.Data.List.TakeWhile

/-!
# Pieces of ranges

`Send_File_Ranges` puts the ranges of a resource in data frames.  With several ranges each of them
is announced, but the delimiters do not stand at the beginning of a line, and a window that ends
within the body is never left again.
-/

namespace AdaWebServer
namespace Http2

open Framing (boundary crlf offsetImage parseContentRange)
open Resources

/-! ## The octets of the ranges -/

/-- The delimiter in front of a part, as it is sent. -/
def separator : Text := text "--" ++ boundary ++ crlf

/-- The header of a part, as it is sent. -/
def partHeader (first last length : Int) : Text :=
  text "Content-Range" ++ text ": bytes " ++ text (toString first) ++ text "-" ++
    text (toString last) ++ text "/" ++ text (toString length) ++ crlf ++
    text "Content-Length" ++ text ":" ++ offsetImage (last - first + 1) ++ crlf ++ crlf

/-- The delimiter behind the last part, as it is sent. -/
def closing : Text := text "--" ++ boundary ++ text "--" ++ crlf

/-- The specifications of the ranges in a header. -/
def specsOf (ranges : Text) : List Text :=
  (if 61 ∈ ranges then (ranges.dropWhile (· ≠ 61)).tail else ranges).splitOn 44

/-- A range behind its delimiter and its header. -/
def layoutPart (content : Octets) (bounds : Int × Int) : Octets :=
  separator ++ partHeader bounds.1 bounds.2 content.length ++ slice content bounds.1 bounds.2

/-- What is sent for one of several specifications. -/
def partOf (content : Octets) (spec : Text) : Except Exn Octets :=
  layoutPart content <$> parseContentRange spec content.length

/-- The body that answers a range header: the single range, or a `multipart/byteranges` body. -/
def rangesBody (ranges : Text) (content : Octets) : Except Exn Octets :=
  match specsOf ranges with
  | [spec] => do
      let (first, last) ← parseContentRange spec content.length
      return slice content first last
  | specs => byteranges content <$> specs.mapM (parseContentRange · content.length)

/-- `Create` takes the header for one that asks for ranges. -/
def Accepted (ranges : Text) : Prop :=
  61 ∈ ranges ∧ ranges.takeWhile (· ≠ 61) = text "bytes" ∧ ranges.count 45 = 1 + ranges.count 44

instance (ranges : Text) : Decidable (Accepted ranges) :=
  inferInstanceAs (Decidable (_ ∧ _ ∧ _))

theorem length_splitOn (octet : Octet) (octets : Text) :
    (octets.splitOn octet).length = 1 + octets.count octet := by
  induction octets with
  | nil => rw [List.splitOn_nil, List.length_singleton, List.count_nil]
  | cons first octets ih =>
      rw [List.splitOn_cons_eq_if_modifyHead, List.count_cons]
      split
      · rw [List.length_cons, ih, Nat.add_assoc]
      · rw [List.length_modifyHead, ih, Nat.add_zero]

theorem Accepted.length_specsOf {ranges : Text} (accepted : Accepted ranges) :
    (specsOf ranges).length = 1 + ranges.count 44 := by
  obtain ⟨has_equal, front, -⟩ := accepted
  have rest_count : ranges.count 44 = (ranges.dropWhile (· ≠ 61)).tail.count 44 := by
    have split_eq := List.takeWhile_append_dropWhile (p := (· ≠ 61)) (l := ranges)
    cases rest : ranges.dropWhile (· ≠ 61) with
    | nil =>
        rw [rest, List.append_nil, front] at split_eq
        rw [← split_eq] at has_equal
        exact absurd has_equal (by decide)
    | cons equal later =>
        have equal_eq := List.head?_dropWhile_not (· ≠ 61) ranges
        rw [rest] at equal_eq
        obtain rfl : equal = 61 := by simpa using equal_eq
        rw [rest, front] at split_eq
        rw [← split_eq, List.count_append, List.count_cons_of_ne (by decide)]
        exact Nat.zero_add _
  rw [specsOf, if_pos has_equal, length_splitOn, rest_count]

/-- All specifications are read, and then their parts are put together. -/
theorem mapM_partOf (content : Octets) (specs : List Text) :
    specs.mapM (partOf content) =
      List.map (layoutPart content) <$> specs.mapM (parseContentRange · content.length) := by
  induction specs with
  | nil => rfl
  | cons spec specs ih =>
      rw [List.mapM_cons, List.mapM_cons, ih, partOf]
      cases parseContentRange spec content.length with
      | error exn => rfl
      | ok bounds => cases specs.mapM (parseContentRange · content.length) <;> rfl

/-- Several ranges are sent as two parts or more, and asked for as a `multipart/byteranges` body. -/
theorem Accepted.ranges_of_several {ranges : Text} (accepted : Accepted ranges)
    (several : ranges.count 44 ≠ 0) {content body : Octets}
    (body_eq : rangesBody ranges content = .ok body) :
    ∃ first second later, body = byteranges content (first :: second :: later) ∧
      (specsOf ranges).mapM (partOf content) =
        .ok ((first :: second :: later).map (layoutPart content)) := by
  have length_eq := accepted.length_specsOf
  have not_single : ∀ spec, specsOf ranges ≠ [spec] := by
    intro spec specs_eq
    rw [specs_eq, List.length_singleton] at length_eq
    omega
  rw [rangesBody] at body_eq
  split at body_eq
  · next spec specs_eq => exact absurd specs_eq (not_single spec)
  · obtain ⟨all, all_eq, rfl⟩ := map_eq_ok_iff.1 body_eq
    have all_length := length_of_mapM all_eq
    obtain ⟨first, second, later, rfl⟩ : ∃ first second later, all = first :: second :: later := by
      cases all with
      | nil =>
          rw [List.length_nil] at all_length
          omega
      | cons first all =>
          cases all with
          | nil =>
              rw [List.length_singleton] at all_length
              omega
          | cons second later => exact ⟨first, second, later, rfl⟩
    refine ⟨first, second, later, rfl, ?_⟩
    rw [mapM_partOf, all_eq]
    rfl

/-! ## The delimiters -/

/-- A part up to the size of the range. -/
private def announced (bounds : Int × Int) (length : Int) : Text :=
  text "--" ++ text "aws_range_separator" ++ lineEnd ++ text "Content-Range" ++ text ": " ++
    (text "bytes " ++ decimalText bounds.1 ++ text "-" ++ decimalText bounds.2 ++ text "/" ++
      decimalText length) ++ lineEnd ++ text "Content-Length" ++ text ":"

private theorem layoutPart_eq (content : Octets) (bounds : Int × Int) :
    layoutPart content bounds = announced bounds content.length ++
      (Framing.offsetImage (bounds.2 - bounds.1 + 1) ++
        (lineEnd ++ lineEnd ++ slice content bounds.1 bounds.2)) := by
  have colon : text ": bytes " = text ": " ++ text "bytes " := by decide
  rw [layoutPart, separator, partHeader, announced, colon]
  simp only [List.append_assoc]
  rfl

private theorem bodyPart_eq (content : Octets) (bounds : Int × Int) :
    text "--" ++ text "aws_range_separator" ++ lineEnd ++ bodyPart content bounds =
      announced bounds content.length ++ (text " " ++ decimalText (bounds.2 - bounds.1 + 1) ++
        (lineEnd ++ lineEnd ++ slice content bounds.1 bounds.2)) := by
  have colon : text ": " = text ":" ++ text " " := by decide
  rw [bodyPart, messageOf, rangeFields, announced]
  simp only [List.map_cons, List.map_nil, List.flatten_cons, List.flatten_nil, fieldLine,
    List.append_assoc, List.append_nil]
  simp only [colon, List.append_assoc]

private theorem offsetImage_neg {number : Int} (negative : number < 0) :
    ∃ digits, Framing.offsetImage number = 45 :: digits := by
  obtain ⟨digits, rfl⟩ := Int.eq_negSucc_of_lt_zero negative
  refine ⟨text (toString (digits + 1)), ?_⟩
  rw [Framing.offsetImage, if_neg (Int.not_le.2 negative), List.nil_append]
  exact text_append "-" _

/-- No line ends between a part and the next delimiter. -/
private theorem part_not_prefix (content : Octets) (bounds : Int × Int) (later rest : Octets) :
    ¬(layoutPart content bounds ++ 45 :: later <+:
      text "--" ++ text "aws_range_separator" ++ lineEnd ++ bodyPart content bounds ++
        (lineEnd ++ rest)) := by
  rw [layoutPart_eq, bodyPart_eq]
  simp only [List.append_assoc, List.prefix_append_right_inj]
  by_cases negative : bounds.2 - bounds.1 + 1 < 0
  · -- the size is sent without a blank in front
    obtain ⟨digits, image_eq⟩ := offsetImage_neg negative
    rw [image_eq]
    exact fun before => absurd (List.cons_prefix_cons.1 before).1 (by decide)
  · rw [Framing.offsetImage, if_pos (Int.not_lt.1 negative), decimalText]
    simp only [List.append_assoc, List.prefix_append_right_inj]
    exact fun before => absurd (List.cons_prefix_cons.1 before).1 (by decide)

/-- What is sent for several ranges is not the beginning of the body that they ask for. -/
theorem layout_not_prefix (content : Octets) (first second : Int × Int) (later : List (Int × Int)) :
    ¬(((first :: second :: later).map (layoutPart content)).flatten ++ closing <+:
      byteranges content (first :: second :: later)) := by
  obtain ⟨behind, behind_eq⟩ : ∃ behind, layoutPart content second = 45 :: behind := by
    have dashes : text "--" = [45, 45] := by decide
    rw [layoutPart, separator, dashes]
    exact ⟨_, rfl⟩
  rw [byteranges, multipartOf]
  simp only [List.map_cons, List.flatten_cons, behind_eq]
  rw [List.append_assoc (layoutPart content first)]
  simp only [List.append_assoc, List.cons_append]
  have differs := part_not_prefix content first
    (behind ++ ((later.map (layoutPart content)).flatten ++ closing))
  simp only [List.append_assoc] at differs
  exact differs _

theorem offsetValue_nonneg {literal : Text} {value : Int} (unsigned : 45 ∉ literal)
    (read : Framing.offsetValue literal = .ok value) : 0 ≤ value := by
  rw [Framing.offsetValue] at read
  cases number : integerValue literal with
  | none =>
      rw [number] at read
      cases read
  | some found =>
      rw [number] at read
      dsimp only at read
      split_ifs at read
      cases read
      rw [integerValue] at number
      split at number
      · next rest trimmed_eq =>
          refine absurd ?_ unsigned
          have among : (45 : Octet) ∈ ((literal.dropWhile (· = 32)).reverse.dropWhile
              (· = 32)).reverse := by
            rw [trimmed_eq]
            exact List.mem_cons_self
          exact List.dropWhile_subset _ (List.mem_reverse.1 (List.dropWhile_subset _
            (List.mem_reverse.1 among)))
      · obtain ⟨_, scanned, rfl⟩ := Option.map_eq_some_iff.1 number
        obtain ⟨magnitude, -, same⟩ := Option.bind_eq_some_iff.1 scanned
        cases same
        exact Int.natCast_nonneg magnitude
      · obtain ⟨_, scanned, rfl⟩ := Option.map_eq_some_iff.1 number
        obtain ⟨magnitude, -, same⟩ := Option.bind_eq_some_iff.1 scanned
        cases same
        exact Int.natCast_nonneg magnitude

/-- The last index that a specification gives, which is clipped. -/
def lastIndex (last : Text) (length : Int) : Except Exn Int :=
  if last = [] then .ok (length - 1)
  else (fun last => if length ≤ last then length - 1 else last) <$> Framing.offsetValue last

theorem parseContentRange_eq (spec : Text) (length : Int) :
    parseContentRange spec length =
      if spec.takeWhile (· ≠ 45) = spec then .error .constraintError
      else lastIndex (spec.drop ((spec.takeWhile (· ≠ 45)).length + 1)) length >>= fun last =>
        if spec.takeWhile (· ≠ 45) = [] then .ok (length - last, length - 1)
        else Framing.offsetValue (spec.takeWhile (· ≠ 45)) >>= fun first => .ok (first, last) := by
  rw [parseContentRange, lastIndex]
  dsimp only
  split
  · rfl
  · split
    · rfl
    · cases Framing.offsetValue (spec.drop ((spec.takeWhile (· ≠ 45)).length + 1)) <;> rfl

theorem parseContentRange_bounds {spec : Text} {length first last : Int}
    (parsed : parseContentRange spec length = .ok (first, last)) : 0 ≤ first ∧ last < length := by
  have unsigned : (45 : Octet) ∉ spec.takeWhile (· ≠ 45) := fun among => by
    simpa using List.mem_takeWhile_imp among
  rw [parseContentRange_eq] at parsed
  split at parsed
  · cases parsed
  · obtain ⟨end_at, end_eq, parsed⟩ := bind_eq_ok_iff.1 parsed
    have end_lt : end_at < length := by
      rw [lastIndex] at end_eq
      split at end_eq
      · cases end_eq
        omega
      · cases value_eq : Framing.offsetValue (spec.drop ((spec.takeWhile (· ≠ 45)).length + 1)) with
        | error exn =>
            rw [value_eq] at end_eq
            cases end_eq
        | ok value =>
            rw [value_eq] at end_eq
            cases end_eq
            show ite _ _ _ < length
            split <;> omega
    split at parsed
    · cases parsed
      omega
    · obtain ⟨start, start_eq, parsed⟩ := bind_eq_ok_iff.1 parsed
      cases parsed
      exact ⟨offsetValue_nonneg unsigned start_eq, end_lt⟩

/-! ## Pieces within the window -/

/-- Some octets have been put in data frames. -/
structure Emitted (data : Octets) (before after : Framing) : Prop where
  grown : ∃ frames, after.list = before.list ++ frames ∧ (∀ frame ∈ frames, frame.kind = .data) ∧
    payloads frames = data ∧ (data = [] → frames = [])
  window : after.fcw + data.length = before.fcw

/-- The size of the next piece is within the window, and is zero only without a window. -/
structure Paced (framing : Framing) (nextSize : Nat) : Prop where
  within : nextSize ≤ framing.fcw
  shut : nextSize = 0 → framing.fcw = 0

theorem Emitted.nothing (framing : Framing) : Emitted [] framing framing :=
  ⟨⟨[], (List.append_nil _).symm, nofun, rfl, fun _ => rfl⟩, rfl⟩

theorem Emitted.trans {first second : Octets} {before middle after : Framing}
    (earlier : Emitted first before middle) (later : Emitted second middle after) :
    Emitted (first ++ second) before after := by
  obtain ⟨⟨front, front_eq, front_kinds, front_payload, front_nil⟩, front_window⟩ := earlier
  obtain ⟨⟨back, back_eq, back_kinds, back_payload, back_nil⟩, back_window⟩ := later
  refine ⟨⟨front ++ back, ?_, List.forall_mem_append.2 ⟨front_kinds, back_kinds⟩, ?_, ?_⟩, ?_⟩
  · rw [back_eq, front_eq, List.append_assoc]
  · rw [payloads_append, front_payload, back_payload]
  · intro nothing
    obtain ⟨first_nil, second_nil⟩ := List.append_eq_nil_iff.1 nothing
    rw [front_nil first_nil, back_nil second_nil, List.append_nil]
  · rw [List.length_append]
    omega

theorem paced_min (after : Framing) {nextSize : Nat} (open_window : nextSize ≠ 0) :
    Paced after (min nextSize after.fcw) where
  within := Nat.min_le_right _ _
  shut := by
    intro zero
    omega

namespace Framing

variable {streamId : StreamId} {framing : Framing} {nextSize : Nat}

/-- A data frame within the window. -/
theorem createDataFrame_ok {content : Octets} (some_content : content ≠ [])
    (fits : content.length ≤ framing.fcw) (next : Nat) :
    ∃ after, createDataFrame streamId framing content next =
        .ok (after, min next after.fcw) ∧ Emitted content framing after ∧
      after.bSent = (framing.bSent || decide (next = 0)) := by
  refine ⟨{ list := framing.list ++ [Frame.createData streamId content (next = 0)]
            fcw := framing.fcw - content.length
            bSent := framing.bSent || decide (next = 0) }, ?_, ⟨⟨_, rfl, ?_, ?_, ?_⟩, ?_⟩, rfl⟩
  · rw [createDataFrame, naturalSub_of_le fits, ok_bind]
    have chunk : (if framing.fcw - content.length < next then framing.fcw - content.length
        else next) = min next (framing.fcw - content.length) := by
      split <;> omega
    rw [chunk]
    rfl
  · simp [Frame.createData, Frame.kind]
  · simp [payloads, Frame.createData]
  · exact fun nothing => absurd nothing some_content
  · exact Nat.sub_add_cancel fits

/-- A text is put in frames when the window allows all of it. -/
theorem send_ok {str : Text} (some_text : str ≠ []) (paced : Paced framing nextSize)
    (fits : str.length ≤ framing.fcw) (lastOne : Bool) :
    ∃ after next, send streamId framing nextSize str lastOne = .ok (after, next) ∧
      Emitted str framing after ∧ after.bSent = (framing.bSent || lastOne) ∧
      (lastOne = false → Paced after next) := by
  have sends : ∀ fuel (str : Text) (framing : Framing) (nextSize : Nat), str ≠ [] →
      str.length < fuel → Paced framing nextSize → str.length ≤ framing.fcw →
      ∃ after next, sendText streamId lastOne fuel str framing nextSize = .ok (after, next) ∧
        Emitted str framing after ∧ after.bSent = (framing.bSent || lastOne) ∧
        (lastOne = false → Paced after next) := by
    intro fuel
    induction fuel with
    | zero => exact fun _ _ _ _ enough => absurd enough (Nat.not_lt_zero _)
    | succ fuel ih =>
        intro str framing nextSize some_text enough paced fits
        have length_pos := List.length_pos_iff.2 some_text
        have open_window : nextSize ≠ 0 := by
          intro zero
          have := paced.shut zero
          omega
        rw [sendText]
        by_cases whole : str.length ≤ nextSize
        · obtain ⟨after, done, emitted, bSent_eq⟩ := @createDataFrame_ok streamId framing str
            some_text fits (if lastOne then 0 else nextSize)
          rw [if_pos whole, done]
          refine ⟨after, _, rfl, emitted, ?_, ?_⟩
          · rw [bSent_eq]
            cases lastOne <;> simp [open_window]
          · rintro rfl
            exact paced_min after open_window
        · have part_ne : str.take nextSize ≠ [] := by
            rw [ne_eq, List.take_eq_nil_iff, not_or]
            exact ⟨open_window, some_text⟩
          have part_length : (str.take nextSize).length = nextSize :=
            List.length_take_of_le (Nat.le_of_not_le whole)
          obtain ⟨middle, done, emitted, bSent_eq⟩ := @createDataFrame_ok streamId framing
            (str.take nextSize) part_ne (part_length.trans_le paced.within) nextSize
          have window := emitted.window
          rw [part_length] at window
          have rest_length : (str.drop nextSize).length = str.length - nextSize := List.length_drop
          have rest_ne : str.drop nextSize ≠ [] := by
            rw [← List.length_pos_iff]
            omega
          obtain ⟨after, next, sent, later, later_bSent, later_paced⟩ :=
            ih (str.drop nextSize) middle (min nextSize middle.fcw) rest_ne (by omega)
              (paced_min middle open_window) (by omega)
          rw [if_neg whole, if_neg open_window, done, ok_bind]
          refine ⟨after, next, sent, ?_, ?_, later_paced⟩
          · have all := emitted.trans later
            rwa [List.take_append_drop] at all
          · rw [later_bSent, bSent_eq, decide_eq_false open_window, Bool.or_false]
  exact sends (str.length + 1) str framing nextSize some_text (Nat.lt_succ_self _) paced fits

/-- A text for which the window is too small is never sent. -/
theorem send_stuck {str : Text} (paced : Paced framing nextSize)
    (too_long : framing.fcw < str.length) (lastOne : Bool) :
    send streamId framing nextSize str lastOne = .error .storageError := by
  have stuck : ∀ fuel (str : Text) (framing : Framing) (nextSize : Nat), Paced framing nextSize →
      framing.fcw < str.length →
      sendText streamId lastOne fuel str framing nextSize = .error .storageError := by
    intro fuel
    induction fuel with
    | zero => exact fun _ _ _ _ _ => rfl
    | succ fuel ih =>
        intro str framing nextSize paced too_long
        have within := paced.within
        have whole : ¬str.length ≤ nextSize := by omega
        rw [sendText, if_neg whole]
        by_cases shut : nextSize = 0
        · rw [if_pos shut]
        · have part_ne : str.take nextSize ≠ [] := by
            rw [ne_eq, List.take_eq_nil_iff, not_or]
            exact ⟨shut, List.length_pos_iff.1 (by omega)⟩
          have part_length : (str.take nextSize).length = nextSize :=
            List.length_take_of_le (Nat.le_of_not_le whole)
          obtain ⟨middle, done, emitted, -⟩ := @createDataFrame_ok streamId framing
            (str.take nextSize) part_ne (part_length.trans_le within) nextSize
          have window := emitted.window
          rw [if_neg shut, done, ok_bind]
          refine ih _ middle _ (paced_min middle shut) ?_
          rw [List.length_drop]
          omega
  exact stuck _ str framing nextSize paced too_long

section Ranges

variable {Resource : Type} [StreamType Resource] [Documented Resource] [Regular Resource]
  {file : Resource} {content : Octets} {position nRange : Nat}

omit [Documented Resource] [Regular Resource] in
private theorem sendRangePieces_over (fuel : Nat) :
    sendRangePieces streamId nRange (fuel + 1) file framing nextSize 0 =
      .ok (file, framing, nextSize) := by
  rw [sendRangePieces, if_pos rfl]

/-- A turn of the loop of `Send_Range`. -/
theorem sendRangePieces_turn (holds : Documented.Holds file content position) {left : Int}
    (not_over : left ≠ 0) {size : Nat}
    (size_eq : (if (nextSize : Int) < left then nextSize else left.toNat) = size) (fuel : Nat) :
    ∃ after, Documented.Holds after content
      (position + ((content.drop position).take size).length) ∧
      sendRangePieces streamId nRange (fuel + 1) file framing nextSize left =
        if (content.drop position).take size = [] then
          .ok (after, framing, if left ≤ (nextSize : Int) ∧ nRange = 1 then 0 else nextSize)
        else
          createDataFrame streamId framing ((content.drop position).take size)
              (if left ≤ (nextSize : Int) ∧ nRange = 1 then 0 else nextSize) >>= fun created =>
            sendRangePieces streamId nRange fuel after created.1 created.2
              (left - ((content.drop position).take size).length) := by
  obtain ⟨after, read, after_holds⟩ := Regular.read_eq holds size
  refine ⟨after, after_holds, ?_⟩
  simp only [sendRangePieces, if_neg not_over, size_eq, read, ok_bind, pure_eq_ok]

/-- An empty range, or one whose bounds are reversed, is over at once. -/
theorem sendRangePieces_nothing (holds : Documented.Holds file content position) {left : Int}
    (nothing : left ≤ 0) (fuel : Nat) :
    ∃ after next, sendRangePieces streamId nRange (fuel + 1) file framing nextSize left =
        .ok (after, framing, next) ∧ (∃ behind, Documented.Holds after content behind) ∧
      (nRange ≠ 1 → next = nextSize) := by
  by_cases empty : left = 0
  · rw [sendRangePieces, if_pos empty]
    exact ⟨file, nextSize, rfl, ⟨position, holds⟩, fun _ => rfl⟩
  · have size_eq : (if (nextSize : Int) < left then nextSize else left.toNat) = 0 := by
      rw [if_neg (by omega)]
      omega
    obtain ⟨after, after_holds, turn_eq⟩ :=
      @sendRangePieces_turn streamId framing nextSize _ _ _ _ _ _ _ nRange holds
        _ empty _ size_eq fuel
    rw [turn_eq, List.take_zero, if_pos rfl]
    exact ⟨after, _, rfl, ⟨_, after_holds⟩, fun several => if_neg fun both => several both.2⟩

/-- A range is put in frames as far as the window allows; the last piece of a single range ends the
body. -/
theorem sendRangePieces_spec (holds : Documented.Holds file content position) {left : Nat}
    (within : position + left ≤ content.length) (some_left : 0 < left)
    (paced : Paced framing nextSize) {fuel : Nat} (enough : left < fuel) :
    ∃ after final next, sendRangePieces streamId nRange fuel file framing nextSize left =
        .ok (after, final, next) ∧ (∃ behind, Documented.Holds after content behind) ∧
      Emitted (((content.drop position).take left).take framing.fcw) framing final ∧
      final.bSent = (framing.bSent || decide (nRange = 1 ∧ left ≤ framing.fcw)) ∧
      (nRange ≠ 1 → Paced final next) := by
  induction fuel generalizing file framing nextSize position left with
  | zero => exact absurd enough (Nat.not_lt_zero _)
  | succ fuel ih =>
      have not_over : (left : Int) ≠ 0 := by omega
      have taken_length : ∀ size ≤ left, ((content.drop position).take size).length = size := by
        intro size size_le
        rw [List.length_take, List.length_drop]
        omega
      have paced_within := paced.within
      by_cases last : left ≤ nextSize
      · -- the rest of the range is one piece
        have size_eq : (if (nextSize : Int) < left then nextSize else (left : Int).toNat) =
          left := by
          rw [if_neg (by omega), Int.toNat_natCast]
        obtain ⟨after, after_holds, turn_eq⟩ := @sendRangePieces_turn streamId framing nextSize _ _
          _ _ _ _ _ nRange holds _ not_over _ size_eq fuel
        have piece_length := taken_length left le_rfl
        have piece_ne : (content.drop position).take left ≠ [] := by
          rw [← List.length_pos_iff, piece_length]
          exact some_left
        obtain ⟨final, created, emitted, bSent_eq⟩ :=
          @createDataFrame_ok streamId framing _ piece_ne
          (by omega) (if (left : Int) ≤ nextSize ∧ nRange = 1 then 0 else nextSize)
        obtain ⟨fuel, rfl⟩ : ∃ rest, fuel = rest + 1 := ⟨fuel - 1, by omega⟩
        rw [if_neg piece_ne, created, ok_bind, piece_length, Int.sub_self,
          sendRangePieces_over] at turn_eq
        rw [turn_eq, List.take_of_length_le (by omega)]
        refine ⟨after, final, _, rfl, ⟨_, after_holds⟩, emitted, ?_, ?_⟩
        · rw [bSent_eq]
          by_cases single : nRange = 1
          · rw [if_pos ⟨by omega, single⟩, decide_eq_true rfl, decide_eq_true ⟨single, by omega⟩]
          · rw [if_neg fun both => single both.2, decide_eq_false (by omega),
              decide_eq_false fun both => single both.1]
        · intro several
          rw [if_neg fun both => several both.2]
          exact paced_min final (by omega)
      · have size_eq : (if (nextSize : Int) < left then nextSize else (left : Int).toNat) =
            nextSize := if_pos (by omega)
        obtain ⟨after, after_holds, turn_eq⟩ := @sendRangePieces_turn streamId framing nextSize _ _
          _ _ _ _ _ nRange holds _ not_over _ size_eq fuel
        have not_last : ¬((left : Int) ≤ nextSize ∧ nRange = 1) := by omega
        rw [if_neg not_last] at turn_eq
        by_cases shut : nextSize = 0
        · -- nothing can be sent any more
          have window := paced.shut shut
          subst shut
          rw [List.take_zero, if_pos rfl] at turn_eq
          rw [turn_eq, window, List.take_zero]
          refine ⟨after, framing, 0, rfl, ⟨_, after_holds⟩, .nothing framing, ?_, fun _ => paced⟩
          rw [decide_eq_false (by omega), Bool.or_false]
        · have piece_length := taken_length nextSize (Nat.le_of_not_le last)
          have piece_ne : (content.drop position).take nextSize ≠ [] := by
            rw [← List.length_pos_iff, piece_length]
            omega
          obtain ⟨middle, created, emitted, bSent_eq⟩ :=
            @createDataFrame_ok streamId framing _ piece_ne (by omega) nextSize
          have window := emitted.window
          rw [piece_length] at window after_holds
          have left_eq : (left : Int) - nextSize = ((left - nextSize : Nat) : Int) := by omega
          rw [if_neg piece_ne, created, ok_bind, piece_length, left_eq] at turn_eq
          obtain ⟨behind, final, next, done, behind_holds, later, later_bSent, later_paced⟩ :=
            @ih middle (min nextSize middle.fcw) after (position + nextSize) after_holds
              (left - nextSize) (by omega) (by omega) (paced_min middle shut) (by omega)
          refine ⟨behind, final, next, turn_eq.trans done, behind_holds, ?_, ?_, later_paced⟩
          · have all := emitted.trans later
            rw [← List.drop_drop] at all
            have joined : ((content.drop position).take left).take framing.fcw =
                (content.drop position).take nextSize ++
                  (((content.drop position).drop nextSize).take (left - nextSize)).take
                    middle.fcw := by
              rw [List.take_take, List.take_take, ← List.take_add]
              congr 1
              omega
            rwa [joined]
          · rw [later_bSent, bSent_eq, decide_eq_false shut, Bool.or_false]
            congr 1
            exact decide_eq_decide.2 (by omega)

/-- Octets have been put in frames if the window allows all of them; otherwise there is an error,
or an empty window is left. -/
def Carries (content data : Octets) (framing : Framing)
    (outcome : Except Exn (Resource × Framing × Nat)) : Prop :=
  (data.length ≤ framing.fcw ∧ ∃ after final next, outcome = .ok (after, final, next) ∧
    (∃ position, Documented.Holds after content position) ∧ Emitted data framing final ∧
    final.bSent = framing.bSent ∧ Paced final next) ∨
  (framing.fcw < data.length ∧ (outcome = .error .storageError ∨
    ∃ after final next, outcome = .ok (after, final, next) ∧
      (∃ position, Documented.Holds after content position) ∧ final.fcw = 0 ∧ Paced final next))

omit [Regular Resource] in
/-- Octets are put in frames one after another. -/
theorem Carries.bind {first second : Octets} {outcome : Except Exn (Resource × Framing × Nat)}
    {later : Resource × Framing × Nat → Except Exn (Resource × Framing × Nat)}
    (carries : Carries content first framing outcome)
    (continues : ∀ after final next, (∃ position, Documented.Holds after content position) →
      Paced final next → Carries content second final (later (after, final, next))) :
    Carries content (first ++ second) framing (outcome >>= later) := by
  rw [Carries, List.length_append]
  obtain ⟨fits, middle, between, next, rfl, holds, emitted, bSent_eq, paced⟩ |
    ⟨too_long, rfl | ⟨middle, between, next, rfl, holds, shut, paced⟩⟩ := carries
  · have window := emitted.window
    obtain ⟨later_fits, after, final, last, done, after_holds, later_emitted,
      later_bSent, last_paced⟩ |
      ⟨too_long, failed⟩ := continues middle between next holds paced
    · exact .inl ⟨by omega, after, final, last, done, after_holds, emitted.trans later_emitted,
        later_bSent.trans bSent_eq, last_paced⟩
    · exact .inr ⟨by omega, failed⟩
  · exact .inr ⟨by omega, .inl rfl⟩
  · refine .inr ⟨by omega, ?_⟩
    obtain ⟨_, after, final, last, done, after_holds, later_emitted, -, last_paced⟩ |
      ⟨_, failed⟩ := continues middle between next holds paced
    · have window := later_emitted.window
      exact .inr ⟨after, final, last, done, after_holds, by omega, last_paced⟩
    · exact failed

omit [Regular Resource] in
theorem carries_send (holds : Documented.Holds file content position) {str : Text}
    (some_text : str ≠ []) (paced : Paced framing nextSize) :
    Carries content str framing
      (send streamId framing nextSize str false >>= fun sent => .ok (file, sent.1, sent.2)) := by
  by_cases fits : str.length ≤ framing.fcw
  · obtain ⟨after, next, sent, emitted, bSent_eq, later⟩ :=
      @send_ok streamId framing nextSize str some_text paced fits false
    rw [sent]
    exact .inl ⟨fits, file, after, next, rfl, ⟨position, holds⟩, emitted,
      bSent_eq.trans (Bool.or_false _), later rfl⟩
  · rw [send_stuck paced (Nat.lt_of_not_le fits)]
    exact .inr ⟨Nat.lt_of_not_le fits, .inl rfl⟩

/-- A range is put in frames behind its announcement. -/
theorem carries_slice (holds : Documented.Holds file content position) (several : nRange ≠ 1)
    (paced : Paced framing nextSize) {first last : Int} (first_nonneg : 0 ≤ first)
    (last_lt : last < content.length) :
    Carries content (slice content first last) framing
      (StreamType.setIndex file (first + 1).toNat >>= fun file =>
        sendRangePieces streamId nRange ((last - first + 1).toNat + 1) file framing nextSize
          (last - first + 1)) := by
  obtain ⟨start, rfl⟩ := Int.eq_ofNat_of_zero_le first_nonneg
  obtain ⟨middle, seeked, middle_holds⟩ := Regular.setIndex_eq holds start
  rw [show ((start : Int) + 1).toNat = start + 1 by omega, seeked, ok_bind]
  by_cases nothing : last - start + 1 ≤ 0
  · obtain ⟨after, next, done, after_holds, same⟩ :=
      @sendRangePieces_nothing streamId framing nextSize _ _ _ _ _ _ _ nRange middle_holds _ nothing
        (last - start + 1).toNat
    have empty : slice content start last = [] := by
      rw [slice, Int.toNat_of_nonpos nothing, List.take_zero]
    rw [done, empty, same several]
    exact .inl ⟨Nat.zero_le _, after, framing, nextSize, rfl, after_holds, .nothing framing, rfl,
      paced⟩
  · obtain ⟨left, left_eq⟩ := Int.eq_ofNat_of_zero_le (le_of_not_ge nothing)
    have within : min start content.length + left ≤ content.length := by omega
    have start_eq : min start content.length = start := by omega
    rw [left_eq, Int.toNat_natCast]
    obtain ⟨after, final, next, done, after_holds, emitted, bSent_eq, later⟩ :=
      @sendRangePieces_spec streamId framing nextSize _ _ _ _ _ _ _ nRange middle_holds _ within
        (by omega) paced _ (Nat.lt_succ_self left)
    rw [decide_eq_false fun both => several both.1, Bool.or_false] at bSent_eq
    have slice_eq : slice content start last = (content.drop start).take left := by
      rw [slice, left_eq]
      rfl
    have slice_length : (slice content start last).length = left := by
      rw [slice_eq, List.length_take, List.length_drop]
      omega
    rw [start_eq, ← slice_eq] at emitted
    rw [done, Carries, slice_length]
    by_cases fits : left ≤ framing.fcw
    · rw [List.take_of_length_le (slice_length.trans_le fits)] at emitted
      exact .inl ⟨fits, after, final, next, rfl, after_holds, emitted, bSent_eq, later several⟩
    · have window := emitted.window
      rw [List.length_take, slice_length] at window
      exact .inr ⟨by omega, .inr ⟨after, final, next, rfl, after_holds, by omega, later several⟩⟩

/-- One of several ranges is put in frames with its announcement. -/
theorem carries_sendRange (holds : Documented.Holds file content position) (several : nRange ≠ 1)
    (paced : Paced framing nextSize) {spec : Text} {part : Octets}
    (part_eq : partOf content spec = .ok part) :
    Carries content part framing
      (sendRange streamId nRange content.length file framing nextSize spec) := by
  obtain ⟨⟨first, last⟩, parsed, rfl⟩ := map_eq_ok_iff.1 part_eq
  obtain ⟨first_nonneg, last_lt⟩ := parseContentRange_bounds parsed
  have unfolded : sendRange streamId nRange content.length file framing nextSize spec =
      ((send streamId framing nextSize separator false >>=
        fun sent => .ok (file, sent.1, sent.2)) >>=
        fun parted =>
          send streamId parted.2.1 parted.2.2 (partHeader first last content.length) false >>=
            fun sent => .ok (parted.1, sent.1, sent.2)) >>= fun headed =>
          StreamType.setIndex headed.1 (first + 1).toNat >>= fun file =>
            sendRangePieces streamId nRange ((last - first + 1).toNat + 1) file
              headed.2.1 headed.2.2 (last - first + 1) := by
    simp only [sendRange, ne_eq, several, not_false_eq_true, if_true, parsed, ok_bind, bind_assoc]
    rfl
  rw [unfolded]
  refine Carries.bind (Carries.bind (carries_send holds (by decide) paced) ?_) ?_
  · rintro after final next ⟨behind, after_holds⟩ after_paced
    have header_ne : partHeader first last content.length ≠ [] :=
      List.append_ne_nil_of_right_ne_nil _ (by decide)
    exact carries_send after_holds header_ne after_paced
  · rintro after final next ⟨behind, after_holds⟩ after_paced
    exact carries_slice after_holds several after_paced first_nonneg last_lt

/-- Several ranges are put in frames one after another. -/
theorem carries_sendEachRange (several : nRange ≠ 1) {specs : List Text} {parts : List Octets}
    (parts_eq : specs.mapM (partOf content) = .ok parts)
    (holds : Documented.Holds file content position)
    (paced : Paced framing nextSize) :
    Carries content parts.flatten framing
      (sendEachRange streamId nRange content.length specs file framing nextSize) := by
  induction specs generalizing parts file framing nextSize position with
  | nil =>
      cases parts_eq
      exact .inl ⟨Nat.zero_le _, file, framing, nextSize, rfl, ⟨position, holds⟩, .nothing framing,
        rfl, paced⟩
  | cons spec specs ih =>
      rw [List.mapM_cons] at parts_eq
      obtain ⟨part, part_eq, parts_eq⟩ := bind_eq_ok_iff.1 parts_eq
      obtain ⟨later, later_eq, parts_eq⟩ := bind_eq_ok_iff.1 parts_eq
      cases parts_eq
      rw [List.flatten_cons, sendEachRange]
      refine (carries_sendRange holds several paced part_eq).bind ?_
      rintro after final next ⟨behind, after_holds⟩ after_paced
      exact ih later_eq after_holds after_paced

variable {ranges : Text} {body : Octets} {chunkSize : Nat}

/-- Several ranges are put in frames if the window allows all that is sent, and never otherwise. -/
theorem sendFileRanges_several (accepted : Accepted ranges) (several : ranges.count 44 ≠ 0)
    {parts : List Octets} (parts_eq : (specsOf ranges).mapM (partOf content) = .ok parts)
    (holds : Documented.Holds file content position) (paced : Paced framing chunkSize) :
    ((parts.flatten ++ closing).length ≤ framing.fcw → ∃ after final,
      sendFileRanges streamId file framing ranges chunkSize content.length = .ok (after, final) ∧
        (∃ behind, Documented.Holds after content behind) ∧
          Emitted (parts.flatten ++ closing) framing final ∧
        final.bSent = true) ∧
    (framing.fcw < (parts.flatten ++ closing).length →
      sendFileRanges streamId file framing ranges chunkSize content.length =
        .error .storageError) := by
  have length_eq := accepted.length_specsOf
  have nRange_ne : 1 + ranges.count 44 ≠ 1 := by omega
  have unfolded : sendFileRanges streamId file framing ranges chunkSize content.length =
      sendEachRange streamId (1 + ranges.count 44) content.length (specsOf ranges) file framing
          chunkSize >>= fun ranged =>
        send streamId ranged.2.1 ranged.2.2 closing true >>=
          fun sent => .ok (ranged.1, sent.1) := by
    simp only [sendFileRanges]
    rw [if_neg (by exact not_not_intro length_eq)]
    simp only [ne_eq, nRange_ne, not_false_eq_true, if_true]
    rfl
  have carries := @carries_sendEachRange streamId _ _ _ _ _ _ _ _ _ _ nRange_ne _
    _ parts_eq holds paced
  rw [unfolded, List.length_append]
  obtain ⟨fits, after, middle, next, done, after_holds, emitted, -, middle_paced⟩ |
    ⟨too_long, failed | ⟨after, middle, next, done, -, shut, middle_paced⟩⟩ := carries
  · have window := emitted.window
    rw [done, ok_bind]
    refine ⟨fun all_fit => ?_, fun too_long => ?_⟩
    · obtain ⟨final, last, sent, closed, bSent_eq, -⟩ :=
        @send_ok streamId middle next closing (by decide) middle_paced (by omega) true
      dsimp only
      rw [sent]
      exact ⟨after, final, rfl, after_holds, emitted.trans closed, bSent_eq.trans (Bool.or_true _)⟩
    · dsimp only
      rw [send_stuck middle_paced (by omega)]
      rfl
  · rw [failed]
    exact ⟨fun all_fit => by omega, fun _ => rfl⟩
  · rw [done, ok_bind]
    refine ⟨fun all_fit => by omega, fun _ => ?_⟩
    dsimp only
    rw [send_stuck middle_paced (shut.trans_lt (by decide))]
    rfl

/-- The body of a single range is put in frames as far as the window allows. -/
theorem sendFileRanges_single (accepted : Accepted ranges) (single : ranges.count 44 = 0)
    (body_eq : rangesBody ranges content = .ok body)
    (holds : Documented.Holds file content position)
    (paced : Paced framing chunkSize) :
    ∃ after final,
      sendFileRanges streamId file framing ranges chunkSize content.length = .ok (after, final) ∧
        (∃ behind, Documented.Holds after content behind) ∧
        Emitted (body.take framing.fcw) framing final ∧
        final.bSent = (framing.bSent || decide (body ≠ [] ∧ body.length ≤ framing.fcw)) := by
  have length_eq := accepted.length_specsOf
  rw [single, Nat.add_zero] at length_eq
  obtain ⟨spec, specs_eq⟩ := List.length_eq_one_iff.1 length_eq
  rw [rangesBody, specs_eq] at body_eq
  obtain ⟨⟨first, last⟩, parsed, built⟩ := bind_eq_ok_iff.1 body_eq
  cases built
  obtain ⟨first_nonneg, last_lt⟩ := parseContentRange_bounds parsed
  obtain ⟨start, rfl⟩ := Int.eq_ofNat_of_zero_le first_nonneg
  obtain ⟨middle, seeked, middle_holds⟩ := Regular.setIndex_eq holds start
  have unfolded : sendFileRanges streamId file framing ranges chunkSize content.length =
      sendRangePieces streamId 1 ((last - start + 1).toNat + 1) middle framing chunkSize
          (last - start + 1) >>= fun ranged => .ok (ranged.1, ranged.2.1) := by
    have target_eq : ((start : Int) + 1).toNat = start + 1 := by omega
    have specs_eq' : (if 61 ∈ ranges then (ranges.dropWhile (· ≠ 61)).tail else ranges).splitOn 44 =
        [spec] := specs_eq
    simp only [sendFileRanges, specs_eq', single, Nat.add_zero, List.length_singleton, ne_eq,
      not_true_eq_false, if_false, sendEachRange, sendRange, pure_eq_ok, ok_bind,
        parsed, bind_assoc,
      target_eq, seeked]
  rw [unfolded]
  by_cases nothing : last - start + 1 ≤ 0
  · obtain ⟨after, next, done, after_holds, -⟩ :=
      @sendRangePieces_nothing streamId framing chunkSize _ _ _ _ _ _ _ 1 middle_holds _ nothing
        (last - start + 1).toNat
    have empty : slice content start last = [] := by
      rw [slice, Int.toNat_of_nonpos nothing, List.take_zero]
    rw [done, empty, List.take_nil]
    refine ⟨after, framing, rfl, after_holds, .nothing framing, ?_⟩
    rw [decide_eq_false (by exact fun both => both.1 rfl), Bool.or_false]
  · obtain ⟨left, left_eq⟩ := Int.eq_ofNat_of_zero_le (le_of_not_ge nothing)
    have start_eq : min start content.length = start := by omega
    rw [start_eq] at middle_holds
    have slice_eq : slice content start last = (content.drop start).take left := by
      rw [slice, left_eq]
      rfl
    have slice_length : (slice content start last).length = left := by
      rw [slice_eq, List.length_take, List.length_drop]
      omega
    have slice_ne : slice content start last ≠ [] := by
      rw [← List.length_pos_iff]
      omega
    rw [left_eq, Int.toNat_natCast]
    obtain ⟨after, final, next, done, after_holds, emitted, bSent_eq, -⟩ :=
      @sendRangePieces_spec streamId framing chunkSize _ _ _ _ _ _ _ 1 middle_holds left (by omega)
        (by omega) paced _ (Nat.lt_succ_self left)
    rw [done]
    rw [← slice_eq] at emitted
    refine ⟨after, final, rfl, after_holds, emitted, bSent_eq.trans ?_⟩
    rw [slice_length]
    congr 1
    exact decide_eq_decide.2 (by simp only [slice_ne, ne_eq, not_false_eq_true])

end Ranges

end Framing
end Http2
end AdaWebServer
