import AdaWebServer.Http2.Basic

/-!
# Bodies of ranges

A resource is answered with the octets of a range, or of several ranges as a `multipart/byteranges`
body: each part is a message with its own fields and an empty line behind them, and every delimiter
stands at the beginning of a line.
-/

namespace AdaWebServer
namespace Http2

/-- The end of a line. -/
def lineEnd : Text := [13, 10]

/-- The line of a header field. -/
def fieldLine (named : Text × Text) : Text := named.1 ++ text ": " ++ named.2 ++ lineEnd

/-- The fields of a message, an empty line, and its body. -/
def messageOf (fields : List (Text × Text)) (body : Octets) : Octets :=
  (fields.map fieldLine).flatten ++ lineEnd ++ body

/-- The decimal image of a number. -/
def decimalText (number : Int) : Text := text (toString number)

/-- The octets of a range. -/
def slice (content : Octets) (first last : Int) : Octets :=
  (content.drop first.toNat).take (last - first + 1).toNat

/-- The fields that describe a range of a resource. -/
def rangeFields (first last length : Int) : List (Text × Text) :=
  [(text "Content-Range",
      text "bytes " ++ decimalText first ++ text "-" ++ decimalText last ++ text "/" ++
        decimalText length),
    (text "Content-Length", decimalText (last - first + 1))]

/-- A range of a resource as a part. -/
def bodyPart (content : Octets) (bounds : Int × Int) : Octets :=
  messageOf (rangeFields bounds.1 bounds.2 content.length) (slice content bounds.1 bounds.2)

/-- The parts of a body: each of them ends with a line, and stands behind a line with the
delimiter. -/
def multipartOf (delimiter : Text) (parts : List Octets) : Octets :=
  (parts.map fun part => text "--" ++ delimiter ++ lineEnd ++ part ++ lineEnd).flatten ++
    text "--" ++ delimiter ++ text "--" ++ lineEnd

/-- The `multipart/byteranges` body for some ranges of a resource. -/
def byteranges (content : Octets) (all : List (Int × Int)) : Octets :=
  multipartOf (text "aws_range_separator") (all.map (bodyPart content))

/-- The octets that answer a request for some ranges: a single range, or a `multipart/byteranges`
body. -/
def answerBody (content : Octets) : List (Int × Int) → Octets
  | [bounds] => slice content bounds.1 bounds.2
  | all => byteranges content all

/-- The answer to a request for some ranges of a resource with a content type, behind its status
line. -/
def answerOf (contentType : Text) (content : Octets) : List (Int × Int) → Octets
  | [bounds] =>
      messageOf ((text "Content-Type", contentType) :: rangeFields bounds.1 bounds.2 content.length)
        (slice content bounds.1 bounds.2)
  | all =>
      messageOf [(text "Content-Type",
          text "multipart/byteranges" ++ text "; boundary=" ++ text "aws_range_separator")]
        (byteranges content all)

/-! ## Lengths -/

theorem length_slice {content other : Octets} (same : content.length = other.length)
    (first last : Int) : (slice content first last).length = (slice other first last).length := by
  rw [slice, slice, List.length_take, List.length_take, List.length_drop, List.length_drop, same]

/-- The length of a body depends on the length of the resource alone. -/
theorem length_byteranges {content other : Octets} (same : content.length = other.length)
    (all : List (Int × Int)) :
    (byteranges content all).length = (byteranges other all).length := by
  have length_part : ∀ bounds, (bodyPart content bounds).length =
    (bodyPart other bounds).length := by
    intro bounds
    rw [bodyPart, bodyPart, messageOf, messageOf, List.length_append, same, length_slice same]
    exact List.length_append.symm
  rw [byteranges, byteranges, multipartOf, multipartOf]
  induction all with
  | nil => rfl
  | cons bounds all ih =>
      simp only [List.length_append, List.map_cons, List.flatten_cons, length_part] at ih ⊢
      omega

end Http2
end AdaWebServer
