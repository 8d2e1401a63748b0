import AdaWebServer.Http2.Basic

/-!
# Responses

What the callbacks of a server answer with.  A response without data is none: whoever gets it goes on.
-/

namespace AdaWebServer
namespace Response

open Http2 (Text text)

/-- `Data_Mode`. -/
inductive DataMode where
  | header
  | message
  | file
  | fileOnce
  | stream
  | socketTaken
  | webSocket
  | noData
  deriving DecidableEq

/-- `Data`. -/
structure Data where
  mode : DataMode := .noData
  statusCode : Nat := 200
  contentType : Text := []
  messageBody : Text := []
  deriving DecidableEq

/-- `Is_Empty`. -/
def Data.IsEmpty (data : Data) : Prop := data.mode = .noData

instance (data : Data) : Decidable data.IsEmpty := inferInstanceAs (Decidable (_ = _))

/-- `Acknowledge`. -/
def acknowledge (statusCode : Nat) (messageBody : Text) (contentType : Text := text "text/html") :
    Data :=
  if messageBody = [] then { mode := .header, statusCode }
  else { mode := .message, statusCode, contentType, messageBody }

end Response
end AdaWebServer
