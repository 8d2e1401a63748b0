import AdaWebServer.Soap.Dom

/-!
# Schema definitions

A definition maps the names of parameters and types to types and kinds.  With the name spaces that
are declared it gives the basic type that a type name stands for.
-/

namespace AdaWebServer
namespace Soap

open Http2 (Text text toLower)

/-- `WSDL.Schema.Definition`, with each key once. -/
abbrev Definition := List (Text × Text)

/-- `WSDL.Schema.Binding_Style`. -/
inductive BindingStyle where
  | rpc
  | document
  deriving DecidableEq

/-- `WSDL.Schema.Encoding_Style`. -/
inductive EncodingStyle where
  | encoded
  | literal
  deriving DecidableEq

/-- The value of an enumeration: blanks around the image and the case of its letters do not
matter. -/
def enumerationValue {α : Type} (values : List (Text × α)) (shown : Text) : Option α :=
  let trimmed := ((shown.dropWhile (· = 32)).reverse.dropWhile (· = 32)).reverse
  values.lookup (toLower trimmed)

namespace Definition

/-- `WSDL.Schema.Default`. -/
def default : Definition :=
  [(text "xsd", NameSpace.xsdUrl), (NameSpace.xsdUrl, text "xsd"),
    (NameSpace.xsdUrlDraft2000, text "xsd"), (NameSpace.xsdUrlDraft1999, text "xsd"),
    (text "xsi", NameSpace.xsiUrl), (NameSpace.xsiUrl, text "xsi"),
    (text "wsdl", NameSpace.wsdlUrl), (NameSpace.wsdlUrl, text "wsdl"),
    (text "enc", NameSpace.soapencUrl), (NameSpace.soapencUrl, text "enc"),
    (text "env", NameSpace.soapenvUrl), (NameSpace.soapenvUrl, text "env")]

/-- `Contains`. -/
def contains (schema : Definition) (key : Text) : Bool := (schema.lookup key).isSome

/-- `Schema.Contains (Key) and then Schema.Element (Key) = Value`. -/
def isA (schema : Definition) (key value : Text) : Bool := schema.lookup key = some value

/-- `Get_Binding_Style`. -/
def getBindingStyle (schema : Definition) : Option BindingStyle :=
  match schema.lookup (text "@binding.style") with
  | some shown => enumerationValue [(text "rpc", .rpc), (text "document", .document)] shown
  | none => some .rpc

/-- `Get_Encoding_Style`. -/
def getEncodingStyle (schema : Definition) (operation : Text) : Option EncodingStyle :=
  match schema.lookup (text "@" ++ operation ++ text ".encoding") with
  | some shown => enumerationValue [(text "encoded", .encoded), (text "literal", .literal)] shown
  | none => some .encoded

end Definition

/-! ## `Get_Schema_Type` -/

/-- `Null_String`. -/
def nullString : Text := [0]

/-- The loop of `Get_Schema_Type` for the definition of `n2:name`, where `n2` is another name of
the name space that the prefix `n1` has. -/
def renamedType (typeName : Text) (schema : Definition) (ns : Namespaces) : Option Text :=
  ns.user.findSome? fun space =>
    if space.name = nameSpaceOf typeName then
      (schema.lookup space.value).bind fun renamed => schema.lookup (withNS renamed typeName)
    else none

/-- The part of `Get_Schema_Type` for a name that is not in the schema. -/
def prefixedType (typeName : Text) (schema : Definition) (ns : Namespaces)
    (default : Text) : Text :=
  let otherwise := if default = nullString then typeName else default
  let qualifier := if 46 ∈ typeName then typeName.takeWhile (· ≠ 46) else []
  let dotted := typeName.dropWhile (· ≠ 46)
  let ofQualifier := (schema.lookup qualifier).bind fun root => schema.lookup (root ++ dotted)
  if qualifier ≠ [] ∧ ofQualifier.isSome then ofQualifier.getD []
  else if qualifier ≠ [] ∧ schema.contains (dotted.drop 1) then
    (schema.lookup (dotted.drop 1)).getD []
  else if nameSpaceOf typeName = [] then otherwise
  else (renamedType typeName schema ns).getD otherwise

/-- `Get_Schema_Type` where `Final` is false. -/
def getSchemaType (typeName : Text) (schema : Definition) (ns : Namespaces)
    (default : Text) : Text :=
  match schema.lookup typeName with
  | some value => value
  | none => prefixedType typeName schema ns default

/-- `Get_Schema_Type` where `Final` is true, for a number of calls. -/
def getFinalSchemaType (schema : Definition) (ns : Namespaces) : Nat → Text → Option Text
  | 0, _ => none
  | calls + 1, typeName =>
      match schema.lookup typeName with
      | some value =>
          if value ≠ typeName ∧ schema.contains value then getFinalSchemaType schema ns calls value
          else some value
      | none => some (prefixedType typeName schema ns nullString)

/-! ## Types -/

/-- `Type_State`. -/
inductive TypeState where
  | void
  | undefined
  | anyType
  | anyURI
  | int
  | integer
  | float
  | double
  | long
  | short
  | byte
  | unsignedLong
  | unsignedInt
  | unsignedShort
  | unsignedByte
  | string
  | boolean
  | timeInstant
  | dateTime
  | date
  | time
  | duration
  | decimal
  | base64
  | base64Bin
  | enum
  | token
  | normalizedString
  deriving DecidableEq

namespace TypeState

/-- `Type_State'Range`. -/
def range : List TypeState :=
  [void, undefined, anyType, anyURI, int, integer, float, double, long, short, byte, unsignedLong,
    unsignedInt, unsignedShort, unsignedByte, string, boolean, timeInstant, dateTime, date, time,
    duration, decimal, base64, base64Bin, enum, token, normalizedString]

/-- The names in `Handlers`. -/
def name : TypeState → Option Text
  | void => none
  | undefined => text "xsd:ur-type"
  | anyType => text "xsd:anyType"
  | anyURI => text "xsd:anyURI"
  | int => text "xsd:int"
  | integer => text "xsd:integer"
  | float => text "xsd:float"
  | double => text "xsd:double"
  | long => text "xsd:long"
  | short => text "xsd:short"
  | byte => text "xsd:byte"
  | unsignedLong => text "xsd:unsignedLong"
  | unsignedInt => text "xsd:unsignedInt"
  | unsignedShort => text "xsd:unsignedShort"
  | unsignedByte => text "xsd:unsignedByte"
  | string => text "xsd:string"
  | boolean => text "xsd:boolean"
  | timeInstant => text "xsd:timeInstant"
  | dateTime => text "xsd:dateTime"
  | date => text "xsd:date"
  | time => text "xsd:time"
  | duration => text "xsd:duration"
  | decimal => text "xsd:decimal"
  | base64 => text "soapenc:base64"
  | base64Bin => text "xsd:base64Binary"
  | enum => none
  | token => text "xsd:token"
  | normalizedString => text "xsd:normalizedString"

/-- `Encoded` in `Handlers`. -/
def encoded : TypeState → Bool
  | base64 => true
  | base64Bin => true
  | token => true
  | normalizedString => true
  | _ => false

end TypeState

/-- The aliases of a schema URL, in the loop `Look_Alias`. -/
def isAlias (schema : Definition) (t1Name t2Name url : Text) : List UInt8 → Bool
  | [] => false
  | letter :: letters =>
      match schema.lookup (64 :: letter :: 64 :: url) with
      | some ns => t1Name = withNS ns t2Name || isAlias schema t1Name t2Name url letters
      | none => false

/-- `Is_Schema`. -/
def isSchema (schema : Definition) (t1Name t2Name url : Text) : Bool :=
  match schema.lookup url with
  | some ns =>
      t1Name = withNS ns t2Name ||
        isAlias schema t1Name t2Name url ((List.range 26).map fun n => UInt8.ofNat (97 + n))
  | none => false

/-- The test of the loop of `To_Type`. -/
def isOfType (schema : Definition) (ns : Namespaces) (typeName : Text) (type : TypeState) : Bool :=
  match type.name with
  | none => false
  | some name =>
      type.encoded && (typeName = withNS ns.enc.name name ||
          isSchema schema typeName name NameSpace.soapencUrl) ||
        (typeName = withNS ns.xsd.name name || isSchema schema typeName name NameSpace.xsdUrl ||
          isSchema schema typeName name NameSpace.xsdUrlDraft2000 ||
          isSchema schema typeName name NameSpace.xsdUrlDraft1999)

/-- `To_Type`.  More calls of `Get_Schema_Type` than the schema has keys would never end. -/
def toType (typeName : Text) (ns : Namespaces) (schema : Definition) : Option TypeState := do
  let localSchema := if schema = [] then Definition.default else schema
  let tName ← getFinalSchemaType localSchema ns (localSchema.length + 1) typeName
  if tName = text "@enum" then return .enum
  return (TypeState.range.find? (isOfType localSchema ns tName)).getD .undefined

end Soap
end AdaWebServer
