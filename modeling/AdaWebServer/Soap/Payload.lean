import AdaWebServer.Soap.Schema

/-!
# Loading a payload

`Tree_Reader` makes a tree from what the parser of XML reports, and `SOAP.Message.XML` reads the
wrapper and the parameters from the tree.  An exception gives no result.  How the text of a value
is converted and how octets are decoded are parameters.
-/

namespace AdaWebServer
namespace Soap

open Http2 (Text text toLower)

/-! ## `Tree_Reader` -/

/-- What `Sax.Readers` reports between the tags of an element.  `Tree_Reader` has no handler for
comments. -/
inductive Content where
  | element (name : Text) (attributes : List Attribute) (content : List Content)
  | characters (ch : Text)
  | ignorableWhitespace (ch : Text)
  | comment (ch : Text)

section Reader

variable (fromUtf8 : Text → Option Text)

/-- The text node that `Characters` appends.  Octets that cannot be decoded are kept. -/
def characters (ch : Text) : Node := .text ((fromUtf8 ch).getD ch)

/-- The text nodes that `Ignorable_Whitespace` appends inside of an element. -/
def ignorableWhitespace : Text → List Node
  | [] => []
  | first :: rest => if first ≠ 10 then [.text (first :: rest)] else []

mutual

/-- The nodes made of a part of an element. -/
def readPart : Content → List Node
  | .element name atts content => [.element name atts (readContent content)]
  | .characters ch => [characters fromUtf8 ch]
  | .ignorableWhitespace ch => ignorableWhitespace ch
  | .comment _ => []

/-- The children of an element. -/
def readContent : List Content → List Node
  | [] => []
  | part :: parts => readPart part ++ readContent parts

end

/-- The children of the document. -/
def readDocument (document : List Content) : List Node :=
  document.flatMap fun part =>
    match part with
    | .ignorableWhitespace _ => []
    | part => readPart fromUtf8 part

end Reader

/-! ## Objects -/

variable {V : Type}

/-- The objects of `SOAP.Types`. -/
inductive Object (V : Type) where
  /-- A value with the type whose handler has made it. -/
  | simple (type : TypeState) (value : V) (name typeName : Text) (ns : NameSpace)
  | enumeration (value typeName name : Text)
  | null (name typeName : Text) (ns : NameSpace)
  | untyped (value name : Text)
  | array (items : List (Object V)) (name typeName : Text)
  | record (fields : List (Object V)) (name typeName : Text) (ns : NameSpace)
  /-- `SOAP_Attribute`. -/
  | attributed (fields : List (Object V)) (name typeName : Text) (ns : NameSpace)

namespace Object

/-- `Types.Name_Space`. -/
def nameSpace : Object V → NameSpace
  | simple _ _ _ _ ns => ns
  | null _ _ ns => ns
  | record _ _ _ ns => ns
  | attributed _ _ _ ns => ns
  | _ => .none

/-- `With_NS`. -/
def withNS (ns : NameSpace) : Object V → Object V
  | simple type value name typeName own =>
      simple type value name typeName (if ns = .none then own else ns)
  | object => object

end Object

/-- The type name of a record, as `Types.R` sets it. -/
def recordTypeName (name typeName : Text) : Text := if typeName = [] then name else typeName

/-- `State`.  `Last_Node` is never set. -/
structure State (V : Type) where
  nameSpace : NameSpace := .none
  wrapperName : Text := []
  parameters : List (Object V) := []
  aState : TypeState := .void
  ns : Namespaces := {}
  strict : Bool
  style : BindingStyle
  encoding : EncodingStyle := .encoded
  schema : Definition

namespace State

variable (state : State V)

/-- The name spaces of a node are added. -/
def declaring (node : Node) : State V := { state with ns := parseNamespaces node state.ns }

/-- The name of an attribute in the name space of schema instances. -/
def xsiName (name : Text) : Text := state.ns.xsi.name ++ 58 :: name

def toType (typeName : Text) : Option TypeState := Soap.toType typeName state.ns state.schema

def getSchemaType (typeName default : Text) : Text :=
  Soap.getSchemaType typeName state.schema state.ns default

end State

/-! ## Handlers -/

/-- The value of the first node of an element after `Normalize`. -/
def normalizedValue (node : Node) : Text :=
  match node.children.takeWhile fun child => child.nodeType = .text with
  | [] => (firstChildIfExists node).nodeValue
  | texts => texts.flatMap Node.nodeValue

/-- The text that the handler of a type reads. -/
def readText (node : Node) : TypeState → Text
  | .anyType => textNodeValue node
  | .anyURI => textNodeValue node
  | .string => textNodeValue node
  | .token => textNodeValue node
  | .normalizedString => textNodeValue node
  | .base64 => normalizedValue node
  | .base64Bin => normalizedValue node
  | _ => (firstChildIfExists node).nodeValue

section Parameters

variable (convert : TypeState → Text → Option V)

/-- `Handlers`, for the text that is read.  The types without a handler raise an exception. -/
def handler (type : TypeState) (name typeName read : Text) : Option (Object V) :=
  match type with
  | .void => none
  | .undefined => none
  | .enum => none
  | .anyType => (convert .string read).map (.simple .string · name typeName .none)
  | .boolean =>
      let shown :=
        if toLower read = text "1" ∨ toLower read = text "true" then text "xsd:boolean"
        else typeName
      (convert .boolean read).map (.simple .boolean · name shown .none)
  | type => (convert type read).map (.simple type · name typeName .none)

/-- `Parse_Enumeration`. -/
def parseEnumeration (name : Text) (node : Node) (typeName : Text) : Object V :=
  .enumeration (firstChildIfExists node).nodeValue
    (if typeName = [] then noNS (getAttrValue node (text "type")) else typeName) name

/-- `LQ_Name`. -/
def qualified (qName name : Text) : Text := if qName = [] then name else qName ++ 46 :: name

/-- The value of an element with attributes, where it has one. -/
def attributeValue (node : Node) (tName : Text) (state : State V) : Option (List (Object V)) :=
  if node.children = [] then some []
  else do
    let type ← state.toType tName
    let object ← handler convert type (text "attribute_value") tName (readText node type)
    return [object]

/-- `T_Name` of `Parse_Attribute`. -/
def attributedType (lqName : Text) (field : Node) (state : State V) : Text :=
  let xsd := getAttrValue field (state.xsiName (text "type"))
  if xsd = [] then state.getSchemaType (lqName ++ text "@@is_a") xsd else xsd

/-- `Parse_Attribute`. -/
def parseAttribute (name : Text) (place : Place) (qName : Text) (state : State V) :
    Option (Object V) := do
  let lqName := qualified qName name
  let field ← place.getRef
  let tName := attributedType lqName field.node state
  let value ← attributeValue convert place.node tName state
  let fields ← place.node.attributes.mapM fun att => do
    let fn := noNS att.name
    let typeName := state.getSchemaType (lqName ++ 46 :: fn ++ text "@is_a") nullString
    let type ← state.toType typeName
    handler convert type fn typeName att.value
  return .attributed (value ++ fields) name (recordTypeName name (noNS tName))
    (state.ns.getNamespaceObject (nameSpaceOf tName))

/-! ## Parameters -/

/-- What `Parse_Param` does with an element. -/
inductive Kind where
  /-- Below a `Fault`. -/
  | fault
  | attributed
  | array
  | record
  | null (typeName : Text) (ns : NameSpace)
  | enumeration (typeName : Text)
  /-- An empty element without a type. -/
  | empty
  /-- A text without a type. -/
  | untyped
  | simple (type : TypeState) (typeName : Text) (ns : NameSpace)
  deriving DecidableEq

/-- The kind that the first child tells.  Where an attribute `type` is there, the child has to be,
too. -/
def kindOfFirst : Option Node → Bool → Option Kind
  | none, true => none
  | none, false => some .empty
  | some first, typed =>
      if first.nodeType = .text then some (if typed then .enumeration [] else .untyped)
      else some .record

section Kinds

variable (lqName : Text) (ref : Node) (state : State V)

/-- `Is_Array`. -/
def isArray : Bool :=
  state.schema.isA (lqName ++ text "@is_a") (text "@array") ||
    noNS (getAttrValue ref (state.xsiName (text "type"))) = text "Array" ||
    (getNamedItem ref.attributes (state.ns.enc.name ++ text ":arrayType")).isSome

/-- `Is_Nil`. -/
def isNil : Bool :=
  let value := getAttrValue ref (state.xsiName (text "nil"))
  value = text "true" || value = text "TRUE"

/-- `XSI_Type`, which is only looked for in encoded messages. -/
def xsiType : Option Attribute :=
  match state.encoding with
  | .encoded => getNamedItem ref.attributes (state.xsiName (text "type"))
  | .literal => none

/-- `xsd`, the type name. -/
def paramType : Text :=
  match state.encoding with
  | .encoded => getAttrValue ref (state.xsiName (text "type"))
  | .literal => state.getSchemaType (lqName ++ text "@is_a") []

/-- The kind of an element without a type. -/
def untypedKind : Option Kind :=
  if (getNamedItem ref.attributes (state.xsiName (text "null"))).isSome ∨
      (getNamedItem ref.attributes (state.xsiName (text "nil"))).isSome then
    some (.null [] .none)
  else kindOfFirst ref.children.head? (getNamedItem ref.attributes (text "type")).isSome

/-- Whether a key of the schema is there with the value false. -/
def isFalse (key : Text) : Bool :=
  match state.schema.lookup key with
  | some value => toLower value = text "false"
  | none => false

/-- The kind of an element with a type. -/
def typedKind (xsd : Text) : Option Kind := do
  let type ← state.toType xsd
  let ns := state.ns.getNamespaceObject (nameSpaceOf xsd)
  if type = .undefined then return .record
  if type = .enum then return .enumeration xsd
  if isNil ref state then return .null xsd ns
  if isFalse state (lqName ++ text "@is_ref") ∧
    isFalse state (nameSpaceOf xsd ++ text "@qualified") then
    return .simple type xsd .none
  return .simple type xsd ns

/-- The cases of `Parse_Param`. -/
def paramKind : Option Kind :=
  if state.wrapperName = text "Fault" then some .fault
  else if state.schema.isA (lqName ++ text "@is_a") (text "@attribute") then some .attributed
  else if isArray lqName ref state then some .array
  else if state.schema.isA (lqName ++ text "@is_a") (text "@record") then some .record
  else if xsiType ref state = none ∧ paramType lqName ref state = [] ∧
      (state.aState = .void ∨ state.aState = .undefined) then
    untypedKind ref state
  else typedKind lqName ref state (paramType lqName ref state)

end Kinds

/-- The object of an element whose children are not parsed. -/
def parseSingle (kind : Kind) (name : Text) (ref : Place) (qName : Text) (state : State V) :
    Option (Object V) :=
  match kind with
  | .fault => handler convert .string name (text "xsd:string") (textNodeValue ref.node)
  | .attributed => parseAttribute convert name ref qName state
  | .array => none
  | .record => none
  | .null typeName ns => some (.null name typeName ns)
  | .enumeration typeName => some (parseEnumeration name ref.node typeName)
  | .empty => some (.untyped [] name)
  | .untyped => some (.untyped (textNodeValue ref.node) name)
  | .simple type typeName ns =>
      (handler convert type name typeName (readText ref.node type)).map (·.withNS ns)

/-- The loop over the fields of a record, the items of an array or the parameters. -/
def parseAll (parse : Place → State V → Option (Object V × State V)) :
    List Place → State V → Option (List (Object V) × State V)
  | [], state => some ([], state)
  | place :: places, state => do
      let (object, state) ← parse place state
      let (objects, state) ← parseAll parse places state
      return (object :: objects, state)

/-- `Get_Item_Name`. -/
def getItemName (node : Node) : Text :=
  match (fromFirstChild node).head? with
  | none => text "item"
  | some item => item.localName

/-- `Get_Type_Name` of `Parse_Array`. -/
def arrayTypeName (lqName : Text) (node : Node) (state : State V) : Option Text :=
  match state.encoding with
  | .literal => some ((state.schema.lookup (lqName ++ 46 :: getItemName node)).getD [])
  | .encoded => do
      let arrayType ← getNamedItem node.attributes (state.ns.enc.name ++ text ":arrayType")
      if 91 ∈ arrayType.value then some (arrayType.value.takeWhile (· ≠ 91)) else none

/-- `Parse_Array`. -/
def parseArray (parse : Text → Place → State V → Option (Object V × State V)) (name : Text)
    (place : Place) (qName : Text) (state : State V) : Option (Object V × State V) := do
  let lqName := qualified qName name
  let inner := state.declaring place.node
  let typeName ← arrayTypeName lqName place.node inner
  let aType ← inner.toType typeName
  let (items, after) ← parseAll (parse lqName) place.fields { inner with aState := aType }
  return (.array items name typeName, { after with aState := state.aState })

/-- `T_Name` of `Parse_Record`. -/
def recordType (name : Text) (field : Node) (qName : Text) (state : State V) : Text :=
  let xsd := getAttrValue field (state.xsiName (text "type"))
  if state.style = .document then state.getSchemaType name name
  else if xsd = [] then state.getSchemaType (qualified qName name ++ text "@is_a") xsd
  else xsd

/-- The test of `Parse_Record` for an enumeration with an `href`. -/
def isEnumeration (name : Text) (node field : Node) : Option Bool :=
  if name = node.localName then some false
  else field.children.head?.map fun first => first.nodeType = .text

/-- `Parse_Record`. -/
def parseRecord (parse : Text → Place → State V → Option (Object V × State V)) (name : Text)
    (place : Place) (qName : Text) (state : State V) : Option (Object V × State V) := do
  let field ← place.getRef
  let tName := recordType name field.node qName state
  if ← isEnumeration name place.node field.node then
    return (.enumeration (firstChildIfExists field.node).nodeValue (noNS tName) name, state)
  let (fields, after) ← parseAll (parse (qualified qName name)) field.fields
    { state with aState := .void }
  return (.record fields name (recordTypeName name (noNS tName))
      (after.ns.getNamespaceObject (nameSpaceOf tName)),
    { after with aState := state.aState })

/-- `Parse_Param`, for calls inside of each other up to a depth. -/
def parseParam : Nat → Text → Place → State V → Option (Object V × State V)
  | 0, _, _, _ => none
  | depth + 1, qName, place, state => do
      let name := place.node.localName
      let ref ← place.getRef
      let state := state.declaring ref.node
      let kind ← paramKind (qualified qName name) ref.node state
      match kind with
      | .array => parseArray (parseParam depth) name ref qName state
      | .record => parseRecord (parseParam depth) name ref qName state
      | kind => (parseSingle convert kind name ref qName state).map (·, state)

/-! ## Messages -/

/-- The name space of a wrapper. -/
def wrapperNameSpace (node : Node) (state : State V) : NameSpace :=
  if node.namePrefix = [] then state.nameSpace
  else if node.attributes ≠ [] then
    match getNamedItem node.attributes (text "xmlns:" ++ node.namePrefix) with
    | some xmlns => .create node.namePrefix xmlns.value
    | none => state.nameSpace
  else .create node.namePrefix (state.ns.getNamespaceValue node.namePrefix)

/-- The places of the parameters of a wrapper. -/
def parameterPlaces (wrapper : Place) : List Place :=
  (wrapper.node.children.filter fun node => node.nodeType ≠ .text).map wrapper.child

/-- What `Parse_Wrapper` sets in front of its loop. -/
def enterWrapper (node : Node) (state : State V) : Option (State V) := do
  let state := state.declaring node
  let encoding ← state.schema.getEncodingStyle node.localName
  return { state with
    nameSpace := wrapperNameSpace node state
    wrapperName := node.localName
    encoding }

/-- `Parse_Wrapper`. -/
def parseWrapper (depth : Nat) (place : Place) (state : State V) : Option (State V) := do
  let state ← enterWrapper place.node state
  let (objects, after) ←
    parseAll (parseParam convert depth place.node.localName) (parameterPlaces place) state
  return { after with parameters := state.parameters ++ objects }

/-- The signature of a message in document style. -/
def signature (nodes : List Node) : Text :=
  nodes.foldl (fun signature node =>
    (if signature = [] then [] else signature ++ [58]) ++ noNS node.nodeName) []

/-- What `Parse_Body` sets in front of its loop in document style. -/
def enterDocument (node : Node) (state : State V) : State V :=
  { state with
    wrapperName := signature (elementsOf node)
    encoding := .literal }

/-- `Parse_Body`. -/
def parseBody (depth : Nat) (place : Place) (state : State V) : Option (State V) := do
  let state := state.declaring place.node
  match state.style with
  | .rpc =>
      let wrapper ← (fromFirstChild place.node).head?
      parseWrapper convert depth (place.child wrapper) state
  | .document =>
      let state := enterDocument place.node state
      let places := (elementsOf place.node).map place.child
      let (objects, after) ← parseAll (parseParam convert depth []) places state
      return { after with parameters := state.parameters ++ objects }

/-- `Parse_Header`. -/
def parseHeader (node : Node) : Option Unit :=
  if toLower node.localName = text "header" then some () else none

/-- The child of an `Envelope` that is read as its body: the only one, or the one behind a
header. -/
def envelopeBody (node : Node) : Option Node :=
  match node.children with
  | [_] => (fromFirstChild node).head?
  | [_, second] => do
      let header ← (fromFirstChild node).head?
      parseHeader header
      if second.skipped then none else some second
  | _ => none

/-- `Parse_Envelope`. -/
def parseEnvelope (depth : Nat) (place : Place) (state : State V) : Option (State V) := do
  let state := state.declaring place.node
  if place.node.localName ≠ text "Envelope" then
    if state.strict then none else parseWrapper convert depth place state
  else
    let body ← envelopeBody place.node
    parseBody convert depth (place.child body) state

/-- `Parse_Document`, for the children of the document. -/
def parseDocument (depth : Nat) (nodes : List Node) (state : State V) : Option (State V) :=
  match nodes with
  | [root] => if root.skipped then none else parseEnvelope convert depth ⟨root, []⟩ state
  | _ => none

/-- `Message.Payload.Object`. -/
structure Payload (V : Type) where
  nameSpace : NameSpace
  wrapperName : Text
  parameters : List (Object V)
  usersNS : List NameSpace

/-- The turn of the loop of `Build` for a parameter. -/
def addNameSpace (users : List NameSpace) (object : Object V) : Option (List NameSpace) :=
  let ns := object.nameSpace
  if ns ≠ .none ∧ ∀ user ∈ users, user.value ≠ ns.value then
    if users.length < Namespaces.maxNameSpace then some (users ++ [.create ns.name ns.value])
    else none
  else some users

/-- `Payload.Build`. -/
def build (procedureName : Text) (pSet : List (Object V)) (nameSpace : NameSpace) :
    Option (Payload V) := do
  let usersNS ← pSet.foldlM addNameSpace []
  return ⟨nameSpace, procedureName, pSet, usersNS⟩

/-- `Load_Payload`, with calls of `Parse_Param` inside of each other up to a depth. -/
def loadPayload (fromUtf8 : Text → Option Text) (depth : Nat) (document : List Content)
    (envelope : Bool) (schema : Definition) : Option (Payload V) := do
  let style ← schema.getBindingStyle
  let state ← parseDocument convert depth (readDocument fromUtf8 document)
    { strict := envelope, style, schema }
  build state.wrapperName state.parameters state.nameSpace

end Parameters

end Soap
end AdaWebServer
