import AdaWebServer.Http2.Basic
import Mathlib.Tactic.Common

/-!
# Trees of SOAP messages

The nodes of `DOM.Core` as far as messages have them, the access of `SOAP.XML` to them and the name
spaces that elements declare.
-/

namespace AdaWebServer
namespace Soap

open Http2 (Text text toLower)

/-! ## Names -/

/-- `SOAP.Utils.NS`, the part of a name in front of a colon. -/
def nameSpaceOf (name : Text) : Text := if 58 ∈ name then name.takeWhile (· ≠ 58) else []

/-- `SOAP.Utils.No_NS`, the part behind it. -/
def noNS (name : Text) : Text := if 58 ∈ name then (name.dropWhile (· ≠ 58)).drop 1 else name

/-- `SOAP.Utils.With_NS`. -/
def withNS (ns name : Text) : Text := if ns = [] then name else ns ++ 58 :: noNS name

/-! ## Nodes -/

/-- An attribute with its qualified name. -/
structure Attribute where
  name : Text
  value : Text
  deriving DecidableEq

/-- `DOM.Core.Node_Types`. -/
inductive NodeType where
  | element
  | text
  | comment
  deriving DecidableEq

/-- `DOM.Core.Node`.  Elements have qualified names. -/
inductive Node where
  | element (name : Text) (attributes : List Attribute) (children : List Node)
  | text (data : Text)
  | comment (data : Text)

namespace Node

def nodeType : Node → NodeType
  | element .. => .element
  | text .. => .text
  | comment .. => .comment

/-- `Child_Nodes`, in which `Next_Sibling` is the next one. -/
def children : Node → List Node
  | element _ _ children => children
  | _ => []

/-- `Attributes`, the null map for nodes other than elements. -/
def attributes : Node → List Attribute
  | element _ attributes _ => attributes
  | _ => []

def nodeName : Node → Text
  | element name _ _ => name
  | text _ => Http2.text "#text"
  | comment _ => Http2.text "#comment"

/-- `Local_Name`, empty for nodes other than elements. -/
def localName : Node → Text
  | element name _ _ => noNS name
  | _ => []

/-- `Prefix`. -/
def namePrefix : Node → Text
  | element name _ _ => nameSpaceOf name
  | _ => []

def nodeValue : Node → Text
  | element .. => []
  | text data => data
  | comment data => data

end Node

/-- `Get_Named_Item`. -/
def getNamedItem (atts : List Attribute) (name : Text) : Option Attribute :=
  atts.find? (·.name = name)

/-! ## `SOAP.XML` -/

/-- The nodes that `SOAP.XML.First_Child` and `SOAP.XML.Next_Sibling` skip. -/
def Node.skipped (node : Node) : Bool := node.nodeType = .text || node.nodeType = .comment

/-- `SOAP.XML.First_Child` and the siblings that `DOM.Core.Nodes.Next_Sibling` gives from it on. -/
def fromFirstChild (parent : Node) : List Node := parent.children.dropWhile Node.skipped

/-- `SOAP.XML.First_Child` and the siblings that `SOAP.XML.Next_Sibling` gives from it on. -/
def elementsOf (parent : Node) : List Node := parent.children.filter fun node => !node.skipped

/-- `SOAP.XML.First_Child_If_Exists`. -/
def firstChildIfExists (node : Node) : Node := node.children.head?.getD node

/-- `Get_Attr_Value`. -/
def getAttrValue (node : Node) (name : Text) : Text :=
  match getNamedItem node.attributes name with
  | none => []
  | some att => att.value

/-- `Text_Node_Value`. -/
def textNodeValue (node : Node) : Text :=
  if node.children = [] then node.nodeValue
  else node.children.flatMap fun child => if child.nodeType = .text then child.nodeValue else []

/-- A node in its tree, with the nodes that it is in, the nearest first. -/
structure Place where
  node : Node
  ancestors : List Node

namespace Place

/-- A child of a node. -/
def child (parent : Place) (node : Node) : Place := ⟨node, parent.node :: parent.ancestors⟩

/-- `Body_Node`.  An exception is raised at the document. -/
def bodyNode (node : Node) : List Node → Option Place
  | [] => if toLower (noNS node.localName) = text "body" then some ⟨node, []⟩ else none
  | parent :: rest =>
      if toLower (noNS node.localName) = text "body" then some ⟨node, parent :: rest⟩
      else bodyNode parent rest

/-- What the loop of `Get_Ref` looks for. -/
def hasId (id : Text) (node : Node) : Bool := 35 :: getAttrValue node (text "id") = id

/-- `SOAP.XML.Get_Ref`. -/
def getRef (place : Place) : Option Place :=
  match getNamedItem place.node.attributes (text "href") with
  | none => some place
  | some href => do
      let body ← bodyNode place.node place.ancestors
      let found ← (fromFirstChild body.node).find? (hasId href.value)
      return body.child found

/-- The places of the fields of a record and of the items of an array. -/
def fields (parent : Place) : List Place := (fromFirstChild parent.node).map parent.child

end Place

/-! ## Name spaces -/

/-- `SOAP.Name_Space.Object`. -/
structure NameSpace where
  namePrefix : Text
  name : Text
  value : Text
  deriving DecidableEq

namespace NameSpace

/-- `Create` with the default prefix. -/
def create (name value : Text) : NameSpace := ⟨text "xmlns", name, value⟩

/-- `No_Name_Space`. -/
def none : NameSpace := ⟨[], [], []⟩

def soapencUrl : Text := text "http://schemas.xmlsoap.org/soap/encoding/"
def soapenvUrl : Text := text "http://schemas.xmlsoap.org/soap/envelope/"
def xsdUrl : Text := text "http://www.w3.org/2001/XMLSchema"
def xsdUrlDraft1999 : Text := text "http://www.w3.org/1999/XMLSchema"
def xsdUrlDraft2000 : Text := text "http://www.w3.org/2000/10/XMLSchema"
def xsiUrl : Text := text "http://www.w3.org/2001/XMLSchema-instance"
def wsdlUrl : Text := text "http://schemas.xmlsoap.org/wsdl/"

def xsd : NameSpace := create (text "xsd") xsdUrl
def xsi : NameSpace := create (text "xsi") xsiUrl
def soapenc : NameSpace := create (text "soapenc") soapencUrl
def soapenv : NameSpace := create (text "soapenv") soapenvUrl

end NameSpace

/-- `Namespaces`, with the first `Index` of the `User` ones. -/
structure Namespaces where
  xsd : NameSpace := .xsd
  xsi : NameSpace := .xsi
  enc : NameSpace := .soapenc
  env : NameSpace := .soapenv
  user : List NameSpace := []

namespace Namespaces

/-- `Max_Name_Space`. -/
def maxNameSpace : Nat := 10

/-- `URL_xsd` and `URL_xsi`, the alternate URLs. -/
def alternateXsdUrl : Text := text "http://www.w3.org/1999/XMLSchema"
def alternateXsiUrl : Text := text "http://www.w3.org/1999/XMLSchema-instance"

/-- A turn of the loop of `Parse_Namespaces`. -/
def declared (ns : Namespaces) (att : Attribute) : Namespaces :=
  let space := NameSpace.create (noNS att.name) att.value
  if nameSpaceOf att.name = text "xmlns" then
    if att.value = alternateXsdUrl ∨ att.value = NameSpace.xsdUrl then
      { ns with xsd := space }
    else if att.value = alternateXsiUrl ∨ att.value = NameSpace.xsiUrl then
      { ns with xsi := space }
    else if att.value = NameSpace.soapencUrl then { ns with enc := space }
    else if att.value = NameSpace.soapenvUrl then { ns with env := space }
    else if ns.user.length < maxNameSpace then { ns with user := ns.user ++ [space] }
    else ns
  else ns

/-- `Get_Namespace_Object`. -/
def getNamespaceObject (ns : Namespaces) (name : Text) : NameSpace :=
  (ns.user.find? (·.name = name)).getD .none

/-- `Get_Namespace_Value`. -/
def getNamespaceValue (ns : Namespaces) (name : Text) : Text :=
  match ns.user.find? (·.name = name) with
  | none => []
  | some space => space.value

end Namespaces

/-- `Parse_Namespaces`. -/
def parseNamespaces (node : Node) (ns : Namespaces) : Namespaces :=
  node.attributes.foldl Namespaces.declared ns

end Soap
end AdaWebServer
