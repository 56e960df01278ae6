import RichDoc.Dom.Tree
import RichDoc.Html.Name

/-!
# HTML text

A tree is printed with start tags, end tags and escaped text. Documents, and elements whose tag
cannot be printed, leave only their children; attributes whose name cannot be printed are left out.
Texts and attribute values are escaped, so none of them can open or close a tag.
-/

namespace RichDoc.Html

/-- The escape of one character. -/
def escapeChar (c : Char) : List Char :=
  match c with
  | '&' => ['&', 'a', 'm', 'p', ';']
  | '<' => ['&', 'l', 't', ';']
  | '>' => ['&', 'g', 't', ';']
  | '"' => ['&', 'q', 'u', 'o', 't', ';']
  | '\x27' => ['&', '#', '3', '9', ';']
  | c => [c]

/-- Text with its special characters escaped. -/
def escape (s : String) : String := String.ofList (s.toList.flatMap escapeChar)

/-- How void elements are closed. -/
structure Style where
  /-- Write `<br/>` and not `<br>`. -/
  xhtml : Bool
  deriving DecidableEq, Repr

/-- The attributes that can be printed, each after a space. -/
def attributesText (attrs : List Attribute) : String :=
  String.join ((attrs.filter fun a => isAttrName a.name.localName).map fun a =>
    " " ++ a.name.localName ++ "=\"" ++ escape a.value ++ "\"")

mutual

/-- The text of a tree. -/
def print (style : Style) : Tree → String
  | .absent _ => ""
  | .node _ .document children => printAll style children
  | .node _ (.text text) _ => escape text
  | .node _ (.comment text) _ => "<!--" ++ text ++ "-->"
  | .node _ (.element name attrs) children =>
    let tag := name.localName
    if !isTagName tag then printAll style children
    else
      "<" ++ tag ++ attributesText attrs ++
        if isVoid tag && children.isEmpty then (if style.xhtml then "/>" else ">")
        else ">" ++ printAll style children ++ "</" ++ tag ++ ">"

/-- The text of trees that stand side by side. -/
def printAll (style : Style) : List Tree → String
  | [] => ""
  | tree :: rest => print style tree ++ printAll style rest

end

/-- The text of a node of a store, itself included. -/
def toHtml (style : Style) (dom : Dom) (link : Link) : String := print style (dom.tree link)

/-- The text of the children of a node. -/
def innerHtml (style : Style) (dom : Dom) (link : Link) : String :=
  printAll style (dom.childTrees link)

end RichDoc.Html
