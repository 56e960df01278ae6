import RichDoc.Dom.Basic

/-!
# Kinds of elements

What reading does with an element depends on its name only. Here are the groups of names that the
rules ask for, and the names that have another spelling in drawings and formulas.
-/

namespace RichDoc.Markup

/-- Whether a name is an HTML name out of a list. -/
def isHtmlOf (names : List String) (name : QualName) : Bool :=
  name.ns == .html && names.contains name.localName

/-- Parts of formulas that hold ordinary text. -/
def isFormulaText (name : QualName) : Bool :=
  name.ns == .mathml && ["mi", "mo", "mn", "ms", "mtext"].contains name.localName

/-- Parts of drawings that hold ordinary content. -/
def isDrawingText (name : QualName) : Bool :=
  name.ns == .svg && ["foreignObject", "desc", "title"].contains name.localName

/-- Elements that an end tag of an ordinary element does not reach across. No element of a drawing
or a formula is one. -/
def isSpecial (name : QualName) : Bool :=
  isHtmlOf ["address", "applet", "area", "article", "aside", "base", "basefont", "bgsound",
    "blockquote", "body", "br", "button", "caption", "center", "col", "colgroup", "dd", "details",
    "dir", "div", "dl", "dt", "embed", "fieldset", "figcaption", "figure", "footer", "form",
    "frame", "frameset", "h1", "h2", "h3", "h4", "h5", "h6", "head", "header", "hgroup", "hr",
    "html", "iframe", "img", "input", "isindex", "li", "link", "listing", "main", "marquee", "menu",
    "meta", "nav", "noembed", "noframes", "noscript", "object", "ol", "p", "param", "plaintext",
    "pre", "script", "section", "select", "source", "style", "summary", "table", "tbody", "td",
    "template", "textarea", "tfoot", "th", "thead", "title", "tr", "track", "ul", "wbr",
    "xmp"] name

/-- How far an open element is seen from inside. -/
inductive Scope where
  | element
  | button
  | listItem
  | table
  deriving DecidableEq, Repr

/-- Whether an element hides from a scope what is outside it. -/
def Scope.ends (scope : Scope) (name : QualName) : Bool :=
  let common := isHtmlOf ["applet", "caption", "html", "table", "td", "th", "marquee", "object",
    "select", "template"] name || isFormulaText name || isDrawingText name
  match scope with
  | .element => common
  | .button => common || isHtmlOf ["button"] name
  | .listItem => common || isHtmlOf ["ol", "ul"] name
  | .table => isHtmlOf ["html", "table", "template"] name

/-- Elements whose end tag may be left out before another end tag. -/
def impliedEnds : List String :=
  ["dd", "dt", "li", "optgroup", "option", "p", "rb", "rp", "rt", "rtc"]

/-- Elements whose end tag may be left out before the end of a template. -/
def impliedEndsInTemplate : List String :=
  impliedEnds ++ ["caption", "colgroup", "tbody", "td", "tfoot", "th", "thead", "tr"]

/-- Headings. -/
def headings : List String := ["h1", "h2", "h3", "h4", "h5", "h6"]

/-- Cells of a table. -/
def tableCells : List String := ["td", "th"]

/-- Groups of rows. -/
def rowGroups : List String := ["tbody", "tfoot", "thead"]

/-- Parts of a table that hold no text. -/
def tableParts : List String := ["table", "tbody", "tfoot", "thead", "tr"]

/-- Elements that belong into the head wherever they stand. -/
def headElements : List String :=
  ["base", "basefont", "bgsound", "link", "meta", "noframes", "script", "style", "template",
    "title"]

/-- The lower case of a text in ASCII. -/
def lowerText (text : String) : String := String.ofList (text.toList.map Char.toLower)

/-- The word of a list that is a name but for the case of its letters, else the name. -/
def respell (words : List String) (name : String) : String :=
  (words.find? fun word => lowerText word == name).getD name

/-- Elements of drawings with capitals in their names. -/
def drawingElements : List String :=
  ["altGlyph", "altGlyphDef", "altGlyphItem", "animateColor", "animateMotion", "animateTransform",
    "clipPath", "feBlend", "feColorMatrix", "feComponentTransfer", "feComposite",
    "feConvolveMatrix", "feDiffuseLighting", "feDisplacementMap", "feDistantLight", "feDropShadow",
    "feFlood", "feFuncA", "feFuncB", "feFuncG", "feFuncR", "feGaussianBlur", "feImage", "feMerge",
    "feMergeNode", "feMorphology", "feOffset", "fePointLight", "feSpecularLighting", "feSpotLight",
    "feTile", "feTurbulence", "foreignObject", "glyphRef", "linearGradient", "radialGradient",
    "textPath"]

/-- Attributes of drawings with capitals in their names. -/
def drawingAttributes : List String :=
  ["attributeName", "attributeType", "baseFrequency", "baseProfile", "calcMode", "clipPathUnits",
    "diffuseConstant", "edgeMode", "filterUnits", "glyphRef", "gradientTransform", "gradientUnits",
    "kernelMatrix", "kernelUnitLength", "keyPoints", "keySplines", "keyTimes", "lengthAdjust",
    "limitingConeAngle", "markerHeight", "markerUnits", "markerWidth", "maskContentUnits",
    "maskUnits", "numOctaves", "pathLength", "patternContentUnits", "patternTransform",
    "patternUnits", "pointsAtX", "pointsAtY", "pointsAtZ", "preserveAlpha", "preserveAspectRatio",
    "primitiveUnits", "refX", "refY", "repeatCount", "repeatDur", "requiredExtensions",
    "requiredFeatures", "specularConstant", "specularExponent", "spreadMethod", "startOffset",
    "stdDeviation", "stitchTiles", "surfaceScale", "systemLanguage", "tableValues", "targetX",
    "targetY", "textLength", "viewBox", "viewTarget", "xChannelSelector", "yChannelSelector",
    "zoomAndPan"]

/-- Attributes of drawings and formulas that have a name space of their own. -/
def qualifiedAttributes : List (String × QualName) :=
  [("xlink:actuate", ⟨.xlink, "actuate"⟩), ("xlink:arcrole", ⟨.xlink, "arcrole"⟩),
    ("xlink:href", ⟨.xlink, "href"⟩), ("xlink:role", ⟨.xlink, "role"⟩),
    ("xlink:show", ⟨.xlink, "show"⟩), ("xlink:title", ⟨.xlink, "title"⟩),
    ("xlink:type", ⟨.xlink, "type"⟩), ("xml:lang", ⟨.xml, "lang"⟩), ("xml:space", ⟨.xml, "space"⟩),
    ("xmlns", ⟨.xmlns, "xmlns"⟩), ("xmlns:xlink", ⟨.xmlns, "xlink"⟩)]

/-- The name of an element in its name space. -/
def elementName (ns : Namespace) (name : String) : QualName :=
  ⟨ns, if ns = .svg then respell drawingElements name else name⟩

/-- The name of an attribute of an element in a name space. -/
def attributeName (ns : Namespace) (name : String) : QualName :=
  let spelled := match ns with
    | .svg => respell drawingAttributes name
    | .mathml => respell ["definitionURL"] name
    | _ => name
  match ns with
  | .html => ⟨.unqualified, name⟩
  | _ => ((qualifiedAttributes.find? fun row => row.1 == spelled).map Prod.snd).getD
      ⟨.unqualified, spelled⟩

/-- Tags that drawings and formulas do not hold: they are left before one. -/
def leavesForeign : List String :=
  ["b", "big", "blockquote", "body", "br", "center", "code", "dd", "div", "dl", "dt", "em",
    "embed", "h1", "h2", "h3", "h4", "h5", "h6", "head", "hr", "i", "img", "li", "listing", "menu",
    "meta", "nobr", "ol", "p", "pre", "ruby", "s", "small", "span", "strong", "strike", "sub",
    "sup", "table", "tt", "u", "ul", "var"]

end RichDoc.Markup
