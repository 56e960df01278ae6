import RichDoc.Markup.Char

/-!
# Document types

A page can begin with its document type: a name, and perhaps a public identifier, a system
identifier or both, in quotes. A page is old when its type is not written by these rules, or has
another name or an identifier from the time before there were common rules.
-/

namespace RichDoc.Markup

/-- The identifiers of a document type. -/
structure Doctype where
  name : List Char
  publicId : Option (List Char)
  systemId : Option (List Char)
  deriving DecidableEq, Repr, Inhabited

namespace Doctype

/-- Read text in quotes, and what is left. -/
def quoted (cs : List Char) : Option (List Char × List Char) :=
  let upTo (quote : Char) (rest : List Char) : Option (List Char × List Char) :=
    let text := rest.takeWhile (· != quote)
    match rest.drop text.length with
    | [] => none
    | _ :: after => some (text, after)
  match cs with
  | '"' :: rest => upTo '"' rest
  | '\x27' :: rest => upTo '\x27' rest
  | _ => none

/-- Read the system identifier of a type. What comes after it is not looked at. -/
def readSystem (name : List Char) (publicId : Option (List Char)) (cs : List Char) :
    Option Doctype :=
  (quoted (cs.dropWhile isGap)).map fun found => ⟨name, publicId, some found.1⟩

/-- Read the public identifier of a type, and a system identifier if more follows. -/
def readPublic (name : List Char) (cs : List Char) : Option Doctype :=
  match quoted (cs.dropWhile isGap) with
  | none => none
  | some (publicId, rest) =>
    if rest.all isGap then some ⟨name, some publicId, none⟩
    else readSystem name (some publicId) rest

/-- Read the document type between its keyword and its closing bracket, if it is written by the
rules. -/
def read (cs : List Char) : Option Doctype :=
  let content := cs.dropWhile isGap
  let name := content.takeWhile fun c => !isGap c
  let rest := (content.drop name.length).dropWhile isGap
  if name.isEmpty then none
  else if rest.isEmpty then some ⟨name, none, none⟩
  else if startsWithWord "public" rest then readPublic name (rest.drop 6)
  else if startsWithWord "system" rest then readSystem name none (rest.drop 6)
  else none

/-- The owners of old types with their descriptions of these types, in lower case. -/
def oldTypes : List (String × List String) :=
  [("-//advasoft ltd", ["html 3.0 aswedit + extensions"]),
    ("-//as", ["html 3.0 aswedit + extensions"]),
    ("-//ietf", ["html 2.0 level 1", "html 2.0 level 2", "html 2.0 strict level 1",
      "html 2.0 strict level 2", "html 2.0 strict", "html 2.0", "html 2.1e", "html 3.0",
      "html 3.2 final", "html 3.2", "html 3", "html level 0", "html level 1", "html level 2",
      "html level 3", "html strict level 0", "html strict level 1", "html strict level 2",
      "html strict level 3", "html strict", "html"]),
    ("-//metrius", ["metrius presentational"]),
    ("-//microsoft", ["internet explorer 2.0 html strict", "internet explorer 2.0 html",
      "internet explorer 2.0 tables", "internet explorer 3.0 html strict",
      "internet explorer 3.0 html", "internet explorer 3.0 tables"]),
    ("-//netscape comm. corp.", ["html", "strict html"]),
    ("-//o\x27reilly and associates", ["html 2.0", "html extended 1.0",
      "html extended relaxed 1.0"]),
    ("-//softquad software", ["hotmetal pro 6.0::19990601::extensions to html 4.0"]),
    ("-//softquad", ["hotmetal pro 4.0::19971010::extensions to html 4.0"]),
    ("-//spyglass", ["html 2.0 extended"]),
    ("-//sq", ["html 2.0 hotmetal + extensions"]),
    ("-//sun microsystems corp.", ["hotjava html", "hotjava strict html"]),
    ("-//w3c", ["html 3 1995-03-24", "html 3.2 draft", "html 3.2 final", "html 3.2",
      "html 3.2s draft", "html 4.0 frameset", "html 4.0 transitional",
      "html experimental 19960712", "html experimental 970421", "w3 html"]),
    ("-//w3o", ["w3 html 3.0"]),
    ("-//webtechs", ["mozilla html 2.0", "mozilla html"])]

/-- Types that are old unless they have a system identifier. -/
def looseTypes : List (String × List String) :=
  [("-//w3c", ["html 4.01 frameset", "html 4.01 transitional"])]

/-- Public identifiers of old types. -/
def oldPublicIds : List String :=
  ["-//w3o//dtd w3 html strict 3.0//en//", "-/w3c/dtd html 4.0 transitional/en", "html"]

/-- The parts, between slashes, of the system identifiers of old types. -/
def oldSystemIds : List (List String) :=
  [["http:", "", "www.ibm.com", "data", "dtd", "v11", "ibmxhtml1-transitional.dtd"]]

/-- Whether a public identifier begins with an owner and a description out of a table. -/
def isAmong (types : List (String × List String)) (publicId : List Char) : Bool :=
  types.any fun row => row.2.any fun description =>
    startsWithWord (row.1 ++ "//dtd " ++ description ++ "//") publicId

/-- Whether the type is of an old page. -/
def isOld (type : Doctype) : Bool :=
  let hasOldPublicId := match type.publicId with
    | none => false
    | some id => oldPublicIds.contains (String.ofList (id.map fold)) || isAmong oldTypes id ||
        (type.systemId.isNone && isAmong looseTypes id)
  let hasOldSystemId := match type.systemId with
    | none => false
    | some id => (oldSystemIds.map fun parts => "/".intercalate parts).contains
        (String.ofList (id.map fold))
  type.name.map fold != "html".toList || hasOldPublicId || hasOldSystemId

end Doctype

end RichDoc.Markup
