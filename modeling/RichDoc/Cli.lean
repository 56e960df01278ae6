import RichDoc.BasicSchema
import RichDoc.Doc.Load
import RichDoc.Serializer

/-!
# The command line

The command reads a document of the basic schema from a file and prints its HTML or writes it to
another file. Arguments are read from left to right and the first one that is wrong, or asks for the
version or for help, decides. File access is a parameter, so the command itself is a function.
-/

namespace RichDoc.Cli

/-- A request to render a document. -/
structure Request where
  input : String
  output : Option String
  strictMarks : Bool
  xhtml : Bool
  fragment : Bool
  deriving DecidableEq, Repr

/-- What the arguments ask for. -/
inductive Command where
  | render (request : Request)
  | version
  | help
  | misuse
  deriving DecidableEq, Repr

/-- The arguments read so far. -/
structure Seen where
  input : Option String
  output : Option String
  strictMarks : Bool
  xhtml : Bool
  fragment : Bool
  deriving DecidableEq, Repr

/-- No arguments. -/
def Seen.empty : Seen := ⟨none, none, false, false, false⟩

namespace Seen

/-- The request, once all arguments have been read. -/
def finish (seen : Seen) : Command :=
  match seen.input with
  | none => .misuse
  | some input =>
    .render ⟨input, seen.output, seen.strictMarks, seen.xhtml, seen.fragment⟩

/-- A path for the input. There is one input, and no path is empty. -/
def withInput (seen : Seen) (path : String) : Option Seen :=
  if path.isEmpty || seen.input.isSome then none else some { seen with input := some path }

/-- A path for the output. -/
def withOutput (seen : Seen) (path : String) : Option Seen :=
  if path.isEmpty || seen.output.isSome then none else some { seen with output := some path }

/-- A switch, which may be given once. -/
def withSwitch (seen : Seen) (name : String) : Option Seen :=
  if name = "strict-marks" then
    if seen.strictMarks then none else some { seen with strictMarks := true }
  else if name = "xhtml" then
    if seen.xhtml then none else some { seen with xhtml := true }
  else if name = "fragment" then
    if seen.fragment then none else some { seen with fragment := true }
  else none

end Seen

/-- What one argument is. -/
inductive Argument where
  | value (text : String)
  /-- An option that takes the next argument as its value. -/
  | output
  | outputTo (path : String)
  | switch (name : String)
  | version
  | help
  /-- All later arguments are values. -/
  | separator
  | unknown
  deriving DecidableEq, Repr

/-- What an argument that begins with two dashes is. -/
def longArgument (name : List Char) : Argument :=
  match name with
  | [] => .separator
  | _ =>
    let key := String.ofList (name.takeWhile (· != '='))
    match name.dropWhile (· != '=') with
    | [] =>
      if key = "output" then .output
      else if key = "version" then .version
      else if key = "help" then .help
      else .switch key
    | _ :: value => if key = "output" then .outputTo (String.ofList value) else .unknown

/-- What an argument that begins with one dash is. -/
def shortArgument (letters : List Char) : Argument :=
  match letters with
  | ['o'] => .output
  | 'o' :: '=' :: value => .outputTo (String.ofList value)
  | 'o' :: value => .outputTo (String.ofList value)
  | 'V' :: _ => .version
  | 'h' :: _ => .help
  | _ => .unknown

/-- What an argument is. A dash alone is a value. -/
def Argument.of (text : String) : Argument :=
  match text.toList with
  | ['-'] => .value text
  | '-' :: '-' :: name => longArgument name
  | '-' :: letters => shortArgument letters
  | _ => .value text

/-- Read arguments that are all values. -/
def readValues (seen : Seen) : List String → Command
  | [] => seen.finish
  | value :: rest =>
    match seen.withInput value with
    | none => .misuse
    | some seen => readValues seen rest

/-- Read arguments from left to right. -/
def read (seen : Seen) : List String → Command
  | [] => seen.finish
  | text :: rest =>
    match Argument.of text with
    | .value value =>
      match seen.withInput value with
      | none => .misuse
      | some seen => read seen rest
    | .output =>
      match rest with
      | [] => .misuse
      | next :: rest =>
        match Argument.of next with
        | .value path =>
          match seen.withOutput path with
          | none => .misuse
          | some seen => read seen rest
        | _ => .misuse
    | .outputTo path =>
      match seen.withOutput path with
      | none => .misuse
      | some seen => read seen rest
    | .switch name =>
      match seen.withSwitch name with
      | none => .misuse
      | some seen => read seen rest
    | .version => .version
    | .help => .help
    | .separator => readValues seen rest
    | .unknown => .misuse

/-- What the arguments of the command ask for. -/
def Command.ofArgs (args : List String) : Command := read .empty args

/-- How the command ends: its exit code and what it prints on both channels. -/
structure Outcome where
  code : Nat
  out : String
  err : String
  deriving DecidableEq, Repr

/-- Access to files. -/
structure Files (m : Type → Type) where
  read : String → m (Except FileFault ByteArray)
  write : String → String → m (Except FileFault Unit)

/-- The name and the version. -/
def versionText : String := "prosedom 0.1.0\n"

/-- The usage line. -/
def usageText : String := "Usage: prosedom [OPTIONS] <INPUT>\n"

/-- The help text. -/
def helpText : String :=
  "Render JSON rich-text documents as HTML\n\n" ++ usageText ++
  "\nArguments:\n" ++
  "  <INPUT>  Input document (JSON, basic schema)\n" ++
  "\nOptions:\n" ++
  "  -o, --output <OUTPUT>  Output file; prints to stdout when omitted\n" ++
  "      --strict-marks     Fail on broken mark templates instead of dropping the wrapper\n" ++
  "      --xhtml            Print void elements XHTML style\n" ++
  "      --fragment         Print only the content of the top node\n" ++
  "  -h, --help             Print help\n" ++
  "  -V, --version          Print version\n" ++
  "\nEXAMPLES:\n" ++
  "    prosedom doc.json                 Print the document as HTML\n" ++
  "    prosedom doc.json -o doc.html     Write the HTML to a file\n" ++
  "    prosedom doc.json --xhtml         Close void elements (<br/>)\n"

/-- The document in the bytes of a file. -/
def loadBytes (bytes : ByteArray) : Except Error Node :=
  match String.fromUTF8? bytes with
  | none => .error (.file .notUtf8)
  | some text => ((BasicSchema.schema.loadText text).run 0).1

/-- The HTML of a document. A document whose type has no template shows its content only. -/
def renderDocument (request : Request) (doc : Node) : Except Error String :=
  let serializer := Serializer.ofSchema BasicSchema.schema
  let policy : MarkPolicy := if request.strictMarks then .strict else .lenient
  let style : Html.Style := ⟨request.xhtml⟩
  if request.fragment || !serializer.templates.hasNode doc.typeName then
    serializer.fragmentToHtml policy style doc.content
  else serializer.nodeToHtml policy style doc

/-- The outcome of a failure. -/
def Outcome.failure (error : Error) : Outcome := ⟨1, "", "error: " ++ error.message ++ "\n"⟩

/-- Render the document of a request. -/
def render {m : Type → Type} [Monad m] (files : Files m) (request : Request) : m Outcome := do
  match ← files.read request.input with
  | .error fault => return .failure (.file fault)
  | .ok bytes =>
    match (loadBytes bytes).bind (renderDocument request) with
    | .error error => return .failure error
    | .ok html =>
      match request.output with
      | none => return ⟨0, html ++ "\n", ""⟩
      | some path =>
        match ← files.write path html with
        | .error fault => return .failure (.file fault)
        | .ok () => return ⟨0, "", ""⟩

/-- Run the command with its arguments. -/
def run {m : Type → Type} [Monad m] (files : Files m) (args : List String) : m Outcome :=
  match Command.ofArgs args with
  | .version => pure ⟨0, versionText, ""⟩
  | .help => pure ⟨0, helpText, ""⟩
  | .misuse => pure ⟨2, "", "error: unexpected arguments\n\n" ++ usageText⟩
  | .render request => render files request

end RichDoc.Cli
