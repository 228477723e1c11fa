import IntentGate.Policy.Condition
import IntentGate.Text.Ascii
import IntentGate.Yaml.Value

/-!
# Policy files

A policy file holds a document in one of two formats, told apart by the ending of its name: YAML for
`yaml` and `yml` in any case, JSON for every other. The text has to be UTF-8. Loading a file reads
its document and compiles it, and the first fault on that way refuses the file.
-/

namespace IntentGate

/-- How a policy file is written. -/
inductive FileFormat where
  | json
  | yaml
deriving DecidableEq, Repr

namespace FileFormat

/-- The ending of a file name: what follows its last dot, unless nothing precedes that dot. -/
def ending? (name : String) : Option String :=
  let reversed := name.toList.reverse
  match reversed.dropWhile (· != '.') with
  | _ :: _ :: _ =>
    if name == ".." then none
    else some (String.ofList (reversed.takeWhile (· != '.')).reverse)
  | _ => none

/-- The format of a file, by its name. -/
def ofName (name : String) : FileFormat :=
  match ending? name with
  | some ending => if ["yaml", "yml"].contains (Text.asciiLower ending) then yaml else json
  | none => json

end FileFormat

namespace PolicyDocument

/-- Reads a document in one of the formats. -/
def ofText (format : FileFormat) (text : String) : Except StoreFault PolicyDocument :=
  match format with
  | .json => (ofJsonText? text).elim (.error .json) .ok
  | .yaml => (ofYamlText? text).elim (.error .yaml) .ok

/-- Reads the document of a file, given its content if there is such a file. -/
def ofFile (name : String) (content : Option ByteArray) : Except StoreFault PolicyDocument :=
  match content with
  | none => .error (.unreadable "No such file or directory (os error 2)")
  | some bytes =>
    match String.fromUTF8? bytes with
    | none => .error (.unreadable "stream did not contain valid UTF-8")
    | some text => ofText (FileFormat.ofName name) text

end PolicyDocument

/-- Loads the policy of a file, given its content if there is such a file. -/
def Policy.ofFile (name : String) (content : Option ByteArray) :
    Except StoreFault (Policy Intent) :=
  (PolicyDocument.ofFile name content).bind PolicyDocument.compile

end IntentGate
