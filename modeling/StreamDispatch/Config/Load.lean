import StreamDispatch.Config.Consistent
import StreamDispatch.Config.Documents
import StreamDispatch.Document.Json.Printer
import StreamDispatch.Document.Json.Reader
import StreamDispatch.Document.Toml.Assembly
import StreamDispatch.Document.Toml.Printer
import StreamDispatch.Text.AsciiFold
import StreamDispatch.Text.Utf8

/-!
# Loading and writing settings

Settings are loaded from a TOML or a JSON text, and checked. The format of a file is told by
the extension of its name, before the file is read.

## Main definitions

* `Settings.parse`, `Settings.load`: settings from a text, and checked ones.
* `Settings.loadFile`: settings from a file.
* `Settings.print`: settings as a text.
-/

namespace StreamDispatch

/-- The format that an extension stands for, whatever the case of its letters. -/
def Format.ofExtension? (extension : String) : Option Format :=
  if foldName extension = "toml" then some .toml
  else if foldName extension = "json" then some .json
  else none

/-- The name of a format. -/
def Format.name : Format → String
  | .toml => "toml"
  | .json => "json"

/-- The last name in a path, without slashes after it. -/
def lastName (path : String) : List Char :=
  ((path.toList.reverse.dropWhile (· = '/')).takeWhile (· ≠ '/')).reverse

/-- What follows the last point of a file name. There is no extension without a point, nor
if the only point is the first character, nor in the name of a parent directory. -/
def extensionOf? (path : String) : Option String :=
  let name := lastName path
  if name = "..".toList then none
  else
    let extension := (name.reverse.takeWhile (· ≠ '.')).reverse
    if extension.length + 1 < name.length then some (String.ofList extension)
    else none

namespace Settings

/-- Settings from a text, not yet checked. -/
def parse (format : Format) (content : String) : Except Error Settings :=
  let failed (fault : Fault) : Except Error Settings :=
    .error (.unparsable (.document format fault))
  match format with
  | .json =>
    let reading := Json.read (symbolsOf content)
    match ofDocument .json reading.document with
    | .error fault => failed fault
    | .ok s => if reading.complete then .ok s else failed .malformed
  | .toml =>
    match ofDocument .toml (Toml.read content) with
    | .error fault => failed fault
    | .ok s => .ok s

/-- Settings from a text, checked. -/
def load (format : Format) (content : String) : Except Error Settings := do
  let s ← parse format content
  s.check
  .ok s

/-- Settings from a file of the given name; without content there is no such file. -/
def loadFile (file : String) (content : Option Bytes) : Except Error Settings :=
  match extensionOf? file with
  | none => .error (.unparsable .noExtension)
  | some extension =>
    match Format.ofExtension? extension with
    | none => .error (.unparsable (.unknownExtension extension))
    | some format =>
      match content with
      | none => .error (.file .missing)
      | some octets =>
        match Utf8.decode octets with
        | .error _ => .error (.file .notUtf8)
        | .ok text => load format text

/-- Settings as a text. -/
def print (format : Format) (s : Settings) : Except Error String :=
  match format with
  | .json => .ok (Json.pretty s.toDocument)
  | .toml =>
    match Toml.print s.toDocument with
    | some text => .ok text
    | none => .error (.unparsable (.unwritable .toml))

end Settings

end StreamDispatch
