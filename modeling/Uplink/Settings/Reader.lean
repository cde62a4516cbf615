import Uplink.Settings
import Uplink.Text.Utf8
import Uplink.Yaml.Parser

/-!
# Settings in a file
-/

namespace Uplink
namespace Settings

/-- The settings that a YAML text denotes. -/
def ofYaml (text : String) : Except Failure Settings :=
  match (Yaml.parse? text).bind ofDocument? with
  | some settings => .ok settings
  | none => .error (.config "invalid settings")

/-- The settings in the file with the given path and content.  There is no content if the file does
not exist; a file that is not a text cannot be read either. -/
def load (path : String) (content : Option (List UInt8)) : Except Failure Settings :=
  match content.bind Text.ofUtf8? with
  | some text => ofYaml text
  | none => .error (.io ("read " ++ path) none)

end Settings
end Uplink
