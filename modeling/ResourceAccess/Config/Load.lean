import ResourceAccess.Config.Basic
import ResourceAccess.Config.Document
import ResourceAccess.Config.Environment

/-!
# Loading the configuration

The environment lies above the document, and the document above the defaults.
-/

namespace ResourceAccess.Config

/-- The configuration of a document, if there is one, and of the environment. -/
def load (document : Option String) (environment : Environment.Variables) : Fitted Config :=
  match document with
  | none => ofSetting (Environment.setting environment)
  | some text =>
    match Document.settings? text with
    | none => .error .malformed
    | some below => ofSetting (below.merge (Environment.setting environment))

def ofToml (text : String) : Fitted Config :=
  match Document.settings? text with
  | none => .error .malformed
  | some s => ofSetting s

end ResourceAccess.Config
