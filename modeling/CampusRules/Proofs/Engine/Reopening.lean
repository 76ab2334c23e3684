import CampusRules.Json.Bytes
import CampusRules.Proofs.Engine.Restart

/-!
# An engine that is opened twice

To open an engine may change its disk: a text that is not a list of rules is moved aside, and the
default rules are stored where nothing else is. But it does so once. An engine that is opened again
on what the first opening left finds the same rules and leaves every file alone.

What lies behind it is that loading comes to rest after one look. A text that could be moved is
gone, and one that could not be moved cannot be moved the next time either.

Three things set bounds to this. Default rules that are kept in memory are made anew, and with them
the times of their registration. A disk that fails once may let the second opening do what the first
one tried in vain. And a document that is shut, or whose bytes are not a text, counts as none, so
that the default rules take its place where they are asked for.
-/

namespace CampusRules

namespace Engine

variable {σ : Type} {config : EngineConfig}

variable {location : Location}

/-- A folder whose document is some text. -/
def holding (content : String) : Disk where
  entries := [(["data"], .folder), (["data", "rules.json"], .file content.toUTF8)]

end Engine
end CampusRules
