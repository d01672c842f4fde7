import LedWall.Toml.Document
import LedWall.Toml.Writer

/-!
# Formats

Settings are kept as tables, and nothing about them depends on how a table is spelled. A format spells
tables and reads them back.
-/

namespace LedWall.Toml

/-- A way to spell tables and to read them. -/
class Format where
  write? : Table → Option String
  read? : String → Option Table

instance : Format := ⟨write?, parse?⟩

end LedWall.Toml
