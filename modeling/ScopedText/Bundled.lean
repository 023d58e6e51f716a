import ScopedText.Bundled.Lua
import ScopedText.Regex.Search
import ScopedText.Registry

/-!
# The bundled registry

The registry that comes with a grammar and its settings.
-/

namespace ScopedText

/-- The registry with the Lua grammar and its settings. -/
def Registry.builtin : Except Error Registry := do
  let (_, r) ← ({} : Registry).addSource Bundled.lua
  let r := Bundled.luaAliases.foldl (fun r other => r.addAlias Bundled.lua.name other) r
  r.addSettingsSource Bundled.luaSettings

end ScopedText
